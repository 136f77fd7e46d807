import StackProfile.Proofs.FileLines
import StackProfile.Proofs.ProfileTrees

/-!
# Samples of a folded profile

`Counts byFirst ss p`: the profile weighs at every path the stacks of `ss` that go through it.
`addStack` preserves it.
-/

namespace StackProfile

open CallTree (tallyAt nodesAt DistinctAll)

namespace Folded

/-! ## The tree of a stack -/

section Chains

variable {count : Int} {f : Frame} {fs : List Frame} {t : CallTree Frame}

theorem chain_cons (count : Int) (f : Frame) (fs : List Frame) :
    ∃ t, chain count (f :: fs) = some t ∧ t.payload = f ∧ t.weight = max count 0 ∧
      t.children = (chain count fs).toList := by
  cases hfs : chain count fs with
  | none => exact ⟨.leaf f count, by rw [chain, hfs], rfl, rfl, rfl⟩
  | some inner => exact ⟨(CallTree.leaf f count).graft inner, by rw [chain, hfs], rfl, rfl, rfl⟩

theorem sound_chain (hc : count ≤ maxTime) (h : chain count fs = some t) : t.Sound := by
  induction fs generalizing t with
  | nil => cases h
  | cons f fs ih =>
    unfold chain at h
    split at h
    · cases h; exact CallTree.sound_leaf f hc
    · next inner hinner => cases h; exact (CallTree.sound_leaf f hc).graft (ih hinner)

theorem distinct_chain (h : chain count fs = some t) : t.Distinct := by
  induction fs generalizing t with
  | nil => cases h
  | cons f fs ih =>
    unfold chain at h
    split at h
    · cases h; exact CallTree.distinct_leaf f count
    · next inner hinner => cases h; exact (CallTree.distinct_leaf f count).graft (ih hinner)

theorem tallyAt_chain (count : Int) (fs : List Frame) {path : List Frame} (hp : path ≠ []) :
    tallyAt path (chain count fs).toList =
      if path.isPrefixOf fs then tally [count] else none := by
  induction fs generalizing path with
  | nil =>
    rw [show chain count [] = none from rfl, Option.toList_none, CallTree.tallyAt_nil]
    cases path <;> simp_all
  | cons f fs ih =>
    obtain ⟨t, ht, hpayload, hweight, hchildren⟩ := chain_cons count f fs
    rw [ht, Option.toList_some, CallTree.tallyAt]
    match path with
    | [] => exact absurd rfl hp
    | g :: path =>
      by_cases hg : f = g
      · have hself : t.payload == g := by rw [hpayload, hg, beq_self_eq_true]
        match path with
        | [] =>
          rw [CallTree.nodesAt_self hself, List.map_singleton, hweight, tally_singleton,
            tally_singleton, Int.max_assoc, Int.max_self]
          simp [hg]
        | h :: path =>
          have hbelow := ih (List.cons_ne_nil h path)
          rw [CallTree.nodesAt_children hself, hchildren, ← CallTree.tallyAt, hbelow, hg]
          simp
      · have hother : ¬t.payload == g := by rw [hpayload]; simpa using hg
        rw [CallTree.nodesAt_of_payload_ne path hother]
        simp [Ne.symm hg]

end Chains

/-! ## Counted paths -/

/-- Whether `s` counts at `path` under `e`: its frames begin with `path`, after `e` if grouped. -/
def goesThrough (byFirst : Bool) (e : Frame) (path : List Frame) (s : Stack) : Bool :=
  if byFirst then (e :: path).isPrefixOf s.frames else e = ungrouped && path.isPrefixOf s.frames

def passes (byFirst : Bool) (path : List Frame) (s : Stack) : Bool :=
  path.isPrefixOf (if byFirst then s.frames.drop 1 else s.frames)

theorem goesThrough_iff {byFirst : Bool} {e : Frame} {path : List Frame} {s : Stack} :
    goesThrough byFirst e path s ↔
      ∃ fs, placement byFirst s = some (e, fs) ∧ path.isPrefixOf fs := by
  unfold goesThrough placement
  cases byFirst with
  | false => simp [eq_comm (a := e)]
  | true =>
    cases s.frames with
    | nil => simp
    | cons f fs => simp [eq_comm (a := e)]

theorem passes_iff {byFirst : Bool} {path : List Frame} {s : Stack} (hp : path ≠ []) :
    passes byFirst path s ↔ ∃ e fs, placement byFirst s = some (e, fs) ∧ path.isPrefixOf fs := by
  unfold passes placement
  cases byFirst with
  | false => simp
  | true =>
    cases s.frames with
    | nil => simpa using hp
    | cons f fs => simp

/-! ## Adding up -/

section Counting

variable {byFirst : Bool} {ss : List Stack} {p : Profile Frame Frame} {s : Stack}

/-- A stack is dropped, makes its element known, or adds a tree to it. -/
theorem addStack_cases (byFirst : Bool) (p : Profile Frame Frame) (s : Stack) :
    (placement byFirst s = none ∧ addStack byFirst p s = p) ∨
      (∃ e, placement byFirst s = some (e, []) ∧ addStack byFirst p s = p.addRoot e) ∨
      ∃ e fs t, placement byFirst s = some (e, fs) ∧ chain s.count fs = some t ∧
        addStack byFirst p s = p.addTree e t := by
  unfold addStack
  cases hs : placement byFirst s with
  | none => exact .inl ⟨rfl, rfl⟩
  | some x =>
    obtain ⟨e, fs⟩ := x
    cases fs with
    | nil => exact .inr (.inl ⟨e, rfl, rfl⟩)
    | cons f fs =>
      obtain ⟨t, ht, -⟩ := chain_cons s.count f fs
      refine .inr (.inr ⟨e, f :: fs, t, rfl, ht, ?_⟩)
      simp only [addPath, ht]

/-- The profile of `ss`: each path weighs what the stacks through it count. -/
structure Counts (byFirst : Bool) (ss : List Stack) (p : Profile Frame Frame) : Prop where
  sound : p.Sound
  distinct : ∀ e, DistinctAll (p.treesOf e)
  tallies : ∀ e path, path ≠ [] →
    tallyAt path (p.treesOf e) = tally ((ss.filter (goesThrough byFirst e path)).map Stack.count)
  totals : ∀ path, path ≠ [] →
    tallyAt path p.allTrees = tally ((ss.filter (passes byFirst path)).map Stack.count)

theorem Counts.empty : Counts byFirst [] {} where
  sound := Profile.sound_empty
  distinct _ := .nil
  tallies _ path _ := CallTree.tallyAt_nil path
  totals path _ := CallTree.tallyAt_nil path

theorem tally_filter_left {keep : Stack → Bool} (h : ¬keep s) :
    tally (((ss ++ [s]).filter keep).map Stack.count) =
      tally ((ss.filter keep).map Stack.count) := by
  simp [List.filter_append, h]

theorem tallyAt_append_chain {ts : List (CallTree Frame)} {fs path : List Frame}
    {t : CallTree Frame} {keep : Stack → Bool} (ht : chain s.count fs = some t) (hp : path ≠ [])
    (hkeep : keep s ↔ path.isPrefixOf fs)
    (h : tallyAt path ts = tally ((ss.filter keep).map Stack.count)) :
    tallyAt path (ts ++ [t]) = tally (((ss ++ [s]).filter keep).map Stack.count) := by
  have hchain := tallyAt_chain s.count fs hp
  rw [ht, Option.toList_some] at hchain
  rw [CallTree.tallyAt_append, hchain, h, List.filter_append, List.map_append, tally_append]
  by_cases hs : keep s
  · simp [hs, hkeep.mp hs]
  · simp [hs, mt hkeep.mpr hs]

/-- `addStack` counts one more stack. -/
theorem Counts.addStack (h : Counts byFirst ss p) (hs : s.count ≤ maxTime) :
    Counts byFirst (ss ++ [s]) (addStack byFirst p s) := by
  rcases addStack_cases byFirst p s with
    ⟨hnone, heq⟩ | ⟨d, hroot, heq⟩ | ⟨d, fs, t, hplace, ht, heq⟩
  · rw [heq]
    refine ⟨h.sound, h.distinct, fun e path hp => ?_, fun path hp => ?_⟩
    · rw [h.tallies e path hp, tally_filter_left]
      simp [goesThrough_iff, hnone]
    · rw [h.totals path hp, tally_filter_left]
      simp [passes_iff hp, hnone]
  · have htrees : (p.addRoot d).treesOf = p.treesOf := funext (Profile.treesOf_addRoot p d)
    rw [heq]
    refine ⟨h.sound.addRoot d, htrees ▸ h.distinct, fun e path hp => ?_, fun path hp => ?_⟩
    · rw [htrees, h.tallies e path hp, tally_filter_left]
      simp [goesThrough_iff, hroot, hp]
    · rw [Profile.allTrees_addRoot, h.totals path hp, tally_filter_left]
      simp [passes_iff hp, hroot, hp]
  · have htsound := sound_chain hs ht
    rw [heq]
    refine ⟨h.sound.addTree d htsound, fun e => ?_, fun e path hp => ?_, fun path hp => ?_⟩
    · rw [Profile.treesOf_addTree]
      split
      · exact (h.distinct e).insert (distinct_chain ht)
      · exact h.distinct e
    · have hthrough : goesThrough byFirst e path s ↔ d = e ∧ path.isPrefixOf fs := by
        rw [goesThrough_iff, hplace]
        simp
      rw [Profile.treesOf_addTree]
      split
      · next he =>
        rw [CallTree.tallyAt_insert (h.sound.treesOf e) htsound]
        exact tallyAt_append_chain ht hp (hthrough.trans (and_iff_right he.symm))
          (h.tallies e path hp)
      · next he =>
        rw [h.tallies e path hp, tally_filter_left]
        exact fun hgoes => he (hthrough.mp hgoes).1.symm
    · have hpasses : passes byFirst path s ↔ path.isPrefixOf fs := by
        rw [passes_iff hp, hplace]
        simp
      rw [h.sound.tallyAt_allTrees_addTree htsound]
      exact tallyAt_append_chain ht hp hpasses (h.totals path hp)

/-- The profile of stacks counts them. -/
theorem counts_foldl (byFirst : Bool) (hs : ∀ s ∈ ss, s.count ≤ maxTime) :
    Counts byFirst ss (ss.foldl (Folded.addStack byFirst) {}) := by
  induction ss using List.reverseRecOn with
  | nil => exact .empty
  | append_singleton ss s ih =>
    rw [List.foldl_append]
    exact (ih fun r hr => hs r (List.mem_append_left _ hr)).addStack
      (hs s (List.mem_append_right _ List.mem_cons_self))

end Counting

/-! ## Reading a text -/

theorem isSample_iff {byFirst : Bool} {s : Stack} :
    isSample byFirst s ↔ ∃ e f, goesThrough byFirst e [f] s := by
  simp only [goesThrough_iff]
  unfold isSample
  split
  · next e f fs hs => simp [hs]
  · next hs =>
    refine iff_of_false (by simp) ?_
    rintro ⟨e, f, fs, hplace, hf⟩
    cases fs with
    | nil => simp at hf
    | cons g fs => exact hs e g fs hplace

theorem count_le {line : List Char} {s : Stack} (h : stackOf? line = some s) :
    s.count ≤ maxTime := by
  obtain ⟨-, hreads⟩ := stackOf?_eq_some.mp h
  cases hreads with
  | counted _ hn =>
    unfold Text.readInt? at hn
    have hrange := (Option.filter_eq_some_iff.mp hn).2
    simp only [Bool.and_eq_true, decide_eq_true_eq] at hrange
    exact hrange.2
  | uncounted => exact maxTime_pos

theorem stacksOf_eq (text : List Char) :
    stacksOf text = (text.splitOn '\n').filterMap stackOf? := by
  rw [stacksOf, Text.splitOn_eq]

theorem count_le_of_mem {text : List Char} : ∀ s ∈ stacksOf text, s.count ≤ maxTime := by
  intro s hs
  obtain ⟨line, -, hline⟩ := List.mem_filterMap.mp hs
  exact count_le hline

theorem read_of_decode {byFirst : Bool} {bytes : ByteArray} {text : String}
    (h : Utf8.decode bytes = .ok text) : read byFirst bytes = readText byFirst text := by
  rw [read, h]

theorem readText_eq_ok {byFirst : Bool} {text : String} {p : Profile Frame Frame} :
    readText byFirst text = .ok p ↔ (stacksOf text.toList).any (isSample byFirst) ∧
      (stacksOf text.toList).foldl (Folded.addStack byFirst) {} = p := by
  unfold readText
  by_cases hany : (stacksOf text.toList).any (isSample byFirst) <;> simp [hany]

theorem readText_cases (byFirst : Bool) (text : String) :
    (readText byFirst text = .error .empty ∧
        ∀ s ∈ stacksOf text.toList, ∀ e f, ¬goesThrough byFirst e [f] s) ∨
      ∃ p, readText byFirst text = .ok p ∧ Counts byFirst (stacksOf text.toList) p ∧
        ∃ s ∈ stacksOf text.toList, ∃ e f, goesThrough byFirst e [f] s := by
  unfold readText
  by_cases hany : (stacksOf text.toList).any (isSample byFirst)
  · obtain ⟨s, hs, hsample⟩ := List.any_eq_true.mp hany
    exact .inr ⟨_, if_pos hany, counts_foldl byFirst count_le_of_mem, s, hs,
      isSample_iff.mp hsample⟩
  · refine .inl ⟨if_neg hany, fun s hs e f hgoes => hany ?_⟩
    exact List.any_eq_true.mpr ⟨s, hs, isSample_iff.mpr ⟨e, f, hgoes⟩⟩

/-- Every sample counts once at each node of its stack and nowhere else. A text is refused iff no
stack has a path. Else `path` has a node under `e` iff some stack goes through it, only one,
weighing what those stacks count. -/
theorem samples_counted_once (byFirst : Bool) (text : String) :
    (∀ line s, stackOf? line = some s ↔ IsStackLine line ∧ Reads (Text.trim line) s) ∧
      let ss := (text.toList.splitOn '\n').filterMap stackOf?
      match read byFirst text.toUTF8 with
      | .error err => err = .empty ∧ ∀ s ∈ ss, ∀ e f, ¬goesThrough byFirst e [f] s
      | .ok p =>
        (∃ s ∈ ss, ∃ e f, goesThrough byFirst e [f] s) ∧
          ∀ e f fs,
            let counted := ss.filter (goesThrough byFirst e (f :: fs))
            let nodes := nodesAt (f :: fs) (p.treesOf e)
            nodes.length ≤ 1 ∧ (nodes ≠ [] ↔ counted ≠ []) ∧
              ∀ t ∈ nodes, t.weight = min maxTime (weightSum (counted.map Stack.count)) := by
  refine ⟨fun line s => stackOf?_eq_some, ?_⟩
  intro ss
  have hss : stacksOf text.toList = ss := stacksOf_eq text.toList
  rw [read_of_decode (Utf8.decode_eq_ok.mpr rfl)]
  rcases readText_cases byFirst text with ⟨hread, hnone⟩ | ⟨p, hread, hcounts, hsome⟩
  · rw [hread]
    exact ⟨rfl, hss ▸ hnone⟩
  · rw [hread]
    refine ⟨hss ▸ hsome, fun e f fs => ?_⟩
    intro counted nodes
    have htally : tally (nodes.map CallTree.weight) = tally (counted.map Stack.count) := by
      have h := hcounts.tallies e (f :: fs) (List.cons_ne_nil f fs)
      rwa [hss] at h
    have hone : nodes.length ≤ 1 := CallTree.length_nodesAt_le _ (hcounts.distinct e)
    have hsound : ∀ t ∈ nodes, t.Sound := CallTree.sound_nodesAt (hcounts.sound.treesOf e)
    obtain ⟨hnodes, hweight⟩ := CallTree.weight_of_tally hsound hone htally
    exact ⟨hone, hnodes.trans (not_congr List.map_eq_nil_iff), hweight⟩

end Folded

end StackProfile

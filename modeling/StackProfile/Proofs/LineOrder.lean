import Mathlib
import StackProfile.Command.Run
import StackProfile.Proofs.AlikeSession
import StackProfile.Proofs.SameWeights
import StackProfile.Proofs.SampleCount

/-!
# The order of lines

Profiles of permuted stacks have equal tallies at every path. Sessions on them have equal logs
where the order of elements is not observed.
-/

namespace StackProfile

open CallTree (AlikeAll)
open Command (samples)

/-! ## Profiles of one element -/

namespace Profile

variable {α ε : Type} {p : Profile α ε} {e : ε} {ts : List (CallTree α)}

theorem roots_coarsen_succ [BEq α] [Grouping ε] (h : p.roots = [.node e ts []]) (n : Nat) :
    (p.coarsen (n + 1)).roots = [.node e (p.allTrees.foldl CallTree.insert []) []] := by
  rw [allTrees_of_lone h, Profile.coarsen, h]
  cases n with
  | zero =>
    simp [Branch.cutBelowIn, Branch.cutBelow, Branch.gather, Branch.all, Branch.allIn,
      Branch.trees, Branch.element]
  | succ n => rfl

end Profile

/-! ## Profiles of stacks -/

namespace Folded

variable {byFirst : Bool} {ss ss' : List Stack} {p p' : Profile Frame Frame}

theorem Counts.treesOf_alike (h : Counts byFirst ss p) (h' : Counts byFirst ss' p')
    (hss : ss.Perm ss') (e : Frame) : AlikeAll (p.treesOf e) (p'.treesOf e) := by
  have hweights : SameWeights (p.treesOf e) (p'.treesOf e) := fun f path => by
    rw [h.tallies e _ (List.cons_ne_nil f path), h'.tallies e _ (List.cons_ne_nil f path)]
    exact tally_perm ((hss.filter _).map _)
  exact hweights.alikeAll Frame.toString_injective ⟨h.sound.treesOf e, h.distinct e⟩
    ⟨h'.sound.treesOf e, h'.distinct e⟩

/-- The merged trees of a profile of stacks are tidy and weigh what the stacks count. -/
theorem Counts.merged (h : Counts byFirst ss p) :
    Tidy (p.allTrees.foldl CallTree.insert []) ∧ ∀ f path,
      CallTree.tallyAt (f :: path) (p.allTrees.foldl CallTree.insert []) =
        tally ((ss.filter (passes byFirst (f :: path))).map Stack.count) := by
  have hsound := h.sound.of_mem_allTrees
  have hdistinct : ∀ t ∈ p.allTrees, t.Distinct := by
    intro t ht
    rw [h.sound.allTrees_eq] at ht
    obtain ⟨e, -, ht⟩ := List.mem_flatMap.mp ht
    exact (h.distinct e).trees t ht
  refine ⟨⟨CallTree.sound_foldl_insert (by simp) hsound,
    CallTree.DistinctAll.nil.foldl_insert hdistinct⟩, fun f path => ?_⟩
  rw [CallTree.tallyAt_foldl_insert (by simp) hsound, List.nil_append,
    h.totals _ (List.cons_ne_nil f path)]

theorem Counts.merged_alike (h : Counts byFirst ss p) (h' : Counts byFirst ss' p')
    (hss : ss.Perm ss') :
    AlikeAll (p.allTrees.foldl CallTree.insert []) (p'.allTrees.foldl CallTree.insert []) := by
  obtain ⟨htidy, htally⟩ := h.merged
  obtain ⟨htidy', htally'⟩ := h'.merged
  have hweights : SameWeights (p.allTrees.foldl CallTree.insert [])
      (p'.allTrees.foldl CallTree.insert []) := fun f path => by
    rw [htally, htally']
    exact tally_perm ((hss.filter _).map _)
  exact hweights.alikeAll Frame.toString_injective htidy htidy'

theorem roots_addStack (hp : p.roots = [] ∨ ∃ ts, p.roots = [.node ungrouped ts []]) (s : Stack) :
    ∃ ts, (addStack false p s).roots = [.node ungrouped ts []] := by
  have hroot : ∃ ts, (p.addRoot ungrouped).roots = [.node ungrouped ts []] := by
    rcases hp with hp | ⟨ts, hp⟩
    · have hunknown : ungrouped ∉ p.elements := by
        simp [Profile.elements, Profile.branches, hp, Branch.allIn]
      exact ⟨[], by rw [Profile.roots_addRoot hunknown, hp]; rfl⟩
    · exact ⟨ts, by rw [Profile.addRoot_of_mem (Profile.mem_elements_of_lone hp), hp]⟩
  rcases addStack_cases false p s with ⟨hnone, -⟩ | ⟨e, hplace, heq⟩ | ⟨e, fs, t, hplace, -, heq⟩
  · cases hnone
  · obtain rfl : ungrouped = e := (Prod.mk.inj (Option.some.inj hplace)).1
    rw [heq]
    exact hroot
  · obtain rfl : ungrouped = e := (Prod.mk.inj (Option.some.inj hplace)).1
    obtain ⟨ts, hts⟩ := hroot
    have hknown : (p.addRoot ungrouped).addRoot ungrouped = p.addRoot ungrouped :=
      Profile.addRoot_of_mem (Profile.mem_elements_addRoot_self p ungrouped)
    have htree : p.addTree ungrouped t = (p.addRoot ungrouped).addTree ungrouped t := by
      rw [Profile.addTree, Profile.addTree, hknown]
    rw [heq, htree, Profile.roots_addTree_of_lone hts t]
    exact ⟨_, rfl⟩

theorem roots_foldl (hss : ss ≠ []) :
    ∃ ts, (ss.foldl (addStack false) {}).roots = [.node ungrouped ts []] := by
  induction ss using List.reverseRecOn with
  | nil => exact absurd rfl hss
  | append_singleton ss s ih =>
    rw [List.foldl_append]
    refine roots_addStack ?_ s
    by_cases hnil : ss = []
    · exact .inl (by rw [hnil]; rfl)
    · exact .inr (ih hnil)

/-- Profiles of permuted stacks are alike at a level with a single element. -/
theorem Counts.atLevel_alike (h : Counts byFirst ss p) (h' : Counts byFirst ss' p')
    (hss : ss.Perm ss') {level : Option Nat}
    (hlone : level = some 0 ∨ (∃ ts, p.roots = [.node ungrouped ts []]) ∧
      ∃ ts, p'.roots = [.node ungrouped ts []]) :
    Profile.Alike (.exact Frame) ((level.map p.coarsen).getD p)
      ((level.map p'.coarsen).getD p') := by
  have hmerged := h.merged_alike h' hss
  have hlowest : Profile.Alike (.exact Frame) (p.coarsen 0) (p'.coarsen 0) :=
    Profile.alike_of_lone p.roots_coarsen_zero p'.roots_coarsen_zero rfl hmerged
  rcases hlone with rfl | ⟨⟨ts, hp⟩, ts', hp'⟩
  · exact hlowest
  · match level with
    | none =>
      have htrees := h.treesOf_alike h' hss ungrouped
      rw [Profile.treesOf_of_lone hp, Profile.treesOf_of_lone hp'] at htrees
      exact Profile.alike_of_lone hp hp' rfl htrees
    | some 0 => exact hlowest
    | some (n + 1) =>
      exact Profile.alike_of_lone (Profile.roots_coarsen_succ hp n)
        (Profile.roots_coarsen_succ hp' n) rfl hmerged

end Folded

/-! ## Sessions -/

namespace Command

variable {title title' : String} {p p' : Profile Frame Frame}

theorem samples_showsAlike (title title' : String) (p p' : Profile Frame Frame) :
    (samples title p).ShowsAlike (samples title' p') where
  analysis := rfl
  weightMetric := rfl
  metrics := rfl
  metricValue h := by
    funext i
    cases i with
    | zero => exact congrArg (fun n => Except.ok (MetricValue.integer n)) h.own
    | succ i => rfl
  summaryOf _ := by
    funext index
    cases index with
    | weight => rfl
    | additional i => cases i <;> rfl
  display h := h.name

theorem new_samples_alike (title title' : String) (p p' : Profile Frame Frame) (config : Config) :
    (Engine.new (samples title p) config).ShowsAlike (Engine.new (samples title' p') config) where
  style {t t'} h s := by
    have hkey : Palette.keyFor config.paletteSize (toString t.payload) =
        Palette.keyFor config.paletteSize (toString t'.payload) :=
      congrArg (Palette.keyFor config.paletteSize) h.name
    exact congrArg (fun key => { s with style := some (Style.reference key) }) hkey
  sheet := rfl
  config := rfl
  index := Index.alike_empty

theorem profileFor_samples (title : String) (p : Profile Frame Frame) (level : Option Nat)
    (range : Option (Int × Int)) :
    Engine.profileFor (fun _ => samples title p) level range = (level.map p.coarsen).getD p :=
  Engine.profileFor_of_source (by cases range <;> rfl) level

end Command

namespace Folded

/-- The calls that do not see the order of elements. With grouping, trees only at level 0. -/
def IgnoresElements (byFirst : Bool) : Call → Prop
  | .tree q _ => byFirst → q.level = .ok (some 0)
  | .node _ _ => False
  | .rows _ _ | .tooltip _ _ | .styles => True

variable {byFirst : Bool} {ss ss' : List Stack}

theorem run_samples_perm (hss : ss.Perm ss') (hne : ss ≠ [])
    (hcount : ∀ s ∈ ss, s.count ≤ maxTime) (title title' : String) (config : Config)
    {calls : List Call} (hcalls : ∀ c ∈ calls, IgnoresElements byFirst c) :
    let p := ss.foldl (addStack byFirst) {}
    let p' := ss'.foldl (addStack byFirst) {}
    Engine.logOf (samples title p) config calls =
      Engine.logOf (samples title' p') config calls := by
  intro p p'
  have h : Counts byFirst ss p := counts_foldl byFirst hcount
  have h' : Counts byFirst ss' p' :=
    counts_foldl byFirst fun s hs => hcount s (hss.mem_iff.mpr hs)
  have hshows := Command.samples_showsAlike title title' p p'
  have hnew := Command.new_samples_alike title title' p p' config
  refine Engine.run_alike hnew hshows fun c hc => ?_
  have hcall := hcalls c hc
  cases c with
  | tree q token =>
    intro level range hlevel
    rw [Command.profileFor_samples, Command.profileFor_samples]
    refine h.atLevel_alike h' hss ?_
    cases byFirst with
    | true =>
      rw [hcall rfl] at hlevel
      exact .inl (Except.ok.inj hlevel).symm
    | false =>
      have hne' : ss' ≠ [] := fun hnil => hne (List.perm_nil.mp (hnil ▸ hss))
      exact .inr ⟨roots_foldl hne, roots_foldl hne'⟩
  | rows q token => trivial
  | tooltip q token => trivial
  | styles => trivial
  | node id time => exact hcall

/-- A profile is a bag of lines. Permuted files are readable alike, and their engines answer all
calls alike; with grouping by first frames, this is for trees at level 0. -/
theorem profiles_are_bags_of_lines (byFirst : Bool) {lines lines' : List (List UInt8)}
    (hlines : lines.Perm lines') (title title' : String) (config : Config) :
    match read byFirst (fileOf lines), read byFirst (fileOf lines') with
    | .ok p, .ok p' =>
      ∀ calls : List Call, (∀ c ∈ calls, IgnoresElements byFirst c) →
        Engine.logOf (samples title p) config calls =
          Engine.logOf (samples title' p') config calls
    | .error _, .error _ => True
    | _, _ => False := by
  cases hdecode : Utf8.decode (fileOf lines) with
  | error err =>
    cases hdecode' : Utf8.decode (fileOf lines') with
    | error err' => simp only [read, hdecode, hdecode']
    | ok text' =>
      obtain ⟨text, htext, -⟩ := decode_fileOf_perm hlines.symm hdecode'
      rw [hdecode] at htext
      cases htext
  | ok text =>
    obtain ⟨text', hdecode', hperm⟩ := decode_fileOf_perm hlines hdecode
    rw [read_of_decode hdecode, read_of_decode hdecode']
    unfold readText
    simp only [← hperm.any_eq]
    by_cases hany : (stacksOf text.toList).any (isSample byFirst)
    · rw [if_pos hany, if_pos hany]
      intro calls hcalls
      have hne : stacksOf text.toList ≠ [] := fun hnil => by
        rw [hnil] at hany
        cases hany
      exact run_samples_perm hperm hne count_le_of_mem title title' config hcalls
    · rw [if_neg hany, if_neg hany]
      trivial

/-- Two lines in both orders, asked for a tree, a row and a tooltip. -/
theorem profiles_are_bags_of_lines_sample :
    let lines := [Utf8.encode "main;draw 3".toList, Utf8.encode "io;read 5".toList]
    let calls : List Call :=
      [.tree (Query.withLevel {} 0) .live, .rows (Query.withTimes {} [0]) .live,
        .tooltip ((Query.withTimes {} [0]).withItems [2]) .live]
    lines.Perm lines.reverse ∧ (∀ c ∈ calls, IgnoresElements true c) ∧
      ∃ p p', read true (fileOf lines) = .ok p ∧ read true (fileOf lines.reverse) = .ok p' ∧
        Engine.logOf (samples "a" p) {} calls = Engine.logOf (samples "b" p') {} calls := by
  intro lines calls
  have hperm : lines.Perm lines.reverse := lines.reverse_perm.symm
  have hcalls : ∀ c ∈ calls, IgnoresElements true c := by
    intro c hc
    simp only [calls, List.mem_cons, List.not_mem_nil, or_false] at hc
    rcases hc with rfl | rfl | rfl
    · exact fun _ => by cbv
    · trivial
    · trivial
  refine ⟨hperm, hcalls, ?_⟩
  have hdecode : Utf8.decode (fileOf lines) = .ok "main;draw 3\nio;read 5" :=
    Utf8.decode_eq_ok.mpr (by decide)
  have hdecode' : Utf8.decode (fileOf lines.reverse) = .ok "io;read 5\nmain;draw 3" :=
    Utf8.decode_eq_ok.mpr (by decide)
  have h := profiles_are_bags_of_lines true hperm "a" "b" {}
  have hread : ∃ p, read true (fileOf lines) = .ok p := by
    rw [read_of_decode hdecode]
    exact ⟨_, by cbv⟩
  have hread' : ∃ p, read true (fileOf lines.reverse) = .ok p := by
    rw [read_of_decode hdecode']
    exact ⟨_, by cbv⟩
  obtain ⟨p, hp⟩ := hread
  obtain ⟨p', hp'⟩ := hread'
  rw [hp, hp'] at h
  exact ⟨p, p', hp, hp', h calls hcalls⟩

end Folded

end StackProfile

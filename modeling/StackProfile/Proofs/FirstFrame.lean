import Mathlib
import StackProfile.Proofs.MergeSteps
import StackProfile.Proofs.SampleCount

/-!
# Stacks grouped by first frame

`Splits g u` relates a grouped to an ungrouped profile: elements of `g` are root payloads of `u`,
with the children of the roots as trees. Each stack preserves it.
-/

namespace StackProfile

/-! ## Roots and their children -/

namespace CallTree

variable {α : Type} [BEq α] [LawfulBEq α] {ts : List (CallTree α)} {t : CallTree α}

def childrenAt (p : α) (ts : List (CallTree α)) : List (CallTree α) :=
  ((ts.find? fun t => t.payload == p).map children).getD []

theorem map_payload_insert_of_mem (h : t.payload ∈ ts.map payload) :
    (insert ts t).map payload = ts.map payload := by
  induction ts with
  | nil => cases h
  | cons s rest ih =>
    by_cases hs : s.payload == t.payload
    · rw [insert_cons_of_beq hs, List.map_cons, List.map_cons, payload_absorb]
    · have hrest : t.payload ∈ rest.map payload :=
        (List.mem_cons.mp h).resolve_left fun heq => hs (beq_iff_eq.mpr heq.symm)
      rw [insert_cons_of_ne hs, List.map_cons, List.map_cons, ih hrest]

theorem map_payload_insert_of_not_mem (h : t.payload ∉ ts.map payload) :
    (insert ts t).map payload = ts.map payload ++ [t.payload] := by
  have hlast : insert ts t = ts ++ [t] := settle_eq_append fun s hs heq =>
    h (beq_iff_eq.mp heq ▸ List.mem_map_of_mem hs)
  rw [hlast, List.map_append, List.map_singleton]

/-- The children at `p` after an insertion. -/
theorem childrenAt_insert [DecidableEq α] (ht : Apart t.children) (p : α) :
    childrenAt p (insert ts t) =
      if p = t.payload then absorbAll (childrenAt p ts) t.children else childrenAt p ts := by
  induction ts with
  | nil =>
    have hnil : insert [] t = [t] := rfl
    by_cases hp : p = t.payload
    · have hmerged : absorbAll [] t.children = t.children := by
        rw [absorbAll_eq_foldl, ht.foldl_insert]
      simp [childrenAt, hnil, hp, hmerged]
    · simp [childrenAt, hnil, hp, Ne.symm hp]
  | cons s rest ih =>
    by_cases hs : s.payload == t.payload
    · rw [insert_cons_of_beq hs]
      rw [beq_iff_eq] at hs
      by_cases hp : p = t.payload
      · simp [childrenAt, hp, hs, children_absorb]
      · simp [childrenAt, hp, hs, Ne.symm hp]
    · rw [insert_cons_of_ne hs]
      rw [beq_iff_eq] at hs
      by_cases hsp : s.payload = p
      · have hp : p ≠ t.payload := fun hp => hs (hsp.trans hp)
        simp [childrenAt, hsp, hp]
      · simpa [childrenAt, hsp] using ih

theorem childrenAt_payload (h : Apart ts) (ht : t ∈ ts) : childrenAt t.payload ts = t.children := by
  induction ts with
  | nil => cases ht
  | cons s rest ih =>
    obtain ⟨hne, hrest⟩ := List.pairwise_cons.mp h
    rcases List.mem_cons.mp ht with rfl | ht
    · simp [childrenAt]
    · have hst := hne t ht
      simpa [childrenAt, hst] using ih hrest ht

end CallTree

open CallTree (childrenAt)

/-! ## Elements -/

namespace Profile

variable {α ε : Type} [DecidableEq ε] {p : Profile α ε} {e : ε}

theorem rootElements_addRoot (h : e ∉ p.elements) :
    (p.addRoot e).rootElements = p.rootElements ++ [e] := by
  rw [rootElements, roots_addRoot h, List.map_append]
  rfl

theorem rootElements_addTree [BEq α] (p : Profile α ε) (e : ε) (t : CallTree α) :
    (p.addTree e t).rootElements = (p.addRoot e).rootElements :=
  Branch.map_element_modifyIn_addTree t (p.addRoot e).roots

end Profile

namespace Folded

variable {g u : Profile Frame Frame}

theorem elements_addPath (p : Profile Frame Frame) (e : Frame) (path : List Frame) (count : Int) :
    (addPath p e path count).elements = (p.addRoot e).elements := by
  unfold addPath
  cases chain count path with
  | none => rfl
  | some t => exact Profile.elements_addTree p e t

theorem rootElements_addPath (p : Profile Frame Frame) (e : Frame) (path : List Frame)
    (count : Int) : (addPath p e path count).rootElements = (p.addRoot e).rootElements := by
  unfold addPath
  cases chain count path with
  | none => rfl
  | some t => exact Profile.rootElements_addTree p e t

/-- `addPath` adds its chain, which may be empty, to the trees of `e`. -/
theorem treesOf_addPath (p : Profile Frame Frame) (e d : Frame) (path : List Frame) (count : Int) :
    (addPath p e path count).treesOf d =
      if d = e then CallTree.absorbAll (p.treesOf d) (chain count path).toList
      else p.treesOf d := by
  unfold addPath
  cases chain count path with
  | none =>
    rw [Profile.treesOf_addRoot, Option.toList_none, CallTree.absorbAll, ite_self]
  | some t =>
    rw [Profile.treesOf_addTree, Option.toList_some, CallTree.absorbAll, CallTree.absorbAll,
      CallTree.insert]

/-! ## Both profiles, stack by stack -/

/-- `g` has an element for each root of `u`, with the children of the root as trees. -/
structure Splits (g u : Profile Frame Frame) : Prop where
  elements : g.elements = (u.treesOf ungrouped).map CallTree.payload
  roots : g.rootElements = g.elements
  trees : ∀ f, g.treesOf f = childrenAt f (u.treesOf ungrouped)

theorem Splits.empty : Splits {} {} := ⟨rfl, rfl, fun _ => rfl⟩

/-- A stack extends a root of `u` as it extends the trees of an element of `g`. -/
theorem Splits.addTree (h : Splits g u) {f : Frame} {fs : List Frame} {count : Int}
    {t : CallTree Frame} (ht : chain count (f :: fs) = some t) :
    Splits (addPath g f fs count) (u.addTree ungrouped t) := by
  obtain ⟨t', ht', hpayload, -, hchildren⟩ := chain_cons count f fs
  obtain rfl : t' = t := Option.some.inj (ht'.symm.trans ht)
  have hnew : (u.addTree ungrouped t').treesOf ungrouped =
      CallTree.insert (u.treesOf ungrouped) t' := by
    rw [Profile.treesOf_addTree, if_pos rfl]
  have hapart : CallTree.Apart t'.children := (distinct_chain ht).children.apart
  refine ⟨?_, ?_, fun d => ?_⟩
  · rw [elements_addPath, hnew]
    by_cases hf : f ∈ g.elements
    · have hmem : t'.payload ∈ (u.treesOf ungrouped).map CallTree.payload := by
        rwa [hpayload, ← h.elements]
      rw [Profile.addRoot_of_mem hf, CallTree.map_payload_insert_of_mem hmem, h.elements]
    · have hmem : t'.payload ∉ (u.treesOf ungrouped).map CallTree.payload := by
        rwa [hpayload, ← h.elements]
      rw [Profile.elements_addRoot hf, CallTree.map_payload_insert_of_not_mem hmem,
        h.elements, hpayload]
  · rw [rootElements_addPath, elements_addPath]
    by_cases hf : f ∈ g.elements
    · rw [Profile.addRoot_of_mem hf, h.roots]
    · rw [Profile.rootElements_addRoot hf, Profile.elements_addRoot hf,
        h.roots]
  · rw [treesOf_addPath, hnew, CallTree.childrenAt_insert hapart, hpayload, hchildren, h.trees]

theorem Splits.addStack (h : Splits g u) (s : Stack) :
    Splits (addStack true g s) (addStack false u s) := by
  obtain ⟨frames, count⟩ := s
  cases frames with
  | nil =>
    have htrees : (u.addRoot ungrouped).treesOf = u.treesOf :=
      funext (Profile.treesOf_addRoot u ungrouped)
    show Splits g (u.addRoot ungrouped)
    exact ⟨htrees ▸ h.elements, h.roots, htrees ▸ h.trees⟩
  | cons f fs =>
    obtain ⟨t, ht, -⟩ := chain_cons count f fs
    have hwhole : Folded.addStack false u ⟨f :: fs, count⟩ = u.addTree ungrouped t := by
      rw [Folded.addStack, placement]
      simp only [addPath, ht]
    rw [hwhole]
    exact h.addTree ht

theorem splits_foldl (ss : List Stack) :
    Splits (ss.foldl (Folded.addStack true) {}) (ss.foldl (Folded.addStack false) {}) := by
  induction ss using List.reverseRecOn with
  | nil => exact .empty
  | append_singleton ss s ih =>
    rw [List.foldl_append, List.foldl_append]
    exact ih.addStack s

theorem isSample_false {s : Stack} (h : isSample true s) : isSample false s := by
  obtain ⟨frames, count⟩ := s
  match frames with
  | [] => cases h
  | _ :: _ => rfl

/-- Grouping by first frames splits the roots. A file readable when grouped is readable ungrouped;
the grouped elements are the payloads of the ungrouped roots, in order and all at the top, and their
trees are the children of the roots. -/
theorem grouped_is_split_ungrouped {bytes : ByteArray} {g : Profile Frame Frame}
    (h : read true bytes = .ok g) :
    ∃ u, read false bytes = .ok u ∧
      let roots := u.treesOf ungrouped
      g.rootElements = roots.map CallTree.payload ∧
      g.elements = roots.map CallTree.payload ∧ g.elements.Nodup ∧
      ∀ root ∈ roots, g.treesOf root.payload = root.children := by
  cases hdecode : Utf8.decode bytes with
  | error err =>
    rw [read, hdecode] at h
    cases h
  | ok text =>
    rw [read_of_decode hdecode] at h
    obtain ⟨hany, rfl⟩ := readText_eq_ok.mp h
    obtain ⟨s, hs, hsample⟩ := List.any_eq_true.mp hany
    have hungrouped : (stacksOf text.toList).any (isSample false) :=
      List.any_eq_true.mpr ⟨s, hs, isSample_false hsample⟩
    refine ⟨(stacksOf text.toList).foldl (addStack false) {}, ?_, ?_⟩
    · rw [read_of_decode hdecode]
      exact readText_eq_ok.mpr ⟨hungrouped, rfl⟩
    · have hsplits := splits_foldl (stacksOf text.toList)
      have hgrouped := counts_foldl true (@count_le_of_mem text.toList)
      have hwhole := counts_foldl false (@count_le_of_mem text.toList)
      refine ⟨hsplits.roots.trans hsplits.elements, hsplits.elements, hgrouped.sound.distinct, ?_⟩
      intro root hroot
      rw [hsplits.trees]
      exact CallTree.childrenAt_payload (hwhole.distinct ungrouped).apart hroot

/-- Two stacks of one thread, and one frame without callees. -/
theorem grouped_is_split_ungrouped_threads :
    let bytes := "main;draw 3\nio 5\nmain;read 2".toUTF8
    ∃ g u, read true bytes = .ok g ∧ read false bytes = .ok u ∧
      g.elements = ["main", "io"] ∧
      ∀ root ∈ u.treesOf ungrouped, g.treesOf root.payload = root.children := by
  intro bytes
  have hdecode : Utf8.decode bytes = .ok "main;draw 3\nio 5\nmain;read 2" :=
    Utf8.decode_eq_ok.mpr rfl
  have hread : ∃ g, read true bytes = .ok g ∧ g.elements = ["main", "io"] := by
    rw [read_of_decode hdecode]
    exact ⟨_, rfl, by cbv⟩
  obtain ⟨g, hg, helements⟩ := hread
  obtain ⟨u, hu, -, -, -, htrees⟩ := grouped_is_split_ungrouped hg
  exact ⟨g, u, hg, hu, helements, htrees⟩

end Folded

end StackProfile

import StackProfile.Comparison
import StackProfile.Proofs.AlikeTree
import StackProfile.Proofs.MergeSteps
import StackProfile.Proofs.PathWeight

/-!
# Annotated trees

`Comparison.annotate` on `Comparable` trees: the nodes and their weights stay (`mapAll_annotateAll`,
`tallyAt_annotateAll`), and each difference is taken from the base node at the same path
(`nodesAt_annotateAll`). With equal siblings only the tallies stay.
-/

namespace StackProfile

open Layout (ordered)

variable {α β : Type}

/-! ## Copies of trees -/

namespace CallTree

mutual

def bare : CallTree α → CallTree α
  | .node p w h cs _ => .node p w h (bareAll cs) []

def bareAll : List (CallTree α) → List (CallTree α)
  | [] => []
  | t :: ts => bare t :: bareAll ts

end

theorem heightOver_bareAll (h : Nat) (ts : List (CallTree α)) :
    heightOver h (bareAll ts) = heightOver h ts := by
  induction ts generalizing h with
  | nil => rfl
  | cons t ts ih =>
    obtain ⟨p, w, k, cs, xs⟩ := t
    rw [bareAll, heightOver_cons, heightOver_cons, ih]
    rfl

variable [ToString α] [ToString β] {f : α → β}

end CallTree

/-! ## Annotating -/

namespace CallTree

variable [BEq α]

theorem sound_foldl_graft {t : CallTree α} {cs : List (CallTree α)} (ht : t.Sound)
    (hcs : ∀ c ∈ cs, c.Sound) : (cs.foldl graft t).Sound := by
  induction cs generalizing t with
  | nil => exact ht
  | cons c cs ih =>
    obtain ⟨hc, hcs⟩ := List.forall_mem_cons.mp hcs
    exact ih (ht.graft hc) hcs

/-- Sound trees whose children `annotate` does not merge. -/
structure Comparable (t : CallTree α) : Prop where
  sound : t.Sound
  apart : t.ChildrenApart

theorem Comparable.children {t : CallTree α} (h : t.Comparable) :
    ∀ c ∈ t.children, c.Comparable := fun c hc =>
  ⟨h.sound.children c hc, h.apart.children c hc⟩

theorem foldl_graft (t : CallTree α) (cs : List (CallTree α)) :
    cs.foldl graft t = .node t.payload t.weight (heightOver t.height cs)
      (cs.foldl insert t.children) t.extras := by
  induction cs generalizing t with
  | nil =>
    obtain ⟨p, w, h, cs, xs⟩ := t
    rfl
  | cons c cs ih => rw [List.foldl_cons, ih]; rfl

end CallTree

namespace Comparison

open CallTree (nodesAt tallyAt mapAll bareAll Apart)

variable [BEq α]

instance [PartialEquivBEq α] : PartialEquivBEq (Change α) where
  symm h := BEq.symm (α := α) h
  trans h h' := BEq.trans (α := α) h h'

theorem annotateAll_eq_map (base ts : List (CallTree α)) :
    annotateAll base ts =
      ts.map fun t => annotate (base.find? fun b => b.payload == t.payload) t := by
  induction ts with
  | nil => rfl
  | cons t ts ih => rw [annotateAll, ih, List.map_cons]

theorem payload_annotate (base : Option (CallTree α)) (t : CallTree α) :
    (annotate base t).payload = ⟨t.payload, differenceFrom base t.weight⟩ := by
  obtain ⟨p, w, h, cs, xs⟩ := t
  rw [annotate, CallTree.foldl_graft]
  rfl

theorem apart_annotateAll (base : List (CallTree α)) {ts : List (CallTree α)} (h : Apart ts) :
    Apart (annotateAll base ts) := by
  rw [annotateAll_eq_map]
  refine List.pairwise_map.mpr (h.imp fun {s t} hst => ?_)
  rw [payload_annotate, payload_annotate]
  exact hst

/-- If annotating the children copies them, `annotate` copies the tree. -/
theorem annotate_of_copies {base : Option (CallTree α)} {t : CallTree α} (ht : t.Comparable)
    (hcopies : mapAll Change.object
      (annotateAll ((base.map CallTree.children).getD []) t.children) = bareAll t.children) :
    annotate base t = .node ⟨t.payload, differenceFrom base t.weight⟩ t.weight t.height
      (annotateAll ((base.map CallTree.children).getD []) t.children) [] := by
  obtain ⟨p, w, h, cs, xs⟩ := t
  have hmerged := (apart_annotateAll ((base.map CallTree.children).getD [])
    ht.apart.pairwise).foldl_insert
  have hweight : max w 0 = w := Int.max_eq_left ht.sound.weight_nonneg
  have hheight : h = CallTree.heightOver 1 cs := ht.sound.height_eq
  have hheights := congrArg (CallTree.heightOver 1) hcopies
  rw [CallTree.heightOver_mapAll, CallTree.heightOver_bareAll] at hheights
  simp only [annotate, CallTree.foldl_graft, CallTree.leaf, CallTree.payload, CallTree.weight,
    CallTree.height, CallTree.children, CallTree.extras] at hmerged hheights ⊢
  rw [hmerged, hweight, hheights, ← hheight]

mutual

theorem map_annotate (base : Option (CallTree α)) : (t : CallTree α) → t.Comparable →
    (annotate base t).map Change.object = t.bare
  | .node p w h cs xs, ht => by
    have hcopies := mapAll_annotateAll ((base.map CallTree.children).getD []) cs ht.children
    rw [annotate_of_copies ht hcopies, CallTree.map]
    exact congrArg (CallTree.node p w h · []) hcopies

/-- `annotateAll` copies comparable trees, payloads aside. -/
theorem mapAll_annotateAll (base : List (CallTree α)) : (ts : List (CallTree α)) →
    (∀ t ∈ ts, t.Comparable) → mapAll Change.object (annotateAll base ts) = bareAll ts
  | [], _ => rfl
  | t :: ts, h => by
    obtain ⟨ht, hts⟩ := List.forall_mem_cons.mp h
    rw [annotateAll, mapAll, bareAll, map_annotate _ t ht, mapAll_annotateAll base ts hts]

end

mutual

theorem sound_annotate (base : Option (CallTree α)) : (t : CallTree α) → t.Sound →
    (annotate base t).Sound
  | .node p w h cs xs, ht => by
    rw [annotate]
    exact CallTree.sound_foldl_graft (CallTree.sound_leaf _ ht.weight_le)
      (sound_annotateAll _ cs ht.children)

theorem sound_annotateAll (base : List (CallTree α)) : (ts : List (CallTree α)) →
    (∀ t ∈ ts, t.Sound) → ∀ d ∈ annotateAll base ts, d.Sound
  | [], _ => fun _ hd => nomatch hd
  | t :: ts, h => by
    obtain ⟨ht, hts⟩ := List.forall_mem_cons.mp h
    exact List.forall_mem_cons.mpr ⟨sound_annotate _ t ht, sound_annotateAll base ts hts⟩

end

theorem weight_annotate (base : Option (CallTree α)) {t : CallTree α} (ht : t.Sound) :
    (annotate base t).weight = t.weight := by
  obtain ⟨p, w, h, cs, xs⟩ := t
  rw [annotate, CallTree.foldl_graft]
  exact Int.max_eq_left ht.weight_nonneg

theorem children_annotate (base : Option (CallTree α)) (t : CallTree α) :
    (annotate base t).children =
      (annotateAll ((base.map CallTree.children).getD []) t.children).foldl CallTree.insert [] := by
  obtain ⟨p, w, h, cs, xs⟩ := t
  rw [annotate, CallTree.foldl_graft]
  rfl

mutual

theorem tallyAt_annotate [PartialEquivBEq α] (base : Option (CallTree α)) : (t : CallTree α) →
    t.Sound → ∀ path : List (Change α),
      tallyAt path [annotate base t] = tallyAt (path.map Change.object) [t]
  | .node p w h cs xs, ht, path => by
    set t := CallTree.node p w h cs xs
    have hpayload : ∀ c : Change α, (annotate base t).payload == c ↔ t.payload == c.object :=
      fun c => by rw [payload_annotate]; rfl
    match path with
    | [] => rfl
    | c :: path =>
      rw [List.map_cons, tallyAt, tallyAt]
      by_cases hc : t.payload == c.object
      · have hd := (hpayload c).mpr hc
        match path with
        | [] =>
          rw [CallTree.nodesAt_self hd, List.map_nil, CallTree.nodesAt_self hc, List.map_singleton,
            List.map_singleton, weight_annotate base ht]
        | d :: path =>
          have hsound := sound_annotateAll ((base.map CallTree.children).getD []) cs ht.children
          have hmerged := CallTree.tallyAt_foldl_insert (List.forall_mem_nil _) hsound (d :: path)
          have hchildren := tallyAt_annotateAll ((base.map CallTree.children).getD []) cs
            ht.children (d :: path)
          rw [CallTree.nodesAt_children hd, List.map_cons, CallTree.nodesAt_children hc, ← tallyAt,
            ← tallyAt, children_annotate]
          exact hmerged.trans hchildren
      · rw [CallTree.nodesAt_of_payload_ne path (mt (hpayload c).mp hc),
          CallTree.nodesAt_of_payload_ne _ hc]
        rfl

/-- `annotateAll` keeps every tally, also of equal siblings. -/
theorem tallyAt_annotateAll [PartialEquivBEq α] (base : List (CallTree α)) :
    (ts : List (CallTree α)) → (∀ t ∈ ts, t.Sound) → ∀ path : List (Change α),
      tallyAt path (annotateAll base ts) = tallyAt (path.map Change.object) ts
  | [], _, path => by rw [annotateAll, CallTree.tallyAt_nil, CallTree.tallyAt_nil]
  | t :: ts, h, path => by
    obtain ⟨ht, hts⟩ := List.forall_mem_cons.mp h
    have hhead := tallyAt_annotate (base.find? fun b => b.payload == t.payload) t ht path
    have hrest := tallyAt_annotateAll base ts hts path
    rw [annotateAll, ← List.singleton_append, CallTree.tallyAt_append, hhead, hrest,
      ← CallTree.tallyAt_append, List.singleton_append]

end

/-! ## Nodes at a path -/

variable [PartialEquivBEq α]

end Comparison

end StackProfile

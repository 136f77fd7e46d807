import StackProfile.Proofs.TrimmedTree

/-!
# Grown trees

`Grown` closes leaves under all operations on trees and profiles, at any payload types. Its trees
are sound and trimmed, and distinct if payloads are mapped injectively on each tree.
-/

namespace StackProfile

variable {α β ε : Type}

namespace CallTree

/-! ## The nodes of a tree -/

/-- Nodes of a tree, members of extra sets included. -/
inductive HasNode (t : CallTree α) : CallTree α → Prop where
  | self : HasNode t t
  | child {s c : CallTree α} : HasNode t s → c ∈ s.children → HasNode t c
  | member {s m : CallTree α} {x : List (CallTree α)} :
      HasNode t s → x ∈ s.extras → m ∈ x → HasNode t m

theorem HasNode.trans {t s n : CallTree α} (hs : t.HasNode s) (hn : s.HasNode n) : t.HasNode n := by
  induction hn with
  | self => exact hs
  | child _ hc ih => exact .child ih hc
  | member _ hx hm ih => exact .member ih hx hm

theorem Sound.of_hasNode {t n : CallTree α} (h : t.Sound) (hn : t.HasNode n) : n.Sound := by
  induction hn with
  | self => exact h
  | child _ hc ih => exact ih.children _ hc
  | member _ hx hm ih => exact ih.extras _ hx _ hm

theorem Distinct.of_hasNode [BEq α] {t n : CallTree α} (h : t.Distinct) (hn : t.HasNode n) :
    n.Distinct := by
  induction hn with
  | self => exact h
  | child _ hc ih => exact ih.children.trees _ hc
  | member _ hx hm ih => exact (ih.extras _ hx).trees _ hm

/-! ## Renaming payloads -/

/-- `f` is injective on the payloads of `t`. -/
def KeptApart [BEq α] [BEq β] (f : α → β) (t : CallTree α) : Prop :=
  ∀ s u, t.HasNode s → t.HasNode u → f s.payload == f u.payload → s.payload == u.payload

section Distinct

variable [BEq α] [BEq β] {f : α → β}

theorem Apart.mapAll {ts : List (CallTree α)} (h : Apart ts)
    (hf : ∀ s ∈ ts, ∀ u ∈ ts, f s.payload == f u.payload → s.payload == u.payload) :
    Apart (mapAll f ts) := by
  rw [mapAll_eq_map]
  refine List.pairwise_map.mpr (h.imp_of_mem fun {s u} hs hu hne heq => hne (hf s hs u hu ?_))
  rwa [payload_map, payload_map] at heq

mutual

theorem Distinct.map : {t : CallTree α} → t.Distinct → t.KeptApart f → (t.map f).Distinct
  | .node p w h cs xs, ht, hf => by
    set t := CallTree.node p w h cs xs
    have hcs : ∀ c ∈ cs, t.HasNode c := fun c hc => .child .self hc
    have hxs : ∀ x ∈ xs, ∀ m ∈ x, t.HasNode m := fun x hx m hm => .member .self hx hm
    exact .of_parts (DistinctAll.mapAll ht.children hcs hf) (distinct_mapSets ht.extras hxs hf)

theorem DistinctAll.mapAll {t : CallTree α} : {ts : List (CallTree α)} → DistinctAll ts →
    (∀ s ∈ ts, t.HasNode s) → t.KeptApart f → DistinctAll (mapAll f ts)
  | [], _, _, _ => .nil
  | s :: ts, h, hts, hf => by
    have hapart : Apart (CallTree.mapAll f (s :: ts)) :=
      h.apart.mapAll fun u hu v hv => hf u v (hts u hu) (hts v hv)
    obtain ⟨hs, -, hrest⟩ := h.cons
    obtain ⟨hsnode, hrestnodes⟩ := List.forall_mem_cons.mp hts
    have hself : s.KeptApart f := fun u v hu hv => hf u v (hsnode.trans hu) (hsnode.trans hv)
    have hmapped := DistinctAll.mapAll hrest hrestnodes hf
    exact ⟨hapart, List.forall_mem_cons.mpr ⟨hs.map hself, hmapped.trees⟩⟩

theorem distinct_mapSets {t : CallTree α} : {xs : List (List (CallTree α))} →
    (∀ x ∈ xs, DistinctAll x) → (∀ x ∈ xs, ∀ m ∈ x, t.HasNode m) → t.KeptApart f →
      ∀ x ∈ mapSets f xs, DistinctAll x
  | [], _, _, _ => by simp [mapSets]
  | x :: xs, h, hxs, hf => by
    obtain ⟨hx, hrest⟩ := List.forall_mem_cons.mp h
    obtain ⟨hxnodes, hrestnodes⟩ := List.forall_mem_cons.mp hxs
    exact List.forall_mem_cons.mpr
      ⟨DistinctAll.mapAll hx hxnodes hf, distinct_mapSets hrest hrestnodes hf⟩

end

end Distinct

end CallTree

/-! ## Growing -/

/-- A tree or a profile, at any types of payloads and elements. -/
inductive Growth : Type 1 where
  | tree {α : Type} [BEq α] (t : CallTree α)
  | profile {α ε : Type} [BEq α] [DecidableEq ε] (p : Profile α ε)

/-- Closure under the operations on trees and profiles. With `faithful`, payloads are mapped
injectively on each tree. -/
inductive Grown (faithful : Prop) : Growth → Prop where
  | leaf {α : Type} [BEq α] (p : α) {w : Int} : w ≤ maxTime → Grown faithful (.tree (.leaf p w))
  | graft {α : Type} [BEq α] {t child : CallTree α} :
      Grown faithful (.tree t) → Grown faithful (.tree child) →
        Grown faithful (.tree (t.graft child))
  | addWeight {α : Type} [BEq α] {t : CallTree α} (w : Int) :
      Grown faithful (.tree t) → Grown faithful (.tree (t.addWeight w))
  | graftExtra {α : Type} [BEq α] {t member : CallTree α} (index : Nat) :
      Grown faithful (.tree t) → Grown faithful (.tree member) →
        Grown faithful (.tree (t.graftExtra index member))
  | merge {α : Type} [BEq α] [ToString α] {t other merged : CallTree α} :
      Grown faithful (.tree t) → Grown faithful (.tree other) → t.merge other = .ok merged →
        Grown faithful (.tree merged)
  | map {α β : Type} [BEq α] [BEq β] (f : α → β) {t : CallTree α} :
      Grown faithful (.tree t) → (faithful → t.KeptApart f) → Grown faithful (.tree (t.map f))
  | treeOf {α ε : Type} [BEq α] [DecidableEq ε] {p : Profile α ε} {e : ε} {t : CallTree α} :
      Grown faithful (.profile p) → t ∈ p.treesOf e → Grown faithful (.tree t)
  | empty {α ε : Type} [BEq α] [DecidableEq ε] (titles : List String) :
      Grown faithful (.profile ({ extraTitles := titles } : Profile α ε))
  | addRoot {α ε : Type} [BEq α] [DecidableEq ε] {p : Profile α ε} (e : ε) :
      Grown faithful (.profile p) → Grown faithful (.profile (p.addRoot e))
  | addChild {α ε : Type} [BEq α] [DecidableEq ε] {p : Profile α ε} (parent e : ε) :
      Grown faithful (.profile p) → Grown faithful (.profile (p.addChild parent e))
  | addTree {α ε : Type} [BEq α] [DecidableEq ε] {p : Profile α ε} (e : ε) {t : CallTree α} :
      Grown faithful (.profile p) → Grown faithful (.tree t) →
        Grown faithful (.profile (p.addTree e t))
  | coarsen {α ε : Type} [BEq α] [DecidableEq ε] [Grouping ε] {p : Profile α ε} (level : Nat) :
      Grown faithful (.profile p) → Grown faithful (.profile (p.coarsen level))

/-! ## Invariants of growth -/

section Keeping

variable {faithful : Prop} [BEq α]

namespace CallTree

/-- Sound, trimmed, and distinct if `faithful`. -/
structure Tended (faithful : Prop) (t : CallTree α) : Prop where
  sound : t.Sound
  trimmed : t.Trimmed
  distinct : faithful → t.Distinct

structure TendedAll (faithful : Prop) (ts : List (CallTree α)) : Prop where
  apart : Apart ts
  trees : ∀ t ∈ ts, t.Tended faithful

theorem TendedAll.nil : TendedAll faithful ([] : List (CallTree α)) := ⟨.nil, by simp⟩

theorem Tended.absorb {s t : CallTree α} (hs : s.Tended faithful) (ht : t.Tended faithful) :
    (s.absorb t).Tended faithful :=
  ⟨hs.sound.absorb ht.sound, hs.trimmed.absorb ht.trimmed,
    fun h => (hs.distinct h).absorb (ht.distinct h)⟩

theorem TendedAll.distinct {ts : List (CallTree α)} (h : TendedAll True ts) : DistinctAll ts :=
  ⟨h.apart, fun t ht => (h.trees t ht).distinct trivial⟩

theorem Tended.children {t : CallTree α} (h : t.Tended True) : TendedAll True t.children where
  apart := (h.distinct trivial).children.apart
  trees c hc := ⟨h.sound.children c hc, h.trimmed.children c hc,
    (h.distinct ·|>.children.trees c hc)⟩

theorem Tended.extras {t : CallTree α} (h : t.Tended True) : ∀ x ∈ t.extras, TendedAll True x :=
  fun x hx => {
    apart := ((h.distinct trivial).extras x hx).apart
    trees := fun m hm => ⟨h.sound.extras x hx m hm, h.trimmed.extras x hx m hm,
      fun hf => ((h.distinct hf).extras x hx).trees m hm⟩ }

theorem TendedAll.insert {ts : List (CallTree α)} {t : CallTree α} (hts : TendedAll faithful ts)
    (ht : t.Tended faithful) : TendedAll faithful (insert ts t) :=
  ⟨hts.apart.insert t, forall_mem_settle hts.trees ht fun _ hs => hs.absorb ht⟩

theorem TendedAll.foldl_insert {ts us : List (CallTree α)} (hts : TendedAll faithful ts)
    (hus : ∀ u ∈ us, u.Tended faithful) : TendedAll faithful (us.foldl CallTree.insert ts) := by
  induction us generalizing ts with
  | nil => exact hts
  | cons u us ih =>
    obtain ⟨hu, hus⟩ := List.forall_mem_cons.mp hus
    exact ih (hts.insert hu) hus

theorem tended_gather {bs : List (Branch α ε)} (h : Branch.EachTrees (TendedAll faithful) bs) :
    TendedAll faithful (Branch.gather bs) := by
  refine TendedAll.nil.foldl_insert fun t ht => ?_
  obtain ⟨b, hb, ht⟩ := List.mem_flatMap.mp ht
  exact (h b hb).trees t ht

theorem merge_of_eq [LawfulBEq α] [ToString α] {t other : CallTree α}
    (h : t.payload = other.payload) : t.merge other = .ok (t.absorb other) :=
  if_pos (beq_iff_eq.mpr h)

theorem merge_eq_ok [ToString α] {t other merged : CallTree α} (h : t.merge other = .ok merged) :
    merged = t.absorb other := by
  unfold merge at h
  split at h
  · exact (Except.ok.inj h).symm
  · cases h

end CallTree

theorem Profile.tended_treesOf [DecidableEq ε] {p : Profile α ε}
    (h : Branch.EachTrees (CallTree.TendedAll faithful) p.branches) (e : ε) :
    CallTree.TendedAll faithful (p.treesOf e) := Profile.of_eachTrees .nil h e

end Keeping

def Growth.Tended (faithful : Prop) : Growth → Prop
  | @Growth.tree _ _ t => t.Tended faithful
  | @Growth.profile _ _ _ _ p => Branch.EachTrees (CallTree.TendedAll faithful) p.branches

theorem Grown.tended {faithful : Prop} {g : Growth} (h : Grown faithful g) : g.Tended faithful := by
  induction h with
  | leaf p hw =>
    exact ⟨CallTree.sound_leaf p hw, CallTree.trimmed_leaf p _, fun _ => CallTree.distinct_leaf p _⟩
  | graft _ _ ht hc =>
    exact ⟨ht.sound.graft hc.sound, ht.trimmed.graft hc.trimmed,
      fun hf => (ht.distinct hf).graft (hc.distinct hf)⟩
  | addWeight w _ ht =>
    exact ⟨ht.sound.addWeight w, ht.trimmed.addWeight w,
      fun hf => .of_parts (ht.distinct hf).children (ht.distinct hf).extras⟩
  | graftExtra i _ _ ht hm =>
    exact ⟨ht.sound.graftExtra i hm.sound, ht.trimmed.graftExtra i hm.trimmed,
      fun hf => (ht.distinct hf).graftExtra i (hm.distinct hf)⟩
  | merge _ _ hmerge ht ho =>
    rw [CallTree.merge_eq_ok hmerge]
    exact CallTree.Tended.absorb ht ho
  | map f _ hkept ht =>
    exact ⟨ht.sound.map f, ht.trimmed.map f, fun hf => (ht.distinct hf).map (hkept hf)⟩
  | treeOf _ ht hp => exact (Profile.tended_treesOf hp _).trees _ ht
  | empty titles => exact fun b hb => nomatch hb
  | addRoot e _ hp => exact Profile.eachTrees_addRoot .nil hp e
  | addChild parent e _ hp => exact Profile.eachTrees_addChild .nil hp parent e
  | addTree e _ _ hp ht => exact Profile.eachTrees_addTree .nil (fun _ hts => hts.insert ht) hp e
  | coarsen level _ hp => exact Profile.eachTrees_coarsen (fun _ => CallTree.tended_gather) hp level

/-! ## Well-formed trees -/

namespace CallTree

theorem heightOver_succ (h : Nat) (cs : List (CallTree α)) :
    heightOver (h + 1) cs = (cs.map height).foldl max h + 1 := by
  induction cs generalizing h with
  | nil => rfl
  | cons c cs ih => rw [heightOver_cons, Nat.add_max_add_right, ih, List.map_cons, List.foldl_cons]

theorem heightOver_one (cs : List (CallTree α)) :
    heightOver 1 cs = (cs.map height).max?.elim 1 (· + 1) := by
  cases cs with
  | nil => rfl
  | cons c cs =>
    rw [heightOver_cons, Nat.max_eq_right (Nat.le_add_left 1 _), heightOver_succ, List.map_cons,
      List.max?_cons', Option.elim_some]

end CallTree

/-- Grown trees are well-formed: at every node, extra sets included, the weight is in range and the
height one above the highest child. With injective maps of payloads, siblings are apart in children,
extra sets and root trees. -/
theorem grown_well_formed (faithful : Prop) :
    (∀ {α : Type} [BEq α] (t : CallTree α), Grown faithful (.tree t) → ∀ n, t.HasNode n →
      (0 ≤ n.weight ∧ n.weight ≤ maxTime) ∧
      n.height = (n.children.map CallTree.height).max?.elim 1 (· + 1) ∧
      (faithful → CallTree.Apart n.children ∧ ∀ x ∈ n.extras, CallTree.Apart x)) ∧
    ∀ {α ε : Type} [BEq α] [DecidableEq ε] (p : Profile α ε), Grown faithful (.profile p) →
      ∀ e, (∀ t ∈ p.treesOf e, Grown faithful (.tree t)) ∧
        (faithful → CallTree.Apart (p.treesOf e)) := by
  constructor
  · intro α _ t ht n hn
    have hsound : n.Sound := ht.tended.sound.of_hasNode hn
    refine ⟨⟨hsound.weight_nonneg, hsound.weight_le⟩, ?_, fun hf => ?_⟩
    · rw [hsound.height_eq, CallTree.heightOver_one]
    · have hdistinct : n.Distinct := (ht.tended.distinct hf).of_hasNode hn
      exact ⟨hdistinct.children.apart, fun x hx => (hdistinct.extras x hx).apart⟩
  · intro α ε _ _ p hp e
    exact ⟨fun t ht => .treeOf hp ht, fun _ => (Profile.tended_treesOf hp.tended e).apart⟩

/-- A leaf of weight 0 merged with itself, mapped, and added twice. -/
theorem grown_well_formed_renamed :
    let node : CallTree String :=
      ((CallTree.leaf "main" (-5)).graft (.leaf "draw" maxTime)).graftExtra 1 (.leaf "wait" 2)
    let merged := node.absorb node
    let renamed := merged.map (· ++ "()")
    let p : Profile String Frame :=
      (({} : Profile String Frame).addTree "t1" renamed).addTree "t2" merged
    let coarse := p.coarsen 0
    (merged.KeptApart (· ++ "()") ∧ Grown True (.tree renamed) ∧ Grown True (.profile coarse)) ∧
      (∀ n, renamed.HasNode n → (0 ≤ n.weight ∧ n.weight ≤ maxTime) ∧
        n.height = (n.children.map CallTree.height).max?.elim 1 (· + 1) ∧
        CallTree.Apart n.children) ∧
      ((coarse.treesOf ⟨"All"⟩).map CallTree.payload = ["main()", "main"] ∧
        CallTree.Apart (coarse.treesOf ⟨"All"⟩)) := by
  intro node merged renamed p coarse
  have hnode : Grown True (.tree node) :=
    .graftExtra 1 (.graft (.leaf "main" (by decide)) (.leaf "draw" (by decide)))
      (.leaf "wait" (by decide))
  have hmerged : Grown True (.tree merged) := .merge hnode hnode rfl
  have hkept : merged.KeptApart (· ++ "()") := fun s u _ _ h => by simpa using h
  have hrenamed : Grown True (.tree renamed) := .map _ hmerged fun _ => hkept
  have hcoarse : Grown True (.profile coarse) :=
    .coarsen 0 (.addTree _ (.addTree _ (.empty []) hrenamed) hmerged)
  refine ⟨⟨hkept, hrenamed, hcoarse⟩, fun n hn => ?_, rfl, ?_⟩
  · obtain ⟨hweight, hheight, hapart⟩ := (grown_well_formed True).1 renamed hrenamed n hn
    exact ⟨hweight, hheight, (hapart trivial).1⟩
  · exact ((grown_well_formed True).2 coarse hcoarse ⟨"All"⟩).2 trivial

end StackProfile

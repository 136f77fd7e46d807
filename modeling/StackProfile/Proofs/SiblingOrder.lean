import Mathlib
import StackProfile.Proofs.AlikeProfile
import StackProfile.Proofs.CoarserProfile
import StackProfile.Proofs.GrownTree
import StackProfile.Proofs.Reordered
import StackProfile.Proofs.Walk

/-!
# The order of siblings

The layout sorts siblings by weight and name. Without ties (`Untied`), outlines, slots and rows of
`Reordered` profiles are equal.
-/

namespace StackProfile

open CallTree (AlikeAll ReorderedAll)

/-! ## Profiles that differ in the order of siblings -/

namespace Profile

variable {α ε : Type} [DecidableEq ε] {p p' : Profile α ε}

/-- Equal hierarchies, with trees reordered under every element. -/
structure Reordered (p p' : Profile α ε) : Prop where
  roots : p.rootElements = p'.rootElements
  children : ∀ e, p.childrenOf e = p'.childrenOf e
  trees : ∀ e, ReorderedAll (p.treesOf e) (p'.treesOf e)

section Alike

variable [ToString α] [ToString ε]

mutual

theorem alike_of_treesOf (hp : p.elements.Nodup) (hp' : p'.elements.Nodup)
    (hchildren : ∀ e, p.childrenOf e = p'.childrenOf e)
    (htrees : ∀ e, AlikeAll (p.treesOf e) (p'.treesOf e)) :
    (b b' : Branch α ε) → b ∈ p.branches → b' ∈ p'.branches → b.element = b'.element →
      Branch.Alike (Look.exact ε) b b'
  | .node e ts bs, .node e' ts' bs', hb, hb', he => by
    obtain rfl : e = e' := he
    have hts : p.treesOf e = ts := treesOf_element hp hb
    have hts' : p'.treesOf e = ts' := treesOf_element hp' hb'
    have hbs : p.childrenOf e = bs.map Branch.element := childrenOf_element hp hb
    have hbs' : p'.childrenOf e = bs'.map Branch.element := childrenOf_element hp' hb'
    refine ⟨rfl, hts ▸ hts' ▸ htrees e, ?_⟩
    refine alikeIn_of_treesOf hp hp' hchildren htrees bs bs' (fun c hc => ?_) (fun c hc => ?_) ?_
    · exact mem_branches_of_mem_all hb (Branch.mem_all_of_mem_children hc)
    · exact mem_branches_of_mem_all hb' (Branch.mem_all_of_mem_children hc)
    · rw [← hbs, ← hbs', hchildren]

/-- Branches are alike if children and trees agree elementwise. -/
theorem alikeIn_of_treesOf (hp : p.elements.Nodup) (hp' : p'.elements.Nodup)
    (hchildren : ∀ e, p.childrenOf e = p'.childrenOf e)
    (htrees : ∀ e, AlikeAll (p.treesOf e) (p'.treesOf e)) :
    (bs bs' : List (Branch α ε)) → (∀ b ∈ bs, b ∈ p.branches) → (∀ b ∈ bs', b ∈ p'.branches) →
      bs.map Branch.element = bs'.map Branch.element → Branch.AlikeIn (Look.exact ε) bs bs'
  | [], [], _, _, _ => trivial
  | b :: bs, b' :: bs', hbs, hbs', he => by
    obtain ⟨hb, hbs⟩ := List.forall_mem_cons.mp hbs
    obtain ⟨hb', hbs'⟩ := List.forall_mem_cons.mp hbs'
    obtain ⟨he, hes⟩ := List.cons.inj he
    exact ⟨alike_of_treesOf hp hp' hchildren htrees b b' hb hb' he,
      alikeIn_of_treesOf hp hp' hchildren htrees bs bs' hbs hbs' hes⟩

end

end Alike

end Profile

/-! ## Grown profiles -/

section Grown

variable {ε : Type} [DecidableEq ε] {p p' : Profile Frame ε}

namespace Profile

/-- No two children of a node have equal payload and weight. -/
def Untied (p : Profile Frame ε) : Prop := ∀ e, ∀ t ∈ p.treesOf e, t.Siblings CallTree.NoTie

namespace Reordered

theorem alikeAll (h : p.Reordered p') (hp : Grown False (.profile p))
    (hp' : Grown False (.profile p')) (huntied : p.Untied) (e : ε) :
    AlikeAll (p.treesOf e) (p'.treesOf e) := by
  have hts := tended_treesOf hp.tended e
  have hts' := tended_treesOf hp'.tended e
  refine ReorderedAll.alikeAll Frame.toString_injective (fun t ht => (hts.trees t ht).sound)
    (fun t ht => (hts'.trees t ht).sound) (h.trees e) ?_ (huntied e)
  exact hts.apart.imp fun hne => CallTree.noTie_of_ne hne

theorem alike [ToString ε] (h : p.Reordered p') (hp : Grown False (.profile p))
    (hp' : Grown False (.profile p')) (huntied : p.Untied) (hnodup : p.elements.Nodup)
    (hnodup' : p'.elements.Nodup) : Profile.Alike (Look.exact ε) p p' :=
  alikeIn_of_treesOf hnodup hnodup' h.children (h.alikeAll hp hp' huntied) p.roots p'.roots
    (fun b hb => Branch.mem_allIn.mpr ⟨b, hb, b.mem_all_self⟩)
    (fun b hb => Branch.mem_allIn.mpr ⟨b, hb, b.mem_all_self⟩) h.roots

end Reordered

end Profile

end Grown

/-! ## Shown cells -/

/-- Place of a slot, and payload and weight of its node. -/
def Slot.face {α : Type} (s : Slot α) : Int × Int × α × Int :=
  (s.start, s.width, s.tree.payload, s.tree.weight)

theorem Slot.Alike.face {s s' : Slot Frame} (h : s.Alike s') : s.face = s'.face := by
  have hpayload : s.tree.payload = s'.tree.payload := Frame.toString_injective h.tree.name
  rw [Slot.face, Slot.face, h.start, h.width, h.tree.weight, hpayload]

/-- Spans depend on the face of a slot only. -/
def Rows.Paint.SeesFace {α : Type} (paint : Rows.Paint α) : Prop :=
  ∀ s s' : Slot α, s.face = s'.face → paint.span s = paint.span s'

/-- `run` on alike trees has equal rows and end, if spans depend on faces only. -/
theorem RowWalk.run_alike {roots roots' : List (CallTree Frame)} (h : AlikeAll roots roots')
    (w : RowWalk Frame) (hpaint : w.paint.SeesFace) (elementEnd : Int) :
    (w.run roots elementEnd).1.rows = (w.run roots' elementEnd).1.rows ∧
      (w.run roots elementEnd).2 = (w.run roots' elementEnd).2 := by
  have hplan := Rows.plan_alike w.times (Rows.deepestOf w.depths) elementEnd h
  have hout := Rows.carryOut_alike w.token w.depths.contains w.progress hplan
  have hspan : ∀ {s s' : Slot Frame}, s.Alike s' → w.paint.span s = w.paint.span s' :=
    fun {s s'} hs => hpaint s s' hs.face
  constructor
  · refine List.map_congr_left fun d _ => congrArg (Prod.mk d) ?_
    have hrow := Rows.Paint.row_alike id hspan
      (fun hs depth => by rw [hspan hs, hs.tree.weight]) d hout.done
    rw [List.map_id, List.map_id] at hrow
    change w.paint.row d (w.done ++ _) = w.paint.row d (w.done ++ _)
    rw [Rows.Paint.row_append, Rows.Paint.row_append, hrow]
  · simp only [RowWalk.run, ← hout.finished, ← Layout.endOf_alike 0 (Layout.slots_alike 0 none h)]

end StackProfile

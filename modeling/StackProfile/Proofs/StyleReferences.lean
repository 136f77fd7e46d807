import StackProfile.Proofs.FilterGrammar
import StackProfile.Proofs.GrownTree
import StackProfile.Proofs.Session
import StackProfile.Proofs.Sheet

/-!
# Style references

`keyFor` makes the keys of references from names, `hueSheet` those of the sheet from numbers. Both
are texts of numbers below the number of colours, so references resolve.
-/

namespace StackProfile

variable {α ε : Type}

/-! ## The sheet of a palette of hues -/

namespace Palette

variable {size i : Nat}

theorem effectiveSize_pos (size : Nat) : 0 < effectiveSize size := by
  unfold effectiveSize
  omega

theorem length_hueSheet (size : Nat) : (hueSheet size).styles.length = max size 1 := by
  simp only [hueSheet, List.length_mergeSort, List.length_map, List.length_range, effectiveSize]

theorem mem_hueSheet {entry : String × Style} : entry ∈ (hueSheet size).styles ↔
    ∃ i < effectiveSize size,
      (toString i, Style.filled (hueColor (effectiveSize size) i)) = entry := by
  simp only [hueSheet, List.mem_mergeSort, List.mem_map, List.mem_range]

theorem toString_nat_injective {n m : Nat} (h : toString n = toString m) : n = m := by
  have hint : toString (n : Int) = toString (m : Int) := h
  exact Int.ofNat.inj (Text.toString_injective hint)

theorem ascending_hueSheet (size : Nat) : Ascending (hueSheet size).styles := by
  have hkeys : ((hueSheet size).styles.map Prod.fst).Nodup := by
    have hlisted : ((List.range (effectiveSize size)).map fun (i : Nat) => toString i).Nodup :=
      List.nodup_range.map fun _ _ => toString_nat_injective
    refine ((List.mergeSort_perm ..).map Prod.fst).nodup_iff.mpr ?_
    rw [List.map_map]
    exact hlisted
  have hsorted : (hueSheet size).styles.Pairwise fun a b => a.1 ≤ b.1 :=
    (List.pairwise_mergeSort (fun a b c => by simpa using String.le_trans)
      (fun a b => by simpa using String.le_total a.1 b.1) _).imp fun h => by simpa using h
  exact (hsorted.and (List.pairwise_map.mp hkeys)).imp fun ⟨hle, hne⟩ =>
    Std.lt_of_le_of_ne hle hne

theorem keyFor_mem (size : Nat) (text : String) :
    ∃ color, (keyFor size text, Style.filled color) ∈ (hueSheet size).styles := by
  have hlt : (stableHash text).toNat % effectiveSize size < effectiveSize size :=
    Nat.mod_lt _ (effectiveSize_pos size)
  exact ⟨_, mem_hueSheet.mpr ⟨_, hlt, rfl⟩⟩

theorem resolve_of_mem {key : String} {style : Style}
    (h : (key, style) ∈ (hueSheet size).styles) :
    (hueSheet size).resolve (.reference key) = style := by
  have hfound : (hueSheet size).style? key = some style :=
    (ascending_hueSheet size).mem_iff_lookup.mp h
  simp only [StyleSheet.resolve, Style.reference, Option.bind_some, hfound, Option.getD_some]

end Palette

/-! ## Origins of spans -/

namespace Rows

variable {steps : List (Step α)} {span : Span}

theorem mem_done_carryOut {token : Token} {wanted : Nat → Bool} {p : Progress} {step : Step α}
    (h : step ∈ (carryOut token wanted p steps).done) : step ∈ steps := by
  induction steps generalizing p with
  | nil => exact h
  | cons first rest ih =>
    cases first with
    | poll =>
      unfold carryOut at h
      split at h
      · cases h
      · exact List.mem_cons.mpr ((List.mem_cons.mp h).imp_right ih)
    | node depth s => exact List.mem_cons.mpr ((List.mem_cons.mp h).imp_right ih)
    | gap above through start duration =>
      exact List.mem_cons.mpr ((List.mem_cons.mp h).imp_right ih)

theorem mem_row {paint : Paint α} {depth : Nat} (h : span ∈ paint.row depth steps) :
    span.isGap ∨ ∃ s, .node depth s ∈ steps ∧ span = paint.span s := by
  obtain ⟨step, hstep, hspan⟩ := List.mem_filterMap.mp h
  cases step with
  | poll => cases hspan
  | node d s =>
    simp only [Paint.stepSpan?] at hspan
    split at hspan
    · next hshown =>
      obtain ⟨rfl, -⟩ : d = depth ∧ _ := by simpa using hshown
      exact .inr ⟨s, hstep, (Option.some.inj hspan).symm⟩
    · cases hspan
  | gap above through start duration =>
    simp only [Paint.stepSpan?, Option.ite_none_right_eq_some] at hspan
    obtain ⟨-, heq⟩ := hspan
    exact .inl (Option.some.inj heq ▸ rfl)

variable [ToString α] {times : List Int} {s n : Slot α} {levels depth limit d : Nat}

theorem hasNode_of_mem_planNode (h : .node d n ∈ planNode times levels depth limit s) :
    s.tree.HasNode n.tree := by
  induction levels generalizing depth limit s with
  | zero =>
    obtain ⟨-, rfl⟩ : d = depth ∧ n = s := by simpa [planNode] using h
    exact .self
  | succ levels ih =>
    by_cases hlt : depth < limit
    · rw [planNode_of_lt hlt] at h
      simp only [List.mem_cons, reduceCtorEq, false_or, Step.node.injEq] at h
      rcases h with ⟨-, rfl⟩ | h
      · exact .self
      · unfold childSteps at h
        rcases List.mem_append.mp h with h | h
        · obtain ⟨c, hc, hstep⟩ := List.mem_flatMap.mp h
          split at hstep
          · have hchild := Layout.mem_children_of_mem_childSlots hc
            exact (CallTree.HasNode.child .self hchild).trans (ih hstep)
          · cases hstep
        · split at h
          · cases List.mem_singleton.mp h
          · cases h
    · obtain ⟨-, rfl⟩ : d = depth ∧ n = s := by
        simpa [planNode_of_le (Nat.not_lt.mp hlt)] using h
      exact .self

theorem exists_root_of_mem_plan {deepest : Nat} {roots : List (CallTree α)} {elementEnd : Int}
    (h : .node d n ∈ plan times deepest roots elementEnd) : ∃ r ∈ roots, r.HasNode n.tree := by
  rcases List.mem_append.mp h with h | h
  · obtain ⟨s, hs, hstep⟩ := List.mem_flatMap.mp h
    split at hstep
    · exact ⟨s.tree, Layout.mem_ordered.mp (Layout.tree_mem_of_mem_slotsFrom hs),
        hasNode_of_mem_planNode hstep⟩
    · cases hstep
  · split at h
    · cases List.mem_singleton.mp h
    · cases h

end Rows

namespace Engine

variable [ToString α] [DecidableEq ε] {e : Engine α ε} {i : Index α ε} {times : List Int}
  {token : Token} {ws : List (Wanted ε)} {walked : List (Wanted ε × List (Step α))}

theorem mem_planElement_of_walk {p : Progress} (h : walk i times token p ws = some walked)
    {x : Wanted ε × List (Step α)} (hx : x ∈ walked) {step : Step α} (hstep : step ∈ x.2) :
    step ∈ planElement i times x.1 := by
  induction ws generalizing p walked with
  | nil =>
    cases h
    cases hx
  | cons w ws ih =>
    simp only [walk] at h
    split at h
    · obtain ⟨later, hlater, rfl⟩ := Option.map_eq_some_iff.mp h
      rcases List.mem_cons.mp hx with rfl | hx
      · exact Rows.mem_done_carryOut hstep
      · exact ih hlater hx
    · cases h

/-- A span of a sheet is a gap or shows a node of the profile. -/
theorem mem_sheet [ToString ε] {p : Provider α ε} {r : RowRequest} {model : RowSheet}
    (h : e.sheet p r token = .ok model) {row : Row} (hrow : row ∈ model.rows) {span : Span}
    (hspan : span ∈ row.spans) : span.isGap ∨ ∃ s element, ∃ root ∈ e.index.profile.treesOf element,
      root.HasNode s.tree ∧ span = e.spanOf p s := by
  unfold sheet at h
  split at h
  · cases h
  · dsimp only at h
    split at h
    · cases h
    · next walked hwalk =>
      cases h
      obtain ⟨id, -, rfl⟩ := List.mem_map.mp hrow
      rw [rowOf] at hspan
      generalize hfound : List.findSome? _ walked = found at hspan
      cases found with
      | none => cases hspan
      | some spans =>
        obtain ⟨x, hx, hpainted⟩ := List.exists_of_findSome?_eq_some hfound
        obtain ⟨d, -, rfl⟩ := Option.map_eq_some_iff.mp hpainted
        refine (Rows.mem_row hspan).imp_right ?_
        rintro ⟨s, hstep, heq⟩
        have hplanned := mem_planElement_of_walk hwalk hx hstep
        rcases List.mem_cons.mp hplanned with hpoll | hplanned
        · cases hpoll
        · obtain ⟨root, hroot, hnode⟩ := Rows.exists_root_of_mem_plan hplanned
          exact ⟨s, x.1.element, root, hroot, hnode, heq⟩

theorem mem_fetchRows [ToString ε] {feed : Feed α ε} {q : Query} {model : RowSheet}
    (h : (e.fetchRows feed q token).model = some model) {row : Row} (hrow : row ∈ model.rows)
    {span : Span} (hspan : span ∈ row.spans) :
    span.isGap ∨ ∃ s element, ∃ root ∈ e.index.profile.treesOf element,
      root.HasNode s.tree ∧ span = e.spanOf (feed 0) s := by
  cases hread : RowRequest.read q with
  | error err =>
    rw [fetchRows, rows, hread] at h
    cases err <;> cases h
  | ok r =>
    cases hsheet : e.sheet (feed 0) r token with
    | error err =>
      have hrows : e.rows (feed 0) q token = .error err := by rw [rows, hread, ← hsheet]; rfl
      rw [fetchRows, hrows] at h
      cases err <;> cases h
    | ok given =>
      have hrows : e.rows (feed 0) q token = .ok given := by rw [rows, hread, ← hsheet]; rfl
      have hgiven : (e.fetchRows feed q token).model = some given := by
        rw [fetchRows, hrows]
        cases (feed 1).analysis <;> rfl
      rw [hgiven] at h
      exact mem_sheet (Option.some.inj h ▸ hsheet) hrow hspan

/-- Style references resolve. A palette of any size has a sorted sheet of as many colours, at least
one; every span of a node refers to a key of the sheet, the same for equal names; all spans of a row
response are such spans or gaps. -/
theorem style_references_resolve [ToString ε] {size : Nat} (hp : e.palette = Palette.hues size) :
    ∃ styles, e.fetchStyles = .completed styles ∧ styles.styles.length = max size 1 ∧
      Ascending styles.styles ∧
      (∀ (p : Provider α ε) (s : Slot α), ∃ style, (e.spanOf p s).style = some style ∧
        style.isReference ∧ (∃ key ∈ styles.styles.map Prod.fst, style.parent = some key) ∧
        ∃ color, styles.resolve style = .filled color ∧ (styles.resolve style).parent = none) ∧
      (∀ (p p' : Provider α ε) (s s' : Slot α), s.tree.name = s'.tree.name →
        (e.spanOf p s).style = (e.spanOf p' s').style) ∧
      ∀ feed q token model, (e.fetchRows feed q token).model = some model →
        ∀ row ∈ model.rows, ∀ span ∈ row.spans, span.isGap ∨
          ∃ s element, ∃ root ∈ e.index.profile.treesOf element,
            root.HasNode s.tree ∧ span = e.spanOf (feed 0) s := by
  have hstyle : ∀ (p : Provider α ε) (s : Slot α),
      (e.spanOf p s).style = some (.reference (Palette.keyFor size s.tree.name)) := by
    intro p s
    have hof : (e.spanOf p s).style = some (e.palette.styleOf s.tree) := rfl
    rw [hof, hp]
    rfl
  refine ⟨Palette.hueSheet size, by rw [fetchStyles, hp]; rfl, Palette.length_hueSheet size,
    Palette.ascending_hueSheet size, fun p s => ?_, fun p p' s s' hname => ?_,
    fun feed q token model h row hrow span hspan => mem_fetchRows h hrow hspan⟩
  · obtain ⟨color, hmem⟩ := Palette.keyFor_mem size s.tree.name
    have hresolved := Palette.resolve_of_mem hmem
    exact ⟨_, hstyle p s, rfl, ⟨_, List.mem_map_of_mem hmem, rfl⟩, color, hresolved,
      by rw [hresolved]; rfl⟩
  · rw [hstyle, hstyle, hname]

/-- A palette of no hues has one. -/
theorem style_references_resolve_without_hues :
    let e := ((Engine.new Sample.provider { paletteSize := 0 }).call Sample.feed (.tree {} .live)).2
    e.palette = Palette.hues 0 ∧ ∃ styles, e.fetchStyles = .completed styles ∧
      styles.styles.length = 1 ∧
      ∀ (p : Provider Frame Frame) (s : Slot Frame), ∃ style, (e.spanOf p s).style = some style ∧
        ∃ color, styles.resolve style = .filled color := by
  intro e
  have hpalette : e.palette = Palette.hues 0 := rfl
  obtain ⟨styles, hfetched, hlength, -, hspans, -⟩ := style_references_resolve hpalette
  refine ⟨hpalette, styles, hfetched, hlength, fun p s => ?_⟩
  obtain ⟨style, hstyle, -, -, color, hcolor, -⟩ := hspans p s
  exact ⟨style, hstyle, color, hcolor⟩

end Engine

end StackProfile

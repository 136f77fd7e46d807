import Mathlib.Data.List.Infix
import StackProfile.Proofs.CoarserProfile

/-!
# Elements and their parents

`links` lists elements with their parents, depth first. With unique elements it determines
`parentOf`, `childrenOf` and `rootElements`.
-/

namespace StackProfile

variable {α ε : Type}

namespace Branch

mutual

/-- The elements below a branch in depth-first order with their parents; `above` is
the branch's own. -/
def links (above : Option ε) : Branch α ε → List (Option ε × ε)
  | .node e _ bs => (above, e) :: linksIn (some e) bs

def linksIn (above : Option ε) : List (Branch α ε) → List (Option ε × ε)
  | [] => []
  | b :: bs => links above b ++ linksIn above bs

end

theorem links_eq (above : Option ε) (b : Branch α ε) :
    b.links above = (above, b.element) :: linksIn (some b.element) b.children := by
  obtain ⟨e, ts, bs⟩ := b
  rfl

theorem linksIn_append (above : Option ε) (as bs : List (Branch α ε)) :
    linksIn above (as ++ bs) = linksIn above as ++ linksIn above bs := by
  induction as with
  | nil => rfl
  | cons a as ih => simp only [List.cons_append, linksIn, ih, List.append_assoc]

mutual

theorem map_snd_links (above : Option ε) : (b : Branch α ε) →
    (b.links above).map Prod.snd = b.all.map element
  | .node e ts bs => by
    rw [links, all, List.map_cons, List.map_cons, map_snd_linksIn (some e) bs]
    rfl

theorem map_snd_linksIn (above : Option ε) : (bs : List (Branch α ε)) →
    (linksIn above bs).map Prod.snd = (allIn bs).map element
  | [] => rfl
  | b :: bs => by
    rw [linksIn, allIn, List.map_append, List.map_append, map_snd_links above b,
      map_snd_linksIn above bs]

end

section Mem

variable {x : Option ε} {e : ε}

mutual

theorem mem_links {above : Option ε} : (b : Branch α ε) → ((x, e) ∈ b.links above ↔
    (x = above ∧ e = b.element) ∨
      ∃ c ∈ b.all, x = some c.element ∧ e ∈ c.children.map element)
  | .node d ts bs => by
    rw [links, all, List.mem_cons, Prod.mk.injEq, mem_linksIn bs, List.exists_mem_cons_iff]
    rfl

/-- A link leads to a root or to a child of some branch. -/
theorem mem_linksIn {above : Option ε} : (bs : List (Branch α ε)) → ((x, e) ∈ linksIn above bs ↔
    (x = above ∧ e ∈ bs.map element) ∨
      ∃ c ∈ allIn bs, x = some c.element ∧ e ∈ c.children.map element)
  | [] => by simp [linksIn, allIn]
  | b :: bs => by
    rw [linksIn, allIn, List.mem_append, mem_links b, mem_linksIn bs, List.map_cons, List.mem_cons]
    simp only [List.mem_append, or_and_right, exists_or, and_or_left]
    exact or_or_or_comm

end

end Mem

/-! ## Around a branch -/

section Around

variable {e : ε}

theorem filter_linksIn_self [DecidableEq ε] {above : Option ε} {bs : List (Branch α ε)}
    (h : ∀ b ∈ allIn bs, above ≠ some b.element) :
    (linksIn above bs).filter (fun y => y.1 = above) = bs.map fun b => (above, b.element) := by
  induction bs with
  | nil => rfl
  | cons b bs ih =>
    obtain ⟨hb, hbs⟩ := List.forall_mem_append.mp h
    have hbelow : (linksIn (some b.element) b.children).filter (fun y => y.1 = above) = [] := by
      refine List.filter_eq_nil_iff.mpr ?_
      rintro ⟨x, e⟩ hx
      refine mt of_decide_eq_true fun heq => ?_
      obtain rfl : x = above := heq
      rw [all_eq] at hb
      rcases (mem_linksIn _).mp hx with ⟨hx, -⟩ | ⟨c, hc, hx, -⟩
      · exact hb b List.mem_cons_self hx
      · exact hb c (List.mem_cons_of_mem _ hc) hx
    rw [linksIn, List.filter_append, ih hbs, links_eq, List.filter_cons_of_pos (by simp), hbelow]
    rfl

theorem ne_some_of_mem_linksIn {above : Option ε} {bs : List (Branch α ε)} (ha : above ≠ some e)
    (he : e ∉ (allIn bs).map element) : ∀ y ∈ linksIn above bs, y.1 ≠ some e := by
  rintro ⟨x, d⟩ hy rfl
  rcases mem_linksIn bs |>.mp hy with ⟨hx, -⟩ | ⟨c, hc, hx, -⟩
  · exact ha hx.symm
  · exact he (List.mem_map.mpr ⟨c, hc, (Option.some.inj hx).symm⟩)

variable [DecidableEq ε]

mutual

theorem modify_of_not_mem {f : Branch α ε → Branch α ε} : (b : Branch α ε) →
    e ∉ b.all.map element → modify e f b = b
  | .node d ts bs, h => by
    simp only [all, List.map_cons, List.mem_cons, not_or] at h
    have hd : d ≠ e := Ne.symm h.1
    rw [modify, if_neg hd, modifyIn_of_not_mem bs h.2]

theorem modifyIn_of_not_mem {f : Branch α ε → Branch α ε} : (bs : List (Branch α ε)) →
    e ∉ (allIn bs).map element → modifyIn e f bs = bs
  | [], _ => rfl
  | b :: bs, h => by
    simp only [allIn, List.map_append, List.mem_append, not_or] at h
    rw [modifyIn, modify_of_not_mem b h.1, modifyIn_of_not_mem bs h.2]

end

/-- `around` and `sprouted` are the links around `b` before and after `child` is appended to the
children of `b`. -/
def Around (b : Branch α ε) (child : ε) (around sprouted : List (Option ε × ε)) : Prop :=
  ∃ before after, (∀ y ∈ before ++ after, y.1 ≠ some b.element) ∧
    around = before ++ linksIn (some b.element) b.children ++ after ∧
    sprouted =
      before ++ (linksIn (some b.element) b.children ++ [(some b.element, child)]) ++ after

variable {b : Branch α ε} {child : ε}

theorem Around.filter_around {around sprouted : List (Option ε × ε)}
    (h : Around b child around sprouted) (hb : (b.all.map element).Nodup) :
    around.filter (fun y => y.1 = some b.element) =
      b.children.map fun c => (some b.element, c.element) := by
  obtain ⟨before, after, hother, rfl, -⟩ := h
  obtain ⟨hbefore, hafter⟩ := List.forall_mem_append.mp hother
  rw [all_eq, List.map_cons] at hb
  have hself : ∀ c ∈ allIn b.children, some b.element ≠ some c.element := fun c hc heq =>
    (List.nodup_cons.mp hb).1 (List.mem_map.mpr ⟨c, hc, (Option.some.inj heq).symm⟩)
  have hnil : ∀ l : List (Option ε × ε), (∀ y ∈ l, y.1 ≠ some b.element) →
      l.filter (fun y => y.1 = some b.element) = [] := fun l hl =>
    List.filter_eq_nil_iff.mpr fun y hy => mt of_decide_eq_true (hl y hy)
  rw [List.filter_append, List.filter_append, hnil before hbefore, hnil after hafter,
    filter_linksIn_self hself, List.nil_append, List.append_nil]

theorem Around.filter_sprouted {around sprouted : List (Option ε × ε)}
    (h : Around b child around sprouted) (x : Option ε) :
    sprouted.filter (fun y => y.1 = x) = around.filter (fun y => y.1 = x) ++
      [(some b.element, child)].filter fun y => y.1 = x := by
  obtain ⟨before, after, hother, rfl, rfl⟩ := h
  simp only [List.filter_append, List.append_assoc, List.append_cancel_left_eq]
  by_cases hx : some b.element = x
  · subst hx
    have hafter : after.filter (fun y => y.1 = some b.element) = [] :=
      List.filter_eq_nil_iff.mpr fun y hy =>
        mt of_decide_eq_true (hother y (List.mem_append_right _ hy))
    rw [hafter, List.append_nil, List.nil_append]
  · simp [hx]

mutual

theorem around_links {above : Option ε} (ha : above ≠ some b.element) :
    (c : Branch α ε) → b ∈ c.all → (c.all.map element).Nodup →
      Around b child (c.links above) ((modify b.element (sprout child) c).links above)
  | .node d ts cs, hb, hnodup => by
    obtain ⟨hd, hcs⟩ := List.nodup_cons.mp hnodup
    rcases List.mem_cons.mp hb with rfl | hmem
    · refine ⟨[(above, d)], [], by simpa using ha, by simp [links, element, children], ?_⟩
      simp [modify, element, children, sprout, links, linksIn_append, linksIn]
    · have hne : d ≠ b.element := fun h => hd (List.mem_map.mpr ⟨b, hmem, h.symm⟩)
      obtain ⟨before, after, hother, hlinks, hsprouted⟩ :=
        around_linksIn (fun h => hne (Option.some.inj h)) cs hmem hcs
      refine ⟨(above, d) :: before, after, List.forall_mem_cons.mpr ⟨ha, hother⟩, ?_, ?_⟩
      · rw [links, hlinks]
        rfl
      · have hmodify : modify b.element (sprout child) (node d ts cs) =
            node d ts (modifyIn b.element (sprout child) cs) := by rw [modify, if_neg hne]
        rw [hmodify, links, hsprouted]
        rfl

theorem around_linksIn {above : Option ε} (ha : above ≠ some b.element) :
    (cs : List (Branch α ε)) → b ∈ allIn cs → ((allIn cs).map element).Nodup →
      Around b child (linksIn above cs) (linksIn above (modifyIn b.element (sprout child) cs))
  | [], hb, _ => nomatch hb
  | c :: cs, hb, hnodup => by
    rw [allIn, List.map_append] at hnodup
    obtain ⟨hc, hcs, hdisjoint⟩ := List.nodup_append'.mp hnodup
    rw [linksIn, modifyIn, linksIn]
    rcases List.mem_append.mp hb with hb | hb
    · have hnot : b.element ∉ (allIn cs).map element := hdisjoint (List.mem_map_of_mem hb)
      have hrest := ne_some_of_mem_linksIn ha hnot
      obtain ⟨before, after, hother, hlinks, hsprouted⟩ := around_links ha c hb hc
      refine ⟨before, after ++ linksIn above cs, ?_, ?_, ?_⟩
      · rw [← List.append_assoc]
        exact List.forall_mem_append.mpr ⟨hother, hrest⟩
      · rw [hlinks, List.append_assoc]
      · rw [hsprouted, modifyIn_of_not_mem cs hnot, List.append_assoc]
    · have hnot : b.element ∉ c.all.map element := fun h => hdisjoint h (List.mem_map_of_mem hb)
      have hfirst : ∀ y ∈ linksIn above [c], y.1 ≠ some b.element :=
        ne_some_of_mem_linksIn ha (by simpa [allIn] using hnot)
      rw [linksIn, linksIn, List.append_nil] at hfirst
      obtain ⟨before, after, hother, hlinks, hsprouted⟩ := around_linksIn ha cs hb hcs
      refine ⟨c.links above ++ before, after, ?_, ?_, ?_⟩
      · rw [List.append_assoc]
        exact List.forall_mem_append.mpr ⟨hfirst, hother⟩
      · simp only [hlinks, List.append_assoc]
      · simp only [hsprouted, modify_of_not_mem c hnot, List.append_assoc]

end

end Around

/-! ## Looking up a parent -/

section Parents

variable [DecidableEq ε] {e q : ε} {x : Option ε}

mutual

theorem mem_links_of_parentBelow? {above : Option ε} : (b : Branch α ε) →
    parentBelow? e b = some q → (some q, e) ∈ b.links above
  | .node p ts bs, h => by
    refine List.mem_cons_of_mem _ ?_
    unfold parentBelow? at h
    split at h
    · next hany =>
      obtain ⟨c, hc, hce⟩ := List.any_eq_true.mp hany
      cases h
      exact (mem_linksIn bs).mpr (.inl ⟨rfl, List.mem_map.mpr ⟨c, hc, of_decide_eq_true hce⟩⟩)
    · exact mem_linksIn_of_parentIn? bs h

theorem mem_linksIn_of_parentIn? {above : Option ε} : (bs : List (Branch α ε)) →
    parentIn? e bs = some q → (some q, e) ∈ linksIn above bs
  | [], h => nomatch h
  | b :: bs, h => by
    rw [linksIn, List.mem_append]
    unfold parentIn? at h
    split at h
    · next p hp => exact .inl (mem_links_of_parentBelow? b (hp.trans h))
    · exact .inr (mem_linksIn_of_parentIn? bs h)

end

mutual

theorem eq_of_parentBelow?_eq_none {above : Option ε} : (b : Branch α ε) →
    parentBelow? e b = none → (x, e) ∈ b.links above → x = above ∧ e = b.element
  | .node p ts bs, h, hx => by
    unfold parentBelow? at h
    split at h
    · cases h
    · next hany =>
      rcases List.mem_cons.mp hx with hx | hx
      · exact Prod.mk.inj hx
      · obtain ⟨-, he⟩ := eq_of_parentIn?_eq_none bs h hx
        obtain ⟨c, hc, hce⟩ := List.mem_map.mp he
        exact absurd (List.any_eq_true.mpr ⟨c, hc, decide_eq_true hce⟩) hany

theorem eq_of_parentIn?_eq_none {above : Option ε} : (bs : List (Branch α ε)) →
    parentIn? e bs = none → (x, e) ∈ linksIn above bs → x = above ∧ e ∈ bs.map element
  | [], _, hx => nomatch hx
  | b :: bs, h, hx => by
    unfold parentIn? at h
    split at h
    · cases h
    · next hb =>
      rw [List.map_cons, List.mem_cons]
      rcases List.mem_append.mp hx with hx | hx
      · obtain ⟨hx, he⟩ := eq_of_parentBelow?_eq_none b hb hx
        exact ⟨hx, .inl he⟩
      · obtain ⟨hx, he⟩ := eq_of_parentIn?_eq_none bs h hx
        exact ⟨hx, .inr he⟩

end

/-- With unique elements, `parentIn?` gives the links. -/
theorem linksIn_none_eq {bs : List (Branch α ε)} (h : ((allIn bs).map element).Nodup) :
    linksIn none bs = ((allIn bs).map element).map fun e => (parentIn? e bs, e) := by
  have hfound : ∀ y ∈ linksIn none bs, y = (parentIn? y.2 bs, y.2) := by
    rintro ⟨x, e⟩ hx
    show (x, e) = (parentIn? e bs, e)
    cases hp : parentIn? e bs with
    | none => rw [(eq_of_parentIn?_eq_none bs hp hx).1]
    | some q =>
      rw [← map_snd_linksIn none] at h
      exact List.inj_on_of_nodup_map h hx (mem_linksIn_of_parentIn? bs hp) rfl
  rw [← map_snd_linksIn none bs, List.map_map]
  exact (List.map_id _).symm.trans (List.map_congr_left hfound)

end Parents

end Branch

/-! ## Queries -/

namespace Profile

variable [DecidableEq ε] {p : Profile α ε} {e q : ε}

def links (p : Profile α ε) : List (Option ε × ε) := Branch.linksIn none p.roots

theorem links_eq_map (h : p.elements.Nodup) :
    p.links = p.elements.map fun e => (p.parentOf e, e) := Branch.linksIn_none_eq h

theorem mem_links_iff (h : p.elements.Nodup) {x : Option ε} :
    (x, e) ∈ p.links ↔ e ∈ p.elements ∧ p.parentOf e = x := by
  rw [links_eq_map h, List.mem_map]
  constructor
  · rintro ⟨d, hd, heq⟩
    obtain ⟨rfl, rfl⟩ := Prod.mk.inj heq
    exact ⟨hd, rfl⟩
  · rintro ⟨he, rfl⟩
    exact ⟨e, he, rfl⟩

theorem exists_branch_of_mem_childrenOf (he : e ∈ p.childrenOf q) :
    ∃ b ∈ p.branches, b.element = q ∧ e ∈ b.children.map Branch.element := by
  unfold childrenOf branch? at he
  cases hf : p.branches.find? fun b => b.element = q with
  | none => simp [hf] at he
  | some b =>
    rw [hf] at he
    exact ⟨b, List.mem_of_find?_eq_some hf, by simpa using List.find?_some hf, he⟩

theorem mem_links_some_iff (h : p.elements.Nodup) :
    (some q, e) ∈ p.links ↔ e ∈ p.childrenOf q := by
  unfold links
  rw [Branch.mem_linksIn]
  constructor
  · rintro (⟨hnone, -⟩ | ⟨b, hb, heq, he⟩)
    · cases hnone
    · cases heq
      rwa [childrenOf_element h hb]
  · intro hq
    obtain ⟨b, hb, rfl, he⟩ := exists_branch_of_mem_childrenOf hq
    exact .inr ⟨b, hb, rfl, he⟩

omit [DecidableEq ε] in
theorem mem_links_none_iff : (none, e) ∈ p.links ↔ e ∈ p.rootElements := by
  unfold links
  rw [Branch.mem_linksIn]
  constructor
  · rintro (⟨-, he⟩ | ⟨b, -, hsome, -⟩)
    · exact he
    · cases hsome
  · exact fun he => .inl ⟨rfl, he⟩

theorem parentOf_eq_some_iff (h : p.elements.Nodup) :
    p.parentOf e = some q ↔ e ∈ p.childrenOf q := by
  rw [← mem_links_some_iff h, mem_links_iff h]
  exact ⟨fun he => ⟨Branch.mem_of_parentIn? p.roots he, he⟩, And.right⟩

theorem mem_rootElements_iff (h : p.elements.Nodup) :
    e ∈ p.rootElements ↔ e ∈ p.elements ∧ p.parentOf e = none := by
  rw [← mem_links_none_iff, mem_links_iff h]

theorem childrenOf_of_not_mem (hq : q ∉ p.elements) : p.childrenOf q = [] := by
  refine List.eq_nil_iff_forall_not_mem.mpr fun e he => ?_
  obtain ⟨b, hb, rfl, -⟩ := exists_branch_of_mem_childrenOf he
  exact hq (List.mem_map_of_mem hb)

/-- The children of an element, or the roots for `none`. -/
def listed (p : Profile α ε) : Option ε → List ε
  | none => p.rootElements
  | some q => p.childrenOf q

theorem filter_links (h : p.elements.Nodup) (x : Option ε) :
    p.links.filter (fun y => y.1 = x) = (p.listed x).map fun e => (x, e) := by
  cases x with
  | none =>
    have hroots : ∀ b ∈ p.branches, (none : Option ε) ≠ some b.element := fun _ _ h => nomatch h
    rw [links, Branch.filter_linksIn_self hroots, listed, rootElements, List.map_map]
    rfl
  | some q =>
    by_cases hq : q ∈ p.elements
    · obtain ⟨b, hb, rfl⟩ := List.mem_map.mp hq
      have haround : Branch.Around b b.element p.links _ :=
        Branch.around_linksIn (Option.some_ne_none b.element).symm p.roots hb h
      have hbranch : (b.all.map Branch.element).Nodup :=
        ((Branch.all_infix_allIn p.roots hb).sublist.map Branch.element).nodup h
      rw [haround.filter_around hbranch, listed, childrenOf_element h hb, List.map_map]
      rfl
    · have hnone : ∀ y ∈ p.links, y.1 ≠ some q := Branch.ne_some_of_mem_linksIn nofun hq
      rw [listed, childrenOf_of_not_mem hq, List.map_nil]
      exact List.filter_eq_nil_iff.mpr fun y hy => mt of_decide_eq_true (hnone y hy)

theorem nodup_listed (h : p.elements.Nodup) (x : Option ε) : (p.listed x).Nodup := by
  have hlinks : p.links.Nodup := by
    refine .of_map Prod.snd ?_
    rwa [links, Branch.map_snd_linksIn]
  refine .of_map (fun e => (x, e)) ?_
  rw [← filter_links h]
  exact hlinks.filter _

end Profile

end StackProfile

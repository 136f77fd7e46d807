import StackProfile.Outline
import StackProfile.Proofs.AlikeTree
import StackProfile.Proofs.ProfileTrees

/-!
# Alike profiles

`Profile.Alike l` relates profiles with alike trees under elements related by `l.same`. Outlines are
made of elements, weights and heights, so those of alike profiles are equal up to `l.entry`.
-/

namespace StackProfile

open CallTree (AlikeAll)

variable {α β ε δ : Type} [ToString α] [ToString β] [ToString ε] [ToString δ]

/-- An observation of two profiles. `same` relates their elements one to one; `entry` and `span`
keep what is compared, under which levels of related elements are equal. -/
structure Look (ε δ : Type) [ToString ε] [ToString δ] where
  same : ε → δ → Prop
  entry : Entry → Entry
  span : Span → Span
  one_to_one : Relator.BiUnique same
  level : ∀ {e : ε} {d : δ}, same e d → ∀ x : Entry, x.kind = .level →
    entry { x with name := toString e } = entry { x with name := toString d }

namespace Look

def exact (ε : Type) [ToString ε] : Look ε ε where
  same := Eq
  entry := id
  span := id
  one_to_one := ⟨fun _ _ _ h h' => h.trans h'.symm, fun _ _ _ h h' => h.symm.trans h'⟩
  level h _ _ := by rw [h]

variable (l : Look ε δ)

theorem eq_iff {e e' : ε} {d d' : δ} (h : l.same e d) (h' : l.same e' d') : e = e' ↔ d = d' :=
  Relator.rel_eq l.one_to_one h h'

end Look

variable (l : Look ε δ)

namespace Branch

mutual

/-- Related elements, alike trees, and alike branches below. -/
def Alike : Branch α ε → Branch β δ → Prop
  | .node e ts bs, .node d ts' bs' => l.same e d ∧ AlikeAll ts ts' ∧ AlikeIn bs bs'

def AlikeIn : List (Branch α ε) → List (Branch β δ) → Prop
  | [], [] => True
  | b :: bs, b' :: bs' => Alike b b' ∧ AlikeIn bs bs'
  | _, _ => False

end

variable {l}

mutual

theorem length_all_alike :
    {b : Branch α ε} → {b' : Branch β δ} → Alike l b b' → b.all.length = b'.all.length
  | .node _ _ _, .node _ _ _, ⟨_, _, hbs⟩ => by
    rw [all, all, List.length_cons, List.length_cons, length_allIn_alike hbs]

theorem length_allIn_alike : {bs : List (Branch α ε)} → {bs' : List (Branch β δ)} →
    AlikeIn l bs bs' → (allIn bs).length = (allIn bs').length
  | [], [], _ => rfl
  | _ :: _, _ :: _, ⟨hb, hbs⟩ => by
    rw [allIn, allIn, List.length_append, List.length_append, length_all_alike hb,
      length_allIn_alike hbs]

end

variable [DecidableEq ε] [DecidableEq δ]

mutual

theorem treesIn_all_alike {e : ε} {d : δ} (hed : l.same e d) :
    {b : Branch α ε} → {b' : Branch β δ} → Alike l b b' →
      Option.Rel AlikeAll (treesIn e b.all) (treesIn d b'.all)
  | .node e' _ _, .node d' _ _, ⟨helement, hts, hbs⟩ => by
    rw [treesIn_node, treesIn_node]
    simp only [l.eq_iff helement hed]
    split
    · exact .some hts
    · exact treesIn_allIn_alike hed hbs

/-- `treesIn` of related elements is alike. -/
theorem treesIn_allIn_alike {e : ε} {d : δ} (hed : l.same e d) :
    {bs : List (Branch α ε)} → {bs' : List (Branch β δ)} → AlikeIn l bs bs' →
      Option.Rel AlikeAll (treesIn e (allIn bs)) (treesIn d (allIn bs'))
  | [], [], _ => .none
  | _ :: _, _ :: _, ⟨hb, hbs⟩ => by
    rw [allIn, allIn, treesIn_append, treesIn_append]
    exact (treesIn_all_alike hed hb).or (treesIn_allIn_alike hed hbs)

end

end Branch

def Profile.Alike (p : Profile α ε) (p' : Profile β δ) : Prop := Branch.AlikeIn l p.roots p'.roots

variable {l}

namespace Profile

variable {p : Profile α ε} {p' : Profile β δ} {e : ε} {d : δ}

theorem Alike.treesOf [DecidableEq ε] [DecidableEq δ] (h : Profile.Alike l p p')
    (hed : l.same e d) : AlikeAll (p.treesOf e) (p'.treesOf d) := by
  have htrees := Branch.treesIn_allIn_alike hed h
  rw [Profile.treesOf_eq, Profile.treesOf_eq, Profile.branches, Profile.branches]
  generalize Branch.treesIn e (Branch.allIn p.roots) = x,
    Branch.treesIn d (Branch.allIn p'.roots) = y at htrees
  cases htrees with
  | none => exact CallTree.alikeAll_nil
  | some hts => exact hts

theorem alike_of_lone {ts : List (CallTree α)} {ts' : List (CallTree β)}
    (h : p.roots = [.node e ts []]) (h' : p'.roots = [.node d ts' []]) (hed : l.same e d)
    (hts : AlikeAll ts ts') : Profile.Alike l p p' := by
  rw [Profile.Alike, h, h']
  exact ⟨⟨hed, hts, trivial⟩, trivial⟩

end Profile

/-! ## Outlines -/

/-- One depth of related elements. -/
def Look.Shown (l : Look ε δ) (x : ε × Nat) (y : δ × Nat) : Prop := l.same x.1 y.1 ∧ x.2 = y.2

structure Entry.Alike (l : Look ε δ) (x y : Entry) : Prop where
  look : l.entry x = l.entry y
  id : x.id = y.id
  finish : x.finish = y.finish

theorem Entry.Alike.refl (x : Entry) : Entry.Alike l x x := ⟨rfl, rfl, rfl⟩

structure OutlineItem.Alike (l : Look ε δ) (x : OutlineItem ε) (y : OutlineItem δ) : Prop where
  entry : Entry.Alike l x.entry y.entry
  shows : Option.Rel l.Shown x.shows y.shows

/-- Alike entries, and alike function entries under the same ids. -/
structure Outline.Alike (l : Look ε δ) (o : Outline ε) (o' : Outline δ) : Prop where
  entries : List.Forall₂ (Entry.Alike l) o.entries o'.entries
  functions : List.Forall₂ (fun x y => x.1 = y.1 ∧ l.Shown x.2 y.2) o.functions o'.functions

namespace Outline

section Ends

theorem depthEndsFrom_alike {ts : List (CallTree α)} {ts' : List (CallTree β)} (cursor : Int)
    (ends : List Int) (h : List.Forall₂ CallTree.Alike ts ts') :
    depthEndsFrom cursor ends ts = depthEndsFrom cursor ends ts' := by
  induction h generalizing cursor ends with
  | nil => rfl
  | cons ht _ ih => simp only [depthEndsFrom, ht.weight, ht.height, ih]

theorem lastEnd_alike {ts : List (CallTree α)} {ts' : List (CallTree β)} (h : AlikeAll ts ts') :
    lastEnd ts = lastEnd ts' := congrArg Prod.fst (depthEndsFrom_alike 0 [] h)

theorem depthEnds_alike {ts : List (CallTree α)} {ts' : List (CallTree β)} (h : AlikeAll ts ts') :
    depthEnds ts = depthEnds ts' := congrArg Prod.snd (depthEndsFrom_alike 0 [] h)

mutual

theorem branchEnd_alike :
    {b : Branch α ε} → {b' : Branch β δ} → Branch.Alike l b b' → branchEnd b = branchEnd b'
  | .node _ _ _, .node _ _ _, ⟨_, hts, hbs⟩ => by
    rw [branchEnd, branchEnd, forestEnd_alike hbs, lastEnd_alike hts]

theorem forestEnd_alike : {bs : List (Branch α ε)} → {bs' : List (Branch β δ)} →
    Branch.AlikeIn l bs bs' → forestEnd bs = forestEnd bs'
  | [], [], _ => rfl
  | _ :: _, _ :: _, ⟨hb, hbs⟩ => by
    rw [forestEnd, forestEnd, branchEnd_alike hb, forestEnd_alike hbs]

end

end Ends

section Items

theorem functionItems_alike {e : ε} {d : δ} (hed : l.same e d) (parentId : Int) (id depth : Nat)
    (ends : List Int) :
    List.Forall₂ (OutlineItem.Alike l) (functionItems e parentId id depth ends)
      (functionItems d parentId id depth ends) := by
  induction ends generalizing id depth with
  | nil => exact .nil
  | cons finish rest ih => exact .cons ⟨.refl _, .some ⟨hed, rfl⟩⟩ (ih (id + 1) (depth + 1))

mutual

theorem branchItems_alike (parentId : Int) (id : Nat) : {b : Branch α ε} → {b' : Branch β δ} →
    Branch.Alike l b b' →
      List.Forall₂ (OutlineItem.Alike l) (branchItems parentId id b) (branchItems parentId id b')
  | .node e ts bs, .node d ts' bs', ⟨hed, hts, hbs⟩ => by
    have hbelow := forestItems_alike id (id + 1) hbs
    rw [branchItems, branchItems, ← forestEnd_alike hbs, ← lastEnd_alike hts,
      ← depthEnds_alike hts]
    refine .cons ⟨⟨?_, rfl, rfl⟩, .none⟩ (List.rel_append hbelow ?_)
    · exact l.level hed
        { id, parentId, name := "", finish := max (forestEnd bs) (lastEnd ts), kind := .level } rfl
    · rw [← hbelow.length_eq]
      exact functionItems_alike hed _ _ _ _

theorem forestItems_alike (parentId : Int) (id : Nat) : {bs : List (Branch α ε)} →
    {bs' : List (Branch β δ)} → Branch.AlikeIn l bs bs' →
      List.Forall₂ (OutlineItem.Alike l) (forestItems parentId id bs) (forestItems parentId id bs')
  | [], [], _ => .nil
  | _ :: _, _ :: _, ⟨hb, hbs⟩ => by
    have hfirst := branchItems_alike parentId id hb
    rw [forestItems, forestItems, ← hfirst.length_eq]
    exact List.rel_append hfirst (forestItems_alike parentId _ hbs)

end

end Items

section Whole

variable {p : Profile α ε} {p' : Profile β δ}

theorem of_alike (h : Profile.Alike l p p') (traceName : String) :
    Outline.Alike l (of p traceName) (of p' traceName) := by
  have hitems : List.Forall₂ (OutlineItem.Alike l) (items p traceName) (items p' traceName) := by
    rw [items, items, ← forestEnd_alike h]
    exact .cons ⟨.refl _, .none⟩ (forestItems_alike 0 1 h)
  constructor
  · rw [of, of, List.forall₂_map_left_iff, List.forall₂_map_right_iff]
    exact hitems.imp fun _ _ hi => hi.entry
  · refine List.rel_filterMap (R := OutlineItem.Alike l) (fun i i' hi => ?_) hitems
    rw [← hi.entry.id]
    exact hi.shows.map fun _ _ hshown => ⟨rfl, hshown⟩

/-- `build` cannot be told apart by a token. -/
theorem build_alike (h : Profile.Alike l p p') (traceName : String) (token : Token) :
    Option.Rel (Outline.Alike l) (build p traceName token) (build p' traceName token) := by
  rw [build, build, Profile.branches, Profile.branches, ← Branch.length_allIn_alike h]
  split
  · exact .none
  · exact .some (of_alike h traceName)

end Whole

/-! ## Looking up entries -/

section Lookup

variable {o : Outline ε} {o' : Outline δ}

theorem ids_alike (h : Outline.Alike l o o') :
    o.entries.map Entry.id = o'.entries.map Entry.id :=
  List.map_eq_map_iff_forall₂.mpr (h.entries.imp fun _ _ hx => hx.id)

theorem look_alike (h : Outline.Alike l o o') : o.entries.map l.entry = o'.entries.map l.entry :=
  List.map_eq_map_iff_forall₂.mpr (h.entries.imp fun _ _ hx => hx.look)

theorem finish?_alike (h : Outline.Alike l o o') (id : Int) : o.finish? id = o'.finish? id := by
  have hentries := h.entries
  rw [finish?, finish?]
  generalize o.entries = xs, o'.entries = ys at hentries
  induction hentries with
  | nil => rfl
  | cons hx _ ih =>
    rw [List.find?_cons, List.find?_cons, ← hx.id]
    split
    · exact congrArg some hx.finish
    · exact ih

theorem shown?_alike (h : Outline.Alike l o o') (id : Int) :
    Option.Rel l.Shown (o.shown? id) (o'.shown? id) := by
  have hfunctions := h.functions
  rw [shown?, shown?]
  generalize o.functions = xs, o'.functions = ys at hfunctions
  induction hfunctions with
  | nil => exact .none
  | @cons x y _ _ hxy _ ih =>
    obtain ⟨hid, hshown⟩ := hxy
    rw [List.lookup_cons, List.lookup_cons, ← hid]
    split
    · exact .some hshown
    · exact ih

end Lookup

end Outline

end StackProfile

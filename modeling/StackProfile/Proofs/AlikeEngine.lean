import StackProfile.Proofs.AlikeProfile
import StackProfile.Proofs.Session

/-!
# Engines on alike profiles

`Engine.Alike l e e'` is a simulation: row and tree queries of both engines have responses equal up
to the observation `l`, with any token, and keep the engines alike.
-/

namespace StackProfile

open CallTree (AlikeAll)

def EntryList.map (f : Entry → Entry) (es : EntryList) : EntryList := ⟨es.entries.map f⟩

def RowSheet.map (f : Span → Span) (sheet : RowSheet) : RowSheet :=
  ⟨sheet.rows.map fun r => ⟨r.entryId, r.spans.map f⟩⟩

theorem Response.map_entries_exact (ε : Type) [ToString ε] (r : Response EntryList) :
    r.map (EntryList.map (Look.exact ε).entry) = r := by
  have hentries : EntryList.map (Look.exact ε).entry = id := by
    funext es
    exact congrArg EntryList.mk (List.map_id es.entries)
  rw [Response.map, hentries, Option.map_id, id]

theorem Response.map_spans_exact (ε : Type) [ToString ε] (r : Response RowSheet) :
    r.map (RowSheet.map (Look.exact ε).span) = r := by
  have hrows : RowSheet.map (Look.exact ε).span = id := by
    funext sheet
    refine congrArg RowSheet.mk ((List.map_congr_left fun r _ => ?_).trans (List.map_id sheet.rows))
    exact congrArg (Row.mk r.entryId) (List.map_id r.spans)
  rw [Response.map, hrows, Option.map_id, id]

variable {α β ε δ : Type} [ToString α] [ToString β]

/-- Alike nodes get equal labels, at one analysis state. -/
structure Provider.DrawsAlike (p : Provider α ε) (p' : Provider β δ) : Prop where
  analysis : p.analysis = p'.analysis
  display : ∀ {t : CallTree α} {t' : CallTree β}, t.Alike t' → p.display t = p'.display t'

variable [ToString ε] [ToString δ]

/-- Equal keys, responses equal up to `l.entry`, alike profiles and outlines. -/
structure Index.Alike (l : Look ε δ) (i : Index α ε) (i' : Index β δ) : Prop where
  key : i.key = i'.key
  response : i.response.map (EntryList.map l.entry) = i'.response.map (EntryList.map l.entry)
  profile : Profile.Alike l i.profile i'.profile
  outline : Outline.Alike l i.outline i'.outline

theorem Index.alike_empty {l : Look ε δ} : Index.Alike l ({} : Index α ε) ({} : Index β δ) :=
  ⟨rfl, rfl, trivial, .nil, .nil⟩

namespace Engine

/-- Engines with alike indexes, whose styles of alike nodes are equal up to `l.span`. -/
structure Alike (l : Look ε δ) (e : Engine α ε) (e' : Engine β δ) : Prop where
  style : ∀ {t : CallTree α} {t' : CallTree β}, t.Alike t' → ∀ s : Span,
    l.span { s with style := some (e.palette.styleOf t) } =
      l.span { s with style := some (e'.palette.styleOf t') }
  config : e.config = e'.config
  index : Index.Alike l e.index e'.index

variable {l : Look ε δ} {e : Engine α ε} {e' : Engine β δ} {p : Provider α ε} {p' : Provider β δ}
  {q : Query} {token : Token}

/-! ## Spans -/

theorem spanOf_alike (h : Alike l e e') (hp : p.DrawsAlike p') {s : Slot α} {s' : Slot β}
    (hs : s.Alike s') : l.span (e.spanOf p s) = l.span (e'.spanOf p' s') := by
  have hstyle := h.style hs.tree (e.spanOf p s)
  rw [spanOf, spanOf, ← hs.start, ← hs.width, ← hs.tree.name, ← hp.display hs.tree]
  exact hstyle

omit [ToString δ] [ToString ε] in
/-- A filter reads only the label and the weight of a node. -/
theorem accepts_alike (hp : p.DrawsAlike p') (filters : Filters) {s : Slot α} {s' : Slot β}
    (hs : s.Alike s') (depth : Nat) :
    filters.accepts depth (e.spanOf p s) s.tree.weight =
      filters.accepts depth (e'.spanOf p' s') s'.tree.weight := by
  have hlabel : (e.spanOf p s).label = (e'.spanOf p' s').label :=
    congrArg some (hp.display hs.tree)
  have hnode : (e.spanOf p s).isGap = (e'.spanOf p' s').isGap := rfl
  rw [Filters.accepts, Filters.accepts, hlabel, hnode, hs.tree.weight]

/-! ## The elements of a request -/

section Wanted

structure Wanted.Alike (l : Look ε δ) (w : Wanted ε) (w' : Wanted δ) : Prop where
  element : l.same w.element w'.element
  depths : w.depths = w'.depths

variable [DecidableEq ε] [DecidableEq δ]

theorem want_alike {a : ε} {b : δ} (hab : l.same a b) (depth : Nat) (id : Int)
    {ws : List (Wanted ε)} {ws' : List (Wanted δ)} (h : List.Forall₂ (Wanted.Alike l) ws ws') :
    List.Forall₂ (Wanted.Alike l) (want a depth id ws) (want b depth id ws') := by
  induction h with
  | nil => exact .cons ⟨hab, rfl⟩ .nil
  | cons hw hws ih =>
    simp only [want, l.eq_iff hw.element hab, ← hw.depths]
    split
    · exact .cons ⟨hw.element, rfl⟩ hws
    · exact .cons hw ih

theorem wanted_alike {o : Outline ε} {o' : Outline δ} (h : Outline.Alike l o o') (ids : List Int) :
    List.Forall₂ (Wanted.Alike l) (wanted o ids) (wanted o' ids) := by
  refine List.rel_foldl (P := List.Forall₂ (Wanted.Alike l)) (R := Eq) ?_ .nil
    (List.forall₂_refl ids)
  rintro ws ws' hws id _ rfl
  have hshown := Outline.shown?_alike h id
  dsimp only
  generalize o.shown? id = x, o'.shown? id = y at hshown ⊢
  cases hshown with
  | none => exact hws
  | @some x y hxy =>
    obtain ⟨a, depth⟩ := x
    obtain ⟨b, depth'⟩ := y
    obtain ⟨hab, rfl⟩ : l.same a b ∧ depth = depth' := hxy
    exact want_alike hab depth id hws

end Wanted

/-! ## Rows -/

section Rows

variable {i : Index α ε} {i' : Index β δ}

theorem requestedIds_alike (h : Index.Alike l i i') (items : Option (List Int)) :
    requestedIds i items = requestedIds i' items := by
  cases items with
  | some ids => rfl
  | none => exact Outline.ids_alike h.outline

def WalkedAlike (l : Look ε δ) (x : Wanted ε × List (Step α)) (y : Wanted δ × List (Step β)) :
    Prop :=
  Wanted.Alike l x.1 y.1 ∧ List.Forall₂ Step.Alike x.2 y.2

theorem rowOf_alike (h : Alike l e e') (hp : p.DrawsAlike p') (filters : Filters)
    {walked : List (Wanted ε × List (Step α))} {walked' : List (Wanted δ × List (Step β))}
    (hwalked : List.Forall₂ (WalkedAlike l) walked walked') (id : Int) :
    (rowOf ⟨e.spanOf p, filters⟩ walked id).spans.map l.span =
      (rowOf ⟨e'.spanOf p', filters⟩ walked' id).spans.map l.span := by
  simp only [rowOf]
  induction hwalked with
  | nil => rfl
  | @cons x y _ _ hxy _ ih =>
    obtain ⟨w, steps⟩ := x
    obtain ⟨w', steps'⟩ := y
    obtain ⟨hw, hsteps⟩ : Wanted.Alike l w w' ∧ List.Forall₂ Step.Alike steps steps' := hxy
    simp only [List.findSome?_cons, ← hw.depths]
    cases w.depths.find? fun d => d.2 == id with
    | none => exact ih
    | some d =>
      exact Rows.Paint.row_alike l.span (spanOf_alike h hp) (accepts_alike hp filters) d.1 hsteps

variable [DecidableEq ε] [DecidableEq δ]

theorem planElement_alike (h : Index.Alike l i i') (times : List Int) {w : Wanted ε} {w' : Wanted δ}
    (hw : Wanted.Alike l w w') :
    List.Forall₂ Step.Alike (planElement i times w) (planElement i' times w') := by
  simp only [planElement, ← hw.depths, Outline.finish?_alike h.outline]
  exact .cons .poll (Rows.plan_alike _ _ _ (h.profile.treesOf hw.element))

theorem walk_alike (h : Index.Alike l i i') (times : List Int) (token : Token)
    (progress : Progress) {ws : List (Wanted ε)} {ws' : List (Wanted δ)}
    (hws : List.Forall₂ (Wanted.Alike l) ws ws') :
    Option.Rel (List.Forall₂ (WalkedAlike l)) (walk i times token progress ws)
      (walk i' times token progress ws') := by
  induction hws generalizing progress with
  | nil => exact .some .nil
  | @cons w w' _ _ hw _ ih =>
    have hout := Rows.carryOut_alike token (fun depth => w.depths.any fun d => d.1 == depth)
      progress (planElement_alike h times hw)
    simp only [walk, ← hw.depths, ← hout.finished, ← hout.progress]
    split
    · exact (ih _).map fun _ _ hrest => .cons ⟨hw, hout.done⟩ hrest
    · exact .none

theorem sheet_alike (h : Alike l e e') (hp : p.DrawsAlike p') (r : RowRequest) (token : Token) :
    (e.sheet p r token).map (RowSheet.map l.span) =
      (e'.sheet p' r token).map (RowSheet.map l.span) := by
  simp only [sheet, ← requestedIds_alike h.index]
  split
  · rfl
  · have hwanted := wanted_alike h.index.outline (requestedIds e.index r.items)
    have hwalk := walk_alike h.index r.times token { polls := 1 } hwanted
    generalize walk e.index r.times token { polls := 1 } _ = x,
      walk e'.index r.times token { polls := 1 } _ = y at hwalk ⊢
    cases hwalk with
    | none => rfl
    | some hwalked =>
      refine congrArg (fun rows => Except.ok (RowSheet.mk rows)) ?_
      rw [List.map_map, List.map_map]
      refine List.map_congr_left fun id _ => ?_
      exact congrArg (Row.mk id) (rowOf_alike h hp r.filters hwalked id)

theorem fetchRows_alike (h : Alike l e e') (hp : p.DrawsAlike p') (q : Query) (token : Token) :
    (e.fetchRows (fun _ => p) q token).map (RowSheet.map l.span) =
      (e'.fetchRows (fun _ => p') q token).map (RowSheet.map l.span) := by
  have hrows : (e.rows p q token).map (RowSheet.map l.span) =
      (e'.rows p' q token).map (RowSheet.map l.span) := by
    unfold rows
    cases RowRequest.read q with
    | error err => rfl
    | ok r => exact sheet_alike h hp r token
  rw [fetchRows, fetchRows, ← hp.analysis]
  cases hr : e.rows p q token with
  | error err =>
    cases hr' : e'.rows p' q token with
    | error err' =>
      rw [hr, hr'] at hrows
      rw [Except.error.inj hrows]
    | ok sheet' => rw [hr, hr'] at hrows; cases hrows
  | ok sheet =>
    cases hr' : e'.rows p' q token with
    | error err' => rw [hr, hr'] at hrows; cases hrows
    | ok sheet' =>
      rw [hr, hr'] at hrows
      have hsheet := Except.ok.inj hrows
      cases p.analysis
      · exact congrArg Response.running hsheet
      · exact congrArg Response.completed hsheet

end Rows

/-! ## Trees -/

section Trees

theorem indexOf_alike (h : Alike l e e') (analysis : Analysis) (q : Query) {r : Profile α ε}
    {r' : Profile β δ} (hr : Profile.Alike l r r') :
    Index.Alike l (e.indexOf analysis q r) (e'.indexOf analysis q r') := by
  have houtline : Outline.Alike l (Outline.of r e.config.traceName)
      (Outline.of r' e'.config.traceName) := h.config ▸ Outline.of_alike hr e.config.traceName
  refine ⟨rfl, ?_, hr, houtline⟩
  have hentries := congrArg EntryList.mk (Outline.look_alike houtline)
  cases analysis
  · exact congrArg Response.running hentries
  · exact congrArg Response.completed hentries

variable [BEq α] [BEq β] [Grouping ε] [Grouping δ]

theorem buildIndex_alike (h : Alike l e e') (hp : p.DrawsAlike p')
    (hprofile : ∀ level range, q.level = .ok level →
      Profile.Alike l (profileFor (fun _ => p) level range) (profileFor (fun _ => p') level range))
    (token : Token) :
    (∃ err, e.buildIndex (fun _ => p) q token = .error err ∧
        e'.buildIndex (fun _ => p') q token = .error err) ∨
      ∃ i i', e.buildIndex (fun _ => p) q token = .ok i ∧
        e'.buildIndex (fun _ => p') q token = .ok i' ∧ Index.Alike l i i' := by
  cases hl : q.level with
  | error err =>
    refine .inl ⟨.params err, ?_, ?_⟩ <;> rw [buildIndex, hl] <;> rfl
  | ok level =>
    cases hr : q.range with
    | error err =>
      refine .inl ⟨.params err, ?_, ?_⟩ <;> rw [buildIndex, hl, hr] <;> rfl
    | ok range =>
      have halike := hprofile level range hl
      have hbuild := Outline.build_alike halike e.config.traceName token
      rw [buildIndex_eq hl hr, buildIndex_eq hl hr, ← h.config, ← hp.analysis]
      generalize Outline.build (profileFor (fun _ => p) level range) _ token = x,
        Outline.build (profileFor (fun _ => p') level range) _ token = y at hbuild
      cases hbuild with
      | none => exact .inl ⟨.cancelled, rfl, rfl⟩
      | some _ => exact .inr ⟨_, _, rfl, rfl, indexOf_alike h _ q halike⟩

/-- `fetchTree` keeps engines alike, with responses equal up to `l.entry`. -/
theorem fetchTree_alike (h : Alike l e e') (hp : p.DrawsAlike p')
    (hprofile : ∀ level range, q.level = .ok level →
      Profile.Alike l (profileFor (fun _ => p) level range) (profileFor (fun _ => p') level range))
    (token : Token) :
    (e.fetchTree (fun _ => p) q token).1.map (EntryList.map l.entry) =
        (e'.fetchTree (fun _ => p') q token).1.map (EntryList.map l.entry) ∧
      Alike l (e.fetchTree (fun _ => p) q token).2 (e'.fetchTree (fun _ => p') q token).2 := by
  unfold fetchTree
  rw [← h.index.key]
  split
  · exact ⟨h.index.response, h⟩
  · rcases buildIndex_alike h hp hprofile token with ⟨err, he, he'⟩ | ⟨i, i', hi, hi', halike⟩
    · rw [he, he']
      refine ⟨?_, h⟩
      cases err <;> rfl
    · rw [hi, hi']
      exact ⟨halike.response, { h with index := halike }⟩

end Trees

end Engine

end StackProfile

import StackProfile.Config
import StackProfile.Proofs.Records

/-!
# Models over the wire

Responses, summaries and configurations are read back from their JSON texts.
-/

namespace StackProfile

open Json (Decoder)

/-! ## Values without parts -/

def InTime (n : Int) : Prop := minTime ≤ n ∧ n ≤ maxTime

instance (n : Int) : Decidable (InTime n) := inferInstanceAs (Decidable (_ ∧ _))

def IsIndex (n : Nat) : Prop := n < Nat.pow 2 64

instance (n : Nat) : Decidable (IsIndex n) := inferInstanceAs (Decidable (_ < _))

theorem carries_time {n : Int} (h : InTime n) : Carries (.int n) Decoder.time n := by
  refine ⟨?_, if_pos h⟩
  obtain ⟨hlow, hhigh⟩ := h
  simp only [minTime, maxTime] at hlow hhigh
  exact Json.inRange_iff.mpr ⟨by omega, by omega⟩

theorem carries_index {n : Nat} (h : IsIndex n) : Carries (.int n) Decoder.index n := by
  have h : n < 18446744073709551616 := h
  have hrange : (0 : Int) ≤ n ∧ (n : Int) ≤ ((Nat.pow 2 64 - 1 : Nat) : Int) := by
    rw [Nat.pow_eq]
    omega
  refine ⟨Json.inRange_iff.mpr ⟨by omega, by omega⟩, ?_⟩
  change (Decoder.int 0 _ (.int n)).map Int.toNat = _
  rw [Decoder.int, if_pos hrange]
  rfl

theorem carries_byte (b : UInt8) : Carries (.int b.toNat) Decoder.byte b := by
  have hb := b.toNat_lt
  have hrange : (0 : Int) ≤ b.toNat ∧ (b.toNat : Int) ≤ 255 := by omega
  refine ⟨Json.inRange_iff.mpr ⟨by omega, by omega⟩, ?_⟩
  change (Decoder.int 0 255 (.int b.toNat)).map (fun n => UInt8.ofNat n.toNat) = _
  rw [Decoder.int, if_pos hrange]
  simp [Except.map]

theorem carries_string (s : String) : Carries (.str s) Decoder.string s := ⟨trivial, rfl⟩

theorem carries_entryKind (k : EntryKind) : Carries k.toJson EntryKind.decoder k := by
  refine ⟨trivial, ?_⟩
  cases k <;> rfl

theorem carries_status (s : Status) : Carries s.toJson Status.decoder s := by
  refine ⟨trivial, ?_⟩
  cases s <;> rfl

/-! ## Entries -/

structure Entry.Fits (e : Entry) : Prop where
  id : InTime e.id
  parentId : InTime e.parentId
  start : InTime e.start
  finish : InTime e.finish
  depth : ∀ d ∈ e.depth, IsIndex d

theorem carries_entry {e : Entry} (h : e.Fits) : Carries e.toJson Entry.decoder e := by
  obtain ⟨id, parentId, name, start, finish, kind, depth⟩ := e
  refine .record rfl (.append (.cons rfl rfl (carries_time h.id)
    (.cons rfl rfl (carries_time h.parentId) (.cons rfl rfl (carries_string name)
    (.cons rfl rfl (carries_time h.start) (.cons rfl rfl (carries_time h.finish)
    (.cons rfl rfl (carries_entryKind kind) .nil))))))
    (.optional rfl rfl nofun fun d hd => carries_index (h.depth d hd))) ?_
  cases depth <;> rfl

def EntryList.Fits (l : EntryList) : Prop := ∀ e ∈ l.entries, e.Fits

theorem carries_entryList {l : EntryList} (h : l.Fits) : Carries l.toJson EntryList.decoder l :=
  (Carries.listRecord "entries" fun e he => carries_entry (h e he)).map EntryList.mk

/-! ## Styles -/

theorem carries_color (c : Color) : Carries c.toJson Color.decoder c :=
  .record rfl (.cons rfl rfl (carries_byte c.red) (.cons rfl rfl (carries_byte c.green)
    (.cons rfl rfl (carries_byte c.blue) (.cons rfl rfl (carries_byte c.alpha) .nil)))) rfl

theorem carries_styleValue {room : Nat} (hroom : 1 < room) (v : StyleValue) :
    Carries v.toJson (StyleValue.decoder room) v := by
  obtain ⟨c⟩ := v
  have hcolor := carries_color c
  have hany : ∃ v, Decoder.any room (Json.draft c.toJson) = .ok v := by
    rw [Color.toJson, Json.draft, Decoder.any, if_neg (by omega)]
    exact ⟨_, rfl⟩
  obtain ⟨v, hany⟩ := hany
  refine ⟨hcolor.plain, ?_⟩
  rw [StyleValue.toJson, StyleValue.decoder, hany, hcolor.read]
  rfl

def Style.Fits (s : Style) : Prop := SortedKeys s.values

theorem carries_style {room : Nat} (hroom : 3 < room) {s : Style} (h : s.Fits) :
    Carries s.toJson (Style.decoder room) s := by
  obtain ⟨parent, values⟩ := s
  have hvalues : Carries _ _ values :=
    .sorted h fun v _ => carries_styleValue (show 1 < room - 2 by omega) v.2
  cases values with
  | nil =>
    refine .record rfl (.append (.optional rfl rfl nofun fun s _ => carries_string s) .nil) ?_
    cases parent <;> rfl
  | cons v vs =>
    refine .record rfl (.append (.optional rfl rfl nofun fun s _ => carries_string s)
      (.cons rfl (by cases parent <;> rfl) hvalues .nil)) ?_
    cases parent <;> rfl

structure StyleSheet.Fits (sheet : StyleSheet) : Prop where
  sorted : SortedKeys sheet.styles
  styles : ∀ s ∈ sheet.styles, s.2.Fits

theorem carries_styleSheet {room : Nat} (hroom : 5 < room) {sheet : StyleSheet} (h : sheet.Fits) :
    Carries sheet.toJson (StyleSheet.decoder room) sheet := by
  have hstyles : Carries _ _ sheet.styles :=
    .sorted h.sorted fun s hs =>
      carries_style (show 3 < room - 2 by omega) (h.styles s hs)
  exact .record rfl (.cons rfl rfl hstyles .nil) rfl

/-! ## Rows -/

structure Span.Fits (s : Span) : Prop where
  start : InTime s.start
  duration : InTime s.duration
  style : ∀ style ∈ s.style, style.Fits
  identity : ∀ n ∈ s.identity, InTime n

theorem carries_span {room : Nat} (hroom : 4 < room) {s : Span} (h : s.Fits) :
    Carries s.toJson (Span.decoder room) s := by
  obtain ⟨start, duration, label, style, identity⟩ := s
  refine .record rfl (.append (.append (.append
    (.cons rfl rfl (carries_time h.start) (.cons rfl rfl (carries_time h.duration) .nil))
    (.optional rfl rfl nofun fun s _ => carries_string s))
    (.optional rfl (by cases label <;> rfl) nofun fun s hs =>
      carries_style (by omega) (h.style s hs)))
    (.optional rfl (by cases label <;> cases style <;> rfl) nofun fun n hn =>
      carries_time (h.identity n hn))) ?_
  cases label <;> cases style <;> cases identity <;> rfl

structure Row.Fits (r : Row) : Prop where
  entryId : InTime r.entryId
  spans : ∀ s ∈ r.spans, s.Fits

theorem carries_row {room : Nat} (hroom : 6 < room) {r : Row} (h : r.Fits) :
    Carries r.toJson (Row.decoder room) r := by
  have hspans : Carries _ _ r.spans :=
    .list fun s hs => carries_span (show 4 < room - 2 by omega) (h.spans s hs)
  exact .record rfl (.cons rfl rfl (carries_time h.entryId) (.cons rfl rfl hspans .nil)) rfl

def RowSheet.Fits (sheet : RowSheet) : Prop := ∀ r ∈ sheet.rows, r.Fits

theorem carries_rowSheet {room : Nat} (hroom : 8 < room) {sheet : RowSheet} (h : sheet.Fits) :
    Carries sheet.toJson (RowSheet.decoder room) sheet :=
  (Carries.listRecord "rows" fun r hr => carries_row (by omega) (h r hr)).map RowSheet.mk

/-! ## Tooltips -/

theorem carries_tooltipField (f : TooltipField) : Carries f.toJson TooltipField.decoder f :=
  .record rfl (.cons rfl rfl (carries_string f.name)
    (.cons rfl rfl (carries_string f.value) .nil)) rfl

theorem carries_tooltip (t : Tooltip) : Carries t.toJson Tooltip.decoder t :=
  (Carries.listRecord "fields" fun f _ => carries_tooltipField f).map Tooltip.mk

/-! ## Responses -/

theorem carries_response {μ : Type} {toJson : μ → Json} {read : Decoder μ}
    (hnull : ∀ m, toJson m ≠ .null) {r : Response μ}
    (h : ∀ m ∈ r.model, Carries (toJson m) read m) :
    Carries (r.toJson toJson) (Response.decoder read) r :=
  .record rfl (.cons rfl rfl (carries_status r.status) (.cons rfl rfl (carries_string r.message)
    (.cons rfl rfl (.optional hnull h) .nil))) rfl

/-! ## Summaries and settings -/

structure Summary.Fits (s : Summary) : Prop where
  count : IsIndex s.count
  least : InTime s.least
  greatest : InTime s.greatest
  total : InTime s.total

theorem carries_summary {s : Summary} (h : s.Fits) : Carries s.toJson Summary.decoder s :=
  .record rfl (.cons rfl rfl (carries_index h.count) (.cons rfl rfl (carries_time h.least)
    (.cons rfl rfl (carries_time h.greatest) (.cons rfl rfl (carries_time h.total) .nil)))) rfl

def Config.Fits (c : Config) : Prop := IsIndex c.paletteSize

instance (c : Config) : Decidable c.Fits := inferInstanceAs (Decidable (IsIndex _))

theorem carries_config {c : Config} (h : c.Fits) : Carries c.toJson Config.decoder c :=
  .record rfl (.cons rfl rfl (carries_string c.traceName)
    (.cons rfl rfl (carries_index h) .nil)) rfl

/-! ## All models -/

/-- Every response, summary and configuration comes back from its texts, given numbers in range and
sorted styles. -/
theorem models_survive_wire :
    (∀ r : Response EntryList, (∀ m ∈ r.model, m.Fits) →
      SurvivesWire (Response.toJson EntryList.toJson) (Response.decoder EntryList.decoder) r) ∧
    (∀ r : Response RowSheet, (∀ m ∈ r.model, m.Fits) →
      SurvivesWire (Response.toJson RowSheet.toJson)
        (Response.decoder (RowSheet.decoder (Decoder.nestingLimit - 1))) r) ∧
    (∀ r : Response StyleSheet, (∀ m ∈ r.model, m.Fits) →
      SurvivesWire (Response.toJson StyleSheet.toJson)
        (Response.decoder (StyleSheet.decoder (Decoder.nestingLimit - 1))) r) ∧
    (∀ r : Response Tooltip,
      SurvivesWire (Response.toJson Tooltip.toJson) (Response.decoder Tooltip.decoder) r) ∧
    (∀ s : Summary, s.Fits → SurvivesWire Summary.toJson Summary.decoder s) ∧
    ∀ c : Config, c.Fits → SurvivesWire Config.toJson Config.decoder c := by
  refine ⟨fun r h => ?_, fun r h => ?_, fun r h => ?_, fun r => ?_, fun s h => ?_, fun c h => ?_⟩
  · exact (carries_response nofun fun m hm => carries_entryList (h m hm)).survivesWire
  · exact (carries_response nofun fun m hm => carries_rowSheet (by decide) (h m hm)).survivesWire
  · exact (carries_response nofun fun m hm => carries_styleSheet (by decide) (h m hm)).survivesWire
  · exact (carries_response nofun fun m _ => carries_tooltip m).survivesWire
  · exact (carries_summary h).survivesWire
  · exact (carries_config h).survivesWire

/-- Models with and without optional parts, and a label with escapes. -/
theorem models_survive_wire_samples :
    let entries : EntryList :=
      ⟨[{ id := 0, parentId := -1, name := "", finish := maxTime, kind := .trace },
        { id := 1, parentId := 0, name := "0", kind := .function, depth := some 0 }]⟩
    let style : Style :=
      { values := [("background-color", .color ⟨255, 0, 7, 255⟩), ("border", .color .white)] }
    let span : Span := ⟨minTime, maxTime, some "a\"\n\x01é", some style, some (-1)⟩
    let rows : RowSheet := ⟨[⟨-3, [span, .gap 2 3]⟩, ⟨7, []⟩]⟩
    let styles : StyleSheet := ⟨[("0", style), ("1", .reference "0")]⟩
    SurvivesWire (Response.toJson EntryList.toJson) (Response.decoder EntryList.decoder)
        (.completed entries) ∧
      SurvivesWire (Response.toJson RowSheet.toJson)
        (Response.decoder (RowSheet.decoder (Decoder.nestingLimit - 1))) (.running rows) ∧
      SurvivesWire (Response.toJson StyleSheet.toJson)
        (Response.decoder (StyleSheet.decoder (Decoder.nestingLimit - 1))) (.completed styles) ∧
      SurvivesWire (Response.toJson Tooltip.toJson) (Response.decoder Tooltip.decoder)
        .cancelled ∧
      SurvivesWire Summary.toJson Summary.decoder ⟨3, -1, 5, 7⟩ ∧
      SurvivesWire Config.toJson Config.decoder {} := by
  intro entries style span rows styles
  have hentries : entries.Fits := List.forall_mem_cons.mpr
    ⟨⟨by decide, by decide, by decide, by decide, nofun⟩, List.forall_mem_singleton.mpr
      ⟨by decide, by decide, by decide, by decide, fun _ h => by cases h; decide⟩⟩
  have hstyle : style.Fits := List.Pairwise.cons (by decide) (.cons nofun .nil)
  have hspan : span.Fits :=
    ⟨by decide, by decide, fun _ h => by cases h; exact hstyle, fun _ h => by cases h; decide⟩
  have hspans : ∀ s ∈ [span, .gap 2 3], s.Fits := List.forall_mem_cons.mpr
    ⟨hspan, List.forall_mem_singleton.mpr ⟨by decide, by decide, nofun, nofun⟩⟩
  have hrows : rows.Fits := List.forall_mem_cons.mpr
    ⟨⟨by decide, hspans⟩, List.forall_mem_singleton.mpr ⟨by decide, nofun⟩⟩
  have hstyles : styles.Fits :=
    ⟨List.Pairwise.cons (by decide) (.cons nofun .nil), List.forall_mem_cons.mpr
      ⟨hstyle, List.forall_mem_singleton.mpr .nil⟩⟩
  obtain ⟨htree, hrow, hsheet, htooltip, hsummary, hconfig⟩ := models_survive_wire
  refine ⟨htree _ ?_, hrow _ ?_, hsheet _ ?_, htooltip _, hsummary _ ?_, hconfig _ ?_⟩
  · intro _ h; cases h; exact hentries
  · intro _ h; cases h; exact hrows
  · intro _ h; cases h; exact hstyles
  · exact ⟨by decide, by decide, by decide, by decide⟩
  · decide

end StackProfile

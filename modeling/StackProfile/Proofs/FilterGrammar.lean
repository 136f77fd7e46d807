import Mathlib.Data.List.Forall2
import StackProfile.Proofs.ByteOrder
import StackProfile.Proofs.DepthLiterals

/-!
# The grammar of filters

`Joins` and `Refused` describe `Query.filters` without reference to the reader: keys denote depths,
values are a pattern or an array, patterns of one depth are joined in the byte order of the keys,
and the first fault in that order is reported.
-/

namespace StackProfile

/-! ## Sorted maps by their entries -/

section Maps

variable {κ β : Type} [LT κ] [DecidableEq κ] {k : κ} {v : β} {kvs kvs' : List (κ × β)}

omit [LT κ] in
theorem mem_of_lookup (h : kvs.lookup k = some v) : (k, v) ∈ kvs := by
  obtain ⟨before, after, rfl, -⟩ := List.lookup_eq_some_iff.mp h
  exact List.mem_append_right _ List.mem_cons_self

variable [LE κ] [Std.IsLinearOrder κ] [Std.LawfulOrderLT κ]

omit [Std.IsLinearOrder κ] in
theorem Ascending.mem_iff_lookup (h : Ascending kvs) :
    (k, v) ∈ kvs ↔ kvs.lookup k = some v := by
  refine ⟨fun hmem => ?_, mem_of_lookup⟩
  obtain ⟨before, after, rfl⟩ := List.append_of_mem hmem
  refine List.lookup_eq_some_iff.mpr ⟨before, after, rfl, fun kv hkv => bne_iff_ne.mpr ?_⟩
  have hlt : kv.1 < k := (List.pairwise_append.mp h).2.2 kv hkv (k, v) List.mem_cons_self
  exact fun heq => Std.lt_irrefl (heq ▸ hlt)

omit [DecidableEq κ] in
theorem Ascending.ext (h : Ascending kvs) (h' : Ascending kvs')
    (hmem : ∀ kv, kv ∈ kvs ↔ kv ∈ kvs') : kvs = kvs' := by
  have hnodup : ∀ {kvs : List (κ × β)}, Ascending kvs → kvs.Nodup := by
    intro kvs h
    refine h.imp fun {a b} hab heq => ?_
    rw [heq] at hab
    exact Std.lt_irrefl hab
  have hperm : kvs.Perm kvs' := (List.perm_ext_iff_of_nodup (hnodup h) (hnodup h')).mpr hmem
  refine hperm.eq_of_pairwise (fun a b _ _ hab hba => ?_) h h'
  exact absurd (Std.lt_trans hab hba) Std.lt_irrefl

end Maps

/-! ## Objects that are read -/

namespace Json.Decoder

variable {room : Nat} {found kvs : List (String × Json)} {ms : List (Option String × Draft)}

theorem ascending_anyMembers (hfound : Ascending found)
    (h : anyMembers room found ms = .ok kvs) : Ascending kvs := by
  induction ms generalizing found with
  | nil =>
    cases h
    exact hfound
  | cons m ms ih =>
    obtain ⟨_ | key, d⟩ := m
    · cases h
    · rw [anyMembers] at h
      split at h
      · cases h
      · refine ih ?_ h
        rw [setKey_eq_updateAt]
        exact hfound.updateAt

theorem mem_anyMembers {kv : String × Json} (h : anyMembers room found ms = .ok kvs)
    (hkv : kv ∈ kvs) : kv ∈ found ∨ ∃ d, any room d = .ok kv.2 := by
  induction ms generalizing found with
  | nil =>
    cases h
    exact .inl hkv
  | cons m ms ih =>
    obtain ⟨_ | key, d⟩ := m
    · cases h
    · rw [anyMembers] at h
      split at h
      · cases h
      · next v hv =>
        rcases ih h with hfound | hread
        · rw [setKey_eq_updateAt] at hfound
          rcases mem_updateAt hfound with ⟨-, -, hvalue⟩ | hfound
          · exact .inr ⟨d, hvalue ▸ hv⟩
          · exact .inl hfound
        · exact .inr hread

theorem anyMembers_of_any {d : Draft} (h : any room d = .ok (.obj kvs)) :
    ∃ ms, anyMembers (room - 1) [] ms = .ok kvs := by
  cases d with
  | obj ms cut =>
    rw [any] at h
    split at h
    · cases h
    · cases hread : anyMembers (room - 1) [] ms with
      | error f => rw [hread] at h; cases h
      | ok found =>
        rw [hread] at h
        refine ⟨ms, ?_⟩
        cases cut with
        | none => cases h; exact hread
        | some cut => cases h
  | arr items cut =>
    rw [any] at h
    split at h
    · cases h
    · cases hread : anyItems (room - 1) items with
      | error f => rw [hread] at h; cases h
      | ok vs =>
        rw [hread] at h
        cases cut <;> cases h
  | _ => rw [any] at h; cases h

/-- Members come out of the reader sorted by key. -/
theorem ascending_of_any {d : Draft} (h : any room d = .ok (.obj kvs)) : Ascending kvs := by
  obtain ⟨ms, hms⟩ := anyMembers_of_any h
  exact ascending_anyMembers .nil hms

end Json.Decoder

namespace Query

def FiltersSorted (q : Query) : Prop :=
  ∀ members, q.value? filtersKey = some (.obj members) → Ascending members

theorem filtersSorted_of_decoder {d : Json.Draft} {q : Query} (h : decoder d = .ok q) :
    q.FiltersSorted := by
  intro members hmembers
  cases d with
  | obj ms cut =>
    rw [decoder] at h
    cases hread : Json.Decoder.any Json.Decoder.nestingLimit (.obj ms cut) with
    | error f => rw [hread] at h; cases h
    | ok v =>
      rw [hread] at h
      cases v with
      | obj kvs =>
        cases h
        obtain ⟨ms, hms⟩ := Json.Decoder.anyMembers_of_any hread
        rcases Json.Decoder.mem_anyMembers hms (mem_of_lookup hmembers) with hnil | ⟨d, hd⟩
        · cases hnil
        · exact Json.Decoder.ascending_of_any hd
      | _ => cases h
  | _ => cases h

/-! ## Members -/

/-- One pattern or an array of them. -/
inductive GivesPatterns : Json → List String → Prop where
  | one (p : String) : GivesPatterns (.str p) [p]
  | many (ps : List String) : GivesPatterns (patternsJson ps) ps

/-- `kv` is an integer key with patterns. -/
structure IsFilter (kv : String × Json) (f : Int × List String) : Prop where
  depth : Text.Denotes kv.1.toList f.1
  patterns : GivesPatterns kv.2 f.2

/-- The fault of a member that is no filter; its key is checked before its value. -/
inductive IsFault : String × Json → ParamError → Prop where
  | depth {key : String} {v : Json} (nowhere : ∀ d, ¬ Text.Denotes key.toList d) :
      IsFault (key, v) (.invalidValue filtersKey s!"`{key}` is not a depth")
  | patterns {key : String} {v : Json} {d : Int} (depth : Text.Denotes key.toList d)
      (none : ∀ ps, ¬ GivesPatterns v ps) :
      IsFault (key, v) (.invalidType filtersKey "string patterns")

theorem patternsOf_eq_some {v : Json} {ps : List String} :
    patternsOf v = some ps ↔ GivesPatterns v ps := by
  constructor
  · intro h
    cases v with
    | str p =>
      cases h
      exact .one p
    | arr items =>
      have hitems : items = ps.map Json.str := by
        rw [patternsOf] at h
        induction items generalizing ps with
        | nil => cases h; rfl
        | cons item items ih =>
          rw [List.mapM_cons] at h
          obtain ⟨p, hp, h⟩ := Option.bind_eq_some_iff.mp h
          obtain ⟨qs, hqs, ⟨⟩⟩ := Option.bind_eq_some_iff.mp h
          rw [List.map_cons, ih hqs]
          cases item <;> cases hp
          rfl
      rw [hitems]
      exact .many ps
    | _ => cases h
  · rintro (p | ps)
    · rfl
    · exact patternsOf_patternsJson ps

theorem isFilter_or_isFault (kv : String × Json) : (∃ f, IsFilter kv f) ∨ ∃ e, IsFault kv e := by
  obtain ⟨key, v⟩ := kv
  by_cases hkey : ∃ d, Text.Denotes key.toList d
  · obtain ⟨d, hd⟩ := hkey
    by_cases hv : ∃ ps, GivesPatterns v ps
    · obtain ⟨ps, hps⟩ := hv
      exact .inl ⟨(d, ps), hd, hps⟩
    · exact .inr ⟨_, .patterns hd (not_exists.mp hv)⟩
  · exact .inr ⟨_, .depth (not_exists.mp hkey)⟩

variable {found m : List (Int × List String)} {fs : List (Int × List String)}
  {members : List (String × Json)} {kv : String × Json} {e : ParamError}

theorem readFilters_cons_of_isFilter {f : Int × List String} (h : IsFilter kv f) :
    readFilters found (kv :: members) = readFilters (addPatterns f.1 f.2 found) members := by
  obtain ⟨key, v⟩ := kv
  rw [readFilters]
  simp only [Text.readInt?_trim_eq_some.mpr h.depth, patternsOf_eq_some.mpr h.patterns]

theorem readFilters_cons_of_isFault (h : IsFault kv e) :
    readFilters found (kv :: members) = .error e := by
  cases h with
  | depth hnowhere =>
    next key v =>
    have hread : Text.readInt? (Text.trim key.toList) = none :=
      Option.eq_none_iff_forall_ne_some.mpr fun d hd =>
        hnowhere d (Text.readInt?_trim_eq_some.mp hd)
    rw [readFilters]
    simp only [hread]
  | patterns hdepth hnone =>
    next key v d =>
    have hread : patternsOf v = none :=
      Option.eq_none_iff_forall_ne_some.mpr fun ps hps => hnone ps (patternsOf_eq_some.mp hps)
    rw [readFilters]
    simp only [Text.readInt?_trim_eq_some.mpr hdepth, hread]

theorem readFilters_of_forall₂ (h : List.Forall₂ IsFilter members fs) :
    readFilters found members = .ok (fs.foldl (fun m f => addPatterns f.1 f.2 m) found) := by
  induction h generalizing found with
  | nil => rfl
  | cons hkv _ ih => rw [readFilters_cons_of_isFilter hkv, ih, List.foldl_cons]

/-- All members are filters, or there is a first fault. -/
theorem forall₂_or_fault (members : List (String × Json)) :
    (∃ fs, List.Forall₂ IsFilter members fs) ∨
      ∃ before kv after e, members = before ++ kv :: after ∧ (∀ x ∈ before, ∃ f, IsFilter x f) ∧
        IsFault kv e := by
  induction members with
  | nil => exact .inl ⟨[], .nil⟩
  | cons kv members ih =>
    rcases isFilter_or_isFault kv with ⟨f, hf⟩ | ⟨e, he⟩
    · rcases ih with ⟨fs, hfs⟩ | ⟨before, x, after, e, rfl, hbefore, he⟩
      · exact .inl ⟨f :: fs, .cons hf hfs⟩
      · exact .inr ⟨kv :: before, x, after, e, rfl,
          List.forall_mem_cons.mpr ⟨⟨f, hf⟩, hbefore⟩, he⟩
    · exact .inr ⟨[], kv, members, e, rfl, nofun, he⟩

/-- `readFilters` reports the first fault. -/
theorem readFilters_of_fault {before after : List (String × Json)}
    (hbefore : ∀ x ∈ before, ∃ f, IsFilter x f) (he : IsFault kv e) :
    readFilters found (before ++ kv :: after) = .error e := by
  induction before generalizing found with
  | nil => exact readFilters_cons_of_isFault he
  | cons x before ih =>
    obtain ⟨⟨f, hf⟩, hbefore⟩ := List.forall_mem_cons.mp hbefore
    rw [List.cons_append, readFilters_cons_of_isFilter hf, ih hbefore]

/-! ## Joined patterns -/

def patternsFor (d : Int) (fs : List (Int × List String)) : List String :=
  (fs.filter fun f => f.1 = d).flatMap Prod.snd

/-- `m` maps each depth of `fs` to its joined patterns, sorted by depth. -/
structure Joins (m fs : List (Int × List String)) : Prop where
  ascending : Ascending m
  entries : ∀ d ps, (d, ps) ∈ m ↔ d ∈ fs.map Prod.fst ∧ ps = patternsFor d fs

theorem patternsFor_cons (d : Int) (f : Int × List String) (fs : List (Int × List String)) :
    patternsFor d (f :: fs) = if d = f.1 then f.2 ++ patternsFor d fs else patternsFor d fs := by
  rw [patternsFor, List.filter_cons, patternsFor]
  by_cases hd : d = f.1
  · simp [hd]
  · simp [hd, Ne.symm hd]

theorem patternsFor_of_notMem {d : Int} (h : d ∉ fs.map Prod.fst) : patternsFor d fs = [] := by
  rw [patternsFor, List.filter_eq_nil_iff.mpr, List.flatMap_nil]
  intro f hf hd
  exact h (List.mem_map.mpr ⟨f, hf, of_decide_eq_true hd⟩)

theorem joined_eq_ite (d : Int) (fs : List (Int × List String)) :
    joined d fs = if d ∈ fs.map Prod.fst then some (patternsFor d fs) else none := by
  induction fs with
  | nil => rfl
  | cons f fs ih =>
    rw [joined, ih, patternsFor_cons, List.map_cons]
    by_cases hd : d = f.1
    · rw [if_pos hd, if_pos hd, if_pos (List.mem_cons.mpr (.inl hd))]
      split
      · rfl
      · next hrest => rw [patternsFor_of_notMem hrest]; rfl
    · have hmem : d ∈ f.1 :: fs.map Prod.fst ↔ d ∈ fs.map Prod.fst := by simp [hd]
      simp only [if_neg hd, hmem]

/-- Folding `addPatterns` joins. -/
theorem joins_foldl (fs : List (Int × List String)) :
    Joins (fs.foldl (fun m f => addPatterns f.1 f.2 m) []) fs := by
  obtain ⟨hascending, hlookup⟩ := @foldl_addPatterns [] fs .nil
  refine ⟨hascending, fun d ps => ?_⟩
  rw [hascending.mem_iff_lookup, hlookup, joined_eq_ite]
  split
  · next hd => simp [hd, eq_comm]
  · next hd => simp [hd]

theorem Joins.unique (h : Joins m fs) {m' : List (Int × List String)} (h' : Joins m' fs) :
    m = m' :=
  h.ascending.ext h'.ascending fun (d, ps) => (h.entries d ps).trans (h'.entries d ps).symm

/-! ## Reading -/

def inByteOrder (members : List (String × Json)) : List (String × Json) :=
  members.mergeSort fun a b => Utf8.encode a.1.toList ≤ Utf8.encode b.1.toList

theorem inByteOrder_eq (h : Ascending members) : inByteOrder members = members := by
  refine List.mergeSort_of_pairwise (h.imp fun {a b} hab => decide_eq_true ?_)
  exact List.le_of_lt (Utf8.encode_lt (String.lt_iff.mp hab))

/-- The fault of filters that are no object or have a faulty member. -/
inductive Refused (q : Query) : ParamError → Prop where
  | type {v : Json} (value : q.value? filtersKey = some v) (other : ∀ members, v ≠ .obj members) :
      Refused q (.invalidType filtersKey "an object of depth to patterns")
  | member {members before after : List (String × Json)} {kv : String × Json} {e : ParamError}
      (value : q.value? filtersKey = some (.obj members))
      (split : inByteOrder members = before ++ kv :: after)
      (earlier : ∀ x ∈ before, ∃ f, IsFilter x f) (fault : IsFault kv e) : Refused q e

section Reading

variable {q : Query}

theorem filters_of_obj (h : q.FiltersSorted) (hv : q.value? filtersKey = some (.obj members)) :
    q.filters = (readFilters [] (inByteOrder members)).map some := by
  rw [inByteOrder_eq (h members hv), filters, hv]
  rfl

theorem filters_of_forall₂ (h : q.FiltersSorted)
    (hv : q.value? filtersKey = some (.obj members))
    (hfs : List.Forall₂ IsFilter (inByteOrder members) fs) :
    q.filters = .ok (some (fs.foldl (fun m f => addPatterns f.1 f.2 m) [])) := by
  rw [filters_of_obj h hv, readFilters_of_forall₂ hfs]
  rfl

theorem filters_of_refused (h : q.FiltersSorted) (he : q.Refused e) : q.filters = .error e := by
  cases he with
  | @type v hv hother =>
    rw [filters, hv]
    cases v with
    | obj members => exact absurd rfl (hother members)
    | _ => rfl
  | member hv hsplit hbefore hfault =>
    rw [filters_of_obj h hv, hsplit, readFilters_of_fault hbefore hfault]
    rfl

theorem filters_cases (q : Query) :
    q.value? filtersKey = none ∨
      (∃ members fs, q.value? filtersKey = some (.obj members) ∧
        List.Forall₂ IsFilter (inByteOrder members) fs) ∨
      ∃ e, q.Refused e := by
  cases hv : q.value? filtersKey with
  | none => exact .inl rfl
  | some v =>
    by_cases hobj : ∃ members, v = .obj members
    · obtain ⟨members, rfl⟩ := hobj
      rcases forall₂_or_fault (inByteOrder members) with
        ⟨fs, hfs⟩ | ⟨_, _, _, e, hsplit, hbefore, he⟩
      · exact .inr (.inl ⟨members, fs, rfl, hfs⟩)
      · exact .inr (.inr ⟨e, .member hv hsplit hbefore he⟩)
    · exact .inr (.inr ⟨_, .type hv (not_exists.mp hobj)⟩)

end Reading

end Query

/-- `filters` accepts exactly its grammar: `none` iff absent, a map iff an object of filters, whose
patterns for one depth are joined in the byte order of keys. Other objects are refused for their
first fault in that order, other values for their type. -/
theorem filters_follow_grammar {q : Query} (h : q.FiltersSorted) :
    (q.filters = .ok none ↔ q.value? Query.filtersKey = none) ∧
    (∀ m, q.filters = .ok (some m) ↔ ∃ members fs,
      q.value? Query.filtersKey = some (.obj members) ∧
        List.Forall₂ Query.IsFilter (Query.inByteOrder members) fs ∧ Query.Joins m fs) ∧
    ∀ e, q.filters = .error e ↔ q.Refused e := by
  have habsent (hnone : q.value? Query.filtersKey = none) : q.filters = .ok none := by
    rw [Query.filters, hnone]
  refine ⟨⟨fun hq => ?_, habsent⟩, fun m => ⟨fun hq => ?_, ?_⟩,
    fun e => ⟨fun hq => ?_, Query.filters_of_refused h⟩⟩
  · rcases q.filters_cases with hnone | ⟨members, fs, hv, hfs⟩ | ⟨e, he⟩
    · exact hnone
    · rw [Query.filters_of_forall₂ h hv hfs] at hq; cases hq
    · rw [Query.filters_of_refused h he] at hq; cases hq
  · rcases q.filters_cases with hnone | ⟨members, fs, hv, hfs⟩ | ⟨e, he⟩
    · rw [habsent hnone] at hq; cases hq
    · rw [Query.filters_of_forall₂ h hv hfs] at hq
      cases hq
      exact ⟨members, fs, hv, hfs, Query.joins_foldl fs⟩
    · rw [Query.filters_of_refused h he] at hq; cases hq
  · rintro ⟨members, fs, hv, hfs, hm⟩
    rw [Query.filters_of_forall₂ h hv hfs, (Query.joins_foldl fs).unique hm]
  · rcases q.filters_cases with hnone | ⟨members, fs, hv, hfs⟩ | ⟨e', he⟩
    · rw [habsent hnone] at hq; cases hq
    · rw [Query.filters_of_forall₂ h hv hfs] at hq; cases hq
    · rw [Query.filters_of_refused h he] at hq
      cases hq
      exact he

namespace Sample

/-- Five spellings of two depths. -/
def aliases : Json.Draft :=
  .obj [(some Query.filtersKey, .obj [(some "1", .str "d"), (some "-1", .str "x"),
    (some "01", .arr [.str "b", .str "c"] none), (some " 1", .str "a"), (some "+1", .arr [] none)]
    none)] none

def faults : Json.Draft :=
  .obj [(some Query.filtersKey, .obj [(some "top", .str "x"), (some "7", .int 1)] none)] none

end Sample

/-- Four members for depth 1 are joined; of two faults the one with the smaller key is reported. -/
theorem filters_follow_grammar_aliases :
    (∃ q, Query.decoder Sample.aliases = .ok q ∧ q.FiltersSorted ∧
      q.filters = .ok (some [(-1, ["x"]), (1, ["a", "b", "c", "d"])])) ∧
    ∃ q, Query.decoder Sample.faults = .ok q ∧ q.FiltersSorted ∧
      q.filters = .error (.invalidType Query.filtersKey "string patterns") := by
  have hread : ∀ {key : String} {d : Int}, Text.readInt? (Text.trim key.toList) = some d →
      Text.Denotes key.toList d := Text.readInt?_trim_eq_some.mp
  constructor
  · have hdecoder : Query.decoder Sample.aliases = .ok ⟨[(Query.filtersKey,
        .obj [(" 1", .str "a"), ("+1", .arr []), ("-1", .str "x"),
          ("01", .arr [.str "b", .str "c"]), ("1", .str "d")])]⟩ := by rfl
    have hsorted := Query.filtersSorted_of_decoder hdecoder
    refine ⟨_, hdecoder, hsorted, ((filters_follow_grammar hsorted).2.1 _).mpr ⟨_,
      [(1, ["a"]), (1, []), (-1, ["x"]), (1, ["b", "c"]), (1, ["d"])], rfl, ?_, ?_⟩⟩
    · rw [Query.inByteOrder_eq (hsorted _ rfl)]
      exact .cons ⟨hread (by decide), .one _⟩ (.cons ⟨hread (by decide), .many []⟩
        (.cons ⟨hread (by decide), .one _⟩ (.cons ⟨hread (by decide), .many ["b", "c"]⟩
          (.cons ⟨hread (by decide), .one _⟩ .nil))))
    · exact Query.joins_foldl [(1, ["a"]), (1, []), (-1, ["x"]), (1, ["b", "c"]), (1, ["d"])]
  · have hdecoder : Query.decoder Sample.faults = .ok ⟨[(Query.filtersKey,
        .obj [("7", .int 1), ("top", .str "x")])]⟩ := by rfl
    have hsorted := Query.filtersSorted_of_decoder hdecoder
    refine ⟨_, hdecoder, hsorted, ((filters_follow_grammar hsorted).2.2 _).mpr ?_⟩
    have hsplit : Query.inByteOrder [("7", .int 1), ("top", .str "x")] =
        [] ++ ("7", .int 1) :: [("top", .str "x")] := Query.inByteOrder_eq (hsorted _ rfl)
    refine .member rfl hsplit nofun (.patterns (hread (d := 7) (by decide)) ?_)
    intro ps hps
    cases hps

end StackProfile

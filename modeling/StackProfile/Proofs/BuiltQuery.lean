import Mathlib.Data.List.Induction
import StackProfile.Command.Run
import StackProfile.Proofs.DepthFilters

/-!
# Queries from builder steps

`Query.written` applies a list of `Change`s. The getters return the last value of each parameter,
and the patterns of each depth in the order of the steps.
-/

namespace StackProfile

namespace Query

/-! ## Steps -/

inductive Change where
  | times (ts : List Int)
  | items (ids : List Int)
  | filter (depth : Int) (pattern : String)
  | level (n : Nat)
  | range (start finish : Int)

namespace Change

def apply (q : Query) : Change → Query
  | times ts => q.withTimes ts
  | items ids => q.withItems ids
  | filter depth pattern => q.withFilter depth pattern
  | level n => q.withLevel n
  | range start finish => q.withRange start finish

/-- The parameter that a step sets; `none` for a filter, which adds to one. -/
def setting? : Change → Option (String × Json)
  | times ts => some (timesKey, ints ts)
  | items ids => some (itemsKey, ints ids)
  | filter _ _ => none
  | level n => some (levelKey, .int n)
  | range start finish => some (rangeKey, ints [start, finish])

def InRange : Change → Prop
  | times ts => ∀ t ∈ ts, minTime ≤ t ∧ t ≤ maxTime
  | items ids => ∀ id ∈ ids, minTime ≤ id ∧ id ≤ maxTime
  | filter depth _ => minTime ≤ depth ∧ depth ≤ maxTime
  | level _ => True
  | range start finish => (minTime ≤ start ∧ start ≤ maxTime) ∧ minTime ≤ finish ∧ finish ≤ maxTime

def times? : Change → Option (List Int)
  | times ts => some ts
  | _ => none

def items? : Change → Option (List Int)
  | items ids => some ids
  | _ => none

def filter? : Change → Option (Int × String)
  | filter depth pattern => some (depth, pattern)
  | _ => none

def level? : Change → Option Nat
  | level n => some n
  | _ => none

def range? : Change → Option (Int × Int)
  | range start finish => some (start, finish)
  | _ => none

end Change

def written (changes : List Change) : Query := changes.foldl Change.apply {}

theorem written_append (changes : List Change) (c : Change) :
    written (changes ++ [c]) = c.apply (written changes) := by
  rw [written, List.foldl_append]
  rfl

/-! ## Values -/

theorem value?_set {q : Query} (h : Ascending q.members) (key k : String) (v : Json) :
    (q.set key v).value? k = if k = key then some v else q.value? k := by
  rw [value?, set, setKey_eq_updateAt]
  split
  · next hk => rw [hk, lookup_updateAt_self h]
  · next hk => rw [lookup_updateAt_of_ne hk]; rfl

theorem ascending_set {q : Query} (h : Ascending q.members) (key : String) (v : Json) :
    Ascending (q.set key v).members := by
  rw [set, setKey_eq_updateAt]
  exact h.updateAt

theorem withFilter_cases (q : Query) (depth : Int) (pattern : String) :
    q.withFilter depth pattern = q ∨
      ∃ v, q.withFilter depth pattern = q.set filtersKey v := by
  unfold withFilter
  dsimp only
  split
  · exact .inl rfl
  · exact .inr ⟨_, rfl⟩

theorem ascending_apply {q : Query} (h : Ascending q.members) (c : Change) :
    Ascending (c.apply q).members := by
  cases c with
  | filter depth pattern =>
    show Ascending (q.withFilter depth pattern).members
    rcases withFilter_cases q depth pattern with hsame | ⟨v, hset⟩
    · rwa [hsame]
    · rw [hset]
      exact ascending_set h _ _
  | _ => exact ascending_set h _ _

theorem ascending_written (changes : List Change) : Ascending (written changes).members := by
  induction changes using List.reverseRecOn with
  | nil => exact List.Pairwise.nil
  | append_singleton changes c ih =>
    rw [written_append]
    exact ascending_apply ih c

theorem value?_set_or {q : Query} (h : Ascending q.members) (key k : String) (v : Json) :
    (q.set key v).value? k =
      (((some (key, v)).filter fun s => s.1 == k).map Prod.snd).or (q.value? k) := by
  rw [value?_set h]
  by_cases hk : k = key
  · simp [hk, Option.filter_some]
  · simp [hk, Ne.symm hk, Option.filter_some]

/-- A step changes no parameter but its own. -/
theorem value?_apply {q : Query} (h : Ascending q.members) {key : String}
    (hkey : key ≠ filtersKey) (c : Change) :
    (c.apply q).value? key =
      ((c.setting?.filter fun s => s.1 == key).map Prod.snd).or (q.value? key) := by
  cases c with
  | filter depth pattern =>
    show (q.withFilter depth pattern).value? key = q.value? key
    rcases withFilter_cases q depth pattern with hsame | ⟨v, hset⟩
    · rw [hsame]
    · rw [hset, value?_set h, if_neg hkey]
  | _ => exact value?_set_or h _ _ _

/-- The last step of a kind sets its parameter. -/
theorem value?_written {τ : Type} {key : String} {f : Change → Option τ} {toJson : τ → Json}
    (hkey : key ≠ filtersKey)
    (hf : ∀ c : Change,
      (c.setting?.filter fun s => s.1 == key).map Prod.snd = (f c).map toJson)
    (changes : List Change) :
    (written changes).value? key = (changes.filterMap f).getLast?.map toJson := by
  induction changes using List.reverseRecOn with
  | nil => rfl
  | append_singleton changes c ih =>
    rw [written_append, value?_apply (ascending_written changes) hkey, hf, ih,
      List.filterMap_append, List.getLast?_append]
    cases hc : f c <;> simp [hc]

section Values

variable (changes : List Change)

theorem value?_times : (written changes).value? timesKey =
    (changes.filterMap Change.times?).getLast?.map ints :=
  value?_written (by decide) (fun c => by cases c <;> rfl) changes

theorem value?_items : (written changes).value? itemsKey =
    (changes.filterMap Change.items?).getLast?.map ints :=
  value?_written (by decide) (fun c => by cases c <;> rfl) changes

theorem value?_level : (written changes).value? levelKey =
    (changes.filterMap Change.level?).getLast?.map fun n => .int n :=
  value?_written (by decide) (fun c => by cases c <;> rfl) changes

theorem value?_range : (written changes).value? rangeKey =
    (changes.filterMap Change.range?).getLast?.map fun r => ints [r.1, r.2] :=
  value?_written (by decide) (fun c => by cases c <;> rfl) changes

end Values

/-! ## Filters -/

def patternsAt (d : Int) (fs : List (Int × String)) : List String :=
  (fs.filter fun f => f.1 = d).map Prod.snd

def patternsAt? (d : Int) (fs : List (Int × String)) : Option (List String) :=
  if patternsAt d fs = [] then none else some (patternsAt d fs)

theorem patternsAt_append (d : Int) (fs : List (Int × String)) (f : Int × String) :
    patternsAt d (fs ++ [f]) = if d = f.1 then patternsAt d fs ++ [f.2] else patternsAt d fs := by
  rw [patternsAt, List.filter_append, List.map_append, ← patternsAt]
  by_cases hd : d = f.1
  · simp [hd]
  · simp [hd, Ne.symm hd]

theorem patternsAt?_append (d : Int) (fs : List (Int × String)) (f : Int × String) :
    patternsAt? d (fs ++ [f]) =
      if d = f.1 then some (patternsAt d fs ++ [f.2]) else patternsAt? d fs := by
  rw [patternsAt?, patternsAt_append]
  split
  · rw [if_neg (by simp)]
  · rfl

/-- `ms` is sorted by key and has the patterns of `fs` for each depth under its text. -/
structure Stores (ms : List (String × Json)) (fs : List (Int × String)) : Prop where
  ascending : Ascending ms
  entry : ∀ kv ∈ ms, ∃ f : Int × List String, (minTime ≤ f.1 ∧ f.1 ≤ maxTime) ∧
    kv = (toString f.1, patternsJson f.2)
  lookup : ∀ d : Int, ms.lookup (toString d) = (patternsAt? d fs).map patternsJson
  nil_of_nil : fs = [] → ms = []

namespace Stores

variable {ms : List (String × Json)} {fs : List (Int × String)}

theorem nil : Stores [] [] := ⟨.nil, nofun, fun _ => rfl, fun _ => rfl⟩

theorem set (h : Stores ms fs) {d : Int} (hd : minTime ≤ d ∧ d ≤ maxTime) (pattern : String) :
    Stores (setKey (toString d) (patternsJson (patternsAt d fs ++ [pattern])) ms)
      (fs ++ [(d, pattern)]) := by
  rw [setKey_eq_updateAt]
  refine ⟨h.ascending.updateAt, fun kv hkv => ?_, fun e => ?_, fun hnil => ?_⟩
  · rcases mem_updateAt hkv with ⟨hkey, -, hvalue⟩ | hkv
    · exact ⟨(d, patternsAt d fs ++ [pattern]), hd, Prod.ext hkey hvalue⟩
    · exact h.entry kv hkv
  · rw [patternsAt?_append]
    by_cases he : e = d
    · subst he
      rw [lookup_updateAt_self h.ascending, if_pos rfl]
      rfl
    · have hkey : toString e ≠ toString d := fun heq => he (Text.toString_injective heq)
      rw [lookup_updateAt_of_ne hkey, if_neg he, h.lookup]
  · exact absurd hnil (List.append_ne_nil_of_right_ne_nil _ (List.cons_ne_nil _ _))

theorem withFilter {q : Query} (h : Stores ms fs)
    (hq : q.value? filtersKey = if fs = [] then none else some (.obj ms)) (d : Int)
    (pattern : String) :
    q.withFilter d pattern = q.set filtersKey
      (.obj (setKey (toString d) (patternsJson (patternsAt d fs ++ [pattern])) ms)) := by
  have hlookup := h.lookup d
  unfold Query.withFilter
  split at hq
  · next hnil =>
    obtain rfl := h.nil_of_nil hnil
    simp only [hq, hnil, patternsAt]
    rfl
  · simp only [hq, Json.asMembers?]
    unfold patternsAt? at hlookup
    split at hlookup
    · next hempty =>
      simp only [hlookup, hempty, Option.map_none]
      rfl
    · simp only [hlookup, Option.map_some, patternsJson, List.map_append, List.map_singleton]

theorem exists_stored (h : Stores ms fs) :
    ∃ found : List (Int × List String), ms = stored found ∧
      ∀ f ∈ found, minTime ≤ f.1 ∧ f.1 ≤ maxTime := by
  have hentry := h.entry
  clear h
  induction ms with
  | nil => exact ⟨[], rfl, nofun⟩
  | cons kv ms ih =>
    obtain ⟨⟨f, hf, rfl⟩, hms⟩ := List.forall_mem_cons.mp hentry
    obtain ⟨found, rfl, hfound⟩ := ih hms
    exact ⟨f :: found, rfl, List.forall_mem_cons.mpr ⟨hf, hfound⟩⟩

theorem readFilters (h : Stores ms fs) : ∃ m, readFilters [] ms = .ok m ∧ Ascending m ∧
    ∀ d, m.lookup d = patternsAt? d fs := by
  obtain ⟨found, rfl, hfound⟩ := h.exists_stored
  have hdistinct : found.Pairwise fun a b => a.1 ≠ b.1 :=
    (List.pairwise_map.mp h.ascending).imp fun {a b} hab heq => by
      rw [heq] at hab
      exact String.lt_irrefl _ hab
  obtain ⟨hascending, hlookup⟩ := @foldl_addPatterns [] found .nil
  refine ⟨_, readFilters_stored hfound, hascending, fun d => ?_⟩
  have hstored := h.lookup d
  rw [lookup_stored] at hstored
  have hsame := Option.map_injective (fun _ _ => patternsJson_injective) hstored
  rw [hlookup, joined_eq_lookup hdistinct, hsame]
  cases patternsAt? d fs <;> rfl

end Stores

/-- The stored filters of a written query. -/
theorem value?_filters (changes : List Change) (h : ∀ c ∈ changes, c.InRange) :
    ∃ ms, Stores ms (changes.filterMap Change.filter?) ∧
      (written changes).value? filtersKey =
        if changes.filterMap Change.filter? = [] then none else some (.obj ms) := by
  induction changes using List.reverseRecOn with
  | nil => exact ⟨[], .nil, rfl⟩
  | append_singleton changes c ih =>
    obtain ⟨ms, hstores, hvalue⟩ := ih fun d hd => h d (List.mem_append_left _ hd)
    have hc := h c (List.mem_append_right _ List.mem_cons_self)
    have hascending := ascending_written changes
    rw [written_append, List.filterMap_append]
    cases c with
    | filter d pattern =>
      refine ⟨_, hstores.set hc pattern, ?_⟩
      rw [Change.apply, hstores.withFilter hvalue, value?_set hascending, if_pos rfl, if_neg]
      exact List.append_ne_nil_of_right_ne_nil _ (List.cons_ne_nil _ _)
    | _ =>
      refine ⟨ms, ?_, ?_⟩
      · rwa [List.filterMap_cons_none rfl, List.filterMap_nil, List.append_nil]
      · rw [List.filterMap_cons_none rfl, List.filterMap_nil, List.append_nil, ← hvalue]
        exact value?_set hascending _ _ _

/-! ## Reading -/

theorem mapM_asInt? {ns : List Int} (h : ∀ n ∈ ns, minTime ≤ n ∧ n ≤ maxTime) :
    (ns.map Json.int).mapM Json.asInt? = some ns := by
  induction ns with
  | nil => rfl
  | cons n ns ih =>
    obtain ⟨hn, hns⟩ := List.forall_mem_cons.mp h
    rw [List.map_cons, List.mapM_cons, Json.asInt?, if_pos hn, ih hns]
    rfl

theorem intList_of_value? {q : Query} {key : String} {o : Option (List Int)}
    (hq : q.value? key = o.map ints) (h : ∀ ns ∈ o, ∀ n ∈ ns, minTime ≤ n ∧ n ≤ maxTime) :
    q.intList key = .ok o := by
  cases o with
  | none => simp only [intList, hq, Option.map_none]
  | some ns =>
    simp only [intList, hq, Option.map_some, ints, Json.asItems?, Option.bind_some,
      mapM_asInt? (h ns rfl)]

section Reading

variable {changes : List Change}

theorem of_getLast?_filterMap {τ : Type} {f : Change → Option τ} {P : τ → Prop}
    (h : ∀ c ∈ changes, ∀ x ∈ f c, P x) : ∀ x ∈ (changes.filterMap f).getLast?, P x := by
  intro x hx
  obtain ⟨c, hc, hfc⟩ := List.mem_filterMap.mp (List.mem_of_getLast? hx)
  exact h c hc x hfc

variable (h : ∀ c ∈ changes, c.InRange)

include h in
theorem times_written :
    (written changes).times = .ok (changes.filterMap Change.times?).getLast? := by
  refine intList_of_value? (value?_times changes) (of_getLast?_filterMap fun c hc ts hts => ?_)
  have hrange := h c hc
  cases c <;> cases hts
  exact hrange

include h in
theorem items_written :
    (written changes).items = .ok (changes.filterMap Change.items?).getLast? := by
  refine intList_of_value? (value?_items changes) (of_getLast?_filterMap fun c hc ids hids => ?_)
  have hrange := h c hc
  cases c <;> cases hids
  exact hrange

theorem level_written :
    (written changes).level = .ok (changes.filterMap Change.level?).getLast? := by
  unfold level
  rw [value?_level]
  cases (changes.filterMap Change.level?).getLast? with
  | none => rfl
  | some n => simp [Json.asNat?]

include h in
theorem range_written :
    (written changes).range = .ok ((changes.filterMap Change.range?).getLast?.map fun r =>
      (min r.1 r.2, max r.1 r.2)) := by
  have hends : ∀ ends ∈ (changes.filterMap Change.range?).getLast?.map fun r => [r.1, r.2],
      ∀ n ∈ ends, minTime ≤ n ∧ n ≤ maxTime := by
    intro ends hends n hn
    obtain ⟨r, hr, rfl⟩ := Option.map_eq_some_iff.mp hends
    have hboth : (minTime ≤ r.1 ∧ r.1 ≤ maxTime) ∧ minTime ≤ r.2 ∧ r.2 ≤ maxTime := by
      refine of_getLast?_filterMap (P := fun r =>
        (minTime ≤ r.1 ∧ r.1 ≤ maxTime) ∧ minTime ≤ r.2 ∧ r.2 ≤ maxTime) (fun c hc x hx => ?_) r hr
      have hrange := h c hc
      cases c <;> cases hx
      exact hrange
    simp only [List.mem_cons, List.not_mem_nil, or_false] at hn
    rcases hn with rfl | rfl
    · exact hboth.1
    · exact hboth.2
  have hlist : (written changes).intList rangeKey =
      .ok ((changes.filterMap Change.range?).getLast?.map fun r => [r.1, r.2]) := by
    refine intList_of_value? ?_ hends
    rw [value?_range, Option.map_map]
    rfl
  rw [range, hlist]
  cases (changes.filterMap Change.range?).getLast? <;> rfl

include h in
theorem filters_written :
    if changes.filterMap Change.filter? = [] then (written changes).filters = .ok none
    else ∃ m, (written changes).filters = .ok (some m) ∧ Ascending m ∧
      ∀ d, m.lookup d = patternsAt? d (changes.filterMap Change.filter?) := by
  obtain ⟨ms, hstores, hvalue⟩ := value?_filters changes h
  obtain ⟨m, hread, hascending, hlookup⟩ := hstores.readFilters
  split at hvalue
  · next hnone =>
    rw [if_pos hnone, filters, hvalue]
  · next hsome =>
    rw [if_neg hsome]
    refine ⟨m, ?_, hascending, hlookup⟩
    rw [filters, hvalue]
    simp only [Json.asMembers?, hread]
    rfl

end Reading

end Query

/-! ## From the command line -/

namespace Command

/-- The steps of a row query; without items it asks for all rows. -/
def rowChanges (times items : List Int) (fs : List (Int × String)) : List Query.Change :=
  .times times :: (if items.isEmpty then [] else [.items items]) ++
    fs.map fun f => .filter f.1 f.2

theorem rowQuery_eq_written (times items : List Int) (fs : List (Int × String)) :
    rowQuery times items fs = Query.written (rowChanges times items fs) := by
  rw [rowQuery, rowChanges, Query.written, List.foldl_append, List.foldl_map]
  split <;> rfl

theorem mapM_readFilter {fs : List (Int × String)}
    (h : ∀ f ∈ fs, minTime ≤ f.1 ∧ f.1 ≤ maxTime) :
    (fs.map filterText).mapM readFilter = .ok fs := by
  induction fs with
  | nil => rfl
  | cons f fs ih =>
    obtain ⟨hf, hfs⟩ := List.forall_mem_cons.mp h
    rw [List.map_cons, List.mapM_cons, readFilter_filterText hf, ih hfs]
    rfl

end Command

/-- The getters read back what builder steps have written: the last value of each parameter, a range
with its ends in order, and the patterns of each depth in the order of the steps. Filters of the
command line are read as their pairs. -/
theorem query_reads_back {changes : List Query.Change} (h : ∀ c ∈ changes, c.InRange) :
    (Query.written changes).times = .ok (changes.filterMap Query.Change.times?).getLast? ∧
    (Query.written changes).items = .ok (changes.filterMap Query.Change.items?).getLast? ∧
    (Query.written changes).level = .ok (changes.filterMap Query.Change.level?).getLast? ∧
    (Query.written changes).range = .ok ((changes.filterMap Query.Change.range?).getLast?.map
      fun r => (min r.1 r.2, max r.1 r.2)) ∧
    (if changes.filterMap Query.Change.filter? = [] then
      (Query.written changes).filters = .ok none
    else ∃ m, (Query.written changes).filters = .ok (some m) ∧ Ascending m ∧
      ∀ d, m.lookup d = Query.patternsAt? d (changes.filterMap Query.Change.filter?)) ∧
    ∀ (times items : List Int) (fs : List (Int × String)),
      (∀ f ∈ fs, minTime ≤ f.1 ∧ f.1 ≤ maxTime) →
        (fs.map Command.filterText).mapM Command.readFilter = .ok fs ∧
        Command.rowQuery times items fs = Query.written (Command.rowChanges times items fs) := by
  refine ⟨Query.times_written h, Query.items_written h, Query.level_written,
    Query.range_written h, Query.filters_written h, fun times items fs hfs => ?_⟩
  exact ⟨Command.mapM_readFilter hfs, Command.rowQuery_eq_written times items fs⟩

/-- Filters at all depths and at depth 10, one with an equals sign, between times, a level and a
reversed range. -/
theorem query_reads_back_mixed :
    let q := Query.written [.filter (-1) "a=b", .times [1], .level 3, .filter 10 "x",
      .times [minTime, maxTime], .range 5 (-5), .filter (-1) "c d"]
    q.times = .ok (some [minTime, maxTime]) ∧ q.items = .ok none ∧ q.level = .ok (some 3) ∧
      q.range = .ok (some (-5, 5)) ∧
      (∃ m, q.filters = .ok (some m) ∧ Ascending m ∧ m.lookup (-1) = some ["a=b", "c d"] ∧
        m.lookup 10 = some ["x"] ∧ m.lookup 1 = none) ∧
      ["-1=a=b", "10= x"].mapM Command.readFilter = .ok [(-1, "a=b"), (10, " x")] := by
  intro q
  have hrange : ∀ c ∈ ([.filter (-1) "a=b", .times [1], .level 3, .filter 10 "x",
      .times [minTime, maxTime], .range 5 (-5), .filter (-1) "c d"] : List Query.Change),
      c.InRange := by
    simp [Query.Change.InRange, minTime, maxTime]
  have htexts : [(-1, "a=b"), (10, " x")].map Command.filterText = ["-1=a=b", "10= x"] := by decide
  obtain ⟨htimes, hitems, hlevel, hends, hfilters, hcommand⟩ := query_reads_back hrange
  rw [← htexts]
  refine ⟨htimes, hitems, hlevel, hends, ?_, (hcommand [] [] _ (by decide)).1⟩
  rw [if_neg (by decide)] at hfilters
  obtain ⟨m, hm, hascending, hlookup⟩ := hfilters
  exact ⟨m, hm, hascending, hlookup _, hlookup _, hlookup _⟩

end StackProfile

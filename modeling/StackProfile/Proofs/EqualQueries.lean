import StackProfile.Query

/-!
# Equal queries

Queries are compared with `==` on JSON, under which equal floats may differ. Levels and ranges are
integers, so equal queries agree on them.
-/

namespace StackProfile

namespace Json

variable {v w : Json}

theorem asInt?_of_same (h : same v w) : v.asInt? = w.asInt? := by
  cases v <;> cases w <;> simp_all [same, asInt?]

theorem asNat?_of_same (h : same v w) : v.asNat? = w.asNat? := by
  cases v <;> cases w <;> simp_all [same, asNat?]

theorem mapM_asInt?_of_sameItems {vs ws : List Json} (h : sameItems vs ws) :
    vs.mapM asInt? = ws.mapM asInt? := by
  induction vs generalizing ws with
  | nil =>
    cases ws with
    | nil => rfl
    | cons w ws => cases h
  | cons v vs ih =>
    cases ws with
    | nil => cases h
    | cons w ws =>
      obtain ⟨hv, hvs⟩ := Bool.and_eq_true_iff.mp h
      rw [List.mapM_cons, List.mapM_cons, asInt?_of_same hv, ih hvs]

theorem asInts?_of_same (h : same v w) :
    (v.asItems?.bind fun items => items.mapM asInt?) =
      w.asItems?.bind fun items => items.mapM asInt? := by
  cases v <;> cases w <;> simp only [same, Bool.false_eq_true] at h <;> try rfl
  exact mapM_asInt?_of_sameItems h

theorem lookup_of_sameMembers {vs ws : List (String × Json)} (h : sameMembers vs ws)
    (key : String) :
    (vs.lookup key = none ∧ ws.lookup key = none) ∨
      ∃ v w, vs.lookup key = some v ∧ ws.lookup key = some w ∧ same v w := by
  induction vs generalizing ws with
  | nil =>
    cases ws with
    | nil => exact .inl ⟨rfl, rfl⟩
    | cons w ws => cases h
  | cons v vs ih =>
    cases ws with
    | nil => cases h
    | cons w ws =>
      obtain ⟨h, hrest⟩ := Bool.and_eq_true_iff.mp h
      obtain ⟨hk, hv⟩ := Bool.and_eq_true_iff.mp h
      rw [List.lookup_cons, List.lookup_cons, ← beq_iff_eq.mp hk]
      cases key == v.1 with
      | true => exact .inr ⟨v.2, w.2, rfl, rfl, hv⟩
      | false => exact ih hrest

end Json

namespace Query

variable {q q' : Query}

theorem value?_of_beq (h : q == q') (key : String) :
    (q.value? key = none ∧ q'.value? key = none) ∨
      ∃ v w, q.value? key = some v ∧ q'.value? key = some w ∧ Json.same v w :=
  Json.lookup_of_sameMembers h key

theorem intList_of_beq (h : q == q') (key : String) : q.intList key = q'.intList key := by
  unfold intList
  rcases value?_of_beq h key with ⟨hq, hq'⟩ | ⟨v, w, hq, hq', hsame⟩
  · rw [hq, hq']
  · simp only [hq, hq', Json.asInts?_of_same hsame]

theorem level_of_beq (h : q == q') : q.level = q'.level := by
  unfold level
  rcases value?_of_beq h levelKey with ⟨hq, hq'⟩ | ⟨v, w, hq, hq', hsame⟩
  · rw [hq, hq']
  · simp only [hq, hq', Json.asInt?_of_same hsame, Json.asNat?_of_same hsame]

theorem range_of_beq (h : q == q') : q.range = q'.range := by
  unfold range
  rw [intList_of_beq h]

end Query

end StackProfile

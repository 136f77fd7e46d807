import StackProfile.Codec
import StackProfile.Proofs.JsonText

/-!
# Records as JSON

`Carries j read x`: `j` has a spelling and is read as `x`. Lists, sorted maps and records are
carried componentwise, with optional members left out.
-/

namespace StackProfile

open Json (Decoder Fault draft draftItems draftMembers Plain PlainItems PlainMembers)

variable {σ τ υ : Type} {toJson : τ → Json} {read : Decoder τ} {x : τ} {j : Json}

/-- `j` has a spelling and is read as `x`. -/
structure Carries (j : Json) (read : Decoder τ) (x : τ) : Prop where
  plain : Plain j
  read : read (draft j) = .ok x

/-- `x` comes back from compact and indented text, and from their bytes. -/
def SurvivesWire (toJson : τ → Json) (read : Decoder τ) (x : τ) : Prop :=
  ∀ text ∈ [(toJson x).render, (toJson x).pretty],
    Decoder.ofText read text = .ok x ∧ Decoder.ofBytes read text.toUTF8 = .ok x

theorem Carries.survivesWire (h : Carries (toJson x) read x) : SurvivesWire toJson read x := by
  have htexts : ∀ text ∈ [(toJson x).render, (toJson x).pretty],
      Decoder.ofText read text = .ok x := by
    rw [List.forall_mem_cons, List.forall_mem_singleton]
    exact ⟨(Decoder.ofText_render read h.plain).trans h.read,
      (Decoder.ofText_pretty read h.plain).trans h.read⟩
  exact fun text htext =>
    ⟨htexts text htext, (Decoder.ofBytes_toUTF8 read text).trans (htexts text htext)⟩

/-! ## Parts -/

namespace Carries

theorem map (h : Carries j read x) (f : τ → υ) : Carries j (fun d => (read d).map f) (f x) :=
  ⟨h.plain, by rw [h.read]; rfl⟩

theorem some (hnull : j ≠ .null) (h : Carries j read x) :
    Carries j (Decoder.optional read) (some x) := by
  refine ⟨h.plain, ?_⟩
  have hdraft : draft j ≠ .null := by cases j <;> simp [draft] at hnull ⊢
  rw [Decoder.optional, h.read]
  · rfl
  · exact hdraft

theorem optional {o : Option τ} (hnull : ∀ x, toJson x ≠ .null)
    (h : ∀ x ∈ o, Carries (toJson x) read x) :
    Carries ((o.map toJson).getD .null) (Decoder.optional read) o := by
  cases o with
  | none => exact ⟨trivial, rfl⟩
  | some x => exact (h x rfl).some (hnull x)

theorem list {xs : List τ} (h : ∀ x ∈ xs, Carries (toJson x) read x) :
    Carries (.arr (xs.map toJson)) (Decoder.list read) xs := by
  have hitems : PlainItems (xs.map toJson) ∧
      Decoder.readAll read (draftItems (xs.map toJson)) = .ok xs := by
    induction xs with
    | nil => exact ⟨trivial, rfl⟩
    | cons x xs ih =>
      obtain ⟨hx, hxs⟩ := List.forall_mem_cons.mp h
      obtain ⟨hplain, hread⟩ := ih hxs
      refine ⟨⟨hx.plain, hplain⟩, ?_⟩
      rw [List.map_cons, draftItems, Decoder.readAll, hx.read, hread]
      rfl
  refine ⟨hitems.1, ?_⟩
  rw [draft, Decoder.list, hitems.2]
  rfl

end Carries

/-! ## Maps -/

def SortedKeys (kvs : List (String × τ)) : Prop := kvs.Pairwise fun a b => a.1 < b.1

theorem setKey_of_lt {key : String} {value : τ} {found : List (String × τ)}
    (h : ∀ a ∈ found, a.1 < key) : setKey key value found = found ++ [(key, value)] := by
  induction found with
  | nil => rfl
  | cons a found ih =>
    obtain ⟨ha, hfound⟩ := List.forall_mem_cons.mp h
    have hne : key ≠ a.1 := fun heq => String.lt_irrefl _ (heq ▸ ha)
    rw [setKey, if_neg (String.lt_asymm ha), if_neg hne, ih hfound]
    rfl

theorem readEntries_sorted {found kvs : List (String × τ)} (hsorted : SortedKeys (found ++ kvs))
    (h : ∀ kv ∈ kvs, Carries (toJson kv.2) read kv.2) :
    PlainMembers (kvs.map fun kv => (kv.1, toJson kv.2)) ∧
      Decoder.readEntries read found (draftMembers (kvs.map fun kv => (kv.1, toJson kv.2))) =
        .ok (found ++ kvs) := by
  induction kvs generalizing found with
  | nil => exact ⟨trivial, by rw [List.append_nil]; rfl⟩
  | cons kv kvs ih =>
    obtain ⟨hkv, hkvs⟩ := List.forall_mem_cons.mp h
    have hlast : ∀ a ∈ found, a.1 < kv.1 := fun a ha =>
      (List.pairwise_append.mp hsorted).2.2 a ha kv List.mem_cons_self
    have hsplit : found ++ kv :: kvs = (found ++ [kv]) ++ kvs := by simp
    rw [hsplit] at hsorted ⊢
    obtain ⟨hplain, hread⟩ := ih hsorted hkvs
    refine ⟨⟨hkv.plain, hplain⟩, ?_⟩
    rw [List.map_cons, draftMembers, Decoder.readEntries, hkv.read, ← hread]
    exact congrArg (Decoder.readEntries read · _) (setKey_of_lt hlast)

/-- Sorted maps are carried memberwise. -/
theorem Carries.sorted {kvs : List (String × τ)} (hsorted : SortedKeys kvs)
    (h : ∀ kv ∈ kvs, Carries (toJson kv.2) read kv.2) :
    Carries (.obj (kvs.map fun kv => (kv.1, toJson kv.2))) (Decoder.map read) kvs := by
  have hsorted : SortedKeys ([] ++ kvs) := hsorted
  obtain ⟨hplain, hread⟩ := readEntries_sorted hsorted h
  refine ⟨hplain, ?_⟩
  rw [draft, Decoder.map, hread]
  rfl

/-! ## Records -/

/-- Reading members `ms` takes the slots of a record from `s` to `t`. -/
structure Fills (field : Decoder.Field σ) (s : σ) (ms : List (String × Json)) (t : σ) : Prop where
  plain : PlainMembers ms
  read : Decoder.readFields field s (draftMembers ms) = .ok t

namespace Fills

variable {field : Decoder.Field σ} {s t u : σ} {ms ms' : List (String × Json)} {key : String}

theorem nil : Fills field s [] s := ⟨trivial, rfl⟩

theorem cons {slot : Option τ} {fill : τ → σ} (hfield : field s key = Decoder.into slot read fill)
    (hslot : slot = none) (hj : Carries j read x) (hms : Fills field (fill x) ms t) :
    Fills field s ((key, j) :: ms) t := by
  subst hslot
  refine ⟨⟨hj.plain, hms.plain⟩, ?_⟩
  rw [draftMembers, Decoder.readFields, hfield]
  simp only [Decoder.into, Option.isSome_none, Bool.false_eq_true, if_false, hj.read, Except.map]
  exact hms.read

theorem append (h : Fills field s ms t) (h' : Fills field t ms' u) :
    Fills field s (ms ++ ms') u := by
  obtain ⟨hplain, hread⟩ := h
  induction ms generalizing s with
  | nil => cases hread; exact h'
  | cons m ms ih =>
    obtain ⟨key, j⟩ := m
    obtain ⟨hj, hms⟩ := hplain
    rw [draftMembers, Decoder.readFields] at hread
    split at hread
    · next read hfield =>
      split at hread
      · cases hread
      · next t' hj' =>
        obtain ⟨hplain, hrest⟩ := ih hms hread
        refine ⟨⟨hj, hplain⟩, ?_⟩
        rw [List.cons_append, draftMembers, Decoder.readFields, hfield]
        simp only [hj', hrest]
    · next hfield =>
      split at hread
      · cases hread
      · next hskip =>
        obtain ⟨hplain, hrest⟩ := ih hms hread
        refine ⟨⟨hj, hplain⟩, ?_⟩
        rw [List.cons_append, draftMembers, Decoder.readFields, hfield]
        simp only [hskip, hrest]

theorem optional {slot : Option (Option τ)} {fill : Option τ → σ} {o : Option τ}
    (hfield : field s key = Decoder.into slot (.optional read) fill) (hslot : slot = none)
    (hnull : ∀ x, toJson x ≠ .null) (h : ∀ x ∈ o, Carries (toJson x) read x) :
    Fills field s (optionalMember key toJson o) (o.elim s fun x => fill (some x)) := by
  cases o with
  | none => exact nil
  | some x => exact cons hfield hslot ((h x rfl).some (hnull x)) nil

end Fills

/-- A record is carried if its members fill its slots. -/
theorem Carries.record {keys : List String} {field : Decoder.Field σ} {start s : σ}
    {build : σ → Except Fault τ} {ms : List (String × Json)}
    (hread : read = fun d => Decoder.fields keys field start d >>= build)
    (hfills : Fills field start ms s) (hbuild : build s = .ok x) : Carries (.obj ms) read x := by
  refine ⟨hfills.plain, ?_⟩
  subst hread
  change (Decoder.fields keys field start (.obj (draftMembers ms) none) >>= build) = _
  rw [Decoder.fields, hfills.read]
  exact hbuild

theorem Carries.listRecord {xs : List τ} (key : String)
    (h : ∀ x ∈ xs, Carries (toJson x) read x) :
    Carries (.obj [(key, .arr (xs.map toJson))]) (StackProfile.listRecord key read) xs :=
  .record rfl (.cons (if_pos (beq_self_eq_true key)) rfl (.list h) .nil) rfl

end StackProfile

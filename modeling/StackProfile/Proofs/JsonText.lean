import StackProfile.Json.Decode
import StackProfile.Json.Render

/-!
# Texts of JSON values

`Spells` is the grammar of JSON texts with optional blanks. `render` and `pretty` both spell a
value, and spelled values are read back, for integers in range.
-/

namespace StackProfile.Json

/-! ## Spellings -/

def Blank (cs : List Char) : Prop := ∀ c ∈ cs, isBlank (some c)

/-- What precedes an item or member: blanks, and a comma unless it is the first. -/
inductive Lead : Bool → List Char → Prop where
  | first {ws : List Char} : Blank ws → Lead true ws
  | next {ws ws' : List Char} : Blank ws → Blank ws' → Lead false (ws ++ ',' :: ws')

def InRange (n : Int) : Prop := -(Nat.pow 2 63 : Nat) ≤ n ∧ n < (Nat.pow 2 64 : Nat)

theorem inRange_iff {n : Int} :
    InRange n ↔ -9223372036854775808 ≤ n ∧ n < 18446744073709551616 := Iff.rfl

mutual

/-- The spellings of a value, without blanks around it. Only integers in range among the
numbers are spelled. -/
def Spells : Json → List Char → Prop
  | null, cs => cs = ['n', 'u', 'l', 'l']
  | bool true, cs => cs = ['t', 'r', 'u', 'e']
  | bool false, cs => cs = ['f', 'a', 'l', 's', 'e']
  | int n, cs => InRange n ∧ cs = (toString n).toList
  | float _, _ => False
  | str s, cs => cs = quoted s
  | arr vs, cs => ∃ ds, SpellsItems true vs ds ∧ cs = '[' :: ds
  | obj ms, cs => ∃ ds, SpellsMembers true ms ds ∧ cs = '\x7b' :: ds

def SpellsItems : Bool → List Json → List Char → Prop
  | _, [], cs => ∃ ws, Blank ws ∧ cs = ws ++ [']']
  | first, v :: vs, cs => ∃ lead ds es,
    Lead first lead ∧ Spells v ds ∧ SpellsItems false vs es ∧ cs = lead ++ ds ++ es

def SpellsMembers : Bool → List (String × Json) → List Char → Prop
  | _, [], cs => ∃ ws, Blank ws ∧ cs = ws ++ ['\x7d']
  | first, (k, v) :: ms, cs => ∃ lead gap gap' ds es,
    Lead first lead ∧ Blank gap ∧ Blank gap' ∧ Spells v ds ∧ SpellsMembers false ms es ∧
      cs = lead ++ quoted k ++ gap ++ ':' :: gap' ++ ds ++ es

end

/-! ## Strings -/

section Strings

variable {r : List Char} {c : Char} {gs : List Glyph}

theorem hexDigit?_digitChar : ∀ d < 16, hexDigit? (some (Nat.digitChar d)) = some d := by
  decide

theorem pushUnit_toNat (h : c.toNat < 32) :
    (StringSoFar.mk r none false false).pushUnit c.toNat = ⟨c :: r, none, false, false⟩ := by
  rw [StringSoFar.pushUnit, if_neg (by omega), if_neg (by omega), StringSoFar.push,
    Char.ofNat_toNat]
  rfl

theorem hexUnit?_control (h : c.toNat < 32) :
    hexUnit? (some '0') (some '0') (some (Nat.digitChar (c.toNat / 16)))
      (some (Nat.digitChar (c.toNat % 16))) = some c.toNat := by
  have hzero : hexDigit? (some '0') = some 0 := rfl
  rw [hexUnit?, hzero, hexDigit?_digitChar _ (by omega), hexDigit?_digitChar _ (by omega)]
  exact congrArg some (by omega)

theorem readString_plain (hquote : c ≠ '"') (hslash : c ≠ '\\') (h : ¬ c.toNat < 32) :
    readString ⟨r, none, false, false⟩ (some c :: gs) =
      readString ⟨c :: r, none, false, false⟩ gs := by
  rw [readString, if_neg h]
  · rfl
  all_goals simp [hquote, hslash]

theorem readString_escape :
    readString ⟨r, none, false, false⟩ ((escape c).map some ++ gs) =
      readString ⟨c :: r, none, false, false⟩ gs := by
  unfold escape
  split
  · next h => rw [beq_iff_eq.mp h]; rfl
  split
  · next h => rw [beq_iff_eq.mp h]; rfl
  split
  · next h => rw [← Char.ofNat_toNat c, h]; rfl
  split
  · next h => rw [← Char.ofNat_toNat c, h]; rfl
  split
  · next h => rw [beq_iff_eq.mp h]; rfl
  split
  · next h => rw [beq_iff_eq.mp h]; rfl
  split
  · next h => rw [beq_iff_eq.mp h]; rfl
  split
  · next h =>
    simp only [List.map_cons, List.map_nil, List.cons_append, List.nil_append]
    rw [readString, hexUnit?_control h]
    exact congrArg (readString · gs) (pushUnit_toNat h)
  · next hquote hslash _ _ _ _ _ h =>
    simp only [List.map_cons, List.map_nil, List.cons_append, List.nil_append]
    exact readString_plain (mt beq_iff_eq.mpr hquote) (mt beq_iff_eq.mpr hslash) h

/-- `readString` inverts `escape`. -/
theorem readString_quoted (cs : List Char) :
    readString ⟨r, none, false, false⟩ ((cs.flatMap escape ++ ['"']).map some ++ gs) =
      ⟨.str (String.ofList (r.reverse ++ cs)), some gs⟩ := by
  induction cs generalizing r with
  | nil => rw [List.append_nil]; rfl
  | cons c cs ih =>
    rw [List.flatMap_cons, List.append_assoc, List.map_append, List.append_assoc,
      readString_escape, ih, List.reverse_cons, List.append_assoc]
    rfl

theorem readString_text (s : String) :
    readString {} ((s.toList.flatMap escape ++ ['"']).map some ++ gs) = ⟨.str s, some gs⟩ :=
  (readString_quoted s.toList).trans
    (by rw [List.reverse_nil, List.nil_append, String.ofList_toList])

end Strings

/-! ## Integers -/

section Integers

/-- No glyph that would continue a number. -/
def Stops (gs : List Glyph) : Prop :=
  ∀ c, gs.head? = some (some c) → ¬ ('0' ≤ c ∧ c ≤ '9') ∧ c ≠ '.' ∧ c ≠ 'e' ∧ c ≠ 'E'

variable {gs : List Glyph}

def digitOf (c : Char) : Nat := c.toNat - 48

theorem spanDigits_stop (h : Stops gs) : spanDigits gs = ([], gs) := by
  rcases gs with _ | ⟨_ | c, gs⟩
  · rfl
  · rfl
  · rw [spanDigits, if_neg (h c rfl).1]

theorem spanDigits_append {cs : List Char} (hcs : ∀ c ∈ cs, c.isDigit) (h : Stops gs) :
    spanDigits (cs.map some ++ gs) = (cs.map digitOf, gs) := by
  induction cs with
  | nil => exact spanDigits_stop h
  | cons c cs ih =>
    obtain ⟨hc, hcs⟩ := List.forall_mem_cons.mp hcs
    have hdigit : '0' ≤ c ∧ c ≤ '9' := by simpa [Char.isDigit, Char.le_def] using hc
    rw [List.map_cons, List.cons_append, spanDigits, if_pos hdigit, ih hcs]
    rfl

theorem readPower_stop (h : Stops gs) : readPower gs = .ok (none, gs) := by
  rcases gs with _ | ⟨_ | c, gs⟩
  · rfl
  · rfl
  · obtain ⟨-, -, he, hE⟩ := h c rfl
    simp [readPower, he, hE]

theorem toDigits_cases (n : Nat) :
    (n < 10 ∧ Nat.toDigits 10 n = [Nat.digitChar n]) ∨ (10 ≤ n ∧
      Nat.toDigits 10 n = Nat.toDigits 10 (n / 10) ++ [Nat.digitChar (n % 10)]) := by
  rcases Nat.lt_or_ge n 10 with h | h
  · exact .inl ⟨h, Nat.toDigits_of_lt_base h⟩
  · exact .inr ⟨h, Nat.toDigits_of_base_le (by decide) h⟩

theorem digitOf_digitChar : ∀ d < 10, digitOf (Nat.digitChar d) = d := by decide

theorem toDigits_eq_cons {n : Nat} (h : 0 < n) :
    ∃ c cs, Nat.toDigits 10 n = c :: cs ∧ digitOf c ≠ 0 := by
  induction n using Nat.strongRecOn with
  | _ n ih =>
    rcases toDigits_cases n with ⟨hn, hdigits⟩ | ⟨hn, hdigits⟩
    · exact ⟨_, _, hdigits, by rw [digitOf_digitChar n hn]; omega⟩
    · obtain ⟨c, cs, hfirst, hc⟩ := ih (n / 10) (by omega) (by omega)
      exact ⟨c, _, by rw [hdigits, hfirst]; rfl, hc⟩

theorem foldl_addWhole {n : Nat} (h : n ≤ significandLimit) :
    ((Nat.toDigits 10 n).map digitOf).foldl Scaled.addWhole ⟨0, 0, false⟩ = ⟨n, 0, false⟩ := by
  induction n using Nat.strongRecOn with
  | _ n ih =>
    rcases toDigits_cases n with ⟨hn, hdigits⟩ | ⟨hn, hdigits⟩
    · rw [hdigits, List.map_singleton, List.foldl_cons, List.foldl_nil, digitOf_digitChar n hn,
        Scaled.addWhole, if_neg (by simpa using h), Nat.mul_zero, Nat.zero_add]
    · have hsum : 10 * (n / 10) + n % 10 = n := Nat.div_add_mod n 10
      rw [hdigits, List.map_append, List.foldl_append, ih (n / 10) (by omega) (by omega),
        List.map_singleton, List.foldl_cons, List.foldl_nil, digitOf_digitChar _ (by omega),
        Scaled.addWhole, hsum, if_neg (by simpa using h)]

/-- `readNumber` inverts `toDigits`. -/
theorem readNumber_toDigits (negative : Bool) (n : Nat) (h : Stops gs) :
    readNumber negative ((Nat.toDigits 10 n).map some ++ gs) =
      ⟨numberOf negative ((Nat.toDigits 10 n).map digitOf) none none, some gs⟩ := by
  have hdigits : ∀ c ∈ Nat.toDigits 10 n, c.isDigit := fun c hc =>
    Nat.isDigit_of_mem_toDigits (by decide) (by decide) hc
  have hshape : ∀ ds, (Nat.toDigits 10 n).map digitOf = 0 :: ds → ds = [] := by
    intro ds hds
    rcases Nat.eq_zero_or_pos n with rfl | hn
    · exact (List.cons.inj hds).2.symm
    · obtain ⟨c, cs, hfirst, hc⟩ := toDigits_eq_cons hn
      rw [hfirst] at hds
      exact absurd (List.cons.inj hds).1 hc
  rw [readNumber, spanDigits_append hdigits h]
  split
  · next heq =>
    have hnil : (Nat.toDigits 10 n).map digitOf = [] := congrArg Prod.fst heq
    exact absurd (List.map_eq_nil_iff.mp hnil) Nat.toDigits_ne_nil
  · next heq => exact nomatch hshape _ (congrArg Prod.fst heq)
  · next heq =>
    have hgs : gs = some '.' :: _ := congrArg Prod.snd heq
    exact absurd rfl (h '.' (by rw [hgs]; rfl)).2.1
  · next heq =>
    obtain ⟨rfl, rfl⟩ := Prod.mk.inj heq
    rw [readPower_stop h]

theorem readNumber_nat {n : Nat} (hn : n ≤ significandLimit) (h : Stops gs) :
    readNumber false ((Nat.toDigits 10 n).map some ++ gs) = ⟨.int n, some gs⟩ := by
  rw [readNumber_toDigits false n h, numberOf, foldl_addWhole hn]
  rfl

theorem readNumber_neg {n : Nat} (h0 : 0 < n) (hn : n ≤ Nat.pow 2 63) (h : Stops gs) :
    readNumber true ((Nat.toDigits 10 n).map some ++ gs) = ⟨.int (-n), some gs⟩ := by
  rw [Nat.pow_eq] at hn
  have hlimit : n ≤ significandLimit := by
    rw [significandLimit, Nat.pow_eq]
    omega
  have hsize : ¬ (n = 0 || Nat.pow 2 63 < n) := by
    rw [Nat.pow_eq]
    simp
    omega
  rw [readNumber_toDigits true n h, numberOf, foldl_addWhole hlimit]
  simp [hsize]

end Integers

/-! ## Values -/

mutual

/-- The reader's result on a complete text. -/
def draft : Json → Draft
  | null => .null
  | bool b => .bool b
  | int n => .int n
  | float x => .float x
  | str s => .str s
  | arr vs => .arr (draftItems vs) none
  | obj ms => .obj (draftMembers ms) none

def draftItems : List Json → List Draft
  | [] => []
  | v :: vs => draft v :: draftItems vs

def draftMembers : List (String × Json) → List (Option String × Draft)
  | [] => []
  | (k, v) :: ms => (some k, draft v) :: draftMembers ms

end

section Values

variable {cs ws : List Char} {gs : List Glyph} {fuel : Nat} {v : Json}

theorem dropWhile_blank (h : Blank ws) :
    (ws.map some ++ gs).dropWhile isBlank = gs.dropWhile isBlank := by
  induction ws with
  | nil => rfl
  | cons c ws ih =>
    obtain ⟨hc, hws⟩ := List.forall_mem_cons.mp h
    rw [List.map_cons, List.cons_append, List.dropWhile_cons_of_pos hc, ih hws]

theorem ne_of_isDigit {c d : Char} (hc : c.isDigit) (hd : ¬ d.isDigit) : c ≠ d :=
  fun h => hd (h ▸ hc)

theorem not_isBlank_of_isDigit {c : Char} (h : c.isDigit) : ¬ isBlank (some c) := by
  have hne : ∀ d : Char, ¬ d.isDigit → c ≠ d := fun d => ne_of_isDigit h
  simp [isBlank, hne ' ' (by decide), hne '\n' (by decide), hne '\t' (by decide),
    hne '\r' (by decide)]

theorem readValue_digit {c : Char} (h : c.isDigit) :
    readValue (fuel + 1) (some c :: gs) = readNumber false (some c :: gs) := by
  rw [readValue, List.dropWhile_cons_of_neg (not_isBlank_of_isDigit h)]
  split
  case h_1 heq => cases heq
  case h_9 heq =>
    cases heq
    rw [if_pos h]
  case h_10 heq => cases heq
  all_goals
    next heq => exact absurd (Option.some.inj (List.cons.inj heq).1) (ne_of_isDigit h (by decide))

theorem exists_toDigits (n : Nat) : ∃ c cs, Nat.toDigits 10 n = c :: cs ∧ c.isDigit := by
  obtain ⟨c, cs, hcs⟩ := List.exists_cons_of_ne_nil (@Nat.toDigits_ne_nil n 10)
  have hc : c ∈ Nat.toDigits 10 n := hcs ▸ List.mem_cons_self
  exact ⟨c, cs, hcs, Nat.isDigit_of_mem_toDigits (by decide) (by decide) hc⟩

theorem toList_ofNat (n : Nat) : (toString (Int.ofNat n)).toList = Nat.toDigits 10 n :=
  Nat.toList_repr

theorem toList_negSucc (n : Nat) :
    (toString (Int.negSucc n)).toList = '-' :: Nat.toDigits 10 (n + 1) := by
  change ("-" ++ (n + 1).repr).toList = _
  rw [String.toList_append, Nat.toList_repr]
  rfl

theorem readValue_int {n : Int} (h : InRange n) (hgs : Stops gs) :
    readValue (fuel + 1) ((toString n).toList.map some ++ gs) = ⟨.int n, some gs⟩ := by
  obtain ⟨hlow, hhigh⟩ := h
  cases n with
  | ofNat m =>
    obtain ⟨c, cs, hcs, hc⟩ := exists_toDigits m
    have hread := readNumber_nat (Nat.le_sub_one_of_lt (Int.ofNat_lt.mp hhigh)) hgs
    rw [hcs] at hread
    rw [toList_ofNat, hcs]
    exact (readValue_digit hc).trans hread
  | negSucc m =>
    rw [toList_negSucc]
    exact readNumber_neg (Nat.succ_pos m) (by omega) hgs

theorem readValue_arr : readValue (fuel + 1) (some '[' :: gs) =
    ⟨.arr (readItems fuel true gs).values (readItems fuel true gs).cut,
      (readItems fuel true gs).rest⟩ := rfl

theorem readValue_obj : readValue (fuel + 1) (some '\x7b' :: gs) =
    ⟨.obj (readMembers fuel true gs).values (readMembers fuel true gs).cut,
      (readMembers fuel true gs).rest⟩ := rfl

theorem Spells.head (h : Spells v cs) :
    ∃ c ds, cs = c :: ds ∧ ¬ isBlank (some c) ∧ c ≠ ']' := by
  cases v with
  | null => exact ⟨_, _, h, by decide, by decide⟩
  | bool b => cases b <;> exact ⟨_, _, h, by decide, by decide⟩
  | int n =>
    obtain ⟨-, rfl⟩ := h
    cases n with
    | ofNat m =>
      obtain ⟨c, ds, hcs, hc⟩ := exists_toDigits m
      exact ⟨c, ds, by rw [toList_ofNat, hcs], not_isBlank_of_isDigit hc,
        ne_of_isDigit hc (by decide)⟩
    | negSucc m => exact ⟨_, _, toList_negSucc m, by decide, by decide⟩
  | float x => exact h.elim
  | str s => exact ⟨_, _, h, by decide, by decide⟩
  | arr vs =>
    obtain ⟨ds, -, rfl⟩ := h
    exact ⟨_, _, rfl, by decide, by decide⟩
  | obj ms =>
    obtain ⟨ds, -, rfl⟩ := h
    exact ⟨_, _, rfl, by decide, by decide⟩

theorem Spells.length_pos (h : Spells v cs) : 0 < cs.length := by
  obtain ⟨c, ds, rfl, -⟩ := h.head
  exact Nat.succ_pos _

theorem length_pos_of_spellsItems {first : Bool} {vs : List Json} (h : SpellsItems first vs cs) :
    0 < cs.length := by
  cases vs with
  | nil =>
    obtain ⟨ws, -, rfl⟩ := h
    simp
  | cons v vs =>
    obtain ⟨lead, ds, es, -, hds, -, rfl⟩ := h
    have := hds.length_pos
    simp only [List.length_append]
    omega

theorem readItems_blank (first : Bool) (h : Blank ws) :
    readItems (fuel + 1) first (ws.map some ++ gs) = readItems (fuel + 1) first gs := by
  rw [readItems, readItems, dropWhile_blank h]

theorem readItems_comma : readItems (fuel + 1) false (some ',' :: gs) =
    match gs.dropWhile isBlank with
    | some ']' :: _ => .stopped .malformed
    | gs => .after (readValue fuel gs).value (readValue fuel gs).rest (readItems fuel false) := rfl

theorem readItems_lead {first : Bool} {lead : List Char} (hlead : Lead first lead)
    (hv : Spells v cs) :
    readItems (fuel + 1) first (lead.map some ++ (cs.map some ++ gs)) =
      .after (readValue fuel (cs.map some ++ gs)).value (readValue fuel (cs.map some ++ gs)).rest
        (readItems fuel false) := by
  obtain ⟨c, ds, rfl, hblank, hbracket⟩ := hv.head
  have hdrop : (((c :: ds).map some ++ gs).dropWhile isBlank) = (c :: ds).map some ++ gs :=
    List.dropWhile_cons_of_neg hblank
  cases hlead with
  | first hws =>
    rw [readItems_blank true hws, readItems, hdrop, List.map_cons, List.cons_append]
    split
    · next heq => cases heq
    · next heq => exact absurd (Option.some.inj (List.cons.inj heq).1) hbracket
    · next heq => cases heq; rfl
  | next hws hws' =>
    rw [List.map_append, List.append_assoc, readItems_blank false hws, List.map_cons,
      List.cons_append, readItems_comma, dropWhile_blank hws', hdrop, List.map_cons,
      List.cons_append]
    split
    · next heq => exact absurd (Option.some.inj (List.cons.inj heq).1) hbracket
    · rfl

theorem readMembers_blank (first : Bool) (h : Blank ws) :
    readMembers (fuel + 1) first (ws.map some ++ gs) = readMembers (fuel + 1) first gs := by
  rw [readMembers, readMembers, dropWhile_blank h]

theorem readValue_blank (h : Blank ws) :
    readValue (fuel + 1) (ws.map some ++ gs) = readValue (fuel + 1) gs := by
  rw [readValue, readValue, dropWhile_blank h]

theorem readMember_colon {k : String} {gap : List Char} (hgap : Blank gap) :
    readMember (fuel + 1) ((quoted k).map some ++ (gap.map some ++ some ':' :: gs)) =
      .after (some k, (readValue fuel gs).value) (readValue fuel gs).rest
        (readMembers fuel false) := by
  have hkey : readString {} ((k.toList.flatMap escape ++ ['"']).map some ++
      (gap.map some ++ some ':' :: gs)) = ⟨.str k, some (gap.map some ++ some ':' :: gs)⟩ :=
    readString_text k
  have hdrop : (gap.map some ++ some ':' :: gs).dropWhile isBlank = some ':' :: gs := by
    rw [dropWhile_blank hgap, List.dropWhile_cons_of_neg (by decide)]
  change readMember (fuel + 1) (some '"' :: ((k.toList.flatMap escape ++ ['"']).map some ++
    (gap.map some ++ some ':' :: gs))) = _
  rw [readMember, hkey]
  simp only [hdrop]

theorem readMembers_lead {first : Bool} {lead : List Char} (hlead : Lead first lead) {k : String} :
    readMembers (fuel + 1) first (lead.map some ++ ((quoted k).map some ++ gs)) =
      readMember fuel ((quoted k).map some ++ gs) := by
  have hdrop : ((quoted k).map some ++ gs).dropWhile isBlank = (quoted k).map some ++ gs :=
    List.dropWhile_cons_of_neg (by decide)
  cases hlead with
  | first hws =>
    rw [readMembers_blank true hws, readMembers, hdrop]
    rfl
  | next hws hws' =>
    rw [List.map_append, List.append_assoc, readMembers_blank false hws, List.map_cons,
      List.cons_append]
    exact congrArg (readMember fuel) ((dropWhile_blank hws').trans hdrop)

theorem stops_blank (hws : Blank ws) {c : Char} (hc : c = ',' ∨ c = ']' ∨ c = '\x7d') :
    Stops ((ws ++ c :: cs).map some ++ gs) := by
  cases ws with
  | nil =>
    rintro d hd
    obtain rfl : c = d := by simpa using hd
    rcases hc with rfl | rfl | rfl <;> decide
  | cons b ws =>
    rintro d hd
    obtain rfl : b = d := by simpa using hd
    have hb := hws b List.mem_cons_self
    simp only [isBlank, Bool.or_eq_true, beq_iff_eq, Option.some.injEq] at hb
    rcases hb with ((rfl | rfl) | rfl) | rfl <;> decide

theorem Lead.stops {lead : List Char} (h : Lead false lead) :
    Stops ((lead ++ cs).map some ++ gs) := by
  cases h with
  | next hws hws' =>
    rw [List.append_assoc]
    exact stops_blank hws (.inl rfl)

theorem stops_items {vs : List Json} (h : SpellsItems false vs cs) : Stops (cs.map some ++ gs) := by
  cases vs with
  | nil =>
    obtain ⟨ws, hws, rfl⟩ := h
    exact stops_blank hws (.inr (.inl rfl))
  | cons v vs =>
    obtain ⟨lead, ds, es, hlead, -, -, rfl⟩ := h
    rw [List.append_assoc]
    exact hlead.stops

theorem stops_members {ms : List (String × Json)} (h : SpellsMembers false ms cs) :
    Stops (cs.map some ++ gs) := by
  cases ms with
  | nil =>
    obtain ⟨ws, hws, rfl⟩ := h
    exact stops_blank hws (.inr (.inr rfl))
  | cons m ms =>
    obtain ⟨lead, gap, gap', ds, es, hlead, -, -, -, -, rfl⟩ := h
    simp only [List.append_assoc]
    exact hlead.stops

mutual

/-- `readValue` reads a spelled value and leaves the rest. Fuel is two rounds per character. -/
theorem readValue_of_spells : (v : Json) → ∀ {cs gs fuel}, Spells v cs → 2 * cs.length ≤ fuel →
    Stops gs → readValue fuel (cs.map some ++ gs) = ⟨draft v, some gs⟩
  | v, cs, gs, 0, h, hfuel, _ => by
    obtain ⟨c, ds, rfl, -⟩ := h.head
    simp at hfuel
  | null, _, _, _ + 1, rfl, _, _ => rfl
  | bool true, _, _, _ + 1, rfl, _, _ => rfl
  | bool false, _, _, _ + 1, rfl, _, _ => rfl
  | int n, _, gs, fuel + 1, ⟨hn, rfl⟩, _, hgs => readValue_int hn hgs
  | float _, _, _, _ + 1, h, _, _ => h.elim
  | str s, _, gs, fuel + 1, rfl, _, _ => readString_text s
  | arr vs, cs, gs, fuel + 1, h, hfuel, _ => by
    obtain ⟨ds, hds, rfl⟩ := h
    have hread : readItems fuel true (ds.map some ++ gs) = ⟨draftItems vs, none, some gs⟩ :=
      readItems_of_spells true vs hds (by simp at hfuel; omega)
    rw [List.map_cons, List.cons_append, readValue_arr, hread, draft]
  | obj ms, cs, gs, fuel + 1, h, hfuel, _ => by
    obtain ⟨ds, hds, rfl⟩ := h
    have hread : readMembers fuel true (ds.map some ++ gs) = ⟨draftMembers ms, none, some gs⟩ :=
      readMembers_of_spells true ms hds (by simp at hfuel; omega)
    rw [List.map_cons, List.cons_append, readValue_obj, hread, draft]

theorem readItems_of_spells : (first : Bool) → (vs : List Json) → ∀ {cs gs fuel},
    SpellsItems first vs cs → 2 * cs.length ≤ fuel →
      readItems fuel first (cs.map some ++ gs) = ⟨draftItems vs, none, some gs⟩
  | first, [], cs, gs, fuel, h, hfuel => by
    obtain ⟨ws, hws, rfl⟩ := h
    obtain ⟨fuel, rfl⟩ : ∃ n, fuel = n + 1 := ⟨fuel - 1, by simp at hfuel; omega⟩
    rw [List.map_append, List.append_assoc, readItems_blank first hws]
    rfl
  | first, v :: vs, cs, gs, fuel, h, hfuel => by
    obtain ⟨lead, ds, es, hlead, hds, hes, rfl⟩ := h
    simp only [List.length_append] at hfuel
    have hdspos := hds.length_pos
    have hespos := length_pos_of_spellsItems hes
    obtain ⟨fuel, rfl⟩ : ∃ n, fuel = n + 1 := ⟨fuel - 1, by omega⟩
    have hread : readValue fuel (ds.map some ++ (es.map some ++ gs)) =
        ⟨draft v, some (es.map some ++ gs)⟩ :=
      readValue_of_spells v hds (by omega) (stops_items hes)
    have hrest : readItems fuel false (es.map some ++ gs) = ⟨draftItems vs, none, some gs⟩ :=
      readItems_of_spells false vs hes (by omega)
    rw [List.map_append, List.map_append, List.append_assoc, List.append_assoc,
      readItems_lead hlead hds, hread, Listed.after, hrest, draftItems]

theorem readMembers_of_spells : (first : Bool) → (ms : List (String × Json)) → ∀ {cs gs fuel},
    SpellsMembers first ms cs → 2 * cs.length ≤ fuel →
      readMembers fuel first (cs.map some ++ gs) = ⟨draftMembers ms, none, some gs⟩
  | first, [], cs, gs, fuel, h, hfuel => by
    obtain ⟨ws, hws, rfl⟩ := h
    obtain ⟨fuel, rfl⟩ : ∃ n, fuel = n + 1 := ⟨fuel - 1, by simp at hfuel; omega⟩
    rw [List.map_append, List.append_assoc, readMembers_blank first hws]
    rfl
  | first, (k, v) :: ms, cs, gs, fuel, h, hfuel => by
    obtain ⟨lead, gap, gap', ds, es, hlead, hgap, hgap', hds, hes, rfl⟩ := h
    simp only [List.length_append, List.length_cons] at hfuel
    have hdspos := hds.length_pos
    obtain ⟨fuel, rfl⟩ : ∃ n, fuel = n + 3 := ⟨fuel - 3, by omega⟩
    have hread : readValue (fuel + 1) (ds.map some ++ (es.map some ++ gs)) =
        ⟨draft v, some (es.map some ++ gs)⟩ :=
      readValue_of_spells v hds (by omega) (stops_members hes)
    have hrest : readMembers (fuel + 1) false (es.map some ++ gs) =
        ⟨draftMembers ms, none, some gs⟩ := readMembers_of_spells false ms hes (by omega)
    simp only [List.map_append, List.map_cons, List.append_assoc, List.cons_append]
    rw [readMembers_lead hlead, readMember_colon hgap, readValue_blank hgap', hread, Listed.after,
      hrest, draftMembers]

end

theorem Decoder.ofText_of_spells {τ : Type} (read : Decoder τ) (h : Spells v cs) :
    Decoder.ofText read (String.ofList cs) = read (draft v) := by
  have hread : readValue (3 * (cs.map some).length + 3) (cs.map some) = ⟨draft v, some []⟩ := by
    have hfuel : 2 * cs.length ≤ 3 * (cs.map some).length + 3 := by rw [List.length_map]; omega
    have hstops : Stops [] := by simp [Stops]
    have hvalue := readValue_of_spells v h hfuel hstops
    rwa [List.append_nil] at hvalue
  rw [ofText, String.toList_ofList, ofGlyphs, readDocument, hread]
  cases read (draft v) <;> rfl

/-- `ofBytes` on UTF-8 is `ofText`. -/
theorem Decoder.ofBytes_toUTF8 {τ : Type} (read : Decoder τ) (text : String) :
    Decoder.ofBytes read text.toUTF8 = Decoder.ofText read text := by
  have htext : String.fromUTF8? text.toUTF8 = some text := by
    unfold String.fromUTF8? String.toUTF8
    rw [dif_pos text.isValidUTF8]
    rfl
  rw [ofBytes, ofText, glyphs, htext]

end Values

/-! ## Written texts -/

mutual

/-- Values with a spelling: all numbers are integers in range. -/
def Plain : Json → Prop
  | int n => InRange n
  | float _ => False
  | arr vs => PlainItems vs
  | obj ms => PlainMembers ms
  | null | bool _ | str _ => True

def PlainItems : List Json → Prop
  | [] => True
  | v :: vs => Plain v ∧ PlainItems vs

def PlainMembers : List (String × Json) → Prop
  | [] => True
  | (_, v) :: ms => Plain v ∧ PlainMembers ms

end

theorem blank_nil : Blank [] := nofun

theorem blank_indent (level : Nat) : Blank (indent level) := by
  refine List.forall_mem_cons.mpr ⟨rfl, fun c hc => ?_⟩
  rw [List.eq_of_mem_replicate hc]
  rfl

mutual

theorem spells_chars : (v : Json) → Plain v → Spells v (chars v)
  | null, _ | bool true, _ | bool false, _ | str _, _ => rfl
  | int _, h => ⟨h, rfl⟩
  | arr [], _ => ⟨_, ⟨[], blank_nil, rfl⟩, rfl⟩
  | arr (v :: vs), ⟨hv, hvs⟩ =>
    ⟨_, ⟨[], _, _, .first blank_nil, spells_chars v hv, spells_itemChars vs hvs, rfl⟩, rfl⟩
  | obj [], _ => ⟨_, ⟨[], blank_nil, rfl⟩, rfl⟩
  | obj ((k, v) :: ms), ⟨hv, hms⟩ =>
    ⟨_, ⟨[], [], [], _, _, .first blank_nil, blank_nil, blank_nil, spells_chars v hv,
      spells_memberChars ms hms, rfl⟩, by simp [chars]⟩

theorem spells_itemChars : (vs : List Json) → PlainItems vs → SpellsItems false vs (itemChars vs)
  | [], _ => ⟨[], blank_nil, rfl⟩
  | v :: vs, ⟨hv, hvs⟩ => ⟨[','], _, _, .next blank_nil blank_nil, spells_chars v hv,
      spells_itemChars vs hvs, rfl⟩

theorem spells_memberChars : (ms : List (String × Json)) → PlainMembers ms →
    SpellsMembers false ms (memberChars ms)
  | [], _ => ⟨[], blank_nil, rfl⟩
  | (k, v) :: ms, ⟨hv, hms⟩ => ⟨[','], [], [], _, _, .next blank_nil blank_nil, blank_nil,
      blank_nil, spells_chars v hv, spells_memberChars ms hms, by simp [memberChars]⟩

end

mutual

theorem spells_lines (level : Nat) : (v : Json) → Plain v → Spells v (lines level v)
  | null, _ | bool true, _ | bool false, _ | str _, _ => rfl
  | int _, h => ⟨h, rfl⟩
  | arr [], _ => ⟨_, ⟨[], blank_nil, rfl⟩, rfl⟩
  | arr (v :: vs), ⟨hv, hvs⟩ =>
    ⟨_, ⟨_, _, _, .first (blank_indent (level + 1)), spells_lines (level + 1) v hv,
      spells_itemLines level vs hvs, rfl⟩, by simp [lines]⟩
  | obj [], _ => ⟨_, ⟨[], blank_nil, rfl⟩, rfl⟩
  | obj ((k, v) :: ms), ⟨hv, hms⟩ =>
    ⟨_, ⟨_, [], [' '], _, _, .first (blank_indent (level + 1)), blank_nil, by simp [Blank, isBlank],
      spells_lines (level + 1) v hv, spells_memberLines level ms hms, rfl⟩, by simp [lines]⟩

theorem spells_itemLines (level : Nat) : (vs : List Json) → PlainItems vs →
    SpellsItems false vs (itemLines level vs)
  | [], _ => ⟨_, blank_indent level, rfl⟩
  | v :: vs, ⟨hv, hvs⟩ => ⟨_, _, _, .next blank_nil (blank_indent (level + 1)),
      spells_lines (level + 1) v hv, spells_itemLines level vs hvs, by simp [itemLines]⟩

theorem spells_memberLines (level : Nat) : (ms : List (String × Json)) → PlainMembers ms →
    SpellsMembers false ms (memberLines level ms)
  | [], _ => ⟨_, blank_indent level, rfl⟩
  | (k, v) :: ms, ⟨hv, hms⟩ => ⟨_, [], [' '], _, _, .next blank_nil (blank_indent (level + 1)),
      blank_nil, by simp [Blank, isBlank], spells_lines (level + 1) v hv,
      spells_memberLines level ms hms, by simp [memberLines]⟩

end

/-- `ofText` on `render` is the reader on the draft. -/
theorem Decoder.ofText_render {τ : Type} (read : Decoder τ) {v : Json} (h : Plain v) :
    Decoder.ofText read v.render = read (draft v) := ofText_of_spells read (spells_chars v h)

theorem Decoder.ofText_pretty {τ : Type} (read : Decoder τ) {v : Json} (h : Plain v) :
    Decoder.ofText read v.pretty = read (draft v) := ofText_of_spells read (spells_lines 0 v h)

end StackProfile.Json

import Mathlib.Data.List.Induction
import Mathlib.Data.List.TakeDrop
import StackProfile.Folded

/-!
# Folded lines

`Reads` is the grammar of a line: frames, with white space and a count at the end, or without for
one sample. `stackOf?` decides it, and texts are read line by line.
-/

namespace StackProfile

namespace Text

theorem splitOn_eq (sep : Char) (cs : List Char) : splitOn sep cs = cs.splitOn sep := by
  rw [List.splitOn_eq_splitOnP]
  induction cs with
  | nil => rfl
  | cons c cs ih =>
    have hne := List.splitOnP_ne_nil (fun x => x == sep) cs
    rw [List.splitOnP_cons_eq_if_modifyHead, ← ih]
    rw [← ih] at hne
    simp only [splitOn, List.foldr_cons] at hne ⊢
    split
    · rfl
    · split
      · next h => exact absurd h hne
      · next h => rw [h]; rfl

/-! ## Trimming -/

theorem trim_cons {c : Char} (hc : isSpace c) (cs : List Char) : trim (c :: cs) = trim cs := by
  rw [trim, List.dropWhile_cons_of_pos hc, ← trim]

theorem dropEndWhile_append_singleton (p : Char → Bool) (cs : List Char) (c : Char) :
    dropEndWhile p (cs ++ [c]) = if p c then dropEndWhile p cs else cs ++ [c] := by
  simp only [dropEndWhile, List.reverse_append, List.reverse_singleton, List.singleton_append,
    List.dropWhile_cons]
  split <;> simp

theorem trim_append_singleton {c : Char} (hc : isSpace c) (cs : List Char) :
    trim (cs ++ [c]) = trim cs := by
  have hlast := dropEndWhile_append_singleton isSpace (cs.dropWhile isSpace) c
  rw [if_pos hc] at hlast
  rw [trim, trim, List.dropWhile_append]
  split
  · next hall =>
    rw [List.isEmpty_iff.mp hall, List.dropWhile_cons_of_pos hc, List.dropWhile_nil]
  · exact hlast

/-! ## The last white space -/

theorem splitAtLastSpace?_eq_some {cs before last : List Char} :
    splitAtLastSpace? cs = some (before, last) ↔
      ∃ c, isSpace c ∧ (∀ d ∈ last, ¬isSpace d) ∧ cs = before ++ c :: last := by
  have hsplit := List.takeWhile_append_dropWhile (p := fun c => !isSpace c) (l := cs.reverse)
  have htake := List.all_takeWhile (p := fun c => !isSpace c) (l := cs.reverse)
  rw [splitAtLastSpace?, List.span_eq_takeWhile_dropWhile]
  constructor
  · intro h
    cases hdrop : cs.reverse.dropWhile fun c => !isSpace c with
    | nil => rw [hdrop] at h; cases h
    | cons c rest =>
      rw [hdrop] at h hsplit
      cases h
      have hc := List.head_dropWhile_not (fun c => !isSpace c) (l := cs.reverse) (by simp [hdrop])
      simp only [hdrop, List.head_cons] at hc
      refine ⟨c, by simpa using hc, fun d hd => ?_, ?_⟩
      · simpa using List.all_eq_true.mp htake d (List.mem_reverse.mp hd)
      · simpa using (congrArg List.reverse hsplit).symm
  · rintro ⟨c, hc, hlast, rfl⟩
    have hall : ∀ d ∈ last.reverse, (fun c => !isSpace c) d = true := fun d hd => by
      simpa using hlast d (List.mem_reverse.mp hd)
    simp only [List.reverse_append, List.reverse_cons, List.append_assoc, List.singleton_append]
    rw [List.takeWhile_append_of_pos hall, List.dropWhile_append_of_pos hall,
      List.takeWhile_cons_of_neg (by simp [hc]), List.dropWhile_cons_of_neg (by simp [hc])]
    simp

end Text

namespace Folded

/-! ## Frames -/

theorem framesOf_cons {c : Char} (hc : Text.isSpace c) (stack : List Char) :
    framesOf (c :: stack) = framesOf stack := by
  have hsep : ¬(c == ';') := fun h => by
    rw [beq_iff_eq.mp h] at hc
    exact absurd hc (by decide)
  unfold framesOf
  rw [Text.splitOn_eq, Text.splitOn_eq, List.splitOn_eq_splitOnP, List.splitOn_eq_splitOnP,
    List.splitOnP_cons_eq_if_modifyHead, if_neg hsep]
  cases List.splitOnP (fun x => x == ';') stack with
  | nil => rfl
  | cons piece pieces => simp [Text.trim_cons hc]

theorem splitOnP_append_singleton {p : Char → Bool} {c : Char} (hc : ¬p c) (cs : List Char) :
    ∃ pieces piece, cs.splitOnP p = pieces ++ [piece] ∧
      (cs ++ [c]).splitOnP p = pieces ++ [piece ++ [c]] := by
  induction cs with
  | nil => exact ⟨[], [], rfl, by simp [List.splitOnP_cons_eq_if_modifyHead, hc]⟩
  | cons d cs ih =>
    obtain ⟨pieces, piece, h, h'⟩ := ih
    rw [List.cons_append, List.splitOnP_cons_eq_if_modifyHead,
      List.splitOnP_cons_eq_if_modifyHead, h, h']
    split
    · exact ⟨[] :: pieces, piece, rfl, rfl⟩
    · cases pieces with
      | nil => exact ⟨[], d :: piece, rfl, rfl⟩
      | cons first pieces => exact ⟨(d :: first) :: pieces, piece, rfl, rfl⟩

theorem framesOf_append_singleton {c : Char} (hc : Text.isSpace c) (stack : List Char) :
    framesOf (stack ++ [c]) = framesOf stack := by
  have hsep : ¬(c == ';') := fun h => by
    rw [beq_iff_eq.mp h] at hc
    exact absurd hc (by decide)
  obtain ⟨pieces, piece, h, h'⟩ :=
    splitOnP_append_singleton (p := fun x => x == ';') hsep stack
  unfold framesOf
  rw [Text.splitOn_eq, Text.splitOn_eq, List.splitOn_eq_splitOnP, List.splitOn_eq_splitOnP, h, h']
  simp [Text.trim_append_singleton hc]

theorem framesOf_trim (stack : List Char) : framesOf (Text.trim stack) = framesOf stack := by
  have hstart : framesOf (stack.dropWhile Text.isSpace) = framesOf stack := by
    induction stack with
    | nil => rfl
    | cons c cs ih =>
      by_cases hc : Text.isSpace c
      · rw [List.dropWhile_cons_of_pos hc, ih, framesOf_cons hc]
      · rw [List.dropWhile_cons_of_neg hc]
  rw [← hstart, Text.trim]
  induction stack.dropWhile Text.isSpace using List.reverseRecOn with
  | nil => rfl
  | append_singleton cs c ih =>
    rw [Text.dropEndWhile_append_singleton]
    split
    · next hc => rw [ih, framesOf_append_singleton hc]
    · rfl

/-! ## Lines -/

def IsStackLine (line : List Char) : Prop :=
  Text.trim line ≠ [] ∧ (Text.trim line).head? ≠ some '#'

/-- `text` ends with white space and a token without any. -/
def EndsWith (text stack token : List Char) : Prop :=
  ∃ c, Text.isSpace c ∧ (∀ d ∈ token, ¬Text.isSpace d) ∧ text = stack ++ c :: token

/-- The stack that a line spells: frames and a count, or frames alone for one sample. -/
inductive Reads : List Char → Stack → Prop where
  | counted {text stack token : List Char} {n : Int} (ends : EndsWith text stack token)
      (number : Text.readInt? token = some n) : Reads text ⟨framesOf stack, n⟩
  | uncounted {text : List Char}
      (number : ∀ stack token, EndsWith text stack token → Text.readInt? token = none) :
      Reads text ⟨framesOf text, 1⟩

theorem reads_splitCount (text : List Char) :
    Reads text ⟨framesOf (splitCount text).1, (splitCount text).2⟩ := by
  unfold splitCount
  cases hsplit : Text.splitAtLastSpace? text with
  | none =>
    refine .uncounted fun stack token hends => ?_
    rw [Text.splitAtLastSpace?_eq_some.mpr hends] at hsplit
    cases hsplit
  | some parts =>
    obtain ⟨stack, token⟩ := parts
    cases hn : Text.readInt? token with
    | some n =>
      simp only [hn, framesOf_trim]
      exact .counted (Text.splitAtLastSpace?_eq_some.mp hsplit) hn
    | none =>
      simp only [hn]
      refine .uncounted fun stack' token' hends => ?_
      rw [Text.splitAtLastSpace?_eq_some.mpr hends] at hsplit
      cases hsplit
      exact hn

theorem Reads.unique {text : List Char} {s s' : Stack} (h : Reads text s) (h' : Reads text s') :
    s = s' := by
  cases h with
  | counted hends hn =>
    cases h' with
    | counted hends' hn' =>
      have hsplit := Text.splitAtLastSpace?_eq_some.mpr hends
      rw [Text.splitAtLastSpace?_eq_some.mpr hends'] at hsplit
      cases hsplit
      rw [hn] at hn'
      cases hn'
      rfl
    | uncounted hn' => rw [hn' _ _ hends] at hn; cases hn
  | uncounted hn =>
    cases h' with
    | counted hends' hn' => rw [hn _ _ hends'] at hn'; cases hn'
    | uncounted hn' => rfl

/-- `stackOf?` decides `Reads`. -/
theorem stackOf?_eq_some {line : List Char} {s : Stack} :
    stackOf? line = some s ↔ IsStackLine line ∧ Reads (Text.trim line) s := by
  unfold stackOf? IsStackLine
  split
  · next h => simp [h]
  · next h => simp [h]
  · next hne hcomment =>
    have hread := reads_splitCount (Text.trim line)
    constructor
    · intro h
      cases h
      exact ⟨⟨hne, fun h => hcomment _ (List.head?_eq_some_iff.mp h).choose_spec⟩, hread⟩
    · rintro ⟨-, h⟩
      rw [h.unique hread]

example : stacksOf "main; draw 3\n# note\n\nmain -2 \nmain;draw x 9223372036854775808".toList =
    [⟨[⟨"main"⟩, ⟨"draw"⟩], 3⟩, ⟨[⟨"main"⟩], -2⟩,
      ⟨[⟨"main"⟩, ⟨"draw x 9223372036854775808"⟩], 1⟩] := by decide

theorem stacksOf_append (as bs : List Char) :
    stacksOf (as ++ '\n' :: bs) = stacksOf as ++ stacksOf bs := by
  unfold stacksOf
  rw [Text.splitOn_eq, Text.splitOn_eq, Text.splitOn_eq, List.splitOn_eq_splitOnP,
    List.splitOnP_append_cons as bs (by decide), List.filterMap_append]
  rfl

end Folded

end StackProfile

import Mathlib.Data.List.Forall2
import RecordQuery.Sql.Like

/-!
# Texts that match LIKE patterns

A pattern is read from left to right as elements: a backslash lets the character after it stand for
itself, a percent sign stands for any text, an underscore for any character, and every other character
for itself. A text matches a pattern if it can be cut into pieces, one for each element, that the
elements stand for. Escaping the marks of a text in one pass each puts a single backslash before each
of them, so the pattern is read as the characters of the text, and no other text matches it.
-/

namespace RecordQuery.Sql

variable {mark c : Char} {marks cs : List Char}

section Passes

/-- A character, after a backslash if it is one of the marks. -/
def escapeIn (marks : List Char) (c : Char) : List Char :=
  if c ∈ marks then ['\\', c] else [c]

theorem escapeIn_of_mem (h : c ∈ marks) : escapeIn marks c = ['\\', c] :=
  if_pos h

theorem escapeIn_of_not_mem (h : c ∉ marks) : escapeIn marks c = [c] :=
  if_neg h

theorem toList_escapeEvery (mark : Char) (s : String) :
    (escapeEvery mark s).toList = s.toList.flatMap (escapeIn [mark]) := by
  rw [escapeEvery, String.toList_ofList]
  congr 1
  funext c
  simp only [escapeIn, List.mem_singleton]

/-- A pass for one more mark escapes it along with the marks of the passes before, if it is not the
backslash: these passes have put backslashes that are not in the text. -/
theorem flatMap_escapeIn_escapeIn (hmark : mark ∉ marks) (hbackslash : '\\' ≠ mark) (cs : List Char) :
    (cs.flatMap (escapeIn marks)).flatMap (escapeIn [mark]) =
      cs.flatMap (escapeIn (marks ++ [mark])) := by
  rw [List.flatMap_assoc]
  congr 1
  funext c
  by_cases hc : c ∈ marks
  · have hne : c ≠ mark := fun h ↦ hmark (h ▸ hc)
    rw [escapeIn_of_mem hc, escapeIn_of_mem (List.mem_append_left _ hc), List.flatMap_cons,
      List.flatMap_singleton, escapeIn_of_not_mem (mt List.mem_singleton.1 hbackslash),
      escapeIn_of_not_mem (mt List.mem_singleton.1 hne), List.singleton_append]
  · rw [escapeIn_of_not_mem hc, List.flatMap_singleton]
    simp only [escapeIn, List.mem_append, hc, false_or]

/-- The characters of a pattern that do not stand for themselves. -/
def likeMarks : List Char :=
  ['\\', '%', '_']

/-- The passes put one backslash before each mark of a text. -/
theorem toList_escapeLike (s : String) :
    (escapeLike s).toList = s.toList.flatMap (escapeIn likeMarks) := by
  calc
    _ = ((s.toList.flatMap (escapeIn ['\\'])).flatMap (escapeIn ['%'])).flatMap (escapeIn ['_']) := by
      rw [escapeLike, toList_escapeEvery, toList_escapeEvery, toList_escapeEvery]
    _ = (s.toList.flatMap (escapeIn ['\\', '%'])).flatMap (escapeIn ['_']) := by
      rw [flatMap_escapeIn_escapeIn (by decide) (by decide) s.toList, List.singleton_append]
    _ = s.toList.flatMap (escapeIn likeMarks) :=
      flatMap_escapeIn_escapeIn (by decide) (by decide) s.toList

end Passes

section Elements

/-- An element of a pattern. -/
inductive LikeElement
  | plain (c : Char)
  | escaped (c : Char)
  | anyChar
  | anyText

namespace LikeElement

/-- Whether an element is a wildcard. -/
def IsWildcard : LikeElement → Prop
  | plain _ | escaped _ => False
  | anyChar | anyText => True

/-- Whether an element stands for a text. -/
def StandsFor : LikeElement → List Char → Prop
  | plain c, text | escaped c, text => text = [c]
  | anyChar, text => text.length = 1
  | anyText, _ => True

instance : (element : LikeElement) → (text : List Char) → Decidable (element.StandsFor text)
  | plain c, text | escaped c, text => inferInstanceAs (Decidable (text = [c]))
  | anyChar, text => inferInstanceAs (Decidable (text.length = 1))
  | anyText, _ => inferInstanceAs (Decidable True)

def literal (c : Char) : LikeElement :=
  if c ∈ likeMarks then escaped c else plain c

theorem not_isWildcard_literal (c : Char) : ¬ (literal c).IsWildcard := by
  unfold literal
  split <;> exact not_false

theorem mem_likeMarks_of_literal_eq {d : Char} (h : literal c = escaped d) : d ∈ likeMarks := by
  unfold literal at h
  split at h
  next hc => exact LikeElement.escaped.inj h ▸ hc
  next => cases h

theorem standsFor_literal_iff {piece : List Char} : (literal c).StandsFor piece ↔ piece = [c] := by
  unfold literal
  split <;> exact Iff.rfl

end LikeElement

/-- The elements that a pattern is read as. A pattern that ends in a backslash with nothing to escape is
not well formed. -/
def likeElements? : List Char → Option (List LikeElement)
  | [] => some []
  | ['\\'] => none
  | '\\' :: c :: pattern => (likeElements? pattern).map (.escaped c :: ·)
  | '%' :: pattern => (likeElements? pattern).map (.anyText :: ·)
  | '_' :: pattern => (likeElements? pattern).map (.anyChar :: ·)
  | c :: pattern => (likeElements? pattern).map (.plain c :: ·)

/-- An escaped character is read as a literal one, whatever comes after it. -/
theorem likeElements?_escapeIn (c : Char) (rest : List Char) :
    likeElements? (escapeIn likeMarks c ++ rest) =
      (likeElements? rest).map (LikeElement.literal c :: ·) := by
  unfold LikeElement.literal
  split
  next hc =>
    rw [escapeIn_of_mem hc]
    rfl
  next hc =>
    rw [escapeIn_of_not_mem hc]
    simp only [likeMarks, List.mem_cons, List.not_mem_nil, or_false, not_or] at hc
    obtain ⟨hbackslash, hpercent, hunderscore⟩ := hc
    rw [List.singleton_append, likeElements?]
    · exact fun h _ ↦ hbackslash h
    · exact fun _ _ h _ ↦ hbackslash h
    · exact hpercent
    · exact hunderscore

/-- The pattern for a text is read as the characters of the text. -/
theorem likeElements?_escapeLike (s : String) :
    likeElements? (escapeLike s).toList = some (s.toList.map LikeElement.literal) := by
  rw [toList_escapeLike]
  induction s.toList with
  | nil => rfl
  | cons c cs ih =>
    rw [List.flatMap_cons, likeElements?_escapeIn, ih, Option.map_some, List.map_cons]

end Elements

section Matching

variable {element : LikeElement} {elements : List LikeElement} {text pattern s : String}

/-- Whether a text can be cut into pieces, one for each element, that the elements stand for. -/
def Matches (elements : List LikeElement) (cs : List Char) : Prop :=
  ∃ pieces, List.Forall₂ LikeElement.StandsFor elements pieces ∧ cs = pieces.flatten

theorem matches_nil_iff : Matches [] cs ↔ cs = [] := by
  simp only [Matches, List.forall₂_nil_left_iff, exists_eq_left, List.flatten_nil]

/-- A pattern matches what its first element stands for, followed by what the others match. -/
theorem matches_cons_iff : Matches (element :: elements) cs ↔
    ∃ piece rest, cs = piece ++ rest ∧ element.StandsFor piece ∧ Matches elements rest := by
  constructor
  · rintro ⟨_, hpieces, rfl⟩
    obtain ⟨piece, pieces, hpiece, hrest, rfl⟩ := List.forall₂_cons_left_iff.1 hpieces
    exact ⟨piece, pieces.flatten, List.flatten_cons, hpiece, pieces, hrest, rfl⟩
  · rintro ⟨piece, _, rfl, hpiece, pieces, hpieces, rfl⟩
    exact ⟨piece :: pieces, .cons hpiece hpieces, List.flatten_cons.symm⟩

theorem matches_cons_iff_exists_length : Matches (element :: elements) cs ↔
    ∃ n, n ≤ cs.length ∧ element.StandsFor (cs.take n) ∧ Matches elements (cs.drop n) := by
  rw [matches_cons_iff]
  constructor
  · rintro ⟨piece, rest, rfl, hpiece, hrest⟩
    refine ⟨piece.length, ?_, ?_, ?_⟩
    · simp
    · rwa [List.take_left]
    · rwa [List.drop_left]
  · rintro ⟨n, -, hpiece, hrest⟩
    exact ⟨cs.take n, cs.drop n, (List.take_append_drop n cs).symm, hpiece, hrest⟩

instance decidableMatches :
    (elements : List LikeElement) → (cs : List Char) → Decidable (Matches elements cs)
  | [], _ => decidable_of_iff _ matches_nil_iff.symm
  | _ :: elements, _ =>
    have := decidableMatches elements
    decidable_of_iff _ matches_cons_iff_exists_length.symm

/-- Characters that stand for themselves are matched by themselves only. -/
theorem matches_map_literal_iff {ds : List Char} :
    Matches (cs.map LikeElement.literal) ds ↔ ds = cs := by
  induction cs generalizing ds with
  | nil => exact matches_nil_iff
  | cons c cs ih =>
    simp only [List.map_cons, matches_cons_iff, LikeElement.standsFor_literal_iff, ih]
    constructor
    · rintro ⟨_, _, rfl, rfl, rfl⟩
      exact List.singleton_append
    · rintro rfl
      exact ⟨[c], cs, List.singleton_append.symm, rfl, rfl⟩

/-- Whether a text is like a pattern, which then is well formed. -/
def IsLike (text pattern : String) : Prop :=
  ∃ elements ∈ likeElements? pattern.toList, Matches elements text.toList

instance : Decidable (IsLike text pattern) :=
  inferInstanceAs (Decidable (∃ elements ∈ likeElements? pattern.toList, _))

/-- The pattern for a text is well formed. It has no wildcards, and backslashes before marks only, and
it is matched by the text and by no other. -/
theorem isLike_escapeLike_iff (s : String) :
    (∃ elements, likeElements? (escapeLike s).toList = some elements ∧
      (∀ element ∈ elements, ¬ element.IsWildcard) ∧
      ∀ c, LikeElement.escaped c ∈ elements → c ∈ likeMarks) ∧
    ∀ text, IsLike text (escapeLike s) ↔ text = s := by
  have helements := likeElements?_escapeLike s
  refine ⟨⟨_, helements, ?_, ?_⟩, fun text ↦ ?_⟩
  · intro element hmem
    obtain ⟨c, -, rfl⟩ := List.mem_map.1 hmem
    exact LikeElement.not_isWildcard_literal c
  · intro c hmem
    obtain ⟨_, -, h⟩ := List.mem_map.1 hmem
    exact LikeElement.mem_likeMarks_of_literal_eq h
  · simp only [IsLike, helements, Option.mem_some, exists_eq_left', matches_map_literal_iff,
      String.toList_inj]

/-- Without a backslash, the underscore stands for any character. -/
example : IsLike "test3name" "test_name" ∧ ¬ IsLike "test3name" (escapeLike "test_name") := by
  decide

end Matching

end RecordQuery.Sql

import RecordQuery.Proofs.Text.Split
import RecordQuery.Text.Blank

/-!
# Words of a text

A text consists of words with blanks around them, and with blanks between any two of them, in exactly one
way: the words are the maximal runs of characters that are not blank.
-/

namespace RecordQuery.Text

/-- Whether a text consists of the given words, which hold no blanks, with blanks around them and between
any two of them. -/
inductive Spaced : List Char → List (List Char) → Prop
  | nil {gap : List Char} (hgap : gap.all isBlank = true) : Spaced gap []
  | cons {gap word rest : List Char} {words : List (List Char)} (hgap : gap.all isBlank = true)
      (hne : word ≠ []) (hword : ∀ c ∈ word, isBlank c = false)
      (hrest : ∀ c ∈ rest.head?, isBlank c = true) (h : Spaced rest words) :
      Spaced (gap ++ (word ++ rest)) (word :: words)

variable {c : Char} {cs gap word rest : List Char} {words : List (List Char)}

/-- The pieces between blanks, without the empty ones. -/
def runs (cs : List Char) : List (List Char) :=
  (pieces isBlank cs).filter (!·.isEmpty)

theorem runs_cons_of_blank (hc : isBlank c = true) (cs : List Char) : runs (c :: cs) = runs cs := by
  rw [runs, pieces, if_pos hc]
  rfl

theorem runs_append_of_blank (hgap : gap.all isBlank = true) (cs : List Char) :
    runs (gap ++ cs) = runs cs := by
  induction gap with
  | nil => rfl
  | cons c gap ih =>
    obtain ⟨hc, hgap⟩ := Bool.and_eq_true_iff.1 hgap
    rw [List.cons_append, runs_cons_of_blank hc, ih hgap]

theorem runs_append_of_word (hne : word ≠ []) (hword : ∀ c ∈ word, isBlank c = false)
    (hrest : ∀ c ∈ rest.head?, isBlank c = true) : runs (word ++ rest) = word :: runs rest := by
  have hkept : (!word.isEmpty) = true := by simpa using hne
  cases rest with
  | nil =>
    rw [List.append_nil, runs, pieces_of_forall_not hword]
    exact List.filter_cons_of_pos hkept
  | cons c rest =>
    have hc := hrest c rfl
    rw [runs, pieces_append_cons hword hc, runs_cons_of_blank hc]
    exact List.filter_cons_of_pos hkept

theorem Spaced.runs_eq (h : Spaced cs words) : runs cs = words := by
  induction h with
  | @nil gap hgap =>
    rw [← List.append_nil gap, runs_append_of_blank hgap]
    rfl
  | cons hgap hne hword hrest _ ih =>
    rw [runs_append_of_blank hgap, runs_append_of_word hne hword hrest, ih]

theorem Spaced.of_blank (hgap : gap.all isBlank = true) (h : Spaced cs words) :
    Spaced (gap ++ cs) words := by
  cases h with
  | nil hgap' => exact .nil (by rw [List.all_append, hgap, hgap']; rfl)
  | cons hgap' hne hword hrest h =>
    rw [← List.append_assoc]
    exact .cons (by rw [List.all_append, hgap, hgap']; rfl) hne hword hrest h

theorem Spaced.of_word (hne : word ≠ []) (hword : ∀ c ∈ word, isBlank c = false)
    (hrest : ∀ c ∈ rest.head?, isBlank c = true) (h : Spaced rest words) :
    Spaced (word ++ rest) (word :: words) :=
  @Spaced.cons [] _ _ _ rfl hne hword hrest h

theorem Spaced.isBlank_or_mem (h : Spaced cs words) (hc : c ∈ cs) :
    isBlank c = true ∨ ∃ word ∈ words, c ∈ word := by
  induction h with
  | nil hgap => exact .inl (List.all_eq_true.1 hgap c hc)
  | @cons gap word rest words hgap _ _ _ _ ih =>
    rw [List.mem_append, List.mem_append] at hc
    rcases hc with hc | hc | hc
    · exact .inl (List.all_eq_true.1 hgap c hc)
    · exact .inr ⟨word, List.mem_cons_self, hc⟩
    · exact (ih hc).imp_right fun ⟨word, hword, hc⟩ ↦ ⟨word, List.mem_cons_of_mem _ hword, hc⟩

theorem Spaced.eq_nil_of_blank (h : Spaced cs words) (hblank : cs.all isBlank = true) : words = [] :=
  h.runs_eq.symm.trans (Spaced.nil hblank).runs_eq

/-- Every text consists of words and blanks. -/
theorem exists_spaced (cs : List Char) : ∃ words, Spaced cs words := by
  induction cs with
  | nil => exact ⟨[], .nil rfl⟩
  | cons c cs ih =>
    obtain ⟨words, h⟩ := ih
    cases hc : isBlank c with
    | true => exact ⟨words, @Spaced.of_blank cs [c] words (by simp [hc]) h⟩
    | false =>
      -- the character begins a word of its own or goes before the first word
      by_cases hhead : ∀ d ∈ cs.head?, isBlank d = true
      · exact ⟨[c] :: words, .of_word (List.cons_ne_nil c []) (by simp [hc]) hhead h⟩
      · cases h with
        | nil hgap =>
          refine absurd (fun d hd ↦ ?_) hhead
          exact List.all_eq_true.1 hgap d (List.mem_of_head? hd)
        | @cons gap word rest words hgap hne hword hrest h =>
          cases gap with
          | nil =>
            exact ⟨(c :: word) :: words, .of_word (List.cons_ne_nil c word)
              (List.forall_mem_cons.2 ⟨hc, hword⟩) hrest h⟩
          | cons d gap =>
            refine absurd (fun d' hd ↦ ?_) hhead
            obtain rfl := Option.some.inj hd
            exact (Bool.and_eq_true_iff.1 hgap).1

/-- The words of a text are the ones that it consists of. -/
theorem words_eq_iff {s : String} {texts : List String} :
    Text.words s = texts ↔ Spaced s.toList (texts.map String.toList) := by
  have hruns : Text.words s = (runs s.toList).map String.ofList := rfl
  rw [hruns]
  constructor
  · rintro rfl
    obtain ⟨words, h⟩ := exists_spaced s.toList
    rwa [map_toList_ofList, h.runs_eq]
  · intro h
    rw [h.runs_eq, map_ofList_toList]

end RecordQuery.Text

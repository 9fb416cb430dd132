import Mathlib.Data.List.TakeWhile
import RecordQuery.Proofs.Text.Split
import RecordQuery.Text.Lowercase

/-!
# Lower case inside a longer text

The lower-case form of a part of a text is a part of its lower-case form if that of the part does
not depend on what stands around it. Only capital sigmas look at what stands around them, past
case-ignorable characters: each of them has to find what it looks for inside the part.
-/

namespace RecordQuery.Text

variable {before after front back cs : List Char}

/-- Whether a character is passed over when a capital sigma looks for letters. -/
def isCaseIgnorable (c : Char) : Bool :=
  caseIgnorableRanges.toList.any fun range ↦ range.1 ≤ c.toNat && c.toNat ≤ range.2

/-- Whether a character is a letter that has a case. -/
def isCased (c : Char) : Bool :=
  casedRanges.toList.any fun range ↦ range.1 ≤ c.toNat && c.toNat ≤ range.2

/-- Whether all characters of a text are passed over. -/
def isTransparent (cs : List Char) : Bool :=
  cs.all isCaseIgnorable

/-- Whether the first character that is not passed over is a letter that has a case. -/
def leadsCased (cs : List Char) : Bool :=
  (cs.dropWhile isCaseIgnorable).head?.any isCased

theorem startsCased_eq (cs : List Char) : startsCased cs = leadsCased cs := by
  have hignorable : (fun c : Char ↦ inRanges caseIgnorableRanges c.toNat) = isCaseIgnorable := by
    funext c
    exact Array.any_toList.symm
  have hcased (c : Char) : inRanges casedRanges c.toNat = isCased c := Array.any_toList.symm
  simp only [startsCased, leadsCased, hignorable, hcased]
  cases cs.dropWhile isCaseIgnorable with
  | nil => rfl
  | cons c rest => rw [List.head?_cons, Option.any_some]

theorem leadsCased_of_isTransparent (h : isTransparent cs = true) : leadsCased cs = false := by
  rw [leadsCased, List.dropWhile_eq_nil_iff.2 (List.all_eq_true.1 h)]
  rfl

theorem leadsCased_append (cs back : List Char) :
    leadsCased (cs ++ back) = if isTransparent cs then leadsCased back else leadsCased cs := by
  unfold leadsCased
  rw [List.dropWhile_append]
  cases h : isTransparent cs with
  | true =>
    rw [List.dropWhile_eq_nil_iff.2 (List.all_eq_true.1 h)]
    rfl
  | false =>
    cases hdrop : cs.dropWhile isCaseIgnorable with
    | nil =>
      have hall : isTransparent cs = true := List.all_eq_true.2 (List.dropWhile_eq_nil_iff.1 hdrop)
      simp [hall] at h
    | cons c rest => rfl

/-- The form of a capital sigma between two texts, of which the first one is reversed. -/
def lowerSigma (before after : List Char) : Char :=
  if leadsCased before && !leadsCased after then 'ς' else 'σ'

/-- Whether the form of a capital sigma is decided by the texts next to it: by the letter after it,
or by a character before it and, if that is a letter, one after it. -/
def isSigmaSettled (before after : List Char) : Bool :=
  leadsCased after || (!isTransparent before && (!leadsCased before || !isTransparent after))

/-- The form of a capital sigma is decided by the texts next to it exactly if nothing that stands
around these changes it. -/
theorem isSigmaSettled_iff : isSigmaSettled before after = true ↔
    ∀ front back, lowerSigma (before ++ front) (after ++ back) = lowerSigma before after := by
  have hbefore := @leadsCased_of_isTransparent before
  have hafter := @leadsCased_of_isTransparent after
  have hletter : leadsCased ['A'] = true := by decide +kernel
  have hnil : leadsCased [] = false := rfl
  simp only [isSigmaSettled, lowerSigma, leadsCased_append]
  constructor
  · intro h front back
    cases hb : isTransparent before <;> cases ha : isTransparent after <;> simp_all
  · intro h
    have hfront := h ['A'] []
    have hback := h [] ['A']
    simp only [hletter, hnil] at hfront hback
    clear h
    cases hb : isTransparent before <;> cases ha : isTransparent after <;>
      cases hs : leadsCased before <;> simp_all

/-- The lower-case form of a text that stands between two others, of which the first one is
reversed. -/
def lowerWithin (before after : List Char) : List Char → List Char
  | [] => []
  | c :: cs =>
    (if c == 'Σ' then [lowerSigma before (cs ++ after)] else lowerChar c) ++
      lowerWithin (c :: before) after cs

/-- Lower-casing a text in parts gives the same characters if each part knows what stands on both
sides of it, which decides the form of a sigma. -/
theorem lowerFrom_append (before cs after : List Char) :
    lowerFrom before (cs ++ after) =
      lowerWithin before after cs ++ lowerFrom (cs.reverse ++ before) after := by
  induction cs generalizing before with
  | nil => rfl
  | cons c cs ih =>
    have hform : (if startsCased before && !startsCased (cs ++ after) then ['ς'] else ['σ']) =
        [lowerSigma before (cs ++ after)] := by
      rw [startsCased_eq, startsCased_eq, lowerSigma]
      split <;> rfl
    rw [List.cons_append, lowerFrom, lowerWithin, ih, hform, List.reverse_cons, List.append_assoc,
      List.append_assoc, List.singleton_append]

theorem lowercase_eq (s : String) :
    lowercase s = String.ofList (lowerWithin [] [] s.toList) := by
  have h := lowerFrom_append [] s.toList []
  rw [List.append_nil, lowerFrom, List.append_nil] at h
  rw [lowercase, h]

/-- Whether the forms of all capital sigmas in a text are decided inside it and the text before
it, which is reversed. -/
def isSettledAfter (before : List Char) : List Char → Bool
  | [] => true
  | c :: cs => (c != 'Σ' || isSigmaSettled before cs) && isSettledAfter (c :: before) cs

/-- The lower-case form of a text is decided inside it exactly if nothing that stands around it
changes it. -/
theorem isSettledAfter_iff : isSettledAfter before cs = true ↔
    ∀ front back, lowerWithin (before ++ front) back cs = lowerWithin before [] cs := by
  induction cs generalizing before with
  | nil => exact ⟨fun _ _ _ ↦ rfl, fun _ ↦ rfl⟩
  | cons c cs ih =>
    rw [isSettledAfter, Bool.and_eq_true, ih]
    simp only [lowerWithin, List.append_nil, List.cons_append]
    by_cases hc : c = 'Σ'
    · subst hc
      rw [bne_self_eq_false, Bool.false_or, isSigmaSettled_iff]
      simp only [beq_self_eq_true, if_true, List.singleton_append, List.cons.injEq, forall_and]
    · have hne : (c == 'Σ') = false := beq_false_of_ne hc
      simp only [bne, hne, Bool.not_false, Bool.true_or, true_and, Bool.false_eq_true, if_false,
        List.append_cancel_left_eq]

/-- Whether the lower-case form of a text is the same wherever the text stands. -/
def isSettled (s : String) : Bool :=
  isSettledAfter [] s.toList

/-- A text without capital sigmas is lower-cased the same way everywhere. -/
theorem isSettled_of_not_mem {s : String} (h : 'Σ' ∉ s.toList) : isSettled s = true := by
  have hafter (before cs : List Char) (h : 'Σ' ∉ cs) : isSettledAfter before cs = true := by
    induction cs generalizing before with
    | nil => rfl
    | cons c cs ih =>
      obtain ⟨hc, hcs⟩ := not_or.1 (List.mem_cons.not.1 h)
      rw [isSettledAfter, ih _ hcs, bne_iff_ne.2 (Ne.symm hc)]
      rfl
  exact hafter [] s.toList h

/-- What a text contains is contained in lower case in its lower-case form, wherever it stands. -/
theorem contains_lowercase {s part : String} (h : contains s part = true)
    (hsettled : isSettled part = true) : contains (lowercase s) (lowercase part) = true := by
  obtain ⟨front, back, hs⟩ := contains_iff.1 h
  rw [contains_iff, lowercase_eq part, lowercase, String.toList_ofList, String.toList_ofList, ← hs,
    List.append_assoc, lowerFrom_append, List.append_nil, lowerFrom_append,
    ← isSettledAfter_iff.1 hsettled front.reverse back, List.nil_append, ← List.append_assoc]
  exact List.infix_append _ _ _

end RecordQuery.Text

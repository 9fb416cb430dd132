import RecordQuery.Proofs.Filter.Lexemes

/-!
# Texts put together

The lexer looks at no more than one character after a token. Where a blank or a closing parenthesis
follows a text, every token of the text ends as it did at the end of the text: no word grows, no minus
sign becomes part of a number and no comparator takes an equals sign. So the tokens of texts that are
put together in this way are the tokens of each.
-/

namespace RecordQuery.Filter

variable {c : Char} {cs rest more : List Char} {token : Token} {ts us : List Token}

/-- A token is read as it is at the end of a text. -/
theorem Stops.readToken_append (hstop : Stops more) (hc : Text.isBlank c = false)
    (h : readToken c cs = .ok (token, rest)) : readToken c (cs ++ more) = .ok (token, rest ++ more) := by
  obtain ⟨body, rfl, hends, c', body', heq, -, hread⟩ := exists_slice hc h
  obtain ⟨rfl, rfl⟩ := List.cons.inj heq
  rw [List.append_assoc]
  exact hread _ ((token.endsBefore_append_iff hstop.separates rest).2 hends)

/-- The tokens of a text and of what follows it. -/
theorem Lexes.append (h : Lexes cs ts) (hstop : Stops more) (hmore : Lexes more us) :
    Lexes (cs ++ more) (ts ++ us) := by
  induction h with
  | @nil cs hblank =>
    have hdrop : (cs ++ more).dropWhile Text.isBlank = more.dropWhile Text.isBlank :=
      List.dropWhile_append_of_pos (List.dropWhile_eq_nil_iff.1 hblank)
    cases hmore with
    | nil hmore => exact .nil (hdrop.trans hmore)
    | cons hd hr hmore => exact .cons (hdrop.trans hd) hr hmore
  | @cons cs tail rest c token ts hd hr _ ih =>
    refine .cons ?_ (hstop.readToken_append (isBlank_of_dropWhile hd) hr) ih
    rw [List.dropWhile_append, hd]
    simp

end RecordQuery.Filter

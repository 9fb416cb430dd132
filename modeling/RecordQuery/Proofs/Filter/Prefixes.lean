import RecordQuery.Proofs.Filter.Acceptance

/-!
# Where a text goes wrong

The parser refuses a token as soon as no filter begins with the tokens up to it, and takes every other
one: whatever it has read so far, a word and closing parentheses make a filter of it. So the position of
a syntax error is that of the first token with which no filter goes on, or the end of the text if the
text could still be continued.
-/

namespace RecordQuery.Filter

variable {ts us : List Token}

/-- Whether tokens are the first ones of a text that the grammar derives. -/
def Viable (ts : List Token) : Prop :=
  ∃ (s : String) (us : List Token), Lexes s.toList (ts ++ us) ∧
    ∃ tree : ParseTree .expression, tree.tokens = ts ++ us

section Layout

theorem Token.IsRead.respell {token : Token} (h : token.IsRead) :
    token.IsWritten ∧ token.respell = [token] := by
  cases token with
  | word w => exact ⟨h, rfl⟩
  | number n => exact ⟨.inl h, respell_of_isNumeral h⟩
  | _ => exact ⟨trivial, rfl⟩

/-- Tokens that the lexer makes are those of some text. -/
theorem lexes_layout_of_isRead (h : ∀ token ∈ ts, token.IsRead) : Lexes (layout ts) ts := by
  have hlexes := lexes_layout fun token hmem ↦ (h token hmem).respell.1
  have hrespell : ts.flatMap Token.respell = ts := calc
    ts.flatMap Token.respell = ts.flatMap fun token ↦ [token] :=
      List.flatMap_congr fun token hmem ↦ (h token hmem).respell.2
    _ = ts := List.flatMap_singleton' ts
  rwa [hrespell] at hlexes

/-- Tokens of the lexer that go on to an expression are viable, the rest being written out after
them. -/
theorem viable_of_derives {expression : Expression} (h : DerivesExpression (ts ++ us) expression)
    (hread : ∀ token ∈ ts ++ us, token.IsRead) : Viable ts := by
  obtain ⟨tree, htokens, -⟩ := h.hasTree
  refine ⟨String.ofList (layout (ts ++ us)), us, ?_, tree, htokens⟩
  rw [String.toList_ofList]
  exact lexes_layout_of_isRead hread

end Layout

namespace State

variable {state : State} {outer : List (Level × Bool)} {level : Level} {token : Token} {fault : Fault}

/-- Closing the open groups completes a filter. -/
theorem Settles.exists_close (h : state.Settles outer level) :
    ∃ last expression, state.run (List.replicate outer.length .rightParen) = .ok last ∧
      last.finish = .ok expression := by
  induction outer generalizing state level with
  | nil => exact ⟨state, _, rfl, h.finish⟩
  | cons group outer ih =>
    rw [List.length_cons, List.replicate_succ, run_cons, h.step (by simp)]
    exact ih .next

/-- A term is complete or waits for one more word. -/
theorem exists_settles (state : State) :
    ∃ ts next outer level, (∀ token ∈ ts, token = .word "a") ∧ state.run ts = .ok next ∧
      next.Settles outer level := by
  obtain ⟨outer, level, expecting⟩ := state
  cases expecting with
  | term => exact ⟨[.word "a"], _, outer, _, by simp, rfl, .search⟩
  | negated => exact ⟨[.word "a"], _, outer, _, by simp, rfl, .search⟩
  | comparator => exact ⟨[], _, outer, _, by simp, rfl, .search⟩
  | argument => exact ⟨[.word "a"], _, outer, _, by simp, rfl, .next⟩
  | next => exact ⟨[], _, outer, _, by simp, rfl, .next⟩

/-- Whatever has been read can be completed to a filter. -/
theorem exists_completion (state : State) :
    ∃ us last expression, (∀ token ∈ us, token.IsRead) ∧ state.run us = .ok last ∧
      last.finish = .ok expression := by
  obtain ⟨ts, next, outer, level, hts, hrun, hsettles⟩ := state.exists_settles
  obtain ⟨last, expression, hclose, hfinish⟩ := hsettles.exists_close
  refine ⟨ts ++ List.replicate outer.length .rightParen, last, expression, ?_,
    (run_append_of_ok hrun _).trans hclose, hfinish⟩
  intro token hmem
  rcases List.mem_append.1 hmem with hmem | hmem
  · obtain rfl := hts token hmem
    exact ⟨by decide, by simp; decide, by decide, by decide⟩
  · obtain rfl := List.eq_of_mem_replicate hmem
    trivial

/-- Whatever the parser has read without a fault can be completed to a filter. -/
theorem viable_of_run (hrun : initial.run ts = .ok state) (hread : ∀ token ∈ ts, token.IsRead) :
    Viable ts := by
  obtain ⟨us, last, expression, hus, hcompletion, hfinish⟩ := state.exists_completion
  have hderives : DerivesExpression (ts ++ us) expression :=
    exists_run_iff.1 ⟨last, (run_append_of_ok hrun us).trans hcompletion, hfinish⟩
  exact viable_of_derives hderives (List.forall_mem_append.2 ⟨hread, hus⟩)

/-- No filter begins with tokens of which the parser refuses the last one. -/
theorem not_viable_of_step (hrun : initial.run ts = .ok state) (hstep : state.step token = .error fault) :
    ¬ Viable (ts ++ [token]) := by
  rintro ⟨s, us, hlexes, tree, htokens⟩
  obtain ⟨expression, hread⟩ := tree.exists_read (htokens ▸ hlexes.isRead)
  have hderives : DerivesExpression tree.tokens expression := tree.derives_of_read hread
  obtain ⟨last, hlast, -⟩ := hderives.exists_run
  rw [htokens, List.append_assoc, run_append_of_ok hrun, List.singleton_append, run_cons, hstep] at hlast
  exact nomatch hlast

end State

/-- The parser fails at a token that it refuses, or at the end. -/
theorem parseFrom_eq_error {finish position : Nat} {state : State} {lexemes : List Lexeme}
    {fault : Fault} (h : parseFrom finish state lexemes = .error (position, fault)) :
    (∃ before lexeme after next, lexemes = before ++ lexeme :: after ∧
      state.run (before.map Lexeme.token) = .ok next ∧ next.step lexeme.token = .error fault ∧
      position = lexeme.offset) ∨
    ∃ last, state.run (lexemes.map Lexeme.token) = .ok last ∧ position = finish := by
  induction lexemes generalizing state with
  | nil =>
    obtain ⟨fault', -, heq⟩ := Outcome.mapError_eq_error_iff.1 h
    exact .inr ⟨state, rfl, (Prod.mk.inj heq).1.symm⟩
  | cons lexeme lexemes ih =>
    rw [parseFrom] at h
    cases hstep : state.step lexeme.token with
    | error fault' =>
      rw [hstep] at h
      obtain ⟨rfl, rfl⟩ := Prod.mk.inj (Except.error.inj h)
      exact .inl ⟨[], lexeme, lexemes, state, rfl, rfl, hstep, rfl⟩
    | ok next =>
      rw [hstep] at h
      have hrun (us : List Token) : state.run (lexeme.token :: us) = next.run us := by
        rw [State.run_cons, hstep]
        rfl
      rcases ih h with ⟨before, refused, after, last, rfl, hlast, hrefused, hposition⟩ |
        ⟨last, hlast, hposition⟩
      · exact .inl ⟨lexeme :: before, refused, after, last, rfl, (hrun _).trans hlast, hrefused,
          hposition⟩
      · exact .inr ⟨last, (hrun _).trans hlast, hposition⟩

/-- If a text that can be lexed is not parsed, the error is at the first token such that some filter
begins with the tokens before it, but none with these and the token itself, or at the end of the text if
some filter begins with all of its tokens. -/
theorem parse_error_after_viable {s : String} {lexemes : List Lexeme} (h : lex s = .ok lexemes)
    {e : Error} (hparse : Filter.parse s = .error e) :
    ∃ position fault, e = .invalidFilter position fault ∧
      ((∃ before lexeme after, lexemes = before ++ lexeme :: after ∧
        Viable (before.map Lexeme.token) ∧
        ¬ Viable ((before ++ [lexeme]).map Lexeme.token) ∧ position = lexeme.offset ∧
        ∃ cs ds, s.toList = cs ++ lexeme.source ++ ds ∧ position = Text.byteLength cs) ∨
      (Viable (lexemes.map Lexeme.token) ∧ position = Text.byteLength s.toList)) := by
  obtain ⟨⟨position, fault⟩, hresult, rfl⟩ := Outcome.mapError_eq_error_iff.1 hparse
  refine ⟨position, fault, rfl, ?_⟩
  rw [h] at hresult
  have hread := (lexes_of_lexFrom h).isRead
  have hfrom : parseFrom (Text.byteLength s.toList) .initial lexemes = .error (position, fault) := by
    cases lexemes with
    | nil => exact nomatch hresult
    | cons lexeme lexemes => exact Outcome.map_eq_error_iff.1 hresult
  rcases parseFrom_eq_error hfrom with
    ⟨before, lexeme, after, next, rfl, hrun, hstep, rfl⟩ | ⟨last, hrun, rfl⟩
  · left
    rw [List.map_append, List.forall_mem_append] at hread
    obtain ⟨-, cs, ds, hs, hoffset, -⟩ :=
      (lexFrom_eq_ok_iff.1 h).exists_eq (List.mem_append_right before List.mem_cons_self)
    refine ⟨before, lexeme, after, rfl, State.viable_of_run hrun hread.1, ?_, rfl, cs, ds, hs,
      hoffset.trans (Nat.zero_add _)⟩
    rw [List.map_append]
    exact State.not_viable_of_step hrun hstep
  · exact .inr ⟨State.viable_of_run hrun hread, rfl⟩

/-- After `OR` no filter goes on with `AND`. -/
theorem parse_error_after_viable_or :
    Filter.parse "a OR AND" = .error (.invalidFilter 5 (.notComparable .and)) ∧
      Viable [.word "a", .or] ∧ ¬ Viable [.word "a", .or, .and] := by
  have hlex : lex "a OR AND" = .ok [⟨0, ['a'], .word "a"⟩, ⟨2, ['O', 'R'], .or⟩,
      ⟨5, ['A', 'N', 'D'], .and⟩] := by
    with_unfolding_all rfl
  have hparse : Filter.parse "a OR AND" = .error (.invalidFilter 5 (.notComparable .and)) := by
    with_unfolding_all rfl
  obtain ⟨position, fault, he, herror⟩ := parse_error_after_viable hlex hparse
  obtain ⟨rfl, rfl⟩ := Error.invalidFilter.inj he
  rcases herror with ⟨before, lexeme, after, hlexemes, hviable, hnot, hposition, -⟩ | ⟨-, hend⟩
  · -- only the last lexeme is at the position of the error
    rcases before with _ | ⟨first, _ | ⟨second, _ | ⟨third, before⟩⟩⟩
    · simp [← (List.cons.inj hlexemes).1] at hposition
    · simp [← (List.cons.inj (List.cons.inj hlexemes).2).1] at hposition
    · simp only [List.cons_append, List.nil_append, List.cons.injEq] at hlexemes
      obtain ⟨rfl, rfl, rfl, -⟩ := hlexemes
      exact ⟨hparse, hviable, hnot⟩
    · simp at hlexemes
  · exact absurd hend (by decide)

end RecordQuery.Filter

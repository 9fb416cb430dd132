import RecordQuery.Proofs.Filter.RoundTrip

/-!
# What the text of a filter tells

The text of a filter does not tell a float that is not written out from the word that it is written
as; nothing else is lost. So parsed filters have one text exactly if they become the same filter
when such floats are replaced by words, and filters in which every float is written out are the same
if their texts are.
-/

namespace RecordQuery.Filter

section Words

/-- A comparable, where a float that is not written out is replaced by a word. -/
def Comparable.written : Comparable → Comparable
  | literal (.float x) =>
    if x.IsPositional then literal (.float x) else member (Text.splitOn '.' (x.text .explicit))
  | c => c

def Restriction.written (r : Restriction) : Restriction :=
  ⟨r.subject.written, r.test?.map fun test ↦ (test.1, test.2.written)⟩

mutual

def Term.written : Term → Term
  | .restriction negated r => .restriction negated r.written
  | .group negated body => .group negated (expressionWritten body)

def factorWritten : List Term → List Term
  | [] => []
  | term :: terms => term.written :: factorWritten terms

def sequenceWritten : List (List Term) → List (List Term)
  | [] => []
  | factor :: factors => factorWritten factor :: sequenceWritten factors

def expressionWritten : List (List (List Term)) → List (List (List Term))
  | [] => []
  | sequence :: sequences => sequenceWritten sequence :: expressionWritten sequences

end

/-- A filter with the floats that are not written out replaced by the words that they are written
as. -/
def written (f : Filter) : Filter :=
  ⟨f.expression?.map expressionWritten⟩

/-- A token, where a number that is no numeral is replaced by a word. -/
def Token.written : Token → Token
  | number n => if isNumeral n.toList then number n else word n
  | token => token

/-- Whether comparables are ones that the parser makes. -/
def AllRead (rs : List Restriction) : Prop :=
  ∀ r ∈ rs, ∀ c ∈ r.comparables, c.IsRead

theorem allRead_append {rs rs' : List Restriction} (h : AllRead (rs ++ rs')) :
    AllRead rs ∧ AllRead rs' :=
  List.forall_mem_append.1 h

theorem allRead_of_parse {s : String} {f : Filter} (h : Filter.parse s = .ok f) :
    AllRead f.restrictions :=
  fun _ hr _ hc ↦ isRead_of_parse h _ (List.mem_flatMap.2 ⟨_, hr, hc⟩)

end Words

section Tokens

variable {c : Comparable}

/-- The text of a float with an exponent is no numeral. -/
theorem isNumeral_text_eq_false {x : Double} (hx : x.isNaN = false) (h : ¬ x.IsPositional) :
    isNumeral (x.text .explicit).toList = false := by
  obtain ⟨cs, htext, hword⟩ := exists_isWord_of_float hx h
  rw [htext]
  cases x.negative with
  | true => exact hword.isNumeral_minus_eq_false
  | false => exact hword.isNumeral_eq_false

theorem Token.written_of_isNumeral {n : String} (h : isNumeral n.toList = true) :
    (Token.number n).written = .number n :=
  if_pos h

theorem Comparable.written_of_isPositional (h : c.IsPositional) : c.written = c := by
  unfold written
  split
  · rename_i x
    exact if_pos (h x rfl)
  · rfl

/-- The token of a comparable, replaced, is that of the comparable with floats replaced, and is read
as that. -/
theorem Comparable.IsRead.token_written (h : c.IsRead) :
    c.written.token = c.token.written ∧ c.written.token.comparable = .ok c.written := by
  by_cases hpositional : c.IsPositional
  · obtain ⟨hcomparable, -, -⟩ := h.reread hpositional
    rw [Comparable.written_of_isPositional hpositional]
    refine ⟨?_, hcomparable⟩
    cases c with
    | member segments => rfl
    | literal l =>
      cases l with
      | text s => rfl
      | integer n => rw [token_integer, Token.written_of_isNumeral (isNumeral_toString _)]
      | float x =>
        obtain ⟨whole, fraction, hwritten⟩ := (hpositional x rfl).exists_writtenOut h
        rw [token_float, Token.written_of_isNumeral (isNumeral_of_writtenOut hwritten)]
  · obtain ⟨x, rfl, hx⟩ := exists_float_of_not_isPositional hpositional
    have hwritten : (Comparable.literal (.float x)).written =
        .member (Text.splitOn '.' (x.text .explicit)) := if_neg hx
    have hjoin : ".".intercalate (Text.splitOn '.' (x.text .explicit)) = x.text .explicit :=
      Text.intercalate_splitOn '.' _
    rw [hwritten, token_float, Token.written, if_neg (by simp [isNumeral_text_eq_false h hx]),
      Comparable.token, hjoin]
    exact ⟨rfl, rfl⟩

theorem written_negation (negated : Bool) :
    (negation negated).map Token.written = negation negated := by
  cases negated <;> rfl

theorem minus_not_mem_negation (negated : Bool) : Token.minus ∉ negation negated := by
  cases negated <;> decide

theorem Comparable.token_ne_minus (c : Comparable) : c.token ≠ .minus := by
  intro h
  have hoperand := c.isOperand_token
  rw [h] at hoperand
  exact Bool.false_ne_true hoperand

/-- Rewriting a restriction rewrites its tokens and no others. -/
theorem Restriction.tokens_written {r : Restriction} (h : AllRead [r]) :
    r.written.tokens = r.tokens.map Token.written ∧ .minus ∉ r.tokens := by
  obtain ⟨subject, test?⟩ := r
  have h := h _ List.mem_cons_self
  have hsubject := (h subject List.mem_cons_self).token_written.1
  cases test? with
  | none =>
    refine ⟨congrArg (· :: []) hsubject, ?_⟩
    simp [tokens, subject.token_ne_minus.symm]
  | some test =>
    obtain ⟨op, argument⟩ := test
    have hargument := (h argument (by simp [comparables])).token_written.1
    refine ⟨?_, ?_⟩
    · simp only [written, tokens, Option.map_some, List.map_cons, List.map_nil, hsubject, hargument]
      rfl
    · simp [tokens, subject.token_ne_minus.symm, argument.token_ne_minus.symm]

theorem factorTokens_cons {term : Term} {terms : List Term} (h : terms ≠ []) :
    factorTokens (term :: terms) = term.tokens ++ .or :: factorTokens terms := by
  rw [factorTokens]
  exact h

theorem factorWritten_ne_nil {terms : List Term} (h : terms ≠ []) : factorWritten terms ≠ [] := by
  cases terms with
  | nil => exact absurd rfl h
  | cons term terms => exact List.cons_ne_nil _ _

theorem expressionWritten_ne_nil {sequences : List (List (List Term))} (h : sequences ≠ []) :
    expressionWritten sequences ≠ [] := by
  cases sequences with
  | nil => exact absurd rfl h
  | cons sequence sequences => exact List.cons_ne_nil _ _

theorem expressionTokens_cons {sequence : List (List Term)} {sequences : List (List (List Term))}
    (h : sequences ≠ []) : expressionTokens (sequence :: sequences) =
      sequenceTokens sequence ++ .and :: expressionTokens sequences := by
  rw [expressionTokens]
  exact h

mutual

theorem Term.tokens_written (term : Term) (h : AllRead term.restrictions) :
    term.written.tokens = term.tokens.map Token.written ∧ .minus ∉ term.tokens := by
  cases term with
  | restriction negated r =>
    obtain ⟨htokens, hminus⟩ := Restriction.tokens_written h
    rw [Term.written, Term.tokens, Term.tokens, htokens, List.map_append, written_negation,
      List.mem_append, not_or]
    exact ⟨rfl, minus_not_mem_negation negated, hminus⟩
  | group negated body =>
    obtain ⟨htokens, hminus⟩ := expression_tokens_written body h
    rw [Term.written, Term.tokens, Term.tokens, htokens]
    refine ⟨?_, by simp [minus_not_mem_negation, hminus]⟩
    simp only [List.map_append, List.map_cons, List.map_nil, written_negation]
    rfl

theorem factor_tokens_written (terms : List Term) (h : AllRead (factorRestrictions terms)) :
    factorTokens (factorWritten terms) = (factorTokens terms).map Token.written ∧
      .minus ∉ factorTokens terms := by
  match terms with
  | [] => exact ⟨rfl, List.not_mem_nil⟩
  | [term] => exact term.tokens_written (allRead_append h).1
  | term :: term' :: terms =>
    obtain ⟨htokens, hminus⟩ := term.tokens_written (allRead_append h).1
    obtain ⟨hrest, hminus'⟩ := factor_tokens_written (term' :: terms) (allRead_append h).2
    rw [factorTokens_cons (List.cons_ne_nil _ _), factorWritten,
      factorTokens_cons (factorWritten_ne_nil (List.cons_ne_nil _ _)), htokens, hrest,
      List.map_append, List.map_cons]
    exact ⟨rfl, by simp [hminus, hminus']⟩

theorem sequence_tokens_written (factors : List (List Term))
    (h : AllRead (sequenceRestrictions factors)) :
    sequenceTokens (sequenceWritten factors) = (sequenceTokens factors).map Token.written ∧
      .minus ∉ sequenceTokens factors := by
  match factors with
  | [] => exact ⟨rfl, List.not_mem_nil⟩
  | factor :: factors =>
    obtain ⟨htokens, hminus⟩ := factor_tokens_written factor (allRead_append h).1
    obtain ⟨hrest, hminus'⟩ := sequence_tokens_written factors (allRead_append h).2
    rw [sequenceWritten, sequenceTokens, sequenceTokens, htokens, hrest, List.map_append,
      List.mem_append, not_or]
    exact ⟨rfl, hminus, hminus'⟩

/-- Rewriting an expression rewrites its tokens one by one, and none of them is a lone minus sign.
-/
theorem expression_tokens_written (sequences : List (List (List Term)))
    (h : AllRead (expressionRestrictions sequences)) :
    expressionTokens (expressionWritten sequences) =
        (expressionTokens sequences).map Token.written ∧
      .minus ∉ expressionTokens sequences := by
  match sequences with
  | [] => exact ⟨rfl, List.not_mem_nil⟩
  | [sequence] => exact sequence_tokens_written sequence (allRead_append h).1
  | sequence :: sequence' :: sequences =>
    obtain ⟨htokens, hminus⟩ := sequence_tokens_written sequence (allRead_append h).1
    obtain ⟨hrest, hminus'⟩ :=
      expression_tokens_written (sequence' :: sequences) (allRead_append h).2
    rw [expressionTokens_cons (List.cons_ne_nil _ _), expressionWritten,
      expressionTokens_cons (expressionWritten_ne_nil (List.cons_ne_nil _ _)), htokens, hrest,
      List.map_append, List.map_cons]
    exact ⟨rfl, by simp [hminus, hminus']⟩

end

theorem tokens_written {f : Filter} (h : AllRead f.restrictions) :
    f.written.tokens = f.tokens.map Token.written ∧ .minus ∉ f.tokens := by
  obtain ⟨expression?⟩ := f
  cases expression? with
  | none => exact ⟨rfl, List.not_mem_nil⟩
  | some expression => exact expression_tokens_written expression h

end Tokens

section Derivations

theorem DerivesRestriction.written {r : Restriction} (h : AllRead [r]) :
    DerivesRestriction r.written.tokens r.written := by
  obtain ⟨subject, test?⟩ := r
  have h := h _ List.mem_cons_self
  have hsubject := (h subject List.mem_cons_self).token_written.2
  cases test? with
  | none => exact .search hsubject
  | some test =>
    obtain ⟨op, argument⟩ := test
    exact .test hsubject (h argument (by simp [Restriction.comparables])).token_written.2

mutual

theorem DerivesTerm.written {ts : List Token} {term : Term} (h : DerivesTerm ts term)
    (hread : AllRead term.restrictions) : DerivesTerm term.written.tokens term.written := by
  cases h with
  | restriction hns h => exact .restriction (negates_negation _) (.written hread)
  | group hns h => exact .group (negates_negation _) (h.written hread)

theorem DerivesFactor.written {ts : List Token} {terms : Factor} (h : DerivesFactor ts terms)
    (hread : AllRead (factorRestrictions terms)) :
    DerivesFactor (factorTokens (factorWritten terms)) (factorWritten terms) := by
  cases h with
  | single h => exact .single (h.written (allRead_append hread).1)
  | or h hs =>
    obtain ⟨hterm, hterms⟩ := allRead_append hread
    rw [factorWritten, factorTokens_cons (factorWritten_ne_nil (by rintro rfl; cases hs))]
    exact .or (h.written hterm) (hs.written hterms)

theorem DerivesSequence.written {ts : List Token} {factors : Sequence}
    (h : DerivesSequence ts factors) (hread : AllRead (sequenceRestrictions factors)) :
    DerivesSequence (sequenceTokens (sequenceWritten factors)) (sequenceWritten factors) := by
  cases h with
  | single h =>
    rw [sequenceWritten, sequenceWritten, sequenceTokens, sequenceTokens, List.append_nil]
    exact .single (h.written (allRead_append hread).1)
  | adjacent h hs =>
    obtain ⟨hfactor, hfactors⟩ := allRead_append hread
    exact .adjacent (h.written hfactor) (hs.written hfactors)

/-- The rewritten expression is derived from its own tokens, so it is one that a filter can have. -/
theorem DerivesExpression.written {ts : List Token} {sequences : Expression}
    (h : DerivesExpression ts sequences) (hread : AllRead (expressionRestrictions sequences)) :
    DerivesExpression (expressionTokens (expressionWritten sequences))
      (expressionWritten sequences) := by
  cases h with
  | single h => exact .single (h.written (allRead_append hread).1)
  | and h hs =>
    obtain ⟨hsequence, hsequences⟩ := allRead_append hread
    rw [expressionWritten,
      expressionTokens_cons (expressionWritten_ne_nil (by rintro rfl; cases hs))]
    exact .and (h.written hsequence) (hs.written hsequences)

end

/-- Whether tokens are those of a filter; the empty filter has none. -/
def Derives (ts : List Token) (f : Filter) : Prop :=
  (ts = [] ∧ f = ⟨none⟩) ∨ ∃ expression, f = ⟨some expression⟩ ∧ DerivesExpression ts expression

/-- Tokens are those of one filter at most. -/
theorem Derives.det {ts : List Token} {f g : Filter} (hf : Derives ts f) (hg : Derives ts g) :
    f = g := by
  have htokens : (ts.map fun token ↦ (⟨0, [], token⟩ : Lexeme)).map Lexeme.token = ts := by
    rw [List.map_map]
    exact List.map_id ts
  have hparse {h : Filter} (hh : Derives ts h) :
      ofLexemes 0 (ts.map fun token ↦ ⟨0, [], token⟩) = .ok h := by
    rw [ofLexemes_eq_ok_iff, htokens, List.map_eq_nil_iff]
    exact hh
  exact Except.ok.inj ((hparse hf).symm.trans (hparse hg))

theorem derives_written {s : String} {f : Filter} (h : Filter.parse s = .ok f) :
    Derives f.written.tokens f.written := by
  have hread := allRead_of_parse h
  obtain ⟨ts, -, ⟨-, rfl⟩ | ⟨expression, rfl, hderives⟩⟩ := parse_eq_ok_iff.1 h
  · exact .inl ⟨rfl, rfl⟩
  · exact .inr ⟨_, rfl, hderives.written hread⟩

end Derivations

section Texts

/-- Rewriting a token keeps its characters: only the kind of the token changes. -/
theorem Token.chars_written (token : Token) : token.written.chars = token.chars := by
  unfold written
  split
  · split <;> rfl
  · rfl

/-- The blanks between two tokens do not depend on whether they are rewritten. -/
theorem gap_written (left right : Token) : gap left.written right.written = gap left right := by
  have hleft : left.written = .leftParen ↔ left = .leftParen := by
    unfold Token.written
    split
    · split <;> simp
    · rfl
  have hright : right.written = .rightParen ↔ right = .rightParen := by
    unfold Token.written
    split
    · split <;> simp
    · rfl
  simp only [gap, hleft, hright]

theorem layout_written (ts : List Token) : layout (ts.map Token.written) = layout ts := by
  match ts with
  | [] => rfl
  | [token] => exact token.chars_written
  | token :: next :: ts =>
    have hrest := layout_written (next :: ts)
    rw [List.map_cons] at hrest
    rw [List.map_cons, List.map_cons, layout, layout, hrest, token.chars_written, gap_written]

/-- The tokens with every minus sign before a word put into the word. -/
def rejoin : List Token → List Token
  | .minus :: .word w :: ts => .word (String.ofList ('-' :: w.toList)) :: rejoin ts
  | token :: ts => token :: rejoin ts
  | [] => []

theorem rejoin_cons {token : Token} (h : token ≠ .minus) (ts : List Token) :
    rejoin (token :: ts) = token :: rejoin ts := by
  rw [rejoin]
  rintro _ _ rfl
  exact absurd rfl h

/-- A respelled token can be told from the tokens that it has become. -/
theorem rejoin_respell {token : Token} (htoken : token.IsWritten) (hminus : token ≠ .minus)
    (ts : List Token) : rejoin (token.respell ++ ts) = token.written :: rejoin ts := by
  cases token with
  | number n =>
    rcases htoken with hnumeral | hword | ⟨cs, hcs, hword⟩
    · rw [respell_of_isNumeral hnumeral, Token.written_of_isNumeral hnumeral]
      exact rejoin_cons hminus ts
    · have hword' : Token.word n ≠ .minus := nofun
      rw [respell_of_isWord hword, Token.written, if_neg (by simp [hword.isNumeral_eq_false])]
      exact rejoin_cons hword' ts
    · rw [respell_of_minus hcs hword, Token.written,
        if_neg (by simp [hcs, hword.isNumeral_minus_eq_false])]
      simp only [List.cons_append, List.nil_append, rejoin, String.toList_ofList]
      rw [← hcs, String.ofList_toList]
  | minus => exact absurd rfl hminus
  | _ => exact rejoin_cons hminus ts

/-- Joining the minus signs undoes what respelling takes apart. -/
theorem rejoin_flatMap_respell {ts : List Token} (hts : ∀ token ∈ ts, token.IsWritten)
    (hminus : .minus ∉ ts) : rejoin (ts.flatMap Token.respell) = ts.map Token.written := by
  induction ts with
  | nil => rfl
  | cons token ts ih =>
    obtain ⟨htoken, hts⟩ := List.forall_mem_cons.1 hts
    obtain ⟨hne, hminus⟩ := not_or.1 fun h ↦ hminus (List.mem_cons.2 h)
    rw [List.flatMap_cons, rejoin_respell htoken (Ne.symm hne), ih hts hminus, List.map_cons]

variable {s s' : String} {f g : Filter}

/-- A rewritten filter has the same text, which is why page tokens cannot tell the two apart. -/
theorem text_written (h : Filter.parse s = .ok f) : f.written.text = f.text := by
  rw [text, text, (tokens_written (allRead_of_parse h)).1, layout_written]

/-- Two parsed filters have one text exactly if they are the same filter when floats that are not
written out are replaced by the words that they are written as. -/
theorem text_eq_text_iff (hf : Filter.parse s = .ok f) (hg : Filter.parse s' = .ok g) :
    f.text = g.text ↔ f.written = g.written := by
  constructor
  · intro htext
    have hlexes {s : String} {f : Filter} (hf : Filter.parse s = .ok f) :
        Lexes f.text.toList (f.tokens.flatMap Token.respell) := by
      rw [text, String.toList_ofList]
      exact lexes_layout (isWritten_tokens (isRead_of_parse hf))
    have hrejoin {s : String} {f : Filter} (hf : Filter.parse s = .ok f) :
        rejoin (f.tokens.flatMap Token.respell) = f.written.tokens := by
      obtain ⟨htokens, hminus⟩ := tokens_written (allRead_of_parse hf)
      rw [htokens, rejoin_flatMap_respell (isWritten_tokens (isRead_of_parse hf)) hminus]
    have hrespell : f.tokens.flatMap Token.respell = g.tokens.flatMap Token.respell :=
      (hlexes hf).det (htext ▸ hlexes hg)
    have htokens : f.written.tokens = g.written.tokens := by
      rw [← hrejoin hf, hrespell, hrejoin hg]
    exact (derives_written hf).det (htokens ▸ derives_written hg)
  · intro hwritten
    rw [← text_written hf, hwritten, text_written hg]

/-- Parsed filters in which every float is written out are the same if their texts are. -/
theorem eq_of_text_eq (hf : Filter.parse s = .ok f) (hg : Filter.parse s' = .ok g)
    (hfloats : ∀ x ∈ f.floats ++ g.floats, x.IsPositional) (h : f.text = g.text) : f = g := by
  obtain ⟨hf', hg'⟩ := List.forall_mem_append.1 hfloats
  have hf := parse_text_of_positional hf (forall_floats_iff.1 hf')
  have hg := parse_text_of_positional hg (forall_floats_iff.1 hg')
  rw [h, hg] at hf
  exact (Except.ok.inj hf).symm

end Texts

end RecordQuery.Filter

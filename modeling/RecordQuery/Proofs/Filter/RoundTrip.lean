import RecordQuery.Proofs.Filter.Equality
import RecordQuery.Proofs.Filter.Operands
import RecordQuery.Proofs.Filter.Parser

/-!
# Printing and parsing

The text of a parsed filter is parsed to the same filter exactly if every float in it is written out.
Then every token is read as it has been written, and the tokens derive the filter. Otherwise a
member stands in the place of a float.
-/

namespace RecordQuery.Filter

/-- A text parses to a filter exactly if its tokens derive it. -/
theorem parse_eq_ok_iff {s : String} {f : Filter} :
    Filter.parse s = .ok f ↔ ∃ ts, Lexes s.toList ts ∧
      ((ts = [] ∧ f = ⟨none⟩) ∨ ∃ expression, f = ⟨some expression⟩ ∧
        DerivesExpression ts expression) := by
  have htokens (lexemes : List Lexeme) : ofLexemes (Text.byteLength s.toList) lexemes = .ok f ↔
      (lexemes.map Lexeme.token = [] ∧ f = ⟨none⟩) ∨ ∃ expression, f = ⟨some expression⟩ ∧
        DerivesExpression (lexemes.map Lexeme.token) expression := by
    rw [ofLexemes_eq_ok_iff, List.map_eq_nil_iff]
  unfold Filter.parse lex
  rw [Outcome.mapError_eq_ok_iff, Outcome.bind_eq_ok_iff]
  constructor
  · rintro ⟨lexemes, hlexemes, hf⟩
    exact ⟨_, lexes_of_lexFrom hlexemes, (htokens lexemes).1 hf⟩
  · rintro ⟨ts, hts, hf⟩
    obtain ⟨lexemes, hlexemes, rfl⟩ := hts.exists_lexFrom 0
    exact ⟨lexemes, hlexemes, (htokens lexemes).2 hf⟩

/-- The comparables of a filter are those of the tokens it is parsed from. -/
theorem operands_of_parse {s : String} {f : Filter} (h : Filter.parse s = .ok f) :
    ∃ ts, Lexes s.toList ts ∧ operands ts = f.comparables.map .ok := by
  obtain ⟨ts, hts, ⟨rfl, rfl⟩ | ⟨expression, rfl, hderives⟩⟩ := parse_eq_ok_iff.1 h
  · exact ⟨[], hts, rfl⟩
  · exact ⟨ts, hts, hderives.operands_eq⟩

section Reprinting

/-- Whether comparables are read back from the tokens they are written as. -/
def Reread (rs : List Restriction) : Prop :=
  ∀ r ∈ rs, ∀ c ∈ r.comparables, c.token.comparable = .ok c

theorem negates_negation (negated : Bool) : Negates (negation negated) negated := by
  cases negated
  · exact .none
  · exact .not

/-- The tokens that a restriction is written as derive it. -/
theorem derives_tokens (r : Restriction) (h : Reread [r]) : DerivesRestriction r.tokens r := by
  obtain ⟨subject, test?⟩ := r
  have h := h _ List.mem_cons_self
  have hsubject := h subject List.mem_cons_self
  cases test? with
  | none => exact .search hsubject
  | some test =>
    obtain ⟨op, argument⟩ := test
    exact .test hsubject (h argument (by simp [Restriction.comparables]))

theorem reread_append {rs rs' : List Restriction} (h : Reread (rs ++ rs')) :
    Reread rs ∧ Reread rs' :=
  List.forall_mem_append.1 h

mutual

theorem DerivesTerm.reprint {ts : List Token} {term : Term} (h : DerivesTerm ts term)
    (hread : Reread term.restrictions) : DerivesTerm term.tokens term := by
  cases h with
  | restriction hns h => exact .restriction (negates_negation _) (derives_tokens _ hread)
  | group hns h => exact .group (negates_negation _) (h.reprint hread)

theorem DerivesFactor.reprint {ts : List Token} {terms : Factor} (h : DerivesFactor ts terms)
    (hread : Reread (factorRestrictions terms)) : DerivesFactor (factorTokens terms) terms := by
  cases h with
  | single h => exact .single (h.reprint (reread_append hread).1)
  | or h hs =>
    obtain ⟨hterm, hterms⟩ := reread_append hread
    have hrest := hs.reprint hterms
    rw [factorTokens]
    · exact .or (h.reprint hterm) hrest
    · rintro rfl
      cases hs

theorem DerivesSequence.reprint {ts : List Token} {factors : Sequence}
    (h : DerivesSequence ts factors) (hread : Reread (sequenceRestrictions factors)) :
    DerivesSequence (sequenceTokens factors) factors := by
  cases h with
  | single h =>
    rw [sequenceTokens, sequenceTokens, List.append_nil]
    exact .single (h.reprint (reread_append hread).1)
  | adjacent h hs =>
    obtain ⟨hfactor, hfactors⟩ := reread_append hread
    exact .adjacent (h.reprint hfactor) (hs.reprint hfactors)

/-- If the comparables of an expression are read back, so is the expression, from the tokens it is
written as. -/
theorem DerivesExpression.reprint {ts : List Token} {sequences : Expression}
    (h : DerivesExpression ts sequences) (hread : Reread (expressionRestrictions sequences)) :
    DerivesExpression (expressionTokens sequences) sequences := by
  cases h with
  | single h => exact .single (h.reprint (reread_append hread).1)
  | and h hs =>
    obtain ⟨hsequence, hsequences⟩ := reread_append hread
    have hrest := hs.reprint hsequences
    rw [expressionTokens]
    · exact .and (h.reprint hsequence) hrest
    · rintro rfl
      cases hs

end

end Reprinting

section RoundTrip

variable {s : String} {f : Filter}

def Comparable.float? : Comparable → Option Double
  | .literal (.float x) => some x
  | _ => none

def floats (f : Filter) : List Double :=
  f.comparables.filterMap Comparable.float?

theorem Comparable.float?_eq_some_iff {c : Comparable} {x : Double} :
    c.float? = some x ↔ c = .literal (.float x) := by
  unfold float?
  split <;> simp_all

theorem exists_float_of_not_isPositional {c : Comparable} (h : ¬ c.IsPositional) :
    ∃ x, c = .literal (.float x) ∧ ¬ x.IsPositional := by
  by_contra hnone
  exact h fun x hx ↦ by_contra fun hpositional ↦ hnone ⟨x, hx, hpositional⟩

/-- Of the comparables only floats can be written with an exponent. -/
theorem forall_floats_iff :
    (∀ x ∈ f.floats, x.IsPositional) ↔ ∀ c ∈ f.comparables, c.IsPositional := by
  unfold floats
  simp only [List.mem_filterMap, Comparable.float?_eq_some_iff]
  constructor
  · rintro h c hc x rfl
    exact h x ⟨_, hc, rfl⟩
  · rintro h x ⟨c, hc, rfl⟩
    exact h _ hc x rfl

/-- All comparables of a parsed filter are ones that the parser makes. -/
theorem isRead_of_parse (h : Filter.parse s = .ok f) : ∀ c ∈ f.comparables, c.IsRead := by
  obtain ⟨ts, hts, hoperands⟩ := operands_of_parse h
  intro c hc
  have hc : Except.ok c ∈ operands ts := hoperands ▸ List.mem_map_of_mem hc
  obtain ⟨token, htoken, hcomparable⟩ := List.mem_map.1 hc
  exact (hts.isRead token (List.mem_of_mem_filter htoken)).comparable hcomparable

theorem respell_of_not_isOperand {token : Token} (h : token.isOperand = false) :
    token.respell = [token] := by
  cases token <;> first | rfl | simp [Token.isOperand] at h

/-- Respelling tokens respells each operand among them for itself and makes no other token an
operand. -/
theorem operands_respell (ts : List Token) : operands (ts.flatMap Token.respell) =
    (ts.filter Token.isOperand).flatMap fun token ↦ operands token.respell := by
  induction ts with
  | nil => rfl
  | cons token ts ih =>
    rw [List.flatMap_cons, operands_append, ih, List.filter_cons]
    cases htoken : token.isOperand with
    | true => rfl
    | false =>
      rw [respell_of_not_isOperand htoken, operands_cons_of_not htoken]
      rfl

/-- The tokens of a filter from the parser have texts that the lexer takes apart again. -/
theorem isWritten_tokens (h : ∀ c ∈ f.comparables, c.IsRead) :
    ∀ token ∈ f.tokens, token.IsWritten := by
  intro token htoken
  cases hoperand : token.isOperand with
  | true =>
    have hmem : token ∈ f.tokens.filter Token.isOperand := List.mem_filter.2 ⟨htoken, hoperand⟩
    rw [filter_isOperand_tokens] at hmem
    obtain ⟨c, hc, rfl⟩ := List.mem_map.1 hmem
    by_cases hpositional : c.IsPositional
    · exact ((h c hc).reread hpositional).2.1
    · obtain ⟨x, rfl, hx⟩ := exists_float_of_not_isPositional hpositional
      exact (exists_member_of_float (h _ hc) hx).1
  | false => cases token <;> trivial

/-- A text is read as the tokens it has been made of, if all floats are written out. -/
theorem respell_tokens (h : ∀ c ∈ f.comparables, c.IsRead)
    (hpositional : ∀ c ∈ f.comparables, c.IsPositional) :
    f.tokens.flatMap Token.respell = f.tokens := by
  have hrespell : ∀ token ∈ f.tokens, token.respell = [token] := by
    intro token htoken
    cases hoperand : token.isOperand with
    | true =>
      have hmem : token ∈ f.tokens.filter Token.isOperand := List.mem_filter.2 ⟨htoken, hoperand⟩
      rw [filter_isOperand_tokens] at hmem
      obtain ⟨c, hc, rfl⟩ := List.mem_map.1 hmem
      exact ((h c hc).reread (hpositional c hc)).2.2
    | false => exact respell_of_not_isOperand hoperand
  calc
    _ = f.tokens.flatMap fun token ↦ [token] := List.flatMap_congr hrespell
    _ = f.tokens := List.flatMap_singleton' f.tokens

/-- A filter without exponents is parsed from its text as itself. -/
theorem parse_text_of_positional (h : Filter.parse s = .ok f)
    (hpositional : ∀ c ∈ f.comparables, c.IsPositional) : Filter.parse f.text = .ok f := by
  have hread := isRead_of_parse h
  have hlexes : Lexes f.text.toList f.tokens := by
    have := lexes_layout (isWritten_tokens hread)
    rwa [respell_tokens hread hpositional, ← String.toList_ofList (l := layout f.tokens)] at this
  refine parse_eq_ok_iff.2 ⟨f.tokens, hlexes, ?_⟩
  obtain ⟨ts, -, ⟨-, rfl⟩ | ⟨expression, rfl, hderives⟩⟩ := parse_eq_ok_iff.1 h
  · exact .inl ⟨rfl, rfl⟩
  · refine .inr ⟨expression, rfl, hderives.reprint ?_⟩
    intro r hr c hc
    have hc : c ∈ Filter.comparables ⟨some expression⟩ := List.mem_flatMap.2 ⟨r, hr, hc⟩
    exact ((hread c hc).reread (hpositional c hc)).1

/-- If what is read back is the same, place by place, no float had an exponent, since one with an
exponent is read back as a member. -/
theorem isPositional_of_forall₂ {ds cs : List Comparable}
    (hsame : List.Forall₂ (fun d c ↦ Comparable.same d c = true) ds cs)
    (hread : ∀ c ∈ cs, c.IsRead)
    (hoperands : (cs.flatMap fun c ↦ operands c.token.respell) = ds.map .ok) :
    ∀ c ∈ cs, c.IsPositional := by
  induction hsame with
  | nil => simp
  | @cons d c ds cs hdc _ ih =>
    obtain ⟨hc, hcs⟩ := List.forall_mem_cons.1 hread
    rw [List.flatMap_cons, List.map_cons] at hoperands
    by_cases hpositional : c.IsPositional
    · obtain ⟨hcomparable, -, hrespell⟩ := hc.reread hpositional
      rw [hrespell, operands_cons_of_comparable hcomparable] at hoperands
      exact List.forall_mem_cons.2 ⟨hpositional, ih hcs (List.cons.inj hoperands).2⟩
    · -- the left one is a member then, and the right one is a float
      obtain ⟨x, rfl, hx⟩ := exists_float_of_not_isPositional hpositional
      obtain ⟨-, segments, hmember⟩ := exists_member_of_float hc hx
      rw [hmember] at hoperands
      obtain rfl := Except.ok.inj (List.cons.inj hoperands).1
      exact absurd hdc Bool.false_ne_true

/-- Whatever the text of a filter is parsed to, a float that is not written out has become a
member there. -/
theorem isPositional_of_same (h : Filter.parse s = .ok f) {g : Filter}
    (hg : Filter.parse f.text = .ok g) (hsame : g.same f = true) :
    ∀ c ∈ f.comparables, c.IsPositional := by
  have hread := isRead_of_parse h
  obtain ⟨ts, hts, hoperands⟩ := operands_of_parse hg
  rw [Filter.text, String.toList_ofList] at hts
  rw [hts.det (lexes_layout (isWritten_tokens hread)), operands_respell, filter_isOperand_tokens,
    List.flatMap_map] at hoperands
  exact isPositional_of_forall₂ (forall₂_of_same hsame) hread hoperands

theorem same_self_of_parse (h : Filter.parse s = .ok f) : f.same f = true := by
  apply same_self
  intro r hr c hc
  have hread := isRead_of_parse h c (List.mem_flatMap.2 ⟨r, hr, hc⟩)
  apply Comparable.same_self
  rintro x rfl
  exact hread

/-- The text of a parsed filter is parsed to a filter that is the same exactly if all floats are
written out, and then to the very same filter. -/
theorem parse_text_iff (h : Filter.parse s = .ok f) :
    ((∃ g, Filter.parse f.text = .ok g ∧ g.same f = true) ↔ ∀ x ∈ f.floats, x.IsPositional) ∧
      (Filter.parse f.text = .ok f ↔ ∀ x ∈ f.floats, x.IsPositional) := by
  have hsame := same_self_of_parse h
  rw [forall_floats_iff]
  refine ⟨⟨?_, ?_⟩, ?_, ?_⟩
  · rintro ⟨g, hg, hgf⟩
    exact isPositional_of_same h hg hgf
  · intro hpositional
    exact ⟨f, parse_text_of_positional h hpositional, hsame⟩
  · intro hg
    exact isPositional_of_same h hg hsame
  · exact parse_text_of_positional h

/-- A float of ten to the seventeenth is not written out. -/
theorem parse_text_of_costs :
    (∃ f, Filter.parse "cost > 12.50" = .ok f ∧ Filter.parse f.text = .ok f) ∧
      ∃ f, Filter.parse "cost > 100000000000000000.0" = .ok f ∧ Filter.parse f.text ≠ .ok f := by
  constructor
  · have hfloats : (Filter.parse "cost > 12.50").toOption.map floats =
        some [⟨false, 4623226492472524800, by decide⟩] := by decide +kernel
    cases hf : Filter.parse "cost > 12.50" with
    | error e => simp [hf, Except.toOption] at hfloats
    | ok f =>
      rw [hf] at hfloats
      refine ⟨f, rfl, (parse_text_iff hf).2.2 ?_⟩
      rw [Option.some.inj hfloats]
      decide +kernel
  · have hfloats : (Filter.parse "cost > 100000000000000000.0").toOption.map floats =
        some [⟨false, 4861130398305394688, by decide⟩] := by decide +kernel
    cases hf : Filter.parse "cost > 100000000000000000.0" with
    | error e => simp [hf, Except.toOption] at hfloats
    | ok f =>
      rw [hf] at hfloats
      refine ⟨f, rfl, ?_⟩
      intro hparse
      have hpositional := (parse_text_iff hf).2.1 hparse
      rw [Option.some.inj hfloats] at hpositional
      exact absurd hpositional (by decide +kernel)

end RoundTrip

end RecordQuery.Filter

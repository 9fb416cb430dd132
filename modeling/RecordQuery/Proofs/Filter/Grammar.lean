import RecordQuery.Proofs.Filter.Parts

/-!
# The grammar of filters

Which tokens derive which tree, one rule of the grammar at a time:

* an expression is one or more sequences joined by `AND`,
* a sequence is one or more adjacent factors,
* a factor is one or more terms joined by `OR`,
* a term is a restriction or an expression in parentheses, after `NOT`, a minus sign or neither,
* a restriction is a comparable, or two with a comparator between them.
-/

namespace RecordQuery.Filter

/-- The tokens of a negation, or of none. -/
inductive Negates : List Token → Bool → Prop
  | none : Negates [] false
  | not : Negates [.not] true
  | minus : Negates [.minus] true

inductive DerivesRestriction : List Token → Restriction → Prop
  | search {token : Token} {c : Comparable} (h : token.comparable = .ok c) :
      DerivesRestriction [token] ⟨c, none⟩
  | test {left right : Token} {op : Operator} {c d : Comparable} (hleft : left.comparable = .ok c)
      (hright : right.comparable = .ok d) :
      DerivesRestriction [left, .comparator op, right] ⟨c, some (op, d)⟩

mutual

inductive DerivesTerm : List Token → Term → Prop
  | restriction {ns ts : List Token} {negated : Bool} {r : Restriction} (hns : Negates ns negated)
      (h : DerivesRestriction ts r) : DerivesTerm (ns ++ ts) (.restriction negated r)
  | group {ns ts : List Token} {negated : Bool} {body : Expression} (hns : Negates ns negated)
      (h : DerivesExpression ts body) :
      DerivesTerm (ns ++ .leftParen :: ts ++ [.rightParen]) (.group negated body)

/-- The tokens of terms joined by `OR`. -/
inductive DerivesFactor : List Token → Factor → Prop
  | single {ts : List Token} {term : Term} (h : DerivesTerm ts term) : DerivesFactor ts [term]
  | or {ts us : List Token} {term : Term} {terms : Factor} (h : DerivesTerm ts term)
      (hs : DerivesFactor us terms) : DerivesFactor (ts ++ .or :: us) (term :: terms)

/-- The tokens of adjacent factors. -/
inductive DerivesSequence : List Token → Sequence → Prop
  | single {ts : List Token} {factor : Factor} (h : DerivesFactor ts factor) :
      DerivesSequence ts [factor]
  | adjacent {ts us : List Token} {factor : Factor} {factors : Sequence}
      (h : DerivesFactor ts factor) (hs : DerivesSequence us factors) :
      DerivesSequence (ts ++ us) (factor :: factors)

/-- The tokens of sequences joined by `AND`. -/
inductive DerivesExpression : List Token → Expression → Prop
  | single {ts : List Token} {sequence : Sequence} (h : DerivesSequence ts sequence) :
      DerivesExpression ts [sequence]
  | and {ts us : List Token} {sequence : Sequence} {sequences : Expression}
      (h : DerivesSequence ts sequence) (hs : DerivesExpression us sequences) :
      DerivesExpression (ts ++ .and :: us) (sequence :: sequences)

end

section Append

variable {ts us : List Token}

/-- Terms joined by `OR` go on with further terms joined by `OR`. -/
theorem DerivesFactor.append {terms terms' : Factor} (h : DerivesFactor ts terms)
    (h' : DerivesFactor us terms') : DerivesFactor (ts ++ .or :: us) (terms ++ terms') := by
  induction terms generalizing ts with
  | nil => cases h
  | cons first terms ih =>
    cases h with
    | single hfirst => exact .or hfirst h'
    | @or ts' us' _ _ hfirst hterms =>
      rw [List.append_assoc, List.cons_append]
      exact .or hfirst (ih hterms)

/-- Factors side by side go on with further factors. -/
theorem DerivesSequence.append {factors factors' : Sequence} (h : DerivesSequence ts factors)
    (h' : DerivesSequence us factors') : DerivesSequence (ts ++ us) (factors ++ factors') := by
  induction factors generalizing ts with
  | nil => cases h
  | cons first factors ih =>
    cases h with
    | single hfirst => exact .adjacent hfirst h'
    | adjacent hfirst hfactors =>
      rw [List.append_assoc]
      exact .adjacent hfirst (ih hfactors)

/-- Sequences joined by `AND` go on with further sequences joined by `AND`. -/
theorem DerivesExpression.append {sequences sequences' : Expression}
    (h : DerivesExpression ts sequences) (h' : DerivesExpression us sequences') :
    DerivesExpression (ts ++ .and :: us) (sequences ++ sequences') := by
  induction sequences generalizing ts with
  | nil => cases h
  | cons first sequences ih =>
    cases h with
    | single hfirst => exact .and hfirst h'
    | and hfirst hsequences =>
      rw [List.append_assoc, List.cons_append]
      exact .and hfirst (ih hsequences)

end Append

section Operands

/-- What the comparables among tokens are read as, in order. -/
def operands (ts : List Token) : List (Except Fault Comparable) :=
  (ts.filter Token.isOperand).map Token.comparable

theorem operands_append (ts us : List Token) : operands (ts ++ us) = operands ts ++ operands us := by
  rw [operands, List.filter_append, List.map_append]
  rfl

theorem operands_cons_of_not {token : Token} (h : token.isOperand = false) (ts : List Token) :
    operands (token :: ts) = operands ts := by
  rw [operands, List.filter_cons, h, if_neg Bool.false_ne_true]
  rfl

theorem operands_cons_of_comparable {token : Token} {c : Comparable} (h : token.comparable = .ok c)
    (ts : List Token) : operands (token :: ts) = .ok c :: operands ts := by
  rw [operands, List.filter_cons, Token.isOperand_of_comparable h, if_pos rfl, List.map_cons, h]
  rfl

theorem Negates.operands_eq {ns : List Token} {negated : Bool} (h : Negates ns negated) :
    operands ns = [] := by
  cases h <;> rfl

/-- The operands among the tokens of a restriction are read as its comparables. -/
theorem DerivesRestriction.operands_eq {ts : List Token} {r : Restriction}
    (h : DerivesRestriction ts r) : operands ts = r.comparables.map .ok := by
  cases h with
  | search h => exact operands_cons_of_comparable h []
  | test hleft hright =>
    rw [operands_cons_of_comparable hleft, operands_cons_of_not rfl,
      operands_cons_of_comparable hright]
    rfl

/-- The comparables of a list of restrictions, as outcomes. -/
def readings (rs : List Restriction) : List (Except Fault Comparable) :=
  (rs.flatMap Restriction.comparables).map .ok

theorem readings_append (rs rs' : List Restriction) :
    readings (rs ++ rs') = readings rs ++ readings rs' := by
  rw [readings, List.flatMap_append, List.map_append]
  rfl

mutual

theorem DerivesTerm.operands_eq {ts : List Token} {term : Term} (h : DerivesTerm ts term) :
    operands ts = readings term.restrictions := by
  cases h with
  | @restriction _ _ _ r hns h =>
    rw [operands_append, hns.operands_eq, h.operands_eq, Term.restrictions, readings,
      List.flatMap_singleton, List.nil_append]
  | group hns h =>
    rw [operands_append, operands_append, hns.operands_eq, operands_cons_of_not rfl,
      operands_cons_of_not rfl, h.operands_eq, Term.restrictions, List.nil_append]
    exact List.append_nil _

theorem DerivesFactor.operands_eq {ts : List Token} {terms : Factor} (h : DerivesFactor ts terms) :
    operands ts = readings (factorRestrictions terms) := by
  cases h with
  | single h => rw [h.operands_eq, factorRestrictions, factorRestrictions, List.append_nil]
  | or h hs =>
    rw [operands_append, operands_cons_of_not rfl, h.operands_eq, hs.operands_eq,
      factorRestrictions, readings_append]

theorem DerivesSequence.operands_eq {ts : List Token} {factors : Sequence}
    (h : DerivesSequence ts factors) : operands ts = readings (sequenceRestrictions factors) := by
  cases h with
  | single h => rw [h.operands_eq, sequenceRestrictions, sequenceRestrictions, List.append_nil]
  | adjacent h hs =>
    rw [operands_append, h.operands_eq, hs.operands_eq, sequenceRestrictions, readings_append]

/-- The operands among the tokens of an expression are read as the comparables of its restrictions,
in order, so a derivation determines what the filter compares. -/
theorem DerivesExpression.operands_eq {ts : List Token} {sequences : Expression}
    (h : DerivesExpression ts sequences) :
    operands ts = readings (expressionRestrictions sequences) := by
  cases h with
  | single h => rw [h.operands_eq, expressionRestrictions, expressionRestrictions, List.append_nil]
  | and h hs =>
    rw [operands_append, operands_cons_of_not rfl, h.operands_eq, hs.operands_eq,
      expressionRestrictions, readings_append]

end

end Operands

end RecordQuery.Filter

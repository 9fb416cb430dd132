import RecordQuery.Filter.Parser
import RecordQuery.Filter.Printer

/-!
# Parts of a filter

The restrictions of a filter and the comparables in them, both in the order in which they are
written.
-/

namespace RecordQuery.Filter

def Restriction.comparables (r : Restriction) : List Comparable :=
  r.subject :: r.test?.toList.map Prod.snd

mutual

def Term.restrictions : Term → List Restriction
  | .restriction _ r => [r]
  | .group _ body => expressionRestrictions body

/-- The restrictions of terms joined by `OR`. -/
def factorRestrictions : List Term → List Restriction
  | [] => []
  | term :: terms => term.restrictions ++ factorRestrictions terms

/-- The restrictions of adjacent factors. -/
def sequenceRestrictions : List (List Term) → List Restriction
  | [] => []
  | factor :: factors => factorRestrictions factor ++ sequenceRestrictions factors

/-- The restrictions of sequences joined by `AND`. -/
def expressionRestrictions : List (List (List Term)) → List Restriction
  | [] => []
  | sequence :: sequences => sequenceRestrictions sequence ++ expressionRestrictions sequences

end

def restrictions (f : Filter) : List Restriction :=
  f.expression?.elim [] expressionRestrictions

def comparables (f : Filter) : List Comparable :=
  f.restrictions.flatMap Restriction.comparables

/-- Whether a token is a comparable. -/
def Token.isOperand : Token → Bool
  | word _ | text _ | number _ => true
  | _ => false

theorem Token.isOperand_of_comparable {token : Token} {c : Comparable}
    (h : token.comparable = .ok c) : token.isOperand = true := by
  cases token <;> first | rfl | simp [comparable] at h

theorem Comparable.isOperand_token (c : Comparable) : c.token.isOperand = true := by
  cases c with
  | member segments => rfl
  | literal l => cases l <;> rfl

theorem filter_isOperand_negation (negated : Bool) :
    (negation negated).filter Token.isOperand = [] := by
  cases negated <;> rfl

/-- The operands among the tokens of a restriction are those of its comparables. -/
theorem Restriction.filter_isOperand_tokens (r : Restriction) :
    r.tokens.filter Token.isOperand = r.comparables.map Comparable.token := by
  obtain ⟨subject, test?⟩ := r
  cases test? with
  | none => simp [tokens, comparables, Comparable.isOperand_token]
  | some test =>
    have hop (op : Operator) : (Token.comparator op).isOperand = false := rfl
    simp [tokens, comparables, Comparable.isOperand_token, hop]

mutual

theorem Term.filter_isOperand_tokens (term : Term) :
    term.tokens.filter Token.isOperand =
      (term.restrictions.flatMap Restriction.comparables).map Comparable.token := by
  cases term with
  | restriction negated r =>
    rw [Term.tokens, Term.restrictions, List.filter_append, filter_isOperand_negation,
      r.filter_isOperand_tokens, List.flatMap_singleton, List.nil_append]
  | group negated body =>
    have hleft : Token.isOperand .leftParen = false := rfl
    have hright : Token.isOperand .rightParen = false := rfl
    rw [Term.tokens, Term.restrictions, ← expression_filter_isOperand_tokens body]
    simp [filter_isOperand_negation, hleft, hright]

theorem factor_filter_isOperand_tokens (terms : List Term) :
    (factorTokens terms).filter Token.isOperand =
      ((factorRestrictions terms).flatMap Restriction.comparables).map Comparable.token := by
  match terms with
  | [] => rfl
  | [term] =>
    simp only [factorTokens, factorRestrictions, List.append_nil]
    exact term.filter_isOperand_tokens
  | term :: term' :: terms =>
    have hor : Token.isOperand .or = false := rfl
    rw [factorTokens, factorRestrictions, List.filter_append, List.filter_cons, hor,
      if_neg Bool.false_ne_true, factor_filter_isOperand_tokens (term' :: terms),
      term.filter_isOperand_tokens, List.flatMap_append, List.map_append]
    exact List.cons_ne_nil _ _

theorem sequence_filter_isOperand_tokens (factors : List (List Term)) :
    (sequenceTokens factors).filter Token.isOperand =
      ((sequenceRestrictions factors).flatMap Restriction.comparables).map Comparable.token := by
  match factors with
  | [] => rfl
  | factor :: factors =>
    rw [sequenceTokens, sequenceRestrictions, List.filter_append,
      factor_filter_isOperand_tokens factor, sequence_filter_isOperand_tokens factors,
      List.flatMap_append, List.map_append]

/-- The operands among the tokens of an expression are those of its comparables, in order. -/
theorem expression_filter_isOperand_tokens (sequences : List (List (List Term))) :
    (expressionTokens sequences).filter Token.isOperand =
      ((expressionRestrictions sequences).flatMap Restriction.comparables).map
        Comparable.token := by
  match sequences with
  | [] => rfl
  | [sequence] =>
    simp only [expressionTokens, expressionRestrictions, List.append_nil]
    exact sequence_filter_isOperand_tokens sequence
  | sequence :: sequence' :: sequences =>
    have hand : Token.isOperand .and = false := rfl
    rw [expressionTokens, expressionRestrictions, List.filter_append, List.filter_cons, hand,
      if_neg Bool.false_ne_true, expression_filter_isOperand_tokens (sequence' :: sequences),
      sequence_filter_isOperand_tokens sequence, List.flatMap_append, List.map_append]
    exact List.cons_ne_nil _ _

end

/-- The comparables of a filter are written in order, and nothing else that could be one. -/
theorem filter_isOperand_tokens (f : Filter) :
    f.tokens.filter Token.isOperand = f.comparables.map Comparable.token := by
  unfold tokens comparables restrictions
  cases f.expression? with
  | none => rfl
  | some expression => exact expression_filter_isOperand_tokens expression

end RecordQuery.Filter

import RecordQuery.Filter.Compare
import RecordQuery.Filter.Search
import RecordQuery.Filter.Syntax
import RecordQuery.Resolve

/-!
# Meaning of filters

A filter is evaluated on a record in two ways. `Filter.evaluate` evaluates every restriction and
gives the first error; `Filter.holds` counts a restriction that cannot be evaluated as one that does
not hold, so it always has an answer.
-/

namespace RecordQuery.Filter

variable {ι : Type} [DecidableEq ι] (R : Registry ι) (t : ι) (values : List (Value ι))

def Literal.value : Literal → Value ι
  | text s => .string s
  | integer n => .number (.signed n)
  | float x => .number (.float x)

/-- The value of one side of a comparison. -/
def Comparable.resolve : Comparable → Except Error (Value ι)
  | member segments => R.memberValue t values segments
  | literal l => .ok l.value

def Restriction.evaluate (r : Restriction) : Except Error Bool :=
  match r.test? with
  | none => .ok (R.search t values (Text.lowercase r.subject.searchedText))
  | some (op, argument) =>
    match r.subject.resolve R t values with
    | .error e => .error e
    | .ok lhs =>
      match argument.resolve R t values with
      | .error e => .error e
      | .ok rhs => R.compare op lhs rhs

/-- The outcome of two parts of which both are evaluated, the first one first. -/
def combine (join : Bool → Bool → Bool) : Except Error Bool → Except Error Bool → Except Error Bool
  | .error e, _ => .error e
  | .ok _, .error e => .error e
  | .ok a, .ok b => .ok (join a b)

mutual

def Term.evaluate : Term → Except Error Bool
  | .restriction negated r => (r.evaluate R t values).map (· != negated)
  | .group negated body => (evaluateExpression body).map (· != negated)

/-- Evaluates terms of which one has to hold. -/
def evaluateFactor : List Term → Except Error Bool
  | [] => .ok false
  | term :: terms => combine or term.evaluate (evaluateFactor terms)

/-- Evaluates factors that all have to hold. -/
def evaluateSequence : List (List Term) → Except Error Bool
  | [] => .ok true
  | factor :: factors => combine and (evaluateFactor factor) (evaluateSequence factors)

/-- Evaluates sequences that all have to hold. -/
def evaluateExpression : List (List (List Term)) → Except Error Bool
  | [] => .ok true
  | sequence :: sequences => combine and (evaluateSequence sequence) (evaluateExpression sequences)

end

mutual

def Term.holds : Term → Bool
  | .restriction negated r => Registry.isTrue (r.evaluate R t values) != negated
  | .group negated body => expressionHolds body != negated

/-- Whether one of the terms holds. -/
def factorHolds : List Term → Bool
  | [] => false
  | term :: terms => term.holds || factorHolds terms

/-- Whether all factors hold. -/
def sequenceHolds : List (List Term) → Bool
  | [] => true
  | factor :: factors => factorHolds factor && sequenceHolds factors

/-- Whether all sequences hold. -/
def expressionHolds : List (List (List Term)) → Bool
  | [] => true
  | sequence :: sequences => sequenceHolds sequence && expressionHolds sequences

end

/-- Evaluates a filter; the empty filter holds. -/
def evaluate (f : Filter) : Except Error Bool :=
  match f.expression? with
  | none => .ok true
  | some expression => evaluateExpression R t values expression

def holds (f : Filter) : Bool :=
  match f.expression? with
  | none => true
  | some expression => expressionHolds R t values expression

end RecordQuery.Filter

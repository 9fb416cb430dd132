import Mathlib.Data.List.Forall2
import RecordQuery.Proofs.Filter.Parts

/-!
# Equality of filters

Two filters are the same if they have the same shape and the same comparables at every place, where
floats are compared as numbers: the two zeros are the same, and a value that is not a number is not
even the same as itself.
-/

namespace RecordQuery.Filter

def Literal.same : Literal → Literal → Bool
  | text s, text t => s == t
  | integer m, integer n => m == n
  | float x, float y => x.compare? y == some .eq
  | _, _ => false

/-- Whether two comparables name the same member or are the same literal. -/
def Comparable.same : Comparable → Comparable → Bool
  | member segments, member segments' => segments == segments'
  | literal l, literal l' => l.same l'
  | _, _ => false

def Restriction.same (r r' : Restriction) : Bool :=
  r.subject.same r'.subject &&
    match r.test?, r'.test? with
    | none, none => true
    | some (op, argument), some (op', argument') => op == op' && argument.same argument'
    | _, _ => false

mutual

def Term.same : Term → Term → Bool
  | .restriction negated r, .restriction negated' r' => negated == negated' && r.same r'
  | .group negated body, .group negated' body' => negated == negated' && expressionSame body body'
  | _, _ => false
termination_by structural t => t

def factorSame : List Term → List Term → Bool
  | [], [] => true
  | term :: terms, term' :: terms' => term.same term' && factorSame terms terms'
  | _, _ => false
termination_by structural t => t

def sequenceSame : List (List Term) → List (List Term) → Bool
  | [], [] => true
  | factor :: factors, factor' :: factors' => factorSame factor factor' && sequenceSame factors factors'
  | _, _ => false
termination_by structural t => t

def expressionSame : List (List (List Term)) → List (List (List Term)) → Bool
  | [], [] => true
  | sequence :: sequences, sequence' :: sequences' =>
    sequenceSame sequence sequence' && expressionSame sequences sequences'
  | _, _ => false
termination_by structural t => t

end

def same (f g : Filter) : Bool :=
  match f.expression?, g.expression? with
  | none, none => true
  | some expression, some expression' => expressionSame expression expression'
  | _, _ => false

/-- Whether the comparables of two lists of restrictions are the same, place by place. -/
def Alike (rs rs' : List Restriction) : Prop :=
  List.Forall₂ (fun c c' ↦ Comparable.same c c' = true) (rs.flatMap Restriction.comparables)
    (rs'.flatMap Restriction.comparables)

theorem Alike.append {rs₁ rs₂ rs₁' rs₂' : List Restriction} (h₁ : Alike rs₁ rs₁')
    (h₂ : Alike rs₂ rs₂') : Alike (rs₁ ++ rs₂) (rs₁' ++ rs₂') := by
  unfold Alike at *
  rw [List.flatMap_append, List.flatMap_append]
  exact List.rel_append h₁ h₂

/-- Restrictions that are the same have comparables that are the same, place by place. -/
theorem Restriction.alike_of_same {r r' : Restriction} (h : r.same r' = true) :
    Alike [r] [r'] := by
  obtain ⟨subject, test?⟩ := r
  obtain ⟨subject', test?'⟩ := r'
  obtain ⟨hsubject, htest⟩ := Bool.and_eq_true_iff.1 h
  cases test? with
  | none =>
    cases test?' with
    | none => exact .cons hsubject .nil
    | some test' => simp at htest
  | some test =>
    cases test?' with
    | none => simp at htest
    | some test' => exact .cons hsubject (.cons (Bool.and_eq_true_iff.1 htest).2 .nil)

mutual

theorem Term.alike_of_same {term term' : Term} (h : term.same term' = true) :
    Alike term.restrictions term'.restrictions := by
  match term, term' with
  | .restriction negated r, .restriction negated' r' =>
    exact Restriction.alike_of_same (Bool.and_eq_true_iff.1 h).2
  | .group negated body, .group negated' body' =>
    exact expression_alike_of_same (Bool.and_eq_true_iff.1 h).2
  | .restriction _ _, .group _ _ => exact absurd h (by simp [Term.same])
  | .group _ _, .restriction _ _ => exact absurd h (by simp [Term.same])

theorem factor_alike_of_same {terms terms' : List Term} (h : factorSame terms terms' = true) :
    Alike (factorRestrictions terms) (factorRestrictions terms') := by
  match terms, terms' with
  | [], [] => exact .nil
  | term :: terms, term' :: terms' =>
    obtain ⟨hterm, hterms⟩ := Bool.and_eq_true_iff.1 h
    exact (Term.alike_of_same hterm).append (factor_alike_of_same hterms)
  | [], _ :: _ => exact absurd h (by simp [factorSame])
  | _ :: _, [] => exact absurd h (by simp [factorSame])

theorem sequence_alike_of_same {factors factors' : List (List Term)}
    (h : sequenceSame factors factors' = true) :
    Alike (sequenceRestrictions factors) (sequenceRestrictions factors') := by
  match factors, factors' with
  | [], [] => exact .nil
  | factor :: factors, factor' :: factors' =>
    obtain ⟨hfactor, hfactors⟩ := Bool.and_eq_true_iff.1 h
    exact (factor_alike_of_same hfactor).append (sequence_alike_of_same hfactors)
  | [], _ :: _ => exact absurd h (by simp [sequenceSame])
  | _ :: _, [] => exact absurd h (by simp [sequenceSame])

/-- Expressions that are the same have comparables that are the same; the other direction needs the
operators and the shape too. -/
theorem expression_alike_of_same {sequences sequences' : List (List (List Term))}
    (h : expressionSame sequences sequences' = true) :
    Alike (expressionRestrictions sequences) (expressionRestrictions sequences') := by
  match sequences, sequences' with
  | [], [] => exact .nil
  | sequence :: sequences, sequence' :: sequences' =>
    obtain ⟨hsequence, hsequences⟩ := Bool.and_eq_true_iff.1 h
    exact (sequence_alike_of_same hsequence).append (expression_alike_of_same hsequences)
  | [], _ :: _ => exact absurd h (by simp [expressionSame])
  | _ :: _, [] => exact absurd h (by simp [expressionSame])

end

/-- The comparables of filters that are the same are the same in order. -/
theorem forall₂_of_same {f g : Filter} (h : f.same g = true) :
    List.Forall₂ (fun c c' ↦ Comparable.same c c' = true) f.comparables g.comparables := by
  obtain ⟨expression?⟩ := f
  obtain ⟨expression?'⟩ := g
  match expression?, expression?' with
  | none, none => exact .nil
  | some _, some _ => exact expression_alike_of_same h
  | none, some _ => exact absurd h (by simp [same])
  | some _, none => exact absurd h (by simp [same])

section Reflexivity

/-- Whether the comparables of some restrictions are the same as themselves. -/
def Regular (rs : List Restriction) : Prop :=
  ∀ r ∈ rs, ∀ c ∈ r.comparables, Comparable.same c c = true

/-- Only NaN makes a comparable differ from itself. -/
theorem Comparable.same_self {c : Comparable}
    (h : ∀ x, c = .literal (.float x) → x.isNaN = false) : c.same c = true := by
  cases c with
  | member segments => exact beq_self_eq_true segments
  | literal l =>
    cases l with
    | text s => exact beq_self_eq_true s
    | integer n => exact beq_self_eq_true n
    | float x =>
      have hnan := h x rfl
      simp [Comparable.same, Literal.same, Floating.compare?, hnan, compareInts]

theorem Restriction.same_self {r : Restriction} (h : Regular [r]) : r.same r = true := by
  have h := h r List.mem_cons_self
  obtain ⟨subject, test?⟩ := r
  have hsubject := h subject List.mem_cons_self
  cases test? with
  | none => simp [Restriction.same, hsubject]
  | some test =>
    obtain ⟨op, argument⟩ := test
    have hargument := h argument (by simp [Restriction.comparables])
    simp [Restriction.same, hsubject, hargument]

theorem regular_append {rs rs' : List Restriction} (h : Regular (rs ++ rs')) :
    Regular rs ∧ Regular rs' :=
  List.forall_mem_append.1 h

mutual

theorem Term.same_self (term : Term) (h : Regular term.restrictions) :
    term.same term = true := by
  cases term with
  | restriction negated r =>
    exact Bool.and_eq_true_iff.2 ⟨beq_self_eq_true negated, Restriction.same_self h⟩
  | group negated body =>
    exact Bool.and_eq_true_iff.2 ⟨beq_self_eq_true negated, expression_same_self body h⟩

theorem factor_same_self (terms : List Term) (h : Regular (factorRestrictions terms)) :
    factorSame terms terms = true := by
  match terms with
  | [] => rfl
  | term :: terms =>
    obtain ⟨hterm, hterms⟩ := regular_append h
    exact Bool.and_eq_true_iff.2 ⟨term.same_self hterm, factor_same_self terms hterms⟩

theorem sequence_same_self (factors : List (List Term))
    (h : Regular (sequenceRestrictions factors)) : sequenceSame factors factors = true := by
  match factors with
  | [] => rfl
  | factor :: factors =>
    obtain ⟨hfactor, hfactors⟩ := regular_append h
    exact Bool.and_eq_true_iff.2
      ⟨factor_same_self factor hfactor, sequence_same_self factors hfactors⟩

/-- An expression is the same as itself if each of its comparables is. -/
theorem expression_same_self (sequences : List (List (List Term)))
    (h : Regular (expressionRestrictions sequences)) :
    expressionSame sequences sequences = true := by
  match sequences with
  | [] => rfl
  | sequence :: sequences =>
    obtain ⟨hsequence, hsequences⟩ := regular_append h
    exact Bool.and_eq_true_iff.2
      ⟨sequence_same_self sequence hsequence, expression_same_self sequences hsequences⟩

end

/-- A filter all of whose floats are numbers is the same as itself. -/
theorem same_self {f : Filter} (h : Regular f.restrictions) : f.same f = true := by
  obtain ⟨expression?⟩ := f
  cases expression? with
  | none => rfl
  | some expression => exact expression_same_self expression h

end Reflexivity

end RecordQuery.Filter

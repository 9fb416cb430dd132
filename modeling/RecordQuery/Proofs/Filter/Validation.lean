import RecordQuery.Bookshelf.Books
import RecordQuery.Proofs.Filter.Parts
import RecordQuery.Proofs.Resolve.Form

/-!
# Validation speaks for every record

A filter is compiled by evaluating it on the default record. Whether a restriction can be evaluated
is decided by the schema, so what can be evaluated on one record of a type can be evaluated on all of
them. A filter of which every restriction can be evaluated has the same outcome whether all its
restrictions are evaluated or only as many as are needed.
-/

namespace RecordQuery.Filter

variable {ι : Type} [DecidableEq ι] {R : Registry ι} {t : ι} {values : List (Value ι)}

/-- The form that one side of a comparison resolves to, if it resolves. -/
def Comparable.form? (R : Registry ι) (t : ι) : Comparable → Option Form
  | member [] => none
  | member (name :: names) =>
    if ((R.describe t).field? name).isSome then R.formBelow t (name :: names)
    else if names.isEmpty then some (Registry.literalOf name : Value ι).form
    else none
  | literal l => some (l.value : Value ι).form

/-- Whether the schema lets a restriction be evaluated. -/
def Restriction.isDefined (R : Registry ι) (t : ι) (r : Restriction) : Bool :=
  match r.test? with
  | none => true
  | some (op, argument) =>
    match r.subject.form? R t, argument.form? R t with
    | some a, some b => Form.comparable op a b
    | _, _ => false

/-- Whether an operand resolves, and to what form of value, depends on the schema alone. -/
theorem Comparable.form_resolve
    (hvalues : fieldsConform R.describe (R.describe t).fields values = true) (c : Comparable) :
    (c.resolve R t values).toOption.map Value.form = c.form? R t := by
  cases c with
  | literal l => rfl
  | member segments =>
    cases segments with
    | nil => rfl
    | cons name names =>
      simp only [resolve, Registry.memberValue, form?]
      split
      · exact Registry.form_resolveBelow (Registry.conformIfPresent_some hvalues)
      · split <;> rfl

/-- Whether a restriction can be evaluated on a record is decided by the schema. -/
theorem Restriction.isOk_evaluate
    (hvalues : fieldsConform R.describe (R.describe t).fields values = true) (r : Restriction) :
    (r.evaluate R t values).isOk = r.isDefined R t := by
  unfold evaluate isDefined
  cases r.test? with
  | none => rfl
  | some test =>
    obtain ⟨op, argument⟩ := test
    dsimp only
    rw [← r.subject.form_resolve hvalues, ← argument.form_resolve hvalues]
    cases hlhs : r.subject.resolve R t values with
    | error e => rfl
    | ok lhs =>
      cases hrhs : argument.resolve R t values with
      | error e => rfl
      | ok rhs => exact R.isOk_compare op lhs rhs

/-- What is known of a part of a filter on a record: whether all its restrictions are defined, the
outcome of evaluating them all, and whether the part holds. -/
structure Decided (defined : Bool) (outcome : Except Error Bool) (holds : Bool) : Prop where
  isOk_eq : outcome.isOk = defined
  eq_ok : outcome.isOk = true → outcome = .ok holds

namespace Decided

variable {defined defined' holds holds' : Bool} {outcome outcome' : Except Error Bool}

theorem ok (b : Bool) : Decided true (.ok b) b :=
  ⟨rfl, fun _ ↦ rfl⟩

/-- Every outcome decides itself. -/
theorem isTrue (outcome : Except Error Bool) :
    Decided outcome.isOk outcome (Registry.isTrue outcome) := by
  refine ⟨rfl, ?_⟩
  cases outcome with
  | ok b =>
    intro _
    rfl
  | error e =>
    intro h
    simp [Except.isOk, Except.toBool] at h

theorem negate (h : Decided defined outcome holds) (negated : Bool) :
    Decided defined (outcome.map (· != negated)) (holds != negated) := by
  obtain ⟨rfl, heq⟩ := h
  cases outcome with
  | ok b =>
    obtain rfl : b = holds := Except.ok.inj (heq rfl)
    exact .ok _
  | error e =>
    refine ⟨rfl, ?_⟩
    intro h
    simp [Except.isOk, Except.toBool, Except.map] at h

/-- Two parts that are decided are decided together, whichever way they are joined: both outcomes
count, even where the first one settles the join. -/
theorem combine (h : Decided defined outcome holds) (h' : Decided defined' outcome' holds')
    (join : Bool → Bool → Bool) :
    Decided (defined && defined') (Filter.combine join outcome outcome') (join holds holds') := by
  obtain ⟨rfl, heq⟩ := h
  obtain ⟨rfl, heq'⟩ := h'
  cases outcome with
  | error e =>
    refine ⟨rfl, ?_⟩
    intro h
    simp [Except.isOk, Except.toBool, Filter.combine] at h
  | ok b =>
    obtain rfl : b = holds := Except.ok.inj (heq rfl)
    cases outcome' with
    | error e =>
      refine ⟨rfl, ?_⟩
      intro h
      simp [Except.isOk, Except.toBool, Filter.combine] at h
    | ok b' =>
      obtain rfl : b' = holds' := Except.ok.inj (heq' rfl)
      exact .ok _

end Decided

mutual

theorem Term.decided (hvalues : fieldsConform R.describe (R.describe t).fields values = true)
    (term : Term) :
    Decided (term.restrictions.all (·.isDefined R t)) (term.evaluate R t values)
      (term.holds R t values) := by
  cases term with
  | restriction negated r =>
    simp only [Term.restrictions, Term.evaluate, Term.holds, List.all_cons, List.all_nil,
      Bool.and_true]
    rw [← r.isOk_evaluate hvalues]
    exact (Decided.isTrue _).negate negated
  | group negated body =>
    simp only [Term.restrictions, Term.evaluate, Term.holds]
    exact (expression_decided hvalues body).negate negated

theorem factor_decided (hvalues : fieldsConform R.describe (R.describe t).fields values = true)
    (terms : List Term) :
    Decided ((factorRestrictions terms).all (·.isDefined R t)) (evaluateFactor R t values terms)
      (factorHolds R t values terms) := by
  cases terms with
  | nil => exact .ok false
  | cons term terms =>
    rw [factorRestrictions, List.all_append, evaluateFactor, factorHolds]
    exact (Term.decided hvalues term).combine (factor_decided hvalues terms) or

theorem sequence_decided (hvalues : fieldsConform R.describe (R.describe t).fields values = true)
    (factors : List (List Term)) :
    Decided ((sequenceRestrictions factors).all (·.isDefined R t))
      (evaluateSequence R t values factors) (sequenceHolds R t values factors) := by
  cases factors with
  | nil => exact .ok true
  | cons factor factors =>
    rw [sequenceRestrictions, List.all_append, evaluateSequence, sequenceHolds]
    exact (factor_decided hvalues factor).combine (sequence_decided hvalues factors) and

/-- An expression is decided by its restrictions, which are defined on the type or not whatever the
record. -/
theorem expression_decided (hvalues : fieldsConform R.describe (R.describe t).fields values = true)
    (sequences : List (List (List Term))) :
    Decided ((expressionRestrictions sequences).all (·.isDefined R t))
      (evaluateExpression R t values sequences) (expressionHolds R t values sequences) := by
  cases sequences with
  | nil => exact .ok true
  | cons sequence sequences =>
    rw [expressionRestrictions, List.all_append, evaluateExpression, expressionHolds]
    exact (sequence_decided hvalues sequence).combine (expression_decided hvalues sequences) and

end

theorem decided (hvalues : fieldsConform R.describe (R.describe t).fields values = true)
    (f : Filter) :
    Decided (f.restrictions.all (·.isDefined R t)) (f.evaluate R t values)
      (f.holds R t values) := by
  unfold restrictions evaluate holds
  cases f.expression? with
  | none => exact .ok true
  | some expression => exact expression_decided hvalues expression

theorem compile_eq_ok {f : Filter} {p : Predicate R t} (h : f.compile R t = .ok p) :
    p.filter = f ∧ (f.evaluate R t (R.default t)).isOk = true := by
  unfold compile at h
  split at h
  · rename_i b hb
    obtain rfl := Except.ok.inj h
    exact ⟨rfl, by rw [hb]; rfl⟩
  · simp at h

/-- A filter that is refused fails on the default record. -/
theorem compile_eq_error {f : Filter} {e : Error} (h : f.compile R t = .error e) :
    (f.evaluate R t (R.default t)).isOk = false := by
  unfold compile at h
  split at h
  · simp at h
  · rename_i e' he'
    rw [he']
    rfl

/-- A filter compiles exactly if all its restrictions are defined on the type. -/
theorem exists_compile_iff {f : Filter} :
    (∃ p, f.compile R t = .ok p) ↔ f.restrictions.all (·.isDefined R t) = true := by
  rw [← (decided (R.default_conforms t) f).isOk_eq]
  constructor
  · rintro ⟨p, hp⟩
    exact (compile_eq_ok hp).2
  · intro hok
    cases hp : f.compile R t with
    | ok p => exact ⟨p, rfl⟩
    | error e => exact absurd hok (by simp [compile_eq_error hp])

theorem isDefined_of_compiles (p : Predicate R t) :
    p.filter.restrictions.all (·.isDefined R t) = true := by
  obtain ⟨b, hb⟩ := p.compiles
  rw [← (decided (R.default_conforms t) p.filter).isOk_eq, hb]
  rfl

/-- What a compiled filter says of a record is the outcome of evaluating all of it. -/
theorem evaluate_eq_accepts (p : Predicate R t) (r : Record R t) :
    p.filter.evaluate R t r.fields = .ok (p.accepts r) := by
  have hr := decided r.fields_conform p.filter
  exact hr.eq_ok (hr.isOk_eq.trans (isDefined_of_compiles p))

/-- A filter that compiles has an outcome on every record: all its restrictions can be evaluated, and
evaluating them all gives what the predicate says. A filter that does not compile cannot be evaluated
on any record. -/
theorem compile_speaks_for_every_record (R : Registry ι) (t : ι) (f : Filter) :
    (∀ p, f.compile R t = .ok p → ∀ r : Record R t,
      (∀ restriction ∈ f.restrictions, ∃ b, restriction.evaluate R t r.fields = .ok b) ∧
      f.evaluate R t r.fields = .ok (p.accepts r)) ∧
    ∀ e, f.compile R t = .error e → ∀ r : Record R t, ∃ e', f.evaluate R t r.fields = .error e' := by
  have hdefault := (decided (R.default_conforms t) f).isOk_eq
  constructor
  · intro p hp r
    obtain ⟨rfl, hok⟩ := compile_eq_ok hp
    have hdefined := hdefault.symm.trans hok
    have hr := decided r.fields_conform p.filter
    refine ⟨?_, hr.eq_ok (hr.isOk_eq.trans hdefined)⟩
    intro restriction hrestriction
    have hok' := restriction.isOk_evaluate r.fields_conform
    rw [List.all_eq_true.1 hdefined restriction hrestriction] at hok'
    cases hb : restriction.evaluate R t r.fields with
    | ok b => exact ⟨b, rfl⟩
    | error e => simp [hb, Except.isOk, Except.toBool] at hok'
  · intro e he r
    have hundefined := hdefault.symm.trans (compile_eq_error he)
    have hr := (decided r.fields_conform f).isOk_eq.trans hundefined
    cases hb : f.evaluate R t r.fields with
    | ok b => simp [hb, Except.isOk, Except.toBool] at hr
    | error e' => exact ⟨e', rfl⟩

section Example

open Bookshelf

/-- The filter `NOT field > 300`. -/
def notAbove (field : String) : Filter :=
  ⟨some [[[.restriction true ⟨.member [field], some (.gt, .literal (.integer 300))⟩]]]⟩

/-- A book with a page count. -/
def longBook : Book :=
  ⟨[.string "books/1", .string "Refactoring", .list [], .map [], .list [], .ofSigned 448,
    .ofSigned 1999], by decide +kernel⟩

/-- Page counts can be compared with a number, titles cannot. -/
theorem compile_speaks_for_long_book :
    (∃ holds, (notAbove "page_count").evaluate bookshelf .book longBook.fields = .ok holds) ∧
      ∃ e, (notAbove "title").evaluate bookshelf .book longBook.fields = .error e := by
  constructor
  · cases hp : (notAbove "page_count").compile bookshelf .book with
    | ok p => exact ⟨_, ((compile_speaks_for_every_record _ _ _).1 p hp longBook).2⟩
    | error e =>
      have hok : ((notAbove "page_count").compile bookshelf .book).isOk = true := by decide
      simp [hp, Except.isOk, Except.toBool] at hok
  · cases hp : (notAbove "title").compile bookshelf .book with
    | error e => exact (compile_speaks_for_every_record _ _ _).2 e hp longBook
    | ok p =>
      have hok : ((notAbove "title").compile bookshelf .book).isOk = false := by decide
      simp [hp, Except.isOk, Except.toBool] at hok

end Example

end RecordQuery.Filter

import RecordQuery.Proofs.Filter.Validation
import RecordQuery.Proofs.Record.Equality
import RecordQuery.Proofs.Resolve.Agreement
import RecordQuery.Sample.Library

/-!
# Queries cannot tell equal records apart

No operator tells values apart that agree, and no search does. Since paths lead from records that
agree to values that agree, a filter has the same outcome on both records and a comparator finds no
difference between them. Equal records agree, so the order of the pairs of a map and the sign of a
zero make no difference to a query.
-/

namespace RecordQuery

namespace Registry

variable {ι : Type} [DecidableEq ι] {R : Registry ι}

section Operators

/-- A test that agreeing pairs pass together holds of some pair of one map as soon as it holds of
some pair of the other. -/
theorem PairsAmong.any_eq_true {as bs : List (Value ι × Value ι)} {p q : Value ι × Value ι → Bool}
    (h : R.PairsAmong as bs)
    (hpq : ∀ x y, R.Agree x.1 y.1 → R.Agree x.2 y.2 → p x = q y) (hp : as.any p = true) :
    bs.any q = true := by
  obtain ⟨x, hx, hpx⟩ := List.any_eq_true.1 hp
  obtain ⟨y, hy, hk, hv⟩ := h.exists_mem hx
  exact List.any_eq_true.2 ⟨y, hy, hpq x y hk hv ▸ hpx⟩

/-- What is asked of some pair of a map does not depend on the order of the pairs. -/
theorem PairsAmong.any_eq {as bs : List (Value ι × Value ι)} {p q : Value ι × Value ι → Bool}
    (h : R.PairsAmong as bs) (h' : R.PairsAmong bs as)
    (hpq : ∀ x y, R.Agree x.1 y.1 → R.Agree x.2 y.2 → p x = q y) : as.any p = bs.any q :=
  Bool.eq_iff_iff.2 ⟨h.any_eq_true hpq,
    h'.any_eq_true fun x y hk hv ↦ (hpq y x hk.symm hv.symm).symm⟩

theorem ItemsAgree.any_eq {as bs : List (Value ι)} {p q : Value ι → Bool} (h : R.ItemsAgree as bs)
    (hpq : ∀ {a b}, R.Agree a b → p a = q b) : as.any p = bs.any q := by
  match h with
  | .nil => rfl
  | .cons hab h => rw [List.any_cons, List.any_cons, hpq hab, h.any_eq hpq]

variable {a a' b b' : Value ι}

theorem Agree.containsText_eq (ha : R.Agree a a') (hb : R.Agree b b') :
    a.containsText b = a'.containsText b' := by
  cases ha with
  | string s =>
    cases hb <;> rfl
  | _ => rfl

/-- The operator `:` answers alike on values that agree. -/
theorem Agree.has_eq (ha : R.Agree a a') (hb : R.Agree b b') : R.has a b = R.has a' b' := by
  cases ha with
  | map hlength h h' =>
    refine h.any_eq h' fun x y hk hv ↦ ?_
    rw [hk.equal_eq hb, hv.equal_eq hb, hk.containsText_eq hb, hv.containsText_eq hb]
  | string s =>
    cases hb with
    | string needle => rfl
    | _ => simp [has, equal]
  | null => exact Agree.equal_eq .null hb
  | bool x => exact (Agree.bool x).equal_eq hb
  | number h => exact (Agree.number h).equal_eq hb
  | list h => exact (Agree.list h).equal_eq hb
  | record h => exact (Agree.record h).equal_eq hb

/-- Two leaves compare alike as the leaves that agree with them do, under every operator. -/
theorem Agree.compareLeaves_eq (ha : R.Agree a a') (hb : R.Agree b b') (op : Operator) :
    R.compareLeaves op a b = R.compareLeaves op a' b' := by
  cases op with
  | eq | ne => simp only [compareLeaves, ha.equal_eq hb]
  | has => simp only [compareLeaves, ha.has_eq hb]
  | gt | gte | lt | lte =>
    simp only [compareLeaves]
    cases ha with
    | number hm =>
      cases hb with
      | number hn => simp only [hm.compare?_eq hn]
      | _ => rfl
    | _ => cases hb <;> rfl

theorem ItemsAgree.append {as as' bs bs' : List (Value ι)} (h : R.ItemsAgree as bs)
    (h' : R.ItemsAgree as' bs') : R.ItemsAgree (as ++ as') (bs ++ bs') := by
  match h with
  | .nil => exact h'
  | .cons hab h => exact .cons hab (h.append h')

mutual

/-- Values that agree are flattened to leaves that agree, one by one. -/
theorem Agree.leaves {a b : Value ι} (h : R.Agree a b) : R.ItemsAgree a.leaves b.leaves := by
  match h with
  | .null => exact .cons .null .nil
  | .bool x => exact .cons (.bool x) .nil
  | .number h => exact .cons (.number h) .nil
  | .string s => exact .cons (.string s) .nil
  | .map hlength h h' => exact .cons (.map hlength h h') .nil
  | .record h => exact .cons (.record h) .nil
  | .list h =>
    rw [Value.leaves, Value.leaves]
    exact h.itemLeaves

theorem ItemsAgree.itemLeaves {as bs : List (Value ι)} (h : R.ItemsAgree as bs) :
    R.ItemsAgree (itemLeaves as) (itemLeaves bs) := by
  match h with
  | .nil => exact .nil
  | .cons hab h =>
    rw [RecordQuery.itemLeaves, RecordQuery.itemLeaves]
    exact hab.leaves.append h.itemLeaves

end

theorem Agree.isList_eq (h : R.Agree a b) : a.isList = b.isList := by
  cases h <;> rfl

/-- No operator tells values apart that agree. -/
theorem Agree.compare_eq (ha : R.Agree a a') (hb : R.Agree b b') (op : Operator) :
    R.compare op a b = R.compare op a' b' := by
  have hany : (a.leaves.any fun x ↦ b.leaves.any fun y ↦ isTrue (R.compareLeaves op x y)) =
      a'.leaves.any fun x ↦ b'.leaves.any fun y ↦ isTrue (R.compareLeaves op x y) :=
    ha.leaves.any_eq fun hx ↦ hb.leaves.any_eq fun hy ↦ by rw [hx.compareLeaves_eq hy]
  rw [compare, compare, ha.isList_eq, hb.isList_eq, hany, ha.compareLeaves_eq hb]

theorem Agree.finds_eq (h : R.Agree a b) (needle : String) : a.finds needle = b.finds needle := by
  cases h <;> rfl

mutual

/-- No search tells values apart that agree. -/
theorem Agree.searchValue_eq {a b : Value ι} (h : R.Agree a b) (needle : String) :
    R.searchValue needle a = R.searchValue needle b := by
  match h with
  | .null | .bool _ | .number _ | .string _ => simp only [searchValue]
  | .list h =>
    simp only [searchValue]
    exact h.searchItems_eq needle
  | .map _ h h' =>
    simp only [searchValue]
    exact h.any_eq h' fun x y hk hv ↦ by rw [hk.finds_eq, hv.finds_eq]
  | .record h =>
    simp only [searchValue]
    exact h.searchFields_eq needle

theorem ItemsAgree.searchItems_eq {as bs : List (Value ι)} (h : R.ItemsAgree as bs)
    (needle : String) : R.searchItems needle as = R.searchItems needle bs := by
  match h with
  | .nil => rfl
  | .cons hab h => rw [searchItems, searchItems, hab.searchValue_eq, h.searchItems_eq]

/-- A search finds the same words in records that agree. -/
theorem FieldsAgree.searchFields_eq {fields : List (Field ι)} {as bs : List (Value ι)}
    (h : R.FieldsAgree fields as bs) (needle : String) :
    R.searchFields needle fields as = R.searchFields needle fields bs := by
  match h with
  | .nil => rfl
  | .visible _ hab h =>
    rw [searchFields, searchFields, hab.searchValue_eq, h.searchFields_eq]
  | .hidden hname h =>
    simp only [searchFields, Field.isVisible, hname, Option.isSome_none, Bool.false_and,
      Bool.false_or]
    exact h.searchFields_eq needle

end

end Operators

end Registry

namespace Filter

variable {ι : Type} [DecidableEq ι] {R : Registry ι} {t : ι} {as bs : List (Value ι)}

/-- An operand of a restriction resolves in both records or in neither, and to values that agree. -/
theorem Comparable.resolve_agree (has : fieldsConform R.describe (R.describe t).fields as = true)
    (h : R.FieldsAgree (R.describe t).fields as bs) (c : Comparable) :
    R.OutcomesAgree (c.resolve R t as) (c.resolve R t bs) := by
  cases c with
  | member segments => exact Registry.outcomesAgree_memberValue has h segments
  | literal l =>
    cases l with
    | text s => exact .ok (.string s)
    | integer n => exact .ok (.number (.refl _))
    | float x => exact .ok (.number (.refl _))

/-- A restriction has the same outcome on records that agree. -/
theorem Restriction.evaluate_eq (has : fieldsConform R.describe (R.describe t).fields as = true)
    (h : R.FieldsAgree (R.describe t).fields as bs) (r : Restriction) :
    r.evaluate R t as = r.evaluate R t bs := by
  unfold evaluate
  cases r.test? with
  | none => simp only [Registry.search, h.searchFields_eq]
  | some test =>
    obtain ⟨op, argument⟩ := test
    dsimp only
    have hsubject := r.subject.resolve_agree has h
    have hargument := argument.resolve_agree has h
    generalize r.subject.resolve R t as = x, r.subject.resolve R t bs = x' at hsubject ⊢
    generalize argument.resolve R t as = y, argument.resolve R t bs = y' at hargument ⊢
    cases hsubject with
    | error e => rfl
    | ok hlhs =>
      cases hargument with
      | error e => rfl
      | ok hrhs => exact hlhs.compare_eq hrhs op

mutual

theorem Term.evaluate_congr (h : ∀ r : Restriction, r.evaluate R t as = r.evaluate R t bs)
    (term : Term) : term.evaluate R t as = term.evaluate R t bs := by
  cases term with
  | restriction negated r => rw [Term.evaluate, Term.evaluate, h r]
  | group negated body => rw [Term.evaluate, Term.evaluate, expression_evaluate_congr h body]

theorem factor_evaluate_congr (h : ∀ r : Restriction, r.evaluate R t as = r.evaluate R t bs)
    (terms : List Term) : evaluateFactor R t as terms = evaluateFactor R t bs terms := by
  cases terms with
  | nil => rfl
  | cons term terms =>
    rw [evaluateFactor, evaluateFactor, Term.evaluate_congr h term, factor_evaluate_congr h terms]

theorem sequence_evaluate_congr (h : ∀ r : Restriction, r.evaluate R t as = r.evaluate R t bs)
    (factors : List (List Term)) :
    evaluateSequence R t as factors = evaluateSequence R t bs factors := by
  cases factors with
  | nil => rfl
  | cons factor factors =>
    rw [evaluateSequence, evaluateSequence, factor_evaluate_congr h factor,
      sequence_evaluate_congr h factors]

/-- An expression can tell two records apart only through one of its restrictions. -/
theorem expression_evaluate_congr (h : ∀ r : Restriction, r.evaluate R t as = r.evaluate R t bs)
    (sequences : List (List (List Term))) :
    evaluateExpression R t as sequences = evaluateExpression R t bs sequences := by
  cases sequences with
  | nil => rfl
  | cons sequence sequences =>
    rw [evaluateExpression, evaluateExpression, sequence_evaluate_congr h sequence,
      expression_evaluate_congr h sequences]

end

/-- A filter has the same outcome on records that agree. -/
theorem evaluate_eq (has : fieldsConform R.describe (R.describe t).fields as = true)
    (h : R.FieldsAgree (R.describe t).fields as bs) (f : Filter) :
    f.evaluate R t as = f.evaluate R t bs := by
  unfold evaluate
  cases f.expression? with
  | none => rfl
  | some expression =>
    exact expression_evaluate_congr (Restriction.evaluate_eq has h) expression

end Filter

namespace Record

variable {ι : Type} [DecidableEq ι] {R : Registry ι} {t : ι}

/-- Queries cannot tell equal records apart: every filter that compiles matches both or neither, every
other one fails on both with the same error, and every comparator finds the records equal. -/
theorem queries_eq_of_equal (a b : Record R t) (h : R.equal a.toValue b.toValue = true) :
    (∀ f : Filter, f.evaluate R t a.fields = f.evaluate R t b.fields) ∧
      (∀ p : Predicate R t, p.accepts a = p.accepts b) ∧
      ∀ c : Comparator R t, c.compare a b = .eq := by
  have hagree : R.FieldsAgree (R.describe t).fields a.fields b.fields := by
    have hvalues := Registry.agree_of_equal a.conforms_toValue b.conforms_toValue h
    cases hvalues with
    | record hfields => exact hfields
  have hevaluate := fun f ↦ Filter.evaluate_eq a.fields_conform hagree f
  refine ⟨hevaluate, ?_, ?_⟩
  · intro p
    have ha := Filter.evaluate_eq_accepts p a
    have hb := Filter.evaluate_eq_accepts p b
    rw [hevaluate, hb] at ha
    exact (Except.ok.inj ha).symm
  · intro c
    rw [c.compare_eq_eq_iff]
    intro k hk
    exact hagree.rank_eq (c.checked_of_mem hk)

section Example

open Sample

/-- The fields of a book with a zero of the given sign as its rating and with some prices. -/
def pricedBook (negative : Bool) (prices : List (Value LibraryType × Value LibraryType)) :
    List (Value LibraryType) :=
  [.string "books/1", .string "Refactoring", .null, .list [],
    .record .publisher [.string "", .ofUnsigned 0, .null], .map [], .map [], .list [],
    .ofSigned 448, .number (.float (.zero .binary64 negative)), .bool true, .ofSigned 0,
    .ofUnsigned 0, .ofUnsigned 0, .number (.float (.zero .binary64 false)), .list [], .list [],
    .list [], .map [], .map prices, .map [], .map [], .string "", .ofUnsigned 0]

/-- A price in some currency. -/
def price (currency : String) (amount : Int) : Value LibraryType × Value LibraryType :=
  (.string currency, .number (.float (.ofInt .binary64 amount)))

/-- Books that differ in the sign of a rating of zero and in the order of their prices. -/
theorem queries_eq_of_reordered :
    ∃ a b : Record library .book, a.fields = pricedBook false [price "eur" 30, price "gbp" 25] ∧
      b.fields = pricedBook true [price "gbp" 25, price "eur" 30] ∧
      (∀ p : Predicate library .book, p.accepts a = p.accepts b) ∧
      ∀ c : Comparator library .book, c.compare a b = .eq := by
  let a : Record library .book :=
    ⟨pricedBook false [price "eur" 30, price "gbp" 25], by decide +kernel⟩
  let b : Record library .book :=
    ⟨pricedBook true [price "gbp" 25, price "eur" 30], by decide +kernel⟩
  have hequal : library.equal a.toValue b.toValue = true := by decide +kernel
  exact ⟨a, b, rfl, rfl, (queries_eq_of_equal a b hequal).2⟩

end Example

end Record

end RecordQuery

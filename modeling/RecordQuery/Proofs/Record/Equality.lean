import RecordQuery.Proofs.Record.Agreement

/-!
# Equality of records

Equality does not tell values apart that agree, and equal values of one type agree. So equality is
symmetric and transitive on the values of a type, although equality of numbers across representations
is not transitive and equality of maps looks for the pairs of the first one in the second one only. A
value equals itself exactly if every number in it does, which is to say that none of them is not a
number.
-/

namespace RecordQuery

theorem Floating.compare?_eq_of_key {l : Layout} {x x' y y' : Floating l} (hx : x.key = x'.key)
    (hy : y.key = y'.key) : x.compare? y = x'.compare? y' := by
  rw [compare?, compare?, isNaN_eq_of_key hx, isNaN_eq_of_key hy, hx, hy]

/-- Numbers are compared by value, whatever the sign of zero. -/
theorem Number.Agree.compare?_eq {m m' n n' : Number} (hm : m.Agree m') (hn : n.Agree n') :
    m.compare? n = m'.compare? n' := by
  cases hm with
  | signed m | unsigned m =>
    cases hn with
    | signed n | unsigned n => rfl
    | float hy => exact Floating.compare?_eq_of_key rfl hy
  | float hx =>
    cases hn with
    | signed n | unsigned n => exact Floating.compare?_eq_of_key hx rfl
    | float hy => exact Floating.compare?_eq_of_key hx hy

theorem Number.same_self_iff (n : Number) : n.same n = true ↔ n.isNaN = false := by
  have hints (k : Int) : compareInts k k = .eq := by
    rw [compareInts_eq_compare]
    exact Std.compare_self
  cases n with
  | signed n => simp [same, compare?, integer?, isNaN, hints]
  | unsigned n => simp [same, compare?, integer?, isNaN, hints]
  | float x => simp [same, compare?, integer?, toDouble, isNaN, Floating.compare?, hints]

namespace Registry

variable {ι : Type} [DecidableEq ι] {R : Registry ι}

section Agreement

theorem pairsWithin_iff {as bs : List (Value ι × Value ι)} :
    R.pairsWithin as bs = true ↔
      ∀ p ∈ as, ∃ q ∈ bs, R.equal p.1 q.1 = true ∧ R.equal p.2 q.2 = true := by
  induction as with
  | nil => simp [pairsWithin]
  | cons p as ih =>
    obtain ⟨k, v⟩ := p
    simp only [pairsWithin, Bool.and_eq_true, List.any_eq_true, ih, List.forall_mem_cons]

mutual

/-- Values that agree with equal values are equal. -/
theorem equal_of_agree {a a' b b' : Value ι} (ha : R.Agree a a') (hb : R.Agree b b')
    (h : R.equal a b = true) : R.equal a' b' = true := by
  match a', ha with
  | .null, .null =>
    cases hb with
    | null => exact h
    | _ => simp [equal] at h
  | .bool x, .bool _ =>
    cases hb with
    | bool y => exact h
    | _ => simp [equal] at h
  | .number _, .number hm =>
    cases hb with
    | number hn =>
      simp only [equal, Number.same] at h ⊢
      rwa [← hm.compare?_eq hn]
    | _ => simp [equal] at h
  | .string s, .string _ =>
    cases hb with
    | string s' => exact h
    | _ => simp [equal] at h
  | .list as', .list has =>
    cases hb with
    | list hbs =>
      rw [equal] at h ⊢
      exact itemsEqual_of_agree has hbs h
    | _ => simp [equal] at h
  | .map as', .map hlength _ has =>
    cases hb with
    | map hlength' hbs _ =>
      simp only [equal, Bool.and_eq_true, beq_iff_eq] at h ⊢
      exact ⟨by omega, pairsWithin_of_agree has hbs h.2⟩
    | _ => simp [equal] at h
  | .record t as', .record has =>
    cases hb with
    | record hbs =>
      simp only [equal, Bool.and_eq_true] at h ⊢
      exact ⟨h.1, fieldsEqual_of_agree has hbs h.2⟩
    | _ => simp [equal] at h
termination_by structural a'

theorem itemsEqual_of_agree {as as' bs bs' : List (Value ι)} (ha : R.ItemsAgree as as')
    (hb : R.ItemsAgree bs bs') (h : R.itemsEqual as bs = true) : R.itemsEqual as' bs' = true := by
  match as', ha with
  | [], .nil =>
    cases hb with
    | nil => simp [itemsEqual]
    | cons => simp [itemsEqual] at h
  | a' :: as', .cons ha has =>
    cases hb with
    | nil => simp [itemsEqual] at h
    | cons hb hbs =>
      simp only [itemsEqual, Bool.and_eq_true] at h ⊢
      exact ⟨equal_of_agree ha hb h.1, itemsEqual_of_agree has hbs h.2⟩
termination_by structural as'

theorem pairsWithin_of_agree {as as' bs bs' : List (Value ι × Value ι)} (ha : R.PairsAmong as' as)
    (hb : R.PairsAmong bs bs') (h : R.pairsWithin as bs = true) : R.pairsWithin as' bs' = true := by
  match as', ha with
  | [], .nil => simp [pairsWithin]
  | (k', v') :: as', .cons hmem hk hv has =>
    obtain ⟨q, hq, hkq, hvq⟩ := pairsWithin_iff.1 h _ hmem
    obtain ⟨q', hq', hqk, hqv⟩ := hb.exists_mem hq
    simp only [pairsWithin, Bool.and_eq_true, List.any_eq_true]
    exact ⟨⟨q', hq', equal_of_agree hk.symm hqk hkq, equal_of_agree hv.symm hqv hvq⟩,
      pairsWithin_of_agree has hb h⟩
termination_by structural as'

theorem fieldsEqual_of_agree {fields others : List (Field ι)} {as as' bs bs' : List (Value ι)}
    (ha : R.FieldsAgree fields as as') (hb : R.FieldsAgree others bs bs')
    (h : R.fieldsEqual fields as others bs = true) :
    R.fieldsEqual fields as' others bs' = true := by
  match as', ha with
  | [], .nil => simp [fieldsEqual]
  | a' :: as', .hidden hname has =>
    simp only [fieldsEqual, hname, Bool.true_and] at h ⊢
    exact fieldsEqual_of_agree has hb h
  | a' :: as', .visible hname ha has =>
    rename_i name
    simp only [fieldsEqual, hname, Bool.and_eq_true] at h ⊢
    refine ⟨?_, fieldsEqual_of_agree has hb h.2⟩
    have hfield := hb.fieldOf? name
    have hequal := h.1
    generalize fieldOf? name others bs = x, fieldOf? name others bs' = y at hfield hequal ⊢
    cases hfield with
    | none => exact hequal
    | some hfield => exact equal_of_agree ha hfield.2 hequal
termination_by structural as'

end

/-- Equality does not tell values apart that agree. -/
theorem Agree.equal_eq {a a' b b' : Value ι} (ha : R.Agree a a') (hb : R.Agree b b') :
    R.equal a b = R.equal a' b' :=
  Bool.eq_iff_iff.2 ⟨equal_of_agree ha hb, equal_of_agree ha.symm hb.symm⟩

end Agreement

section Equivalence

variable {type : FieldType ι} {a b c : Value ι}

/-- Equality of two values of one type is symmetric, since equal values agree. -/
theorem equal_symm (ha : conforms R.describe type a = true) (hb : conforms R.describe type b = true)
    (h : R.equal a b = true) : R.equal b a = true := by
  have hagree := agree_of_equal ha hb h
  rwa [← hagree.equal_eq hagree.symm]

theorem equal_trans (ha : conforms R.describe type a = true) (hb : conforms R.describe type b = true)
    (hc : conforms R.describe type c = true) (hab : R.equal a b = true) (hbc : R.equal b c = true) :
    R.equal a c = true := by
  have hagree := agree_of_equal hb hc hbc
  rwa [← (agree_self ha).equal_eq hagree]

end Equivalence

section Reflexive

variable (R)

/-- Whether a value is found in another one: as that value itself, in an item of a list, in a value
of a map or in a field of a record that can be queried. -/
inductive Reachable : Value ι → Value ι → Prop
  | self (v : Value ι) : Reachable v v
  | item {items : List (Value ι)} {v w : Value ι} (hv : v ∈ items) (h : Reachable v w) :
      Reachable (.list items) w
  | pair {pairs : List (Value ι × Value ι)} {k v w : Value ι} (hv : (k, v) ∈ pairs)
      (h : Reachable v w) : Reachable (.map pairs) w
  | field {t : ι} {values : List (Value ι)} {name : String} {type : FieldType ι} {v w : Value ι}
      (hv : fieldOf? name (R.describe t).fields values = some (type, v)) (h : Reachable v w) :
      Reachable (.record t values) w

variable {R} {type : FieldType ι}

theorem equal_self_of_key {key : KeyType} {k : Value ι} (hk : key.scalar.admits k = true) :
    R.equal k k = true := by
  rcases KeyType.admits_cases hk with ⟨b, rfl⟩ | ⟨text, rfl⟩ | ⟨n, rfl⟩ | ⟨n, rfl⟩
  · simp [equal]
  · simp [equal]
  · rw [equal]
    exact (Number.same_self_iff _).2 rfl
  · rw [equal]
    exact (Number.same_self_iff _).2 rfl

theorem equal_self_of_admits {s : Scalar} {v : Value ι} (hv : s.admits v = true)
    (h : ∀ n, R.Reachable v (.number n) → n.isNaN = false) : R.equal v v = true := by
  cases v with
  | bool b => simp [equal]
  | string text => simp [equal]
  | number n =>
    rw [equal]
    exact (Number.same_self_iff n).2 (h n (.self _))
  | null | list | map | record => cases s <;> simp [Scalar.admits] at hv

theorem itemsEqual_self_iff {items : List (Value ι)} :
    R.itemsEqual items items = true ↔ ∀ v ∈ items, R.equal v v = true := by
  induction items with
  | nil => simp [itemsEqual]
  | cons v items ih => rw [itemsEqual, Bool.and_eq_true, ih, List.forall_mem_cons]

/-- The keys of a map being distinct, a pair can only be found again at its own place. -/
theorem pairsWithin_self_iff {key : KeyType} {pairs : List (Value ι × Value ι)}
    (h : pairsConform R.describe key type pairs = true) :
    R.pairsWithin pairs pairs = true ↔ ∀ p ∈ pairs, R.equal p.2 p.2 = true := by
  rw [pairsWithin_iff]
  refine forall₂_congr fun p hp ↦ ⟨?_, ?_⟩
  · rintro ⟨q, hq, hk, hv⟩
    have hkey : p.1 = q.1 :=
      (agree_of_equal_of_admits (admits_of_mem h hp).1 (admits_of_mem h hq).1 hk).eq_of_key
        (admits_of_mem h hp).1
    obtain rfl : p = q := List.inj_on_of_nodup_map (nodup_keys h) hp hq hkey
    exact hv
  · intro hv
    exact ⟨p, hp, equal_self_of_key (admits_of_mem h hp).1, hv⟩

/-- Records are equal if every field that can be queried in the first one has its value in the second
one. -/
theorem fieldsEqual_iff {fields others : List (Field ι)} {as bs : List (Value ι)}
    (hnames : (fields.filterMap Field.name?).Nodup) :
    R.fieldsEqual fields as others bs = true ↔
      ∀ name type v, fieldOf? name fields as = some (type, v) →
        ∃ type' w, fieldOf? name others bs = some (type', w) ∧ R.equal v w = true := by
  induction fields generalizing as with
  | nil => simp [fieldsEqual, fieldOf?]
  | cons field fields ih =>
    cases as with
    | nil => simp [fieldsEqual, fieldOf?]
    | cons a as =>
      cases hname : field.name? with
      | none =>
        rw [List.filterMap_cons_none hname] at hnames
        simp only [fieldsEqual, fieldOf?, hname, Bool.true_and, reduceCtorEq, if_false]
        exact ih hnames
      | some own =>
        rw [List.filterMap_cons_some hname, List.nodup_cons] at hnames
        simp only [fieldsEqual, fieldOf?, hname, Bool.and_eq_true, ih hnames.2]
        constructor
        · rintro ⟨hown, hrest⟩ name type v hv
          split at hv
          next heq =>
            cases heq
            cases hv
            cases hfield : fieldOf? own others bs with
            | none => simp [hfield] at hown
            | some p => exact ⟨p.1, p.2, rfl, by simpa [hfield] using hown⟩
          next => exact hrest name type v hv
        · intro h
          constructor
          · obtain ⟨type, w, hw, hequal⟩ := h own field.type a (if_pos rfl)
            simpa only [hw] using hequal
          · intro name type v hv
            refine h name type v ?_
            rw [if_neg, hv]
            rintro ⟨rfl⟩
            exact hnames.1 (name_mem_of_fieldOf? hv)

theorem fieldsEqual_self_iff {t : ι} {values : List (Value ι)} :
    R.fieldsEqual (R.describe t).fields values (R.describe t).fields values = true ↔
      ∀ name type v, fieldOf? name (R.describe t).fields values = some (type, v) →
        R.equal v v = true := by
  rw [fieldsEqual_iff (R.describe t).names_nodup]
  refine forall₄_congr fun name type v hv ↦ ⟨?_, ?_⟩
  · rintro ⟨type', w, hw, hequal⟩
    cases hv.symm.trans hw
    exact hequal
  · intro hequal
    exact ⟨type, v, hv, hequal⟩

/-- A value in which every number is one equals itself. -/
theorem equal_self {type : FieldType ι} {v : Value ι} (hv : conforms R.describe type v = true)
    (h : ∀ n, R.Reachable v (.number n) → n.isNaN = false) : R.equal v v = true := by
  match type, v with
  | .scalar s, v =>
    rw [conforms] at hv
    exact equal_self_of_admits hv h
  | .optional _, .null => simp [equal]
  | .embedded t, .record u values | .optional t, .record u values =>
    simp only [conforms, Bool.and_eq_true] at hv
    simp only [equal, beq_self_eq_true, Bool.true_and]
    refine fieldsEqual_self_iff.2 fun name type v hfield ↦ ?_
    have hsize := List.sizeOf_lt_of_mem (value_mem_of_fieldOf? hfield)
    exact equal_self (conforms_of_fieldOf? hv.2 hfield) fun n hn ↦ h n (.field hfield hn)
  | .repeated e, .list items =>
    rw [conforms] at hv
    rw [equal]
    refine itemsEqual_self_iff.2 fun v hitem ↦ ?_
    have hsize := List.sizeOf_lt_of_mem hitem
    exact equal_self (mem_itemsConform hv hitem) fun n hn ↦ h n (.item hitem hn)
  | .map key e, .map pairs =>
    rw [conforms] at hv
    simp only [equal, beq_self_eq_true, Bool.true_and]
    refine (pairsWithin_self_iff hv).2 fun (k, v) hp ↦ ?_
    have hsize := List.sizeOf_lt_of_mem hp
    exact equal_self (admits_of_mem hv hp).2 fun n hn ↦ h n (.pair hp hn)
termination_by sizeOf v
decreasing_by all_goals simp at hsize ⊢; omega

/-- What is found in a value that equals itself equals itself. -/
theorem equal_self_of_reachable {v w : Value ι} (hreach : R.Reachable v w) {type : FieldType ι}
    (hv : conforms R.describe type v = true) (h : R.equal v v = true) : R.equal w w = true := by
  induction hreach generalizing type with
  | self => exact h
  | @item items v w hitem _ ih =>
    obtain ⟨e, rfl, hitems⟩ := exists_repeated_of_conforms hv
    rw [equal] at h
    exact ih (mem_itemsConform hitems hitem) (itemsEqual_self_iff.1 h v hitem)
  | @pair pairs k v w hp _ ih =>
    obtain ⟨key, e, rfl, hpairs⟩ := exists_map_of_conforms hv
    simp only [equal, Bool.and_eq_true] at h
    exact ih (admits_of_mem hpairs hp).2 ((pairsWithin_self_iff hpairs).1 h.2 (k, v) hp)
  | @field t values name _ v w hfield _ ih =>
    obtain ⟨-, hvalues⟩ := embedded_or_optional_of_conforms hv
    simp only [equal, Bool.and_eq_true] at h
    exact ih (conforms_of_fieldOf? hvalues hfield) (fieldsEqual_self_iff.1 h.2 name _ v hfield)

end Reflexive

/-- On the records of a type equality is symmetric and transitive, and a record is equal to itself
exactly if every number found in it is one. -/
theorem equal_partial_equivalence (t : ι) :
    (∀ a b : Record R t, R.equal a.toValue b.toValue = true → R.equal b.toValue a.toValue = true) ∧
    (∀ a b c : Record R t, R.equal a.toValue b.toValue = true →
      R.equal b.toValue c.toValue = true → R.equal a.toValue c.toValue = true) ∧
    ∀ a : Record R t, R.equal a.toValue a.toValue = true ↔
      ∀ n, R.Reachable a.toValue (.number n) → n.isNaN = false := by
  refine ⟨?symm, ?trans, ?refl⟩
  case symm =>
    intro a b h
    exact equal_symm a.conforms_toValue b.conforms_toValue h
  case trans =>
    intro a b c hab hbc
    exact equal_trans a.conforms_toValue b.conforms_toValue c.conforms_toValue hab hbc
  case refl =>
    intro a
    constructor
    · intro h n hn
      have hsame := equal_self_of_reachable hn a.conforms_toValue h
      rw [equal] at hsame
      exact (Number.same_self_iff n).1 hsame
    · exact equal_self a.conforms_toValue

end Registry

end RecordQuery

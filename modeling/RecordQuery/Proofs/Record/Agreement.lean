import Mathlib.Data.List.Nodup
import Mathlib.Data.List.Perm.Subperm
import RecordQuery.Proofs.Order.Preorder
import RecordQuery.Record.Equality

/-!
# Agreement of values

Two values agree if they differ at most in the sign of zeros, in the order of the pairs of maps and
in fields that cannot be queried. Equal values of one type agree. The converse fails for what is not
a number: it agrees with itself, but does not equal itself.
-/

namespace RecordQuery

theorem Floating.isNaN_eq_of_key {l : Layout} {x y : Floating l} (h : x.key = y.key) :
    x.isNaN = y.isNaN := by
  have hmagnitude : x.magnitude = y.magnitude := by
    unfold key at h
    split at h <;> split at h <;> omega
  rw [isNaN, isNaN, hmagnitude]

/-- If lists of one length have distinct keys and every member of the first has a partner with its key
in the second, then every member of the second is such a partner. -/
theorem exists_of_nodup_map {α β κ : Type} {f : α → κ} {g : β → κ} {as : List α} {bs : List β}
    (has : (as.map f).Nodup) (hbs : (bs.map g).Nodup) (hlength : as.length = bs.length)
    {p : β → α → Prop} (h : ∀ a ∈ as, ∃ b ∈ bs, f a = g b ∧ p b a) : ∀ b ∈ bs, ∃ a ∈ as, p b a := by
  have hsubset : as.map f ⊆ bs.map g := by
    intro k hk
    obtain ⟨a, ha, rfl⟩ := List.mem_map.1 hk
    obtain ⟨b, hb, hab, -⟩ := h a ha
    exact hab ▸ List.mem_map_of_mem hb
  have hperm : (as.map f).Perm (bs.map g) :=
    (List.subperm_of_subset has hsubset).perm_of_length_le (by simp [hlength])
  intro b hb
  obtain ⟨a, ha, hab⟩ := List.mem_map.1 (hperm.mem_iff.2 (List.mem_map_of_mem hb))
  obtain ⟨b', hb', hab', hp⟩ := h a ha
  obtain rfl : b' = b := List.inj_on_of_nodup_map hbs hb' hb (hab'.symm.trans hab)
  exact ⟨a, ha, hp⟩

/-- Whether two numbers have one representation and, the sign of zero aside, one value. -/
inductive Number.Agree : Number → Number → Prop
  | signed (n : Int64) : Agree (.signed n) (.signed n)
  | unsigned (n : UInt64) : Agree (.unsigned n) (.unsigned n)
  | float {x y : Double} (h : x.key = y.key) : Agree (.float x) (.float y)

theorem Number.Agree.refl (n : Number) : n.Agree n := by
  cases n with
  | signed n => exact .signed n
  | unsigned n => exact .unsigned n
  | float x => exact .float rfl

theorem Number.Agree.symm {m n : Number} (h : m.Agree n) : n.Agree m := by
  cases h with
  | signed n => exact .signed n
  | unsigned n => exact .unsigned n
  | float h => exact .float h.symm

theorem compareInts_eq_eq {a b : Int} (h : some (compareInts a b) = some .eq) : a = b := by
  rw [compareInts_eq_compare] at h
  exact Std.compare_eq_iff_eq.1 (Option.some.inj h)

theorem Floating.key_eq_of_compare? {x y : Double} (h : x.compare? y = some .eq) :
    x.key = y.key := by
  unfold compare? at h
  split at h
  · exact nomatch h
  · exact compareInts_eq_eq h

/-- Numbers of one scalar type agree if they are equal. -/
theorem Number.agree_of_same {ι : Type} {m n : Number} {s : Scalar}
    (hm : s.admits (.number m : Value ι) = true) (hn : s.admits (.number n : Value ι) = true)
    (h : m.same n = true) : m.Agree n := by
  have hcompare : m.compare? n = some .eq := by simpa [same] using h
  have hn := s.admits_cases hn
  rcases s.admits_cases hm with ⟨-, b, hb⟩ | ⟨-, text, htext⟩ | ⟨t, k, rfl, ht, hk⟩ |
    ⟨t, k, rfl, ht, hk⟩ | ⟨t, x, rfl, hx⟩
  · exact nomatch hb
  · exact nomatch htext
  · obtain rfl := Value.number.inj hk
    obtain ⟨l, rfl⟩ : ∃ l, n = .signed l := by simpa [ht] using hn
    obtain rfl : k = l := Int64.toInt_inj.1 (compareInts_eq_eq hcompare)
    exact .signed k
  · obtain rfl := Value.number.inj hk
    obtain ⟨l, rfl⟩ : ∃ l, n = .unsigned l := by simpa [ht] using hn
    obtain rfl : k = l := UInt64.toNat_inj.1 (Int.ofNat.inj (compareInts_eq_eq hcompare))
    exact .unsigned k
  · obtain rfl := Value.number.inj hx
    obtain ⟨y, rfl⟩ : ∃ y, n = .float y := by simpa using hn
    exact .float (Floating.key_eq_of_compare? hcompare)

theorem KeyType.admits_cases {ι : Type} {key : KeyType} {k : Value ι}
    (h : key.scalar.admits k = true) :
    (∃ b, k = .bool b) ∨ (∃ text, k = .string text) ∨ (∃ n, k = .number (.signed n)) ∨
      ∃ n, k = .number (.unsigned n) := by
  rcases key.scalar.admits_cases h with ⟨-, h⟩ | ⟨-, h⟩ | ⟨-, n, -, -, h⟩ | ⟨-, n, -, -, h⟩ |
    ⟨t, x, hfloat, -⟩
  · exact .inl h
  · exact .inr (.inl h)
  · exact .inr (.inr (.inl ⟨n, h⟩))
  · exact .inr (.inr (.inr ⟨n, h⟩))
  · cases key <;> exact nomatch hfloat

/-- A key is the same key as itself. -/
theorem Value.sameKey_self {ι : Type} {key : KeyType} {k : Value ι}
    (h : key.scalar.admits k = true) : k.sameKey k = true := by
  rcases KeyType.admits_cases h with ⟨b, rfl⟩ | ⟨text, rfl⟩ | ⟨n, rfl⟩ | ⟨n, rfl⟩ <;>
    exact beq_self_eq_true _

namespace Registry

variable {ι : Type} [DecidableEq ι] (R : Registry ι)

mutual

inductive Agree : Value ι → Value ι → Prop
  | null : Agree .null .null
  | bool (b : Bool) : Agree (.bool b) (.bool b)
  | number {m n : Number} (h : m.Agree n) : Agree (.number m) (.number n)
  | string (s : String) : Agree (.string s) (.string s)
  | list {as bs : List (Value ι)} (h : ItemsAgree as bs) : Agree (.list as) (.list bs)
  | map {as bs : List (Value ι × Value ι)} (hlength : as.length = bs.length)
      (h : PairsAmong as bs) (h' : PairsAmong bs as) : Agree (.map as) (.map bs)
  | record {t : ι} {as bs : List (Value ι)} (h : FieldsAgree (R.describe t).fields as bs) :
      Agree (.record t as) (.record t bs)

inductive ItemsAgree : List (Value ι) → List (Value ι) → Prop
  | nil : ItemsAgree [] []
  | cons {a b : Value ι} {as bs : List (Value ι)} (h : Agree a b) (hs : ItemsAgree as bs) :
      ItemsAgree (a :: as) (b :: bs)

/-- Whether every pair of the first list agrees with one of the second. -/
inductive PairsAmong : List (Value ι × Value ι) → List (Value ι × Value ι) → Prop
  | nil {bs : List (Value ι × Value ι)} : PairsAmong [] bs
  | cons {k v k' v' : Value ι} {as bs : List (Value ι × Value ι)} (hmem : (k', v') ∈ bs)
      (hk : Agree k k') (hv : Agree v v') (hs : PairsAmong as bs) : PairsAmong ((k, v) :: as) bs

/-- Whether two records with the given fields agree in those that can be queried. -/
inductive FieldsAgree : List (Field ι) → List (Value ι) → List (Value ι) → Prop
  | nil : FieldsAgree [] [] []
  | visible {field : Field ι} {fields : List (Field ι)} {a b : Value ι} {as bs : List (Value ι)}
      {name : String} (hname : field.name? = some name) (h : Agree a b)
      (hs : FieldsAgree fields as bs) : FieldsAgree (field :: fields) (a :: as) (b :: bs)
  | hidden {field : Field ι} {fields : List (Field ι)} {a b : Value ι} {as bs : List (Value ι)}
      (hname : field.name? = none) (hs : FieldsAgree fields as bs) :
      FieldsAgree (field :: fields) (a :: as) (b :: bs)

end

variable {R}

mutual

theorem Agree.symm {a b : Value ι} (h : R.Agree a b) : R.Agree b a := by
  cases h with
  | null => exact .null
  | bool b => exact .bool b
  | number h => exact .number h.symm
  | string s => exact .string s
  | list h => exact .list h.symm
  | map hlength h h' => exact .map hlength.symm h' h
  | record h => exact .record h.symm

theorem ItemsAgree.symm {as bs : List (Value ι)} (h : R.ItemsAgree as bs) : R.ItemsAgree bs as := by
  cases h with
  | nil => exact .nil
  | cons h hs => exact .cons h.symm hs.symm

theorem FieldsAgree.symm {fields : List (Field ι)} {as bs : List (Value ι)}
    (h : R.FieldsAgree fields as bs) : R.FieldsAgree fields bs as := by
  cases h with
  | nil => exact .nil
  | visible hname h hs => exact .visible hname h.symm hs.symm
  | hidden hname hs => exact .hidden hname hs.symm

end

/-- Records that agree have the same fields that can be queried, with values that agree. -/
theorem FieldsAgree.fieldOf? {fields : List (Field ι)} {as bs : List (Value ι)}
    (h : R.FieldsAgree fields as bs) (name : String) :
    Option.Rel (fun p q ↦ p.1 = q.1 ∧ R.Agree p.2 q.2) (fieldOf? name fields as)
      (fieldOf? name fields bs) := by
  cases h with
  | nil => exact .none
  | @visible field fields a b as bs name' _ h hs =>
    rw [RecordQuery.fieldOf?, RecordQuery.fieldOf?]
    by_cases hname : field.name? = some name
    · rw [if_pos hname, if_pos hname]
      exact .some ⟨rfl, h⟩
    · rw [if_neg hname, if_neg hname]
      exact hs.fieldOf? name
  | hidden hname hs =>
    rw [RecordQuery.fieldOf?, RecordQuery.fieldOf?, if_neg (by simp [hname]),
      if_neg (by simp [hname])]
    exact hs.fieldOf? name

theorem PairsAmong.exists_mem {as bs : List (Value ι × Value ι)} (h : R.PairsAmong as bs)
    {p : Value ι × Value ι} (hp : p ∈ as) : ∃ q ∈ bs, R.Agree p.1 q.1 ∧ R.Agree p.2 q.2 := by
  match h with
  | .cons hmem hk hv hs =>
    rcases List.mem_cons.1 hp with rfl | hp
    · exact ⟨_, hmem, hk, hv⟩
    · exact hs.exists_mem hp

theorem pairsAmong_iff {as bs : List (Value ι × Value ι)} :
    R.PairsAmong as bs ↔ ∀ p ∈ as, ∃ q ∈ bs, R.Agree p.1 q.1 ∧ R.Agree p.2 q.2 := by
  constructor
  · intro h p hp
    exact h.exists_mem hp
  · intro h
    induction as with
    | nil => exact .nil
    | cons p as ih =>
      obtain ⟨hp, has⟩ := List.forall_mem_cons.1 h
      obtain ⟨q, hq, hk, hv⟩ := hp
      exact .cons hq hk hv (ih has)

section Reflexive

theorem agree_self_of_admits {s : Scalar} {v : Value ι} (h : s.admits v = true) : R.Agree v v := by
  rcases s.admits_cases h with ⟨-, b, rfl⟩ | ⟨-, text, rfl⟩ | ⟨-, n, -, -, rfl⟩ | ⟨-, n, -, -, rfl⟩ |
    ⟨-, x, -, rfl⟩
  · exact .bool b
  · exact .string text
  · exact .number (.refl _)
  · exact .number (.refl _)
  · exact .number (.refl _)

mutual

/-- A value of some type agrees with itself, also where it is not a number. -/
theorem agree_self {type : FieldType ι} {a : Value ι} (h : conforms R.describe type a = true) :
    R.Agree a a := by
  match type, a with
  | .scalar s, a =>
    rw [conforms] at h
    exact agree_self_of_admits h
  | .optional t, .null => exact .null
  | .embedded t, .record u as | .optional t, .record u as =>
    simp only [conforms, Bool.and_eq_true] at h
    exact .record (fieldsAgree_self h.2)
  | .repeated e, .list as =>
    rw [conforms] at h
    exact .list (itemsAgree_self h)
  | .map key e, .map as =>
    rw [conforms] at h
    have hpairs : R.PairsAmong as as := pairsAmong_iff.2 fun p hp ↦ ⟨p, hp, pairAgrees_self h p hp⟩
    exact .map rfl hpairs hpairs
termination_by structural a

theorem itemsAgree_self {type : FieldType ι} {as : List (Value ι)}
    (h : itemsConform R.describe type as = true) : R.ItemsAgree as as := by
  match as with
  | [] => exact .nil
  | a :: as =>
    simp only [itemsConform, Bool.and_eq_true] at h
    exact .cons (agree_self h.1) (itemsAgree_self h.2)
termination_by structural as

theorem pairAgrees_self {key : KeyType} {type : FieldType ι} {as : List (Value ι × Value ι)}
    (h : pairsConform R.describe key type as = true) :
    ∀ p ∈ as, R.Agree p.1 p.1 ∧ R.Agree p.2 p.2 := by
  match as with
  | [] => simp
  | (k, v) :: as =>
    simp only [pairsConform, Bool.and_eq_true] at h
    obtain ⟨⟨⟨hk, hv⟩, -⟩, hpairs⟩ := h
    exact List.forall_mem_cons.2 ⟨⟨agree_self_of_admits hk, agree_self hv⟩, pairAgrees_self hpairs⟩
termination_by structural as

/-- A conforming record agrees with itself, NaN included, unlike under equality. -/
theorem fieldsAgree_self {fields : List (Field ι)} {as : List (Value ι)}
    (h : fieldsConform R.describe fields as = true) : R.FieldsAgree fields as as := by
  match fields, as with
  | [], [] => exact .nil
  | field :: fields, a :: as =>
    simp only [fieldsConform, Bool.and_eq_true] at h
    cases hname : field.name? with
    | none => exact .hidden hname (fieldsAgree_self h.2)
    | some name => exact .visible hname (agree_self h.1) (fieldsAgree_self h.2)
termination_by structural as

end

end Reflexive

section Equality

theorem agree_of_equal_of_admits {s : Scalar} {u v : Value ι} (hu : s.admits u = true)
    (hv : s.admits v = true) (h : R.equal u v = true) : R.Agree u v := by
  cases u with
  | bool b =>
    cases v <;> simp only [equal, Bool.false_eq_true] at h
    obtain rfl := beq_iff_eq.1 h
    exact .bool b
  | number m =>
    cases v <;> simp only [equal, Bool.false_eq_true] at h
    exact .number (Number.agree_of_same hu hv h)
  | string text =>
    cases v <;> simp only [equal, Bool.false_eq_true] at h
    obtain rfl := beq_iff_eq.1 h
    exact .string text
  | null | list | map | record => cases s <;> simp [Scalar.admits] at hu

section Keys

variable {key : KeyType} {k k' : Value ι}

/-- Keys that agree are identical: there is no sign of zero among them. -/
theorem Agree.eq_of_key (h : R.Agree k k') (hk : key.scalar.admits k = true) : k = k' := by
  rcases KeyType.admits_cases hk with ⟨b, rfl⟩ | ⟨text, rfl⟩ | ⟨n, rfl⟩ | ⟨n, rfl⟩
  · cases h
    rfl
  · cases h
    rfl
  · cases h with
    | number h =>
      cases h
      rfl
  · cases h with
    | number h =>
      cases h
      rfl

theorem admits_of_mem {pairs : List (Value ι × Value ι)} {type : FieldType ι}
    (h : pairsConform R.describe key type pairs = true) {p : Value ι × Value ι} (hp : p ∈ pairs) :
    key.scalar.admits p.1 = true ∧ conforms R.describe type p.2 = true := by
  induction pairs with
  | nil => simp at hp
  | cons q pairs ih =>
    obtain ⟨k, v⟩ := q
    simp only [pairsConform, Bool.and_eq_true] at h
    rcases List.mem_cons.1 hp with rfl | hp
    · exact h.1.1
    · exact ih h.2 hp

/-- The keys of a map are distinct. -/
theorem nodup_keys {pairs : List (Value ι × Value ι)} {type : FieldType ι}
    (h : pairsConform R.describe key type pairs = true) : (pairs.map Prod.fst).Nodup := by
  induction pairs with
  | nil => exact List.nodup_nil
  | cons q pairs ih =>
    obtain ⟨k, v⟩ := q
    simp only [pairsConform, Bool.and_eq_true, Bool.not_eq_true', List.any_eq_false] at h
    obtain ⟨⟨⟨hk, -⟩, hnew⟩, hpairs⟩ := h
    refine List.nodup_cons.2 ⟨?_, ih hpairs⟩
    intro hmem
    obtain ⟨p, hp, rfl⟩ := List.mem_map.1 hmem
    exact hnew p hp (Value.sameKey_self hk)

/-- Among maps of one length, with distinct keys, a map that agrees with part of the other one
agrees with all of it. -/
theorem PairsAmong.swap {as bs : List (Value ι × Value ι)} {type : FieldType ι}
    (has : pairsConform R.describe key type as = true)
    (hbs : pairsConform R.describe key type bs = true) (hlength : as.length = bs.length)
    (h : R.PairsAmong as bs) : R.PairsAmong bs as := by
  rw [pairsAmong_iff]
  refine exists_of_nodup_map (nodup_keys has) (nodup_keys hbs) hlength fun p hp ↦ ?_
  obtain ⟨q, hq, hk, hv⟩ := h.exists_mem hp
  exact ⟨q, hq, hk.eq_of_key (admits_of_mem has hp).1, hk.symm, hv.symm⟩

end Keys

mutual

/-- Equal values of one type agree. -/
theorem agree_of_equal {type : FieldType ι} {a b : Value ι}
    (ha : conforms R.describe type a = true) (hb : conforms R.describe type b = true)
    (h : R.equal a b = true) : R.Agree a b := by
  match type, a, b with
  | .scalar s, a, b =>
    rw [conforms] at ha hb
    exact agree_of_equal_of_admits ha hb h
  | .optional t, .null, .null => exact .null
  | .optional t, .null, .record _ _ => simp [equal] at h
  | .optional t, .record _ _, .null => simp [equal] at h
  | .embedded t, .record u as, .record w bs | .optional t, .record u as, .record w bs =>
    simp only [conforms, Bool.and_eq_true, beq_iff_eq] at ha hb
    obtain ⟨rfl, ha⟩ := ha
    obtain ⟨rfl, hb⟩ := hb
    simp only [equal, Bool.and_eq_true] at h
    exact .record (fieldsAgree_of_equal (R.describe w).names_nodup ha hb (fun _ _ ↦ rfl) h.2)
  | .repeated e, .list as, .list bs =>
    rw [conforms] at ha hb
    rw [equal] at h
    exact .list (itemsAgree_of_equal ha hb h)
  | .map key e, .map as, .map bs =>
    rw [conforms] at ha hb
    simp only [equal, Bool.and_eq_true, beq_iff_eq] at h
    have hpairs := pairsAmong_of_within ha hb h.2
    exact .map h.1 hpairs (hpairs.swap ha hb h.1)
termination_by structural a

/-- Equal lists of items of one type agree. -/
theorem itemsAgree_of_equal {type : FieldType ι} {as bs : List (Value ι)}
    (ha : itemsConform R.describe type as = true) (hb : itemsConform R.describe type bs = true)
    (h : R.itemsEqual as bs = true) : R.ItemsAgree as bs := by
  match as, bs with
  | [], [] => exact .nil
  | [], _ :: _ => simp [itemsEqual] at h
  | _ :: _, [] => simp [itemsEqual] at h
  | a :: as, b :: bs =>
    simp only [itemsConform, itemsEqual, Bool.and_eq_true] at ha hb h
    exact .cons (agree_of_equal ha.1 hb.1 h.1) (itemsAgree_of_equal ha.2 hb.2 h.2)
termination_by structural as

/-- Pairs that are found in another map of the type agree with what is found there. -/
theorem pairsAmong_of_within {key : KeyType} {type : FieldType ι}
    {as bs : List (Value ι × Value ι)} (ha : pairsConform R.describe key type as = true)
    (hb : pairsConform R.describe key type bs = true) (h : R.pairsWithin as bs = true) :
    R.PairsAmong as bs := by
  match as with
  | [] => exact .nil
  | (k, v) :: as =>
    simp only [pairsConform, pairsWithin, Bool.and_eq_true, List.any_eq_true] at ha h
    obtain ⟨⟨q, hq, hk, hv⟩, hrest⟩ := h
    obtain ⟨hqk, hqv⟩ := admits_of_mem hb hq
    exact .cons hq (agree_of_equal_of_admits ha.1.1.1 hqk hk) (agree_of_equal ha.1.1.2 hqv hv)
      (pairsAmong_of_within ha.2 hb hrest)
termination_by structural as

/-- Equal records agree; `fields` are the fields from some place on, and `others` with `cs` the
whole second record, where the names of `fields` are found at their place. -/
theorem fieldsAgree_of_equal {fields others : List (Field ι)} {as bs cs : List (Value ι)}
    (hnames : (fields.filterMap Field.name?).Nodup)
    (ha : fieldsConform R.describe fields as = true)
    (hb : fieldsConform R.describe fields bs = true) (hothers : ∀ name ∈ fields.filterMap Field.name?,
      fieldOf? name others cs = fieldOf? name fields bs)
    (h : R.fieldsEqual fields as others cs = true) : R.FieldsAgree fields as bs := by
  match fields, as, bs with
  | [], [], [] => exact .nil
  | field :: fields, a :: as, b :: bs =>
    simp only [fieldsConform, fieldsEqual, Bool.and_eq_true] at ha hb h
    cases hname : field.name? with
    | none =>
      rw [List.filterMap_cons_none hname] at hnames hothers
      refine .hidden hname (fieldsAgree_of_equal hnames ha.2 hb.2 ?_ h.2)
      intro name hmem
      rw [hothers name hmem, fieldOf?, if_neg (by simp [hname])]
    | some name =>
      rw [List.filterMap_cons_some hname, List.nodup_cons] at hnames
      rw [List.filterMap_cons_some hname] at hothers
      have hequal := h.1
      rw [hname] at hequal
      dsimp only at hequal
      rw [hothers name List.mem_cons_self, fieldOf?, if_pos hname] at hequal
      refine .visible hname (agree_of_equal ha.1 hb.1 hequal)
        (fieldsAgree_of_equal hnames.2 ha.2 hb.2 ?_ h.2)
      intro name' hmem
      have hne : name ≠ name' := by
        rintro rfl
        exact hnames.1 hmem
      rw [hothers name' (List.mem_cons_of_mem _ hmem), fieldOf?, if_neg (by simp [hname, hne])]
termination_by structural as

end

end Equality

end Registry

end RecordQuery

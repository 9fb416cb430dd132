import RecordQuery.Declaration.Attribute
import RecordQuery.Proofs.Outcome

/-!
# What record attributes say

The first record attribute of an item counts. It is accepted if it holds a list in which every item
is one that may stand there; a field may be left out or renamed, a type may be named. Of several
texts given to one key the last one is taken.
-/

namespace RecordQuery.Declaration

/-- Whether an attribute is a record attribute, with or without a list of items. -/
def Attribute.isRecord : Attribute → Bool
  | other => false
  | _ => true

def Attribute.items : Attribute → List AttributeItem
  | record items => items
  | _ => []

/-- The text that an item gives to a key. -/
def AttributeItem.text? (key : String) : AttributeItem → Option String
  | assignment key' (.text s) => if key' = key then some s else none
  | _ => none

/-- The items that have a meaning. -/
inductive AttributeItem.IsKnown : AttributeItem → Prop
  | skip : IsKnown (.word "skip")
  | rename {s : String} (h : isSegment s = true) : IsKnown (.assignment "rename" (.text s))
  | name (s : String) : IsKnown (.assignment "name" (.text s))

/-- The items that may stand on a field. -/
inductive AttributeItem.OnField : AttributeItem → Prop
  | skip : OnField (.word "skip")
  | rename {s : String} (h : isSegment s = true) : OnField (.assignment "rename" (.text s))

/-- The items that may stand on a type. -/
inductive AttributeItem.OnType : AttributeItem → Prop
  | name (s : String) : OnType (.assignment "name" (.text s))

/-- Whether the first record attribute, if there is one, is a list of permitted items. -/
def WellFormed (permitted : AttributeItem → Prop) (attributes : List Attribute) : Prop :=
  ∀ first ∈ attributes.find? Attribute.isRecord,
    ∃ items, first = .record items ∧ ∀ item ∈ items, permitted item

/-- The items of the first record attribute. -/
def countedItems (attributes : List Attribute) : List AttributeItem :=
  ((attributes.find? Attribute.isRecord).map Attribute.items).getD []

def RecordAttribute.ofItems (items : List AttributeItem) : RecordAttribute where
  skip := items.contains (.word "skip")
  rename? := (items.filterMap fun item ↦ item.text? "rename").getLast?
  name? := (items.filterMap fun item ↦ item.text? "name").getLast?

section WellFormed

variable {permitted : AttributeItem → Prop} {attributes : List Attribute}
  {items : List AttributeItem}

theorem countedItems_record : countedItems (.record items :: attributes) = items :=
  rfl

theorem wellFormed_record :
    WellFormed permitted (.record items :: attributes) ↔ ∀ item ∈ items, permitted item := by
  simp [WellFormed, Attribute.isRecord]

/-- More can be said of the items of well-formed attributes. -/
theorem WellFormed.and_iff {restriction : AttributeItem → Prop} :
    WellFormed (fun item ↦ permitted item ∧ restriction item) attributes ↔
      WellFormed permitted attributes ∧ ∀ item ∈ countedItems attributes, restriction item := by
  unfold WellFormed countedItems
  cases attributes.find? Attribute.isRecord with
  | none => simp
  | some first => cases first <;> simp [Attribute.items, forall_and]

theorem items_of_not_isRecord {a : Attribute} (h : a.isRecord = false) : a.items = [] := by
  cases a with
  | other => rfl
  | _ => simp [Attribute.isRecord] at h

/-- Where there is no second record attribute the items of all attributes are counted. -/
theorem countedItems_eq_flatMap (h : attributes.countP Attribute.isRecord ≤ 1) :
    countedItems attributes = attributes.flatMap Attribute.items := by
  induction attributes with
  | nil => rfl
  | cons first attributes ih =>
    rw [List.flatMap_cons]
    cases hfirst : first.isRecord with
    | false =>
      rw [List.countP_cons_of_neg (by simp [hfirst])] at h
      rw [items_of_not_isRecord hfirst, List.nil_append, ← ih h, countedItems,
        List.find?_cons_of_neg (by simp [hfirst]), countedItems]
    | true =>
      rw [List.countP_cons_of_pos hfirst] at h
      have hrest : attributes.countP Attribute.isRecord = 0 := by omega
      have hnil : attributes.flatMap Attribute.items = [] := by
        rw [List.flatMap_eq_nil_iff]
        intro a ha
        exact items_of_not_isRecord (Bool.eq_false_iff.2 (List.countP_eq_zero.1 hrest a ha))
      rw [countedItems, List.find?_cons_of_pos hfirst, hnil, List.append_nil]
      rfl

end WellFormed

namespace AttributeItem

variable {item : AttributeItem}

theorem onField_iff : item.OnField ↔ item.IsKnown ∧ item.text? "name" = none := by
  constructor
  · rintro (_ | h)
    · exact ⟨.skip, rfl⟩
    · exact ⟨.rename h, rfl⟩
  · rintro ⟨_ | h | s, hname⟩
    · exact .skip
    · exact .rename h
    · simp [text?] at hname

theorem onType_iff :
    item.OnType ↔ item.IsKnown ∧ item ≠ .word "skip" ∧ item.text? "rename" = none := by
  constructor
  · rintro ⟨s⟩
    exact ⟨.name s, nofun, rfl⟩
  · rintro ⟨_ | h | s, hskip, hrename⟩
    · exact absurd rfl hskip
    · simp [text?] at hrename
    · exact .name s

end AttributeItem

namespace RecordAttribute

variable {a : RecordAttribute} {items : List AttributeItem} {item : AttributeItem}
  {attributes : List Attribute}

/-- The items of an attribute are read one after another, a later `rename` or `name` overriding an
earlier one. -/
theorem ofItems_append_singleton (items : List AttributeItem) (item : AttributeItem) :
    ofItems (items ++ [item]) =
      ⟨(ofItems items).skip || decide (item = .word "skip"),
        (item.text? "rename").or (ofItems items).rename?,
        (item.text? "name").or (ofItems items).name?⟩ := by
  have hlast (key : String) :
      ((items ++ [item]).filterMap fun item ↦ item.text? key).getLast? =
        (item.text? key).or (items.filterMap fun item ↦ item.text? key).getLast? := by
    rw [List.filterMap_append, List.getLast?_append]
    cases hitem : item.text? key <;> simp [hitem]
  simp only [ofItems, hlast, mk.injEq, and_self, and_true]
  simp [eq_comm]

/-- An item is accepted after others if it has a meaning, which is then added to theirs. -/
theorem add_ofItems_eq_ok_iff :
    (ofItems items).add item = .ok a ↔ item.IsKnown ∧ a = ofItems (items ++ [item]) := by
  rw [ofItems_append_singleton]
  generalize ofItems items = b
  constructor
  · intro h
    unfold add at h
    split at h
    next path =>
      split at h
      next hpath =>
        cases h
        subst hpath
        exact ⟨.skip, by simp [AttributeItem.text?]⟩
      next => cases h
    next key value =>
      split at h
      next hkey =>
        obtain ⟨s, hs, hrename⟩ := Outcome.bind_eq_ok_iff.1 h
        cases value <;> cases hs
        split at hrename
        next hsegment =>
          cases hrename
          subst hkey
          exact ⟨.rename hsegment, by simp [AttributeItem.text?]⟩
        next => cases hrename
      next =>
        split at h
        next hkey =>
          obtain ⟨s, hs, hname⟩ := Outcome.bind_eq_ok_iff.1 h
          cases value <;> cases hs
          cases hname
          subst hkey
          exact ⟨.name s, by simp [AttributeItem.text?]⟩
        next => cases h
    next => cases h
  · rintro ⟨_ | hsegment | s, rfl⟩
    · simp [add, AttributeItem.text?]
    · change (if isSegment _ = true then _ else _) = _
      simp [AttributeItem.text?, hsegment]
    · change Except.ok _ = _
      simp [AttributeItem.text?]

/-- Items are accepted after others if each has a meaning. -/
theorem foldlM_add_eq_ok_iff (before : List AttributeItem) :
    items.foldlM add (ofItems before) = .ok a ↔
      (∀ item ∈ items, item.IsKnown) ∧ a = ofItems (before ++ items) := by
  induction items generalizing before with
  | nil =>
    change Except.ok (ofItems before) = Except.ok a ↔ _
    simp [eq_comm]
  | cons item items ih =>
    change ((ofItems before).add item).bind (fun b ↦ items.foldlM add b) = .ok a ↔ _
    rw [Outcome.bind_eq_ok_iff, List.forall_mem_cons]
    constructor
    · rintro ⟨b, hb, h⟩
      obtain ⟨hitem, rfl⟩ := add_ofItems_eq_ok_iff.1 hb
      obtain ⟨hitems, rfl⟩ := (ih _).1 h
      exact ⟨⟨hitem, hitems⟩, by rw [List.append_assoc, List.singleton_append]⟩
    · rintro ⟨⟨hitem, hitems⟩, rfl⟩
      refine ⟨_, add_ofItems_eq_ok_iff.2 ⟨hitem, rfl⟩, (ih _).2 ⟨hitems, ?_⟩⟩
      rw [List.append_assoc, List.singleton_append]

/-- The attributes of an item are read if the first record attribute is well formed. -/
theorem ofAttributes_eq_ok_iff :
    ofAttributes attributes = .ok a ↔
      WellFormed AttributeItem.IsKnown attributes ∧ a = ofItems (countedItems attributes) := by
  fun_induction ofAttributes attributes with
  | case1 =>
    change Except.ok (ofItems []) = Except.ok a ↔ _
    simp [WellFormed, countedItems, eq_comm]
  | case2 items attributes =>
    rw [wellFormed_record, countedItems_record]
    exact foldlM_add_eq_ok_iff []
  | case3 | case4 => simp [WellFormed, Attribute.isRecord]
  | case5 attributes ih => exact ih

/-- Attributes that are read are refused afterwards because of what they say. -/
theorem ofAttributes_unless_eq_ok_iff (refused : RecordAttribute → Bool) (fault : Fault) :
    ((ofAttributes attributes).bind fun b ↦ if refused b then .error fault else .ok b) = .ok a ↔
      (WellFormed AttributeItem.IsKnown attributes ∧
        refused (ofItems (countedItems attributes)) = false) ∧
      a = ofItems (countedItems attributes) := by
  rw [Outcome.bind_eq_ok_iff]
  constructor
  · rintro ⟨b, hb, h⟩
    obtain ⟨hknown, rfl⟩ := ofAttributes_eq_ok_iff.1 hb
    split at h
    next => cases h
    next hrefused =>
      cases h
      exact ⟨⟨hknown, Bool.eq_false_iff.2 hrefused⟩, rfl⟩
  · rintro ⟨⟨hknown, hrefused⟩, rfl⟩
    exact ⟨_, ofAttributes_eq_ok_iff.2 ⟨hknown, rfl⟩, if_neg (by simp [hrefused])⟩

/-- The attributes of a field are read if the first record attribute leaves it out or renames it. -/
theorem ofField_eq_ok_iff :
    ofField attributes = .ok a ↔
      WellFormed AttributeItem.OnField attributes ∧ a = ofItems (countedItems attributes) := by
  have honField : AttributeItem.OnField = fun item ↦ item.IsKnown ∧ item.text? "name" = none := by
    ext item
    exact AttributeItem.onField_iff
  rw [honField, WellFormed.and_iff]
  apply (ofAttributes_unless_eq_ok_iff (·.name?.isSome) .typeItemOnField).trans
  simp [ofItems]

/-- The attributes of a type are read if the first record attribute names it. -/
theorem ofType_eq_ok_iff :
    ofType attributes = .ok a ↔
      WellFormed AttributeItem.OnType attributes ∧ a = ofItems (countedItems attributes) := by
  have honType : AttributeItem.OnType = fun item ↦
      item.IsKnown ∧ item ≠ .word "skip" ∧ item.text? "rename" = none := by
    ext item
    exact AttributeItem.onType_iff
  have hrefused (items : List AttributeItem) :
      ((ofItems items).skip || (ofItems items).rename?.isSome) = false ↔
        ∀ item ∈ items, item ≠ .word "skip" ∧ item.text? "rename" = none := by
    simp only [ofItems, Bool.or_eq_false_iff, List.contains_eq_mem, decide_eq_false_iff_not,
      Option.isSome_eq_false_iff, Option.isNone_iff_eq_none, List.getLast?_eq_none_iff,
      List.filterMap_eq_nil_iff]
    constructor
    · rintro ⟨hskip, hrename⟩ item hitem
      exact ⟨fun h ↦ hskip (h ▸ hitem), hrename item hitem⟩
    · intro h
      exact ⟨fun hskip ↦ (h _ hskip).1 rfl, fun item hitem ↦ (h item hitem).2⟩
  rw [honType, WellFormed.and_iff, ← hrefused]
  exact ofAttributes_unless_eq_ok_iff (fun b ↦ b.skip || b.rename?.isSome) .fieldItemOnType

end RecordAttribute

end RecordQuery.Declaration

import Mathlib.Data.List.Nodup
import RecordQuery.Declaration.Derive
import RecordQuery.Proofs.Declaration.Attributes
import RecordQuery.Proofs.FieldPath

/-!
# Derived record types

A record type is derived from a declaration exactly if it has named fields and no parameters, its
attributes are well formed and the names of the fields that are not left out are distinct segments.
The three tables of the record type are then made from one list of fields, so that a name stands for
the same field whether it is described, read or written.
-/

namespace RecordQuery.Declaration

namespace FieldDeclaration

variable {f : FieldDeclaration}

def isSkipped (f : FieldDeclaration) : Bool :=
  (countedItems f.attributes).contains (.word "skip")

/-- The name that a field is queried by: the new name that it is given, or else its identifier. -/
def queryName (f : FieldDeclaration) : String :=
  ((countedItems f.attributes).filterMap fun item ↦ item.text? "rename").getLast?.getD
    (plainName f.identifier)

/-- A field is read exactly when its record attribute is well formed on a field, and has a query
name unless it is skipped. -/
theorem queryName?_eq_ok_iff {name? : Option String} :
    f.queryName? = .ok name? ↔ WellFormed AttributeItem.OnField f.attributes ∧
      name? = if f.isSkipped then none else some f.queryName := by
  change (RecordAttribute.ofField f.attributes).bind _ = .ok name? ↔ _
  rw [Outcome.bind_eq_ok_iff]
  constructor
  · rintro ⟨a, ha, h⟩
    obtain ⟨hattributes, rfl⟩ := RecordAttribute.ofField_eq_ok_iff.1 ha
    cases h
    exact ⟨hattributes, rfl⟩
  · rintro ⟨hattributes, rfl⟩
    exact ⟨_, RecordAttribute.ofField_eq_ok_iff.2 ⟨hattributes, rfl⟩, rfl⟩

/-- The items of all record attributes of a field. -/
def items (f : FieldDeclaration) : List AttributeItem :=
  f.attributes.flatMap Attribute.items

/-- The new names that a field is given in any record attribute. -/
def newNames (f : FieldDeclaration) : List String :=
  f.items.filterMap fun item ↦ item.text? "rename"

/-- A new name without an alternative is the name that the field is queried by. -/
theorem queryName_of_newNames {name : String} (h : f.attributes.countP Attribute.isRecord ≤ 1)
    (hname : name ∈ f.newNames) (hsame : ∀ other ∈ f.newNames, other = name) :
    f.queryName = name := by
  rw [queryName, countedItems_eq_flatMap h]
  change f.newNames.getLast?.getD _ = name
  cases hlast : f.newNames.getLast? with
  | none => simp [List.getLast?_eq_none_iff.1 hlast] at hname
  | some last => exact hsame last (List.mem_of_getLast? hlast)

end FieldDeclaration

/-- The fields that are not left out. -/
def listed (fields : List FieldDeclaration) : List FieldDeclaration :=
  fields.filter fun f ↦ !f.isSkipped

/-- The record type with the given fields, each under its query name. -/
def DerivedRecord.ofFields (schemaName : String) (fields : List FieldDeclaration) :
    DerivedRecord where
  schemaName := schemaName
  types := fields.map fun f ↦ (f.queryName, f.type)
  readers := fields.map fun f ↦ (f.queryName, f.identifier)
  writers := fields.map fun f ↦ (f.queryName, f.identifier)

variable {fields : List FieldDeclaration} {f : FieldDeclaration} {schema : String}
  {seen : List String} {r : DerivedRecord}

theorem listed_cons_of_skipped (h : f.isSkipped = true) (fields : List FieldDeclaration) :
    listed (f :: fields) = listed fields :=
  List.filter_cons_of_neg (by simp [h])

theorem listed_cons_of_not_skipped (h : f.isSkipped = false) (fields : List FieldDeclaration) :
    listed (f :: fields) = f :: listed fields :=
  List.filter_cons_of_pos (by simp [h])

/-- A field that is left out adds nothing; another one adds its name, which has to be a new
segment. -/
theorem deriveFields_cons_eq_ok_iff :
    deriveFields schema seen (f :: fields) = .ok r ↔
      WellFormed AttributeItem.OnField f.attributes ∧
        if f.isSkipped then deriveFields schema seen fields = .ok r
        else isSegment f.queryName = true ∧ f.queryName ∉ seen ∧
          ∃ r', deriveFields schema (f.queryName :: seen) fields = .ok r' ∧
            r = r'.addField f.queryName f := by
  rw [deriveFields]
  change f.queryName?.bind _ = .ok r ↔ _
  rw [Outcome.bind_eq_ok_iff]
  simp only [FieldDeclaration.queryName?_eq_ok_iff, and_assoc, exists_and_left, exists_eq_left]
  refine and_congr_right fun _ ↦ ?_
  cases f.isSkipped with
  | true => exact Iff.rfl
  | false =>
    simp only [Bool.false_eq_true, if_false]
    split
    next hsegment => simp_all
    next hsegment =>
      split
      next hseen => simp [hseen]
      next hseen =>
        change (deriveFields schema (f.queryName :: seen) fields).map _ = .ok r ↔ _
        rw [Outcome.map_eq_ok_iff]
        constructor
        · rintro ⟨r', hr', rfl⟩
          exact ⟨by simpa using hsegment, hseen, r', hr', rfl⟩
        · rintro ⟨-, -, r', hr', rfl⟩
          exact ⟨r', hr', rfl⟩

/-- A record type is derived from fields if the attributes of each are well formed and the names of
those that are not left out are distinct path segments, unlike the names before. -/
theorem deriveFields_eq_ok_iff :
    deriveFields schema seen fields = .ok r ↔
      (∀ f ∈ fields, WellFormed AttributeItem.OnField f.attributes) ∧
      (∀ f ∈ listed fields, isSegment f.queryName = true ∧ f.queryName ∉ seen) ∧
      ((listed fields).map FieldDeclaration.queryName).Nodup ∧
      r = .ofFields schema (listed fields) := by
  induction fields generalizing seen r with
  | nil =>
    constructor
    · intro h
      cases h
      exact ⟨nofun, nofun, List.nodup_nil, rfl⟩
    · rintro ⟨-, -, -, rfl⟩
      rfl
  | cons f fields ih =>
    rw [deriveFields_cons_eq_ok_iff, List.forall_mem_cons]
    cases hskip : f.isSkipped with
    | true =>
      rw [if_pos rfl, ih, listed_cons_of_skipped hskip, and_assoc]
    | false =>
      rw [listed_cons_of_not_skipped hskip, List.forall_mem_cons, List.map_cons, List.nodup_cons]
      simp only [Bool.false_eq_true, if_false, ih]
      constructor
      · rintro ⟨hf, hsegment, hseen, r', ⟨hfields, hlisted, hnodup, rfl⟩, rfl⟩
        refine ⟨⟨hf, hfields⟩, ⟨⟨hsegment, hseen⟩, ?_⟩, ⟨?_, hnodup⟩, rfl⟩
        · intro g hg
          exact (hlisted g hg).imp_right fun h hmem ↦ h (List.mem_cons_of_mem _ hmem)
        · intro h
          obtain ⟨g, hg, hname⟩ := List.mem_map.1 h
          exact (hlisted g hg).2 (hname ▸ List.mem_cons_self)
      · rintro ⟨⟨hf, hfields⟩, ⟨⟨hsegment, hseen⟩, hlisted⟩, ⟨hnew, hnodup⟩, rfl⟩
        refine ⟨hf, hsegment, hseen, _, ⟨hfields, ?_, hnodup, rfl⟩, rfl⟩
        intro g hg
        refine (hlisted g hg).imp_right (List.not_mem_cons_of_ne_of_not_mem ?_)
        intro hname
        exact hnew (hname ▸ List.mem_map_of_mem hg)

/-- The name of the schema: the name that the type is given, or else its identifier. -/
def schemaName (d : Declaration) : String :=
  ((countedItems d.attributes).filterMap fun item ↦ item.text? "name").getLast?.getD d.identifier

/-- Whether a declaration declares a record type with the given fields. -/
structure Declares (d : Declaration) (fields : List FieldDeclaration) : Prop where
  not_generic : d.isGeneric = false
  body_eq : d.body = .fields fields
  type_attributes : WellFormed AttributeItem.OnType d.attributes
  field_attributes : ∀ f ∈ fields, WellFormed AttributeItem.OnField f.attributes
  names_segments : ∀ f ∈ listed fields, isSegment f.queryName = true
  names_nodup : ((listed fields).map FieldDeclaration.queryName).Nodup

/-- Exactly the declarations of record types are accepted, and of each the fields that are not left
out make the record type. -/
theorem derive_eq_ok_iff {d : Declaration} :
    d.derive = .ok r ↔
      ∃ fields, d.Declares fields ∧ r = .ofFields d.schemaName (listed fields) := by
  constructor
  · intro h
    rw [derive] at h
    split at h
    next => cases h
    next hgeneric =>
      split at h
      next fields hbody =>
        obtain ⟨a, ha, h⟩ := Outcome.bind_eq_ok_iff.1 h
        obtain ⟨htype, rfl⟩ := RecordAttribute.ofType_eq_ok_iff.1 ha
        obtain ⟨hfields, hnames, hnodup, rfl⟩ := deriveFields_eq_ok_iff.1 h
        exact ⟨fields, ⟨Bool.eq_false_iff.2 hgeneric, hbody, htype, hfields,
          fun f hf ↦ (hnames f hf).1, hnodup⟩, rfl⟩
      all_goals cases h
  · rintro ⟨fields, hd, rfl⟩
    rw [derive, hd.not_generic, hd.body_eq, if_neg Bool.false_ne_true]
    apply Outcome.bind_eq_ok_iff.2
    refine ⟨_, RecordAttribute.ofType_eq_ok_iff.2 ⟨hd.type_attributes, rfl⟩, ?_⟩
    exact deriveFields_eq_ok_iff.2 ⟨hd.field_attributes,
      fun f hf ↦ ⟨hd.names_segments f hf, List.not_mem_nil⟩, hd.names_nodup, rfl⟩

namespace DerivedRecord

/-- Whether the tables of a record type are made from the given fields, in their order. -/
structure Lists (r : DerivedRecord) (fields : List FieldDeclaration) : Prop where
  types_eq : r.types = fields.map fun f ↦ (f.queryName, f.type)
  readers_eq : r.readers = fields.map fun f ↦ (f.queryName, f.identifier)
  writers_eq : r.writers = fields.map fun f ↦ (f.queryName, f.identifier)

/-- Whether a field is described, read and written under a name. -/
structure Exposes (r : DerivedRecord) (name : String) (f : FieldDeclaration) : Prop where
  type?_eq : r.type? name = some f.type
  reader?_eq : r.reader? name = some f.identifier
  writer?_eq : r.writer? name = some f.identifier

/-- Whether no field is described, read or written under a name. -/
structure Lacks (r : DerivedRecord) (name : String) : Prop where
  type?_eq : r.type? name = none
  reader?_eq : r.reader? name = none
  writer?_eq : r.writer? name = none

/-- Looking a name up in a table made of the fields finds the value of the first field with that
name. -/
theorem lookup_map_eq (key value : FieldDeclaration → String) (name : String)
    (fields : List FieldDeclaration) :
    (fields.map fun f ↦ (key f, value f)).lookup name =
      (fields.find? fun f ↦ name == key f).map value := by
  induction fields with
  | nil => rfl
  | cons f fields ih =>
    rw [List.map_cons, List.lookup_cons, List.find?_cons, ih]
    cases name == key f <;> rfl

/-- The derived tables list the same fields, in the order of the declaration. -/
theorem lists_ofFields (schemaName : String) (fields : List FieldDeclaration) :
    (ofFields schemaName fields).Lists fields :=
  ⟨rfl, rfl, rfl⟩

/-- Under a name the tables hold the first field that has it. -/
theorem Lists.exposes_or_lacks (h : r.Lists fields) (name : String) :
    (∃ f ∈ fields, f.queryName = name ∧ r.Exposes name f) ∨
      (∀ f ∈ fields, f.queryName ≠ name) ∧ r.Lacks name := by
  have htype := lookup_map_eq FieldDeclaration.queryName FieldDeclaration.type name fields
  have hidentifier :=
    lookup_map_eq FieldDeclaration.queryName FieldDeclaration.identifier name fields
  cases hfind : fields.find? fun f ↦ name == f.queryName with
  | some f =>
    rw [hfind] at htype hidentifier
    have hname := List.find?_some hfind
    refine .inl ⟨f, List.mem_of_find?_eq_some hfind, (beq_iff_eq.1 hname).symm, ?_, ?_, ?_⟩
    · rw [type?, h.types_eq, htype, Option.map_some]
    · rw [reader?, h.readers_eq, hidentifier, Option.map_some]
    · rw [writer?, h.writers_eq, hidentifier, Option.map_some]
  | none =>
    rw [hfind] at htype hidentifier
    refine .inr ⟨?_, ?_, ?_, ?_⟩
    · intro f hf hname
      exact List.find?_eq_none.1 hfind f hf (beq_iff_eq.2 hname.symm)
    · rw [type?, h.types_eq, htype, Option.map_none]
    · rw [reader?, h.readers_eq, hidentifier, Option.map_none]
    · rw [writer?, h.writers_eq, hidentifier, Option.map_none]

/-- Under the name of a listed field, which no other one has, the tables hold that field. -/
theorem Lists.exposes (h : r.Lists fields)
    (hnodup : (fields.map FieldDeclaration.queryName).Nodup) (hf : f ∈ fields) :
    r.Exposes f.queryName f := by
  rcases h.exposes_or_lacks f.queryName with ⟨g, hg, hname, hexposes⟩ | ⟨hne, -⟩
  · rwa [List.inj_on_of_nodup_map hnodup hg hf hname] at hexposes
  · exact absurd rfl (hne f hf)

end DerivedRecord

/-- Exactly the declarations of record types are accepted. The tables of the record type then hold
the fields that are not left out, in their order and under the same names, so that of every name
either all tables hold one field or none holds any; and every name is a path. -/
theorem derive_coherent (d : Declaration) :
    ((∃ r, d.derive = .ok r) ↔ ∃ fields, d.Declares fields) ∧
    ∀ r, d.derive = .ok r → ∃ fields, d.body = .fields fields ∧ r.schemaName = d.schemaName ∧
      r.Lists (listed fields) ∧
      (∀ name, (∃ f ∈ listed fields, f.queryName = name ∧ r.Exposes name f) ∨
        (∀ f ∈ listed fields, f.queryName ≠ name) ∧ r.Lacks name) ∧
      ∀ f ∈ listed fields, ∃ path, FieldPath.parse f.queryName = .ok path ∧
        path.segments = [f.queryName] := by
  constructor
  · constructor
    · rintro ⟨r, hr⟩
      obtain ⟨fields, hd, -⟩ := derive_eq_ok_iff.1 hr
      exact ⟨fields, hd⟩
    · rintro ⟨fields, hd⟩
      exact ⟨_, derive_eq_ok_iff.2 ⟨fields, hd, rfl⟩⟩
  · intro r hr
    obtain ⟨fields, hd, rfl⟩ := derive_eq_ok_iff.1 hr
    have hlists := DerivedRecord.lists_ofFields d.schemaName (listed fields)
    exact ⟨fields, hd.body_eq, rfl, hlists, hlists.exposes_or_lacks,
      fun f hf ↦ FieldPath.exists_parse_segment (hd.names_segments f hf)⟩

/-- A renamed field, one whose identifier is a keyword and one that is left out. -/
def bookFields : List FieldDeclaration :=
  [⟨"display_title", "String", [.other, .record [.assignment "rename" (.text "title")]]⟩,
    ⟨"r#type", "String", []⟩, ⟨"cache_key", "u64", [.record [.word "skip"], .other]⟩]

/-- A declaration of books in a library. -/
def bookDeclaration : Declaration :=
  ⟨"Book", "", [.record [.assignment "name" (.text "library.Book")]], .fields bookFields⟩

theorem derive_coherent_book : ∃ r, bookDeclaration.derive = .ok r ∧ r.schemaName = "library.Book" ∧
    r.Lists [⟨"display_title", "String", [.other, .record [.assignment "rename" (.text "title")]]⟩,
      ⟨"r#type", "String", []⟩] ∧
    (∃ f, r.Exposes "type" f) ∧ r.Lacks "cache_key" := by
  obtain ⟨r, hr⟩ : ∃ r, bookDeclaration.derive = .ok r :=
    Outcome.exists_eq_ok_of_isOk (by decide)
  obtain ⟨fields, hbody, hname, hlists, hnames, -⟩ := (derive_coherent bookDeclaration).2 r hr
  obtain rfl : bookFields = fields := Body.fields.inj hbody
  refine ⟨r, hr, hname, hlists, ?_, ?_⟩
  · rcases hnames "type" with ⟨f, -, -, hf⟩ | ⟨hne, -⟩
    · exact ⟨f, hf⟩
    · exact absurd rfl (hne ⟨"r#type", "String", []⟩ (by decide))
  · have hne : ∀ f ∈ listed bookFields, f.queryName ≠ "cache_key" := by decide
    rcases hnames "cache_key" with ⟨f, hf, hname, -⟩ | ⟨-, hlacks⟩
    · exact absurd hname (hne f hf)
    · exact hlacks

/-- Nothing that the only record attribute of a field says is passed over: the field is left out
exactly if it says so, and otherwise the new name that it gives is the one that the field is exposed
under. -/
theorem attributes_heeded {d : Declaration} (hr : d.derive = .ok r)
    (hbody : d.body = .fields fields) :
    r.Lists (listed fields) ∧
    ∀ f ∈ fields, f.attributes.countP Attribute.isRecord ≤ 1 →
      (f ∉ listed fields ↔ .word "skip" ∈ f.items) ∧
      ∀ name ∈ f.newNames, (∀ other ∈ f.newNames, other = name) → f ∈ listed fields →
        r.Exposes name f := by
  obtain ⟨fields', hd, rfl⟩ := derive_eq_ok_iff.1 hr
  obtain rfl : fields' = fields := Body.fields.inj (hd.body_eq.symm.trans hbody)
  have hlists := DerivedRecord.lists_ofFields d.schemaName (listed fields')
  refine ⟨hlists, ?_⟩
  intro f hf hone
  constructor
  · have hskipped : f.isSkipped = true ↔ .word "skip" ∈ f.items := by
      rw [FieldDeclaration.isSkipped, countedItems_eq_flatMap hone, List.contains_iff_mem]
      exact Iff.rfl
    rw [← hskipped, listed, List.mem_filter]
    simp [hf]
  · intro name hname hsame hlisted
    rw [← FieldDeclaration.queryName_of_newNames hone hname hsame]
    exact hlists.exposes hd.names_nodup hlisted

theorem attributes_heeded_book : ∃ r, bookDeclaration.derive = .ok r ∧
    (∀ f ∈ bookFields, f.attributes.countP Attribute.isRecord ≤ 1) ∧
    r.Exposes "title" ⟨"display_title", "String",
      [.other, .record [.assignment "rename" (.text "title")]]⟩ := by
  obtain ⟨r, hr⟩ : ∃ r, bookDeclaration.derive = .ok r :=
    Outcome.exists_eq_ok_of_isOk (by decide)
  have h := (attributes_heeded hr rfl).2 _ (List.mem_cons_self : _ ∈ bookFields) (by decide)
  exact ⟨r, hr, by decide, h.2 "title" (by decide) (by decide) (by decide)⟩

/-- A field with two record attributes of which the second one leaves it out. -/
def annotatedField : FieldDeclaration :=
  ⟨"secret", "String", [.record [.assignment "rename" (.text "note")], .record [.word "skip"]]⟩

/-- What the second record attribute of a field says is passed over. -/
theorem skip_passed_over : ∃ r, derive ⟨"Book", "", [], .fields [annotatedField]⟩ = .ok r ∧
    .word "skip" ∈ annotatedField.items ∧ r.Exposes "note" annotatedField :=
  ⟨_, rfl, by decide, rfl, rfl, rfl⟩

end RecordQuery.Declaration

import RecordQuery.Proofs.Filter.Search
import RecordQuery.Proofs.Record.Agreement

/-!
# What a search visits

The records that a search visits are the record itself and, from each of them, the records that its
singular fields hold and the elements of its repeated fields. In a visited record it looks at the
text fields, at the items of repeated texts and at the keys and values of maps. What stands in the
records that are values of a map is not looked at, nor is a field that cannot be queried.
-/

namespace RecordQuery

section Held

variable {ι : Type}

/-- Whether a field of some type holds a text: as its value, as an item, or as a key or a value of a
map. -/
inductive FieldType.HoldsText : FieldType ι → Value ι → String → Prop
  | text (s : String) : HoldsText (.scalar .string) (.string s) s
  | item {items : List (Value ι)} {s : String} (h : .string s ∈ items) :
      HoldsText (.repeated (.scalar .string)) (.list items) s
  | key {e : ElementType ι} {pairs : List (Value ι × Value ι)} {v : Value ι} {s : String}
      (h : (.string s, v) ∈ pairs) : HoldsText (.map .string e) (.map pairs) s
  | value {key : KeyType} {pairs : List (Value ι × Value ι)} {k : Value ι} {s : String}
      (h : (k, .string s) ∈ pairs) : HoldsText (.map key (.scalar .string)) (.map pairs) s

/-- Whether a field of some type holds a record: as its value, or as an element of a list. The values
of a map do not count. -/
inductive FieldType.HoldsRecord : FieldType ι → Value ι → ι → List (Value ι) → Prop
  | embedded (u : ι) (inner : List (Value ι)) :
      HoldsRecord (.embedded u) (.record u inner) u inner
  | optional (u : ι) (inner : List (Value ι)) :
      HoldsRecord (.optional u) (.record u inner) u inner
  | element {items : List (Value ι)} {u : ι} {inner : List (Value ι)}
      (h : .record u inner ∈ items) : HoldsRecord (.repeated (.record u)) (.list items) u inner

variable [DecidableEq ι] {describe : ι → RecordType ι}

theorem eq_scalar_of_conforms_string {type : FieldType ι} {s : String}
    (h : conforms describe type (.string s) = true) : type = .scalar .string := by
  cases type with
  | scalar s => cases s <;> simp [conforms, Scalar.admits] at h ⊢
  | _ => simp [conforms] at h

end Held

variable {ι : Type} [DecidableEq ι] {R : Registry ι}

/-- Whether a search of a record visits another one: the record itself, or a record that a field of a
visited one holds. -/
inductive Registry.Visits (R : Registry ι) (t : ι) (values : List (Value ι)) :
    ι → List (Value ι) → Prop
  | self : Visits R t values t values
  | step {u w : ι} {inner deeper : List (Value ι)} {name : String} {type : FieldType ι}
      {v : Value ι} (h : Visits R t values u inner)
      (hv : fieldOf? name (R.describe u).fields inner = some (type, v))
      (hrecord : type.HoldsRecord v w deeper) : Visits R t values w deeper

/-- Whether a record shows a text to a search: a field of a visited record holds it. -/
def Registry.Shows (R : Registry ι) (t : ι) (values : List (Value ι)) (s : String) : Prop :=
  ∃ u inner name type v, R.Visits t values u inner ∧
    fieldOf? name (R.describe u).fields inner = some (type, v) ∧ type.HoldsText v s

namespace Registry

variable {t u w : ι} {values inner deeper : List (Value ι)} {name s : String}
  {type : FieldType ι} {v : Value ι}

/-- A search visits whatever is visited from a record that it visits. -/
theorem Visits.trans (h : R.Visits t values u inner) (h' : R.Visits u inner w deeper) :
    R.Visits t values w deeper := by
  induction h' with
  | self => exact h
  | step _ hv hrecord ih => exact .step ih hv hrecord

/-- A record shows what is shown by the records that its fields hold. -/
theorem Shows.of_holdsRecord (hv : fieldOf? name (R.describe t).fields values = some (type, v))
    (hrecord : type.HoldsRecord v u inner) (h : R.Shows u inner s) : R.Shows t values s := by
  obtain ⟨w, deeper, name', type', v', hvisits, hfield, htext⟩ := h
  exact ⟨w, deeper, name', type', v', (Visits.step .self hv hrecord).trans hvisits, hfield, htext⟩

theorem HasText.of_holdsText (h : type.HoldsText v s) : R.HasText v s := by
  cases h with
  | text => exact .text s
  | item h => exact .item h (.text s)
  | key h => exact .key h
  | value h => exact .value h

theorem HasText.of_holdsRecord (hrecord : type.HoldsRecord v u inner)
    (h : R.HasText (.record u inner) s) : R.HasText v s := by
  cases hrecord with
  | embedded | optional => exact h
  | element hmem => exact .item hmem h

/-- A text of a visited record is a text of the record. -/
theorem HasText.of_visits (hvisits : R.Visits t values u inner)
    (h : R.HasText (.record u inner) s) : R.HasText (.record t values) s := by
  induction hvisits with
  | self => exact h
  | step _ hv hrecord ih => exact ih (.field hv (.of_holdsRecord hrecord h))

/-- A text in a value of some type is held by the field, or shown by a record that the field holds.
The induction is on the way to the text; the type of the value tells which of the two it is. -/
theorem HasText.holdsText_or (h : R.HasText v s) :
    ∀ {type : FieldType ι}, conforms R.describe type v = true →
      type.HoldsText v s ∨ ∃ u inner, type.HoldsRecord v u inner ∧ R.Shows u inner s := by
  induction h with
  | text s =>
    intro type hv
    obtain rfl := eq_scalar_of_conforms_string hv
    exact .inl (.text s)
  | @item items v s hmem h ih =>
    intro type hv
    obtain ⟨e, rfl, hitems⟩ := exists_repeated_of_conforms hv
    have hvalue := ih (mem_itemsConform hitems hmem)
    cases e with
    | scalar =>
      rcases hvalue with htext | ⟨u, inner, hrecord, -⟩
      · cases htext
        exact .inl (.item hmem)
      · cases hrecord
    | record =>
      rcases hvalue with htext | ⟨u, inner, hrecord, hshows⟩
      · cases htext
      · cases hrecord
        exact .inr ⟨_, _, .element hmem, hshows⟩
  | @key pairs v s hmem =>
    intro type hv
    obtain ⟨key, e, rfl, hpairs⟩ := exists_map_of_conforms hv
    have hkey := (admits_of_mem hpairs hmem).1
    cases key with
    | string => exact .inl (.key hmem)
    | bool | integer => simp [KeyType.scalar, Scalar.admits] at hkey
  | @value pairs k s hmem =>
    intro type hv
    obtain ⟨key, e, rfl, hpairs⟩ := exists_map_of_conforms hv
    have hvalue := eq_scalar_of_conforms_string (admits_of_mem hpairs hmem).2
    cases e with
    | scalar =>
      cases hvalue
      exact .inl (.value hmem)
    | record => cases hvalue
  | @field t values name type v s hfield h ih =>
    intro type' hv
    obtain ⟨htype, hvalues⟩ := embedded_or_optional_of_conforms hv
    have hshows : R.Shows t values s := by
      rcases ih (conforms_of_fieldOf? hvalues hfield) with htext | ⟨u, inner, hrecord, hshows⟩
      · exact ⟨t, values, name, type, v, .self, hfield, htext⟩
      · exact hshows.of_holdsRecord hfield hrecord
    refine .inr ⟨t, values, ?_, hshows⟩
    rcases htype with rfl | rfl
    · exact .embedded t values
    · exact .optional t values

/-- The texts in the value of a record are those that its visited records hold in a field. -/
theorem hasText_iff_shows (hvalues : fieldsConform R.describe (R.describe t).fields values = true) :
    R.HasText (.record t values) s ↔ R.Shows t values s := by
  constructor
  · intro h
    have hrecord : conforms R.describe (.embedded t) (.record t values) = true := by
      rw [conforms, beq_self_eq_true, Bool.true_and]
      exact hvalues
    rcases h.holdsText_or hrecord with htext | ⟨u, inner, hrecord, hshows⟩
    · cases htext
    · cases hrecord
      exact hshows
  · rintro ⟨u, inner, name, type, v, hvisits, hfield, htext⟩
    exact .of_visits hvisits (.field hfield (.of_holdsText htext))

end Registry

variable {t : ι}

/-- A search succeeds if and only if the record shows a text in whose lower-case form what is searched
for occurs. -/
theorem Record.search_iff_shows (r : Record R t) (needle : String) :
    R.search t r.fields needle = true ↔
      ∃ s, R.Shows t r.fields s ∧ needle.toList <:+: (Text.lowercase s).toList := by
  have hsearch : R.search t r.fields needle = R.searchValue needle r.toValue := rfl
  rw [hsearch, Registry.searchValue_iff]
  refine exists_congr fun s ↦ and_congr ?_ Text.contains_iff
  exact Registry.hasText_iff_shows r.fields_conform

section Example

open Sample

/-- The key of a linked node is found, its label is not. -/
example :
    let linked : Value LibraryType := .record .node
      [.ofUnsigned 0, .string "leaf", .number (.float (.zero .binary64 false)), .list [], .map [],
        .record .details [.string "", .bool false, .ofSigned 0], .ofUnsigned 0]
    let node : List (Value LibraryType) :=
      [.ofUnsigned 0, .string "root", .number (.float (.zero .binary64 false)), .list [],
        .map [(.string "next", linked)],
        .record .details [.string "", .bool false, .ofSigned 0], .ofUnsigned 0]
    library.search .node node "next" = true ∧ library.search .node node "leaf" = false := by
  decide +kernel

end Example

end RecordQuery

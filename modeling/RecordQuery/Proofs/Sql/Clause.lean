import RecordQuery.Proofs.Outcome
import RecordQuery.Sql.Table

/-!
# Texts of ORDER BY clauses

A key of an order is resolved to the first column of its path that may be sorted by. A clause is
rendered if each key is resolved and no two of them to columns of one name, and it is put together from
these names in the order of the keys. Otherwise the first key that is not resolved, or that is resolved
to a name that an earlier key has taken, decides the error.
-/

namespace RecordQuery.Sql

variable {table : Table} {path : FieldPath} {column : Column} {columns : List Column}
  {used : List String} {key : OrderKey} {keys : List OrderKey} {texts : List String} {e : Error}

/-- Whether records may be sorted by a column to sort them by a path. -/
def Column.Sorts (column : Column) (path : FieldPath) : Prop :=
  column.sortable = true ∧ column.path = path

instance : Decidable (column.Sorts path) :=
  inferInstanceAs (Decidable (_ ∧ _))

/-- The term of a clause for a key and the column that it is resolved to. -/
def Column.term (column : Column) (key : OrderKey) : String :=
  if key.direction = .desc then column.name ++ " DESC" else column.name

namespace Table

section Lookup

/-- Whether a column is the first one to sort a path by. -/
def IsFirst (table : Table) (path : FieldPath) (column : Column) : Prop :=
  column.Sorts path ∧ ∃ before after, table.columns = before ++ column :: after ∧
    ∀ other ∈ before, ¬ other.Sorts path

theorem find?_sortable (table : Table) (path : FieldPath) :
    (table.sortable.find? fun column ↦ column.path = path) =
      table.columns.find? fun column ↦ column.Sorts path := by
  rw [sortable, List.find?_filter]
  congr! with column
  rw [decide_eq_true_iff]
  rfl

theorem isFirst_iff : table.IsFirst path column ↔
    (table.sortable.find? fun column ↦ column.path = path) = some column := by
  rw [find?_sortable, List.find?_eq_some_iff_append, decide_eq_true_iff]
  simp only [Bool.not_eq_true', decide_eq_false_iff_not]
  rfl

theorem IsFirst.mem_columns (h : table.IsFirst path column) : column ∈ table.columns := by
  obtain ⟨-, before, after, hcolumns, -⟩ := h
  rw [hcolumns]
  exact List.mem_append_right before List.mem_cons_self

theorem columnToSort_eq_ok_iff : table.columnToSort path = .ok column ↔ table.IsFirst path column := by
  rw [isFirst_iff, columnToSort]
  constructor
  · intro h
    split at h
    next first hfirst => rw [hfirst, Except.ok.inj h]
    next => cases h
  · intro h
    rw [h]

theorem columnToSort_eq_error_iff : table.columnToSort path = .error e ↔
    (∀ column ∈ table.columns, ¬ column.Sorts path) ∧
      e = .unsortableField path.text (table.sortable.map fun column ↦ column.path.text) := by
  have hnone : (table.sortable.find? fun column ↦ column.path = path) = none ↔
      ∀ column ∈ table.columns, ¬ column.Sorts path := by
    rw [find?_sortable, List.find?_eq_none]
    simp only [decide_eq_true_iff]
  rw [← hnone, columnToSort]
  constructor
  · intro h
    split at h
    next => cases h
    next hfind => exact ⟨hfind, (Except.error.inj h).symm⟩
  · rintro ⟨hfind, rfl⟩
    rw [hfind]

end Lookup

section Terms

/-- Whether keys are resolved to columns whose names are distinct and have not been used. -/
structure Resolves (table : Table) (used : List String) (keys : List OrderKey) (columns : List Column) :
    Prop where
  first : List.Forall₂ (fun key column ↦ table.IsFirst key.path column) keys columns
  nodup : (columns.map Column.name).Nodup
  fresh : ∀ name ∈ columns.map Column.name, name ∉ used

/-- Whether a key is refused with an error after the given names have been used. -/
inductive Refuses (table : Table) (used : List String) (key : OrderKey) : Error → Prop
  | unsortable (h : ∀ column ∈ table.columns, ¬ column.Sorts key.path) :
      Refuses table used key
        (.unsortableField key.path.text (table.sortable.map fun column ↦ column.path.text))
  | duplicate {column : Column} (h : table.IsFirst key.path column) (hused : column.name ∈ used) :
      Refuses table used key (.duplicateOrderField key.path.text)

theorem Resolves.mem_columns (h : table.Resolves used keys columns) :
    ∀ column ∈ columns, column ∈ table.columns := by
  obtain ⟨hfirst, -, -⟩ := h
  induction hfirst with
  | nil => exact fun _ hmem ↦ absurd hmem List.not_mem_nil
  | cons hcolumn _ ih => exact List.forall_mem_cons.2 ⟨hcolumn.mem_columns, ih⟩

theorem Refuses.mono {used' : List String} (hsub : used ⊆ used') (h : table.Refuses used key e) :
    table.Refuses used' key e := by
  cases h with
  | unsortable h => exact .unsortable h
  | duplicate h hused => exact .duplicate h (hsub hused)

theorem terms_cons (table : Table) (used : List String) (key : OrderKey) (keys : List OrderKey) :
    table.terms used (key :: keys) = (table.columnToSort key.path).bind fun column ↦
      if column.name ∈ used then .error (.duplicateOrderField key.path.text)
      else (table.terms (column.name :: used) keys).map (column.term key :: ·) := by
  rw [terms]
  cases table.columnToSort key.path with
  | error e => rfl
  | ok column => rfl

/-- The terms of further keys are made knowing the columns that the first key has used up. -/
theorem terms_cons_eq_ok_iff : table.terms used (key :: keys) = .ok texts ↔
    ∃ column rest, table.IsFirst key.path column ∧ column.name ∉ used ∧
      table.terms (column.name :: used) keys = .ok rest ∧ texts = column.term key :: rest := by
  rw [terms_cons, Outcome.bind_eq_ok_iff]
  constructor
  · rintro ⟨column, hcolumn, h⟩
    split at h
    next => cases h
    next hused =>
      obtain ⟨rest, hrest, rfl⟩ := Outcome.map_eq_ok_iff.1 h
      exact ⟨column, rest, columnToSort_eq_ok_iff.1 hcolumn, hused, hrest, rfl⟩
  · rintro ⟨column, rest, hfirst, hused, hrest, rfl⟩
    refine ⟨column, columnToSort_eq_ok_iff.2 hfirst, ?_⟩
    rw [if_neg hused]
    exact Outcome.map_eq_ok_iff.2 ⟨rest, hrest, rfl⟩

theorem terms_cons_eq_error_iff : table.terms used (key :: keys) = .error e ↔
    table.Refuses used key e ∨ ∃ column, table.IsFirst key.path column ∧ column.name ∉ used ∧
      table.terms (column.name :: used) keys = .error e := by
  rw [terms_cons, Outcome.bind_eq_error_iff]
  constructor
  · rintro (h | ⟨column, hcolumn, h⟩)
    · obtain ⟨hnone, rfl⟩ := columnToSort_eq_error_iff.1 h
      exact .inl (.unsortable hnone)
    · have hfirst := columnToSort_eq_ok_iff.1 hcolumn
      split at h
      next hused =>
        obtain rfl := Except.error.inj h
        exact .inl (.duplicate hfirst hused)
      next hused => exact .inr ⟨column, hfirst, hused, Outcome.map_eq_error_iff.1 h⟩
  · rintro (hrefuses | ⟨column, hfirst, hused, h⟩)
    · cases hrefuses with
      | unsortable hnone => exact .inl (columnToSort_eq_error_iff.2 ⟨hnone, rfl⟩)
      | @duplicate column hfirst hused =>
        exact .inr ⟨column, columnToSort_eq_ok_iff.2 hfirst, if_pos hused⟩
    · refine .inr ⟨column, columnToSort_eq_ok_iff.2 hfirst, ?_⟩
      rw [if_neg hused]
      exact Outcome.map_eq_error_iff.2 h

theorem resolves_nil_iff : table.Resolves used [] columns ↔ columns = [] := by
  constructor
  · intro h
    exact List.forall₂_nil_left_iff.1 h.first
  · rintro rfl
    exact ⟨.nil, List.nodup_nil, nofun⟩

theorem resolves_cons_iff : table.Resolves used (key :: keys) columns ↔
    ∃ column rest, table.IsFirst key.path column ∧ column.name ∉ used ∧
      table.Resolves (column.name :: used) keys rest ∧ columns = column :: rest := by
  constructor
  · rintro ⟨hfirst, hnodup, hfresh⟩
    obtain ⟨column, rest, hcolumn, hrest, rfl⟩ := List.forall₂_cons_left_iff.1 hfirst
    obtain ⟨hname, hnodup⟩ := List.nodup_cons.1 hnodup
    obtain ⟨hused, hfresh⟩ := List.forall_mem_cons.1 hfresh
    refine ⟨column, rest, hcolumn, hused, ⟨hrest, hnodup, fun name hmem ↦ ?_⟩, rfl⟩
    rw [List.mem_cons, not_or]
    refine ⟨?_, hfresh name hmem⟩
    rintro rfl
    exact hname hmem
  · rintro ⟨column, rest, hcolumn, hused, ⟨hrest, hnodup, hfresh⟩, rfl⟩
    refine ⟨.cons hcolumn hrest, List.nodup_cons.2 ⟨fun hmem ↦ ?_, hnodup⟩,
      List.forall_mem_cons.2 ⟨hused, fun name hmem ↦ ?_⟩⟩
    · exact hfresh _ hmem List.mem_cons_self
    · exact fun h ↦ hfresh name hmem (List.mem_cons_of_mem _ h)

/-- The terms of keys are put together from the columns that they are resolved to. -/
theorem terms_eq_ok_iff : table.terms used keys = .ok texts ↔
    ∃ columns, table.Resolves used keys columns ∧ texts = List.zipWith Column.term columns keys := by
  induction keys generalizing used texts with
  | nil =>
    simp only [resolves_nil_iff, exists_eq_left]
    exact ⟨fun h ↦ (Except.ok.inj h).symm, fun h ↦ congrArg Except.ok h.symm⟩
  | cons key keys ih =>
    rw [terms_cons_eq_ok_iff]
    simp only [resolves_cons_iff, ih]
    constructor
    · rintro ⟨column, _, hfirst, hused, ⟨columns, hresolves, rfl⟩, rfl⟩
      exact ⟨column :: columns, ⟨column, columns, hfirst, hused, hresolves, rfl⟩, rfl⟩
    · rintro ⟨_, ⟨column, columns, hfirst, hused, hresolves, rfl⟩, rfl⟩
      exact ⟨column, _, hfirst, hused, ⟨columns, hresolves, rfl⟩, rfl⟩

/-- The first key that is refused after the keys before it have been resolved decides the error. -/
theorem terms_eq_error_iff : table.terms used keys = .error e ↔
    ∃ before key after columns, keys = before ++ key :: after ∧ table.Resolves used before columns ∧
      table.Refuses (columns.map Column.name ++ used) key e := by
  induction keys generalizing used with
  | nil =>
    constructor
    · exact nofun
    · rintro ⟨before, key, after, columns, h, -⟩
      exact absurd h.symm (by simp)
  | cons key keys ih =>
    -- either the first key is refused, or it is resolved and its name is used when the others are
    rw [terms_cons_eq_error_iff]
    constructor
    · rintro (h | ⟨column, hfirst, hused, h⟩)
      · exact ⟨[], key, keys, [], rfl, resolves_nil_iff.2 rfl, h⟩
      · obtain ⟨before, refused, after, columns, rfl, hresolves, hrefuses⟩ := ih.1 h
        exact ⟨key :: before, refused, after, column :: columns, rfl,
          resolves_cons_iff.2 ⟨column, columns, hfirst, hused, hresolves, rfl⟩,
          hrefuses.mono List.perm_middle.subset⟩
    · rintro ⟨before, refused, after, columns, h, hresolves, hrefuses⟩
      cases before with
      | nil =>
        obtain ⟨rfl, rfl⟩ := List.cons.inj h
        obtain rfl := resolves_nil_iff.1 hresolves
        exact .inl hrefuses
      | cons first before =>
        obtain ⟨rfl, rfl⟩ := List.cons.inj h
        obtain ⟨column, columns, hfirst, hused, hrest, rfl⟩ := resolves_cons_iff.1 hresolves
        exact .inr ⟨column, hfirst, hused, ih.2 ⟨before, refused, after, columns, rfl, hrest,
          hrefuses.mono List.perm_middle.symm.subset⟩⟩

end Terms

section Clause

/-- The clause for keys and the columns that they are resolved to. -/
def clauseText (keys : List OrderKey) (columns : List Column) : String :=
  if keys = [] then ""
  else "ORDER BY " ++ ", ".intercalate (List.zipWith Column.term columns keys) ++ "\n"

theorem clause_eq (table : Table) (order : Order) :
    table.clause order = (table.terms [] order.keys).map fun terms ↦
      if order.keys = [] then "" else "ORDER BY " ++ ", ".intercalate terms ++ "\n" := by
  cases hkeys : order.keys with
  | nil => simp [clause, hkeys, terms, Except.map]
  | cons key keys => simp [clause, hkeys]

/-- A clause is rendered exactly if the keys of the order are resolved to columns of distinct names, and
it holds the names of these columns of the table. The first key that cannot be resolved, or that is
resolved to a name that an earlier key has taken, is the one that an error is about. -/
theorem clause_iff_resolves (table : Table) (order : Order) :
    (∀ s, table.clause order = .ok s ↔
      ∃ columns, table.Resolves [] order.keys columns ∧ (∀ column ∈ columns, column ∈ table.columns) ∧
        s = clauseText order.keys columns) ∧
    ∀ e, table.clause order = .error e ↔
      ∃ before key after columns, order.keys = before ++ key :: after ∧
        table.Resolves [] before columns ∧ table.Refuses (columns.map Column.name) key e := by
  constructor
  · intro s
    rw [clause_eq, Outcome.map_eq_ok_iff]
    simp only [terms_eq_ok_iff]
    constructor
    · rintro ⟨_, ⟨columns, hresolves, rfl⟩, rfl⟩
      exact ⟨columns, hresolves, hresolves.mem_columns, rfl⟩
    · rintro ⟨columns, hresolves, -, rfl⟩
      exact ⟨_, ⟨columns, hresolves, rfl⟩, rfl⟩
  · intro e
    rw [clause_eq, Outcome.map_eq_error_iff, terms_eq_error_iff]
    simp only [List.append_nil]

end Clause

end Table

end RecordQuery.Sql

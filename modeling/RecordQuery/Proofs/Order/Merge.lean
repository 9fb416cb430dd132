import RecordQuery.Order.Basic

/-!
# Orders without repeated paths

Keys form an order exactly if no path occurs among them twice. An order followed by a default one is put
together without that check and would pass it, since only keys with new paths are added. Whether a path
is new depends on the paths named so far and not on how they came together, so orders that follow one
another can be grouped in any way, and an order that has been added already adds nothing.
-/

namespace RecordQuery.Order

variable {order : Order} {keys : List OrderKey} {key : OrderKey} {path : FieldPath} {a b c : Order}

section Distinct

theorem repeated?_go_eq_none_iff {seen : List FieldPath} :
    repeated?.go seen keys = none ↔
      (keys.map OrderKey.path).Nodup ∧ ∀ path ∈ keys.map OrderKey.path, path ∉ seen := by
  constructor
  · exact nodup_of_repeated?_go
  · intro h
    induction keys generalizing seen with
    | nil => rfl
    | cons key keys ih =>
      obtain ⟨hnodup, hseen⟩ := h
      obtain ⟨hkey, hkeys⟩ := List.nodup_cons.1 hnodup
      obtain ⟨hfirst, hrest⟩ := List.forall_mem_cons.1 hseen
      rw [repeated?.go, if_neg hfirst]
      refine ih ⟨hkeys, fun path hpath ↦ ?_⟩
      rw [List.mem_cons, not_or]
      refine ⟨?_, hrest path hpath⟩
      rintro rfl
      exact hkey hpath

theorem repeated?_eq_none_iff : repeated? keys = none ↔ (keys.map OrderKey.path).Nodup := by
  rw [repeated?, repeated?_go_eq_none_iff]
  simp

theorem ofKeys_eq_ok_iff : ofKeys keys = .ok order ↔ order.keys = keys := by
  constructor
  · intro h
    unfold ofKeys at h
    split at h
    · cases h
    · rw [← Except.ok.inj h]
  · rintro rfl
    unfold ofKeys
    split
    next path hrepeated =>
      rw [repeated?_eq_none_iff.2 order.nodup] at hrepeated
      cases hrepeated
    next => rfl

/-- Keys form an order exactly if their paths are distinct. -/
theorem exists_ofKeys_iff : (∃ order, ofKeys keys = .ok order) ↔ (keys.map OrderKey.path).Nodup := by
  constructor
  · rintro ⟨order, h⟩
    exact ofKeys_eq_ok_iff.1 h ▸ order.nodup
  · intro h
    exact ⟨⟨keys, h⟩, ofKeys_eq_ok_iff.2 rfl⟩

theorem eq_duplicateField_of_ofKeys {e : Error} (h : ofKeys keys = .error e) :
    ∃ path, e = .invalidOrderBy (.duplicateField path) := by
  unfold ofKeys at h
  split at h
  next path _ => exact ⟨path.text, (Except.error.inj h).symm⟩
  next => cases h

theorem eq_of_keys_eq (h : a.keys = b.keys) : a = b := by
  obtain ⟨keys, hkeys⟩ := a
  obtain rfl : keys = b.keys := h
  rfl

end Distinct

section Merge

theorem keys_thenBy (a b : Order) : (a.thenBy b).keys = a.keys ++ a.newKeys b :=
  rfl

/-- Of a second order only the keys whose paths the first one does not use are new. -/
theorem newKeys_eq (a b : Order) :
    a.newKeys b = b.keys.filter fun key ↦ key.path ∉ a.keys.map OrderKey.path := by
  apply List.filter_congr
  intro key _
  rw [List.contains_eq_mem, decide_not]

theorem mem_newKeys_iff : key ∈ a.newKeys b ↔ key ∈ b.keys ∧ key.path ∉ a.keys.map OrderKey.path := by
  rw [newKeys_eq, List.mem_filter, decide_eq_true_iff]

/-- An order followed by another one names the paths of both. -/
theorem mem_paths_thenBy_iff : path ∈ (a.thenBy b).keys.map OrderKey.path ↔
    path ∈ a.keys.map OrderKey.path ∨ path ∈ b.keys.map OrderKey.path := by
  rw [keys_thenBy, List.map_append, List.mem_append]
  constructor
  · rintro (h | h)
    · exact .inl h
    · obtain ⟨key, hkey, rfl⟩ := List.mem_map.1 h
      exact .inr (List.mem_map_of_mem (mem_newKeys_iff.1 hkey).1)
  · rintro (h | h)
    · exact .inl h
    · by_cases ha : path ∈ a.keys.map OrderKey.path
      · exact .inl ha
      · obtain ⟨key, hkey, rfl⟩ := List.mem_map.1 h
        exact .inr (List.mem_map_of_mem (mem_newKeys_iff.2 ⟨hkey, ha⟩))

theorem newKeys_thenBy_left (a b c : Order) :
    (a.thenBy b).newKeys c = (b.newKeys c).filter fun key ↦ key.path ∉ a.keys.map OrderKey.path := by
  rw [newKeys_eq, newKeys_eq, List.filter_filter]
  apply List.filter_congr
  intro key _
  rw [Bool.eq_iff_iff, Bool.and_eq_true]
  simp only [decide_eq_true_iff, mem_paths_thenBy_iff, not_or]

theorem newKeys_thenBy_right (a b c : Order) :
    a.newKeys (b.thenBy c) =
      a.newKeys b ++ (b.newKeys c).filter fun key ↦ key.path ∉ a.keys.map OrderKey.path := by
  rw [newKeys_eq, newKeys_eq, keys_thenBy, List.filter_append]

theorem newKeys_eq_nil_iff :
    a.newKeys b = [] ↔ ∀ key ∈ b.keys, key.path ∈ a.keys.map OrderKey.path := by
  rw [newKeys_eq, List.filter_eq_nil_iff]
  simp only [decide_eq_true_iff, Decidable.not_not]

theorem thenBy_eq_self (h : a.newKeys b = []) : a.thenBy b = a := by
  apply eq_of_keys_eq
  rw [keys_thenBy, h, List.append_nil]

theorem empty_thenBy (a : Order) : empty.thenBy a = a := by
  apply eq_of_keys_eq
  rw [keys_thenBy, newKeys_eq]
  exact List.filter_eq_self.2 fun key _ ↦ decide_eq_true List.not_mem_nil

theorem thenBy_empty (a : Order) : a.thenBy empty = a :=
  thenBy_eq_self rfl

theorem thenBy_assoc (a b c : Order) : (a.thenBy b).thenBy c = a.thenBy (b.thenBy c) := by
  apply eq_of_keys_eq
  calc ((a.thenBy b).thenBy c).keys
    _ = a.keys ++ a.newKeys b ++ (a.thenBy b).newKeys c := rfl
    _ = a.keys ++ a.newKeys (b.thenBy c) := by
      rw [newKeys_thenBy_left, newKeys_thenBy_right, List.append_assoc]
    _ = (a.thenBy (b.thenBy c)).keys := rfl

theorem thenBy_thenBy_self (a b : Order) : (a.thenBy b).thenBy b = a.thenBy b := by
  apply thenBy_eq_self
  rw [newKeys_eq_nil_iff]
  intro key hkey
  exact mem_paths_thenBy_iff.2 (.inr (List.mem_map_of_mem hkey))

/-- An order followed by another one passes the check for repeated paths. It begins with the keys of the
first order, which the keys of the other one that have new paths follow; the empty order changes nothing
on either side, orders can be grouped in any way, and to add an order again changes nothing. -/
theorem thenBy_laws (a b c : Order) :
    (((a.thenBy b).keys.map OrderKey.path).Nodup ∧
      ofKeys (a.thenBy b).keys = .ok (a.thenBy b)) ∧
    (a.thenBy b).keys.take a.keys.length = a.keys ∧
    (a.thenBy b).keys.drop a.keys.length =
      b.keys.filter (fun key ↦ key.path ∉ a.keys.map OrderKey.path) ∧
    (empty.thenBy a = a ∧ a.thenBy empty = a) ∧
    (a.thenBy b).thenBy c = a.thenBy (b.thenBy c) ∧
    (a.thenBy b).thenBy b = a.thenBy b := by
  have hcheck : ofKeys (a.thenBy b).keys = .ok (a.thenBy b) := ofKeys_eq_ok_iff.2 rfl
  refine ⟨⟨exists_ofKeys_iff.1 ⟨_, hcheck⟩, hcheck⟩, ?_, ?_, ⟨empty_thenBy a, thenBy_empty a⟩,
    thenBy_assoc a b c, thenBy_thenBy_self a b⟩
  · rw [keys_thenBy, List.take_left]
  · rw [keys_thenBy, List.drop_left, newKeys_eq]

end Merge

end RecordQuery.Order

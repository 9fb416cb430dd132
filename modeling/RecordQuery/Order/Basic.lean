import RecordQuery.Error

/-!
# Orders

An order is a list of sort keys, each a path with a direction, in which no path occurs twice. Orders
can be merged with a default order, and have a canonical text that identifies them.
-/

namespace RecordQuery

inductive Direction where
  | asc
  | desc
deriving DecidableEq

namespace Direction

/-- The direction as written in an order. -/
def text : Direction → String
  | asc => "asc"
  | desc => "desc"

def name : Direction → String
  | asc => "Asc"
  | desc => "Desc"

/-- The outcome of a comparison seen in this direction. -/
def apply : Direction → Ordering → Ordering
  | asc, o => o
  | desc, o => o.swap

end Direction

structure OrderKey where
  path : FieldPath
  direction : Direction
deriving DecidableEq

namespace OrderKey

/-- The key as written in an order; the ascending direction is left out. -/
def text (key : OrderKey) : String :=
  match key.direction with
  | .asc => key.path.text
  | .desc => key.path.text ++ " desc"

/-- The text of the key with its direction always shown. -/
def signature (key : OrderKey) : String :=
  key.path.text ++ ":" ++ key.direction.text

end OrderKey

/-- Sort keys with distinct paths, the first one deciding first. -/
structure Order where
  keys : List OrderKey
  nodup : (keys.map OrderKey.path).Nodup
deriving DecidableEq

namespace Order

def empty : Order := ⟨[], List.nodup_nil⟩

/-- The first path that occurs in the list a second time. -/
def repeated? : List OrderKey → Option FieldPath :=
  go []
where
  /-- The first path that occurs in `seen` or earlier in the list. -/
  go (seen : List FieldPath) : List OrderKey → Option FieldPath
    | [] => none
    | key :: keys => if key.path ∈ seen then some key.path else go (key.path :: seen) keys

theorem nodup_of_repeated?_go {seen : List FieldPath} {keys : List OrderKey}
    (h : repeated?.go seen keys = none) :
    (keys.map OrderKey.path).Nodup ∧ ∀ p ∈ keys.map OrderKey.path, p ∉ seen := by
  induction keys generalizing seen with
  | nil => simp
  | cons key keys ih =>
    simp only [repeated?.go] at h
    split at h
    · simp at h
    · rename_i hk
      obtain ⟨hn, hs⟩ := ih h
      refine ⟨List.nodup_cons.2 ⟨fun hm ↦ hs _ hm (by simp), hn⟩, ?_⟩
      intro p hp
      rcases List.mem_cons.1 hp with rfl | hp
      · exact hk
      · exact fun hps ↦ hs p hp (List.mem_cons_of_mem _ hps)

theorem nodup_of_repeated? {keys : List OrderKey} (h : repeated? keys = none) :
    (keys.map OrderKey.path).Nodup :=
  (nodup_of_repeated?_go h).1

/-- The order with the given keys, unless a path occurs twice. -/
def ofKeys (keys : List OrderKey) : Except Error Order :=
  match h : repeated? keys with
  | some path => .error (.invalidOrderBy (.duplicateField path.text))
  | none => .ok ⟨keys, nodup_of_repeated? h⟩

/-- The keys of `other` whose paths do not occur in `order`. -/
def newKeys (order other : Order) : List OrderKey :=
  other.keys.filter fun key ↦ !(order.keys.map OrderKey.path).contains key.path

/-- Appending only the keys whose paths are new keeps the paths of an order distinct. -/
theorem nodup_append_newKeys (order other : Order) :
    ((order.keys ++ order.newKeys other).map OrderKey.path).Nodup := by
  rw [List.map_append, List.nodup_append]
  refine ⟨order.nodup, ?_, ?_⟩
  · exact other.nodup.sublist ((List.filter_sublist).map _)
  · intro p hp q hq hpq
    subst hpq
    obtain ⟨key, hkey, rfl⟩ := List.mem_map.1 hq
    have := (List.mem_filter.1 hkey).2
    simp_all

/-- The order followed by the keys of a default order whose paths it does not have. -/
def thenBy (order default : Order) : Order :=
  ⟨order.keys ++ order.newKeys default, nodup_append_newKeys order default⟩

/-- The order as a text. -/
def text (order : Order) : String :=
  ", ".intercalate (order.keys.map OrderKey.text)

/-- A text that no other order has. -/
def signature (order : Order) : String :=
  "|".intercalate (order.keys.map OrderKey.signature)

end Order

end RecordQuery

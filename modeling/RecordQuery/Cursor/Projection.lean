import RecordQuery.Order.Comparator
import RecordQuery.Record.Edit

/-!
# Projecting records

A record is projected to an order by copying the sort keys into a default record. An embedded record
on the way is created only where the source has one, so that the projection compares like the source
under the order and holds nothing else.
-/

namespace RecordQuery

namespace Registry

variable {ι : Type} [DecidableEq ι] (R : Registry ι)

/-- Copies the value that a list of names leads to from one record of type `t` to another. Nothing
is copied from below a record that is not set. -/
def copyAlong : List String → ι → (source target : List (Value ι)) → Except Error (List (Value ι))
  | [], _, _, target => .ok target
  | name :: names, t, source, target =>
    let fields := (R.describe t).fields
    match fieldOf? name fields source, fieldOf? name fields target with
    | some (_, v), some (type, w) =>
      if names.isEmpty then (R.assign type w v).map fun w ↦ setField name w fields target
      else
        match v, R.inner? type w with
        | .record _ inner, some (u, made) =>
          (copyAlong names u inner made).map fun made ↦ setField name (.record u made) fields target
        | _, _ => .ok target
    | _, _ => .ok target

theorem fieldsConform_copyAlong (names : List String) (t : ι) (source target : List (Value ι))
    {made : List (Value ι)} (ht : fieldsConform R.describe (R.describe t).fields target = true)
    (h : R.copyAlong names t source target = .ok made) :
    fieldsConform R.describe (R.describe t).fields made = true := by
  induction names generalizing t source target made with
  | nil =>
    simp only [copyAlong, Except.ok.injEq] at h
    rwa [← h]
  | cons name names ih =>
    unfold copyAlong at h
    simp only at h
    split at h
    · rename_i v type w _ hw
      have hc := conforms_of_fieldOf? ht hw
      split at h
      · match ha : R.assign type w v with
        | .error e => simp [ha, Except.map] at h
        | .ok new =>
          simp only [ha, Except.map, Except.ok.injEq] at h
          rw [← h]
          exact fieldsConform_setField ht hw (conforms_of_assign R hc ha)
      · split at h
        · rename_i inner u made' hi _
          obtain ⟨hinner, hback⟩ := conforms_of_inner? hc hi
          match hcopy : R.copyAlong names u inner made' with
          | .error e => simp [hcopy, Except.map] at h
          | .ok new =>
            simp only [hcopy, Except.map, Except.ok.injEq] at h
            rw [← h]
            exact fieldsConform_setField ht hw (hback _ (ih u inner made' hinner hcopy))
        · simp only [Except.ok.injEq] at h
          rwa [← h]
    · simp only [Except.ok.injEq] at h
      rwa [← h]

end Registry

namespace Record

variable {ι : Type} [DecidableEq ι] {R : Registry ι} {t : ι}

/-- The target with the value of one path copied from the source. -/
def copy (source target : Record R t) (path : FieldPath) : Except Error (Record R t) :=
  match h : R.copyAlong path.segments t source.fields target.fields with
  | .ok made =>
    .ok ⟨made, R.fieldsConform_copyAlong path.segments t source.fields target.fields
      target.fields_conform h⟩
  | .error e => .error e

/-- The default record with the sort keys of an order copied from a record. The order has to compile
for the type. -/
def project (r : Record R t) (order : Order) : Except Error (Record R t) :=
  match order.compile R t with
  | .error e => .error e
  | .ok _ => order.keys.foldlM (fun target key ↦ r.copy target key.path) default

end Record

end RecordQuery

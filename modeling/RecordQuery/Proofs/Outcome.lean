import Mathlib.Data.List.Forall2

/-!
# Outcomes

When a computation that may fail succeeds.
-/

namespace RecordQuery.Outcome

variable {ε δ α β : Type} {x : Except ε α}

theorem exists_eq_ok_of_isOk (h : x.isOk = true) : ∃ a, x = .ok a := by
  cases x with
  | error e => exact nomatch h
  | ok a => exact ⟨a, rfl⟩

theorem eq_of_toOption_eq {y : Except ε α} (h : x.toOption = y.toOption) (hx : x.isOk = true) :
    x = y := by
  obtain ⟨a, rfl⟩ := exists_eq_ok_of_isOk hx
  cases y with
  | error e => exact nomatch h
  | ok b => exact congrArg Except.ok (Option.some.inj h)

/-- A computation in two steps succeeds exactly if both steps do. -/
theorem bind_eq_ok_iff {f : α → Except ε β} {b : β} :
    x.bind f = .ok b ↔ ∃ a, x = .ok a ∧ f a = .ok b := by
  cases x with
  | error e => exact ⟨nofun, nofun⟩
  | ok a =>
    constructor
    · intro h
      exact ⟨a, rfl, h⟩
    · rintro ⟨a', ha, h⟩
      obtain rfl := Except.ok.inj ha
      exact h

theorem map_eq_ok_iff {f : α → β} {b : β} : x.map f = .ok b ↔ ∃ a, x = .ok a ∧ f a = b := by
  cases x with
  | error e => exact ⟨nofun, nofun⟩
  | ok a =>
    constructor
    · intro h
      exact ⟨a, rfl, Except.ok.inj h⟩
    · rintro ⟨a', ha, rfl⟩
      obtain rfl := Except.ok.inj ha
      rfl

theorem map_eq_error_iff {f : α → β} {e : ε} : x.map f = .error e ↔ x = .error e := by
  cases x with
  | error e' => exact ⟨fun h ↦ congrArg Except.error (Except.error.inj h), fun h ↦
      congrArg Except.error (Except.error.inj h)⟩
  | ok a => exact ⟨nofun, nofun⟩

theorem mapError_eq_ok_iff {f : ε → δ} {a : α} : x.mapError f = .ok a ↔ x = .ok a := by
  cases x with
  | error e => exact ⟨nofun, nofun⟩
  | ok a' =>
    constructor
    · intro h
      exact congrArg Except.ok (Except.ok.inj h)
    · intro h
      exact congrArg Except.ok (Except.ok.inj h)

theorem mapError_eq_error_iff {f : ε → δ} {e : δ} :
    x.mapError f = .error e ↔ ∃ d, x = .error d ∧ f d = e := by
  cases x with
  | error d =>
    constructor
    · intro h
      exact ⟨d, rfl, Except.error.inj h⟩
    · rintro ⟨d', hd, rfl⟩
      obtain rfl := Except.error.inj hd
      rfl
  | ok a => exact ⟨nofun, nofun⟩

theorem bind_eq_error_iff {f : α → Except ε β} {e : ε} :
    x.bind f = .error e ↔ x = .error e ∨ ∃ a, x = .ok a ∧ f a = .error e := by
  cases x with
  | error e' =>
    constructor
    · intro h
      exact .inl (congrArg Except.error (Except.error.inj h))
    · rintro (h | ⟨a, ha, -⟩)
      · exact congrArg Except.error (Except.error.inj h)
      · exact nomatch ha
  | ok a =>
    constructor
    · intro h
      exact .inr ⟨a, rfl, h⟩
    · rintro (h | ⟨a', ha, h⟩)
      · exact nomatch h
      · obtain rfl := Except.ok.inj ha
        exact h

section Lists

variable {f : α → Except ε β} {l : List α} {m : List β}

/-- A computation for each member of a list succeeds if each one does. -/
theorem mapM_eq_ok_iff : l.mapM f = .ok m ↔ List.Forall₂ (fun a b ↦ f a = .ok b) l m := by
  induction l generalizing m with
  | nil =>
    rw [List.forall₂_nil_left_iff]
    exact ⟨fun h ↦ (Except.ok.inj h).symm, fun h ↦ congrArg Except.ok h.symm⟩
  | cons a l ih =>
    have hcons : (a :: l).mapM f = (f a).bind fun b ↦ (l.mapM f).bind fun m ↦ .ok (b :: m) :=
      List.mapM_cons
    rw [hcons, bind_eq_ok_iff, List.forall₂_cons_left_iff]
    refine exists_congr fun b ↦ ?_
    rw [bind_eq_ok_iff]
    constructor
    · rintro ⟨hb, m', hm, heq⟩
      exact ⟨m', hb, ih.1 hm, (Except.ok.inj heq).symm⟩
    · rintro ⟨m', hb, hm, rfl⟩
      exact ⟨hb, m', ih.2 hm, rfl⟩

theorem exists_mapM_eq_ok (h : ∀ a ∈ l, ∃ b, f a = .ok b) : ∃ m, l.mapM f = .ok m := by
  induction l with
  | nil => exact ⟨[], rfl⟩
  | cons a l ih =>
    obtain ⟨⟨b, hb⟩, hl⟩ := List.forall_mem_cons.1 h
    obtain ⟨m, hm⟩ := ih hl
    exact ⟨b :: m, mapM_eq_ok_iff.2 (.cons hb (mapM_eq_ok_iff.1 hm))⟩

end Lists

end RecordQuery.Outcome

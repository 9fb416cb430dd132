import RecordQuery.Proofs.Listing.Chain

/-!
# Following page tokens while the records change

Between two calls the records may be replaced by any others. The record that a token resumes after
need not be among them any more, so the argument relates the last record listed to the order and not
to a position in a list: what has been listed increases strictly, and a matching record that was
there at every call either has been listed or comes after everything that has been.
-/

namespace RecordQuery

variable {ι : Type} [DecidableEq ι] {R : Registry ι} {t : ι} (q : Query R t) {cipher : Cipher}
  {records : Nat → List (Record R t)} {sizes : Nat → Nat}
  {call : Nat → Option String → Except PageError (Page R t)} {p : Progress R t}

namespace Query

/-- What holds after every call of a chain, where `records n` are those that call `n` sees. -/
structure Advancing (cipher : Cipher) (records : Nat → List (Record R t)) (p : Progress R t) :
    Prop where
  resumes : ∀ token?, p.next? = some token? → q.Resumes cipher token? p.listed.getLast?
  increasing : p.listed.Pairwise fun a b ↦ q.comparator.compare a b = .lt
  persistent : ∀ r, q.predicate.accepts r = true → (∀ n < p.pages.length, r ∈ records n) →
    r ∈ p.listed ∨ p.next? ≠ none ∧ ∀ last ∈ p.listed.getLast?, q.comparator.compare last r = .lt

theorem advancing_start : q.Advancing cipher records .start where
  resumes := by
    intro token? h
    obtain rfl := Option.some.inj h
    exact q.resumes_none
  increasing := List.Pairwise.nil
  persistent := by
    intro r _ _
    refine .inr ⟨by simp [Progress.start], ?_⟩
    simp [Progress.start, Progress.listed]

section Page

variable {listed shown rs : List (Record R t)} {last? : Option (Record R t)} {size : Nat}
  {page : Page R t} {r : Record R t}

/-- Records without ties are strictly ordered once they are sorted. -/
theorem increasing_ahead (last? : Option (Record R t))
    (hties : (rs.filter q.predicate.accepts).Pairwise fun a b ↦ q.comparator.compare a b ≠ .eq) :
    (q.ahead last? rs).Pairwise fun a b ↦ q.comparator.compare a b = .lt := by
  have hne := q.comparator.pairwise_sort_ne_eq hties
  have hle := q.pairwise_ahead last? rs
  refine (hle.and (hne.sublist List.filter_sublist)).imp ?_
  rintro a b ⟨h, hne⟩
  revert h hne
  cases q.comparator.compare a b <;> simp

theorem mem_ahead (hr : r ∈ rs) (haccepts : q.predicate.accepts r = true)
    (hlast : ∀ last ∈ last?, q.comparator.compare last r = .lt) : r ∈ q.ahead last? rs := by
  refine List.mem_filter.2 ⟨?_, ?_⟩
  · rw [(q.comparator.sort_perm _).mem_iff]
    exact List.mem_filter.2 ⟨hr, haccepts⟩
  · cases last? with
    | none => rfl
    | some last => simpa [Comparator.less] using hlast last rfl

/-- A page that lies after the last record listed so far continues the increasing list. -/
theorem increasing_append (hlisted : listed.Pairwise fun a b ↦ q.comparator.compare a b = .lt)
    (hshown : shown.Pairwise fun a b ↦ q.comparator.compare a b = .lt)
    (hlast : ∀ r ∈ shown, ∀ last ∈ listed.getLast?, q.comparator.compare last r = .lt) :
    (listed ++ shown).Pairwise fun a b ↦ q.comparator.compare a b = .lt := by
  refine List.pairwise_append.2 ⟨hlisted, hshown, ?_⟩
  intro a ha r hr
  rcases List.eq_nil_or_concat listed with rfl | ⟨before, last, rfl⟩
  · simp at ha
  · rw [List.concat_eq_append] at *
    have hlt : q.comparator.compare last r = .lt := hlast r hr last (by simp)
    rcases List.mem_append.1 ha with ha | ha
    · exact Std.TransCmp.lt_trans ((List.pairwise_append.1 hlisted).2.2 a ha last (by simp)) hlt
    · obtain rfl : a = last := by simpa using ha
      exact hlt

variable {q}

theorem Shows.resumes (h : q.Shows cipher last? rs size page) {token : String}
    (htoken : page.nextPageToken? = some token) :
    ∃ last, page.records.getLast? = some last ∧ q.Resumes cipher (some token) (some last) := by
  by_cases hmore : size < (q.ahead last? rs).length
  · obtain ⟨token', last, htoken', hlast, hresumes⟩ := h.more hmore
    obtain rfl := Option.some.inj (htoken.symm.trans htoken')
    exact ⟨last, hlast, hresumes⟩
  · rw [h.complete (Nat.le_of_not_lt hmore)] at htoken
    simp at htoken

/-- A record ahead is shown, or it comes after the last one shown and the token leads to it. -/
theorem Shows.mem_or (h : q.Shows cipher last? rs size page)
    (hties : (rs.filter q.predicate.accepts).Pairwise fun a b ↦ q.comparator.compare a b ≠ .eq)
    (hr : r ∈ q.ahead last? rs) :
    r ∈ page.records ∨ ∃ token last, page.nextPageToken? = some token ∧
      page.records.getLast? = some last ∧ q.comparator.compare last r = .lt := by
  have hincreasing := q.increasing_ahead last? hties
  rw [← List.take_append_drop size (q.ahead last? rs), ← h.records_eq] at hr hincreasing
  rcases List.mem_append.1 hr with hshown | hleft
  · exact .inl hshown
  · have hmore : size < (q.ahead last? rs).length := by
      have hpos := List.length_pos_of_mem hleft
      rw [List.length_drop] at hpos
      omega
    obtain ⟨token, last, htoken, hlast, -⟩ := h.more hmore
    have hlt := (List.pairwise_append.1 hincreasing).2.2 last (List.mem_of_getLast? hlast) r hleft
    exact .inr ⟨token, last, htoken, hlast, hlt⟩

end Page

theorem listed_append (pages : List (Page R t)) (page : Page R t)
    (next? next?' : Option (Option String)) :
    (⟨pages ++ [page], next?⟩ : Progress R t).listed =
      (⟨pages, next?'⟩ : Progress R t).listed ++ page.records := by
  simp [Progress.listed]

/-- One call keeps the invariant, whatever the records have become before it. -/
theorem Advancing.exists_step (h : q.Advancing cipher records p)
    (hcall : q.Answers cipher records sizes call)
    (hties : ∀ n, ((records n).filter q.predicate.accepts).Pairwise
      fun a b ↦ q.comparator.compare a b ≠ .eq) :
    ∃ p', p.step call = .ok p' ∧ q.Advancing cipher records p' := by
  obtain ⟨pages, next?⟩ := p
  cases next? with
  | none => exact ⟨_, rfl, h⟩
  | some token? =>
    obtain ⟨page, hpage, hshows⟩ := hcall pages.length _ _ (h.resumes token? rfl)
    refine ⟨⟨pages ++ [page], page.nextPageToken?.map some⟩, ?_, ?_, ?_, ?_⟩
    · simp only [Progress.step, hpage, Except.map]
    · intro next? hnext
      obtain ⟨token, htoken, rfl⟩ := Option.map_eq_some_iff.1 hnext
      obtain ⟨last, hlast, hresumes⟩ := hshows.resumes htoken
      rwa [listed_append _ _ _ (some token?), List.getLast?_append, hlast]
    · rw [listed_append _ _ _ (some token?)]
      refine q.increasing_append h.increasing ?_ ?_
      · rw [hshows.records_eq]
        exact (q.increasing_ahead _ (hties pages.length)).sublist (List.take_sublist _ _)
      · intro r hr
        rw [hshows.records_eq] at hr
        exact q.less_of_mem_ahead (List.mem_of_mem_take hr)
    · intro r haccepts hr
      rw [listed_append _ _ _ (some token?)]
      rw [List.length_append, List.length_singleton] at hr
      rcases h.persistent r haccepts (fun n hn ↦ hr n (Nat.lt_succ_of_lt hn)) with hin | ⟨-, hlast⟩
      · exact .inl (List.mem_append_left _ hin)
      · -- a record that has not been listed is ahead: it is shown now or stays ahead
        have hmem := q.mem_ahead (hr pages.length (Nat.lt_succ_self _)) haccepts hlast
        rcases hshows.mem_or (hties pages.length) hmem with hshown | ⟨token, last, htoken, hl, hlt⟩
        · exact .inl (List.mem_append_right _ hshown)
        · refine .inr ⟨by simp [htoken], ?_⟩
          rw [List.getLast?_append, hl]
          intro last' hlast'
          obtain rfl : last = last' := by simpa using hlast'
          exact hlt

/-- Any number of further calls succeeds and advances the listing, whatever the records have become
in between. The induction is on the number of calls. -/
theorem Advancing.exists_follow (h : q.Advancing cipher records p)
    (hcall : q.Answers cipher records sizes call)
    (hties : ∀ n, ((records n).filter q.predicate.accepts).Pairwise
      fun a b ↦ q.comparator.compare a b ≠ .eq) (n : Nat) :
    ∃ p', p.follow call n = .ok p' ∧ q.Advancing cipher records p' := by
  induction n generalizing p with
  | zero => exact ⟨p, rfl, h⟩
  | succ n ih =>
    obtain ⟨first, hfirst, hadvancing⟩ := h.exists_step q hcall hties
    obtain ⟨p', hp', hadvancing'⟩ := ih hadvancing
    refine ⟨p', ?_, hadvancing'⟩
    rw [Progress.follow, hfirst]
    exact hp'

/-- Once the chain has ended, a matching record that was there at every call has been listed at one
position only. -/
theorem Advancing.existsUnique (h : q.Advancing cipher records p) (hend : p.next? = none)
    {r : Record R t} (haccepts : q.predicate.accepts r = true)
    (hr : ∀ n < p.pages.length, r ∈ records n) : ∃! i : Nat, p.listed[i]? = some r := by
  have hmem : r ∈ p.listed := by
    rcases h.persistent r haccepts hr with hin | ⟨hnext, -⟩
    · exact hin
    · exact absurd hend hnext
  obtain ⟨i, hi⟩ := List.mem_iff_getElem?.1 hmem
  refine ⟨i, hi, ?_⟩
  intro j hj
  have hnodup : p.listed.Nodup := by
    apply h.increasing.imp
    intro a b hlt heq
    rw [heq, q.comparator.compare_self] at hlt
    simp at hlt
  obtain ⟨hi', -⟩ := List.getElem?_eq_some_iff.1 hi
  exact ((List.getElem?_inj hi' hnodup).1 (hi.trans hj.symm)).symm

end Query

end RecordQuery

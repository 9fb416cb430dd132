import Mathlib.Data.List.Perm.Subperm
import RecordQuery.Proofs.Listing.Resume

/-!
# Following page tokens

A caller lists records by requesting a first page and then one page for each token, until a page
comes without one. `follow` makes such a chain of calls. `Paged` says which pages a sorted list is
cut into: each page that is followed by another one is full, and the records that tie with its last
one are not listed any more. The main result is that on fixed records every chain ends with exactly
these pages.
-/

namespace RecordQuery

variable {ι : Type} [DecidableEq ι] {R : Registry ι} {t : ι}

/-- The pages of a list so far, and the token of the next request, which the first one has not. The
list has ended if there is no next request. -/
structure Progress (R : Registry ι) (t : ι) where
  pages : List (Page R t)
  next? : Option (Option String)

namespace Progress

def start : Progress R t := ⟨[], some none⟩

/-- All records that have been listed. -/
def listed (p : Progress R t) : List (Record R t) :=
  p.pages.flatMap Page.records

/-- Makes the next request, if there is one; `call` is given the number of pages before it. -/
def step (call : Nat → Option String → Except PageError (Page R t)) (p : Progress R t) :
    Except PageError (Progress R t) :=
  match p.next? with
  | none => .ok p
  | some token? =>
    (call p.pages.length token?).map fun page ↦
      ⟨p.pages ++ [page], page.nextPageToken?.map some⟩

/-- Makes up to the given number of requests. -/
def follow (call : Nat → Option String → Except PageError (Page R t)) :
    Nat → Progress R t → Except PageError (Progress R t)
  | 0, p => .ok p
  | n + 1, p => (p.step call).bind (follow call n)

end Progress

/-- The pages that a sorted list is cut into: the last one has what remains, and every other one is
full and is followed by more, of which those that tie with its last record are left out. -/
inductive Paged (c : Comparator R t) : (Nat → Nat) → List (Record R t) → List (Page R t) → Prop
  | last {sizes : Nat → Nat} {page : Page R t} (hsize : page.records.length ≤ sizes 0)
      (htoken : page.nextPageToken? = none) : Paged c sizes page.records [page]
  | more {sizes : Nat → Nat} {page : Page R t} {rest : List (Record R t)} {last : Record R t}
      {token : String} {pages : List (Page R t)} (hsize : page.records.length = sizes 0)
      (hmore : rest ≠ []) (htoken : page.nextPageToken? = some token)
      (hlast : page.records.getLast? = some last)
      (hpages : Paged c (fun n ↦ sizes (n + 1))
        (rest.filter fun r ↦ c.compare last r != .eq) pages) :
      Paged c sizes (page.records ++ rest) (page :: pages)

namespace Paged

variable {c : Comparator R t} {sizes : Nat → Nat} {sorted : List (Record R t)}
  {pages : List (Page R t)}

theorem listed_sublist (h : Paged c sizes sorted pages) :
    (pages.flatMap Page.records).Sublist sorted := by
  induction h with
  | last => simp
  | more hsize hmore htoken hlast hpages ih =>
    rw [List.flatMap_cons]
    exact (ih.trans List.filter_sublist).append_left _

theorem listed_eq (h : Paged c sizes sorted pages)
    (hties : sorted.Pairwise fun a b ↦ c.compare a b ≠ .eq) :
    pages.flatMap Page.records = sorted := by
  induction h with
  | last => simp
  | @more _ page rest last _ _ hsize hmore htoken hlast hpages ih =>
    obtain ⟨-, hrest, hacross⟩ := List.pairwise_append.1 hties
    have hkeep : (rest.filter fun r ↦ c.compare last r != .eq) = rest := by
      rw [List.filter_eq_self]
      intro r hr
      simpa using hacross last (List.mem_of_getLast? hlast) r hr
    rw [hkeep] at ih
    rw [List.flatMap_cons, ih hrest]

/-- A list is cut into pages in one way only. -/
theorem map_records_eq {pages' : List (Page R t)} (h : Paged c sizes sorted pages)
    (h' : Paged c sizes sorted pages') : pages.map Page.records = pages'.map Page.records := by
  induction h generalizing pages' with
  | @last _ page hsize htoken =>
    generalize hsorted : page.records = sorted at h' hsize
    cases h' with
    | last => rw [List.map_singleton, List.map_singleton, hsorted]
    | @more _ page' rest last _ _ hsize' hmore =>
      rw [List.length_append, hsize'] at hsize
      exact absurd (List.length_eq_zero_iff.1 (by omega)) hmore
  | @more _ page rest last _ pages hsize hmore htoken hlast hpages ih =>
    generalize hsorted : page.records ++ rest = sorted at h'
    cases h' with
    | @last _ page' hsize' =>
      rw [← hsorted, List.length_append, hsize] at hsize'
      exact absurd (List.length_eq_zero_iff.1 (by omega)) hmore
    | @more _ page' rest' last' _ pages' hsize' hmore' htoken' hlast' hpages' =>
      obtain ⟨hrecords, rfl⟩ := List.append_inj hsorted (hsize.trans hsize'.symm)
      rw [← hrecords, hlast, Option.some.injEq] at hlast'
      subst hlast'
      rw [List.map_cons, List.map_cons, hrecords, ih hpages']

end Paged

namespace Query

variable (q : Query R t) {cipher : Cipher} {records : List (Record R t)}
  {last? : Option (Record R t)} {last : Record R t}

theorem pairwise_ahead (last? : Option (Record R t)) (records : List (Record R t)) :
    (q.ahead last? records).Pairwise fun a b ↦ (q.comparator.compare a b).isLE = true :=
  (q.comparator.pairwise_sort _).sublist List.filter_sublist

theorem less_of_mem_ahead {r : Record R t} (h : r ∈ q.ahead last? records) :
    ∀ last ∈ last?, q.comparator.compare last r = .lt := by
  rintro last rfl
  simpa [Comparator.less] using (List.mem_filter.1 h).2

/-- What lies ahead of a record that itself lay ahead is the part of it that the comparator puts
after that record. -/
theorem ahead_some_eq_filter (hmem : last ∈ q.ahead last? records) :
    q.ahead (some last) records =
      (q.ahead last? records).filter fun r ↦ q.comparator.less last r := by
  simp only [ahead, Option.all_some, List.filter_filter]
  apply List.filter_congr
  intro r _
  cases hr : q.comparator.less last r with
  | false => rfl
  | true =>
    cases last? with
    | none => rfl
    | some before =>
      have hbefore := q.less_of_mem_ahead hmem before rfl
      have htrans := Std.TransCmp.lt_trans hbefore (by simpa [Comparator.less] using hr)
      simpa [Comparator.less] using htrans

/-- No record of a sorted list comes after the last one. -/
theorem filter_less_getLast {rs : List (Record R t)}
    (hsorted : rs.Pairwise fun a b ↦ (q.comparator.compare a b).isLE = true)
    (hlast : rs.getLast? = some last) :
    rs.filter (fun r ↦ q.comparator.less last r) = [] := by
  obtain ⟨before, rfl⟩ := List.getLast?_eq_some_iff.1 hlast
  obtain ⟨-, -, hle⟩ := List.pairwise_append.1 hsorted
  rw [List.filter_eq_nil_iff]
  intro r hr
  rcases List.mem_append.1 hr with hr | hr
  · have := Std.OrientedCmp.not_lt_of_isLE (hle r hr last (by simp))
    simpa [Comparator.less] using this
  · obtain rfl : r = last := by simpa using hr
    simp [Comparator.less, q.comparator.compare_self]

/-- After one more page, the records ahead are the others that were ahead, less those that tie with
the last record of the page. -/
theorem ahead_some_eq {size : Nat} (hlast : ((q.ahead last? records).take size).getLast? = some last) :
    q.ahead (some last) records =
      ((q.ahead last? records).drop size).filter fun r ↦ q.comparator.compare last r != .eq := by
  have hmem : last ∈ q.ahead last? records := List.mem_of_mem_take (List.mem_of_getLast? hlast)
  have hsorted := q.pairwise_ahead last? records
  rw [← List.take_append_drop size (q.ahead last? records)] at hsorted
  obtain ⟨hshown, -, hacross⟩ := List.pairwise_append.1 hsorted
  calc
    q.ahead (some last) records =
        (q.ahead last? records).filter fun r ↦ q.comparator.less last r :=
      q.ahead_some_eq_filter hmem
    _ = ((q.ahead last? records).take size).filter (fun r ↦ q.comparator.less last r) ++
        ((q.ahead last? records).drop size).filter fun r ↦ q.comparator.less last r := by
      rw [← List.filter_append, List.take_append_drop]
    _ = ((q.ahead last? records).drop size).filter fun r ↦ q.comparator.less last r := by
      rw [q.filter_less_getLast hshown hlast, List.nil_append]
    _ = _ := by
      apply List.filter_congr
      intro r hr
      have hle := hacross last (List.mem_of_getLast? hlast) r hr
      revert hle
      unfold Comparator.less
      cases q.comparator.compare last r <;> simp

/-- A page of positive size leaves less ahead, so a listing of fixed records ends. -/
theorem length_ahead_lt {size : Nat} (hsize : 0 < size)
    (hlast : ((q.ahead last? records).take size).getLast? = some last) :
    (q.ahead (some last) records).length < (q.ahead last? records).length := by
  have hne : q.ahead last? records ≠ [] := by
    rintro h
    simp [h] at hlast
  have hpos := List.length_pos_iff.2 hne
  rw [q.ahead_some_eq hlast]
  calc
    _ ≤ ((q.ahead last? records).drop size).length := List.length_filter_le _ _
    _ = (q.ahead last? records).length - size := List.length_drop
    _ < _ := by omega

/-- Whether every call, given a token that resumes after a record, shows the first records ahead of
it; `records n` and `sizes n` are the records and the page size of call `n`. -/
def Answers (cipher : Cipher) (records : Nat → List (Record R t)) (sizes : Nat → Nat)
    (call : Nat → Option String → Except PageError (Page R t)) : Prop :=
  ∀ n token? last?, q.Resumes cipher token? last? →
    ∃ page, call n token? = .ok page ∧ q.Shows cipher last? (records n) (sizes n) page

/-- On fixed records, a chain of calls ends with the pages that the records ahead are cut into. -/
theorem exists_follow {call : Nat → Option String → Except PageError (Page R t)} {sizes : Nat → Nat}
    (hsizes : ∀ n, 0 < sizes n) (hcall : q.Answers cipher (fun _ ↦ records) sizes call)
    (p : Progress R t) {token? : Option String} (hnext : p.next? = some token?)
    (hresumes : q.Resumes cipher token? last?) :
    ∃ calls pages, p.follow call calls = .ok ⟨p.pages ++ pages, none⟩ ∧
      Paged q.comparator (fun n ↦ sizes (p.pages.length + n)) (q.ahead last? records) pages := by
  induction hlength : (q.ahead last? records).length using Nat.strongRecOn
    generalizing p token? last? with
  | _ length ih =>
    obtain ⟨page, hpage, hshows⟩ : ∃ page, call p.pages.length token? = .ok page ∧
        q.Shows cipher last? records (sizes p.pages.length) page := hcall _ _ _ hresumes
    have hstep : p.step call = .ok ⟨p.pages ++ [page], page.nextPageToken?.map some⟩ := by
      simp only [Progress.step, hnext, hpage, Except.map]
    by_cases hmore : sizes p.pages.length < (q.ahead last? records).length
    · obtain ⟨token, last, htoken, hlast, hresumes'⟩ := hshows.more hmore
      have hlast' := hlast
      rw [hshows.records_eq] at hlast'
      have hlt := q.length_ahead_lt (hsizes _) hlast'
      obtain ⟨calls, pages, hfollow, hpaged⟩ :=
        ih _ (hlength ▸ hlt) ⟨p.pages ++ [page], some (some token)⟩ rfl hresumes' rfl
      refine ⟨calls + 1, page :: pages, ?_, ?_⟩
      · simp only [Progress.follow, hstep, htoken, Option.map_some, Except.bind, hfollow,
          List.append_assoc, List.singleton_append]
      · rw [← List.take_append_drop (sizes p.pages.length) (q.ahead last? records),
          ← hshows.records_eq]
        refine .more ?_ ?_ htoken hlast ?_
        · rw [hshows.records_eq, List.length_take]
          exact Nat.min_eq_left (Nat.le_of_lt hmore)
        · rw [← List.length_pos_iff, List.length_drop]
          omega
        · rw [← q.ahead_some_eq hlast']
          simpa only [List.length_append, List.length_singleton, Nat.add_assoc, Nat.add_comm 1]
            using hpaged
    · have hall : page.records = q.ahead last? records := by
        rw [hshows.records_eq, List.take_of_length_le (by omega)]
      have htoken := hshows.complete (by omega)
      refine ⟨1, [page], ?_, ?_⟩
      · simp only [Progress.follow, hstep, htoken, Option.map_none, Except.bind]
      · rw [← hall]
        refine .last ?_ htoken
        rw [hall]
        simpa using hmore

end Query

section Positions

variable {α : Type}

/-- The elements of a part of a list stand at distinct positions of the list. -/
theorem exists_positions {l m : List α} (h : l.Subperm m) :
    ∃ positions : List Nat, positions.Nodup ∧ positions.map (m[·]?) = l.map some := by
  obtain ⟨l', hperm, hsub⟩ := h
  have hrange : m.map some = (List.range m.length).map (m[·]?) := by
    apply List.ext_getElem (by simp)
    intro i h₁ h₂
    have hi : i < m.length := by simpa using h₁
    simp [hi]
  have hsub' := hsub.map some
  rw [hrange] at hsub'
  obtain ⟨positions', hpositions, hl'⟩ := List.sublist_map_iff.1 hsub'
  have hcomp : Relation.Comp (· = List.map (m[·]?) ·) List.Perm (l.map some) positions' := by
    rw [List.eq_map_comp_perm]
    change (l.map some).Perm (positions'.map (m[·]?))
    rw [← hl']
    exact (hperm.map some).symm
  obtain ⟨positions, hl, hperm'⟩ := hcomp
  exact ⟨positions, hperm'.nodup_iff.2 (List.nodup_range.sublist hpositions), hl.symm⟩

end Positions

end RecordQuery

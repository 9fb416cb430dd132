import RecordQuery.Listing.Page
import RecordQuery.Proofs.Cursor.Projection
import RecordQuery.Proofs.Cursor.Token
import RecordQuery.Proofs.Filter.Validation
import RecordQuery.Proofs.Order.Sort
import RecordQuery.Proofs.Outcome

/-!
# Resuming a list

What a request shows depends on its page token only through the last record of the page before it:
`Query.Resumes` ties a token to that record, and `Query.ahead` are the records still to be listed
after it. The main result describes one call: it shows the first of those records, and the token it
gives, if there are more, resumes after the last one shown. The last record itself need not be in the
list any more.
-/

namespace RecordQuery

variable {ι : Type} [DecidableEq ι] {R : Registry ι} {t : ι}

namespace Query

section Compiling

variable {default : Order} {filter orderBy : String} {q : Query R t}

/-- A query is compiled from the filter that its text parses to, and from the order of the caller
followed by the default one. -/
theorem exists_of_compile (hq : compile R t default filter orderBy = .ok q) :
    Predicate.parse R t filter = .ok q.predicate ∧
      ∃ order, Order.parse orderBy = .ok order ∧
        (order.thenBy default).compile R t = .ok q.comparator := by
  unfold compile at hq
  obtain ⟨predicate, hpredicate, hq⟩ := Outcome.bind_eq_ok_iff.1 hq
  obtain ⟨order, horder, hq⟩ := Outcome.bind_eq_ok_iff.1 hq
  obtain ⟨comparator, hcomparator, hq⟩ := Outcome.bind_eq_ok_iff.1 hq
  rw [Outcome.mapError_eq_ok_iff] at hpredicate horder hcomparator
  obtain rfl := Except.ok.inj hq
  exact ⟨hpredicate, order, horder, hcomparator⟩

theorem parse_filter (hq : compile R t default filter orderBy = .ok q) :
    Filter.parse filter = .ok q.predicate.filter := by
  obtain ⟨f, hf, hcompile⟩ := Outcome.bind_eq_ok_iff.1 (exists_of_compile hq).1
  rw [hf, (Filter.compile_eq_ok hcompile).1]

theorem exists_order_eq (hq : compile R t default filter orderBy = .ok q) :
    ∃ order, Order.parse orderBy = .ok order ∧ q.order = order.thenBy default := by
  obtain ⟨-, order, horder, hcompile⟩ := exists_of_compile hq
  exact ⟨order, horder, Order.order_compile hcompile⟩

end Compiling

variable (q : Query R t) {cipher : Cipher}

/-- The records that are still to be listed after a record, in order; all that match if there is no
such record. -/
def ahead (last? : Option (Record R t)) (records : List (Record R t)) : List (Record R t) :=
  (q.comparator.sort (records.filter q.predicate.accepts)).filter fun r ↦
    last?.all fun last ↦ q.comparator.less last r

/-- Whether a token, or its absence, makes a request go on after a record. -/
def Resumes (cipher : Cipher) (token? : Option String) (last? : Option (Record R t)) : Prop :=
  ∃ after?, token?.mapM (q.readToken cipher) = .ok after? ∧
    ∀ r, (after?.all fun after ↦ after.precedes r) = last?.all fun last ↦ q.comparator.less last r

/-- What one call shows: the first records ahead, and, if they are not all of them, a token that
resumes after the last one shown. -/
structure Shows (cipher : Cipher) (last? : Option (Record R t)) (records : List (Record R t))
    (size : Nat) (page : Page R t) : Prop where
  records_eq : page.records = (q.ahead last? records).take size
  complete : (q.ahead last? records).length ≤ size → page.nextPageToken? = none
  more : size < (q.ahead last? records).length → ∃ token last, page.nextPageToken? = some token ∧
    page.records.getLast? = some last ∧ q.Resumes cipher (some token) (some last)

theorem resumes_none : q.Resumes cipher none none :=
  ⟨none, rfl, fun _ ↦ rfl⟩

/-- The projection of a record that a query makes for its tokens. -/
def Packable (r : Record R t) : Prop :=
  ∀ projected, r.project q.order = .ok projected → Codec.ReadsBack projected

/-- The token of a page can be written, and a call with it resumes after the last record. -/
theorem exists_writeToken (hdefault : R.DefaultsAreZero) (hcipher : cipher.Lawful)
    (nonce : List UInt8) {last : Record R t} (hlast : q.Packable last) :
    ∃ token, q.writeToken cipher nonce last = .ok token ∧
      q.Resumes cipher (some token) (some last) := by
  obtain ⟨projected, hproject, hkeys⟩ := q.comparator.exists_project hdefault last
  have hcompile : q.order.compile R t = .ok q.comparator := q.comparator.compile_order
  obtain ⟨token, hencode, hdecode⟩ :=
    Cursor.exists_encode hcipher hcompile hproject (hlast projected hproject) nonce q.context
  have hread : q.readToken cipher token = .ok ⟨projected, q.comparator⟩ := by
    simp only [readToken, hdecode, Position.compile, hcompile]
    rfl
  refine ⟨token, ?_, some ⟨projected, q.comparator⟩, ?_, ?_⟩
  · rw [writeToken, show Cursor.encode cipher nonce last q.order q.context = .ok token from hencode]
    rfl
  · simp [hread]
  · intro r
    exact congrArg (· == .lt) (q.comparator.compare_eq_of_sortValue_eq hkeys r)

/-- The records that a call pages through are those that pass the filter, in order, after the last
record shown. The hypothesis says that the position of the token stands for that record. -/
theorem remaining_eq_ahead {after? : Option (Position R t)} {last? : Option (Record R t)}
    (h : ∀ r, (after?.all fun after ↦ after.precedes r) =
      last?.all fun last ↦ q.comparator.less last r) (records : List (Record R t)) :
    q.remaining after? records = q.ahead last? records := by
  simp only [remaining, Predicate.select, h]
  exact q.comparator.sort_filter _ _

/-- One call shows the first records ahead, and its token, if any, resumes after the last of them. -/
theorem exists_page (hdefault : R.DefaultsAreZero) (hcipher : cipher.Lawful)
    {records : List (Record R t)} (hrecords : ∀ r ∈ records, q.Packable r) (nonce : List UInt8)
    {size : Nat} (hsize : 0 < size) {after? : Option (Position R t)} {last? : Option (Record R t)}
    (h : ∀ r, (after?.all fun after ↦ after.precedes r) =
      last?.all fun last ↦ q.comparator.less last r) :
    ∃ page, q.page cipher nonce size after? records = .ok page ∧
      q.Shows cipher last? records size page := by
  unfold page
  rw [q.remaining_eq_ahead h]
  generalize hahead : q.ahead last? records = ahead
  dsimp only
  split
  · rename_i last hlast
    split
    · rename_i hmore
      have hmem : last ∈ records := by
        have hin : last ∈ q.ahead last? records :=
          hahead ▸ List.mem_of_mem_take (List.mem_of_getLast? hlast)
        have hsorted := List.mem_of_mem_filter hin
        rw [(q.comparator.sort_perm _).mem_iff] at hsorted
        exact List.mem_of_mem_filter hsorted
      obtain ⟨token, hwrite, hresumes⟩ :=
        q.exists_writeToken hdefault hcipher nonce (hrecords last hmem)
      rw [hwrite]
      refine ⟨⟨ahead.take size, some token⟩, rfl, hahead ▸ rfl, ?_, ?_⟩
      · intro hle
        rw [hahead] at hle
        omega
      · intro _
        exact ⟨token, last, rfl, hlast, hresumes⟩
    · rename_i hmore
      refine ⟨⟨ahead.take size, none⟩, rfl, hahead ▸ rfl, fun _ ↦ rfl, ?_⟩
      intro h
      rw [hahead] at h
      exact absurd h hmore
  · rename_i hlast
    have hnil : ahead = [] := by
      have := List.getLast?_eq_none_iff.1 hlast
      rcases List.take_eq_nil_iff.1 this with h | h
      · omega
      · exact h
    refine ⟨⟨ahead.take size, none⟩, rfl, hahead ▸ rfl, fun _ ↦ rfl, ?_⟩
    intro h
    simp [hahead, hnil] at h

end Query

/-- What a request asks for, once its filter and order have been compiled. -/
theorem PageRequest.exists_answer {default : Order} (request : PageRequest) {q : Query R t}
    (hdefault : R.DefaultsAreZero) {cipher : Cipher} (hcipher : cipher.Lawful)
    {records : List (Record R t)} (hrecords : ∀ r ∈ records, q.Packable r) (nonce : List UInt8)
    (hq : Query.compile R t default request.filter request.orderBy = .ok q)
    (hsize : 1 ≤ request.pageSize ∧ request.pageSize ≤ pageSizeLimit)
    {last? : Option (Record R t)} (h : q.Resumes cipher request.pageToken? last?) :
    ∃ page, request.answer default cipher nonce records = .ok page ∧
      q.Shows cipher last? records request.pageSize page := by
  obtain ⟨after?, hafter, hprecedes⟩ := h
  obtain ⟨page, hpage, hspec⟩ :=
    q.exists_page hdefault hcipher hrecords nonce hsize.1 hprecedes
  refine ⟨page, ?_, hspec⟩
  rw [answer, if_neg (by omega), hq]
  simp only [bind, Except.bind, hafter, hpage]

end RecordQuery

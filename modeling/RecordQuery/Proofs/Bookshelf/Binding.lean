import RecordQuery.Proofs.Bookshelf.Paging
import RecordQuery.Proofs.Cursor.Binding
import RecordQuery.Proofs.Filter.Written

/-!
# Page tokens of the catalogue are bound to the filter

A page token is sealed under the text of the filter that it was made for, so it is refused by every
request of which the filter has another text, whatever its order. The text stands for the parsed
filter as long as all floats are written out. A float in exponent form passes for a word: a token that
was made for a comparison with such a float is accepted by a comparison with that word.
-/

namespace RecordQuery

variable {ι : Type} [DecidableEq ι] {R : Registry ι} {t : ι} {cipher : Cipher}
  {nonce : List UInt8} {token : String}

namespace Query

variable {q q' : Query R t}

/-- A query refuses the tokens of queries with another context. -/
theorem readToken_eq_error (hcipher : cipher.Binding) {last : Record R t}
    (hwrite : q.writeToken cipher nonce last = .ok token) (hne : q.context ≠ q'.context) :
    q'.readToken cipher token = .error (.pageToken .invalidPageToken) := by
  obtain ⟨plaintext, text, rfl, hseal⟩ :=
    Cursor.exists_encrypt_of_encode (Outcome.mapError_eq_ok_iff.1 hwrite)
  have hassociated : Cursor.associatedData q.order q.context ≠
      Cursor.associatedData q'.order q'.context :=
    fun h ↦ hne (Cursor.associatedData_inj h).2
  have hrefuse := hcipher _ _ _ _ _ hseal hassociated
  have hcompile : q'.order.compile R t = .ok q'.comparator := q'.comparator.compile_order
  simp only [readToken, Cursor.decode, hcompile, Codec.Base64.decode?_encode, Option.bind_eq_bind,
    Option.bind_some, hrefuse, Option.bind_none]
  rfl

/-- What a token resumes after depends on the order and the context of a query only. -/
theorem resumes_congr (horder : q.order = q'.order) (hcontext : q.context = q'.context)
    {token? : Option String} {last? : Option (Record R t)} (h : q.Resumes cipher token? last?) :
    q'.Resumes cipher token? last? := by
  have hread : q'.readToken cipher = q.readToken cipher := by
    funext token
    rw [readToken, readToken, horder, hcontext]
  have hcomparator : q.comparator = q'.comparator := Comparator.eq_of_order_eq horder
  unfold Resumes at h ⊢
  rwa [hread, ← hcomparator]

end Query

namespace PageRequest

variable {default : Order} {request : PageRequest} {records : List (Record R t)}

/-- The token of a page has been written by the query of the request. -/
theorem exists_writeToken {page : Page R t}
    (hpage : request.answer default cipher nonce records = .ok page)
    (htoken : page.nextPageToken? = some token) :
    ∃ q last, Query.compile R t default request.filter request.orderBy = .ok q ∧
      q.writeToken cipher nonce last = .ok token := by
  unfold answer at hpage
  split at hpage
  · exact nomatch hpage
  · obtain ⟨q, hq, hpage⟩ := Outcome.bind_eq_ok_iff.1 hpage
    obtain ⟨after?, -, hpage⟩ := Outcome.bind_eq_ok_iff.1 hpage
    unfold Query.page at hpage
    dsimp only at hpage
    split at hpage
    · rename_i last _
      split at hpage
      · obtain ⟨token', hwrite, rfl⟩ := Outcome.map_eq_ok_iff.1 hpage
        obtain rfl := Option.some.inj htoken
        exact ⟨q, last, hq, hwrite⟩
      · obtain rfl := Except.ok.inj hpage
        exact nomatch htoken
    · obtain rfl := Except.ok.inj hpage
      exact nomatch htoken

/-- A request fails if its page token is refused. -/
theorem answer_eq_error {q : Query R t} {e : PageError}
    (hq : Query.compile R t default request.filter request.orderBy = .ok q)
    (hsize : 1 ≤ request.pageSize ∧ request.pageSize ≤ pageSizeLimit)
    (htoken : request.pageToken? = some token) (hread : q.readToken cipher token = .error e) :
    request.answer default cipher nonce records = .error e := by
  rw [answer, if_neg (by omega), hq, htoken]
  simp only [bind, Except.bind, Option.mapM_some, hread]
  rfl

end PageRequest

end RecordQuery

namespace RecordQuery.Bookshelf

variable {cipher : Cipher} {nonce nonce' : List UInt8} {books books' : List Book}
  {f g : Filter} {page : Page bookshelf .book} {token : String}

/-- A page token is refused by a request with another filter, whatever the order of either request;
filters that differ only in floats that are not written out, and in the words that these are written
as, count as one. -/
theorem token_bound_to_filter (request request' : PageRequest) (hcipher : cipher.Binding)
    (hf : Filter.parse request.filter = .ok f) (hg : Filter.parse request'.filter = .ok g)
    (hpage : bookPage cipher nonce books request = .ok page)
    (htoken : page.nextPageToken? = some token) (htoken' : request'.pageToken? = some token)
    {q' : Query bookshelf .book}
    (hq' : Query.compile bookshelf .book byName request'.filter request'.orderBy = .ok q')
    (hsize : 1 ≤ request'.pageSize ∧ request'.pageSize ≤ pageSizeLimit) :
    (f.written ≠ g.written →
      bookPage cipher nonce' books' request' = .error (.pageToken .invalidPageToken)) ∧
    ((∀ x ∈ f.floats ++ g.floats, x.IsPositional) → f ≠ g →
      bookPage cipher nonce' books' request' = .error (.pageToken .invalidPageToken)) := by
  obtain ⟨q, last, hq, hwrite⟩ := PageRequest.exists_writeToken hpage htoken
  have hqf : q.predicate.filter = f := Except.ok.inj ((Query.parse_filter hq).symm.trans hf)
  have hqg : q'.predicate.filter = g := Except.ok.inj ((Query.parse_filter hq').symm.trans hg)
  have hrefuse (hne : f.text ≠ g.text) :
      bookPage cipher nonce' books' request' = .error (.pageToken .invalidPageToken) := by
    refine PageRequest.answer_eq_error hq' hsize htoken' ?_
    refine Query.readToken_eq_error hcipher hwrite fun hcontext ↦ hne ?_
    rw [Query.context, Query.context, hqf, hqg] at hcontext
    exact Text.utf8_injective hcontext
  constructor
  · intro hne
    exact hrefuse fun htext ↦ hne ((Filter.text_eq_text_iff hf hg).1 htext)
  · intro hpositional hne
    exact hrefuse fun htext ↦ hne (Filter.eq_of_text_eq hf hg hpositional htext)

section Example

/-- Two books of which the page counts are not known. -/
def twoBooks : List Book :=
  [titled "a" "x", titled "b" "y"]

theorem packable_twoBooks {filter : String} {q : Query bookshelf .book}
    (hq : Query.compile bookshelf .book byName filter "" = .ok q) :
    ∀ b ∈ twoBooks, q.Packable b := by
  obtain ⟨ha, hb⟩ := readsBack_titled
  intro b hmem
  simp only [twoBooks, List.mem_cons, List.not_mem_nil, or_false] at hmem
  rcases hmem with rfl | rfl
  · exact packable_titled hq _ ha
  · exact packable_titled hq _ hb

/-- The first of two matching books is shown with a token. -/
theorem exists_first_page {filter : String} {q : Query bookshelf .book}
    (hq : Query.compile bookshelf .book byName filter "" = .ok q)
    (hholds : ((Filter.parse filter).toOption.map fun f ↦
      twoBooks.all fun b ↦ f.holds bookshelf .book b.fields) = some true) :
    ∃ page token last, bookPage Cipher.framed [] twoBooks ⟨filter, "", 1, none⟩ = .ok page ∧
      page.nextPageToken? = some token ∧ q.Resumes Cipher.framed (some token) (some last) := by
  obtain ⟨page, hpage, hshows⟩ := PageRequest.exists_answer ⟨filter, "", 1, none⟩
    bookshelf_defaultsAreZero Cipher.framed_lawful (packable_twoBooks hq) [] hq
    ⟨le_rfl, Nat.le_of_ble_eq_true rfl⟩ q.resumes_none
  have hmatches : twoBooks.filter q.predicate.accepts = twoBooks := by
    rw [Query.parse_filter hq] at hholds
    exact List.filter_eq_self.2 (List.all_eq_true.1 (Option.some.inj hholds))
  have hahead : q.ahead none twoBooks = q.comparator.sort twoBooks := by
    rw [Query.ahead, hmatches]
    exact List.filter_eq_self.2 fun _ _ ↦ rfl
  have hlength : (q.ahead none twoBooks).length = 2 := by
    rw [hahead, (q.comparator.sort_perm twoBooks).length_eq]
    rfl
  obtain ⟨token, last, htoken, -, hresumes⟩ := hshows.more (by
    rw [hlength]
    exact Nat.one_lt_two)
  exact ⟨page, token, last, hpage, htoken, hresumes⟩

theorem map_parse {α : Type} (φ : Filter → α) {s : String} (hf : Filter.parse s = .ok f) :
    (Filter.parse s).toOption.map φ = some (φ f) := by
  rw [hf]
  rfl

/-- Comparisons of the page count with two numbers. -/
theorem token_bound_to_filter_page_count : ∃ page token,
    bookPage Cipher.framed [] twoBooks ⟨"page_count != 1", "", 1, none⟩ = .ok page ∧
      page.nextPageToken? = some token ∧
      bookPage Cipher.framed [] twoBooks ⟨"page_count != 2", "", 1, some token⟩ =
        .error (.pageToken .invalidPageToken) := by
  obtain ⟨q, hq⟩ : ∃ q, Query.compile bookshelf .book byName "page_count != 1" "" = .ok q :=
    Outcome.exists_eq_ok_of_isOk (by decide +kernel)
  obtain ⟨q', hq'⟩ : ∃ q, Query.compile bookshelf .book byName "page_count != 2" "" = .ok q :=
    Outcome.exists_eq_ok_of_isOk (by decide +kernel)
  obtain ⟨page, token, -, hpage, htoken, -⟩ := exists_first_page hq (by decide +kernel)
  have hf := Query.parse_filter hq
  have hg := Query.parse_filter hq'
  have hfloats : q.predicate.filter.floats = [] :=
    Option.some.inj ((map_parse Filter.floats hf).symm.trans (by decide +kernel))
  have hfloats' : q'.predicate.filter.floats = [] :=
    Option.some.inj ((map_parse Filter.floats hg).symm.trans (by decide +kernel))
  have htext : q.predicate.filter.text = "page_count != 1" :=
    Option.some.inj ((map_parse Filter.text hf).symm.trans (by decide +kernel))
  have htext' : q'.predicate.filter.text = "page_count != 2" :=
    Option.some.inj ((map_parse Filter.text hg).symm.trans (by decide +kernel))
  refine ⟨page, token, hpage, htoken, ?_⟩
  apply (token_bound_to_filter ⟨"page_count != 1", "", 1, none⟩
    ⟨"page_count != 2", "", 1, some token⟩ Cipher.framed_binding hf hg hpage htoken rfl hq'
    ⟨le_rfl, Nat.le_of_ble_eq_true rfl⟩).2
  · rw [hfloats, hfloats']
    exact fun x hx ↦ absurd hx List.not_mem_nil
  · intro h
    rw [h, htext'] at htext
    exact absurd htext (by decide)

/-- A float of ten to the sixteenth passes for the word `1e16`. -/
theorem token_accepted_for_word : Cipher.framed.Binding ∧ ∃ page page' token f g,
    bookPage Cipher.framed [] twoBooks ⟨"page_count != 10000000000000000.0", "", 1, none⟩ =
        .ok page ∧
      page.nextPageToken? = some token ∧
      bookPage Cipher.framed [] twoBooks ⟨"page_count != 1e16", "", 1, some token⟩ = .ok page' ∧
      Filter.parse "page_count != 10000000000000000.0" = .ok f ∧
      Filter.parse "page_count != 1e16" = .ok g ∧ f ≠ g := by
  obtain ⟨q, hq⟩ : ∃ q,
      Query.compile bookshelf .book byName "page_count != 10000000000000000.0" "" = .ok q :=
    Outcome.exists_eq_ok_of_isOk (by decide +kernel)
  obtain ⟨q', hq'⟩ : ∃ q, Query.compile bookshelf .book byName "page_count != 1e16" "" = .ok q :=
    Outcome.exists_eq_ok_of_isOk (by decide +kernel)
  obtain ⟨page, token, last, hpage, htoken, hresumes⟩ := exists_first_page hq (by decide +kernel)
  have hf := Query.parse_filter hq
  have hg := Query.parse_filter hq'
  have htext : q.predicate.filter.text = "page_count != 1e16" :=
    Option.some.inj ((map_parse Filter.text hf).symm.trans (by decide +kernel))
  have htext' : q'.predicate.filter.text = "page_count != 1e16" :=
    Option.some.inj ((map_parse Filter.text hg).symm.trans (by decide +kernel))
  have hcontext : q.context = q'.context := by
    rw [Query.context, Query.context, htext, htext']
  have horder : q.order = q'.order := by
    obtain ⟨order, horder, hq⟩ := Query.exists_order_eq hq
    obtain ⟨order', horder', hq'⟩ := Query.exists_order_eq hq'
    obtain rfl := Except.ok.inj (horder.symm.trans horder')
    rw [hq, hq']
  obtain ⟨page', hpage', -⟩ := PageRequest.exists_answer
    ⟨"page_count != 1e16", "", 1, some token⟩ bookshelf_defaultsAreZero Cipher.framed_lawful
    (packable_twoBooks hq') [] hq' ⟨le_rfl, Nat.le_of_ble_eq_true rfl⟩
    (Query.resumes_congr horder hcontext hresumes)
  have hfloats : q.predicate.filter.floats.length = 1 :=
    Option.some.inj ((map_parse (·.floats.length) hf).symm.trans (by decide +kernel))
  have hfloats' : q'.predicate.filter.floats.length = 0 :=
    Option.some.inj ((map_parse (·.floats.length) hg).symm.trans (by decide +kernel))
  refine ⟨Cipher.framed_binding, page, page', token, _, _, hpage, htoken, hpage', hf, hg, ?_⟩
  intro h
  rw [h, hfloats'] at hfloats
  exact absurd hfloats (by decide)

end Example

end RecordQuery.Bookshelf

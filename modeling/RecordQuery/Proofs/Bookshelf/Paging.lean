import RecordQuery.Bookshelf.Books
import RecordQuery.Proofs.Cipher.Laws
import RecordQuery.Proofs.Listing.Editing
import RecordQuery.Proofs.Order.Merge

/-!
# Paging through the catalogue

The catalogue may change between two calls, and each call chooses its page size and is given fresh
randomness. On a catalogue that stays as it is, paging lists the stable sort of the matching books,
apart from books that tie with the last one of an earlier page; as every order ends up comparing
names, there are no ties where the names are distinct.
-/

namespace RecordQuery.Bookshelf

/-- The calls of a chain that lists books: `catalogue`, `sizes` and `nonces` give the books, the page
size and the randomness of each call. -/
def calls (cipher : Cipher) (filter orderBy : String) (catalogue : Nat → List Book)
    (sizes : Nat → Nat) (nonces : Nat → List UInt8) (n : Nat) (token? : Option String) :
    Except PageError (Page bookshelf .book) :=
  bookPage cipher (nonces n) (catalogue n) ⟨filter, orderBy, sizes n, token?⟩

variable {cipher : Cipher} {filter orderBy : String} {q : Query bookshelf .book}
  {sizes : Nat → Nat} {nonces : Nat → List UInt8}

/-- Each call of a chain shows the first books ahead. -/
theorem answers_calls (hcipher : cipher.Lawful)
    (hq : Query.compile bookshelf .book byName filter orderBy = .ok q)
    {catalogue : Nat → List Book} (hbooks : ∀ n, ∀ b ∈ catalogue n, q.Packable b)
    (hsizes : ∀ n, 1 ≤ sizes n ∧ sizes n ≤ pageSizeLimit) (nonces : Nat → List UInt8) :
    q.Answers cipher catalogue sizes
      (calls cipher filter orderBy catalogue sizes nonces) := by
  intro n token? last? h
  exact PageRequest.exists_answer ⟨filter, orderBy, sizes n, token?⟩ bookshelf_defaultsAreZero
    hcipher (hbooks n) (nonces n) hq (hsizes n) h

theorem field?_name :
    (bookshelf.describe .book).field? "name" = some (.plain "name" (.scalar .string)) := by
  decide

theorem reaches_name : bookshelf.Reaches .book ["name"] .string :=
  .scalar field?_name rfl

/-- The tie-breaker is among the keys of every compiled listing, whatever the caller sorts by. -/
theorem exists_name_key (hq : Query.compile bookshelf .book byName filter orderBy = .ok q) :
    ∃ k ∈ q.comparator.keys, k.key.path.segments = ["name"] := by
  obtain ⟨order, -, horder⟩ := Query.exists_order_eq hq
  obtain ⟨path, hmem, hname⟩ : ∃ path ∈ (order.thenBy byName).keys.map OrderKey.path,
      path.segments = ["name"] :=
    ⟨_, Order.mem_paths_thenBy_iff.2 (.inr List.mem_cons_self), rfl⟩
  rw [← horder, Query.order, ← q.comparator.keys_eq.1, List.map_map] at hmem
  obtain ⟨k, hk, rfl⟩ := List.mem_map.1 hmem
  exact ⟨k, hk, hname⟩

/-- A book has a name, and the key that sorts by it ranks the book by that name. -/
theorem get?_name_eq {k : SortKey BookshelfType} (hpath : k.key.path.segments = ["name"])
    (b : Book) :
    ∃ name, b.get? "name" = some (.string name) ∧
      k.rank b = (Value.string name : Value BookshelfType).rank := by
  have hreaches : bookshelf.Reaches .book k.key.path.segments .string := hpath ▸ reaches_name
  obtain ⟨hresolve, hadmits⟩ := hreaches.sortValue_eq b.fields_conform k.kind
  obtain ⟨name, hname⟩ : ∃ name, bookshelf.sortValue .book b.fields k.key.path k.kind =
      .string name := by simpa using Scalar.admits_cases hadmits
  obtain ⟨v, hv, -⟩ := exists_fieldOf? b.fields_conform field?_name
  have hfield : bookshelf.fieldIn? .book (some b.fields) "name" = b.get? "name" := rfl
  have hget : b.get? "name" = some v := by rw [Record.get?, hv]; rfl
  rw [hpath, Registry.resolveBelow_leaf (s := .string) field?_name rfl, hfield, hget, hname]
    at hresolve
  refine ⟨name, ?_, ?_⟩
  · rw [hget, ← Except.ok.inj hresolve]
    rfl
  · rw [SortKey.rank, hname]

/-- Books that tie under the order of a query have the same name. -/
theorem name_eq_of_tie (hq : Query.compile bookshelf .book byName filter orderBy = .ok q)
    {a b : Book} (h : q.comparator.compare a b = .eq) : a.get? "name" = b.get? "name" := by
  obtain ⟨k, hk, hpath⟩ := exists_name_key hq
  obtain ⟨name, ha, hrank⟩ := get?_name_eq hpath a
  obtain ⟨name', hb, hrank'⟩ := get?_name_eq hpath b
  have heq := (q.comparator.compare_eq_eq_iff a b).1 h k hk
  rw [hrank, hrank'] at heq
  rw [ha, hb, Value.string_rank_inj heq]

/-- Among books of distinct names no two that pass the filter compare equal, the tie-breaker telling
them apart. -/
theorem pairwise_filter_ne_eq (hq : Query.compile bookshelf .book byName filter orderBy = .ok q)
    {books : List Book} (hnames : books.Pairwise fun a b ↦ a.get? "name" ≠ b.get? "name") :
    (books.filter q.predicate.accepts).Pairwise fun a b ↦ q.comparator.compare a b ≠ .eq := by
  refine (hnames.sublist List.filter_sublist).imp ?_
  intro a b hne htie
  exact hne (name_eq_of_tie hq htie)

/-- Paging through a catalogue that stays as it is ends, and the pages are those that the stable sort
of the matching books is cut into; the order is that of the caller followed by the one by name. No
position of the catalogue is listed twice, and without ties every match is listed once and in order;
there are no ties where the names are distinct. -/
theorem paging_exact (hcipher : cipher.Lawful)
    (hq : Query.compile bookshelf .book byName filter orderBy = .ok q) {books : List Book}
    (hbooks : ∀ b ∈ books, q.Packable b) (hsizes : ∀ n, 1 ≤ sizes n ∧ sizes n ≤ pageSizeLimit) :
    Predicate.parse bookshelf .book filter = .ok q.predicate ∧
    (∃ order, Order.parse orderBy = .ok order ∧
      (order.thenBy byName).compile bookshelf .book = .ok q.comparator) ∧
    ∃ n pages,
      Progress.start.follow (calls cipher filter orderBy (fun _ ↦ books) sizes nonces) n =
        .ok ⟨pages, none⟩ ∧
      Paged q.comparator sizes (q.comparator.sort (books.filter q.predicate.accepts)) pages ∧
      (∃ positions : List Nat, positions.Nodup ∧
        positions.map (books[·]?) = (pages.flatMap Page.records).map some) ∧
      ((books.filter q.predicate.accepts).Pairwise (fun a b ↦ q.comparator.compare a b ≠ .eq) →
        pages.flatMap Page.records = q.comparator.sort (books.filter q.predicate.accepts)) ∧
      (books.Pairwise (fun a b ↦ a.get? "name" ≠ b.get? "name") →
        (books.filter q.predicate.accepts).Pairwise fun a b ↦ q.comparator.compare a b ≠ .eq) := by
  obtain ⟨hpredicate, hcomparator⟩ := Query.exists_of_compile hq
  have hcall := answers_calls hcipher hq (fun _ ↦ hbooks) hsizes nonces
  obtain ⟨n, pages, hfollow, hpaged⟩ :=
    q.exists_follow (fun n ↦ (hsizes n).1) hcall .start rfl q.resumes_none
  have hahead : q.ahead none books = q.comparator.sort (books.filter q.predicate.accepts) :=
    List.filter_eq_self.2 fun _ _ ↦ rfl
  have hpaged :
      Paged q.comparator sizes (q.comparator.sort (books.filter q.predicate.accepts)) pages := by
    rw [hahead] at hpaged
    simpa [Progress.start] using hpaged
  refine ⟨hpredicate, hcomparator, n, pages, hfollow, hpaged, exists_positions ?_, ?_, ?_⟩
  · exact hpaged.listed_sublist.subperm.trans
      ((q.comparator.sort_perm _).subperm.trans List.filter_sublist.subperm)
  · intro hties
    exact hpaged.listed_eq (q.comparator.pairwise_sort_ne_eq hties)
  · intro hnames
    exact pairwise_filter_ne_eq hq hnames

section Example

/-- A book of which only the name and the title are known. -/
def titled (name title : String) : Book :=
  ⟨[.string name, .string title, .list [], .map [], .list [], .ofSigned 0, .ofSigned 0], by
    have hzero (t : IntegerType) (h : t = .int64 ∨ t = .int32) :
        (Scalar.integer t).admits (Value.ofSigned 0 : Value BookshelfType) = true := by
      rcases h with rfl | rfl <;> decide
    simp [conforms, fieldsConform, itemsConform, pairsConform, bookshelf, BookshelfType.describe,
      Field.plain, hzero]
    exact ⟨rfl, rfl⟩⟩

/-- Without a sort text of its own, a listing sorts by the tie-breaker alone. -/
theorem order_eq_byName (hq : Query.compile bookshelf .book byName filter "" = .ok q) :
    q.order = byName := by
  obtain ⟨order, horder, hquery⟩ := Query.exists_order_eq hq
  have hempty : Order.parse "" = .ok .empty := rfl
  obtain rfl := Except.ok.inj (horder.symm.trans hempty)
  rw [hquery, Order.empty_thenBy]

theorem packable_titled (hq : Query.compile bookshelf .book byName filter "" = .ok q)
    {name : String} (title : String) (hname : Codec.ReadsBack (titled name "")) :
    q.Packable (titled name title) := by
  have hproject : (titled name title).project byName = .ok (titled name "") := rfl
  intro projected h
  rw [order_eq_byName hq, hproject] at h
  exact Except.ok.inj h ▸ hname

theorem readsBack_titled : Codec.ReadsBack (titled "a" "") ∧ Codec.ReadsBack (titled "b" "") := by
  constructor <;> unfold Codec.ReadsBack <;> with_unfolding_all rfl

/-- Without an order of the caller, titled books are compared by their names. -/
theorem compare_titled (hq : Query.compile bookshelf .book byName filter "" = .ok q)
    (name name' title title' : String) :
    q.comparator.compare (titled name title) (titled name' title') = Text.compare name name' := by
  have horder : q.comparator.order = byName := order_eq_byName hq
  have hkeys : q.comparator.keys = [⟨⟨⟨["name"], by simp, by decide⟩, .asc⟩, .string⟩] := by
    have hcompiled := q.comparator.compiled
    rw [horder] at hcompiled
    exact Except.ok.inj (hcompiled.symm.trans rfl)
  calc q.comparator.compare (titled name title) (titled name' title')
    _ = Comparator.firstDifference [Text.compare name name'] := by
      rw [Comparator.compare, hkeys]
      rfl
    _ = Text.compare name name' := by cases Text.compare name name' <;> rfl

theorem exists_compile_titles :
    ∃ q, Query.compile bookshelf .book byName "NOT title = \"z\"" "" = .ok q :=
  Outcome.exists_eq_ok_of_isOk (by decide +kernel)

/-- Four books with two names between them. -/
def fourBooks : List Book :=
  [titled "b" "x", titled "a" "y", titled "b" "w", titled "a" "z"]

/-- The filter of the witness keeps the three books that are not titled `z`, in the order of the
shelf. -/
theorem filter_fourBooks
    (hq : Query.compile bookshelf .book byName "NOT title = \"z\"" "" = .ok q) :
    fourBooks.filter q.predicate.accepts = [titled "b" "x", titled "a" "y", titled "b" "w"] := by
  have hholds : ((Filter.parse "NOT title = \"z\"").toOption.map fun f ↦
      fourBooks.map fun b ↦ f.holds bookshelf .book b.fields) = some [true, true, true, false] := by
    decide +kernel
  rw [Query.parse_filter hq] at hholds
  have haccepts : fourBooks.map q.predicate.accepts = [true, true, true, false] :=
    Option.some.inj hholds
  simp only [fourBooks, List.map_cons, List.map_nil, List.cons.injEq, and_true] at haccepts
  simp [fourBooks, haccepts]

/-- With pages of one book, the first book makes a page and the books that do not tie with it make the
others. -/
theorem paged_cons {c : Comparator bookshelf .book} {b : Book} {rest : List Book}
    (hrest : rest ≠ []) (token : String) {pages : List (Page bookshelf .book)}
    (h : Paged c (fun _ ↦ 1) (rest.filter fun b' ↦ c.compare b b' != .eq) pages) :
    Paged c (fun _ ↦ 1) (b :: rest) (⟨[b], some token⟩ :: pages) :=
  @Paged.more _ _ _ _ _ _ ⟨[b], some token⟩ rest b token pages rfl hrest rfl rfl h

/-- Pages of one book: the third match ties with the second one, so that it is left out and the page
in which it would have been is empty. -/
theorem paged_fourBooks
    (hq : Query.compile bookshelf .book byName "NOT title = \"z\"" "" = .ok q)
    {pages : List (Page bookshelf .book)} (h : Paged q.comparator (fun _ ↦ 1)
      (q.comparator.sort (fourBooks.filter q.predicate.accepts)) pages) :
    pages.map Page.records = [[titled "a" "y"], [titled "b" "x"], []] := by
  have hab : Text.compare "a" "b" = .lt := by decide
  have hba : Text.compare "b" "a" = .gt := by decide
  have hbb : Text.compare "b" "b" = .eq := by decide
  have hsort : q.comparator.sort [titled "b" "x", titled "a" "y", titled "b" "w"] =
      [titled "a" "y", titled "b" "x", titled "b" "w"] := by
    simp [Comparator.sort, List.mergeSort, compare_titled hq, hab, hba, hbb]
  have hthird : Paged q.comparator (fun _ ↦ 1) [] [⟨[], none⟩] :=
    @Paged.last _ _ _ _ _ _ ⟨[], none⟩ (Nat.zero_le 1) rfl
  have hsecond : Paged q.comparator (fun _ ↦ 1) [titled "b" "x", titled "b" "w"]
      [⟨[titled "b" "x"], some ""⟩, ⟨[], none⟩] := by
    refine paged_cons (List.cons_ne_nil _ _) "" ?_
    simpa [compare_titled hq, hbb] using hthird
  have hfirst : Paged q.comparator (fun _ ↦ 1) [titled "a" "y", titled "b" "x", titled "b" "w"]
      [⟨[titled "a" "y"], some ""⟩, ⟨[titled "b" "x"], some ""⟩, ⟨[], none⟩] := by
    refine paged_cons (List.cons_ne_nil _ _) "" ?_
    simpa [compare_titled hq, hab] using hsecond
  rw [filter_fourBooks hq, hsort] at h
  exact h.map_records_eq hfirst

/-- Of the books of one name only the first one is shown on pages of one book; the fourth book does
not match. -/
theorem paging_exact_four_books :
    ∃ n pages, Progress.start.follow (calls .framed "NOT title = \"z\"" "" (fun _ ↦ fourBooks)
        (fun _ ↦ 1) fun _ ↦ []) n = .ok ⟨pages, none⟩ ∧
      pages.map Page.records = [[titled "a" "y"], [titled "b" "x"], []] := by
  obtain ⟨q, hq⟩ := exists_compile_titles
  have hpackable : ∀ b ∈ fourBooks, q.Packable b := by
    intro b hb
    obtain ⟨ha, hb'⟩ := readsBack_titled
    simp only [fourBooks, List.mem_cons, List.not_mem_nil, or_false] at hb
    rcases hb with rfl | rfl | rfl | rfl
    · exact packable_titled hq _ hb'
    · exact packable_titled hq _ ha
    · exact packable_titled hq _ hb'
    · exact packable_titled hq _ ha
  obtain ⟨-, -, n, pages, hfollow, hpaged, -⟩ :=
    @paging_exact .framed _ _ q (fun _ ↦ 1) (fun _ ↦ []) Cipher.framed_lawful hq _ hpackable
      fun _ ↦ by decide
  exact ⟨n, pages, hfollow, paged_fourBooks hq hpaged⟩

end Example

/-- Paging goes on while the catalogue is replaced between calls, as long as names are distinct in each
catalogue: what is listed increases strictly, and once the chain has ended, every matching book that
was in all the catalogues has been listed once. -/
theorem paging_survives_edits (hcipher : cipher.Lawful)
    (hq : Query.compile bookshelf .book byName filter orderBy = .ok q)
    {catalogue : Nat → List Book} (hbooks : ∀ n, ∀ b ∈ catalogue n, q.Packable b)
    (hnames : ∀ n, (catalogue n).Pairwise fun a b ↦ a.get? "name" ≠ b.get? "name")
    (hsizes : ∀ n, 1 ≤ sizes n ∧ sizes n ≤ pageSizeLimit) (n : Nat) :
    ∃ p, Progress.start.follow (calls cipher filter orderBy catalogue sizes nonces) n = .ok p ∧
      p.listed.Pairwise (fun a b ↦ q.comparator.compare a b = .lt) ∧
      (p.next? = none → ∀ b, q.predicate.accepts b = true →
        (∀ k < p.pages.length, b ∈ catalogue k) → ∃! i : Nat, p.listed[i]? = some b) := by
  have hcall := answers_calls hcipher hq hbooks hsizes nonces
  have hties (k : Nat) := pairwise_filter_ne_eq hq (hnames k)
  have hstart : q.Advancing cipher catalogue .start := q.advancing_start
  obtain ⟨p, hp, hadvancing⟩ := hstart.exists_follow q hcall hties n
  refine ⟨p, hp, hadvancing.increasing, ?_⟩
  intro hend b haccepts hb
  exact hadvancing.existsUnique q hend haccepts hb

/-- The first of two books is removed and the second one is changed after the first call. -/
theorem paging_survives_removal :
    ∃ p, Progress.start.follow (calls .framed "NOT title = \"z\"" ""
      (fun n ↦ if n = 0 then [titled "b" "x", titled "a" "x"] else [titled "b" "y"]) (fun _ ↦ 1)
        fun _ ↦ []) 2 = .ok p ∧
      p.listed.Pairwise fun a b ↦ a ≠ b := by
  obtain ⟨q, hq⟩ := exists_compile_titles
  obtain ⟨p, hfollow, hincreasing, -⟩ :=
    @paging_survives_edits .framed _ _ q (fun _ ↦ 1) (fun _ ↦ []) Cipher.framed_lawful hq
      (fun n ↦ if n = 0 then [titled "b" "x", titled "a" "x"] else [titled "b" "y"])
      (fun n b hb ↦ by
        obtain ⟨ha, hb'⟩ := readsBack_titled
        split at hb <;> simp only [List.mem_cons, List.not_mem_nil, or_false] at hb
        · rcases hb with rfl | rfl
          · exact packable_titled hq _ hb'
          · exact packable_titled hq _ ha
        · exact hb ▸ packable_titled hq _ hb')
      (fun n ↦ by
        have hname (name title : String) : (titled name title).get? "name" = some (.string name) :=
          rfl
        split <;> simp [hname])
      (fun _ ↦ by decide) 2
  refine ⟨p, hfollow, ?_⟩
  apply hincreasing.imp
  intro a b hlt heq
  rw [heq, q.comparator.compare_self] at hlt
  simp at hlt

end RecordQuery.Bookshelf

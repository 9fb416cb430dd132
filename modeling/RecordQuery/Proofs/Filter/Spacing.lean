import RecordQuery.Proofs.Filter.Lexemes
import RecordQuery.Proofs.Filter.RoundTrip

/-!
# Blanks between tokens

The lexer loses nothing of a text and makes every token as long as it can be: the slices of the tokens
are the text but for blanks between them, each slice is lexed to its token when it stands alone, and no
slice could go on. How many blanks there are between two tokens, and which ones, changes no token as
long as there are some.
-/

namespace RecordQuery.Filter

variable {offset : Nat} {gap gap' source rest rest' cs cs' : List Char} {token : Token}
  {lexemes : List Lexeme} {slices : List (List Char)}

/-- Whether two texts have the same slices with blanks around them, and the second one has blanks
between two slices if the first one does. -/
inductive Respaced : List Char → List Char → List (List Char) → Prop
  | nil {gap gap' : List Char} (hgap : gap.all Text.isBlank = true)
      (hgap' : gap'.all Text.isBlank = true) : Respaced gap gap' []
  | cons {gap gap' slice rest rest' : List Char} {slices : List (List Char)}
      (hgap : gap.all Text.isBlank = true) (hgap' : gap'.all Text.isBlank = true)
      (hblank : gap ≠ [] → gap' ≠ []) (h : Respaced rest rest' slices) :
      Respaced (gap ++ (slice ++ rest)) (gap' ++ (slice ++ rest')) (slice :: slices)

/-- A tiling begins with the blanks before the first slice. -/
theorem Tiles.of_gap {lexeme : Lexeme} (h : Tiles offset (gap ++ (lexeme.source ++ rest))
      (lexeme :: lexemes)) (hgap : gap.all Text.isBlank = true) :
    IsSlice lexeme.source lexeme.token ∧ lexeme.token.EndsBefore rest ∧
      Tiles (offset + Text.byteLength gap + Text.byteLength lexeme.source) rest lexemes := by
  generalize htext : gap ++ (lexeme.source ++ rest) = text at h
  cases h with
  | @cons _ gap' source rest' token _ hgap' hslice hends h =>
    obtain ⟨c, body, rfl, hc, -⟩ := id hslice
    dsimp only [List.cons_append] at htext
    obtain ⟨htake, hdrop⟩ := takeWhile_gap hgap hc (body ++ rest)
    obtain ⟨htake', hdrop'⟩ := takeWhile_gap hgap' hc (body ++ rest')
    rw [htext] at htake hdrop
    obtain rfl := htake.symm.trans htake'
    obtain rfl := List.append_cancel_left (List.cons.inj (hdrop.symm.trans hdrop')).2
    exact ⟨hslice, hends, h⟩

/-- A gap separates tokens, unless it is empty in front of something. -/
theorem separates_of_gap (hgap : gap.all Text.isBlank = true) (h : gap ≠ [] ∨ rest = []) :
    Separates (gap ++ rest) := by
  cases gap with
  | nil =>
    obtain rfl := h.resolve_left (· rfl)
    simp [Separates]
  | cons c gap =>
    intro d hd
    obtain rfl := Option.some.inj hd
    have hblank : Text.isBlank c = true := List.all_eq_true.1 hgap c List.mem_cons_self
    refine ⟨by simp [inWord, hblank], ?_⟩
    rintro rfl
    exact absurd hblank (by decide)

/-- What follows a slice has no part in the run of word characters that the slice begins with, unless
the slice is a minus sign. -/
theorem IsSlice.takeWhile_append (h : IsSlice source token) (hrest : token.EndsBefore rest) :
    source = ['-'] ∨ (source ++ rest).takeWhile inWord = source.takeWhile inWord := by
  obtain ⟨c, body, rfl, -, hread⟩ := h
  by_cases hword : inWord c = true
  · have hr := hread [] (token.endsBefore_of_separates (by simp [Separates]))
    rw [List.append_nil, readToken_of_inWord hword] at hr
    split at hr
    next hminus =>
      obtain ⟨-, rfl⟩ := Prod.mk.inj (Except.ok.inj hr)
      obtain rfl : c = '-' := by simpa using (Bool.and_eq_true_iff.1 hminus).1
      exact .inl rfl
    next =>
      obtain ⟨rfl, hdrop⟩ := Prod.mk.inj (Except.ok.inj hr)
      have hall : ∀ d ∈ c :: body, inWord d = true :=
        List.forall_mem_cons.2 ⟨hword, List.dropWhile_eq_nil_iff.1 hdrop⟩
      rw [List.takeWhile_append_of_pos hall, (takeWhile_of_head (endsBefore_classify_iff.1 hrest)).1,
        List.append_nil, List.takeWhile_eq_self_iff.2 hall]
      exact .inr rfl
  · rw [List.cons_append, List.takeWhile_cons_of_neg hword, List.takeWhile_cons_of_neg hword]
    exact .inr rfl

/-- Whether a token may end before a slice is decided by the slice, whatever the slice itself ends
before. -/
theorem IsSlice.endsBefore_append_iff {next : Token} (h : IsSlice source next)
    (hrest : next.EndsBefore rest) (hrest' : next.EndsBefore rest') (token : Token) :
    token.EndsBefore (source ++ rest) ↔ token.EndsBefore (source ++ rest') := by
  have hhead : (source ++ rest).head? = (source ++ rest').head? := by
    rw [List.head?_append_of_ne_nil _ h.ne_nil, List.head?_append_of_ne_nil _ h.ne_nil]
  have hrun : isNumeral ('-' :: (source ++ rest).takeWhile inWord) =
      isNumeral ('-' :: (source ++ rest').takeWhile inWord) := by
    have hsigns (cs : List Char) : isNumeral ('-' :: (['-'] ++ cs).takeWhile inWord) = false := by
      rw [List.singleton_append, List.takeWhile_cons_of_pos (by decide), Bool.eq_false_iff, ne_eq,
        isNumeral_minus]
      intro hunsigned
      obtain ⟨c, tail, hcons, hdigit⟩ := hunsigned.exists_head
      obtain ⟨rfl, -⟩ := List.cons.inj hcons
      exact absurd hdigit (by decide)
    rcases h.takeWhile_append hrest with rfl | heq
    · rw [hsigns, hsigns]
    · rcases h.takeWhile_append hrest' with rfl | heq'
      · rw [hsigns, hsigns]
      · rw [heq, heq']
  cases token with
  | word | number | and | or | not => simp only [Token.EndsBefore, hhead]
  | minus => simp only [Token.EndsBefore, hrun]
  | comparator op => cases op <;> simp only [Token.EndsBefore, hhead]
  | text | leftParen | rightParen => rfl

/-- A text that is spaced otherwise is tiled by the same slices, which give the same tokens. -/
theorem Tiles.exists_respaced (h : Tiles offset cs lexemes)
    (hspaced : Respaced cs cs' (lexemes.map Lexeme.source)) (offset' : Nat) :
    ∃ lexemes', Tiles offset' cs' lexemes' ∧
      lexemes'.map Lexeme.token = lexemes.map Lexeme.token ∧
      ∀ token : Token, token.EndsBefore cs → token.EndsBefore cs' := by
  generalize hslices : lexemes.map Lexeme.source = slices at hspaced
  induction hspaced generalizing offset offset' lexemes with
  | @nil gap gap' hgap hgap' =>
    obtain rfl := List.map_eq_nil_iff.1 hslices
    refine ⟨[], .nil hgap', rfl, fun token _ ↦ ?_⟩
    have hend := token.endsBefore_of_separates (separates_of_gap hgap' (.inr rfl))
    rwa [List.append_nil] at hend
  | @cons gap gap' slice rest rest' slices hgap hgap' hblank _ ih =>
    obtain ⟨lexeme, lexemes, rfl, rfl, rfl⟩ := List.map_eq_cons_iff.1 hslices
    obtain ⟨hslice, hends, htiles⟩ := h.of_gap hgap
    obtain ⟨lexemes', htiles', htokens, hrest⟩ :=
      ih htiles (offset' + Text.byteLength gap' + Text.byteLength lexeme.source) rfl
    have hends' := hrest _ hends
    refine ⟨_, .cons hgap' hslice hends' htiles', by rw [List.map_cons, htokens, List.map_cons], ?_⟩
    intro token htoken
    by_cases hne : gap' = []
    · obtain rfl : gap = [] := by
        by_contra hgap
        exact hblank hgap hne
      subst hne
      exact (hslice.endsBefore_append_iff hends hends' token).1 htoken
    · exact token.endsBefore_of_separates (separates_of_gap hgap' (.inl hne))

/-- Filters of the same tokens are parsed alike, wherever the tokens stand. -/
theorem parse_congr {s s' : String} {lexemes lexemes' : List Lexeme} (h : lex s = .ok lexemes)
    (h' : lex s' = .ok lexemes') (htokens : lexemes'.map Lexeme.token = lexemes.map Lexeme.token)
    (f : Filter) : Filter.parse s' = .ok f ↔ Filter.parse s = .ok f := by
  have hlexes : Lexes s.toList (lexemes.map Lexeme.token) := lexes_of_lexFrom h
  have hlexes' : Lexes s'.toList (lexemes.map Lexeme.token) := htokens ▸ lexes_of_lexFrom h'
  have hiff (ts : List Token) : Lexes s'.toList ts ↔ Lexes s.toList ts := by
    constructor
    · intro hts
      exact hlexes'.det hts ▸ hlexes
    · intro hts
      exact hlexes.det hts ▸ hlexes'
  simp only [parse_eq_ok_iff, hiff]

/-- Lexing stops only at a quote that is left open or at an exclamation mark without an equals sign,
before which the text is lexed, and otherwise it loses nothing: the text is tiled by slices at increasing
offsets, each of which gives its token alone and ends where the token has to end. So spacing the text
otherwise does not change the filter that it is parsed to. -/
theorem lex_lossless (s : String) :
    (∀ position fault, lex s = .error (position, fault) →
      ∃ before c after ts, s.toList = before ++ c :: after ∧ position = Text.byteLength before ∧
        Lexes before ts ∧ StopsLexing c after fault) ∧
    ∀ lexemes, lex s = .ok lexemes →
      Tiles 0 s.toList lexemes ∧ lexemes.length ≤ s.toList.length ∧
      (lexemes.Pairwise fun a b ↦ a.offset < b.offset) ∧
      (∀ lexeme ∈ lexemes, lexeme.source ≠ [] ∧
        lex (String.ofList lexeme.source) = .ok [⟨0, lexeme.source, lexeme.token⟩] ∧
        ∃ before after, s.toList = before ++ lexeme.source ++ after ∧
          lexeme.offset = Text.byteLength before ∧ lexeme.token.EndsBefore after) ∧
      ∀ s' : String, Respaced s.toList s'.toList (lexemes.map Lexeme.source) →
        ∀ f, Filter.parse s' = .ok f ↔ Filter.parse s = .ok f := by
  constructor
  · intro position fault h
    rcases tiles_or_stops 0 s.toList with ⟨lexemes, htiles⟩ |
      ⟨before, c, after, lexemes, fault', hs, htiles, hstops, herror⟩
    · exact nomatch htiles.lexFrom_eq.symm.trans h
    · obtain ⟨rfl, rfl⟩ := Prod.mk.inj (Except.error.inj (herror.symm.trans h))
      exact ⟨before, c, after, _, hs, Nat.zero_add _, lexes_of_lexFrom htiles.lexFrom_eq, hstops⟩
  · intro lexemes h
    have htiles : Tiles 0 s.toList lexemes := lexFrom_eq_ok_iff.1 h
    refine ⟨htiles, htiles.length_le, htiles.pairwise, fun lexeme hmem ↦ ?_, fun s' hspaced ↦ ?_⟩
    · obtain ⟨hslice, before, after, hs, hoffset, hends⟩ := htiles.exists_eq hmem
      refine ⟨hslice.ne_nil, ?_, before, after, hs, hoffset.trans (Nat.zero_add _), hends⟩
      rw [lex, String.toList_ofList, hslice.lexFrom_eq]
    · obtain ⟨lexemes', htiles', htokens, -⟩ := htiles.exists_respaced hspaced 0
      exact parse_congr h htiles'.lexFrom_eq htokens

/-- A comparison with a negative number, with and without blanks in it. -/
theorem lex_lossless_comparison :
    ∃ f, Filter.parse "year>-5" = .ok f ∧ Filter.parse "year  > -5" = .ok f := by
  have hlex : lex "year>-5" = .ok [⟨0, ['y', 'e', 'a', 'r'], .word "year"⟩,
      ⟨4, ['>'], .comparator .gt⟩, ⟨5, ['-', '5'], .number "-5"⟩] := by
    with_unfolding_all rfl
  have hnone : ([] : List Char).all Text.isBlank = true := rfl
  have hnumber := @Respaced.cons [] [' '] ['-', '5'] [] [] [] hnone rfl
    (fun _ ↦ List.cons_ne_nil ' ' []) (.nil hnone hnone)
  have hcomparator := @Respaced.cons [] [' ', ' '] ['>'] _ _ _ hnone rfl
    (fun _ ↦ List.cons_ne_nil ' ' [' ']) hnumber
  have hspaced : Respaced "year>-5".toList "year  > -5".toList
      [['y', 'e', 'a', 'r'], ['>'], ['-', '5']] :=
    @Respaced.cons [] [] ['y', 'e', 'a', 'r'] _ _ _ hnone hnone id hcomparator
  obtain ⟨-, -, -, -, hparse⟩ := (lex_lossless "year>-5").2 _ hlex
  have hyear : Filter.parse "year>-5" = .ok ⟨some [[[.restriction false
      ⟨.member ["year"], some (.gt, .literal (.integer (.ofInt (-5))))⟩]]]⟩ := by
    with_unfolding_all rfl
  exact ⟨_, hyear, (hparse "year  > -5" hspaced _).2 hyear⟩

end RecordQuery.Filter

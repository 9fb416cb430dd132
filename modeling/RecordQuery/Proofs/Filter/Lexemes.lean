import RecordQuery.Proofs.Filter.Lexer

/-!
# Slices of a text

Every token is read from a slice of the text, and whether it is read depends on little of what comes
after the slice: a word goes on as long as it can, ">" and "<" take an equals sign that follows, and a
minus sign belongs to a numeral that it begins. A text that is lexed is tiled by the slices of its
tokens, with blanks before and after them. Where lexing stops instead, the text is tiled up to a quote
that is left open or an exclamation mark without an equals sign.
-/

namespace RecordQuery.Filter

variable {c quote : Char} {cs body content rest more : List Char} {token : Token}

section Quoted

/-- Whether characters between quotes stand for the given content. -/
inductive Quoted (quote : Char) : List Char → List Char → Prop
  | nil : Quoted quote [] []
  | plain {c : Char} {body content : List Char} (hquote : c ≠ quote) (hc : c ≠ '\\')
      (h : Quoted quote body content) : Quoted quote (c :: body) (c :: content)
  | escape {c : Char} {body content : List Char} (h : Quoted quote body content) :
      Quoted quote ('\\' :: c :: body) (unescape c :: content)

/-- A quoted text is read up to its closing quote, whatever comes after it. -/
theorem Quoted.readQuoted (hquote : quote ≠ '\\') (h : Quoted quote body content)
    (rest : List Char) : readQuoted quote (body ++ quote :: rest) = .ok (content, rest) := by
  induction h with
  | nil => rw [List.nil_append, readQuoted_of_ne quote hquote, if_pos (beq_self_eq_true quote)]
  | plain hne hc _ ih =>
    rw [List.cons_append, readQuoted_of_ne quote hc, if_neg (by simpa using hne), ih]
    rfl
  | escape _ ih =>
    rw [List.cons_append, List.cons_append, Filter.readQuoted, ih]
    rfl

/-- Whatever is read as the content of a quoted text is quoted by the characters that were consumed.
-/
theorem exists_quoted_of_readQuoted (h : readQuoted quote cs = .ok (content, rest)) :
    ∃ body, cs = body ++ quote :: rest ∧ Quoted quote body content := by
  have hplain {c : Char} {cs : List Char} (hlast : c = '\\' → cs = [] → False)
      (hescape : ∀ d ds, c = '\\' → cs = d :: ds → False) : c ≠ '\\' := by
    rintro rfl
    cases cs with
    | nil => exact hlast rfl rfl
    | cons d ds => exact hescape d ds rfl rfl
  fun_induction readQuoted quote cs generalizing content rest with
  | case1 => simp at h
  | case2 => simp at h
  | case3 c cs ih =>
    obtain ⟨⟨content', rest'⟩, hr, heq⟩ := Outcome.map_eq_ok_iff.1 h
    cases heq
    obtain ⟨body, rfl, hbody⟩ := ih hr
    exact ⟨'\\' :: c :: body, rfl, .escape hbody⟩
  | case4 c cs hlast hescape hc =>
    cases h
    obtain rfl := beq_iff_eq.1 hc
    exact ⟨[], rfl, .nil⟩
  | case5 c cs hlast hescape hc ih =>
    obtain ⟨⟨content', rest'⟩, hr, heq⟩ := Outcome.map_eq_ok_iff.1 h
    cases heq
    obtain ⟨body, rfl, hbody⟩ := ih hr
    exact ⟨c :: body, rfl, .plain (by simpa using hc) (hplain hlast hescape) hbody⟩

end Quoted

section Ends

/-- Whether a token that has been read may end before the given text. -/
def Token.EndsBefore : Token → List Char → Prop
  | word _, rest | number _, rest | and, rest | or, rest | not, rest =>
    ∀ c ∈ rest.head?, inWord c = false
  | minus, rest => isNumeral ('-' :: rest.takeWhile inWord) = false
  | comparator .gt, rest | comparator .lt, rest => rest.head? ≠ some '='
  | _, _ => True

/-- A text that separates tokens may follow anything a token may end before. -/
theorem Token.endsBefore_append_iff (h : Separates more) (token : Token) (rest : List Char) :
    token.EndsBefore (rest ++ more) ↔ token.EndsBefore rest := by
  have hhead : (∀ c ∈ (rest ++ more).head?, inWord c = false) ↔
      ∀ c ∈ rest.head?, inWord c = false := by
    cases rest with
    | nil => simpa using fun c hc ↦ (h c hc).1
    | cons c rest => rfl
  have hequals : (rest ++ more).head? ≠ some '=' ↔ rest.head? ≠ some '=' := by
    cases rest with
    | nil => simpa using fun heq ↦ (h '=' heq).2 rfl
    | cons c rest => rfl
  cases token with
  | word | number | and | or | not => exact hhead
  | minus => simp only [EndsBefore, takeWhile_append_of_separates h]
  | comparator op => cases op <;> first | exact hequals | rfl
  | text | leftParen | rightParen => rfl

theorem Token.endsBefore_of_separates (h : Separates more) (token : Token) :
    token.EndsBefore more := by
  rw [← List.nil_append more, token.endsBefore_append_iff h]
  cases token with
  | word | number | and | or | not => exact fun c hc ↦ nomatch hc
  | minus => rfl
  | comparator op => cases op <;> simp [EndsBefore]
  | text | leftParen | rightParen => trivial

end Ends

section Slices

/-- Whether a token is read from a slice of a text, before everything that it may end before. -/
def IsSlice (source : List Char) (token : Token) : Prop :=
  ∃ c body, source = c :: body ∧ Text.isBlank c = false ∧
    ∀ more, token.EndsBefore more → readToken c (body ++ more) = .ok (token, more)

theorem endsBefore_classify_iff {run : List Char} :
    (classify run).EndsBefore rest ↔ ∀ c ∈ rest.head?, inWord c = false := by
  unfold classify
  split
  · rfl
  · split
    · rfl
    · split
      · rfl
      · split <;> rfl

/-- A minus sign that begins no numeral is a token, and so is every other run of word characters. -/
theorem exists_slice_of_inWord (hword : inWord c = true) (h : readToken c cs = .ok (token, rest)) :
    ∃ body, cs = body ++ rest ∧ token.EndsBefore rest ∧
      ∀ more, token.EndsBefore more → readToken c (body ++ more) = .ok (token, more) := by
  rw [readToken_of_inWord hword] at h
  split at h
  next hminus =>
    cases h
    obtain ⟨hc, hnumeral⟩ : c = '-' ∧ isNumeral (c :: cs.takeWhile inWord) = false := by
      simpa using hminus
    obtain rfl := hc
    refine ⟨[], rfl, hnumeral, fun more hmore ↦ ?_⟩
    rw [List.nil_append, readToken_of_inWord hword, if_pos]
    rw [show isNumeral ('-' :: more.takeWhile inWord) = false from hmore]
    rfl
  next hrun =>
    cases h
    refine ⟨cs.takeWhile inWord, List.takeWhile_append_dropWhile.symm,
      endsBefore_classify_iff.2 fun d hd ↦ ?_, fun more hmore ↦ ?_⟩
    · have hhead := List.head?_dropWhile_not inWord cs
      rw [Option.mem_def.1 hd] at hhead
      simpa using hhead
    · have hall : ∀ d ∈ cs.takeWhile inWord, inWord d = true :=
        fun d hd ↦ List.all_eq_true.1 List.all_takeWhile d hd
      obtain ⟨htake, hdrop⟩ := takeWhile_of_head (endsBefore_classify_iff.1 hmore)
      rw [readToken_of_inWord hword, List.takeWhile_append_of_pos hall,
        List.dropWhile_append_of_pos hall, htake, hdrop, List.append_nil, if_neg hrun]

theorem exists_slice_of_quote (hquote : quote = '"' ∨ quote = '\'')
    (h : readToken quote cs = .ok (token, rest)) :
    ∃ body, cs = body ++ rest ∧ token.EndsBefore rest ∧
      ∀ more, token.EndsBefore more → readToken quote (body ++ more) = .ok (token, more) := by
  have hne : quote ≠ '\\' := by rcases hquote with rfl | rfl <;> decide
  rw [readToken_of_quote hquote] at h
  obtain ⟨⟨content, tail⟩, hquoted, heq⟩ := Outcome.map_eq_ok_iff.1 h
  cases heq
  obtain ⟨body, rfl, hbody⟩ := exists_quoted_of_readQuoted hquoted
  refine ⟨body ++ [quote], by simp, trivial, fun more _ ↦ ?_⟩
  rw [readToken_of_quote hquote, List.append_assoc, List.singleton_append, hbody.readQuoted hne]
  rfl

/-- A comparator takes its equals sign if there is one, so it may end before anything but that sign.
-/
theorem exists_slice_of_comparator {alone withEquals : Operator}
    (h : readComparator alone withEquals cs = (token, rest))
    (halone : ∀ rest, (Token.comparator alone).EndsBefore rest ↔ rest.head? ≠ some '=')
    (hequals : ∀ rest, (Token.comparator withEquals).EndsBefore rest) :
    ∃ body, cs = body ++ rest ∧ token.EndsBefore rest ∧
      ∀ more, token.EndsBefore more →
        readComparator alone withEquals (body ++ more) = (token, more) := by
  have hread {more : List Char} (hmore : more.head? ≠ some '=') :
      readComparator alone withEquals more = (.comparator alone, more) := by
    unfold readComparator
    split
    · exact absurd rfl hmore
    · rfl
  by_cases hcs : cs.head? = some '='
  · obtain ⟨tail, rfl⟩ := List.head?_eq_some_iff.1 hcs
    cases h
    exact ⟨['='], rfl, hequals _, fun more _ ↦ rfl⟩
  · rw [hread hcs] at h
    cases h
    exact ⟨[], rfl, (halone _).2 hcs, fun more hmore ↦ hread ((halone more).1 hmore)⟩

/-- Every token is read from a slice. -/
theorem exists_slice (hc : Text.isBlank c = false) (h : readToken c cs = .ok (token, rest)) :
    ∃ body, cs = body ++ rest ∧ token.EndsBefore rest ∧ IsSlice (c :: body) token := by
  suffices hbody : ∃ body, cs = body ++ rest ∧ token.EndsBefore rest ∧
      ∀ more, token.EndsBefore more → readToken c (body ++ more) = .ok (token, more) by
    obtain ⟨body, hcs, hends, hread⟩ := hbody
    exact ⟨body, hcs, hends, c, body, rfl, hc, hread⟩
  by_cases hword : inWord c = true
  · exact exists_slice_of_inWord hword h
  · rcases special_of_not_inWord hc hword with
      rfl | rfl | rfl | rfl | rfl | rfl | rfl | rfl | rfl
    · cases h
      exact ⟨[], rfl, trivial, fun _ _ ↦ rfl⟩
    · cases h
      exact ⟨[], rfl, trivial, fun _ _ ↦ rfl⟩
    · exact exists_slice_of_quote (.inl rfl) h
    · exact exists_slice_of_quote (.inr rfl) h
    · cases h
      exact ⟨[], rfl, trivial, fun _ _ ↦ rfl⟩
    · obtain ⟨tail, rfl⟩ := exists_cons_of_readToken_exclamation h
      cases h
      exact ⟨['='], rfl, trivial, fun _ _ ↦ rfl⟩
    · obtain ⟨body, hcs, hends, hread⟩ := exists_slice_of_comparator (Except.ok.inj h)
        (fun _ ↦ Iff.rfl) fun _ ↦ trivial
      exact ⟨body, hcs, hends, fun more hmore ↦ congrArg Except.ok (hread more hmore)⟩
    · obtain ⟨body, hcs, hends, hread⟩ := exists_slice_of_comparator (Except.ok.inj h)
        (fun _ ↦ Iff.rfl) fun _ ↦ trivial
      exact ⟨body, hcs, hends, fun more hmore ↦ congrArg Except.ok (hread more hmore)⟩
    · cases h
      exact ⟨[], rfl, trivial, fun _ _ ↦ rfl⟩

end Slices

section Faults

/-- What stops the lexer: a quote that is left open, or an exclamation mark without an equals sign. -/
inductive StopsLexing : Char → List Char → Fault → Prop
  | quote {quote : Char} {cs : List Char} {fault : Fault} (hquote : quote = '"' ∨ quote = '\'')
      (hopen : ∀ body content rest, Quoted quote body content → cs ≠ body ++ quote :: rest)
      (hfault : fault = .openString ∨ fault = .openEscape) : StopsLexing quote cs fault
  | exclamation {cs : List Char} (h : cs.head? ≠ some '=') :
      StopsLexing '!' cs .loneExclamation

variable {fault : Fault}

theorem fault_of_readQuoted (h : readQuoted quote cs = .error fault) :
    fault = .openString ∨ fault = .openEscape := by
  fun_induction readQuoted quote cs with
  | case1 => exact .inl (Except.error.inj h).symm
  | case2 => exact .inr (Except.error.inj h).symm
  | case3 c cs ih => exact ih (Outcome.map_eq_error_iff.1 h)
  | case4 c cs hlast hescape hc => cases h
  | case5 c cs hlast hescape hc ih => exact ih (Outcome.map_eq_error_iff.1 h)

theorem stopsLexing_of_quote (hquote : quote = '"' ∨ quote = '\'')
    (h : readToken quote cs = .error fault) : StopsLexing quote cs fault := by
  have hne : quote ≠ '\\' := by rcases hquote with rfl | rfl <;> decide
  rw [readToken_of_quote hquote, Outcome.map_eq_error_iff] at h
  refine .quote hquote ?_ (fault_of_readQuoted h)
  rintro body content rest hbody rfl
  rw [hbody.readQuoted hne] at h
  cases h

/-- If no token is read, the lexer has stopped at an open quote or at a lone exclamation mark. -/
theorem stopsLexing_of_readToken (hc : Text.isBlank c = false)
    (h : readToken c cs = .error fault) : StopsLexing c cs fault := by
  by_cases hword : inWord c = true
  · rw [readToken_of_inWord hword] at h
    split at h <;> exact nomatch h
  · rcases special_of_not_inWord hc hword with
      rfl | rfl | rfl | rfl | rfl | rfl | rfl | rfl | rfl
    case inr.inr.inl => exact stopsLexing_of_quote (.inl rfl) h
    case inr.inr.inr.inl => exact stopsLexing_of_quote (.inr rfl) h
    case inr.inr.inr.inr.inr.inl =>
      by_cases hcs : cs.head? = some '='
      · obtain ⟨tail, rfl⟩ := List.head?_eq_some_iff.1 hcs
        exact nomatch h
      · unfold readToken at h
        simp only [Char.reduceBEq, Bool.false_eq_true, if_false, if_true, Bool.or_self] at h
        split at h
        · exact absurd rfl hcs
        · obtain rfl := Except.error.inj h
          exact .exclamation hcs
    all_goals exact nomatch h

/-- Where the lexer stops, every token before has ended. -/
theorem StopsLexing.separates (h : StopsLexing c cs fault) : Separates (c :: cs) := by
  intro d hd
  obtain rfl := Option.some.inj hd
  cases h with
  | quote hquote => rcases hquote with rfl | rfl <;> decide
  | exclamation => decide

end Faults

section Tiles

/-- Whether a text, which starts at the given byte offset, is tiled by lexemes with blanks around
them. -/
inductive Tiles : Nat → List Char → List Lexeme → Prop
  | nil {offset : Nat} {gap : List Char} (hgap : gap.all Text.isBlank = true) : Tiles offset gap []
  | cons {offset : Nat} {gap source rest : List Char} {token : Token} {lexemes : List Lexeme}
      (hgap : gap.all Text.isBlank = true) (hslice : IsSlice source token)
      (hends : token.EndsBefore rest)
      (h : Tiles (offset + Text.byteLength gap + Text.byteLength source) rest lexemes) :
      Tiles offset (gap ++ (source ++ rest)) (⟨offset + Text.byteLength gap, source, token⟩ :: lexemes)

variable {offset : Nat} {gap source tail : List Char} {lexemes : List Lexeme} {fault : Fault}

/-- The blanks in front of a token are the gap before it. -/
theorem takeWhile_gap (hgap : gap.all Text.isBlank = true) (hc : Text.isBlank c = false)
    (cs : List Char) :
    (gap ++ c :: cs).takeWhile Text.isBlank = gap ∧
      (gap ++ c :: cs).dropWhile Text.isBlank = c :: cs := by
  have hall := List.all_eq_true.1 hgap
  rw [List.takeWhile_append_of_pos hall, List.dropWhile_append_of_pos hall,
    List.takeWhile_cons_of_neg (by simp [hc]), List.dropWhile_cons_of_neg (by simp [hc])]
  exact ⟨List.append_nil gap, rfl⟩

/-- A text is blank or has a first character that is not. -/
theorem exists_gap (cs : List Char) :
    cs.all Text.isBlank = true ∨ ∃ gap c tail, cs = gap ++ c :: tail ∧
      gap.all Text.isBlank = true ∧ Text.isBlank c = false := by
  have hsplit := List.takeWhile_append_dropWhile (p := Text.isBlank) (l := cs)
  cases hd : cs.dropWhile Text.isBlank with
  | nil => exact .inl (List.all_eq_true.2 (List.dropWhile_eq_nil_iff.1 hd))
  | cons c tail =>
    rw [hd] at hsplit
    exact .inr ⟨_, c, tail, hsplit.symm, List.all_takeWhile, isBlank_of_dropWhile hd⟩

/-- What the lexer does with the first token of a text. -/
theorem lexFrom_gap (hgap : gap.all Text.isBlank = true) (hc : Text.isBlank c = false)
    (offset : Nat) (cs : List Char) :
    lexFrom offset (gap ++ c :: cs) =
      ((readToken c cs).mapError fun fault ↦ (offset + Text.byteLength gap, fault)).bind
        fun (token, rest) ↦
          let source := (c :: cs).take (cs.length + 1 - rest.length)
          (lexFrom (offset + Text.byteLength gap + Text.byteLength source) rest).map
            (⟨offset + Text.byteLength gap, source, token⟩ :: ·) := by
  obtain ⟨htake, hdrop⟩ := takeWhile_gap hgap hc cs
  rw [lexFrom]
  split
  next hd => exact nomatch hdrop.symm.trans hd
  next c' tail hd =>
    obtain ⟨rfl, rfl⟩ := List.cons.inj (hdrop.symm.trans hd)
    dsimp only
    split
    next fault hr =>
      rw [htake, hr]
      rfl
    next token rest hr =>
      rw [htake, hr]
      rfl

/-- After its gap, a slice of the text is lexed to its token and the lexer goes on behind it, the
offset moved by the bytes of both. -/
theorem lexFrom_slice (hgap : gap.all Text.isBlank = true) (hslice : IsSlice source token)
    (hends : token.EndsBefore rest) (offset : Nat) :
    lexFrom offset (gap ++ (source ++ rest)) =
      (lexFrom (offset + Text.byteLength gap + Text.byteLength source) rest).map
        (⟨offset + Text.byteLength gap, source, token⟩ :: ·) := by
  obtain ⟨c, body, rfl, hc, hread⟩ := hslice
  have hsource : (c :: (body ++ rest)).take ((body ++ rest).length + 1 - rest.length) =
      c :: body := by
    have hlength : (body ++ rest).length + 1 - rest.length = (c :: body).length := by
      rw [List.length_append, List.length_cons]
      omega
    rw [hlength, ← List.cons_append, List.take_left]
  rw [List.cons_append, lexFrom_gap hgap hc, hread rest hends]
  simp only [Except.mapError, Except.bind, hsource]

/-- A text tiled by lexemes is lexed to them. The induction is on the tiling, one slice at a time.
-/
theorem Tiles.lexFrom_eq (h : Tiles offset cs lexemes) : lexFrom offset cs = .ok lexemes := by
  induction h with
  | nil hgap => exact lexFrom_of_blank (List.dropWhile_eq_nil_iff.2 (List.all_eq_true.1 hgap)) _
  | cons hgap hslice hends _ ih =>
    rw [lexFrom_slice hgap hslice hends, ih]
    rfl

/-- A text is tiled by its lexemes, or it is so up to where the lexer stops. -/
theorem tiles_or_stops (offset : Nat) (cs : List Char) :
    (∃ lexemes, Tiles offset cs lexemes) ∨
      ∃ before c after lexemes fault, cs = before ++ c :: after ∧ Tiles offset before lexemes ∧
        StopsLexing c after fault ∧
        lexFrom offset cs = .error (offset + Text.byteLength before, fault) := by
  induction hlength : cs.length using Nat.strongRecOn generalizing offset cs with
  | _ length ih =>
    rcases exists_gap cs with hblank | ⟨gap, c, tail, rfl, hgap, hc⟩
    · exact .inl ⟨[], .nil hblank⟩
    cases hr : readToken c tail with
    | error fault =>
      refine .inr ⟨gap, c, tail, [], fault, rfl, .nil hgap, stopsLexing_of_readToken hc hr, ?_⟩
      rw [lexFrom_gap hgap hc, hr]
      rfl
    | ok read =>
      obtain ⟨token, rest⟩ := read
      obtain ⟨body, rfl, hends, hslice⟩ := exists_slice hc hr
      have hlt : rest.length < length := by
        simp only [List.length_append, List.length_cons] at hlength
        omega
      have hlex := lexFrom_slice hgap hslice hends offset
      rcases ih rest.length hlt _ rest rfl with ⟨lexemes, htiles⟩ |
        ⟨before, c', after, lexemes, fault, rfl, htiles, hstops, herror⟩
      · exact .inl ⟨_, .cons hgap hslice hends htiles⟩
      · -- the token also ends before the part of the rest that is tiled
        rw [Token.endsBefore_append_iff hstops.separates] at hends
        refine .inr ⟨gap ++ (c :: body ++ before), c', after, _, fault, by simp,
          .cons hgap hslice hends htiles, hstops, hlex.trans ?_⟩
        rw [herror]
        simp only [Except.map, Text.byteLength_append, Nat.add_assoc]

/-- The lexer succeeds exactly on the texts that lexemes tile, and gives those lexemes. -/
theorem lexFrom_eq_ok_iff : lexFrom offset cs = .ok lexemes ↔ Tiles offset cs lexemes := by
  constructor
  · intro h
    rcases tiles_or_stops offset cs with ⟨lexemes', htiles⟩ | ⟨_, _, _, _, _, _, _, _, herror⟩
    · obtain rfl := Except.ok.inj (h.symm.trans htiles.lexFrom_eq)
      exact htiles
    · exact nomatch h.symm.trans herror
  · exact Tiles.lexFrom_eq

theorem IsSlice.ne_nil (h : IsSlice source token) : source ≠ [] := by
  obtain ⟨c, body, rfl, -⟩ := h
  exact List.cons_ne_nil c body

/-- A slice of a text is lexed alone to its token. -/
theorem IsSlice.lexFrom_eq (h : IsSlice source token) : lexFrom 0 source = .ok [⟨0, source, token⟩] := by
  have htiles : Tiles 0 ([] ++ (source ++ [])) [⟨0, source, token⟩] :=
    .cons rfl h (token.endsBefore_of_separates (by simp [Separates])) (.nil rfl)
  rw [List.append_nil, List.nil_append] at htiles
  exact htiles.lexFrom_eq

/-- Every lexeme is a slice of the text at its offset. -/
theorem Tiles.exists_eq (h : Tiles offset cs lexemes) {lexeme : Lexeme} (hmem : lexeme ∈ lexemes) :
    IsSlice lexeme.source lexeme.token ∧ ∃ before after, cs = before ++ lexeme.source ++ after ∧
      lexeme.offset = offset + Text.byteLength before ∧ lexeme.token.EndsBefore after := by
  induction h with
  | nil => exact nomatch hmem
  | @cons offset gap source rest token lexemes hgap hslice hends _ ih =>
    rcases List.mem_cons.1 hmem with rfl | hmem
    · exact ⟨hslice, gap, rest, (List.append_assoc _ _ _).symm, rfl, hends⟩
    · obtain ⟨hslice', before, after, rfl, hoffset, hends'⟩ := ih hmem
      refine ⟨hslice', gap ++ (source ++ before), after, by simp, ?_, hends'⟩
      simp only [hoffset, Text.byteLength_append, Nat.add_assoc]

/-- The offsets of the lexemes of a tiling increase, since no slice is empty. -/
theorem Tiles.pairwise (h : Tiles offset cs lexemes) :
    lexemes.Pairwise fun a b ↦ a.offset < b.offset := by
  induction h with
  | nil => exact .nil
  | cons hgap hslice hends h ih =>
    refine .cons (fun lexeme hmem ↦ ?_) ih
    obtain ⟨-, before, after, -, hoffset, -⟩ := h.exists_eq hmem
    have hpos := Text.byteLength_pos hslice.ne_nil
    dsimp only
    omega

theorem Tiles.length_le (h : Tiles offset cs lexemes) : lexemes.length ≤ cs.length := by
  induction h with
  | nil => exact Nat.zero_le _
  | @cons offset gap source rest token lexemes hgap hslice hends _ ih =>
    have hpos := List.length_pos_iff.2 hslice.ne_nil
    simp only [List.length_append, List.length_cons]
    omega

end Tiles

end RecordQuery.Filter

import Mathlib.Data.List.TakeWhile
import RecordQuery.Filter.Printer
import RecordQuery.Filter.Lexer
import RecordQuery.Proofs.Outcome

/-!
# Lexing what has been printed

`Lexes` says which tokens a text consists of, without the offsets. A token as it is written, followed
by a blank, by a closing parenthesis or by nothing, is read as that token again; a number token of
which the text is no numeral is read as a word, after a minus sign if it starts with one.
-/

namespace RecordQuery.Filter

/-- The tokens that a text consists of. -/
inductive Lexes : List Char → List Token → Prop
  | nil {cs : List Char} (h : cs.dropWhile Text.isBlank = []) : Lexes cs []
  | cons {cs tail rest : List Char} {c : Char} {token : Token} {ts : List Token}
      (hd : cs.dropWhile Text.isBlank = c :: tail) (hr : readToken c tail = .ok (token, rest))
      (h : Lexes rest ts) : Lexes cs (token :: ts)

theorem lexFrom_of_blank {cs : List Char} (h : cs.dropWhile Text.isBlank = []) (offset : Nat) :
    lexFrom offset cs = .ok [] := by
  rw [lexFrom]
  split
  · rfl
  · rename_i hd
    simp [hd] at h

/-- The lexer skips blanks, reads one token, and goes on with the rest of the text. -/
theorem lexFrom_of_readToken {cs tail rest : List Char} {c : Char} {token : Token}
    (hd : cs.dropWhile Text.isBlank = c :: tail) (hr : readToken c tail = .ok (token, rest))
    (offset : Nat) :
    ∃ start source, lexFrom offset cs =
      (lexFrom (start + Text.byteLength source) rest).map (⟨start, source, token⟩ :: ·) := by
  rw [lexFrom]
  split
  · rename_i hd'
    simp [hd] at hd'
  · rename_i c' tail' hd'
    obtain ⟨rfl, rfl⟩ := List.cons.inj (hd.symm.trans hd')
    split
    · rename_i hr'
      simp [hr] at hr'
    · rename_i token' rest' hr'
      obtain ⟨rfl, rfl⟩ := Prod.mk.inj (Except.ok.inj (hr.symm.trans hr'))
      exact ⟨_, _, rfl⟩

/-- A text that is lexed to tokens by the relation is lexed to them by the lexer, from every offset.
-/
theorem Lexes.exists_lexFrom {cs : List Char} {ts : List Token} (h : Lexes cs ts) (offset : Nat) :
    ∃ lexemes, lexFrom offset cs = .ok lexemes ∧ lexemes.map Lexeme.token = ts := by
  induction h generalizing offset with
  | nil h => exact ⟨[], lexFrom_of_blank h offset, rfl⟩
  | cons hd hr _ ih =>
    obtain ⟨start, source, heq⟩ := lexFrom_of_readToken hd hr offset
    obtain ⟨lexemes, hlexemes, hts⟩ := ih (start + Text.byteLength source)
    rw [heq, hlexemes]
    exact ⟨_, rfl, by rw [List.map_cons, hts]⟩

/-- The tokens of the lexer are those of the relation. The induction follows the calls of the lexer.
-/
theorem lexes_of_lexFrom {offset : Nat} {cs : List Char} {lexemes : List Lexeme}
    (h : lexFrom offset cs = .ok lexemes) : Lexes cs (lexemes.map Lexeme.token) := by
  induction hlength : cs.length using Nat.strongRecOn generalizing offset cs lexemes with
  | _ length ih =>
    cases hd : cs.dropWhile Text.isBlank with
    | nil =>
      obtain rfl := Except.ok.inj ((lexFrom_of_blank hd offset).symm.trans h)
      exact .nil hd
    | cons c tail =>
      cases hr : readToken c tail with
      | error fault =>
        rw [lexFrom] at h
        split at h
        · rename_i hd'
          simp [hd] at hd'
        · rename_i c' tail' hd'
          obtain ⟨rfl, rfl⟩ := List.cons.inj (hd.symm.trans hd')
          split at h
          · simp at h
          · rename_i hr'
            simp [hr] at hr'
      | ok result =>
        obtain ⟨token, rest⟩ := result
        obtain ⟨start, source, heq⟩ := lexFrom_of_readToken hd hr offset
        rw [heq] at h
        obtain ⟨lexemes', hrest, rfl⟩ := Outcome.map_eq_ok_iff.1 h
        have hlt : rest.length < length := by
          have h₁ := length_of_readToken hr
          have h₂ := (List.dropWhile_sublist (l := cs) Text.isBlank).length_le
          rw [hd, List.length_cons] at h₂
          omega
        exact .cons hd hr (ih _ hlt hrest rfl)

/-- A text is lexed to one list of tokens. -/
theorem Lexes.det {cs : List Char} {ts us : List Token} (h : Lexes cs ts) (h' : Lexes cs us) :
    ts = us := by
  obtain ⟨lexemes, hlexemes, rfl⟩ := h.exists_lexFrom 0
  obtain ⟨lexemes', hlexemes', rfl⟩ := h'.exists_lexFrom 0
  rw [Except.ok.inj (hlexemes.symm.trans hlexemes')]

theorem Lexes.blank {cs : List Char} {ts : List Token} (h : Lexes cs ts) :
    Lexes (' ' :: cs) ts := by
  have hdrop : (' ' :: cs).dropWhile Text.isBlank = cs.dropWhile Text.isBlank := rfl
  cases h with
  | nil h => exact .nil (hdrop.trans h)
  | cons hd hr h => exact .cons (hdrop.trans hd) hr h

section Characters

variable {c : Char} {cs run rest : List Char}

theorem isBlank_of_inWord (h : inWord c = true) : Text.isBlank c = false := by
  simp only [inWord, Bool.and_eq_true, Bool.not_eq_true'] at h
  exact h.1

theorem ne_of_inWord (h : inWord c = true) {d : Char} (hd : inWord d = false) : c ≠ d := by
  rintro rfl
  simp [h] at hd

theorem inWord_of_isDigit (h : c.isDigit = true) : inWord c = true := by
  have hrange : 48 ≤ c.toNat ∧ c.toNat ≤ 57 := by
    simpa [Char.isDigit, UInt32.le_iff_toNat_le] using h
  have hne (d : Char) (hd : d.toNat < 48 ∨ 57 < d.toNat) : c ≠ d := by
    rintro rfl
    omega
  have hblank : Text.isBlank c = false := by
    simp only [Text.isBlank, Bool.or_eq_false_iff, Bool.and_eq_false_iff, decide_eq_false_iff_not,
      beq_eq_false_iff_ne]
    omega
  simp only [inWord, hblank, Bool.not_false, Bool.true_and, List.contains_eq_mem, List.mem_cons,
    List.not_mem_nil, or_false, Bool.not_eq_true', decide_eq_false_iff_not, not_or]
  refine ⟨?_, ?_, ?_, ?_, ?_, ?_, ?_, ?_, ?_⟩ <;> exact hne _ (by decide)

/-- What may follow a token. -/
def Stops (rest : List Char) : Prop :=
  ∀ c ∈ rest.head?, c = ' ' ∨ c = ')'

/-- Whether a text continues no token that is not quoted. -/
def Separates (rest : List Char) : Prop :=
  ∀ c ∈ rest.head?, inWord c = false ∧ c ≠ '='

theorem Stops.separates (h : Stops rest) : Separates rest := by
  intro c hc
  rcases h c hc with rfl | rfl <;> decide

theorem takeWhile_of_head (h : ∀ c ∈ rest.head?, inWord c = false) :
    rest.takeWhile inWord = [] ∧ rest.dropWhile inWord = rest := by
  cases rest with
  | nil => exact ⟨rfl, rfl⟩
  | cons c rest =>
    have hc : ¬ inWord c = true := by simp [h c rfl]
    exact ⟨List.takeWhile_cons_of_neg hc, List.dropWhile_cons_of_neg hc⟩

/-- A run of word characters is not prolonged by a text that separates tokens. -/
theorem takeWhile_append_of_separates (h : Separates rest) (cs : List Char) :
    (cs ++ rest).takeWhile inWord = cs.takeWhile inWord := by
  induction cs with
  | nil => exact (takeWhile_of_head fun c hc ↦ (h c hc).1).1
  | cons c cs ih => rw [List.cons_append, List.takeWhile_cons, List.takeWhile_cons, ih]

section Stops

variable (h : Stops rest) (hrun : ∀ c ∈ run, inWord c = true)

include h hrun

theorem Stops.takeWhile_append : (run ++ rest).takeWhile inWord = run := by
  rw [List.takeWhile_append_of_pos hrun, (takeWhile_of_head fun c hc ↦ (h.separates c hc).1).1,
    List.append_nil]

theorem Stops.dropWhile_append : (run ++ rest).dropWhile inWord = rest := by
  rw [List.dropWhile_append_of_pos hrun, (takeWhile_of_head fun c hc ↦ (h.separates c hc).1).2]

end Stops

theorem isBlank_of_dropWhile {tail : List Char} (h : cs.dropWhile Text.isBlank = c :: tail) :
    Text.isBlank c = false := by
  have hhead := List.head?_dropWhile_not Text.isBlank cs
  simpa [h] using hhead

theorem dropWhile_isBlank_of_inWord (h : inWord c = true) (cs : List Char) :
    (c :: cs).dropWhile Text.isBlank = c :: cs :=
  List.dropWhile_cons_of_neg (by simp [isBlank_of_inWord h])

/-- A run of word characters is classified as a whole, except that a minus sign that begins no
numeral is a token of its own. -/
theorem readToken_of_inWord (h : inWord c = true) (cs : List Char) :
    readToken c cs =
      if c == '-' && !isNumeral (c :: cs.takeWhile inWord) then .ok (.minus, cs)
      else .ok (classify (c :: cs.takeWhile inWord), cs.dropWhile inWord) := by
  have hne {d : Char} (hd : inWord d = false) : (c == d) = false := by
    simpa using ne_of_inWord h hd
  unfold readToken
  simp only [hne (d := '(') (by decide), hne (d := ')') (by decide), hne (d := '"') (by decide),
    hne (d := '\'') (by decide), hne (d := '=') (by decide), hne (d := ':') (by decide),
    hne (d := '>') (by decide), hne (d := '<') (by decide), hne (d := '!') (by decide),
    Bool.false_eq_true, if_false, Bool.or_self]

theorem readToken_of_quote {quote : Char} (h : quote = '"' ∨ quote = '\'') (cs : List Char) :
    readToken quote cs =
      (readQuoted quote cs).map fun quoted ↦ (.text (String.ofList quoted.1), quoted.2) := by
  rcases h with rfl | rfl <;> rfl

end Characters

section Numerals

variable {cs : List Char}

/-- Whether a text is digits, optionally followed by a point and digits. -/
def IsUnsigned (cs : List Char) : Prop :=
  ∃ whole fraction, cs = whole ++ fraction ∧ isDigits whole = true ∧
    (fraction = [] ∨ ∃ ds, fraction = '.' :: ds ∧ isDigits ds = true)

theorem isDigits_iff : isDigits cs = true ↔ cs ≠ [] ∧ ∀ c ∈ cs, c.isDigit = true := by
  simp [isDigits]

theorem IsUnsigned.of_isDigits (h : isDigits cs = true) : IsUnsigned cs :=
  ⟨cs, [], (List.append_nil cs).symm, h, .inl rfl⟩

theorem IsUnsigned.inWord (h : IsUnsigned cs) : ∀ c ∈ cs, inWord c = true := by
  obtain ⟨whole, fraction, rfl, hwhole, hfraction⟩ := h
  intro c hc
  rcases List.mem_append.1 hc with hc | hc
  · exact inWord_of_isDigit ((isDigits_iff.1 hwhole).2 c hc)
  · rcases hfraction with rfl | ⟨ds, rfl, hds⟩
    · simp at hc
    · rcases List.mem_cons.1 hc with rfl | hc
      · decide
      · exact inWord_of_isDigit ((isDigits_iff.1 hds).2 c hc)

theorem IsUnsigned.exists_head (h : IsUnsigned cs) :
    ∃ c rest, cs = c :: rest ∧ c.isDigit = true := by
  obtain ⟨whole, fraction, rfl, hwhole, -⟩ := h
  obtain ⟨hne, hdigits⟩ := isDigits_iff.1 hwhole
  cases whole with
  | nil => exact absurd rfl hne
  | cons c whole => exact ⟨c, whole ++ fraction, rfl, hdigits c List.mem_cons_self⟩

/-- The recogniser takes digits, and digits with a point and digits after it, for an unsigned
numeral. -/
theorem isUnsigned_iff : IsUnsigned cs ↔
    (match cs.dropWhile Char.isDigit with
      | [] => !cs.isEmpty
      | c :: fraction => c == '.' && !(cs.takeWhile Char.isDigit).isEmpty && isDigits fraction) =
        true := by
  constructor
  · rintro ⟨whole, fraction, rfl, hwhole, hfraction⟩
    obtain ⟨hne, hdigits⟩ := isDigits_iff.1 hwhole
    rw [List.dropWhile_append_of_pos hdigits, List.takeWhile_append_of_pos hdigits]
    rcases hfraction with rfl | ⟨ds, rfl, hds⟩
    · simpa using hne
    · have hpoint : Char.isDigit '.' = false := by decide
      rw [List.dropWhile_cons_of_neg (by simp [hpoint])]
      simp [hds, hne]
  · intro h
    have hsplit := List.takeWhile_append_dropWhile (p := Char.isDigit) (l := cs)
    have hdigits : ∀ c ∈ cs.takeWhile Char.isDigit, c.isDigit = true :=
      fun c hc ↦ List.all_eq_true.1 List.all_takeWhile c hc
    cases hdrop : cs.dropWhile Char.isDigit with
    | nil =>
      rw [hdrop, List.append_nil] at hsplit
      rw [hdrop] at h
      refine ⟨cs, [], (List.append_nil cs).symm, isDigits_iff.2 ⟨by simpa using h, ?_⟩, .inl rfl⟩
      rwa [hsplit] at hdigits
    | cons c fraction =>
      rw [hdrop] at h hsplit
      simp only [Bool.and_eq_true, beq_iff_eq, Bool.not_eq_true'] at h
      obtain ⟨⟨rfl, hne⟩, hfraction⟩ := h
      exact ⟨_, _, hsplit.symm, isDigits_iff.2 ⟨by simpa using hne, hdigits⟩,
        .inr ⟨fraction, rfl, hfraction⟩⟩

theorem isNumeral_minus : isNumeral ('-' :: cs) = true ↔ IsUnsigned cs :=
  isUnsigned_iff.symm

theorem isNumeral_of_ne {c : Char} (hc : c ≠ '-') :
    isNumeral (c :: cs) = true ↔ IsUnsigned (c :: cs) := by
  rw [isUnsigned_iff]
  unfold isNumeral
  split
  · rename_i heq
    exact absurd (List.cons.inj heq).1 hc
  · exact Iff.rfl

/-- A numeral is an unsigned one, or a minus sign and an unsigned one. -/
theorem isNumeral_iff :
    isNumeral cs = true ↔ IsUnsigned cs ∨ ∃ ds, cs = '-' :: ds ∧ IsUnsigned ds := by
  cases cs with
  | nil =>
    have hnil : ¬ IsUnsigned [] := fun h ↦ by obtain ⟨c, rest, h, -⟩ := h.exists_head; simp at h
    simp [isNumeral, hnil]
  | cons c cs =>
    by_cases hc : c = '-'
    · subst hc
      have hminus : ¬ IsUnsigned ('-' :: cs) := fun h ↦ by
        obtain ⟨c, rest, hcons, hdigit⟩ := h.exists_head
        obtain ⟨rfl, -⟩ := List.cons.inj hcons
        simp at hdigit
      simp [isNumeral_minus, hminus]
    · simp [isNumeral_of_ne hc, hc]

theorem inWord_of_isNumeral (h : isNumeral cs = true) : ∀ c ∈ cs, inWord c = true := by
  rcases isNumeral_iff.1 h with hcs | ⟨ds, rfl, hds⟩
  · exact hcs.inWord
  · exact List.forall_mem_cons.2 ⟨by decide, hds.inWord⟩

/-- A numeral is never taken for a word or a keyword. -/
theorem classify_of_isNumeral (h : isNumeral cs = true) :
    classify cs = .number (String.ofList cs) := by
  have hne {keyword : List Char} (hkeyword : isNumeral keyword = false) : cs ≠ keyword := by
    rintro rfl
    simp [h] at hkeyword
  have hand : cs ≠ ['A', 'N', 'D'] := hne (by decide)
  have hor : cs ≠ ['O', 'R'] := hne (by decide)
  have hnot : cs ≠ ['N', 'O', 'T'] := hne (by decide)
  unfold classify
  simp only [beq_iff_eq, hand, hor, hnot, h, if_true, if_false]

/-- Whether a run of characters is read as a word. -/
structure IsWord (cs : List Char) : Prop where
  ne_nil : cs ≠ []
  inWord : ∀ c ∈ cs, inWord c = true
  head_ne : cs.head? ≠ some '-'
  classify_eq : classify cs = .word (String.ofList cs)

/-- The tokens that the lexer makes. -/
def Token.IsRead : Token → Prop
  | word w => IsWord w.toList
  | number n => isNumeral n.toList = true
  | _ => True

theorem isRead_classify {c : Char} (hc : c ≠ '-' ∨ isNumeral (c :: cs) = true)
    (hcs : ∀ d ∈ c :: cs, inWord d = true) : (classify (c :: cs)).IsRead := by
  by_cases hnumeral : isNumeral (c :: cs) = true
  · rw [classify_of_isNumeral hnumeral]
    simpa [Token.IsRead] using hnumeral
  · have hhead : (c :: cs).head? ≠ some '-' := by simpa [hnumeral] using hc
    by_cases hword : classify (c :: cs) = .word (String.ofList (c :: cs))
    · rw [hword]
      exact ⟨by simp, by simpa using hcs, by simpa using hhead, by simpa using hword⟩
    · unfold classify at hword ⊢
      split
      · trivial
      · split
        · trivial
        · split
          · trivial
          · simp_all

theorem isRead_readComparator (alone withEquals : Operator) (cs : List Char) :
    (readComparator alone withEquals cs).1.IsRead := by
  unfold readComparator
  split <;> trivial

/-- The characters that are no blanks and cannot be in a word each begin a token of their own. -/
theorem special_of_not_inWord (hc : Text.isBlank c = false) (hword : ¬ inWord c = true) :
    c = '(' ∨ c = ')' ∨ c = '"' ∨ c = '\'' ∨ c = '=' ∨ c = '!' ∨ c = '<' ∨ c = '>' ∨ c = ':' := by
  simpa [inWord, hc, or_iff_not_imp_left] using hword

/-- An exclamation mark is read only before an equals sign. -/
theorem exists_cons_of_readToken_exclamation {read : Token × List Char}
    (h : readToken '!' cs = .ok read) : ∃ tail, cs = '=' :: tail := by
  unfold readToken at h
  simp only [Char.reduceBEq, Bool.false_eq_true, if_false, if_true, Bool.or_self] at h
  split at h
  next => exact ⟨_, rfl⟩
  next => cases h

/-- Every token that the lexer reads has the text of its kind: a word is a word, a number a numeral.
-/
theorem isRead_of_readToken {c : Char} {rest : List Char} {token : Token}
    (hc : Text.isBlank c = false) (h : readToken c cs = .ok (token, rest)) : token.IsRead := by
  have hok {outcome : Token × List Char} (h : (Except.ok outcome : Except Fault _) = .ok (token, rest))
      (houtcome : outcome.1.IsRead) : token.IsRead := by
    obtain rfl := Except.ok.inj h
    exact houtcome
  have hquoted {quote : Char} (hquote : quote = '"' ∨ quote = '\'')
      (h : readToken quote cs = .ok (token, rest)) : token.IsRead := by
    rw [readToken_of_quote hquote] at h
    obtain ⟨⟨content, tail⟩, -, heq⟩ := Outcome.map_eq_ok_iff.1 h
    exact hok (congrArg Except.ok heq) trivial
  by_cases hword : inWord c = true
  · rw [readToken_of_inWord hword] at h
    have hall : ∀ d ∈ c :: cs.takeWhile inWord, inWord d = true :=
      List.forall_mem_cons.2 ⟨hword, fun d hd ↦ List.all_eq_true.1 List.all_takeWhile d hd⟩
    split at h
    · exact hok h trivial
    · rename_i hminus
      refine hok h (isRead_classify ?_ hall)
      by_cases hc : c = '-'
      · exact .inr (by simpa [hc] using hminus)
      · exact .inl hc
  · rcases special_of_not_inWord hc hword with
      rfl | rfl | rfl | rfl | rfl | rfl | rfl | rfl | rfl
    · exact hok h trivial
    · exact hok h trivial
    · exact hquoted (.inl rfl) h
    · exact hquoted (.inr rfl) h
    · exact hok h trivial
    · obtain ⟨tail, rfl⟩ := exists_cons_of_readToken_exclamation h
      exact hok h trivial
    · exact hok h (isRead_readComparator _ _ _)
    · exact hok h (isRead_readComparator _ _ _)
    · exact hok h trivial

/-- Every token of a text is one that the lexer makes. -/
theorem Lexes.isRead {ts : List Token} (h : Lexes cs ts) : ∀ token ∈ ts, token.IsRead := by
  induction h with
  | nil => simp
  | cons hd hr _ ih =>
    exact List.forall_mem_cons.2 ⟨isRead_of_readToken (isBlank_of_dropWhile hd) hr, ih⟩

theorem IsWord.isNumeral_eq_false (h : IsWord cs) : isNumeral cs = false := by
  rw [Bool.eq_false_iff]
  intro hnumeral
  have hclassify := classify_of_isNumeral hnumeral
  simp [h.classify_eq] at hclassify

theorem IsWord.isNumeral_minus_eq_false (h : IsWord cs) : isNumeral ('-' :: cs) = false := by
  rw [Bool.eq_false_iff, ne_eq, isNumeral_minus]
  intro hunsigned
  have hnumeral := isNumeral_iff.2 (.inl hunsigned)
  simp [h.isNumeral_eq_false] at hnumeral

end Numerals

section Printing

variable {cs rest : List Char} {ts : List Token}

theorem readQuoted_of_ne {c : Char} (quote : Char) (hc : c ≠ '\\') (cs : List Char) :
    readQuoted quote (c :: cs) =
      if c == quote then .ok ([], cs)
      else (readQuoted quote cs).map fun (content, rest) ↦ (c :: content, rest) := by
  rw [readQuoted]
  · rintro rfl
    exact absurd rfl hc
  · rintro _ _ rfl
    exact absurd rfl hc

/-- An escaped text is read back as it was before the escapes. The induction is on its characters.
-/
theorem readQuoted_escape (cs rest : List Char) :
    readQuoted '"' (cs.flatMap Literal.chars.escape ++ '"' :: rest) = .ok (cs, rest) := by
  induction cs with
  | nil => rfl
  | cons c cs ih =>
    rw [List.flatMap_cons, List.append_assoc, Literal.chars.escape]
    split
    · rename_i hc
      have hunescape : unescape c = c := by
        rcases Bool.or_eq_true_iff.1 hc with hc | hc <;> obtain rfl := beq_iff_eq.1 hc <;> rfl
      simp only [List.cons_append, List.nil_append, readQuoted, ih, Except.map, hunescape]
    · split
      · rename_i hc
        obtain rfl := beq_iff_eq.1 hc
        simp only [List.cons_append, List.nil_append, readQuoted, ih, Except.map]
        rfl
      · split
        · rename_i hc
          obtain rfl := beq_iff_eq.1 hc
          simp only [List.cons_append, List.nil_append, readQuoted, ih, Except.map]
          rfl
        · rename_i hplain _ _
          have hplain : c ≠ '"' ∧ c ≠ '\\' := by simpa using hplain
          rw [List.singleton_append, readQuoted_of_ne _ hplain.2, if_neg (by simpa using hplain.1),
            ih]
          rfl

/-- A run of word characters is one token, unless it starts with a minus sign and is no numeral. -/
theorem Lexes.run {c : Char} (hrun : ∀ d ∈ c :: cs, inWord d = true)
    (hc : c ≠ '-' ∨ isNumeral (c :: cs) = true) (hstop : Stops rest) (h : Lexes rest ts) :
    Lexes (c :: cs ++ rest) (classify (c :: cs) :: ts) := by
  obtain ⟨hword, hcs⟩ := List.forall_mem_cons.1 hrun
  rw [List.cons_append]
  refine .cons (dropWhile_isBlank_of_inWord hword _) ?_ h
  rw [readToken_of_inWord hword, hstop.takeWhile_append hcs, hstop.dropWhile_append hcs, if_neg]
  rcases hc with hc | hc <;> simp [hc]

/-- A word is lexed as such in front of everything that stops it. -/
theorem Lexes.word (hword : IsWord cs) (hstop : Stops rest) (h : Lexes rest ts) :
    Lexes (cs ++ rest) (.word (String.ofList cs) :: ts) := by
  cases cs with
  | nil => exact absurd rfl hword.ne_nil
  | cons c cs =>
    rw [← hword.classify_eq]
    exact .run hword.inWord (.inl (by simpa using hword.head_ne)) hstop h

theorem Lexes.numeral (hcs : isNumeral cs = true) (hstop : Stops rest) (h : Lexes rest ts) :
    Lexes (cs ++ rest) (.number (String.ofList cs) :: ts) := by
  cases cs with
  | nil => simp [isNumeral] at hcs
  | cons c cs =>
    rw [← classify_of_isNumeral hcs]
    exact .run (inWord_of_isNumeral hcs) (.inr hcs) hstop h

/-- A minus sign before a word stands alone. -/
theorem Lexes.minus (hword : IsWord cs) (hstop : Stops rest) (h : Lexes rest ts) :
    Lexes ('-' :: cs ++ rest) (.minus :: .word (String.ofList cs) :: ts) := by
  rw [List.cons_append]
  refine .cons rfl ?_ (.word hword hstop h)
  rw [readToken_of_inWord (by decide), hstop.takeWhile_append hword.inWord, if_pos]
  simp [hword.isNumeral_minus_eq_false]

/-- How a number token is read again if its text is no numeral. -/
def Token.respell : Token → List Token
  | number n =>
    if isNumeral n.toList then [number n]
    else
      match n.toList with
      | '-' :: cs => [minus, word (String.ofList cs)]
      | cs => [word (String.ofList cs)]
  | token => [token]

theorem respell_of_isNumeral {n : String} (h : isNumeral n.toList = true) :
    (Token.number n).respell = [.number n] := by
  rw [Token.respell, if_pos h]

theorem respell_of_isWord {n : String} (h : IsWord n.toList) :
    (Token.number n).respell = [.word n] := by
  rw [Token.respell, if_neg (by simp [h.isNumeral_eq_false])]
  split
  · rename_i hcs
    exact absurd (by rw [hcs]; rfl) h.head_ne
  · rw [String.ofList_toList]

theorem respell_of_minus {n : String} (hn : n.toList = '-' :: cs) (h : IsWord cs) :
    (Token.number n).respell = [.minus, .word (String.ofList cs)] := by
  rw [Token.respell, if_neg (by simp [hn, h.isNumeral_minus_eq_false]), hn]
  rfl

/-- The tokens that are written in a filter: a number is written as a numeral, or as a word after an
optional minus sign. -/
def Token.IsWritten : Token → Prop
  | word w => IsWord w.toList
  | number n => isNumeral n.toList = true ∨ IsWord n.toList ∨ ∃ cs, n.toList = '-' :: cs ∧ IsWord cs
  | _ => True

section Followed

variable (hstop : Stops rest) (h : Lexes rest ts)

include hstop h

/-- A keyword is read as its token, which is the one that it is classified as. -/
theorem Lexes.keyword {keyword : List Char} (hinWord : keyword.all inWord = true)
    (hne : keyword ≠ []) (hhead : keyword.head? ≠ some '-') :
    Lexes (keyword ++ rest) (classify keyword :: ts) := by
  cases keyword with
  | nil => exact absurd rfl hne
  | cons c cs =>
    exact Lexes.run (List.all_eq_true.1 hinWord) (.inl (by simpa using hhead)) hstop h

/-- A number token is lexed as its respelling: as itself if its text is a numeral, and else as a
word after an optional minus sign. -/
theorem Lexes.number {n : String} (hn : (Token.number n).IsWritten) :
    Lexes (n.toList ++ rest) ((Token.number n).respell ++ ts) := by
  rcases hn with hnumeral | hword | ⟨cs, hcs, hword⟩
  · have hlexes := Lexes.numeral hnumeral hstop h
    rw [respell_of_isNumeral hnumeral]
    rwa [String.ofList_toList] at hlexes
  · have hlexes := Lexes.word hword hstop h
    rw [respell_of_isWord hword]
    rwa [String.ofList_toList] at hlexes
  · rw [respell_of_minus hcs hword, hcs]
    exact Lexes.minus hword hstop h

/-- A minus sign that nothing follows stands alone. -/
theorem Lexes.sign : Lexes ('-' :: rest) (.minus :: ts) := by
  have hrun : rest.takeWhile inWord = [] := by
    rw [← List.nil_append rest]
    exact hstop.takeWhile_append (by simp)
  have hread : readToken '-' rest = .ok (.minus, rest) := by
    rw [readToken_of_inWord (by decide), hrun]
    rfl
  exact .cons rfl hread h

/-- A comparator is lexed from its text if the rest does not lengthen it. -/
theorem Lexes.comparator (op : Operator) :
    Lexes (op.text.toList ++ rest) (.comparator op :: ts) := by
  have hne : ∀ tail, rest ≠ '=' :: tail := by
    rintro tail rfl
    rcases hstop '=' rfl with h | h <;> simp at h
  have hread (alone withEquals : Operator) :
      readComparator alone withEquals rest = (.comparator alone, rest) := by
    unfold readComparator
    split
    · exact absurd rfl (hne _)
    · rfl
  cases op with
  | eq | ne | gte | lte | has => exact .cons rfl rfl h
  | gt => exact .cons rfl (congrArg Except.ok (hread .gt .gte)) h
  | lt => exact .cons rfl (congrArg Except.ok (hread .lt .lte)) h

end Followed

theorem Lexes.text (s : String) (h : Lexes rest ts) :
    Lexes ((Literal.text s).chars ++ rest) (.text s :: ts) := by
  have hquoted := readQuoted_escape s.toList rest
  have hread : readToken '"' (s.toList.flatMap Literal.chars.escape ++ (['"'] ++ rest)) =
      .ok (.text s, rest) := by
    unfold readToken
    rw [if_neg (by decide), if_neg (by decide), if_pos (by decide), List.singleton_append, hquoted]
    simp [Except.map]
  rw [Literal.chars, List.append_assoc, List.cons_append]
  exact .cons rfl hread h

/-- The text of a written token is lexed to its respelling, unless what follows runs on with it. -/
theorem Token.IsWritten.lexes {token : Token} (htoken : token.IsWritten)
    (hstop : token ≠ .leftParen → Stops rest) (h : Lexes rest ts) :
    Lexes (token.chars ++ rest) (token.respell ++ ts) := by
  cases token with
  | leftParen => exact .cons rfl rfl h
  | rightParen => exact .cons rfl rfl h
  | text s => exact h.text s
  | word w =>
    have hlexes := Lexes.word htoken (hstop (by simp)) h
    rwa [String.ofList_toList] at hlexes
  | number n => exact Lexes.number (hstop (by simp)) h htoken
  | minus => exact Lexes.sign (hstop (by simp)) h
  | comparator op => exact Lexes.comparator (hstop (by simp)) h op
  | and | or | not =>
    exact Lexes.keyword (hstop (by simp)) h (by decide) (by decide) (by decide)

/-- The text of tokens is read as the tokens respelled. -/
theorem lexes_layout (hts : ∀ token ∈ ts, token.IsWritten) :
    Lexes (layout ts) (ts.flatMap Token.respell) := by
  induction ts with
  | nil => exact .nil rfl
  | cons token ts ih =>
    obtain ⟨htoken, hts⟩ := List.forall_mem_cons.1 hts
    cases ts with
    | nil =>
      have hstop : Stops [] := by simp [Stops]
      have hend := htoken.lexes (fun _ ↦ hstop) (.nil rfl)
      simpa [layout] using hend
    | cons next ts =>
      rw [layout, List.append_assoc, List.flatMap_cons]
      have ih := ih hts
      unfold gap
      split
      · rename_i hgap
        refine htoken.lexes (fun hne ↦ ?_) ih
        obtain rfl := hgap.resolve_left hne
        have hlayout : ∃ cs, layout (.rightParen :: ts) = ')' :: cs := by
          cases ts <;> exact ⟨_, rfl⟩
        obtain ⟨cs, hcs⟩ := hlayout
        rw [List.nil_append, hcs]
        rintro c hc
        exact .inr (by simpa using hc.symm)
      · refine htoken.lexes (fun _ ↦ ?_) ih.blank
        rintro c hc
        exact .inl (by simpa using hc.symm)

end Printing

end RecordQuery.Filter

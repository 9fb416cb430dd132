import RecordQuery.Filter.Token
import RecordQuery.Text.Blank
import RecordQuery.Text.Utf8

/-!
# From text to tokens

Filter text is cut into lexemes: a token together with the byte offset it starts at and the
characters it was read from. Blanks only separate. A run of word characters is a keyword, a number
or a word; a minus sign belongs to a number only if the whole run that it starts is a number.
-/

namespace RecordQuery.Filter

/-- A token, where it starts and the characters it was read from. -/
structure Lexeme where
  offset : Nat
  source : List Char
  token : Token
deriving DecidableEq

/-- Whether a character can be part of a word. -/
def inWord (c : Char) : Bool :=
  !Text.isBlank c && !(['(', ')', '"', '\'', '=', '!', '<', '>', ':'].contains c)

/-- Whether a text is one or more decimal digits. -/
def isDigits (cs : List Char) : Bool :=
  !cs.isEmpty && cs.all Char.isDigit

/-- Whether a text is a number: an optional minus sign and digits, optionally followed by a point
and digits. -/
def isNumeral (cs : List Char) : Bool :=
  let unsigned :=
    match cs with
    | '-' :: rest => rest
    | _ => cs
  match unsigned.dropWhile Char.isDigit with
  | [] => !unsigned.isEmpty
  | c :: fraction => c == '.' && !(unsigned.takeWhile Char.isDigit).isEmpty && isDigits fraction

/-- The token for a run of word characters. -/
def classify (run : List Char) : Token :=
  if run == ['A', 'N', 'D'] then .and
  else if run == ['O', 'R'] then .or
  else if run == ['N', 'O', 'T'] then .not
  else if isNumeral run then .number (String.ofList run)
  else .word (String.ofList run)

/-- The character that an escaped one stands for. -/
def unescape (c : Char) : Char :=
  if c == 'n' then '\n' else if c == 't' then '\t' else c

/-- Reads a quoted text up to its closing quote: the content and what follows. -/
def readQuoted (quote : Char) : List Char → Except Fault (List Char × List Char)
  | [] => .error .openString
  | '\\' :: [] => .error .openEscape
  | '\\' :: c :: cs => (readQuoted quote cs).map fun (content, rest) ↦ (unescape c :: content, rest)
  | c :: cs =>
    if c == quote then .ok ([], cs)
    else (readQuoted quote cs).map fun (content, rest) ↦ (c :: content, rest)

/-- A comparator that becomes a longer one when an equals sign follows. -/
def readComparator (alone withEquals : Operator) : List Char → Token × List Char
  | '=' :: cs => (.comparator withEquals, cs)
  | cs => (.comparator alone, cs)

/-- Reads one token from a text whose first character is `c`: the token and what follows. -/
def readToken (c : Char) (cs : List Char) : Except Fault (Token × List Char) :=
  if c == '(' then .ok (.leftParen, cs)
  else if c == ')' then .ok (.rightParen, cs)
  else if c == '"' || c == '\'' then
    (readQuoted c cs).map fun (content, rest) ↦ (.text (String.ofList content), rest)
  else if c == '=' then .ok (.comparator .eq, cs)
  else if c == ':' then .ok (.comparator .has, cs)
  else if c == '>' then .ok (readComparator .gt .gte cs)
  else if c == '<' then .ok (readComparator .lt .lte cs)
  else if c == '!' then
    match cs with
    | '=' :: rest => .ok (.comparator .ne, rest)
    | _ => .error .loneExclamation
  else
    let run := c :: cs.takeWhile inWord
    if c == '-' && !isNumeral run then .ok (.minus, cs)
    else .ok (classify run, cs.dropWhile inWord)

/-- A quoted string takes up at least its closing quote, so the lexer goes on with a shorter text.
-/
theorem length_of_readQuoted {quote : Char} {cs content rest : List Char}
    (h : readQuoted quote cs = .ok (content, rest)) : rest.length < cs.length := by
  fun_induction readQuoted quote cs generalizing content rest with
  | case1 => simp at h
  | case2 => simp at h
  | case3 c cs ih =>
    match hr : readQuoted quote cs with
    | .error _ => simp [hr, Except.map] at h
    | .ok (content', rest') =>
      have := ih hr
      simp only [hr, Except.map, Except.ok.injEq, Prod.mk.injEq] at h
      simp only [List.length_cons, ← h.2]
      omega
  | case4 c cs _ _ _ =>
    simp only [Except.ok.injEq, Prod.mk.injEq] at h
    simp [← h.2]
  | case5 c cs _ _ _ ih =>
    match hr : readQuoted quote cs with
    | .error _ => simp [hr, Except.map] at h
    | .ok (content', rest') =>
      have := ih hr
      simp only [hr, Except.map, Except.ok.injEq, Prod.mk.injEq] at h
      simp only [List.length_cons, ← h.2]
      omega

theorem length_readComparator_le (alone withEquals : Operator) (cs : List Char) :
    (readComparator alone withEquals cs).2.length ≤ cs.length := by
  unfold readComparator
  split <;> simp

/-- What follows a token is no longer than what follows its first character. -/
theorem length_of_readToken {c : Char} {cs rest : List Char} {token : Token}
    (h : readToken c cs = .ok (token, rest)) : rest.length ≤ cs.length := by
  have hd := (List.dropWhile_sublist (l := cs) inWord).length_le
  have h1 := length_readComparator_le .gt .gte cs
  have h2 := length_readComparator_le .lt .lte cs
  unfold readToken at h
  split at h
  · simp_all
  split at h
  · simp_all
  split at h
  · match hr : readQuoted c cs with
    | .error _ => simp [hr, Except.map] at h
    | .ok (content, rest') =>
      have := length_of_readQuoted hr
      simp only [hr, Except.map, Except.ok.injEq, Prod.mk.injEq] at h
      rw [← h.2]
      omega
  split at h
  · simp_all
  split at h
  · simp_all
  split at h
  · simp_all
  split at h
  · simp_all
  split at h
  · split at h
    · simp only [Except.ok.injEq, Prod.mk.injEq] at h
      rw [← h.2]
      simp
    · simp at h
  · simp only at h
    split at h <;> simp only [Except.ok.injEq, Prod.mk.injEq] at h <;> rcases h with ⟨-, rfl⟩ <;>
      omega

/-- The lexemes of a text that starts at the given byte offset, or the first fault and the offset of
the token that has it. -/
def lexFrom (offset : Nat) (cs : List Char) : Except (Nat × Fault) (List Lexeme) :=
  match hd : cs.dropWhile Text.isBlank with
  | [] => .ok []
  | c :: tail =>
    let start := offset + Text.byteLength (cs.takeWhile Text.isBlank)
    match hr : readToken c tail with
    | .error fault => .error (start, fault)
    | .ok (token, rest) =>
      have : rest.length < cs.length := by
        have h1 := length_of_readToken hr
        have h2 := (List.dropWhile_sublist (l := cs) Text.isBlank).length_le
        rw [hd] at h2
        simp only [List.length_cons] at h2
        omega
      let source := (c :: tail).take (tail.length + 1 - rest.length)
      (lexFrom (start + Text.byteLength source) rest).map (⟨start, source, token⟩ :: ·)
termination_by cs.length

def lex (s : String) : Except (Nat × Fault) (List Lexeme) :=
  lexFrom 0 s.toList

end RecordQuery.Filter

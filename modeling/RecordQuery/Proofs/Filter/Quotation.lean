import RecordQuery.Proofs.Filter.Lexemes
import RecordQuery.Proofs.Filter.Single

/-!
# Quoted texts in comparisons

A text that is written as a literal is read as one token, whatever it holds, and the token ends with the
literal, whatever follows. So no text that is put into a comparison in this way can change the rest of the
filter: the comparison stays a single restriction, and before another filter it is the first factor.
-/

namespace RecordQuery.Filter

variable {c : Char} {source cs rest : List Char} {w v g : String} {f : Filter}

section Words

theorem readComparator_ne_word (alone withEquals : Operator) (cs : List Char) :
    (readComparator alone withEquals cs).1 ≠ .word v := by
  unfold readComparator
  split <;> nofun

/-- Only a run of characters that is the word itself is classified as a word. -/
theorem classify_eq_word {run : List Char} (h : classify run = .word v) : run = v.toList := by
  unfold classify at h
  split at h
  · cases h
  · split at h
    · cases h
    · split at h
      · cases h
      · split at h
        · cases h
        · rw [← Token.word.inj h, String.toList_ofList]

/-- A word is read from word characters. -/
theorem inWord_of_readToken (hc : Text.isBlank c = false)
    (h : readToken c cs = .ok (.word v, rest)) : inWord c = true := by
  have hquote {quote : Char} (hquote : quote = '"' ∨ quote = '\'')
      (h : readToken quote cs = .ok (.word v, rest)) : False := by
    rw [readToken_of_quote hquote] at h
    obtain ⟨quoted, -, heq⟩ := Outcome.map_eq_ok_iff.1 h
    cases heq
  have hcomparator {alone withEquals : Operator}
      (h : readComparator alone withEquals cs = (.word v, rest)) : False :=
    readComparator_ne_word alone withEquals cs (congrArg Prod.fst h)
  by_contra hword
  rcases special_of_not_inWord hc hword with rfl | rfl | rfl | rfl | rfl | rfl | rfl | rfl | rfl
  · cases h
  · cases h
  · exact hquote (.inl rfl) h
  · exact hquote (.inr rfl) h
  · cases h
  · obtain ⟨tail, rfl⟩ := exists_cons_of_readToken_exclamation h
    cases h
  · exact hcomparator (Except.ok.inj h)
  · exact hcomparator (Except.ok.inj h)
  · cases h

/-- A word is read from its own characters. -/
theorem IsSlice.eq_of_word (h : IsSlice source (.word v)) : source = v.toList := by
  obtain ⟨c, body, rfl, hc, hread⟩ := h
  have hr := hread [] ((Token.word v).endsBefore_of_separates (by simp [Separates]))
  rw [List.append_nil] at hr
  rw [readToken_of_inWord (inWord_of_readToken hc hr)] at hr
  split at hr
  · cases hr
  · obtain ⟨hclassify, hdrop⟩ := Prod.mk.inj (Except.ok.inj hr)
    rw [← classify_eq_word hclassify,
      List.takeWhile_eq_self_iff.2 (List.dropWhile_eq_nil_iff.1 hdrop)]

/-- A text of one word is the word with blanks around it. -/
theorem exists_gaps_of_word (h : (lex w).map (·.map Lexeme.token) = .ok [.word v]) :
    ∃ before after, w.toList = before ++ v.toList ++ after ∧ before.all Text.isBlank = true ∧
      after.all Text.isBlank = true := by
  obtain ⟨lexemes, hlex, htokens⟩ := Outcome.map_eq_ok_iff.1 h
  obtain ⟨lexeme, rfl, hword⟩ := List.map_eq_singleton_iff.1 htokens
  have htiles : Tiles 0 w.toList [lexeme] := lexFrom_eq_ok_iff.1 hlex
  generalize w.toList = cs at htiles
  cases htiles with
  | @cons _ gap source rest token _ hgap hslice hends hrest =>
    cases hrest with
    | nil hrest =>
      obtain rfl : token = .word v := hword
      rw [hslice.eq_of_word, ← List.append_assoc]
      exact ⟨gap, rest, rfl, hgap, hrest⟩

end Words

section Comparisons

/-- A comparison of a word with a literal, with one blank on each side of the comparator. -/
def comparisonText (w : String) (op : Operator) (l : Literal) : String :=
  w ++ " " ++ op.text ++ " " ++ String.ofList l.chars

/-- A comparison with a quoted text is parsed as that one restriction. -/
theorem denotes_comparisonText (h : Lexes w.toList [.word v]) (op : Operator) (s : String) :
    Denotes (comparisonText w op (.text s)).toList
      (single ⟨.member (Text.splitOn '.' v), some (op, .literal (.text s))⟩) :=
  ⟨_, lexes_comparison h (lexes_text s) op, (DerivesRestriction.test rfl rfl).derivesExpression⟩

/-- A word is compared with a quoted text by one restriction, whatever the text holds. Before another
filter, the restriction becomes the first factor of its first sequence, and nothing else changes. -/
theorem quoted_text_contained (h : (lex w).map (·.map Lexeme.token) = .ok [.word v]) (op : Operator)
    (s : String) :
    (∃ before after, w.toList = before ++ v.toList ++ after ∧ before.all Text.isBlank = true ∧
      after.all Text.isBlank = true) ∧
    Filter.parse (comparisonText w op (.text s)) =
      .ok (ofRestriction ⟨.member (Text.splitOn '.' v), some (op, .literal (.text s))⟩) ∧
    ∀ g f, Filter.parse g = .ok f → f.isEmpty = false →
      ∃ sequence sequences, f = ⟨some (sequence :: sequences)⟩ ∧
        Filter.parse (comparisonText w op (.text s) ++ " " ++ g) =
          .ok ⟨some (([.restriction false
            ⟨.member (Text.splitOn '.' v), some (op, .literal (.text s))⟩] :: sequence) ::
              sequences)⟩ := by
  obtain ⟨lexemes, hlex, htokens⟩ := Outcome.map_eq_ok_iff.1 h
  have hdenotes := denotes_comparisonText (htokens ▸ lexes_of_lexFrom hlex) op s
  refine ⟨exists_gaps_of_word h, parse_eq_ok_some_iff.2 hdenotes, ?_⟩
  rintro g ⟨_ | expression⟩ hg hf
  · simp [isEmpty] at hf
  · have hg := parse_eq_ok_some_iff.1 hg
    cases expression with
    | nil =>
      obtain ⟨ts, -, hderives⟩ := hg
      cases hderives
    | cons sequence sequences =>
      refine ⟨sequence, sequences, rfl, parse_eq_ok_some_iff.2 ?_⟩
      simpa [single, adjoin] using hdenotes.adjacent hg

/-- A text that closes the quote, and the parenthesis of a group, stays a text. -/
theorem quoted_text_contained_whale :
    (lex "title").map (·.map Lexeme.token) = .ok [.word "title"] ∧
      Filter.parse "title = \"\\\") OR (a\" -sea" = .ok ⟨some [[
        [.restriction false ⟨.member ["title"], some (.eq, .literal (.text "\") OR (a"))⟩],
        [.restriction true ⟨.member ["sea"], none⟩]]]⟩ := by
  have htitle : (lex "title").map (·.map Lexeme.token) = .ok [.word "title"] := by
    with_unfolding_all rfl
  have hsea : Filter.parse "-sea" = .ok ⟨some [[[.restriction true ⟨.member ["sea"], none⟩]]]⟩ := by
    with_unfolding_all rfl
  obtain ⟨-, -, hbefore⟩ := quoted_text_contained htitle .eq "\") OR (a"
  obtain ⟨sequence, sequences, heq, hparse⟩ := hbefore "-sea" _ hsea rfl
  cases heq
  have hsplit : Text.splitOn '.' "title" = ["title"] := by with_unfolding_all rfl
  have htext : comparisonText "title" .eq (.text "\") OR (a") ++ " " ++ "-sea" =
      "title = \"\\\") OR (a\" -sea" := by
    with_unfolding_all rfl
  rw [hsplit, htext] at hparse
  exact ⟨htitle, hparse⟩

end Comparisons

end RecordQuery.Filter

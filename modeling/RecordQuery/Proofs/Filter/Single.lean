import RecordQuery.Proofs.Filter.Acceptance
import RecordQuery.Proofs.Filter.Composition
import RecordQuery.Proofs.Filter.Scatter
import RecordQuery.Proofs.Filter.Written

/-!
# Filters of one restriction

A text of one token is a search for it, and one of two tokens with a comparator between them is a
comparison, provided that the tokens are comparables; otherwise they are no filter.
-/

namespace RecordQuery.Filter

variable {token left right : Token} {op : Operator} {c d : Comparable} {s w : String} {f : Filter}
  {a : Expression}

def single (r : Restriction) : Expression :=
  [[[.restriction false r]]]

theorem DerivesRestriction.derivesExpression {ts : List Token} {r : Restriction}
    (h : DerivesRestriction ts r) : DerivesExpression ts (single r) :=
  .single (.single (.single (.restriction .none h)))

/-- Tokens derive one expression. -/
theorem DerivesExpression.det {ts : List Token} {b : Expression} (ha : DerivesExpression ts a)
    (hb : DerivesExpression ts b) : a = b := by
  have hfilters : (⟨some a⟩ : Filter) = ⟨some b⟩ :=
    Derives.det (.inr ⟨a, rfl, ha⟩) (.inr ⟨b, rfl, hb⟩)
  exact Option.some.inj (congrArg Filter.expression? hfilters)

/-- A comparator follows comparables only. -/
theorem DerivesExpression.comparable_of_comparator {ts : List Token}
    (h : DerivesExpression (left :: .comparator op :: ts) a) : ∃ d, left.comparable = .ok d := by
  obtain ⟨last, hrun, -⟩ := h.exists_run
  cases left with
  | word | text => exact ⟨_, rfl⟩
  | number n =>
    cases hc : (Token.number n).comparable with
    | ok d => exact ⟨d, rfl⟩
    | error fault =>
      have hstep : State.initial.step (.number n) = .error fault := by
        change (Token.number n).comparable.map _ = .error fault
        rw [hc]
        rfl
      rw [State.run_cons, hstep] at hrun
      cases hrun
  | _ => cases hrun

/-- Three tokens with a comparator between them derive the one restriction and nothing else. -/
theorem derivesExpression_comparison_iff (hright : right.comparable = .ok c) :
    DerivesExpression [left, .comparator op, right] a ↔
      ∃ d, left.comparable = .ok d ∧ a = single ⟨d, some (op, c)⟩ := by
  constructor
  · intro h
    obtain ⟨d, hd⟩ := h.comparable_of_comparator
    have htest : DerivesRestriction [left, .comparator op, right] ⟨d, some (op, c)⟩ :=
      .test hd hright
    exact ⟨d, hd, h.det htest.derivesExpression⟩
  · rintro ⟨d, hd, rfl⟩
    exact (DerivesRestriction.test hd hright).derivesExpression

/-- Whether a text is one side of a comparison. -/
def IsOperand (w : String) (c : Comparable) : Prop :=
  ∃ token, Lexes w.toList [token] ∧ token.comparable = .ok c

theorem exists_comparable_number (h : isNumeral w.toList = true) :
    ∃ l, (Token.number w).comparable = .ok (.literal l) := by
  obtain ⟨l, hl⟩ := exists_ofNumeral? h
  exact ⟨l, by rw [Token.comparable, hl]⟩

theorem lexes_word (h : IsWord w.toList) : Lexes w.toList [.word w] := by
  have hlexes := Lexes.word h (by simp [Stops]) (.nil rfl : Lexes [] [])
  rwa [List.append_nil, String.ofList_toList] at hlexes

theorem lexes_number (h : isNumeral w.toList = true) : Lexes w.toList [.number w] := by
  have hlexes := Lexes.numeral h (by simp [Stops]) (.nil rfl : Lexes [] [])
  rwa [List.append_nil, String.ofList_toList] at hlexes

theorem lexes_text (s : String) : Lexes (String.ofList (Literal.text s).chars).toList [.text s] := by
  have hlexes := Lexes.text s (.nil rfl : Lexes [] [])
  rwa [List.append_nil, ← String.toList_ofList (l := (Literal.text s).chars)] at hlexes

/-- The tokens of two sides with a comparator between them. -/
theorem lexes_comparison {u : String} (hleft : Lexes w.toList [left]) (hright : Lexes u.toList [right])
    (op : Operator) : Lexes (w ++ " " ++ op.text ++ " " ++ u).toList [left, .comparator op, right] := by
  have htest : Lexes (op.text.toList ++ ' ' :: u.toList) [.comparator op, right] :=
    .comparator (by simp [Stops]) hright.blank op
  simpa using hleft.append_blank htest

/-- A comparison, whether or not its left side is a word. -/
theorem parse_comparison_iff (hlexes : Lexes s.toList [left, .comparator op, right])
    (hright : right.comparable = .ok c) :
    Filter.parse s = .ok f ↔
      ∃ d, left.comparable = .ok d ∧ f = ofRestriction ⟨d, some (op, c)⟩ := by
  rw [parse_eq_ok_iff]
  constructor
  · rintro ⟨ts, hts, h⟩
    obtain rfl := hlexes.det hts
    rcases h with ⟨hnil, -⟩ | ⟨expression, rfl, h⟩
    · simp at hnil
    · obtain ⟨d, hd, rfl⟩ := (derivesExpression_comparison_iff hright).1 h
      exact ⟨d, hd, rfl⟩
  · rintro ⟨d, hd, rfl⟩
    exact ⟨_, hlexes, .inr ⟨_, rfl, (derivesExpression_comparison_iff hright).2 ⟨d, hd, rfl⟩⟩⟩

/-- A search for a comparable. -/
theorem parse_search (h : IsOperand s c) : Filter.parse s = .ok (ofRestriction ⟨c, none⟩) := by
  obtain ⟨token, hlexes, hc⟩ := h
  exact parse_eq_ok_some_iff.2 ⟨_, hlexes, (DerivesRestriction.search hc).derivesExpression⟩

end RecordQuery.Filter

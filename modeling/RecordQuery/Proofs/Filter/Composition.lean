import RecordQuery.Proofs.Filter.RoundTrip
import RecordQuery.Proofs.Filter.Seams
import RecordQuery.Proofs.Filter.Validation

/-!
# Filters put together

Filter texts compose as formulas do. In parentheses two filters stay whole, whatever stands between
them. Without parentheses `AND` binds weaker than anything inside a filter, so the sequences of both
follow one another; a blank binds as tightly as the blanks inside a filter, so the last sequence of
the first filter goes on with the first one of the second, which comes to the same. A text composed
in one of these ways compiles exactly if its parts do, since compiling looks at all restrictions.
-/

namespace RecordQuery.Filter

section Trees

variable {ts us ns : List Token} {a b : Expression}

/-- An expression in parentheses. -/
def grouped (negated : Bool) (a : Expression) : Expression :=
  [[[.group negated a]]]

/-- Two expressions in parentheses, joined by `OR`. -/
def either (a b : Expression) : Expression :=
  [[[.group false a, .group false b]]]

/-- Two expressions side by side: the last sequence of the first goes on with the first sequence of
the second. -/
def adjoin : Expression → Expression → Expression
  | [sequence], sequence' :: b => (sequence ++ sequence') :: b
  | sequence :: a, b => sequence :: adjoin a b
  | [], b => b

theorem DerivesExpression.group {negated : Bool} (hns : Negates ns negated)
    (h : DerivesExpression ts a) :
    DerivesExpression (ns ++ .leftParen :: ts ++ [.rightParen]) (grouped negated a) :=
  .single (.single (.single (.group hns h)))

/-- Expressions side by side are derived as one, whose first sequence to the right goes on where the
left one ends. -/
theorem DerivesExpression.adjoin (h : DerivesExpression ts a) (h' : DerivesExpression us b) :
    DerivesExpression (ts ++ us) (adjoin a b) := by
  induction a generalizing ts with
  | nil => cases h
  | cons sequence a ih =>
    cases h with
    | single h =>
      cases h' with
      | single h' => exact .single (h.append h')
      | and h' hs' =>
        rw [← List.append_assoc]
        exact .and (h.append h') hs'
    | and h hs =>
      rw [List.append_assoc, List.cons_append]
      have ih := ih hs
      cases hs with
      | single hs => exact .and h ih
      | and hs hs' => exact .and h ih

theorem expressionRestrictions_append (a b : Expression) :
    expressionRestrictions (a ++ b) = expressionRestrictions a ++ expressionRestrictions b := by
  induction a with
  | nil => rfl
  | cons sequence a ih =>
    rw [List.cons_append, expressionRestrictions, expressionRestrictions, ih, List.append_assoc]

theorem sequenceRestrictions_append (a b : Sequence) :
    sequenceRestrictions (a ++ b) = sequenceRestrictions a ++ sequenceRestrictions b := by
  induction a with
  | nil => rfl
  | cons factor a ih =>
    rw [List.cons_append, sequenceRestrictions, sequenceRestrictions, ih, List.append_assoc]

theorem expressionRestrictions_adjoin (a b : Expression) :
    expressionRestrictions (adjoin a b) = expressionRestrictions a ++ expressionRestrictions b := by
  fun_induction adjoin a b with
  | case1 sequence sequence' b =>
    simp only [expressionRestrictions, sequenceRestrictions_append, List.append_nil,
      List.append_assoc]
  | case2 sequence a b _ ih =>
    rw [expressionRestrictions, expressionRestrictions, ih, List.append_assoc]
  | case3 b => rfl

theorem expressionRestrictions_grouped (negated : Bool) (a : Expression) :
    expressionRestrictions (grouped negated a) = expressionRestrictions a := by
  simp [grouped, expressionRestrictions, sequenceRestrictions, factorRestrictions,
    Term.restrictions]

theorem expressionRestrictions_either (a b : Expression) :
    expressionRestrictions (either a b) = expressionRestrictions a ++ expressionRestrictions b := by
  simp [either, expressionRestrictions, sequenceRestrictions, factorRestrictions,
    Term.restrictions]

section Meaning

variable {ι : Type} [DecidableEq ι] (R : Registry ι) (t : ι) (values : List (Value ι))

/-- Sequences joined by `AND` hold together. -/
theorem expressionHolds_append (a b : Expression) :
    expressionHolds R t values (a ++ b) =
      (expressionHolds R t values a && expressionHolds R t values b) := by
  induction a with
  | nil => rfl
  | cons sequence a ih =>
    rw [List.cons_append, expressionHolds, expressionHolds, ih, Bool.and_assoc]

theorem sequenceHolds_append (a b : Sequence) :
    sequenceHolds R t values (a ++ b) =
      (sequenceHolds R t values a && sequenceHolds R t values b) := by
  induction a with
  | nil => rfl
  | cons factor a ih => rw [List.cons_append, sequenceHolds, sequenceHolds, ih, Bool.and_assoc]

/-- Expressions side by side hold together, just as those joined by `AND` do. -/
theorem expressionHolds_adjoin (a b : Expression) :
    expressionHolds R t values (adjoin a b) =
      (expressionHolds R t values a && expressionHolds R t values b) := by
  fun_induction adjoin a b with
  | case1 sequence sequence' b =>
    simp only [expressionHolds, sequenceHolds_append, Bool.and_true, Bool.and_assoc]
  | case2 sequence a b _ ih => rw [expressionHolds, expressionHolds, ih, Bool.and_assoc]
  | case3 b => rfl

/-- Negation flips what the expression in the parentheses says. -/
theorem expressionHolds_grouped (negated : Bool) (a : Expression) :
    expressionHolds R t values (grouped negated a) = (expressionHolds R t values a != negated) := by
  simp [grouped, expressionHolds, sequenceHolds, factorHolds, Term.holds]

theorem expressionHolds_either (a b : Expression) :
    expressionHolds R t values (either a b) =
      (expressionHolds R t values a || expressionHolds R t values b) := by
  simp [either, expressionHolds, sequenceHolds, factorHolds, Term.holds]

end Meaning

end Trees

section Texts

variable {cs cs' rest : List Char} {ts us ns : List Token} {a b : Expression}

/-- A text in parentheses. -/
theorem Lexes.group (h : Lexes cs ts) (hrest : Lexes rest us) :
    Lexes ('(' :: (cs ++ ')' :: rest)) (.leftParen :: (ts ++ .rightParen :: us)) := by
  have hstop : Stops (')' :: rest) := by simp [Stops]
  exact .cons rfl rfl (h.append hstop (.cons rfl rfl hrest))

theorem Lexes.parenthesized (h : Lexes cs ts) :
    Lexes ('(' :: (cs ++ [')'])) (.leftParen :: (ts ++ [.rightParen])) :=
  h.group (.nil rfl)

/-- A keyword, a blank and a text. -/
theorem Lexes.spaced (keyword : List Char) (hinWord : keyword.all inWord = true)
    (hne : keyword ≠ []) (hhead : keyword.head? ≠ some '-') (h : Lexes rest us) :
    Lexes (keyword ++ ' ' :: rest) (classify keyword :: us) := by
  have hstop : Stops (' ' :: rest) := by simp [Stops]
  exact .keyword hstop h.blank hinWord hne hhead

/-- Texts with a blank between them are lexed one after the other. -/
theorem Lexes.append_blank (h : Lexes cs ts) (hrest : Lexes rest us) :
    Lexes (cs ++ ' ' :: rest) (ts ++ us) := by
  have hstop : Stops (' ' :: rest) := by simp [Stops]
  exact h.append hstop hrest.blank

/-- Whether a text is an expression. -/
def Denotes (cs : List Char) (a : Expression) : Prop :=
  ∃ ts, Lexes cs ts ∧ DerivesExpression ts a

/-- A text is parsed as an expression exactly if it is lexed to tokens that derive it. -/
theorem parse_eq_ok_some_iff {s : String} : Filter.parse s = .ok ⟨some a⟩ ↔ Denotes s.toList a := by
  simp [parse_eq_ok_iff, Denotes]

namespace Denotes

theorem group {negated : Bool} (hns : Negates ns negated)
    (hlexes : Lexes cs (ns ++ .leftParen :: (ts ++ [.rightParen])))
    (hderives : DerivesExpression ts a) : Denotes cs (grouped negated a) := by
  refine ⟨_, hlexes, ?_⟩
  have hgroup := hderives.group hns
  rwa [List.append_assoc, List.cons_append] at hgroup

theorem parenthesized (h : Denotes cs a) : Denotes ('(' :: (cs ++ [')'])) (grouped false a) := by
  obtain ⟨ts, hlexes, hderives⟩ := h
  exact group .none hlexes.parenthesized hderives

theorem not (h : Denotes cs a) : Denotes ("NOT (".toList ++ (cs ++ [')'])) (grouped true a) := by
  obtain ⟨ts, hlexes, hderives⟩ := h
  have hnot := Lexes.spaced ['N', 'O', 'T'] (by decide) (by decide) (by decide)
    hlexes.parenthesized
  exact group .not hnot hderives

/-- A minus sign before a parenthesis stands alone. -/
theorem minus (h : Denotes cs a) : Denotes ("-(".toList ++ (cs ++ [')'])) (grouped true a) := by
  obtain ⟨ts, hlexes, hderives⟩ := h
  exact group .minus (.cons rfl rfl hlexes.parenthesized) hderives

variable (h : Denotes cs a) (h' : Denotes cs' b)

include h h'

theorem and : Denotes (cs ++ (" AND ".toList ++ cs')) (a ++ b) := by
  obtain ⟨ts, hlexes, hderives⟩ := h
  obtain ⟨us, hlexes', hderives'⟩ := h'
  have hand := Lexes.spaced ['A', 'N', 'D'] (by decide) (by decide) (by decide) hlexes'
  exact ⟨_, hlexes.append_blank hand, hderives.append hderives'⟩

theorem adjacent : Denotes (cs ++ ' ' :: cs') (adjoin a b) := by
  obtain ⟨ts, hlexes, hderives⟩ := h
  obtain ⟨us, hlexes', hderives'⟩ := h'
  exact ⟨_, hlexes.append_blank hlexes', hderives.adjoin hderives'⟩

theorem or : Denotes ('(' :: (cs ++ (") OR (".toList ++ (cs' ++ [')'])))) (either a b) := by
  obtain ⟨ts, hlexes, hderives⟩ := h
  obtain ⟨us, hlexes', hderives'⟩ := h'
  have hor : Lexes _ (.or :: _) :=
    .spaced ['O', 'R'] (by decide) (by decide) (by decide) hlexes'.parenthesized
  have hfactor : DerivesFactor _ [.group false a, .group false b] :=
    .or (.group .none hderives) (.single (.group .none hderives'))
  exact ⟨_, hlexes.group hor.blank, .single (.single (by simpa using hfactor))⟩

end Denotes

end Texts

section Composition

variable {ι : Type} [DecidableEq ι] {R : Registry ι} {t : ι} {f g s : String} {a b c : Filter}

/-- Whether a text is a filter that joins two others: it is parsed, it compiles exactly if both of
them do, and then it says of every record what they say of it together. -/
structure Joins (R : Registry ι) (t : ι) (join : Bool → Bool → Bool) (f g s : String) : Prop where
  parses : ∃ c, Filter.parse s = .ok c
  compiles_iff : (∃ p, Predicate.parse R t s = .ok p) ↔
    (∃ p, Predicate.parse R t f = .ok p) ∧ ∃ p, Predicate.parse R t g = .ok p
  accepts_eq : ∀ p q o, Predicate.parse R t f = .ok p → Predicate.parse R t g = .ok q →
    Predicate.parse R t s = .ok o → ∀ r, o.accepts r = join (p.accepts r) (q.accepts r)

/-- Whether a text is a filter that says the opposite of another one: it is parsed, it compiles
exactly if the other one does, and then it accepts the records that the other one refuses. -/
structure Inverts (R : Registry ι) (t : ι) (f s : String) : Prop where
  parses : ∃ c, Filter.parse s = .ok c
  compiles_iff : (∃ p, Predicate.parse R t s = .ok p) ↔ ∃ p, Predicate.parse R t f = .ok p
  accepts_eq : ∀ p o, Predicate.parse R t f = .ok p → Predicate.parse R t s = .ok o →
    ∀ r, o.accepts r = !p.accepts r

/-- Whether a parsed filter compiles depends on its restrictions alone, each of which must be
defined on the type. -/
theorem exists_predicate_iff (h : Filter.parse s = .ok a) :
    (∃ p, Predicate.parse R t s = .ok p) ↔ a.restrictions.all (·.isDefined R t) = true := by
  rw [← exists_compile_iff, Predicate.parse, h]
  rfl

/-- A compiled filter accepts the records of which the parsed text holds. -/
theorem accepts_of_parse {p : Predicate R t} (h : Filter.parse s = .ok a)
    (hp : Predicate.parse R t s = .ok p) (r : Record R t) : p.accepts r = a.holds R t r.fields := by
  rw [Predicate.parse, h] at hp
  obtain ⟨rfl, -⟩ := compile_eq_ok hp
  rfl

/-- A text joins two others if it has the restrictions of both and holds of a record as they do
together. -/
theorem Joins.of_parse {join : Bool → Bool → Bool} (hf : Filter.parse f = .ok a)
    (hg : Filter.parse g = .ok b) (hs : Filter.parse s = .ok c)
    (hrestrictions : c.restrictions = a.restrictions ++ b.restrictions)
    (hholds : ∀ values, c.holds R t values = join (a.holds R t values) (b.holds R t values)) :
    Joins R t join f g s where
  parses := ⟨c, hs⟩
  compiles_iff := by
    rw [exists_predicate_iff hs, exists_predicate_iff hf, exists_predicate_iff hg, hrestrictions,
      List.all_append, Bool.and_eq_true]
  accepts_eq p q o hp hq ho r := by
    rw [accepts_of_parse hs ho, accepts_of_parse hf hp, accepts_of_parse hg hq, hholds]

theorem Inverts.of_parse (hf : Filter.parse f = .ok a) (hs : Filter.parse s = .ok c)
    (hrestrictions : c.restrictions = a.restrictions)
    (hholds : ∀ values, c.holds R t values = !a.holds R t values) : Inverts R t f s where
  parses := ⟨c, hs⟩
  compiles_iff := by rw [exists_predicate_iff hs, exists_predicate_iff hf, hrestrictions]
  accepts_eq p o hp ho r := by rw [accepts_of_parse hs ho, accepts_of_parse hf hp, hholds]

/-- An expression in parentheses, negated, is the opposite of the expression. -/
theorem Inverts.of_grouped {a : Expression} (hf : Filter.parse f = .ok ⟨some a⟩)
    (hs : Filter.parse s = .ok ⟨some (grouped true a)⟩) : Inverts R t f s := by
  refine .of_parse hf hs (expressionRestrictions_grouped true a) fun values ↦ ?_
  simp [holds, expressionHolds_grouped]

/-- Filter texts compose as formulas: joined with or without parentheses, or negated. -/
theorem texts_compose (R : Registry ι) (t : ι) (hf : Filter.parse f = .ok a)
    (ha : a.isEmpty = false) (hg : Filter.parse g = .ok b) (hb : b.isEmpty = false) :
    Joins R t and f g ("(" ++ f ++ ") AND (" ++ g ++ ")") ∧
    Joins R t and f g (f ++ " AND " ++ g) ∧
    Joins R t and f g (f ++ " " ++ g) ∧
    Joins R t or f g ("(" ++ f ++ ") OR (" ++ g ++ ")") ∧
    Inverts R t f ("NOT (" ++ f ++ ")") ∧
    Inverts R t f ("-(" ++ f ++ ")") := by
  obtain ⟨_ | a⟩ := a
  · exact absurd ha (by simp [isEmpty])
  obtain ⟨_ | b⟩ := b
  · exact absurd hb (by simp [isEmpty])
  have hf' := parse_eq_ok_some_iff.1 hf
  have hg' := parse_eq_ok_some_iff.1 hg
  refine ⟨?groups, ?and, ?adjacent, ?or, ?not, ?minus⟩
  case groups =>
    have hs : Filter.parse ("(" ++ f ++ ") AND (" ++ g ++ ")") =
        .ok ⟨some (grouped false a ++ grouped false b)⟩ :=
      parse_eq_ok_some_iff.2 (by simpa using hf'.parenthesized.and hg'.parenthesized)
    refine .of_parse hf hg hs ?_ fun values ↦ ?_
    · simp [restrictions, expressionRestrictions_append, expressionRestrictions_grouped]
    · simp [holds, expressionHolds_append, expressionHolds_grouped]
  case and =>
    have hs : Filter.parse (f ++ " AND " ++ g) = .ok ⟨some (a ++ b)⟩ :=
      parse_eq_ok_some_iff.2 (by simpa using hf'.and hg')
    exact .of_parse hf hg hs (expressionRestrictions_append a b)
      fun values ↦ expressionHolds_append R t values a b
  case adjacent =>
    have hs : Filter.parse (f ++ " " ++ g) = .ok ⟨some (adjoin a b)⟩ :=
      parse_eq_ok_some_iff.2 (by simpa using hf'.adjacent hg')
    exact .of_parse hf hg hs (expressionRestrictions_adjoin a b)
      fun values ↦ expressionHolds_adjoin R t values a b
  case or =>
    have hs : Filter.parse ("(" ++ f ++ ") OR (" ++ g ++ ")") = .ok ⟨some (either a b)⟩ :=
      parse_eq_ok_some_iff.2 (by simpa using hf'.or hg')
    exact .of_parse hf hg hs (expressionRestrictions_either a b)
      fun values ↦ expressionHolds_either R t values a b
  case not => exact .of_grouped hf (parse_eq_ok_some_iff.2 (by simpa using hf'.not))
  case minus => exact .of_grouped hf (parse_eq_ok_some_iff.2 (by simpa using hf'.minus))

section Example

open Bookshelf

/-- Filters of books, side by side. -/
theorem texts_compose_whales :
    ∃ a b, Filter.parse "page_count > 300 OR title:whale" = .ok a ∧ a.isEmpty = false ∧
      Filter.parse "-title:sea author" = .ok b ∧ b.isEmpty = false ∧
      Joins bookshelf .book and "page_count > 300 OR title:whale" "-title:sea author"
        "page_count > 300 OR title:whale -title:sea author" := by
  have hparses {s : String} (h : (Filter.parse s).toOption.map isEmpty = some false) :
      ∃ a, Filter.parse s = .ok a ∧ a.isEmpty = false := by
    cases hs : Filter.parse s with
    | error e => simp [hs, Except.toOption] at h
    | ok a => exact ⟨a, rfl, by simpa [hs, Except.toOption] using h⟩
  obtain ⟨a, hf, ha⟩ :=
    hparses (s := "page_count > 300 OR title:whale") (by decide +kernel)
  obtain ⟨b, hg, hb⟩ := hparses (s := "-title:sea author") (by decide +kernel)
  exact ⟨a, b, hf, ha, hg, hb, (texts_compose bookshelf .book hf ha hg hb).2.2.1⟩

end Example

end Composition

end RecordQuery.Filter

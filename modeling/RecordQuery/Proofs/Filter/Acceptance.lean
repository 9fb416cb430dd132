import RecordQuery.Proofs.Filter.Lexemes
import RecordQuery.Proofs.Filter.Operands
import RecordQuery.Proofs.Filter.ParseTree
import RecordQuery.Proofs.Filter.RoundTrip

/-!
# The parser accepts the grammar

The tokens of a text are parsed exactly if they have a parse tree, and the filter is then that of
the tree, of which there is only one. The numbers among the tokens that the lexer makes can all be
read, so that a number is never what is wrong with a text.
-/

namespace RecordQuery.Filter

section Reading

/-- What the tree of each rule stands for. A restriction or a group becomes a term once it is known
whether it is negated. -/
def Rule.Node : Rule → Type
  | expression => Expression
  | sequence => Sequence
  | factor => Factor
  | term => Term
  | simple => Bool → Term
  | restriction => Restriction

/-- What a tree stands for, or what is wrong with the first comparable in it that cannot be read. -/
def ParseTree.read {rule : Rule} : ParseTree rule → Except Fault rule.Node
  | .sequence first => first.read.map fun s ↦ [s]
  | .and first rest => first.read.bind fun s ↦ rest.read.map fun ss ↦ s :: ss
  | .factor first => first.read.map fun f ↦ [f]
  | .adjacent first rest => first.read.bind fun f ↦ rest.read.map fun fs ↦ f :: fs
  | .term first => first.read.map fun t ↦ [t]
  | .or first rest => first.read.bind fun t ↦ rest.read.map fun ts ↦ t :: ts
  | .simple body => body.read.map fun term ↦ term false
  | .not body | .minus body => body.read.map fun term ↦ term true
  | .restriction body => body.read.map fun r negated ↦ .restriction negated r
  | .group body => body.read.map fun e negated ↦ .group negated e
  | .search subject _ => subject.comparable.map fun c ↦ ⟨c, none⟩
  | .test subject op argument _ _ =>
    subject.comparable.bind fun c ↦ argument.comparable.map fun d ↦ ⟨c, some (op, d)⟩

/-- Whether tokens derive what the tree of a rule stands for. -/
def Rule.Derives : (rule : Rule) → List Token → rule.Node → Prop
  | expression, ts, e => DerivesExpression ts e
  | sequence, ts, s => DerivesSequence ts s
  | factor, ts, f => DerivesFactor ts f
  | term, ts, t => DerivesTerm ts t
  | simple, ts, t => ∀ {ns : List Token} {negated : Bool}, Negates ns negated →
      DerivesTerm (ns ++ ts) (t negated)
  | restriction, ts, r => DerivesRestriction ts r

namespace ParseTree

variable {rule : Rule}

/-- The tokens of a tree derive what it stands for. -/
theorem derives_of_read (tree : ParseTree rule) {node : rule.Node} (h : tree.read = .ok node) :
    rule.Derives tree.tokens node := by
  induction tree with
  | sequence first ih =>
    obtain ⟨s, hs, rfl⟩ := Outcome.map_eq_ok_iff.1 h
    exact .single (ih hs)
  | and first rest ih ihs =>
    obtain ⟨s, hs, h⟩ := Outcome.bind_eq_ok_iff.1 h
    obtain ⟨ss, hss, rfl⟩ := Outcome.map_eq_ok_iff.1 h
    exact .and (ih hs) (ihs hss)
  | factor first ih =>
    obtain ⟨f, hf, rfl⟩ := Outcome.map_eq_ok_iff.1 h
    exact .single (ih hf)
  | adjacent first rest ih ihs =>
    obtain ⟨f, hf, h⟩ := Outcome.bind_eq_ok_iff.1 h
    obtain ⟨fs, hfs, rfl⟩ := Outcome.map_eq_ok_iff.1 h
    exact .adjacent (ih hf) (ihs hfs)
  | term first ih =>
    obtain ⟨t, ht, rfl⟩ := Outcome.map_eq_ok_iff.1 h
    exact .single (ih ht)
  | or first rest ih ihs =>
    obtain ⟨t, ht, h⟩ := Outcome.bind_eq_ok_iff.1 h
    obtain ⟨ts, hts, rfl⟩ := Outcome.map_eq_ok_iff.1 h
    exact .or (ih ht) (ihs hts)
  | simple body ih =>
    obtain ⟨t, ht, rfl⟩ := Outcome.map_eq_ok_iff.1 h
    exact ih ht .none
  | not body ih =>
    obtain ⟨t, ht, rfl⟩ := Outcome.map_eq_ok_iff.1 h
    exact ih ht .not
  | minus body ih =>
    obtain ⟨t, ht, rfl⟩ := Outcome.map_eq_ok_iff.1 h
    exact ih ht .minus
  | restriction body ih =>
    obtain ⟨r, hr, rfl⟩ := Outcome.map_eq_ok_iff.1 h
    exact fun hns ↦ .restriction hns (ih hr)
  | group body ih =>
    obtain ⟨e, he, rfl⟩ := Outcome.map_eq_ok_iff.1 h
    intro ns negated hns
    have hterm := DerivesTerm.group hns (ih he)
    rwa [List.append_assoc, List.cons_append] at hterm
  | search subject hsubject =>
    obtain ⟨c, hc, rfl⟩ := Outcome.map_eq_ok_iff.1 h
    exact .search hc
  | test subject op argument hsubject hargument =>
    obtain ⟨c, hc, h⟩ := Outcome.bind_eq_ok_iff.1 h
    obtain ⟨d, hd, rfl⟩ := Outcome.map_eq_ok_iff.1 h
    exact .test hc hd

end ParseTree

/-- Whether tokens have a tree that stands for a node. -/
def Rule.HasTree (rule : Rule) (ts : List Token) (node : rule.Node) : Prop :=
  ∃ tree : ParseTree rule, tree.tokens = ts ∧ tree.read = .ok node

/-- A token list that the grammar derives as a restriction has the tree of that restriction. -/
theorem DerivesRestriction.hasTree {ts : List Token} {r : Restriction}
    (h : DerivesRestriction ts r) : Rule.restriction.HasTree ts r := by
  cases h with
  | @search token c hc =>
    refine ⟨.search token (Token.isOperand_of_comparable hc), rfl, ?_⟩
    rw [ParseTree.read, hc]
    rfl
  | @test left right op c d hc hd =>
    refine ⟨.test left op right (Token.isOperand_of_comparable hc)
      (Token.isOperand_of_comparable hd), rfl, ?_⟩
    rw [ParseTree.read, hc, hd]
    rfl

/-- A clause that is negated, by the keyword or by a minus sign, has the tree of a term. -/
theorem Negates.hasTree {ns ts : List Token} {negated : Bool} (h : Negates ns negated)
    {term : Bool → Term} (hterm : Rule.simple.HasTree ts term) :
    Rule.term.HasTree (ns ++ ts) (term negated) := by
  obtain ⟨tree, rfl, hread⟩ := hterm
  cases h with
  | none => exact ⟨.simple tree, rfl, by rw [ParseTree.read, hread]; rfl⟩
  | not => exact ⟨.not tree, rfl, by rw [ParseTree.read, hread]; rfl⟩
  | minus => exact ⟨.minus tree, rfl, by rw [ParseTree.read, hread]; rfl⟩

mutual

theorem DerivesTerm.hasTree {ts : List Token} {term : Term} (h : DerivesTerm ts term) :
    Rule.term.HasTree ts term := by
  cases h with
  | @restriction ns ts negated r hns h =>
    obtain ⟨tree, rfl, hread⟩ := h.hasTree
    exact hns.hasTree ⟨.restriction tree, rfl, by rw [ParseTree.read, hread]; rfl⟩
  | @group ns ts negated body hns h =>
    obtain ⟨tree, rfl, hread⟩ := h.hasTree
    rw [List.append_assoc, List.cons_append]
    exact hns.hasTree ⟨.group tree, rfl, by rw [ParseTree.read, hread]; rfl⟩

theorem DerivesFactor.hasTree {ts : List Token} {terms : Factor} (h : DerivesFactor ts terms) :
    Rule.factor.HasTree ts terms := by
  cases h with
  | single h =>
    obtain ⟨tree, rfl, hread⟩ := h.hasTree
    exact ⟨.term tree, rfl, by rw [ParseTree.read, hread]; rfl⟩
  | or h hs =>
    obtain ⟨tree, rfl, hread⟩ := h.hasTree
    obtain ⟨trees, rfl, hreads⟩ := hs.hasTree
    exact ⟨.or tree trees, rfl, by rw [ParseTree.read, hread, hreads]; rfl⟩

theorem DerivesSequence.hasTree {ts : List Token} {factors : Sequence}
    (h : DerivesSequence ts factors) : Rule.sequence.HasTree ts factors := by
  cases h with
  | single h =>
    obtain ⟨tree, rfl, hread⟩ := h.hasTree
    exact ⟨.factor tree, rfl, by rw [ParseTree.read, hread]; rfl⟩
  | adjacent h hs =>
    obtain ⟨tree, rfl, hread⟩ := h.hasTree
    obtain ⟨trees, rfl, hreads⟩ := hs.hasTree
    exact ⟨.adjacent tree trees, rfl, by rw [ParseTree.read, hread, hreads]; rfl⟩

theorem DerivesExpression.hasTree {ts : List Token} {sequences : Expression}
    (h : DerivesExpression ts sequences) : Rule.expression.HasTree ts sequences := by
  cases h with
  | single h =>
    obtain ⟨tree, rfl, hread⟩ := h.hasTree
    exact ⟨.sequence tree, rfl, by rw [ParseTree.read, hread]; rfl⟩
  | and h hs =>
    obtain ⟨tree, rfl, hread⟩ := h.hasTree
    obtain ⟨trees, rfl, hreads⟩ := hs.hasTree
    exact ⟨.and tree trees, rfl, by rw [ParseTree.read, hread, hreads]; rfl⟩

end

/-- Tokens derive an expression exactly if they have a tree that stands for it. -/
theorem derivesExpression_iff {ts : List Token} {e : Expression} :
    DerivesExpression ts e ↔ Rule.expression.HasTree ts e := by
  constructor
  · exact DerivesExpression.hasTree
  · rintro ⟨tree, rfl, hread⟩
    exact tree.derives_of_read hread

end Reading

section Numbers

/-- A numeral can be read as a decimal. -/
theorem IsUnsigned.exists_read? {cs : List Char} (h : IsUnsigned cs) :
    ∃ d, Decimal.read? cs = some d := by
  obtain ⟨whole, fraction, rfl, hwhole, hfraction⟩ := h
  obtain ⟨hne, hdigits⟩ := isDigits_iff.1 hwhole
  rcases hfraction with rfl | ⟨ds, rfl, hds⟩
  · rw [List.append_nil]
    exact ⟨_, Decimal.read?_digits hdigits hne⟩
  · have hall := List.forall_mem_append.2 ⟨hdigits, (isDigits_iff.1 hds).2⟩
    exact ⟨_, Decimal.read?_point hall hne⟩

/-- Every numeral that the lexer lets through is the text of a floating point number. -/
theorem exists_ofText? {s : String} (h : isNumeral s.toList = true) :
    ∃ x, Floating.ofText? .binary64 s = some x := by
  obtain ⟨negative, c, ds, hsign, hc, hunsigned⟩ := exists_readSign h
  obtain ⟨d, hd⟩ := hunsigned.exists_read?
  rw [Floating.ofText?_of_isDigit hsign hc, hd]
  exact ⟨_, rfl⟩

/-- A numeral is a literal, whatever its size. -/
theorem exists_ofNumeral? {n : String} (h : isNumeral n.toList = true) :
    ∃ l, Literal.ofNumeral? n = some l := by
  obtain ⟨x, hx⟩ := exists_ofText? h
  rw [ofNumeral?_eq Prod.mk.eta.symm, hx]
  dsimp only
  split_ifs <;> exact ⟨_, rfl⟩

/-- Every comparable that the lexer makes can be read. -/
theorem Token.IsRead.exists_comparable {token : Token} (h : token.IsRead)
    (hoperand : token.isOperand = true) : ∃ c, token.comparable = .ok c := by
  cases token with
  | word w => exact ⟨_, rfl⟩
  | text t => exact ⟨_, rfl⟩
  | number n =>
    obtain ⟨l, hl⟩ := exists_ofNumeral? h
    exact ⟨.literal l, by rw [Token.comparable, hl]⟩
  | _ => exact absurd hoperand Bool.false_ne_true

theorem Token.IsRead.comparable_ne {token : Token} (h : token.IsRead) (numeral : String) :
    token.comparable ≠ .error (.invalidNumber numeral) := by
  intro herror
  cases hoperand : token.isOperand with
  | true =>
    obtain ⟨c, hc⟩ := h.exists_comparable hoperand
    simp [hc] at herror
  | false => cases token <;> simp_all [Token.comparable, Token.isOperand]

/-- A tree over tokens that the lexer makes stands for a node. -/
theorem ParseTree.exists_read {rule : Rule} (tree : ParseTree rule)
    (h : ∀ token ∈ tree.tokens, token.IsRead) : ∃ node, tree.read = .ok node := by
  induction tree with
  | sequence first ih | factor first ih | term first ih | simple first ih | restriction first ih =>
    obtain ⟨node, hnode⟩ := ih h
    exact ⟨_, by rw [read, hnode]; rfl⟩
  | and first rest ih ihs | or first rest ih ihs =>
    obtain ⟨hfirst, hrest⟩ := List.forall_mem_append.1 h
    obtain ⟨node, hnode⟩ := ih hfirst
    obtain ⟨nodes, hnodes⟩ := ihs (List.forall_mem_cons.1 hrest).2
    exact ⟨_, by rw [read, hnode, hnodes]; rfl⟩
  | adjacent first rest ih ihs =>
    obtain ⟨hfirst, hrest⟩ := List.forall_mem_append.1 h
    obtain ⟨node, hnode⟩ := ih hfirst
    obtain ⟨nodes, hnodes⟩ := ihs hrest
    exact ⟨_, by rw [read, hnode, hnodes]; rfl⟩
  | not body ih | minus body ih =>
    obtain ⟨node, hnode⟩ := ih (List.forall_mem_cons.1 h).2
    exact ⟨_, by rw [read, hnode]; rfl⟩
  | group body ih =>
    obtain ⟨node, hnode⟩ := ih (List.forall_mem_append.1 (List.forall_mem_cons.1 h).2).1
    exact ⟨_, by rw [read, hnode]; rfl⟩
  | search subject hsubject =>
    obtain ⟨c, hc⟩ := (h subject List.mem_cons_self).exists_comparable hsubject
    exact ⟨_, by rw [read, hc]; rfl⟩
  | test subject op argument hsubject hargument =>
    obtain ⟨c, hc⟩ := (h subject List.mem_cons_self).exists_comparable hsubject
    obtain ⟨d, hd⟩ := (h argument (by simp [tokens])).exists_comparable hargument
    exact ⟨_, by rw [read, hc, hd]; rfl⟩

end Numbers

section Faults

variable {fault : Fault}

/-- Whether a fault is one of the lexer's. -/
def Fault.IsLexical : Fault → Prop
  | openString | openEscape | loneExclamation => True
  | _ => False

theorem StopsLexing.isLexical {c : Char} {cs : List Char} (h : StopsLexing c cs fault) :
    fault.IsLexical := by
  cases h with
  | quote _ _ hfault => rcases hfault with rfl | rfl <;> trivial
  | exclamation => trivial

theorem isLexical_of_lexFrom {offset : Nat} {cs : List Char} {result : Nat × Fault}
    (h : lexFrom offset cs = .error result) : result.2.IsLexical := by
  rcases tiles_or_stops offset cs with ⟨lexemes, htiles⟩ | ⟨_, _, _, _, fault, -, -, hstops, herror⟩
  · exact nomatch htiles.lexFrom_eq.symm.trans h
  · obtain rfl := Except.error.inj (herror.symm.trans h)
    exact hstops.isLexical

namespace State

variable {state : State} {token : Token} {numeral : String}

theorem comparable_of_beginTerm {negated : Bool}
    (h : state.beginTerm negated token = .error (.invalidNumber numeral)) :
    token.comparable = .error (.invalidNumber numeral) := by
  unfold beginTerm at h
  split at h
  · simp at h
  · exact Outcome.map_eq_error_iff.1 h

theorem comparable_of_beginFactor (h : state.beginFactor token = .error (.invalidNumber numeral)) :
    token.comparable = .error (.invalidNumber numeral) := by
  unfold beginFactor at h
  split at h
  · simp at h
  · simp at h
  · exact comparable_of_beginTerm h

theorem comparable_of_continueWith
    (h : state.continueWith token = .error (.invalidNumber numeral)) :
    token.comparable = .error (.invalidNumber numeral) := by
  unfold continueWith at h
  split at h
  · simp at h
  · simp at h
  · split at h <;> simp at h
  · split_ifs at h <;> simp at h
  · exact comparable_of_beginFactor h

/-- A number is at fault only where it stands for a comparable. -/
theorem comparable_of_step (h : state.step token = .error (.invalidNumber numeral)) :
    token.comparable = .error (.invalidNumber numeral) := by
  unfold step at h
  split at h
  · exact comparable_of_beginFactor h
  · exact comparable_of_beginTerm h
  · split at h
    · simp at h
    · exact comparable_of_continueWith h
  · exact Outcome.map_eq_error_iff.1 h
  · exact comparable_of_continueWith h

theorem finish_ne_invalidNumber : state.finish ≠ .error (.invalidNumber numeral) := by
  have hend (state : State) : (if state.outer.isEmpty then .ok state.level.toExpression
      else .error (.openGroup none) : Except Fault Expression) ≠ .error (.invalidNumber numeral) := by
    split <;> simp
  unfold finish
  cases state.expecting with
  | comparator negated subject => exact hend _
  | next => exact hend _
  | _ => simp [Except.bind]

end State

/-- The parser never meets a number that it cannot read, because the lexer has read every numeral
already. -/
theorem parseFrom_ne_invalidNumber {finish position : Nat} {state : State}
    {lexemes : List Lexeme} (h : ∀ token ∈ lexemes.map Lexeme.token, token.IsRead)
    (numeral : String) :
    parseFrom finish state lexemes ≠ .error (position, .invalidNumber numeral) := by
  induction lexemes generalizing state with
  | nil =>
    intro hparse
    obtain ⟨fault, hfinish, hfault⟩ := Outcome.mapError_eq_error_iff.1 hparse
    obtain rfl := (Prod.mk.inj hfault).2
    exact State.finish_ne_invalidNumber hfinish
  | cons lexeme lexemes ih =>
    obtain ⟨htoken, htokens⟩ := List.forall_mem_cons.1 h
    intro hparse
    rw [parseFrom] at hparse
    split at hparse
    · exact ih htokens hparse
    · rename_i fault hfault
      obtain rfl := (Prod.mk.inj (Except.error.inj hparse)).2
      exact htoken.comparable_ne numeral (State.comparable_of_step hfault)

/-- A number is never what is wrong with a text. -/
theorem parse_ne_invalidNumber (s : String) (position : Nat) (numeral : String) :
    Filter.parse s ≠ .error (.invalidFilter position (.invalidNumber numeral)) := by
  intro h
  obtain ⟨⟨position', fault⟩, hresult, herror⟩ := Outcome.mapError_eq_error_iff.1 h
  obtain ⟨rfl, rfl⟩ := Error.invalidFilter.inj herror
  rcases Outcome.bind_eq_error_iff.1 hresult with hlex | ⟨lexemes, hlex, hparse⟩
  · exact isLexical_of_lexFrom hlex
  · have hread := (lexes_of_lexFrom hlex).isRead
    cases lexemes with
    | nil => simp [ofLexemes] at hparse
    | cons lexeme lexemes =>
      exact parseFrom_ne_invalidNumber hread numeral (Outcome.map_eq_error_iff.1 hparse)

end Faults

section Acceptance

variable {s : String} {lexemes : List Lexeme}

/-- Once a text is lexed, parsing it is a matter of its tokens alone: none of them is the empty
filter, and otherwise the tokens have the tree of an expression. -/
theorem parse_eq_ok_iff_of_lex (h : lex s = .ok lexemes) {f : Filter} :
    Filter.parse s = .ok f ↔
      (lexemes.map Lexeme.token = [] ∧ f = ⟨none⟩) ∨ ∃ expression, f = ⟨some expression⟩ ∧
        Rule.expression.HasTree (lexemes.map Lexeme.token) expression := by
  have hlexes := lexes_of_lexFrom h
  simp only [parse_eq_ok_iff, derivesExpression_iff]
  constructor
  · rintro ⟨ts, hts, hf⟩
    rwa [hlexes.det hts]
  · intro hf
    exact ⟨_, hlexes, hf⟩

/-- A text of which the tokens have a parse tree, the only one, is parsed to the filter that the tree
stands for. Apart from the text without tokens no other text is accepted, and a number is never what
is wrong with one. -/
theorem parse_iff_tree :
    (∀ (s : String) (lexemes : List Lexeme), lex s = .ok lexemes →
      ((∃ f, Filter.parse s = .ok f ∧ f.isEmpty = false) ↔
        ∃ tree : ParseTree .expression, tree.tokens = lexemes.map Lexeme.token) ∧
      (∀ tree : ParseTree .expression, tree.tokens = lexemes.map Lexeme.token →
        ∃ expression, tree.read = .ok expression ∧ Filter.parse s = .ok ⟨some expression⟩) ∧
      (Filter.parse s = .ok ⟨none⟩ ↔ lexemes = [])) ∧
    Function.Injective (@ParseTree.tokens .expression) ∧
    ∀ s position numeral,
      Filter.parse s ≠ .error (.invalidFilter position (.invalidNumber numeral)) := by
  refine ⟨?_, ParseTree.tokens_injective _, parse_ne_invalidNumber⟩
  intro s lexemes h
  have hiff (f : Filter) := @parse_eq_ok_iff_of_lex s lexemes h f
  have htree : ∀ tree : ParseTree .expression, tree.tokens = lexemes.map Lexeme.token →
      ∃ expression, tree.read = .ok expression ∧ Filter.parse s = .ok ⟨some expression⟩ := by
    intro tree htokens
    obtain ⟨expression, hread⟩ := tree.exists_read (htokens ▸ (lexes_of_lexFrom h).isRead)
    exact ⟨expression, hread, (hiff _).2 (.inr ⟨expression, rfl, tree, htokens, hread⟩)⟩
  refine ⟨⟨?_, ?_⟩, htree, ?_⟩
  · rintro ⟨f, hparse, hne⟩
    rcases (hiff f).1 hparse with ⟨-, rfl⟩ | ⟨expression, -, tree, htokens, -⟩
    · simp [isEmpty] at hne
    · exact ⟨tree, htokens⟩
  · rintro ⟨tree, htokens⟩
    obtain ⟨expression, -, hparse⟩ := htree tree htokens
    exact ⟨_, hparse, rfl⟩
  · rw [hiff]
    simp

/-- A negated group beside a comparison with a number. -/
theorem parse_iff_tree_of_group :
    ∃ (tree : ParseTree .expression) (expression : Expression),
      tree.tokens = [.minus, .leftParen, .word "a", .or, .word "b", .rightParen, .word "c",
        .comparator .gt, .number "1.5"] ∧
      tree.read = .ok expression ∧ Filter.parse "-(a OR b) c>1.5" = .ok ⟨some expression⟩ := by
  have hlex : lex "-(a OR b) c>1.5" = .ok [⟨0, ['-'], .minus⟩, ⟨1, ['('], .leftParen⟩,
      ⟨2, ['a'], .word "a"⟩, ⟨4, ['O', 'R'], .or⟩, ⟨7, ['b'], .word "b"⟩, ⟨8, [')'], .rightParen⟩,
      ⟨10, ['c'], .word "c"⟩, ⟨11, ['>'], .comparator .gt⟩,
      ⟨12, ['1', '.', '5'], .number "1.5"⟩] := by
    with_unfolding_all rfl
  obtain ⟨expression, hread, hparse⟩ := (parse_iff_tree.1 _ _ hlex).2.1
    (.sequence (.adjacent
      (.term (.minus (.group (.sequence (.factor (.or
        (.simple (.restriction (.search (.word "a") rfl)))
        (.term (.simple (.restriction (.search (.word "b") rfl))))))))))
      (.factor (.term (.simple (.restriction
        (.test (.word "c") .gt (.number "1.5") rfl rfl))))))) rfl
  exact ⟨_, expression, rfl, hread, hparse⟩

end Acceptance

end RecordQuery.Filter

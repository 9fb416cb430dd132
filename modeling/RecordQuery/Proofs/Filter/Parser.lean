import RecordQuery.Proofs.Filter.Grammar
import RecordQuery.Proofs.Outcome

/-!
# The parser reads the grammar

The parser goes through states one token at a time. For completeness, the tokens of each rule take
it from a state that expects a term to one that holds what the rule derives. For soundness, each
state records what the tokens before it derive: the expressions of which the parentheses are open,
and in each of them the finished sequences, factors and terms.
-/

namespace RecordQuery.Filter

namespace State

def run (state : State) (ts : List Token) : Except Fault State :=
  ts.foldlM step state

theorem run_cons (state : State) (token : Token) (ts : List Token) :
    state.run (token :: ts) = (state.step token).bind fun next ↦ next.run ts :=
  rfl

theorem run_append (state : State) (ts us : List Token) :
    state.run (ts ++ us) = (state.run ts).bind fun next ↦ next.run us := by
  rw [run, List.foldlM_append]
  rfl

theorem run_append_of_ok {state next : State} {ts : List Token} (h : state.run ts = .ok next)
    (us : List Token) : state.run (ts ++ us) = next.run us := by
  rw [run_append, h]
  rfl

end State

/-- The offsets matter to faults only: a parse succeeds exactly if the states run over the tokens
and the last one is finished. -/
theorem parseFrom_eq_ok_iff {finish : Nat} {state : State} {lexemes : List Lexeme}
    {expression : Expression} :
    parseFrom finish state lexemes = .ok expression ↔
      ∃ last, state.run (lexemes.map Lexeme.token) = .ok last ∧ last.finish = .ok expression := by
  induction lexemes generalizing state with
  | nil =>
    have hrun (last : State) : state.run [] = .ok last ↔ state = last :=
      ⟨Except.ok.inj, congrArg Except.ok⟩
    simp only [parseFrom, List.map_nil, hrun, exists_eq_left']
    exact Outcome.mapError_eq_ok_iff
  | cons lexeme lexemes ih =>
    rw [parseFrom, List.map_cons, State.run_cons]
    cases hstep : state.step lexeme.token with
    | error fault => simp [Except.bind]
    | ok next => exact ih

section Completeness

/-- Whether a state holds a complete term, which makes the given level of the one that it is read in;
a comparable may still wait for a comparator. -/
inductive State.Settles : State → List (Level × Bool) → Level → Prop
  | next {outer : List (Level × Bool)} {level : Level} : Settles ⟨outer, level, .next⟩ outer level
  | search {outer : List (Level × Bool)} {level : Level} {negated : Bool} {c : Comparable} :
      Settles ⟨outer, level, .comparator negated c⟩ outer
        (level.addTerm (.restriction negated ⟨c, none⟩))

variable {ts us ns : List Token} {outer : List (Level × Bool)} {level : Level}

/-- After a complete term any token but a comparator is taken as the one that continues the level.
-/
theorem State.Settles.step {state : State} (h : state.Settles outer level) {token : Token}
    (htoken : ∀ op, token ≠ .comparator op) :
    state.step token = State.continueWith ⟨outer, level, .next⟩ token := by
  cases h with
  | next => rfl
  | search => cases token <;> first | rfl | exact absurd rfl (htoken _)

/-- At the end of the text, outside parentheses, a complete term completes the expression. -/
theorem State.Settles.finish {state : State} (h : state.Settles [] level) :
    state.finish = .ok level.toExpression := by
  cases h <;> rfl

/-- Whether a term can begin with a token. -/
def Token.begins : Token → Bool
  | not | minus | leftParen => true
  | token => token.isOperand

/-- Every term begins with a token that may begin one, which is how the parser knows that a factor
goes on. -/
theorem DerivesTerm.exists_begins {term : Term} (h : DerivesTerm ts term) :
    ∃ token rest, ts = token :: rest ∧ token.begins = true := by
  cases h with
  | restriction hns h =>
    cases hns with
    | none =>
      have hoperand {token : Token} {c : Comparable} (hc : token.comparable = .ok c) :
          token.begins = true := by
        have := Token.isOperand_of_comparable hc
        cases token <;> first | rfl | exact this
      cases h with
      | search hc => exact ⟨_, _, rfl, hoperand hc⟩
      | test hleft => exact ⟨_, _, rfl, hoperand hleft⟩
    | not => exact ⟨_, _, rfl, rfl⟩
    | minus => exact ⟨_, _, rfl, rfl⟩
  | group hns h => cases hns <;> exact ⟨_, _, rfl, rfl⟩

theorem DerivesFactor.exists_begins {terms : Factor} (h : DerivesFactor ts terms) :
    ∃ token rest, ts = token :: rest ∧ token.begins = true := by
  cases h with
  | single h => exact h.exists_begins
  | or h =>
    obtain ⟨token, rest, rfl, hbegins⟩ := h.exists_begins
    exact ⟨token, _, rfl, hbegins⟩

theorem DerivesSequence.exists_begins {factors : Sequence} (h : DerivesSequence ts factors) :
    ∃ token rest, ts = token :: rest ∧ token.begins = true := by
  cases h with
  | single h => exact h.exists_begins
  | adjacent h =>
    obtain ⟨token, rest, rfl, hbegins⟩ := h.exists_begins
    exact ⟨token, _, rfl, hbegins⟩

/-- A token with which a term begins ends the factor before it. -/
theorem State.Settles.run_of_begins {state : State} (h : state.Settles outer level)
    (hts : ∃ token rest, ts = token :: rest ∧ token.begins = true) :
    state.run ts = State.run ⟨outer, level.endFactor, .term⟩ ts := by
  obtain ⟨token, rest, rfl, hbegins⟩ := hts
  rw [run_cons, run_cons, h.step]
  · cases token <;> first | rfl | exact absurd hbegins Bool.false_ne_true
  · rintro op rfl
    exact absurd hbegins Bool.false_ne_true

/-- A comparable, negated or not, is kept until the next token shows whether a comparator follows.
-/
theorem Negates.run_operand {negated : Bool} (h : Negates ns negated) {token : Token}
    {c : Comparable} (hc : token.comparable = .ok c) :
    State.run ⟨outer, level, .term⟩ (ns ++ [token]) =
      .ok ⟨outer, level, .comparator negated c⟩ := by
  have hbegin (expecting : Expecting) (negated : Bool) :
      State.beginTerm ⟨outer, level, expecting⟩ negated token =
        .ok ⟨outer, level, .comparator negated c⟩ := by
    unfold State.beginTerm
    rw [hc]
    cases token <;> first | rfl | simp [Token.comparable] at hc
  have hoperand := Token.isOperand_of_comparable hc
  cases h with
  | none =>
    have hstep : State.step ⟨outer, level, .term⟩ token =
        State.beginTerm ⟨outer, level, .term⟩ false token := by
      cases token <;> first | rfl | exact absurd hoperand Bool.false_ne_true
    rw [List.nil_append, State.run_cons, hstep, hbegin]
    rfl
  | not | minus =>
    have hstep : State.step ⟨outer, level, .negated⟩ token =
        .ok ⟨outer, level, .comparator true c⟩ := hbegin .negated true
    change State.run ⟨outer, level, .negated⟩ [token] = _
    rw [State.run_cons, hstep]
    rfl

theorem Negates.run_leftParen {negated : Bool} (h : Negates ns negated) :
    State.run ⟨outer, level, .term⟩ (ns ++ [.leftParen]) =
      .ok ⟨(level, negated) :: outer, .empty, .term⟩ := by
  cases h <;> rfl

/-- Running over a restriction adds its term to the level. -/
theorem DerivesRestriction.run {r : Restriction} {negated : Bool} (h : DerivesRestriction ts r)
    (hns : Negates ns negated) (outer : List (Level × Bool)) (level : Level) :
    ∃ state, State.run ⟨outer, level, .term⟩ (ns ++ ts) = .ok state ∧
      state.Settles outer (level.addTerm (.restriction negated r)) := by
  cases h with
  | search hc => exact ⟨_, hns.run_operand hc, .search⟩
  | @test left right op c d hleft hright =>
    refine ⟨_, ?_, .next⟩
    rw [← List.singleton_append, ← List.append_assoc,
      State.run_append_of_ok (hns.run_operand hleft)]
    have hargument : State.step ⟨outer, level, .argument negated c op⟩ right =
        .ok ⟨outer, level.addTerm (.restriction negated ⟨c, some (op, d)⟩), .next⟩ := by
      simp only [State.step, hright]
      rfl
    change (State.step ⟨outer, level, .argument negated c op⟩ right).bind _ = _
    rw [hargument]
    rfl

theorem foldl_addTerm (terms : Factor) (level : Level) :
    terms.foldl Level.addTerm level = { level with terms := terms.reverse ++ level.terms } := by
  induction terms generalizing level with
  | nil => rfl
  | cons term terms ih => rw [List.foldl_cons, ih]; simp [Level.addTerm]

mutual

/-- Running over a term, even one in parentheses, adds it to the level and leaves the outer levels
alone. The recursion is on the derivation, together with factors, sequences and expressions. -/
theorem DerivesTerm.run {ts : List Token} {term : Term} (h : DerivesTerm ts term)
    (outer : List (Level × Bool)) (level : Level) :
    ∃ state, State.run ⟨outer, level, .term⟩ ts = .ok state ∧
      state.Settles outer (level.addTerm term) := by
  cases h with
  | restriction hns h => exact h.run hns outer level
  | @group ns ts negated body hns h =>
    obtain ⟨state, inner, hrun, hsettles, hinner⟩ := h.run ((level, negated) :: outer) []
    have hrun : State.run ⟨(level, negated) :: outer, .empty, .term⟩ ts = .ok state := hrun
    refine ⟨_, ?_, .next⟩
    rw [← List.singleton_append, ← List.append_assoc, List.append_assoc,
      State.run_append_of_ok hns.run_leftParen, State.run_append_of_ok hrun, State.run_cons,
      hsettles.step (by simp)]
    have hbody : inner.toExpression = body := by simp [Level.toExpression, hinner]
    rw [← hbody]
    rfl

theorem DerivesFactor.run {ts : List Token} {terms : Factor} (h : DerivesFactor ts terms)
    (outer : List (Level × Bool)) (level : Level) :
    ∃ state, State.run ⟨outer, level, .term⟩ ts = .ok state ∧
      state.Settles outer (terms.foldl Level.addTerm level) := by
  cases h with
  | single h => exact h.run outer level
  | or h hs =>
    obtain ⟨first, hfirst, hsettles⟩ := h.run outer level
    obtain ⟨state, hrun, hstate⟩ := hs.run outer (level.addTerm _)
    refine ⟨state, ?_, hstate⟩
    rw [State.run_append_of_ok hfirst, State.run_cons, hsettles.step (by simp)]
    exact hrun

theorem DerivesSequence.run {ts : List Token} {factors : Sequence}
    (h : DerivesSequence ts factors) (outer : List (Level × Bool)) (before : List Sequence)
    (done : List Factor) :
    ∃ state level, State.run ⟨outer, ⟨before, done, []⟩, .term⟩ ts = .ok state ∧
      state.Settles outer level ∧ level.endFactor = ⟨before, factors.reverse ++ done, []⟩ := by
  cases h with
  | single h =>
    obtain ⟨state, hrun, hsettles⟩ := h.run outer ⟨before, done, []⟩
    exact ⟨state, _, hrun, hsettles, by simp [foldl_addTerm, Level.endFactor]⟩
  | @adjacent _ _ factor factors h hs =>
    obtain ⟨first, hfirst, hsettles⟩ := h.run outer ⟨before, done, []⟩
    obtain ⟨state, level, hrun, hstate, hlevel⟩ := hs.run outer before (factor :: done)
    refine ⟨state, level, ?_, hstate, by simpa using hlevel⟩
    rw [State.run_append_of_ok hfirst, hsettles.run_of_begins hs.exists_begins, foldl_addTerm]
    simpa [Level.endFactor] using hrun

/-- Running over an expression fills the level with its sequences. -/
theorem DerivesExpression.run {ts : List Token} {sequences : Expression}
    (h : DerivesExpression ts sequences) (outer : List (Level × Bool)) (before : List Sequence) :
    ∃ state level, State.run ⟨outer, ⟨before, [], []⟩, .term⟩ ts = .ok state ∧
      state.Settles outer level ∧ level.endSequence = ⟨sequences.reverse ++ before, [], []⟩ := by
  cases h with
  | single h =>
    obtain ⟨state, level, hrun, hsettles, hlevel⟩ := h.run outer before []
    exact ⟨state, level, hrun, hsettles, by simp [Level.endSequence, hlevel]⟩
  | @and _ _ sequence sequences h hs =>
    obtain ⟨first, level, hfirst, hsettles, hlevel⟩ := h.run outer before []
    obtain ⟨state, level', hrun, hstate, hlevel'⟩ := hs.run outer (sequence :: before)
    refine ⟨state, level', ?_, hstate, by simpa using hlevel'⟩
    rw [State.run_append_of_ok hfirst, State.run_cons, hsettles.step (by simp)]
    have hand : level.endSequence = ⟨sequence :: before, [], []⟩ := by
      simp [Level.endSequence, hlevel]
    rw [← hand] at hrun
    exact hrun

end

/-- Tokens that derive an expression are read as it. -/
theorem DerivesExpression.exists_run {expression : Expression} (h : DerivesExpression ts expression) :
    ∃ last, State.initial.run ts = .ok last ∧ last.finish = .ok expression := by
  obtain ⟨state, level, hrun, hsettles, hlevel⟩ := h.run [] []
  refine ⟨state, hrun, ?_⟩
  rw [hsettles.finish, Level.toExpression, hlevel]
  simp

end Completeness

section Soundness

/-- The tokens of finished sequences, each of which is followed by `AND`. The latest comes first in
all of these lists. -/
def ReadsSequences (sequences : List Sequence) (ts : List Token) : Prop :=
  (sequences = [] ∧ ts = []) ∨ ∃ us, ts = us ++ [.and] ∧ DerivesExpression us sequences.reverse

/-- The tokens of finished factors. -/
def ReadsFactors (factors : List Factor) (ts : List Token) : Prop :=
  (factors = [] ∧ ts = []) ∨ DerivesSequence ts factors.reverse

/-- The tokens of finished terms, each of which is followed by `OR`. -/
def ReadsTerms (terms : List Term) (ts : List Token) : Prop :=
  (terms = [] ∧ ts = []) ∨ ∃ us, ts = us ++ [.or] ∧ DerivesFactor us terms.reverse

/-- The tokens before a term that would be added to a level. -/
inductive Level.Awaits : Level → List Token → Prop
  | mk {sequences : List Sequence} {factors : List Factor} {terms : List Term}
      {ts us vs : List Token} (hts : ReadsSequences sequences ts) (hus : ReadsFactors factors us)
      (hvs : ReadsTerms terms vs) : Awaits ⟨sequences, factors, terms⟩ (ts ++ us ++ vs)

/-- The tokens up to the last term of a level. -/
inductive Level.Holds : Level → List Token → Prop
  | mk {sequences : List Sequence} {factors : List Factor} {terms : List Term}
      {ts us vs : List Token} (hts : ReadsSequences sequences ts) (hus : ReadsFactors factors us)
      (hvs : DerivesFactor vs terms.reverse) : Holds ⟨sequences, factors, terms⟩ (ts ++ us ++ vs)

namespace Level

variable {level : Level} {ts us : List Token}

theorem awaits_empty : Level.empty.Awaits [] :=
  Awaits.mk (.inl ⟨rfl, rfl⟩) (.inl ⟨rfl, rfl⟩) (.inl ⟨rfl, rfl⟩ : ReadsTerms [] [])

/-- A term that is derived completes the level that waits for it. -/
theorem Awaits.addTerm {term : Term} (h : level.Awaits ts) (hterm : DerivesTerm us term) :
    (level.addTerm term).Holds (ts ++ us) := by
  obtain ⟨hts, hus, hvs⟩ := h
  rw [List.append_assoc]
  refine .mk hts hus ?_
  rw [List.reverse_cons]
  rcases hvs with ⟨rfl, rfl⟩ | ⟨vs, rfl, hvs⟩
  · exact .single hterm
  · rw [List.append_assoc]
    exact hvs.append (.single hterm)

theorem Holds.or (h : level.Holds ts) : level.Awaits (ts ++ [.or]) := by
  obtain ⟨hts, hus, hvs⟩ := h
  rw [List.append_assoc]
  exact .mk hts hus (.inr ⟨_, rfl, hvs⟩)

theorem Holds.endFactor (h : level.Holds ts) : level.endFactor.Awaits ts := by
  obtain ⟨hts, hus, hvs⟩ := h
  rw [List.append_assoc, ← List.append_nil (_ ++ _)]
  refine .mk hts (.inr ?_) (.inl ⟨rfl, rfl⟩)
  rw [List.reverse_cons]
  rcases hus with ⟨rfl, rfl⟩ | hus
  · exact .single hvs
  · exact hus.append (.single hvs)

theorem Awaits.endSequence (h : level.Awaits ts) (hterms : level.terms = [])
    (hfactors : level.factors ≠ []) :
    DerivesExpression ts (level.factors.reverse :: level.sequences).reverse := by
  obtain ⟨hts, hus, hvs⟩ := h
  obtain rfl : _ = [] := hterms
  rcases hvs with ⟨-, rfl⟩ | ⟨vs, -, hvs⟩
  · rw [List.append_nil, List.reverse_cons]
    rcases hus with ⟨rfl, -⟩ | hus
    · exact absurd rfl hfactors
    · rcases hts with ⟨rfl, rfl⟩ | ⟨ts, rfl, hts⟩
      · exact .single hus
      · rw [List.append_assoc]
        exact hts.append (.single hus)
  · cases hvs

/-- The tokens of a complete level derive the expression that it holds. -/
theorem Holds.toExpression (h : level.Holds ts) : DerivesExpression ts level.toExpression :=
  h.endFactor.endSequence rfl (List.cons_ne_nil _ _)

theorem Holds.and (h : level.Holds ts) : level.endSequence.Awaits (ts ++ [.and]) := by
  rw [← List.append_nil (_ ++ _), ← List.append_nil (_ ++ _)]
  exact .mk (.inr ⟨ts, rfl, h.toExpression⟩) (.inl ⟨rfl, rfl⟩) (.inl ⟨rfl, rfl⟩)

end Level

/-- The tokens before the parentheses that are open, and the parentheses. -/
inductive Opened : List (Level × Bool) → List Token → Prop
  | nil : Opened [] []
  | cons {outer : List (Level × Bool)} {level : Level} {negated : Bool} {ts us ns : List Token}
      (h : Opened outer ts) (hlevel : level.Awaits us) (hns : Negates ns negated) :
      Opened ((level, negated) :: outer) (ts ++ us ++ ns ++ [.leftParen])

/-- The tokens of a level together with those of the term that has been begun. -/
inductive Expecting.Reads : Expecting → Level → List Token → Prop
  | term {level : Level} {ts : List Token} (h : level.Awaits ts) : Reads .term level ts
  | negated {level : Level} {ts ns : List Token} (h : level.Awaits ts) (hns : Negates ns true) :
      Reads .negated level (ts ++ ns)
  | comparator {level : Level} {ts ns : List Token} {negated : Bool} {token : Token}
      {c : Comparable} (h : level.Awaits ts) (hns : Negates ns negated)
      (hc : token.comparable = .ok c) :
      Reads (.comparator negated c) level (ts ++ ns ++ [token])
  | argument {level : Level} {ts ns : List Token} {negated : Bool} {token : Token}
      {c : Comparable} {op : Operator} (h : level.Awaits ts) (hns : Negates ns negated)
      (hc : token.comparable = .ok c) :
      Reads (.argument negated c op) level (ts ++ ns ++ [token, .comparator op])
  | next {level : Level} {ts : List Token} (h : level.Holds ts) : Reads .next level ts

namespace State

/-- Whether the tokens before a state are what it has read. -/
inductive Reads : State → List Token → Prop
  | mk {outer : List (Level × Bool)} {level : Level} {expecting : Expecting} {ts us : List Token}
      (houter : Opened outer ts) (h : expecting.Reads level us) :
      Reads ⟨outer, level, expecting⟩ (ts ++ us)

/-- Before the first token nothing has been read. -/
theorem reads_initial : State.initial.Reads [] :=
  Reads.mk .nil (.term Level.awaits_empty)

variable {outer : List (Level × Bool)} {level : Level} {expecting : Expecting} {state : State}
  {ts us ns : List Token} {token : Token}

theorem reads_beginTerm {negated : Bool} (houter : Opened outer ts) (hlevel : level.Awaits us)
    (hns : Negates ns negated)
    (h : State.beginTerm ⟨outer, level, expecting⟩ negated token = .ok state) :
    state.Reads (ts ++ (us ++ ns ++ [token])) := by
  cases hc : token.comparable with
  | ok c =>
    have hbegin : State.beginTerm ⟨outer, level, expecting⟩ negated token =
        .ok ⟨outer, level, .comparator negated c⟩ := by
      unfold State.beginTerm
      rw [hc]
      cases token <;> first | rfl | simp [Token.comparable] at hc
    obtain rfl := Except.ok.inj (hbegin.symm.trans h)
    exact .mk houter (.comparator hlevel hns hc)
  | error fault =>
    unfold State.beginTerm at h
    rw [hc] at h
    split at h
    · obtain rfl := Except.ok.inj h
      rw [← List.append_nil (_ ++ _), ← List.append_assoc, ← List.append_assoc]
      exact .mk (houter.cons hlevel hns) (.term Level.awaits_empty)
    · simp [Except.map] at h

theorem reads_beginFactor (houter : Opened outer ts) (hlevel : level.Awaits us)
    (h : State.beginFactor ⟨outer, level, expecting⟩ token = .ok state) :
    state.Reads (ts ++ (us ++ [token])) := by
  unfold State.beginFactor at h
  split at h
  · obtain rfl := Except.ok.inj h
    exact .mk houter (.negated hlevel .not)
  · obtain rfl := Except.ok.inj h
    exact .mk houter (.negated hlevel .minus)
  · have := reads_beginTerm houter hlevel .none h
    rwa [List.append_nil] at this

/-- A token after a complete term either ends the factor or the sequence, or closes a parenthesis,
or begins a further term. -/
theorem reads_continueWith (houter : Opened outer ts) (hlevel : level.Holds us)
    (h : State.continueWith ⟨outer, level, expecting⟩ token = .ok state) :
    state.Reads (ts ++ (us ++ [token])) := by
  unfold State.continueWith at h
  split at h
  · obtain rfl := Except.ok.inj h
    exact .mk houter (.term hlevel.or)
  · obtain rfl := Except.ok.inj h
    exact .mk houter (.term hlevel.and)
  · cases houter with
    | nil => simp [State.closeGroup?] at h
    | cons houter hbefore hns =>
      obtain rfl := Except.ok.inj h
      have hterm := DerivesTerm.group hns hlevel.toExpression
      have hholds := hbefore.addTerm hterm
      simp only [List.append_assoc, List.cons_append] at hholds ⊢
      exact .mk houter (.next hholds)
  · simp at h
  · exact reads_beginFactor houter hlevel.endFactor h

/-- One step reads one token: the invariant of the parser, by cases of what it expects. -/
theorem Reads.step {next : State} (h : state.Reads ts) (hstep : state.step token = .ok next) :
    next.Reads (ts ++ [token]) := by
  obtain ⟨houter, h⟩ := h
  rw [List.append_assoc]
  cases h with
  | term h => exact reads_beginFactor houter h hstep
  | negated h hns => exact reads_beginTerm houter h hns hstep
  | next h => exact reads_continueWith houter h hstep
  | @comparator _ _ _ negated _ c h hns hc =>
    cases htoken : token with
    | comparator op =>
      rw [htoken] at hstep
      obtain rfl := Except.ok.inj hstep
      rw [List.append_assoc _ [_], List.singleton_append]
      exact .mk houter (.argument h hns hc)
    | _ =>
      -- any other token makes the comparable a search
      rw [htoken] at hstep
      have hholds := h.addTerm (.restriction hns (.search hc))
      rw [← List.append_assoc] at hholds
      exact reads_continueWith houter hholds hstep
  | @argument _ _ _ negated left c op h hns hc =>
    simp only [State.step] at hstep
    cases hd : token.comparable with
    | error fault => simp [hd, Except.map] at hstep
    | ok d =>
      rw [hd] at hstep
      obtain rfl := Except.ok.inj hstep
      have hderives : DerivesRestriction [left, .comparator op, token] ⟨c, some (op, d)⟩ := .test hc hd
      have hholds := h.addTerm (.restriction hns hderives)
      simp only [List.append_assoc, List.cons_append, List.nil_append] at hholds ⊢
      exact .mk houter (.next hholds)

/-- The invariant carries over to every run, token by token. -/
theorem Reads.run {last : State} (h : state.Reads ts) (hrun : state.run us = .ok last) :
    last.Reads (ts ++ us) := by
  induction us generalizing state ts with
  | nil =>
    obtain rfl := Except.ok.inj hrun
    rwa [List.append_nil]
  | cons token us ih =>
    rw [State.run_cons] at hrun
    cases hstep : state.step token with
    | error fault => simp [hstep, Except.bind] at hrun
    | ok next =>
      rw [hstep] at hrun
      have hlast := ih (h.step hstep) hrun
      rwa [List.append_assoc, List.singleton_append] at hlast

/-- A state that finishes has read tokens that derive its expression. -/
theorem Reads.finish {expression : Expression} (h : state.Reads ts)
    (hfinish : state.finish = .ok expression) : DerivesExpression ts expression := by
  obtain ⟨houter, h⟩ := h
  have hend {outer : List (Level × Bool)} {level : Level} {ts us : List Token}
      (houter : Opened outer ts) (hlevel : level.Holds us)
      (h : (if outer.isEmpty then .ok level.toExpression
        else .error (.openGroup none) : Except Fault Expression) = .ok expression) :
      DerivesExpression (ts ++ us) expression := by
    cases houter with
    | nil =>
      obtain rfl := Except.ok.inj h
      exact hlevel.toExpression
    | cons => simp at h
  cases h with
  | term | negated | argument => simp [State.finish, Except.bind] at hfinish
  | next h => exact hend houter h hfinish
  | comparator h hns hc =>
    have hholds := h.addTerm (.restriction hns (.search hc))
    rw [← List.append_assoc] at hholds
    exact hend houter hholds hfinish

end State

/-- The parser reads an expression from tokens exactly if they derive it. -/
theorem exists_run_iff {ts : List Token} {expression : Expression} :
    (∃ last, State.initial.run ts = .ok last ∧ last.finish = .ok expression) ↔
      DerivesExpression ts expression := by
  constructor
  · rintro ⟨last, hrun, hfinish⟩
    exact (State.reads_initial.run hrun).finish hfinish
  · exact DerivesExpression.exists_run

/-- The filter of lexemes that derive an expression. -/
theorem ofLexemes_eq_ok_iff {finish : Nat} {lexemes : List Lexeme} {f : Filter} :
    ofLexemes finish lexemes = .ok f ↔
      (lexemes = [] ∧ f = ⟨none⟩) ∨
        ∃ expression, f = ⟨some expression⟩ ∧
          DerivesExpression (lexemes.map Lexeme.token) expression := by
  cases lexemes with
  | nil =>
    have hnone (expression : Expression) : ¬ DerivesExpression [] expression := by
      intro h
      obtain ⟨last, hrun, hfinish⟩ := h.exists_run
      obtain rfl := Except.ok.inj hrun
      simp [State.initial, State.finish, Except.bind] at hfinish
    simp [ofLexemes, hnone, eq_comm]
  | cons lexeme lexemes =>
    have hparse : ofLexemes finish (lexeme :: lexemes) =
        (parseFrom finish .initial (lexeme :: lexemes)).map fun expression ↦ ⟨some expression⟩ := rfl
    rw [hparse]
    constructor
    · intro h
      obtain ⟨expression, he, rfl⟩ := Outcome.map_eq_ok_iff.1 h
      exact .inr ⟨expression, rfl, exists_run_iff.1 (parseFrom_eq_ok_iff.1 he)⟩
    · rintro (⟨hnil, -⟩ | ⟨expression, rfl, h⟩)
      · simp at hnil
      · rw [parseFrom_eq_ok_iff.2 (exists_run_iff.2 h)]
        rfl

end Soundness

end RecordQuery.Filter

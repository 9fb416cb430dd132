import RecordQuery.Proofs.Filter.Parser

/-!
# Parse trees

A parse tree shows by which rules of the grammar tokens are derived. Which tokens can be derived
depends on their classes only: any word, text or number is a comparable. The grammar is unambiguous:
a tree ends where the next token cannot go on with it, so that from its rule and the tokens ahead
nothing else can be derived. The filter of a tree is read off its leaves.
-/

namespace RecordQuery.Filter

inductive Rule where
  | expression
  | sequence
  | factor
  | term
  | simple
  | restriction

/-- The trees of each rule. An expression, a sequence and a factor are a first part alone, or a first
part and the rest. -/
inductive ParseTree : Rule → Type
  | sequence (first : ParseTree .sequence) : ParseTree .expression
  | and (first : ParseTree .sequence) (rest : ParseTree .expression) : ParseTree .expression
  | factor (first : ParseTree .factor) : ParseTree .sequence
  | adjacent (first : ParseTree .factor) (rest : ParseTree .sequence) : ParseTree .sequence
  | term (first : ParseTree .term) : ParseTree .factor
  | or (first : ParseTree .term) (rest : ParseTree .factor) : ParseTree .factor
  | simple (body : ParseTree .simple) : ParseTree .term
  | not (body : ParseTree .simple) : ParseTree .term
  | minus (body : ParseTree .simple) : ParseTree .term
  | restriction (body : ParseTree .restriction) : ParseTree .simple
  | group (body : ParseTree .expression) : ParseTree .simple
  | search (subject : Token) (hsubject : subject.isOperand = true) : ParseTree .restriction
  | test (subject : Token) (op : Operator) (argument : Token) (hsubject : subject.isOperand = true)
      (hargument : argument.isOperand = true) : ParseTree .restriction

namespace ParseTree

/-- The tokens that a tree derives. -/
def tokens {rule : Rule} : ParseTree rule → List Token
  | .sequence first => first.tokens
  | .and first rest => first.tokens ++ .and :: rest.tokens
  | .factor first => first.tokens
  | .adjacent first rest => first.tokens ++ rest.tokens
  | .term first => first.tokens
  | .or first rest => first.tokens ++ .or :: rest.tokens
  | .simple body => body.tokens
  | .not body => .not :: body.tokens
  | .minus body => .minus :: body.tokens
  | .restriction body => body.tokens
  | .group body => .leftParen :: (body.tokens ++ [.rightParen])
  | .search subject _ => [subject]
  | .test subject op argument _ _ => [subject, .comparator op, argument]

section Tokens

variable {s : ParseTree .sequence} {ss : ParseTree .expression} {f : ParseTree .factor}
  {fs : ParseTree .sequence} {t : ParseTree .term} {ts : ParseTree .factor}
  {body : ParseTree .simple}

@[simp]
theorem tokens_sequence : (sequence s).tokens = s.tokens := rfl

@[simp]
theorem tokens_and : (and s ss).tokens = s.tokens ++ .and :: ss.tokens := rfl

@[simp]
theorem tokens_factor : (factor f).tokens = f.tokens := rfl

@[simp]
theorem tokens_adjacent : (adjacent f fs).tokens = f.tokens ++ fs.tokens := rfl

@[simp]
theorem tokens_term : (term t).tokens = t.tokens := rfl

@[simp]
theorem tokens_or : (or t ts).tokens = t.tokens ++ .or :: ts.tokens := rfl

@[simp]
theorem tokens_not : (not body).tokens = .not :: body.tokens := rfl

@[simp]
theorem tokens_minus : (minus body).tokens = .minus :: body.tokens := rfl

@[simp]
theorem tokens_group : (group ss).tokens = .leftParen :: (ss.tokens ++ [.rightParen]) := rfl

@[simp]
theorem tokens_test {subject argument : Token} {op : Operator} {hsubject : subject.isOperand = true}
    {hargument : argument.isOperand = true} :
    (test subject op argument hsubject hargument).tokens = [subject, .comparator op, argument] := rfl

end Tokens

end ParseTree

section Unambiguous

/-- Whether a derivation from a rule can begin with a token. -/
def Rule.begins : Rule → Token → Bool
  | restriction, token => token.isOperand
  | simple, token => token.isOperand || token == .leftParen
  | _, token => token.begins

/-- Whether a token after a derivation from a rule can go on with it. -/
def Rule.continues : Rule → Token → Bool
  | _, .comparator _ => true
  | expression, .and => true
  | expression, .or | sequence, .or | factor, .or => true
  | expression, token | sequence, token => token.begins
  | _, _ => false

/-- Whether a derivation from a rule ends before the tokens ahead. -/
def Rule.EndsBefore (rule : Rule) (rest : List Token) : Prop :=
  ∀ token ∈ rest.head?, rule.continues token = false

theorem Rule.token_begins {rule : Rule} {token : Token} (h : rule.begins token = true) :
    token.begins = true := by
  cases rule <;> cases token <;> first | rfl | exact h

variable {rule : Rule} {token : Token} {rest rest' : List Token}

theorem Rule.endsBefore_cons : rule.EndsBefore (token :: rest) ↔ rule.continues token = false := by
  simp [EndsBefore]

/-- The rule of the parts that a derivation from a rule consists of. -/
def Rule.part : Rule → Rule
  | expression => sequence
  | sequence => factor
  | factor => term
  | term => simple
  | simple | restriction => restriction

/-- What can go on with a part can go on with the whole. -/
theorem Rule.EndsBefore.part (h : rule.EndsBefore rest) : rule.part.EndsBefore rest := by
  intro token htoken
  have hwhole := h token htoken
  cases rule <;> cases token <;> first | rfl | exact hwhole

namespace ParseTree

/-- A tree has a first token, and the rule of the tree may begin with it. -/
theorem exists_tokens_eq_cons (tree : ParseTree rule) :
    ∃ token ts, tree.tokens = token :: ts ∧ rule.begins token = true := by
  induction tree with
  | sequence first ih | factor first ih | term first ih => exact ih
  | and first rest ih | adjacent first rest ih | or first rest ih =>
    obtain ⟨token, ts, htokens, hbegins⟩ := ih
    exact ⟨token, _, congrArg (· ++ _) htokens, hbegins⟩
  | simple body ih =>
    obtain ⟨token, ts, htokens, hbegins⟩ := ih
    exact ⟨token, ts, htokens, Rule.token_begins hbegins⟩
  | not body | minus body => exact ⟨_, _, rfl, rfl⟩
  | restriction body ih =>
    obtain ⟨token, ts, htokens, hbegins⟩ := ih
    exact ⟨token, ts, htokens, Bool.or_eq_true_iff.2 (.inl hbegins)⟩
  | group body => exact ⟨_, _, rfl, rfl⟩
  | search subject hsubject => exact ⟨subject, _, rfl, hsubject⟩
  | test subject op argument hsubject => exact ⟨subject, _, rfl, hsubject⟩

/-- The token after a factor that begins another one does not go on with the first. -/
theorem endsBefore_tokens (tree : ParseTree .sequence) (rest : List Token) :
    Rule.factor.EndsBefore (tree.tokens ++ rest) := by
  obtain ⟨token, ts, htokens, hbegins⟩ := tree.exists_tokens_eq_cons
  rw [htokens, List.cons_append, Rule.endsBefore_cons]
  cases token <;> first | rfl | exact absurd hbegins Bool.false_ne_true

theorem not_endsBefore_tokens (tree : ParseTree .sequence) (rest : List Token) :
    ¬ Rule.sequence.EndsBefore (tree.tokens ++ rest) := by
  obtain ⟨token, ts, htokens, hbegins⟩ := tree.exists_tokens_eq_cons
  rw [htokens, List.cons_append, Rule.endsBefore_cons]
  cases token <;> simp_all [Rule.continues, Rule.begins]

/-- A restriction or a group does not begin with a negation. -/
theorem tokens_append_ne (tree : ParseTree .simple) (rest ts : List Token) :
    tree.tokens ++ rest ≠ .not :: ts ∧ tree.tokens ++ rest ≠ .minus :: ts := by
  obtain ⟨token, us, htokens, hbegins⟩ := tree.exists_tokens_eq_cons
  rw [htokens, List.cons_append]
  constructor <;>
  · intro h
    rw [(List.cons.inj h).1] at hbegins
    exact absurd hbegins Bool.false_ne_true

theorem restriction_tokens_append_ne (tree : ParseTree .restriction) (rest ts : List Token) :
    tree.tokens ++ rest ≠ .leftParen :: ts := by
  obtain ⟨token, us, htokens, hbegins⟩ := tree.exists_tokens_eq_cons
  rw [htokens, List.cons_append]
  intro h
  rw [(List.cons.inj h).1] at hbegins
  exact absurd hbegins Bool.false_ne_true

/-- Whether the tokens ahead that a tree begins can be read as no other tree of its rule, as long as
both end before what follows them. -/
def Determined (tree : ParseTree rule) : Prop :=
  ∀ {tree' : ParseTree rule} {rest rest' : List Token}, rule.EndsBefore rest →
    rule.EndsBefore rest' → tree.tokens ++ rest = tree'.tokens ++ rest' → tree = tree' ∧ rest = rest'

section Parts

variable {s : ParseTree .sequence} {ss : ParseTree .expression} {f : ParseTree .factor}
  {fs : ParseTree .sequence} {t : ParseTree .term} {ts : ParseTree .factor}
  {body : ParseTree .simple} {r : ParseTree .restriction}

theorem Determined.sequence (hs : s.Determined) : (ParseTree.sequence s).Determined := by
  intro tree' rest rest' hrest hrest' h
  cases tree' with
  | sequence s' =>
    obtain ⟨rfl, hrests⟩ := hs hrest.part hrest'.part h
    exact ⟨rfl, hrests⟩
  | and s' ss' =>
    rw [tokens_sequence, tokens_and, List.append_assoc] at h
    obtain ⟨-, rfl⟩ := hs hrest.part (Rule.endsBefore_cons.2 rfl) h
    simp [Rule.endsBefore_cons, Rule.continues] at hrest

/-- If the two sides of an `AND` are determined, so is the sequence, because an `AND` that follows
cannot belong to the left side. -/
theorem Determined.and (hs : s.Determined) (hss : ss.Determined) :
    (ParseTree.and s ss).Determined := by
  intro tree' rest rest' hrest hrest' h
  rw [tokens_and, List.append_assoc] at h
  cases tree' with
  | sequence s' =>
    obtain ⟨-, rfl⟩ := hs (Rule.endsBefore_cons.2 rfl) hrest'.part h
    simp [Rule.endsBefore_cons, Rule.continues] at hrest'
  | and s' ss' =>
    rw [tokens_and, List.append_assoc] at h
    obtain ⟨rfl, htokens⟩ := hs (Rule.endsBefore_cons.2 rfl) (Rule.endsBefore_cons.2 rfl) h
    obtain ⟨rfl, hrests⟩ := hss hrest hrest' (List.cons.inj htokens).2
    exact ⟨rfl, hrests⟩

theorem Determined.factor (hf : f.Determined) : (ParseTree.factor f).Determined := by
  intro tree' rest rest' hrest hrest' h
  cases tree' with
  | factor f' =>
    obtain ⟨rfl, hrests⟩ := hf hrest.part hrest'.part h
    exact ⟨rfl, hrests⟩
  | adjacent f' fs' =>
    rw [tokens_factor, tokens_adjacent, List.append_assoc] at h
    obtain ⟨-, rfl⟩ := hf hrest.part (fs'.endsBefore_tokens rest') h
    exact absurd hrest (fs'.not_endsBefore_tokens rest')

theorem Determined.adjacent (hf : f.Determined) (hfs : fs.Determined) :
    (ParseTree.adjacent f fs).Determined := by
  intro tree' rest rest' hrest hrest' h
  rw [tokens_adjacent, List.append_assoc] at h
  cases tree' with
  | factor f' =>
    obtain ⟨-, rfl⟩ := hf (fs.endsBefore_tokens rest) hrest'.part h
    exact absurd hrest' (fs.not_endsBefore_tokens rest)
  | adjacent f' fs' =>
    rw [tokens_adjacent, List.append_assoc] at h
    obtain ⟨rfl, htokens⟩ := hf (fs.endsBefore_tokens rest) (fs'.endsBefore_tokens rest') h
    obtain ⟨rfl, hrests⟩ := hfs hrest hrest' htokens
    exact ⟨rfl, hrests⟩

theorem Determined.term (ht : t.Determined) : (ParseTree.term t).Determined := by
  intro tree' rest rest' hrest hrest' h
  cases tree' with
  | term t' =>
    obtain ⟨rfl, hrests⟩ := ht hrest.part hrest'.part h
    exact ⟨rfl, hrests⟩
  | or t' ts' =>
    rw [tokens_term, tokens_or, List.append_assoc] at h
    obtain ⟨-, rfl⟩ := ht hrest.part (Rule.endsBefore_cons.2 rfl) h
    simp [Rule.endsBefore_cons, Rule.continues] at hrest

theorem Determined.or (ht : t.Determined) (hts : ts.Determined) :
    (ParseTree.or t ts).Determined := by
  intro tree' rest rest' hrest hrest' h
  rw [tokens_or, List.append_assoc] at h
  cases tree' with
  | term t' =>
    obtain ⟨-, rfl⟩ := ht (Rule.endsBefore_cons.2 rfl) hrest'.part h
    simp [Rule.endsBefore_cons, Rule.continues] at hrest'
  | or t' ts' =>
    rw [tokens_or, List.append_assoc] at h
    obtain ⟨rfl, htokens⟩ := ht (Rule.endsBefore_cons.2 rfl) (Rule.endsBefore_cons.2 rfl) h
    obtain ⟨rfl, hrests⟩ := hts hrest hrest' (List.cons.inj htokens).2
    exact ⟨rfl, hrests⟩

theorem Determined.simple (hbody : body.Determined) : (ParseTree.simple body).Determined := by
  intro tree' rest rest' hrest hrest' h
  cases tree' with
  | simple body' =>
    obtain ⟨rfl, hrests⟩ := hbody hrest.part hrest'.part h
    exact ⟨rfl, hrests⟩
  | not body' => exact absurd h (body.tokens_append_ne rest _).1
  | minus body' => exact absurd h (body.tokens_append_ne rest _).2

theorem Determined.not (hbody : body.Determined) : (ParseTree.not body).Determined := by
  intro tree' rest rest' hrest hrest' h
  cases tree' with
  | simple body' => exact absurd h.symm (body'.tokens_append_ne rest' _).1
  | not body' =>
    obtain ⟨rfl, hrests⟩ := hbody hrest.part hrest'.part (List.cons.inj h).2
    exact ⟨rfl, hrests⟩
  | minus body' => simp at h

theorem Determined.minus (hbody : body.Determined) : (ParseTree.minus body).Determined := by
  intro tree' rest rest' hrest hrest' h
  cases tree' with
  | simple body' => exact absurd h.symm (body'.tokens_append_ne rest' _).2
  | not body' => simp at h
  | minus body' =>
    obtain ⟨rfl, hrests⟩ := hbody hrest.part hrest'.part (List.cons.inj h).2
    exact ⟨rfl, hrests⟩

theorem Determined.restriction (hr : r.Determined) : (ParseTree.restriction r).Determined := by
  intro tree' rest rest' hrest hrest' h
  cases tree' with
  | restriction r' =>
    obtain ⟨rfl, hrests⟩ := hr hrest.part hrest'.part h
    exact ⟨rfl, hrests⟩
  | group ss' => exact absurd h (r.restriction_tokens_append_ne rest _)

/-- The closing parenthesis ends what stands in a group, whatever follows. -/
theorem Determined.group (hss : ss.Determined) : (ParseTree.group ss).Determined := by
  intro tree' rest rest' hrest hrest' h
  cases tree' with
  | restriction r' => exact absurd h.symm (r'.restriction_tokens_append_ne rest' _)
  | group ss' =>
    rw [tokens_group, tokens_group, List.cons_append, List.cons_append, List.append_assoc,
      List.append_assoc] at h
    obtain ⟨rfl, htokens⟩ := hss (Rule.endsBefore_cons.2 rfl) (Rule.endsBefore_cons.2 rfl)
      (List.cons.inj h).2
    exact ⟨rfl, (List.cons.inj htokens).2⟩

end Parts

theorem determined_search {subject : Token} (hsubject : subject.isOperand = true) :
    (search subject hsubject).Determined := by
  intro tree' rest rest' hrest hrest' h
  cases tree' with
  | search subject' =>
    obtain ⟨rfl, hrests⟩ := List.cons.inj h
    exact ⟨rfl, hrests⟩
  | test subject' op' argument' =>
    obtain ⟨-, rfl⟩ := List.cons.inj h
    simp [Rule.endsBefore_cons, Rule.continues] at hrest

theorem determined_test {subject argument : Token} (op : Operator)
    (hsubject : subject.isOperand = true) (hargument : argument.isOperand = true) :
    (test subject op argument hsubject hargument).Determined := by
  intro tree' rest rest' hrest hrest' h
  cases tree' with
  | search subject' =>
    obtain ⟨-, rfl⟩ := List.cons.inj h
    simp [Rule.endsBefore_cons, Rule.continues] at hrest'
  | test subject' op' argument' =>
    simp only [tokens_test, List.cons_append, List.nil_append, List.cons.injEq,
      Token.comparator.injEq] at h
    obtain ⟨rfl, rfl, rfl, hrests⟩ := h
    exact ⟨rfl, hrests⟩

/-- Every tree is determined by its tokens. The induction is on the tree, one case for each rule of
the grammar. -/
theorem determined (tree : ParseTree rule) : tree.Determined := by
  induction tree with
  | sequence first ih => exact ih.sequence
  | and first rest ih ihs => exact ih.and ihs
  | factor first ih => exact ih.factor
  | adjacent first rest ih ihs => exact ih.adjacent ihs
  | term first ih => exact ih.term
  | or first rest ih ihs => exact ih.or ihs
  | simple body ih => exact ih.simple
  | not body ih => exact ih.not
  | minus body ih => exact ih.minus
  | restriction body ih => exact ih.restriction
  | group body ih => exact ih.group
  | search subject hsubject => exact determined_search hsubject
  | test subject op argument hsubject hargument => exact determined_test op hsubject hargument

/-- The grammar is unambiguous. -/
theorem tokens_injective (rule : Rule) : Function.Injective (@tokens rule) := by
  intro tree tree' h
  have hend : rule.EndsBefore [] := by simp [Rule.EndsBefore]
  exact (tree.determined hend hend (congrArg (· ++ []) h)).1

end ParseTree

end Unambiguous

end RecordQuery.Filter

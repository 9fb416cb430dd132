import RecordQuery.Text.Split

/-!
# Joining the pieces of a text

The pieces of a text, joined by the separator, are the text again. Pieces without the separator are
determined by the text that they are joined to. A text occurs in another one if it stands there
between two others.
-/

namespace RecordQuery.Text

/-- The pieces of a text, joined by the separator, are the text. -/
theorem flatten_intersperse_pieces (separator : Char) (cs : List Char) :
    ((pieces (· == separator) cs).intersperse [separator]).flatten = cs := by
  induction cs with
  | nil => rfl
  | cons c cs ih =>
    rw [pieces]
    split
    · rename_i hc
      obtain rfl := beq_iff_eq.1 hc
      cases hpieces : pieces (· == c) cs with
      | nil => exact absurd hpieces (pieces_ne_nil _ _)
      | cons piece rest =>
        rw [hpieces] at ih
        rw [List.intersperse_cons_cons, List.flatten_cons, List.flatten_cons, ih]
        rfl
    · split
      · rename_i hpieces
        exact absurd hpieces (pieces_ne_nil _ _)
      · rename_i piece rest hpieces
        rw [hpieces] at ih
        cases rest with
        | nil =>
          rw [List.intersperse_singleton] at ih ⊢
          rw [List.flatten_singleton] at ih ⊢
          rw [ih]
        | cons next rest =>
          rw [List.intersperse_cons_cons, List.flatten_cons] at ih ⊢
          rw [← ih]
          rfl

theorem pieces_of_forall_not {p : Char → Bool} {cs : List Char} (h : ∀ c ∈ cs, p c = false) :
    pieces p cs = [cs] := by
  induction cs with
  | nil => rfl
  | cons c cs ih =>
    obtain ⟨hc, hcs⟩ := List.forall_mem_cons.1 h
    rw [pieces, hc, if_neg Bool.false_ne_true, ih hcs]

/-- A piece ends at the first character that is looked for. -/
theorem pieces_append_cons {p : Char → Bool} {piece cs : List Char} {c : Char}
    (h : ∀ d ∈ piece, p d = false) (hc : p c = true) :
    pieces p (piece ++ c :: cs) = piece :: pieces p cs := by
  induction piece with
  | nil => rw [List.nil_append, pieces, if_pos hc]
  | cons d piece ih =>
    obtain ⟨hd, hpiece⟩ := List.forall_mem_cons.1 h
    rw [List.cons_append, pieces, hd, if_neg Bool.false_ne_true, ih hpiece]

/-- A text without the separator is not cut. -/
theorem splitOn_of_not_mem {separator : Char} {s : String} (h : separator ∉ s.toList) :
    splitOn separator s = [s] := by
  have hpieces : pieces (· == separator) s.toList = [s.toList] :=
    pieces_of_forall_not fun c hc ↦ beq_false_of_ne fun heq ↦ h (heq ▸ hc)
  rw [splitOn, hpieces, List.map_singleton, String.ofList_toList]

theorem map_toList_ofList (css : List (List Char)) :
    (css.map String.ofList).map String.toList = css := by
  have hid : String.toList ∘ String.ofList = id := funext fun _ ↦ String.toList_ofList
  rw [List.map_map, hid, List.map_id]

theorem map_ofList_toList (texts : List String) :
    (texts.map String.toList).map String.ofList = texts := by
  have hid : String.ofList ∘ String.toList = id := funext fun _ ↦ String.ofList_toList
  rw [List.map_map, hid, List.map_id]

theorem intercalate_splitOn (separator : Char) (s : String) :
    (String.singleton separator).intercalate (splitOn separator s) = s := by
  rw [← String.toList_inj, String.toList_intercalate, splitOn, map_toList_ofList,
    String.toList_singleton]
  exact flatten_intersperse_pieces separator s.toList

/-- Pieces without the separator are found again in the text that joins them. -/
theorem splitOn_intercalate {separator : Char} {texts : List String}
    (h : ∀ text ∈ texts, separator ∉ text.toList) (hne : texts ≠ []) :
    splitOn separator ((String.singleton separator).intercalate texts) = texts := by
  induction texts with
  | nil => exact absurd rfl hne
  | cons text texts ih =>
    obtain ⟨htext, htexts⟩ := List.forall_mem_cons.1 h
    cases texts with
    | nil => exact splitOn_of_not_mem htext
    | cons next texts =>
      have hjoined : ((String.singleton separator).intercalate (text :: next :: texts)).toList =
          text.toList ++
            separator :: ((String.singleton separator).intercalate (next :: texts)).toList := by
        simp [String.toList_intercalate, List.intercalate]
      have hpiece : ∀ c ∈ text.toList, (c == separator) = false :=
        fun c hc ↦ beq_false_of_ne fun heq ↦ htext (heq ▸ hc)
      rw [splitOn, hjoined, pieces_append_cons hpiece (beq_self_eq_true separator), List.map_cons,
        String.ofList_toList]
      exact congrArg (text :: ·) (ih htexts (List.cons_ne_nil next texts))

/-- Pieces without the separator are determined by the text that joins them. -/
theorem intercalate_inj {separator : Char} {pieces pieces' : List String}
    (hpieces : ∀ piece ∈ pieces, separator ∉ piece.toList)
    (hpieces' : ∀ piece ∈ pieces', separator ∉ piece.toList) (hne : pieces ≠ []) (hne' : pieces' ≠ [])
    (h : (String.singleton separator).intercalate pieces =
      (String.singleton separator).intercalate pieces') : pieces = pieces' := by
  rw [← splitOn_intercalate hpieces hne, h, splitOn_intercalate hpieces' hne']

theorem mem_of_mem_intersperse {α : Type} {a separator : α} {l : List α}
    (h : a ∈ l.intersperse separator) : a = separator ∨ a ∈ l := by
  induction l with
  | nil => simp at h
  | cons b l ih =>
    cases l with
    | nil => exact .inr h
    | cons b' l =>
      rw [List.intersperse_cons_cons, List.mem_cons, List.mem_cons] at h
      rcases h with h | h | h
      · exact .inr (h ▸ List.mem_cons_self)
      · exact .inl h
      · exact (ih h).imp_right (List.mem_cons_of_mem b)

/-- The characters of joined texts are those of the texts and of what stands between them. -/
theorem mem_intercalate {separator : String} {pieces : List String} {c : Char}
    (h : c ∈ (separator.intercalate pieces).toList) :
    c ∈ separator.toList ∨ ∃ piece ∈ pieces, c ∈ piece.toList := by
  rw [String.toList_intercalate, List.intercalate, List.mem_flatten] at h
  obtain ⟨cs, hcs, hc⟩ := h
  rcases mem_of_mem_intersperse hcs with rfl | hcs
  · exact .inl hc
  · obtain ⟨piece, hpiece, rfl⟩ := List.mem_map.1 hcs
    exact .inr ⟨piece, hpiece, hc⟩

/-- A separator that neither end holds tells where two lists are cut. -/
theorem append_cons_inj {α : Type} {a : α} {front front' back back' : List α} (hback : a ∉ back)
    (hback' : a ∉ back') (h : front ++ a :: back = front' ++ a :: back') :
    front = front' ∧ back = back' := by
  have hnil {between back back' : List α} (hback : a ∉ back)
      (h : a :: back = between ++ a :: back') : between = [] ∧ back = back' := by
    cases between with
    | nil => exact ⟨rfl, (List.cons.inj h).2⟩
    | cons b between =>
      obtain ⟨rfl, rfl⟩ := List.cons.inj h
      simp at hback
  rcases List.append_eq_append_iff.1 h with ⟨between, rfl, hbetween⟩ | ⟨between, rfl, hbetween⟩
  · obtain ⟨rfl, rfl⟩ := hnil hback hbetween
    exact ⟨(List.append_nil front).symm, rfl⟩
  · obtain ⟨rfl, rfl⟩ := hnil hback' hbetween
    exact ⟨List.append_nil front', rfl⟩

theorem occursIn_iff {needle cs : List Char} : occursIn needle cs = true ↔ needle <:+: cs := by
  induction cs with
  | nil => rw [occursIn, List.isEmpty_iff, List.infix_nil]
  | cons c cs ih =>
    rw [occursIn, Bool.or_eq_true, ih, List.isPrefixOf_iff_prefix, List.infix_cons_iff]

theorem contains_iff {s part : String} : contains s part = true ↔ part.toList <:+: s.toList :=
  occursIn_iff

theorem contains_trans {s t u : String} (h : contains s t = true) (h' : contains t u = true) :
    contains s u = true :=
  contains_iff.2 ((contains_iff.1 h').trans (contains_iff.1 h))

end RecordQuery.Text

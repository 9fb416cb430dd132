import Mathlib.Data.List.Forall2
import RecordQuery.Order.Parser
import RecordQuery.Proofs.FieldPath
import RecordQuery.Proofs.Order.Merge
import RecordQuery.Proofs.Outcome
import RecordQuery.Proofs.Text.Words

/-!
# Texts of orders

A text is blank, and then it stands for the order without keys, or it consists of items with commas
between them. An item is a path and, if there is a second word, a direction in small or capital letters.
A text is parsed to the keys that its items are written for, provided that no path occurs twice, and it
is refused if there are no such keys. The text of an order consists of items that are written for its
keys, so the order is read back from it, whatever its fields are called.
-/

namespace RecordQuery

namespace Direction

variable {direction : Direction} {word : String}

/-- Whether a character is a letter, small or capital. -/
def IsCased (c letter : Char) : Prop :=
  c = letter ∨ c = letter.toUpper

/-- Whether a word spells a direction, with each of its letters small or capital. -/
def Spells (direction : Direction) (word : String) : Prop :=
  List.Forall₂ IsCased word.toList direction.text.toList

/-- Lower case moves the code point of a capital letter by 32 and leaves every other character
alone. -/
theorem toNat_toLower (c : Char) :
    c.toLower.toNat = if 65 ≤ c.toNat ∧ c.toNat ≤ 90 then c.toNat + 32 else c.toNat := by
  by_cases h : c.val ≥ 'A'.val ∧ c.val ≤ 'Z'.val
  · have hcapital : 65 ≤ c.toNat ∧ c.toNat ≤ 90 := h
    have hval : c.toLower.val = c.val + 32 := congrArg Char.val (dif_pos h)
    have hsum : c.toLower.toNat = (c.toNat + 32) % 0x100000000 := congrArg UInt32.toNat hval
    rw [if_pos hcapital, hsum]
    omega
  · have hother : ¬ (65 ≤ c.toNat ∧ c.toNat ≤ 90) := h
    have hsame : c.toLower = c := dif_neg h
    rw [if_neg hother, hsame]

theorem toNat_toUpper_of_isLower {letter : Char} (h : letter.isLower = true) :
    97 ≤ letter.toNat ∧ letter.toNat ≤ 122 ∧ letter.toUpper.toNat + 32 = letter.toNat := by
  obtain ⟨hfirst, hlast⟩ := Bool.and_eq_true_iff.1 h
  have hsmall : 'a'.val ≤ letter.val ∧ letter.val ≤ 'z'.val :=
    ⟨of_decide_eq_true hfirst, of_decide_eq_true hlast⟩
  have hbounds : 97 ≤ letter.toNat ∧ letter.toNat ≤ 122 := hsmall
  have hupper : letter.toUpper = _ := dif_pos hsmall
  -- the distance to the capital letters is negative, so it is added modulo the word size
  have hsum : letter.toUpper.toNat = (letter.toNat + 0xffffffe0) % 0x100000000 := by
    have hdistance : ('A'.val - 'a'.val).toNat = 0xffffffe0 := by decide
    rw [hupper, ← Char.toNat_val, ← Char.toNat_val, UInt32.toNat_add, hdistance]
  omega

theorem toLower_eq_iff {letter c : Char} (h : letter.isLower = true) :
    c.toLower = letter ↔ IsCased c letter := by
  have hlower := toNat_toLower c
  obtain ⟨hfirst, hlast, hupper⟩ := toNat_toUpper_of_isLower h
  rw [IsCased, ← Char.toNat_inj, ← Char.toNat_inj, ← Char.toNat_inj]
  split at hlower <;> omega

/-- A text has lower-case letters as its lower case exactly if each of its characters is that letter
in either case. -/
theorem map_toLower_eq_iff {letters cs : List Char} (h : ∀ letter ∈ letters, letter.isLower = true) :
    cs.map Char.toLower = letters ↔ List.Forall₂ IsCased cs letters := by
  induction letters generalizing cs with
  | nil => rw [List.map_eq_nil_iff, List.forall₂_nil_right_iff]
  | cons letter letters ih =>
    obtain ⟨hletter, hletters⟩ := List.forall_mem_cons.1 h
    rw [List.map_eq_cons_iff, List.forall₂_cons_right_iff]
    constructor
    · rintro ⟨c, cs, rfl, hc, hcs⟩
      exact ⟨c, cs, (toLower_eq_iff hletter).1 hc, (ih hletters).1 hcs, rfl⟩
    · rintro ⟨c, cs, hc, hcs, rfl⟩
      exact ⟨c, cs, rfl, (toLower_eq_iff hletter).2 hc, (ih hletters).2 hcs⟩

theorem isLower_of_mem_text : ∀ letter ∈ direction.text.toList, letter.isLower = true := by
  cases direction <;> simp [text]

theorem spells_iff : direction.Spells word ↔ word.toList.map Char.toLower = direction.text.toList :=
  (map_toLower_eq_iff isLower_of_mem_text).symm

/-- A direction is recognised from its word in any mixture of cases, and from nothing else. -/
theorem ofWord?_eq_some_iff : ofWord? word = some direction ↔ direction.Spells word := by
  rw [spells_iff, ofWord?]
  generalize word.toList.map Char.toLower = letters
  by_cases hasc : letters = ['a', 's', 'c']
  · subst hasc
    cases direction <;> decide
  by_cases hdesc : letters = ['d', 'e', 's', 'c']
  · subst hdesc
    cases direction <;> decide
  rw [if_neg (by simpa using hasc), if_neg (by simpa using hdesc)]
  cases direction with
  | asc => exact ⟨nofun, fun h ↦ absurd h hasc⟩
  | desc => exact ⟨nofun, fun h ↦ absurd h hdesc⟩

theorem Spells.comma_not_mem (h : direction.Spells word) : ',' ∉ word.toList := by
  intro hcomma
  have hmem := List.mem_map_of_mem (f := Char.toLower) hcomma
  rw [spells_iff.1 h] at hmem
  cases direction <;> exact absurd hmem (by decide)

theorem spells_text (direction : Direction) : direction.Spells direction.text :=
  List.forall₂_same.2 fun _ _ ↦ .inl rfl

end Direction

namespace OrderKey

variable {item : String} {direction : Direction} {key : OrderKey}

/-- Whether an item is written for a key: with the path alone for the ascending direction, or with the
path and the direction. -/
inductive IsItem (item : String) : OrderKey → Prop
  | path {path : FieldPath} (h : Text.Spaced item.toList [path.text.toList]) : IsItem item ⟨path, .asc⟩
  | directed {path : FieldPath} {direction : Direction} {word : String} (hword : direction.Spells word)
      (h : Text.Spaced item.toList [path.text.toList, word.toList]) : IsItem item ⟨path, direction⟩

theorem ofPath_eq_ok_iff {s : String} :
    ofPath s direction = .ok key ↔ ∃ path : FieldPath, s = path.text ∧ ⟨path, direction⟩ = key := by
  unfold ofPath
  constructor
  · intro h
    split at h
    next path hpath => exact ⟨path, FieldPath.parse_eq_ok_iff.1 hpath, Except.ok.inj h⟩
    next => cases h
  · rintro ⟨path, rfl, rfl⟩
    rw [FieldPath.parse_eq_ok_iff.2 rfl]

/-- An item is read as a key exactly if it is a path with an optional direction after it, blanks
aside. -/
theorem parse_eq_ok_iff : parse item = .ok key ↔ IsItem item key := by
  constructor
  · intro h
    unfold parse at h
    split at h
    next => cases h
    next s hwords =>
      obtain ⟨path, rfl, rfl⟩ := ofPath_eq_ok_iff.1 h
      exact .path (Text.words_eq_iff.1 hwords)
    next s word hwords =>
      split at h
      next direction hword =>
        obtain ⟨path, rfl, rfl⟩ := ofPath_eq_ok_iff.1 h
        exact .directed (Direction.ofWord?_eq_some_iff.1 hword) (Text.words_eq_iff.1 hwords)
      next => cases h
    next => cases h
  · intro h
    cases h with
    | @path path h =>
      have hwords : Text.words item = [path.text] := Text.words_eq_iff.2 h
      rw [parse, hwords]
      exact ofPath_eq_ok_iff.2 ⟨path, rfl, rfl⟩
    | @directed path direction word hword h =>
      have hwords : Text.words item = [path.text, word] := Text.words_eq_iff.2 h
      rw [parse, hwords]
      dsimp only
      rw [Direction.ofWord?_eq_some_iff.2 hword]
      exact ofPath_eq_ok_iff.2 ⟨path, rfl, rfl⟩

theorem IsItem.comma_not_mem (h : IsItem item key) : ',' ∉ item.toList := by
  intro hcomma
  have hpath {path : FieldPath} (h : ',' ∈ path.text.toList) : False := by
    rcases FieldPath.isSegmentChar_of_mem_text h with h | h
    · exact absurd h (by decide)
    · exact absurd h (by decide)
  cases h with
  | path h =>
    rcases h.isBlank_or_mem hcomma with hblank | ⟨word, hword, hmem⟩
    · exact absurd hblank (by decide)
    · obtain rfl := List.mem_singleton.1 hword
      exact hpath hmem
  | directed hspells h =>
    rcases h.isBlank_or_mem hcomma with hblank | ⟨word, hword, hmem⟩
    · exact absurd hblank (by decide)
    · rcases List.mem_pair.1 hword with rfl | rfl
      · exact hpath hmem
      · exact hspells.comma_not_mem hmem

theorem IsItem.not_all_isBlank (h : IsItem item key) : ¬ item.toList.all Text.isBlank = true := by
  intro hblank
  cases h with
  | path h => exact absurd (h.eq_nil_of_blank hblank) (List.cons_ne_nil _ _)
  | directed _ h => exact absurd (h.eq_nil_of_blank hblank) (List.cons_ne_nil _ _)

/-- Blanks before an item do not matter. -/
theorem IsItem.of_blank {gap : String} (hgap : gap.toList.all Text.isBlank = true)
    (h : IsItem item key) : IsItem (gap ++ item) key := by
  cases h with
  | path h => exact .path (String.toList_append ▸ h.of_blank hgap)
  | directed hword h => exact .directed hword (String.toList_append ▸ h.of_blank hgap)

/-- The text of a key is an item that is written for it. -/
theorem isItem_text (key : OrderKey) : IsItem key.text key := by
  obtain ⟨path, direction⟩ := key
  have hne : path.text.toList ≠ [] := by simpa using path.text_ne_empty
  have hblank : ∀ c ∈ path.text.toList, Text.isBlank c = false := fun _ ↦ FieldPath.isBlank_of_mem_text
  cases direction with
  | asc =>
    have h : Text.Spaced (path.text.toList ++ []) [path.text.toList] :=
      .of_word hne hblank nofun (.nil rfl)
    rw [List.append_nil] at h
    exact .path h
  | desc =>
    have hdesc : Text.Spaced " desc".toList ["desc".toList] :=
      @Text.Spaced.cons " ".toList "desc".toList [] [] rfl (by decide) (by simp [Text.isBlank]) nofun
        (.nil rfl)
    have h : Text.Spaced (path.text ++ " desc").toList [path.text.toList, "desc".toList] := by
      rw [String.toList_append]
      exact .of_word hne hblank (by simp [Text.isBlank]) hdesc
    exact .directed (Direction.spells_text .desc) h

end OrderKey

namespace Order

variable {s : String} {items : List String} {keys : List OrderKey} {order : Order}

/-- Whether a text stands for a list of keys: a blank text for no keys, and items with commas between
them for the keys that they are written for. -/
def StandsFor (s : String) (keys : List OrderKey) : Prop :=
  (s.toList.all Text.isBlank = true ∧ keys = []) ∨
    ∃ items ≠ [], s = ",".intercalate items ∧ List.Forall₂ OrderKey.IsItem items keys

theorem comma_not_mem_items (h : List.Forall₂ OrderKey.IsItem items keys) :
    ∀ item ∈ items, ',' ∉ item.toList := by
  induction h with
  | nil => exact fun _ hitem ↦ absurd hitem List.not_mem_nil
  | cons hitem _ ih => exact List.forall_mem_cons.2 ⟨hitem.comma_not_mem, ih⟩

theorem splitOn_items (h : List.Forall₂ OrderKey.IsItem items keys) (hne : items ≠ []) :
    Text.splitOn ',' (",".intercalate items) = items :=
  Text.splitOn_intercalate (comma_not_mem_items h) hne

theorem not_all_isBlank_items (h : List.Forall₂ OrderKey.IsItem items keys) (hne : items ≠ []) :
    ¬ (",".intercalate items).toList.all Text.isBlank = true := by
  intro hblank
  -- a blank text holds no comma, so it would be an item of its own
  have hcomma : ',' ∉ (",".intercalate items).toList :=
    fun hmem ↦ absurd (List.all_eq_true.1 hblank ',' hmem) (by decide)
  have hitems := (splitOn_items h hne).symm.trans (Text.splitOn_of_not_mem hcomma)
  rw [hitems, List.forall₂_cons_left_iff] at h
  obtain ⟨key, keys, hitem, -⟩ := h
  exact hitem.not_all_isBlank hblank

/-- A text that is parsed stands for the keys it is parsed as. -/
theorem standsFor_of_parse (h : parse s = .ok order) : StandsFor s order.keys := by
  unfold parse at h
  split at h
  next hblank =>
    obtain rfl := Except.ok.inj h
    exact .inl ⟨hblank, rfl⟩
  next =>
    split at h
    next keys hkeys =>
      obtain rfl := ofKeys_eq_ok_iff.1 h
      have hitems := (Outcome.mapM_eq_ok_iff.1 hkeys).imp fun _ _ ↦ OrderKey.parse_eq_ok_iff.1
      exact .inr ⟨Text.splitOn ',' s, by simp [Text.splitOn, Text.pieces_ne_nil],
        (Text.intercalate_splitOn ',' s).symm, hitems⟩
    next => cases h

/-- A text that stands for the keys of an order is parsed as that order. -/
theorem parse_of_standsFor (h : StandsFor s order.keys) : parse s = .ok order := by
  rcases h with ⟨hblank, hkeys⟩ | ⟨items, hne, rfl, hitems⟩
  · rw [parse, if_pos hblank]
    exact congrArg Except.ok (eq_of_keys_eq hkeys.symm)
  · have hkeys : items.mapM OrderKey.parse = .ok order.keys :=
      Outcome.mapM_eq_ok_iff.2 (hitems.imp fun _ _ ↦ OrderKey.parse_eq_ok_iff.2)
    rw [parse, if_neg (not_all_isBlank_items hitems hne), splitOn_items hitems hne, hkeys]
    exact ofKeys_eq_ok_iff.2 rfl

theorem eq_invalidOrderBy_of_parse {e : Error} (h : parse s = .error e) :
    ∃ fault, e = .invalidOrderBy fault := by
  unfold parse at h
  split at h
  next => cases h
  next =>
    split at h
    next keys hkeys =>
      obtain ⟨path, rfl⟩ := eq_duplicateField_of_ofKeys h
      exact ⟨_, rfl⟩
    next fault _ => exact ⟨fault, (Except.error.inj h).symm⟩

/-- A blank after each comma stands before the item that follows. -/
theorem intercalate_comma_blank (item : String) (items : List String) :
    ", ".intercalate (item :: items) = ",".intercalate (item :: items.map (" " ++ ·)) := by
  induction items generalizing item with
  | nil => rw [List.map_nil, String.intercalate_singleton, String.intercalate_singleton]
  | cons next items ih =>
    rw [List.map_cons, String.intercalate_cons_cons, String.intercalate_cons_cons,
      String.intercalate_cons_append, ih, String.append_assoc, String.append_assoc]
    rfl

/-- The text of an order stands for its keys. -/
theorem standsFor_text (order : Order) : StandsFor order.text order.keys := by
  cases hkeys : order.keys with
  | nil =>
    rw [text, hkeys]
    exact .inl ⟨rfl, rfl⟩
  | cons key keys =>
    refine .inr ⟨key.text :: (keys.map OrderKey.text).map (" " ++ ·), List.cons_ne_nil _ _, ?_, ?_⟩
    · rw [text, hkeys, List.map_cons, intercalate_comma_blank]
    · refine .cons key.isItem_text ?_
      rw [List.map_map, List.forall₂_map_left_iff, List.forall₂_same]
      intro key _
      exact key.isItem_text.of_blank rfl

/-- An order is read back from its text. -/
theorem parse_text (order : Order) : parse order.text = .ok order :=
  parse_of_standsFor order.standsFor_text

/-- A text is parsed to the keys that it stands for if no path occurs twice among them, it is refused as
an order if it stands for no such keys, and an order is read back from its text. -/
theorem parse_iff_standsFor (s : String) :
    (∀ keys, (∃ order, parse s = .ok order ∧ order.keys = keys) ↔
      StandsFor s keys ∧ (keys.map OrderKey.path).Nodup) ∧
    ((∃ fault, parse s = .error (.invalidOrderBy fault)) ↔
      ¬ ∃ keys, StandsFor s keys ∧ (keys.map OrderKey.path).Nodup) ∧
    ∀ order : Order, parse order.text = .ok order := by
  have hkeys (keys : List OrderKey) : (∃ order, parse s = .ok order ∧ order.keys = keys) ↔
      StandsFor s keys ∧ (keys.map OrderKey.path).Nodup := by
    constructor
    · rintro ⟨order, h, rfl⟩
      exact ⟨standsFor_of_parse h, order.nodup⟩
    · rintro ⟨h, hnodup⟩
      exact ⟨⟨keys, hnodup⟩, parse_of_standsFor h, rfl⟩
  refine ⟨hkeys, ?_, parse_text⟩
  constructor
  · rintro ⟨fault, h⟩ ⟨keys, hstands⟩
    obtain ⟨order, horder, -⟩ := (hkeys keys).2 hstands
    rw [h] at horder
    cases horder
  · intro h
    cases hparse : parse s with
    | error e =>
      obtain ⟨fault, rfl⟩ := eq_invalidOrderBy_of_parse hparse
      exact ⟨fault, rfl⟩
    | ok order => exact absurd ⟨order.keys, (hkeys order.keys).1 ⟨order, hparse, rfl⟩⟩ h

example : (parse "asc asc ,\tdesc dEsC").map text = .ok "asc, desc desc" := by rfl

end Order

end RecordQuery

import RecordExport.Proofs.Json.Numbers
/-!
# Reading what was written

A value is written with spaces between its parts or without. However it is spaced, the text is cut into the same
lexemes, and these spell the value's reading.

* `scanString_quoted`: a quoted string reads as the string, whatever follows its closing quote;
* `Spacing`, `written`: a value written with given spaces, of which `compact` and `indented` are two cases;
* `lexes_written`: the lexemes of a written value;
* `spell_lexemesOf`: what these lexemes spell;
* `document_written`: **a written value is the whole of a document that reads as this value**.
-/

namespace RecordExport.Json

/-! ## 1. Strings -/

/-- A hexadecimal digit as it is written has its value. -/
theorem hexValue?_hexDigit : ∀ n, n < 16 → hexValue? (hexDigit n) = some n := by decide

theorem hexQuad_control {c : Char} (h : c.toNat < 0x20) (t : Text) :
    hexQuad ('0' :: '0' :: hexDigit (c.toNat / 16) :: hexDigit (c.toNat % 16) :: t) = .ok (c.toNat, t) := by
  have hzero : hexValue? '0' = some 0 := by decide
  have hnat : ((0 * 16 + 0) * 16 + c.toNat / 16) * 16 + c.toNat % 16 = c.toNat := by omega
  simp only [hexQuad, hzero, hexValue?_hexDigit _ (show c.toNat / 16 < 16 by omega),
    hexValue?_hexDigit _ (show c.toNat % 16 < 16 by omega), hnat]

/-- However a character is written, reading takes it back. -/
theorem scanString_escapeChar (c : Char) (t : Text) : scanString (escapeChar c ++ t) = (scanString t).cons c := by
  unfold escapeChar
  split
  · subst c; simp [scanString, shortEscape?]
  split
  · subst c; simp [scanString, shortEscape?]
  split
  · subst c; simp [scanString, shortEscape?]
  split
  · subst c; simp [scanString, shortEscape?]
  split
  · subst c; simp [scanString, shortEscape?]
  split
  · subst c; simp [scanString, shortEscape?]
  split
  · subst c; simp [scanString, shortEscape?]
  split
  · rename_i h
    have hlow : isLowHalf c.toNat = false := by simp [isLowHalf]; omega
    have hhigh : isHighHalf c.toNat = false := by simp [isHighHalf]; omega
    simp only [List.cons_append, List.nil_append]
    rw [scanString]
    split <;> rename_i hquad <;> rw [hexQuad_control h] at hquad <;> cases hquad
    simp [hlow, hhigh]
  · rename_i hquote hback _ _ _ _ _ hcontrol
    rw [List.singleton_append, scanString.eq_def]
    split <;> simp_all

theorem scanString_quoted (s t : Text) : scanString (s.flatMap escapeChar ++ '"' :: t) = ⟨.ok s, .ok t⟩ := by
  induction s with
  | nil => simp [scanString]
  | cons c s ih =>
    rw [List.flatMap_cons, List.append_assoc, scanString_escapeChar, ih]
    rfl

/-! ## 2. Lexemes -/

/-- A text has these lexemes. The count of steps only has to be large enough. -/
def Lexes (t : Text) (ls : List Lexeme) : Prop := ∀ n, t.length ≤ n → lexemesUpTo n t = ls

variable {t : Text} {ls : List Lexeme}

theorem lexes_nil : Lexes [] [] := fun n _ => by cases n <;> rfl

theorem Lexes.lexemes_eq (h : Lexes t ls) : lexemes t = ls := h _ le_rfl

/-- A lexeme that leaves a text behind it, in front of that text's lexemes. -/
theorem Lexes.of_lexeme {c : Char} {u : Text} {l : Lexeme} (h : Lexes t ls) (hc : isSpace c = false)
    (hl : lexeme c u = (l, some t)) (hlength : t.length ≤ u.length) : Lexes (c :: u) (l :: ls) := by
  intro n hn
  rw [List.length_cons] at hn
  obtain ⟨n, rfl⟩ : ∃ m, n = m + 1 := ⟨n - 1, by omega⟩
  simp only [lexemesUpTo, hc, hl, Bool.false_eq_true, if_false]
  rw [h n (by omega)]

/-- Spaces between lexemes leave no trace. -/
theorem Lexes.spaces {s : Text} (h : Lexes t ls) (hs : ∀ c ∈ s, isSpace c = true) : Lexes (s ++ t) ls := by
  induction s with
  | nil => exact h
  | cons c s ih =>
    intro n hn
    rw [List.cons_append, List.length_cons] at hn
    obtain ⟨n, rfl⟩ : ∃ m, n = m + 1 := ⟨n - 1, by omega⟩
    simp only [List.cons_append, lexemesUpTo, hs c (by simp), if_true]
    exact ih (fun c hc => hs c (by simp [hc])) n (by omega)

theorem Lexes.quoted (h : Lexes t ls) (s : String) : Lexes (quoted s ++ t) (.word (.ok s) :: ls) := by
  have hlex : lexeme '"' ((s.toList.flatMap escapeChar ++ ['"']) ++ t) = (.word (.ok s), some t) := by
    show lexString _ = _
    simp [lexString, scanString_quoted]
  exact h.of_lexeme rfl hlex (by simp; omega)

/-- A digit begins a number. -/
theorem lexeme_of_isDigit {c : Char} (h : c.isDigit = true) (u : Text) :
    isSpace c = false ∧ lexeme c u = lexNumber false (c :: u) := by
  have hne : ∀ d : Char, d.isDigit = false → c ≠ d := by
    rintro d hd rfl
    rw [h] at hd
    cases hd
  refine ⟨by simp [isSpace, hne], ?_⟩
  unfold lexeme
  split <;> first | exact absurd h (by decide) | simp [h]

theorem Lexes.decimal {n : Nat} (h : Lexes t ls) (hn : n < 2 ^ 64) (ht : EndsNumber t) :
    Lexes (decimal n ++ t) (.scalar (.num (.ok ⟨false, n, 0, true⟩)) :: ls) := by
  have hlex : lexNumber false (Json.decimal n ++ t) = (.scalar (.num (.ok ⟨false, n, 0, true⟩)), some t) := by
    simp [lexNumber, cutNumber_decimal n ht, isFinite_of_lt hn]
  cases hds : Json.decimal n with
  | nil => exact absurd hds Nat.toDigits_ne_nil
  | cons c ds =>
    have hc : c.isDigit = true :=
      Nat.isDigit_of_mem_toDigits (by omega) (by omega) (show c ∈ Json.decimal n by simp [hds])
    obtain ⟨hspace, hl⟩ := lexeme_of_isDigit hc (ds ++ t)
    rw [hds, List.cons_append] at hlex
    exact h.of_lexeme hspace (hl.trans hlex) (by simp)

/-! ## 3. Values -/

/-- How the parts of a value are set apart: in front of an item, a member or the end of a container at a nesting
    depth, and behind a colon. -/
structure Spacing where
  gap : (depth : Nat) → Text
  afterColon : Text

/-- There are only insignificant characters in between. -/
structure Spacing.Insignificant (S : Spacing) : Prop where
  gap : ∀ depth, ∀ c ∈ S.gap depth, isSpace c = true
  afterColon : ∀ c ∈ S.afterColon, isSpace c = true

mutual

/-- A value written with given spaces, its nesting depth given. -/
def written (S : Spacing) (depth : Nat) : Json → Text
  | .null => "null".toList
  | .bool true => "true".toList
  | .bool false => "false".toList
  | .nat n => decimal n
  | .str s => quoted s
  | .arr [] => "[]".toList
  | .arr (v :: vs) => '[' :: (S.gap (depth + 1) ++ (written S (depth + 1) v ++ writtenItems S depth vs))
  | .obj [] => ['\x7b', '\x7d']
  | .obj ((k, v) :: ms) =>
    '\x7b' :: (S.gap (depth + 1) ++ (quoted k ++ ':' :: (S.afterColon ++
      (written S (depth + 1) v ++ writtenMembers S depth ms))))

/-- The items after the first, and the closing bracket. -/
def writtenItems (S : Spacing) (depth : Nat) : List Json → Text
  | [] => S.gap depth ++ [']']
  | v :: vs => ',' :: (S.gap (depth + 1) ++ (written S (depth + 1) v ++ writtenItems S depth vs))

/-- The members after the first, and the closing brace. -/
def writtenMembers (S : Spacing) (depth : Nat) : List (String × Json) → Text
  | [] => S.gap depth ++ ['\x7d']
  | (k, v) :: ms =>
    ',' :: (S.gap (depth + 1) ++ (quoted k ++ ':' :: (S.afterColon ++
      (written S (depth + 1) v ++ writtenMembers S depth ms))))

end

/-- No spaces at all. -/
def Spacing.none : Spacing := ⟨fun _ => [], []⟩

/-- A line for every item and member. -/
def Spacing.lines : Spacing := ⟨newLine, [' ']⟩

theorem Spacing.insignificant_none : Spacing.none.Insignificant := ⟨by simp [none], by simp [none]⟩

theorem Spacing.insignificant_lines : Spacing.lines.Insignificant where
  gap depth c hc := by
    rcases List.mem_cons.1 hc with rfl | hc
    · rfl
    · rw [(List.mem_replicate.1 hc).2]
      rfl
  afterColon c hc := by
    rw [List.mem_singleton.1 hc]
    rfl

mutual

theorem compact_eq (depth : Nat) : ∀ v : Json, compact v = written .none depth v
  | .null | .bool true | .bool false | .nat _ | .str _ | .arr [] | .obj [] => by simp [compact, written]
  | .arr (v :: vs) => by
    simp [compact, written, Spacing.none, compact_eq (depth + 1) v, compactItems_eq depth vs]
  | .obj ((k, v) :: ms) => by
    simp [compact, written, Spacing.none, compact_eq (depth + 1) v, compactMembers_eq depth ms]

theorem compactItems_eq (depth : Nat) : ∀ vs : List Json, compactItems vs = writtenItems .none depth vs
  | [] => by simp [compactItems, writtenItems, Spacing.none]
  | v :: vs => by
    simp [compactItems, writtenItems, Spacing.none, compact_eq (depth + 1) v, compactItems_eq depth vs]

theorem compactMembers_eq (depth : Nat) :
    ∀ ms : List (String × Json), compactMembers ms = writtenMembers .none depth ms
  | [] => by simp [compactMembers, writtenMembers, Spacing.none]
  | (k, v) :: ms => by
    simp [compactMembers, writtenMembers, Spacing.none, compact_eq (depth + 1) v, compactMembers_eq depth ms]

end

mutual

theorem indented_eq (depth : Nat) : ∀ v : Json, indented depth v = written .lines depth v
  | .null | .bool true | .bool false | .nat _ | .str _ | .arr [] | .obj [] => by simp [indented, written]
  | .arr (v :: vs) => by
    simp [indented, written, Spacing.lines, indented_eq (depth + 1) v, indentedItems_eq depth vs]
  | .obj ((k, v) :: ms) => by
    simp [indented, written, Spacing.lines, indented_eq (depth + 1) v, indentedMembers_eq depth ms]

theorem indentedItems_eq (depth : Nat) : ∀ vs : List Json, indentedItems depth vs = writtenItems .lines depth vs
  | [] => by simp [indentedItems, writtenItems, Spacing.lines]
  | v :: vs => by
    simp [indentedItems, writtenItems, Spacing.lines, indented_eq (depth + 1) v, indentedItems_eq depth vs]

theorem indentedMembers_eq (depth : Nat) :
    ∀ ms : List (String × Json), indentedMembers depth ms = writtenMembers .lines depth ms
  | [] => by simp [indentedMembers, writtenMembers, Spacing.lines]
  | (k, v) :: ms => by
    simp [indentedMembers, writtenMembers, Spacing.lines, indented_eq (depth + 1) v, indentedMembers_eq depth ms]

end

mutual

/-- The lexemes of a value. -/
def lexemesOf : Json → List Lexeme
  | .null => [.scalar .null]
  | .bool b => [.scalar (.bool b)]
  | .nat n => [.scalar (.num (.ok ⟨false, n, 0, true⟩))]
  | .str s => [.word (.ok s)]
  | .arr [] => [.openArray, .closeArray]
  | .arr (v :: vs) => .openArray :: (lexemesOf v ++ itemLexemes vs)
  | .obj [] => [.openObject, .closeObject]
  | .obj ((k, v) :: ms) => .openObject :: .word (.ok k) :: .colon :: (lexemesOf v ++ memberLexemes ms)

/-- Those of the items after the first, and the closing bracket. -/
def itemLexemes : List Json → List Lexeme
  | [] => [.closeArray]
  | v :: vs => .comma :: (lexemesOf v ++ itemLexemes vs)

/-- Those of the members after the first, and the closing brace. -/
def memberLexemes : List (String × Json) → List Lexeme
  | [] => [.closeObject]
  | (k, v) :: ms => .comma :: .word (.ok k) :: .colon :: (lexemesOf v ++ memberLexemes ms)

end

mutual

/-- Every number in the value has at most 64 bits. -/
def FitsWord : Json → Prop
  | .nat n => n < 2 ^ 64
  | .arr vs => ItemsFit vs
  | .obj ms => MembersFit ms
  | _ => True

/-- So has every number in the items. -/
def ItemsFit : List Json → Prop
  | [] => True
  | v :: vs => FitsWord v ∧ ItemsFit vs

/-- So has every number in the members. -/
def MembersFit : List (String × Json) → Prop
  | [] => True
  | (_, v) :: ms => FitsWord v ∧ MembersFit ms

end

theorem itemsFit_map {α : Type} (f : α → Json) {as : List α} (h : ∀ a ∈ as, FitsWord (f a)) :
    ItemsFit (as.map f) := by
  induction as with
  | nil => trivial
  | cons a as ih => exact ⟨h a (by simp), ih fun a ha => h a (by simp [ha])⟩

section Written

variable {S : Spacing}

theorem endsNumber_cons {c : Char} (t : Text)
    (h : (c.isDigit || c == '.' || c == 'e' || c == 'E') = false) : EndsNumber (c :: t) := by
  rintro _ _ ⟨rfl, rfl⟩
  simpa [and_assoc] using h

/-- A space, a comma or an end keeps a number from going on. -/
theorem endsNumber_gap (hS : S.Insignificant) (depth : Nat) {c : Char} (t : Text)
    (h : (c.isDigit || c == '.' || c == 'e' || c == 'E') = false) : EndsNumber (S.gap depth ++ c :: t) := by
  cases hgap : S.gap depth with
  | nil => exact endsNumber_cons t h
  | cons d s =>
    have hd : isSpace d = true := hS.gap depth d (by simp [hgap])
    simp only [isSpace, Bool.or_eq_true, decide_eq_true_eq] at hd
    rw [List.cons_append]
    refine endsNumber_cons _ ?_
    rcases hd with ((rfl | rfl) | rfl) | rfl <;> rfl

theorem endsNumber_items (hS : S.Insignificant) (depth : Nat) (vs : List Json) (t : Text) :
    EndsNumber (writtenItems S depth vs ++ t) := by
  cases vs with
  | nil =>
    rw [writtenItems, List.append_assoc]
    exact endsNumber_gap hS depth _ (by decide)
  | cons v vs =>
    rw [writtenItems]
    exact endsNumber_cons _ (by decide)

theorem endsNumber_members (hS : S.Insignificant) (depth : Nat) (ms : List (String × Json)) (t : Text) :
    EndsNumber (writtenMembers S depth ms ++ t) := by
  cases ms with
  | nil =>
    rw [writtenMembers, List.append_assoc]
    exact endsNumber_gap hS depth _ (by decide)
  | cons m ms =>
    rw [writtenMembers]
    exact endsNumber_cons _ (by decide)

mutual

/-- **The lexemes of a written value** stand in front of those of what follows. -/
theorem lexes_written (hS : S.Insignificant) (depth : Nat) :
    ∀ (v : Json) {t : Text} {ls : List Lexeme}, FitsWord v → Lexes t ls → EndsNumber t →
      Lexes (written S depth v ++ t) (lexemesOf v ++ ls)
  | .null, t, ls, _, h, _ => by
    rw [written, lexemesOf]
    exact h.of_lexeme (u := 'u' :: 'l' :: 'l' :: t) rfl rfl (by simp; omega)
  | .bool true, t, ls, _, h, _ => by
    rw [written, lexemesOf]
    exact h.of_lexeme (u := 'r' :: 'u' :: 'e' :: t) rfl rfl (by simp; omega)
  | .bool false, t, ls, _, h, _ => by
    rw [written, lexemesOf]
    exact h.of_lexeme (u := 'a' :: 'l' :: 's' :: 'e' :: t) rfl rfl (by simp; omega)
  | .nat n, t, ls, hn, h, ht => by
    rw [written, lexemesOf]
    rw [FitsWord] at hn
    exact h.decimal hn ht
  | .str s, t, ls, _, h, _ => by
    rw [written, lexemesOf]
    exact h.quoted s
  | .arr [], t, ls, _, h, _ => by
    rw [written, lexemesOf]
    exact (h.of_lexeme (c := ']') rfl rfl le_rfl).of_lexeme (c := '[') rfl rfl le_rfl
  | .arr (v :: vs), t, ls, hfit, h, _ => by
    rw [FitsWord, ItemsFit] at hfit
    rw [written, lexemesOf]
    simp only [List.cons_append, List.append_assoc]
    have hrest := lexes_writtenItems hS depth vs hfit.2 h
    have hv := lexes_written hS (depth + 1) v hfit.1 hrest (endsNumber_items hS depth vs t)
    exact (hv.spaces (hS.gap _)).of_lexeme rfl rfl le_rfl
  | .obj [], t, ls, _, h, _ => by
    rw [written, lexemesOf]
    exact (h.of_lexeme (c := '\x7d') rfl rfl le_rfl).of_lexeme (c := '\x7b') rfl rfl le_rfl
  | .obj ((k, v) :: ms), t, ls, hfit, h, _ => by
    rw [FitsWord, MembersFit] at hfit
    rw [written, lexemesOf]
    simp only [List.cons_append, List.append_assoc]
    have hrest := lexes_writtenMembers hS depth ms hfit.2 h
    have hv := lexes_written hS (depth + 1) v hfit.1 hrest (endsNumber_members hS depth ms t)
    have hcolon := (hv.spaces hS.afterColon).of_lexeme (c := ':') rfl rfl le_rfl
    exact ((hcolon.quoted k).spaces (hS.gap _)).of_lexeme rfl rfl le_rfl

theorem lexes_writtenItems (hS : S.Insignificant) (depth : Nat) :
    ∀ (vs : List Json) {t : Text} {ls : List Lexeme}, ItemsFit vs → Lexes t ls →
      Lexes (writtenItems S depth vs ++ t) (itemLexemes vs ++ ls)
  | [], t, ls, _, h => by
    rw [writtenItems, itemLexemes, List.append_assoc]
    exact (h.of_lexeme (c := ']') rfl rfl le_rfl).spaces (hS.gap depth)
  | v :: vs, t, ls, hfit, h => by
    rw [ItemsFit] at hfit
    rw [writtenItems, itemLexemes]
    simp only [List.cons_append, List.append_assoc]
    have hrest := lexes_writtenItems hS depth vs hfit.2 h
    have hv := lexes_written hS (depth + 1) v hfit.1 hrest (endsNumber_items hS depth vs t)
    exact (hv.spaces (hS.gap _)).of_lexeme rfl rfl le_rfl

theorem lexes_writtenMembers (hS : S.Insignificant) (depth : Nat) :
    ∀ (ms : List (String × Json)) {t : Text} {ls : List Lexeme}, MembersFit ms → Lexes t ls →
      Lexes (writtenMembers S depth ms ++ t) (memberLexemes ms ++ ls)
  | [], t, ls, _, h => by
    rw [writtenMembers, memberLexemes, List.append_assoc]
    exact (h.of_lexeme (c := '\x7d') rfl rfl le_rfl).spaces (hS.gap depth)
  | (k, v) :: ms, t, ls, hfit, h => by
    rw [MembersFit] at hfit
    rw [writtenMembers, memberLexemes]
    simp only [List.cons_append, List.append_assoc]
    have hrest := lexes_writtenMembers hS depth ms hfit.2 h
    have hv := lexes_written hS (depth + 1) v hfit.1 hrest (endsNumber_members hS depth ms t)
    have hcolon := (hv.spaces hS.afterColon).of_lexeme (c := ':') rfl rfl le_rfl
    exact ((hcolon.quoted k).spaces (hS.gap _)).of_lexeme rfl rfl le_rfl

end

end Written

/-! ## 4. Documents -/

mutual

/-- **The lexemes of a value spell its reading**, wherever a value may stand. -/
theorem spell_lexemesOf : ∀ (v : Json) (ls : List Lexeme) (frames : List Frame) (closes : Bool),
    spell (lexemesOf v ++ ls) frames (.value closes) = spell ls frames (.next (toReading v))
  | .null, _, _, _ | .bool _, _, _, _ | .nat _, _, _, _ | .str _, _, _, _ => by
    simp [lexemesOf, spell, toReading]
  | .arr [], _, _, _ | .obj [], _, _, _ => by
    simp [lexemesOf, spell, toReading, toReadings, toMembers]
  | .arr (v :: vs), ls, frames, _ => by
    simp only [lexemesOf, List.cons_append, List.append_assoc, spell]
    rw [spell_lexemesOf v, spell_itemLexemes vs]
    simp [toReading, toReadings]
  | .obj ((k, v) :: ms), ls, frames, _ => by
    simp only [lexemesOf, List.cons_append, List.append_assoc, spell]
    rw [spell_lexemesOf v, spell_memberLexemes ms]
    simp [toReading, toMembers]

theorem spell_itemLexemes : ∀ (vs : List Json) (ls : List Lexeme) (frames : List Frame) (items : List Reading)
    (r : Reading), spell (itemLexemes vs ++ ls) (.array items :: frames) (.next r) =
      spell ls frames (.next (.array (items.reverse ++ r :: toReadings vs) none))
  | [], _, _, _, _ => by simp [itemLexemes, spell, toReadings]
  | v :: vs, ls, frames, items, r => by
    simp only [itemLexemes, List.cons_append, List.append_assoc, spell]
    rw [spell_lexemesOf v, spell_itemLexemes vs]
    simp [toReadings]

theorem spell_memberLexemes : ∀ (ms : List (String × Json)) (ls : List Lexeme) (frames : List Frame)
    (members : List (Except Trouble String × Reading)) (key : Except Trouble String) (r : Reading),
    spell (memberLexemes ms ++ ls) (.object members key :: frames) (.next r) =
      spell ls frames (.next (.object (members.reverse ++ (key, r) :: toMembers ms) none))
  | [], _, _, _, _, _ => by simp [memberLexemes, spell, toMembers]
  | (k, v) :: ms, ls, frames, members, key, r => by
    simp only [memberLexemes, List.cons_append, List.append_assoc, spell]
    rw [spell_lexemesOf v, spell_memberLexemes ms]
    simp [toMembers]

end

/-- **A written value is the whole of a document that reads as this value.** -/
theorem document_written {S : Spacing} (hS : S.Insignificant) (depth : Nat) {v : Json} (hv : FitsWord v) :
    document (written S depth v) = ⟨toReading v, none⟩ := by
  have hlexes := lexes_written hS depth v hv lexes_nil (fun _ _ h => by cases h)
  rw [List.append_nil] at hlexes
  rw [document, hlexes.lexemes_eq, spell_lexemesOf]
  simp [spell]

end RecordExport.Json

import RecordExport.Proofs.Template.Blocks
import RecordExport.Proofs.Template.Lexing
/-!
# Texts cut at bytes

A place in a text may be told by the number of bytes before it. Not every number is a place: it may lie inside
a character, or behind the end. What reads or changes a text at such a number FAILS, and so does what is asked
for a range that ends before it starts.

* `cut?`: a text cut at a byte, which can be done exactly between characters (`isBoundary_iff_cut?`);
* `slice?`, `replaceRange?`: a range of a text, read or replaced;
* `lineStart?`, `lineEnd?`, `leadingIndent?`, `markerExtent?`: the line around a place, looked for by bytes.

Between the parts of a text none of them fails, and each finds what the cut of the text says in characters
(`slice?_append`, `replaceRange?_append`, `leadingIndent?_append`, `markerExtent?_append`).
-/

namespace RecordExport

open Text

/-! ## 1. Cuts -/

/-- A text cut at a byte: what is before it and what is behind. It fails inside a character and behind the end. -/
def cut? : Text → Nat → Option (Text × Text)
  | t, 0 => some ([], t)
  | [], _ + 1 => none
  | c :: t, n + 1 =>
    if c.utf8Size ≤ n + 1 then (cut? t (n + 1 - c.utf8Size)).map fun p => (c :: p.1, p.2) else none

theorem cut?_append (a b : Text) : cut? (a ++ b) (byteSize a) = some (a, b) := by
  induction a with
  | nil => cases b <;> rfl
  | cons c a ih =>
    have hpos := c.utf8Size_pos
    obtain ⟨n, hn⟩ : ∃ n, byteSize (c :: a) = n + 1 := ⟨byteSize (c :: a) - 1, by rw [byteSize_cons]; omega⟩
    have hrest : n + 1 - c.utf8Size = byteSize a := by rw [← hn, byteSize_cons, Nat.add_sub_cancel_left]
    have hfits : c.utf8Size ≤ n + 1 := by rw [← hn, byteSize_cons]; exact Nat.le_add_right _ _
    rw [hn, List.cons_append, cut?, if_pos hfits, hrest, ih]
    rfl

theorem eq_of_cut? {t : Text} {n : Nat} {p : Text × Text} (h : cut? t n = some p) :
    t = p.1 ++ p.2 ∧ byteSize p.1 = n := by
  fun_induction cut? t n generalizing p with
  | case1 t =>
    obtain rfl := Option.some.inj h
    exact ⟨rfl, rfl⟩
  | case2 => cases h
  | case3 n c t hfits ih =>
    obtain ⟨q, hcut, rfl⟩ := Option.map_eq_some_iff.1 h
    obtain ⟨rfl, hsize⟩ := ih hcut
    refine ⟨rfl, ?_⟩
    rw [byteSize_cons, hsize]
    omega
  | case4 => cases h

theorem utf8ByteSize_ofList (t : Text) : (String.ofList t).utf8ByteSize = byteSize t := by
  induction t with
  | nil => rfl
  | cons c t ih =>
    rw [String.ofList_cons, String.utf8ByteSize_append, ih, String.utf8ByteSize_singleton, byteSize_cons]

/-- The byte is a place between two characters of the text, or one of its ends. -/
def IsBoundary (t : Text) (n : Nat) : Prop := String.Pos.Raw.IsValid (String.ofList t) ⟨n⟩

theorem isBoundary_iff {t : Text} {n : Nat} : IsBoundary t n ↔ ∃ a b, t = a ++ b ∧ byteSize a = n := by
  unfold IsBoundary
  rw [String.Pos.Raw.isValid_ofList]
  constructor
  · rintro ⟨i, hi⟩
    exact ⟨t.take i, t.drop i, (List.take_append_drop i t).symm, by rw [← utf8ByteSize_ofList, ← hi]⟩
  · rintro ⟨a, b, rfl, rfl⟩
    exact ⟨a.length, by rw [List.take_left, utf8ByteSize_ofList]⟩

/-- **A text can be cut exactly between its characters.** -/
theorem isBoundary_iff_cut? {t : Text} {n : Nat} : IsBoundary t n ↔ (cut? t n).isSome := by
  rw [isBoundary_iff]
  constructor
  · rintro ⟨a, b, rfl, rfl⟩
    rw [cut?_append]
    rfl
  · intro h
    obtain ⟨p, hp⟩ := Option.isSome_iff_exists.1 h
    exact ⟨p.1, p.2, eq_of_cut? hp⟩

example : cut? ['ä', 'b'] 1 = none ∧ cut? ['ä', 'b'] 2 = some (['ä'], ['b']) := by decide

theorem isBoundary_append (a b : Text) : IsBoundary (a ++ b) (byteSize a) := isBoundary_iff.2 ⟨a, b, rfl, rfl⟩

/-! ## 2. Ranges -/

/-- A range of a text. -/
def slice? (t : Text) (s : Span) : Option Text := do
  let upTo ← cut? t s.stop
  let part ← cut? upTo.1 s.start
  return part.2

/-- The text with another in the place of a range. -/
def replaceRange? (t : Text) (s : Span) (new : Text) : Option Text := do
  let upTo ← cut? t s.stop
  let part ← cut? upTo.1 s.start
  return part.1 ++ new ++ upTo.2

/-- The range of a part that stands behind another. -/
def spanBehind (a b : Text) : Span := ⟨byteSize a, byteSize a + byteSize b⟩

theorem slice?_append (a b c : Text) : slice? (a ++ b ++ c) (spanBehind a b) = some b := by
  unfold slice? spanBehind
  rw [← byteSize_append, cut?_append]
  show (cut? (a ++ b) (byteSize a) >>= fun part => pure part.2) = some b
  rw [cut?_append]
  rfl

theorem replaceRange?_append (a b c new : Text) :
    replaceRange? (a ++ b ++ c) (spanBehind a b) new = some (a ++ new ++ c) := by
  unfold replaceRange? spanBehind
  rw [← byteSize_append, cut?_append]
  show (cut? (a ++ b) (byteSize a) >>= fun part => pure (part.1 ++ new ++ c)) = some (a ++ new ++ c)
  rw [cut?_append]
  rfl

/-! ## 3. Lines -/

/-- The byte the first character of a kind stands at. -/
def findByte? (p : Char → Bool) : Text → Option Nat
  | [] => none
  | c :: t => if p c then some 0 else (findByte? p t).map (c.utf8Size + ·)

/-- The byte the last character of a kind stands at. -/
def findLastByte? (p : Char → Bool) : Text → Option Nat
  | [] => none
  | c :: t =>
    match findLastByte? p t with
    | some n => some (c.utf8Size + n)
    | none => if p c then some 0 else none

/-- The character is a line feed. -/
def isFeed (c : Char) : Bool := c = '\n'

/-- Where the line of a place begins. -/
def lineStart? (t : Text) (n : Nat) : Option Nat :=
  (cut? t n).map fun p => ((findLastByte? isFeed p.1).map (· + 1)).getD 0

/-- Where the line of a place ends, the line feed being a part of it. -/
def lineEnd? (t : Text) (n : Nat) : Option Nat :=
  (cut? t n).map fun p => ((findByte? isFeed p.2).map (n + · + 1)).getD t.byteSize

/-- The spaces and tabs the line of a place begins with. -/
def leadingIndent? (t : Text) (n : Nat) : Option Text := do
  let start ← lineStart? t n
  let line ← slice? t ⟨start, n⟩
  slice? line ⟨0, (findByte? (fun c => !(c = ' ' || c = '\t')) line).getD line.byteSize⟩

/-- The text without the line feeds at its end. -/
def trimFeeds (t : Text) : Text := (t.reverse.dropWhile isFeed).reverse

/-- The range that goes together with that of a marker: its whole line when it stands alone. -/
def markerExtent? (t : Text) (s : Span) : Option Span := do
  let start ← lineStart? t s.start
  let stop ← lineEnd? t s.stop
  let ahead ← slice? t ⟨start, s.start⟩
  let behind ← slice? t ⟨s.stop, stop⟩
  return if ahead.all isPadding && (trimFeeds behind).all isPadding then ⟨start, stop⟩ else s

theorem findByte?_of_all {p : Char → Bool} {t : Text} (h : ∀ c ∈ t, p c = false) : findByte? p t = none := by
  induction t with
  | nil => rfl
  | cons c t ih =>
    rw [findByte?, if_neg (Bool.eq_false_iff.1 (h c List.mem_cons_self)),
      ih fun d hd => h d (List.mem_cons_of_mem _ hd)]
    rfl

theorem findByte?_append {p : Char → Bool} {l : Text} {c : Char} (h : ∀ d ∈ l, p d = false) (hc : p c = true)
    (r : Text) : findByte? p (l ++ c :: r) = some (byteSize l) := by
  induction l with
  | nil => exact if_pos hc
  | cons d l ih =>
    rw [List.cons_append, findByte?, if_neg (Bool.eq_false_iff.1 (h d List.mem_cons_self)),
      ih fun e he => h e (List.mem_cons_of_mem _ he)]
    rfl

theorem findLastByte?_of_all {p : Char → Bool} {t : Text} (h : ∀ c ∈ t, p c = false) :
    findLastByte? p t = none := by
  induction t with
  | nil => rfl
  | cons c t ih =>
    rw [findLastByte?, ih fun d hd => h d (List.mem_cons_of_mem _ hd)]
    exact if_neg (Bool.eq_false_iff.1 (h c List.mem_cons_self))

theorem findLastByte?_append {p : Char → Bool} {r : Text} {c : Char} (h : ∀ d ∈ r, p d = false)
    (hc : p c = true) (l : Text) : findLastByte? p (l ++ c :: r) = some (byteSize l) := by
  induction l with
  | nil =>
    rw [List.nil_append, findLastByte?, findLastByte?_of_all h]
    exact if_pos hc
  | cons d l ih =>
    rw [List.cons_append, findLastByte?, ih]
    rfl

theorem isFeed_of_not_mem {t : Text} (h : '\n' ∉ t) : ∀ c ∈ t, isFeed c = false := fun c hc =>
  decide_eq_false fun heq : c = '\n' => h (heq ▸ hc)

theorem aheadOfLine_append_lastLine (t : Text) : aheadOfLine t ++ lastLine t = t := by
  by_cases h : '\n' ∈ t
  · obtain ⟨l, r, rfl, hr⟩ := eq_append_lastLine_of_mem h
    rw [aheadOfLine_cons hr, lastLine_cons hr, List.append_assoc]
    rfl
  · rw [aheadOfLine_of_not_mem h, lastLine_of_not_mem h, List.nil_append]

/-- **A line begins behind the last line feed ahead.** -/
theorem lineStart?_append (left right : Text) :
    lineStart? (left ++ right) (byteSize left) = some (byteSize (aheadOfLine left)) := by
  unfold lineStart?
  rw [cut?_append, Option.map_some]
  dsimp only
  by_cases h : '\n' ∈ left
  · obtain ⟨l, r, rfl, hr⟩ := eq_append_lastLine_of_mem h
    rw [findLastByte?_append (isFeed_of_not_mem hr) rfl, aheadOfLine_cons hr, byteSize_append]
    rfl
  · rw [findLastByte?_of_all (isFeed_of_not_mem h), aheadOfLine_of_not_mem h]
    rfl

/-- The text up to the first line feed, and with it. -/
def feedLine (t : Text) : Text := t.take ((firstLine t).length + 1)

theorem feedLine_append_behindLine (t : Text) : feedLine t ++ behindLine t = t := List.take_append_drop _ t

theorem feedLine_of_not_mem {t : Text} (h : '\n' ∉ t) : feedLine t = t := by
  unfold feedLine
  rw [firstLine_of_not_mem h]
  exact List.take_of_length_le (Nat.le_succ _)

theorem feedLine_cons {l : Text} (h : '\n' ∉ l) (r : Text) : feedLine (l ++ '\n' :: r) = l ++ ['\n'] := by
  unfold feedLine
  rw [firstLine_cons h, List.take_append, List.take_of_length_le (Nat.le_succ _), Nat.add_sub_cancel_left]
  rfl

theorem trimFeeds_feedLine (t : Text) : trimFeeds (feedLine t) = firstLine t := by
  have hstop : ∀ l : Text, '\n' ∉ l → l.reverse.dropWhile isFeed = l.reverse := fun l hl =>
    List.dropWhile_eq_self_iff.2 fun hpos => by
      have hmem : l.reverse[0] ∈ l := List.mem_reverse.1 (List.getElem_mem hpos)
      exact Bool.eq_false_iff.1 (isFeed_of_not_mem hl _ hmem)
  unfold trimFeeds
  by_cases h : '\n' ∈ t
  · obtain ⟨l, r, rfl, hl⟩ := List.eq_append_cons_of_mem h
    rw [feedLine_cons hl, firstLine_cons hl, List.reverse_append]
    show (List.dropWhile isFeed ('\n' :: l.reverse)).reverse = l
    rw [List.dropWhile_cons_of_pos rfl, hstop l hl, List.reverse_reverse]
  · rw [feedLine_of_not_mem h, firstLine_of_not_mem h, hstop t h, List.reverse_reverse]

/-- **A line ends behind the next line feed.** -/
theorem lineEnd?_append (left right : Text) :
    lineEnd? (left ++ right) (byteSize left) = some (byteSize left + byteSize (feedLine right)) := by
  unfold lineEnd?
  rw [cut?_append, Option.map_some]
  dsimp only
  by_cases h : '\n' ∈ right
  · obtain ⟨l, r, rfl, hl⟩ := List.eq_append_cons_of_mem h
    rw [findByte?_append (isFeed_of_not_mem hl) rfl, feedLine_cons hl, byteSize_append l]
    rfl
  · rw [findByte?_of_all (isFeed_of_not_mem h), feedLine_of_not_mem h, byteSize_append]
    rfl

theorem slice?_lastLine (left right : Text) :
    slice? (left ++ right) ⟨byteSize (aheadOfLine left), byteSize left⟩ = some (lastLine left) := by
  have h := slice?_append (aheadOfLine left) (lastLine left) right
  unfold spanBehind at h
  rwa [← byteSize_append, aheadOfLine_append_lastLine] at h

/-- What stands ahead of the first character of a kind. -/
theorem slice?_findByte? (p : Char → Bool) (t : Text) :
    slice? t ⟨0, (findByte? p t).getD t.byteSize⟩ = some (t.takeWhile fun c => !p c) := by
  have hall : ∀ c ∈ t.takeWhile fun c => !p c, p c = false := fun c hc => by
    have h := List.mem_takeWhile_imp hc
    rwa [Bool.not_eq_true'] at h
  have hsize : (findByte? p t).getD t.byteSize = byteSize (t.takeWhile fun c => !p c) := by
    cases hrest : t.dropWhile fun c => !p c with
    | nil =>
      have htake : (t.takeWhile fun c => !p c) = t := by
        conv => rhs; rw [← List.takeWhile_append_dropWhile (p := fun c => !p c) (l := t), hrest, List.append_nil]
      rw [htake] at hall ⊢
      rw [findByte?_of_all hall]
      rfl
    | cons c r =>
      have hc : p c = true := by
        have hne : (t.dropWhile fun c => !p c) ≠ [] := by
          rw [hrest]
          exact List.cons_ne_nil _ _
        have h := List.head_dropWhile_not (fun c => !p c) hne
        simpa [hrest] using h
      have ht := List.takeWhile_append_dropWhile (p := fun c => !p c) (l := t)
      rw [hrest] at ht
      conv => lhs; rw [← ht, findByte?_append hall hc]
      rfl
  have h := slice?_append [] (t.takeWhile fun c => !p c) (t.dropWhile fun c => !p c)
  rw [List.nil_append, List.takeWhile_append_dropWhile] at h
  unfold spanBehind at h
  rwa [byteSize_nil, Nat.zero_add, ← hsize] at h

/-- **The indentation of a line is found by bytes as it is in characters.** -/
theorem leadingIndent?_append (left right : Text) :
    leadingIndent? (left ++ right) (byteSize left) = some (leadingIndent left) := by
  unfold leadingIndent? leadingIndent
  rw [lineStart?_append]
  show (slice? (left ++ right) ⟨byteSize (aheadOfLine left), byteSize left⟩ >>= fun line => _) = _
  rw [slice?_lastLine]
  refine (slice?_findByte? _ (lastLine left)).trans ?_
  simp only [Bool.not_not]

theorem take_lineExtent (left right : Text) :
    right.take (lineExtent left right).2 = if standsAlone left right then feedLine right else [] := by
  unfold lineExtent
  split
  · show right.take (min ((firstLine right).length + 1) right.length) = feedLine right
    rcases Nat.le_total ((firstLine right).length + 1) right.length with h | h
    · rw [Nat.min_eq_left h]
      rfl
    · rw [Nat.min_eq_right h, List.take_length]
      exact (List.take_of_length_le h).symm
  · rfl

/-- Some of the text on either side may go with a marker. -/
theorem append_extent (n k : Nat) (left marker right : Text) :
    left ++ marker ++ right =
      dropLast n left ++ (takeLast n left ++ marker ++ right.take k) ++ right.drop k := by
  simp only [List.append_assoc, List.take_append_drop]
  rw [← List.append_assoc (dropLast _ _), dropLast_append_takeLast]

/-- **What goes with a marker is found by bytes as it is in characters.** -/
theorem markerExtent?_append (left marker right : Text) :
    let extent := lineExtent left right
    markerExtent? (left ++ marker ++ right) (spanBehind left marker) =
      some (spanBehind (dropLast extent.1 left)
        (takeLast extent.1 left ++ marker ++ right.take extent.2)) := by
  intro extent
  have hstart : lineStart? (left ++ marker ++ right) (byteSize left) = some (byteSize (aheadOfLine left)) := by
    rw [List.append_assoc]
    exact lineStart?_append left _
  have hstop : lineEnd? (left ++ marker ++ right) (byteSize left + byteSize marker) =
      some (byteSize left + byteSize marker + byteSize (feedLine right)) := by
    rw [← byteSize_append]
    exact lineEnd?_append _ right
  have hahead : slice? (left ++ marker ++ right) ⟨byteSize (aheadOfLine left), byteSize left⟩ =
      some (lastLine left) := by
    rw [List.append_assoc]
    exact slice?_lastLine left _
  have hbehind : slice? (left ++ marker ++ right) ⟨byteSize left + byteSize marker,
      byteSize left + byteSize marker + byteSize (feedLine right)⟩ = some (feedLine right) := by
    have h := slice?_append (left ++ marker) (feedLine right) (behindLine right)
    rw [List.append_assoc, feedLine_append_behindLine] at h
    unfold spanBehind at h
    rwa [byteSize_append] at h
  have hextent : spanBehind (dropLast extent.1 left) (takeLast extent.1 left ++ marker ++ right.take extent.2) =
      ⟨byteSize (dropLast extent.1 left), byteSize left + byteSize marker + byteSize (right.take extent.2)⟩ := by
    have hleft : byteSize left = byteSize (dropLast extent.1 left) + byteSize (takeLast extent.1 left) := by
      rw [← byteSize_append, dropLast_append_takeLast]
    unfold spanBehind
    simp only [byteSize_append, hleft, Nat.add_assoc]
  rw [hextent, dropLast_lineExtent, take_lineExtent]
  unfold markerExtent? spanBehind
  dsimp only
  rw [hstart, hstop]
  dsimp only [Option.bind_eq_bind, Option.bind_some]
  rw [hahead, hbehind]
  dsimp only [Option.bind_some]
  rw [trimFeeds_feedLine]
  unfold standsAlone
  cases (lastLine left).all isPadding && (firstLine right).all isPadding <;> rfl

end RecordExport

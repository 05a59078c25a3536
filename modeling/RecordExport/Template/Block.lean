import RecordExport.Template.Scalar
/-!
# Resolving blocks

A block is the text between a start marker and the end marker that closes it, both of one family.
Nesting counts: an end marker closes the nearest start marker of its family that is still open. A
start marker that is never closed is no block and stays in the text.

A `BlockWalk` goes through the blocks of a family from left to right and cuts each into five parts
that make up the whole text: what stands before it, the opening line or marker, the inner text, the
closing line or marker, and what stands behind. A marker that stands alone on its line takes the
line with it. The current block can be settled in two ways:

* as a condition: the inner text is kept or dropped, and what is kept is searched again, so blocks
  inside it are settled next;
* as a list: the whole block gives way to rendered text, which is never looked at again.

Either way the part still to be searched gets shorter (`length_rest_keep`, `length_rest_replace`).
-/

namespace RecordExport

universe v

/-! ## 1. Families and their blocks -/

/-- The names that open and close the blocks of a family. -/
structure BlockFamily where
  opens : Pattern
  closes : Pattern
  deriving DecidableEq, Repr

namespace BlockFamily

/-- The family of the markers with one stem. -/
def ofStem (stem : Text) : BlockFamily :=
  ⟨.literal (stem ++ startTrail), .literal (stem ++ endTrail)⟩

/-- The token opens a block of the family. -/
def isOpening (f : BlockFamily) (t : Token) : Bool :=
  t.shape = .blockStart && f.opens.isMatch t.name

/-- The token closes a block of the family. -/
def isClosing (f : BlockFamily) (t : Token) : Bool :=
  t.shape = .blockEnd && f.closes.isMatch t.name

end BlockFamily

/-- Tokens cut at an end marker. -/
structure CloseMatch where
  inner : List Token
  marker : Token
  right : List Token

/-- The end marker that closes a block, `depth` blocks of the family being open inside it. -/
def findClose (f : BlockFamily) : (depth : Nat) → List Token → Option CloseMatch
  | _, [] => none
  | depth, t :: ts =>
    let further (depth : Nat) : Option CloseMatch :=
      (findClose f depth ts).map fun m => { m with inner := t :: m.inner }
    if f.isOpening t then further (depth + 1)
    else if f.isClosing t then
      match depth with
      | 0 => some ⟨[], t, ts⟩
      | depth + 1 => further depth
    else further depth

theorem tokens_findClose {f : BlockFamily} {depth : Nat} {ts : List Token} {m : CloseMatch}
    (h : findClose f depth ts = some m) : ts = m.inner ++ m.marker :: m.right := by
  induction ts generalizing depth m with
  | nil => simp [findClose] at h
  | cons t ts ih =>
    unfold findClose at h
    split at h
    · simp only [Option.map_eq_some_iff] at h
      obtain ⟨m', hm', rfl⟩ := h
      simp [← ih hm']
    · split at h
      · split at h
        · simp only [Option.some.injEq] at h
          subst h
          simp
        · simp only [Option.map_eq_some_iff] at h
          obtain ⟨m', hm', rfl⟩ := h
          simp [← ih hm']
      · simp only [Option.map_eq_some_iff] at h
        obtain ⟨m', hm', rfl⟩ := h
        simp [← ih hm']

/-- A block found in a text: what its start marker's name captures, the tokens before it, its start
    marker, its contents, its end marker, the tokens behind it. -/
structure BlockMatch where
  captures : List Text
  left : List Token
  opening : Token
  inner : List Token
  closing : Token
  right : List Token

/-- The first closed block among tokens. -/
def findBlock (f : BlockFamily) : List Token → Option BlockMatch
  | [] => none
  | t :: ts =>
    let here : Option BlockMatch :=
      if t.shape = .blockStart then
        match f.opens.captures t.name, findClose f 0 ts with
        | some cs, some m => some ⟨cs, [], t, m.inner, m.marker, m.right⟩
        | _, _ => none
      else none
    match here with
    | some b => some b
    | none => (findBlock f ts).map fun b => { b with left := t :: b.left }

/-- The parts of a block are the tokens, and its start marker takes some text. -/
theorem tokens_findBlock {f : BlockFamily} {ts : List Token} {b : BlockMatch}
    (h : findBlock f ts = some b) :
    ts = b.left ++ b.opening :: (b.inner ++ b.closing :: b.right)
      ∧ 0 < b.opening.source.length := by
  induction ts generalizing b with
  | nil => simp [findBlock] at h
  | cons t ts ih =>
    unfold findBlock at h
    simp only at h
    split at h
    · rename_i b' hb
      simp only [Option.some.injEq] at h
      subst h
      split at hb
      · rename_i hshape
        split at hb
        · rename_i cs m hc hm
          simp only [Option.some.injEq] at hb
          subst hb
          exact ⟨by simp [← tokens_findClose hm], length_source_pos (by simp [hshape])⟩
        · simp at hb
      · simp at hb
    · simp only [Option.map_eq_some_iff] at h
      obtain ⟨b', hb', rfl⟩ := h
      obtain ⟨h1, h2⟩ := ih hb'
      exact ⟨by simp [← h1], h2⟩

/-! ## 2. The parts of a block in its text -/

/-- A block in its text. The five parts, one after the other, are the text. -/
structure Block where
  captures : List Text
  head : Text
  opening : Text
  inner : Text
  closing : Text
  tail : Text

namespace Block

/-- The whole text the block stands in. -/
def text (b : Block) : Text := b.head ++ b.opening ++ b.inner ++ b.closing ++ b.tail

/-- The block a match makes in its text, `before` standing before the tokens that were searched.
    The lines the two markers take must not run into each other. -/
def ofMatch (before : Text) (m : BlockMatch) : Block :=
  let left := before ++ sourceOf m.left
  let inner := sourceOf m.inner
  let right := sourceOf m.right
  let opens := lineExtent left (inner ++ m.closing.source ++ right)
  let closes := lineExtent (left ++ m.opening.source ++ inner) right
  if opens.2 + closes.1 ≤ inner.length then
    { captures := m.captures
      head := dropLast opens.1 left
      opening := takeLast opens.1 left ++ m.opening.source ++ inner.take opens.2
      inner := dropLast closes.1 (inner.drop opens.2)
      closing := takeLast closes.1 (inner.drop opens.2) ++ m.closing.source ++ right.take closes.2
      tail := right.drop closes.2 }
  else
    { captures := m.captures
      head := left
      opening := m.opening.source
      inner := inner
      closing := m.closing.source
      tail := right }

/-- **The five parts of a block are its text.** -/
theorem text_ofMatch (before : Text) (m : BlockMatch) :
    (ofMatch before m).text = before ++ sourceOf m.left ++ m.opening.source ++ sourceOf m.inner
      ++ m.closing.source ++ sourceOf m.right := by
  unfold ofMatch text
  simp only
  split
  · rename_i h
    simp only [List.append_assoc, List.take_append_drop]
    rw [← List.append_assoc (dropLast _ (List.drop _ _)), dropLast_append_takeLast,
      ← List.append_assoc (List.take _ (sourceOf m.inner)), List.take_append_drop,
      ← List.append_assoc (dropLast _ _), dropLast_append_takeLast]
    simp
  · simp

/-- The inner text and what stands behind a block are shorter than the tokens searched. -/
theorem length_ofMatch (before : Text) {f : BlockFamily} {ts : List Token} {m : BlockMatch}
    (h : findBlock f ts = some m) :
    (ofMatch before m).inner.length + (ofMatch before m).tail.length < (sourceOf ts).length := by
  obtain ⟨h1, h2⟩ := tokens_findBlock h
  rw [h1]
  have hd := length_dropLast_le
    (lineExtent (before ++ sourceOf m.left ++ m.opening.source ++ sourceOf m.inner)
      (sourceOf m.right)).1
    ((sourceOf m.inner).drop (lineExtent (before ++ sourceOf m.left)
      (sourceOf m.inner ++ m.closing.source ++ sourceOf m.right)).2)
  simp only [List.length_drop] at hd
  unfold ofMatch
  simp only
  split <;>
    simp only [sourceOf_append, sourceOf_cons, List.length_append, List.length_drop] <;> omega

end Block

/-! ## 3. The walk -/

/-- A walk over the blocks of a family. -/
structure BlockWalk where
  family : BlockFamily
  /-- the text already passed -/
  before : Text
  /-- the text still to be searched -/
  rest : Text
  /-- the block the walk stands at -/
  current : Option Block

namespace BlockWalk

/-- A walk at the beginning of a text. -/
def start (family : BlockFamily) (t : Text) : BlockWalk := ⟨family, [], t, none⟩

/-- The whole text as it now is. -/
def text (w : BlockWalk) : Text := w.before ++ w.rest

/-- Go to the next closed block. -/
def next (w : BlockWalk) : BlockWalk :=
  { w with current := (findBlock w.family (tokenize w.rest)).map (Block.ofMatch w.before) }

/-- What the current start marker's name captures. -/
def captures (w : BlockWalk) : Option (List Text) := w.current.map (·.captures)

/-- The inner text of the current block. -/
def inner (w : BlockWalk) : Text := (w.current.map (·.inner)).getD []

/-- Settle the current block as a condition. What is kept is searched next. -/
def keep (w : BlockWalk) (kept : Bool) : BlockWalk :=
  match w.current with
  | none => w
  | some b =>
    { w with
      before := b.head
      rest := if kept then b.inner ++ b.tail else b.tail
      current := none }

/-- Put rendered text in the place of the current block and go past it. -/
def replace (w : BlockWalk) (rendered : Text) : BlockWalk :=
  match w.current with
  | none => w
  | some b => { w with before := b.head ++ rendered, rest := b.tail, current := none }

/-- The current block makes up the text of the walk. -/
theorem text_current {w : BlockWalk} {b : Block} (h : w.next.current = some b) :
    b.text = w.text := by
  simp only [next, Option.map_eq_some_iff] at h
  obtain ⟨m, hm, rfl⟩ := h
  have ht := (tokens_findBlock hm).1
  have hs : w.rest = sourceOf (tokenize w.rest) := (source_tokenize _).symm
  rw [Block.text_ofMatch, text]
  conv => rhs; rw [hs, ht]
  simp

/-- The inner text of the current block and the text behind it are less than what was searched. -/
theorem length_current {w : BlockWalk} {b : Block} (h : w.next.current = some b) :
    b.inner.length + b.tail.length < w.rest.length := by
  simp only [next, Option.map_eq_some_iff] at h
  obtain ⟨m, hm, rfl⟩ := h
  have h : (Block.ofMatch w.before m).inner.length + (Block.ofMatch w.before m).tail.length
      < (sourceOf (tokenize w.rest)).length := Block.length_ofMatch _ hm
  rwa [source_tokenize] at h

/-- Settling a condition leaves less to be searched. -/
theorem length_rest_keep {w : BlockWalk} {b : Block} (kept : Bool)
    (h : w.next.current = some b) : (w.next.keep kept).rest.length < w.rest.length := by
  have hl := length_current h
  unfold keep
  rw [h]
  simp only
  split
  · simpa using hl
  · omega

/-- Replacing a block leaves less to be searched. -/
theorem length_rest_replace {w : BlockWalk} {b : Block} (rendered : Text)
    (h : w.next.current = some b) : (w.next.replace rendered).rest.length < w.rest.length := by
  have hl := length_current h
  unfold replace
  rw [h]
  simp only
  omega

end BlockWalk

/-! ## 4. Settling all of them -/

/-- Walk on to the end, asking at every block whether to keep it. -/
def BlockWalk.keepAllM {m : Type → Type v} [Monad m] (decision : List Text → m Bool)
    (w : BlockWalk) : m Text :=
  match _h : w.next.current with
  | none => pure w.next.text
  | some b => do
    let kept ← decision b.captures
    keepAllM decision (w.next.keep kept)
  termination_by w.rest.length
  decreasing_by exact length_rest_keep kept _h

/-- Walk on to the end, asking at every block for the text in its place. -/
def BlockWalk.replaceAllM {m : Type → Type v} [Monad m] (render : Text → m Text)
    (w : BlockWalk) : m Text :=
  match _h : w.next.current with
  | none => pure w.next.text
  | some b => do
    let rendered ← render b.inner
    replaceAllM render (w.next.replace rendered)
  termination_by w.rest.length
  decreasing_by exact length_rest_replace rendered _h

/-- Keep or drop every block of a family, asking for each decision in turn. -/
def keepBlocksM {m : Type → Type v} [Monad m] (f : BlockFamily) (t : Text)
    (decision : List Text → m Bool) : m Text :=
  (BlockWalk.start f t).keepAllM decision

/-- Keep or drop every block of a family. -/
def keepBlocks (f : BlockFamily) (t : Text) (decision : List Text → Bool) : Text :=
  keepBlocksM (m := Id) f t decision

/-! ## 5. Lists -/

/-- Where an item stands in a list. -/
structure ListPosition where
  index : Nat
  length : Nat
  deriving DecidableEq, Repr

/-- The item is the first. -/
def ListPosition.isFirst (p : ListPosition) : Bool := p.index = 0

/-- The item is the last. -/
def ListPosition.isLast (p : ListPosition) : Bool := p.index + 1 = p.length

/-- Items with their positions. -/
def positioned {α : Type} (items : List α) : List (α × ListPosition) :=
  items.zipIdx.map fun a => (a.1, ⟨a.2, items.length⟩)

/-- Expand every block of a family once per item, the renderer given the item, its position and the
    inner text. -/
def expandBlocksM {m : Type → Type v} [Monad m] {α : Type} (f : BlockFamily) (t : Text)
    (items : List α) (render : α → ListPosition → Text → m Text) : m Text :=
  (BlockWalk.start f t).replaceAllM fun inner => do
    let rendered ← (positioned items).mapM fun a => render a.1 a.2 inner
    pure (joinItems rendered)

/-- Expand every block of a family once per item. -/
def expandBlocks {α : Type} (f : BlockFamily) (t : Text) (items : List α)
    (render : α → ListPosition → Text → Text) : Text :=
  expandBlocksM (m := Id) f t items render

end RecordExport

import RecordExport.Proofs.Template.ByteRanges
/-!
# Walks by bytes

A walk may be led by numbers alone: the whole text as it now is, the byte from which it is searched on, and the
ranges of what was found last. Such a CURSOR reads and replaces ranges of the text, and each of that fails where
a range does not fit. The numbers outlive the text they were taken from: a replacement moves what stands behind
it, and the line a marker takes may begin ahead of where the search did.

* `ScalarCursor`, `BlockCursor`: the cursors, with everything a caller can do to them, in any order
  (`ScalarStep`, `BlockStep`). A step that fails has no answer;
* `ScalarWalk.cursor`, `BlockWalk.cursor`: the numbers of a walk. As long as what a walk stands at is a part of
  its text (`Fits`), a step of the cursor is the step of the walk (`perform?_cursor`), and so it is for a run of
  any steps (`mapM_follows`);
* `cursorsSafe`: so no step fails, whatever the caller does, and the numbers always fit the text.
-/

namespace RecordExport

open Text

/-! ## 1. Steps -/

/-- What a step tells its caller. -/
inductive CursorAnswer where
  /-- what the name found captures, or that none was found -/
  | captures (found : Option (List Text))
  /-- the inner text of the current block -/
  | inner (t : Text)
  /-- nothing -/
  | done
  deriving DecidableEq, Repr

/-- What a caller can do to a cursor over scalars. -/
inductive ScalarStep where
  | next
  | replace (value : Text)

/-- What a caller can do to a cursor over blocks. -/
inductive BlockStep where
  | next
  | inner
  | keep (kept : Bool)
  | replace (rendered : Text)

/-- The step changes no text. -/
def ScalarStep.Looks : ScalarStep → Prop
  | .next => True
  | .replace _ => False

/-- The step changes no text. -/
def BlockStep.Looks : BlockStep → Prop
  | .next | .inner => True
  | .keep _ | .replace _ => False

/-- A step of a walk over scalars. -/
def ScalarWalk.perform : ScalarStep → StateM ScalarWalk CursorAnswer
  | .next, w => (.captures w.next.captures, w.next)
  | .replace v, w => (.done, w.replace v)

/-- A step of a walk over blocks. -/
def BlockWalk.perform : BlockStep → StateM BlockWalk CursorAnswer
  | .next, w => (.captures w.next.captures, w.next)
  | .inner, w => (.inner w.inner, w)
  | .keep kept, w => (.done, w.keep kept)
  | .replace rendered, w => (.done, w.replace rendered)

/-- **A run follows another if each of its steps does.** The state of the one is a view of the state of the
    other, which keeps what the steps need. -/
theorem mapM_follows {σ α β γ : Type} {fits : α → Prop} {view : α → γ} {step : σ → StateM α β}
    {step? : σ → StateT γ Option β}
    (h : ∀ s a, fits a → step? s (view a) = some ((step s a).1, view (step s a).2) ∧ fits (step s a).2)
    (ss : List σ) {a : α} (ha : fits a) :
    ss.mapM step? (view a) = some ((ss.mapM step a).1, view (ss.mapM step a).2) ∧ fits (ss.mapM step a).2 := by
  induction ss generalizing a with
  | nil => exact ⟨rfl, ha⟩
  | cons s ss ih =>
    obtain ⟨hstep, hfits⟩ := h s a ha
    obtain ⟨hrun, hend⟩ := ih hfits
    refine ⟨?_, by rw [List.mapM_cons]; exact hend⟩
    rw [List.mapM_cons, List.mapM_cons]
    show (step? s (view a) >>= fun r => ss.mapM step? r.2 >>= fun rs => pure (r.1 :: rs.1, rs.2)) = _
    rw [hstep]
    show (ss.mapM step? (view (step s a).2) >>= fun rs => pure ((step s a).1 :: rs.1, rs.2)) = _
    rw [hrun]
    rfl

/-- The tokens from a byte on, with their ranges in the whole text. -/
def tokensFrom? (t : Text) (n : Nat) : Option (List Located) :=
  (cut? t n).map fun p => (locate p.2).map fun k => (k.1, k.2.shift n)

theorem tokensFrom?_append (a b : Text) :
    tokensFrom? (a ++ b) (byteSize a) = some (spansFrom (byteSize a) (tokenize b)) := by
  unfold tokensFrom?
  rw [cut?_append, Option.map_some]
  exact congrArg some (spansFrom_shift (byteSize a) 0 (tokenize b)).symm

theorem spansFrom_cons_behind (a : Text) (t : Token) (ts : List Token) :
    spansFrom (byteSize a) (t :: ts) = (t, spanBehind a t.source) :: spansFrom (byteSize (a ++ t.source)) ts := by
  rw [byteSize_append]
  rfl

/-! ## 2. Scalars -/

/-- A cursor over the matching scalars of a text. -/
structure ScalarCursor where
  pattern : Pattern
  placement : Placement
  text : Text
  /-- where the search goes on -/
  position : Nat
  /-- the placeholder found last -/
  current : Option Span

namespace ScalarCursor

/-- A cursor at the beginning of a text. -/
def start (pattern : Pattern) (placement : Placement) (t : Text) : ScalarCursor := ⟨pattern, placement, t, 0, none⟩

/-- Go to the next matching placeholder. -/
def next? (c : ScalarCursor) : Option (Option (List Text) × ScalarCursor) := do
  let tokens ← tokensFrom? c.text c.position
  let found := tokens.findSome? fun k => (scalarCaptures c.pattern k.1).map fun cs => (cs, k.2)
  return (found.map (·.1), { c with current := found.map (·.2) })

/-- Put a value in the place of the current placeholder. -/
def replace? (c : ScalarCursor) (value : Text) : Option ScalarCursor :=
  match c.current with
  | none => some c
  | some s =>
    match c.placement with
    | .inline => do
      let text ← replaceRange? c.text s value
      return { c with text, position := s.start + value.byteSize, current := none }
    | .fitted =>
      let trimmed := trimBlankLines value
      if trimmed = [] then do
        let extent ← markerExtent? c.text s
        let text ← replaceRange? c.text extent []
        return { c with text, position := extent.start, current := none }
      else do
        let indent ← leadingIndent? c.text s.start
        let indented := applyIndent indent trimmed
        let text ← replaceRange? c.text s indented
        return { c with text, position := s.start + indented.byteSize, current := none }

/-- A step of the cursor. -/
def perform? : ScalarStep → StateT ScalarCursor Option CursorAnswer
  | .next, c => c.next?.map fun r => (.captures r.1, r.2)
  | .replace v, c => (c.replace? v).map fun c' => (.done, c')

end ScalarCursor

namespace ScalarWalk

/-- The placeholder a walk stands at is a part of what it searched. -/
def Fits (w : ScalarWalk) : Prop := ∀ m ∈ w.current, w.rest = m.left ++ m.marker.source ++ m.right

/-- The numbers of a walk. -/
def cursor (w : ScalarWalk) : ScalarCursor :=
  ⟨w.pattern, w.placement, w.text, byteSize w.before,
    w.current.map fun m => spanBehind (w.before ++ m.left) m.marker.source⟩

theorem findSome?_spansFrom (p : Pattern) (a : Text) (ts : List Token) :
    ((spansFrom (byteSize a) ts).findSome? fun k => (scalarCaptures p k.1).map fun cs => (cs, k.2)) =
      (findScalar p ts).map fun m => (m.captures, spanBehind (a ++ m.left) m.marker.source) := by
  induction ts generalizing a with
  | nil => rfl
  | cons t ts ih =>
    rw [spansFrom_cons_behind, List.findSome?_cons, findScalar]
    cases scalarCaptures p t with
    | some cs =>
      show some (cs, spanBehind a t.source) = some (cs, spanBehind (a ++ []) t.source)
      rw [List.append_nil]
    | none =>
      dsimp only [Option.map_none]
      rw [ih, Option.map_map]
      refine congrArg (Option.map · _) (funext fun m => ?_)
      simp only [Function.comp_apply, List.append_assoc]

/-- **Searching by bytes is searching.** -/
theorem next?_cursor (w : ScalarWalk) : w.cursor.next? = some (w.next.captures, w.next.cursor) := by
  unfold ScalarCursor.next? cursor text
  dsimp only
  rw [tokensFrom?_append]
  dsimp only [Option.bind_eq_bind, Option.bind_some]
  rw [findSome?_spansFrom]
  simp only [Option.map_map]
  rfl

theorem fits_next (w : ScalarWalk) : w.next.Fits := fun m hm => by
  have hsource := (source_findScalar (show findScalar w.pattern (tokenize w.rest) = some m from hm)).1
  rw [source_tokenize] at hsource
  exact hsource

/-- **Replacing by bytes is replacing.** -/
theorem replace?_cursor {w : ScalarWalk} (h : w.Fits) (v : Text) :
    w.cursor.replace? v = some (w.replace v).cursor := by
  obtain ⟨pattern, placement, before, rest, current⟩ := w
  cases current with
  | none => rfl
  | some m =>
    obtain rfl : rest = m.left ++ m.marker.source ++ m.right := h m rfl
    have htext : before ++ (m.left ++ m.marker.source ++ m.right) =
        before ++ m.left ++ m.marker.source ++ m.right := by simp only [List.append_assoc]
    have hreplace : ∀ new, replaceRange? (before ++ (m.left ++ m.marker.source ++ m.right))
        (spanBehind (before ++ m.left) m.marker.source) new = some (before ++ m.left ++ new ++ m.right) := fun new => by
      rw [htext]
      exact replaceRange?_append _ _ _ new
    unfold ScalarCursor.replace? replace cursor text
    dsimp only [Option.map_some]
    cases placement with
    | inline =>
      dsimp only
      rw [hreplace]
      dsimp only [Option.bind_eq_bind, Option.bind_some]
      rw [byteSize_append _ v]
      rfl
    | fitted =>
      dsimp only
      by_cases hblank : trimBlankLines v = []
      · rw [if_pos hblank, if_pos hblank, htext, markerExtent?_append]
        dsimp only [Option.bind_eq_bind, Option.bind_some]
        rw [append_extent (lineExtent (before ++ m.left) m.right).1 (lineExtent (before ++ m.left) m.right).2,
          replaceRange?_append, List.append_nil]
        rfl
      · rw [if_neg hblank, if_neg hblank]
        have hindent : leadingIndent? (before ++ (m.left ++ m.marker.source ++ m.right))
            (spanBehind (before ++ m.left) m.marker.source).start = some (leadingIndent (before ++ m.left)) := by
          rw [htext, List.append_assoc]
          exact leadingIndent?_append _ _
        rw [hindent]
        dsimp only [Option.bind_eq_bind, Option.bind_some]
        rw [hreplace]
        dsimp only [Option.bind_some]
        rw [byteSize_append _ (applyIndent _ _)]
        rfl

/-- **A step of the cursor is the step of the walk.** -/
theorem perform?_cursor (s : ScalarStep) (w : ScalarWalk) (h : w.Fits) :
    ScalarCursor.perform? s w.cursor = some ((perform s w).1, (perform s w).2.cursor) ∧ (perform s w).2.Fits := by
  cases s with
  | next =>
    refine ⟨?_, fits_next w⟩
    show w.cursor.next?.map _ = _
    rw [next?_cursor]
    rfl
  | replace v =>
    refine ⟨?_, ?_⟩
    · show (w.cursor.replace? v).map _ = _
      rw [replace?_cursor h]
      rfl
    · show (w.replace v).Fits
      unfold replace
      cases hcurrent : w.current with
      | none => exact h
      | some m =>
        dsimp only
        split
        · exact fun _ hm => nomatch hm
        · split <;> exact fun _ hm => nomatch hm

end ScalarWalk

/-! ## 3. Blocks -/

/-- The ranges of a block: with its markers, and without them. -/
structure BlockSpans where
  outer : Span
  inner : Span

/-- A block found by a cursor: what its start marker captures, its two markers and what goes with each. -/
structure FoundBlock where
  captures : List Text
  opening : Span
  closing : Span
  openingExtent : Span
  closingExtent : Span

namespace FoundBlock

/-- What goes with the start marker reaches into what goes with the end marker. -/
def Crosses (b : FoundBlock) : Prop := b.closingExtent.start < b.openingExtent.stop

instance (b : FoundBlock) : Decidable b.Crosses := inferInstanceAs (Decidable (_ < _))

/-- The ranges of the block. Only the markers go if their lines run into each other. -/
def spans (b : FoundBlock) : BlockSpans :=
  if b.Crosses then ⟨⟨b.opening.start, b.closing.stop⟩, ⟨b.opening.stop, b.closing.start⟩⟩
  else ⟨⟨b.openingExtent.start, b.closingExtent.stop⟩, ⟨b.openingExtent.stop, b.closingExtent.start⟩⟩

end FoundBlock

/-- Where the end marker stands that closes a block, `depth` blocks of the family being open inside it. -/
def closeAt? (f : BlockFamily) : (depth : Nat) → List Located → Option Span
  | _, [] => none
  | depth, k :: ks =>
    if f.isOpening k.1 then closeAt? f (depth + 1) ks
    else if f.isClosing k.1 then
      match depth with
      | 0 => some k.2
      | depth + 1 => closeAt? f depth ks
    else closeAt? f depth ks

/-- What the start marker of the first closed block captures, and where its two markers stand. -/
def blockAt? (f : BlockFamily) : List Located → Option (List Text × Span × Span)
  | [] => none
  | k :: ks =>
    let here : Option (List Text × Span × Span) :=
      if k.1.shape = .blockStart then
        match f.opens.captures k.1.name, closeAt? f 0 ks with
        | some cs, some close => some (cs, k.2, close)
        | _, _ => none
      else none
    match here with
    | some b => some b
    | none => blockAt? f ks

/-- A cursor over the blocks of a family. -/
structure BlockCursor where
  family : BlockFamily
  text : Text
  /-- where the search goes on -/
  position : Nat
  /-- the block found last -/
  current : Option BlockSpans

namespace BlockCursor

/-- A cursor at the beginning of a text. -/
def start (family : BlockFamily) (t : Text) : BlockCursor := ⟨family, t, 0, none⟩

/-- The next closed block. -/
def found? (c : BlockCursor) : Option (Option FoundBlock) := do
  let tokens ← tokensFrom? c.text c.position
  match blockAt? c.family tokens with
  | none => return none
  | some (captures, opening, closing) =>
    let openingExtent ← markerExtent? c.text opening
    let closingExtent ← markerExtent? c.text closing
    return some { captures, opening, closing, openingExtent, closingExtent }

/-- Go to the next closed block. -/
def next? (c : BlockCursor) : Option (Option (List Text) × BlockCursor) := do
  let found ← c.found?
  return (found.map (·.captures), { c with current := found.map (·.spans) })

/-- The inner text of the current block. -/
def inner? (c : BlockCursor) : Option Text :=
  match c.current with
  | none => some []
  | some b => slice? c.text b.inner

/-- Settle the current block as a condition. -/
def keep? (c : BlockCursor) (kept : Bool) : Option BlockCursor :=
  match c.current with
  | none => some c
  | some b => do
    let new ← if kept then slice? c.text b.inner else some []
    let text ← replaceRange? c.text b.outer new
    return { c with text, position := b.outer.start, current := none }

/-- Put rendered text in the place of the current block. -/
def replace? (c : BlockCursor) (rendered : Text) : Option BlockCursor :=
  match c.current with
  | none => some c
  | some b => do
    let text ← replaceRange? c.text b.outer rendered
    return { c with text, position := b.outer.start + rendered.byteSize, current := none }

/-- A step of the cursor. -/
def perform? : BlockStep → StateT BlockCursor Option CursorAnswer
  | .next, c => c.next?.map fun r => (.captures r.1, r.2)
  | .inner, c => c.inner?.map fun t => (.inner t, c)
  | .keep kept, c => (c.keep? kept).map fun c' => (.done, c')
  | .replace rendered, c => (c.replace? rendered).map fun c' => (.done, c')

end BlockCursor

theorem closeAt?_spansFrom (f : BlockFamily) (depth : Nat) (a : Text) (ts : List Token) :
    closeAt? f depth (spansFrom (byteSize a) ts) =
      (findClose f depth ts).map fun m => spanBehind (a ++ sourceOf m.inner) m.marker.source := by
  induction ts generalizing depth a with
  | nil => rfl
  | cons t ts ih =>
    have hfurther : ∀ depth, closeAt? f depth (spansFrom (byteSize (a ++ t.source)) ts) =
        ((findClose f depth ts).map fun m => { m with inner := t :: m.inner }).map
          fun m => spanBehind (a ++ sourceOf m.inner) m.marker.source := by
      intro depth
      rw [ih, Option.map_map]
      refine congrArg (Option.map · _) (funext fun m => ?_)
      simp only [Function.comp_apply, sourceOf_cons, List.append_assoc]
    rw [spansFrom_cons_behind, closeAt?.eq_def, findClose.eq_def]
    dsimp only
    split
    · exact hfurther _
    · split
      · cases depth with
        | zero =>
          show some (spanBehind a t.source) = some (spanBehind (a ++ []) t.source)
          rw [List.append_nil]
        | succ depth => exact hfurther depth
      · exact hfurther depth

theorem blockAt?_spansFrom (f : BlockFamily) (a : Text) (ts : List Token) :
    blockAt? f (spansFrom (byteSize a) ts) = (findBlock f ts).map fun m =>
      (m.captures, spanBehind (a ++ sourceOf m.left) m.opening.source,
        spanBehind (a ++ sourceOf m.left ++ m.opening.source ++ sourceOf m.inner) m.closing.source) := by
  induction ts generalizing a with
  | nil => rfl
  | cons t ts ih =>
    have hfurther : blockAt? f (spansFrom (byteSize (a ++ t.source)) ts) =
        ((findBlock f ts).map fun m => { m with left := t :: m.left }).map fun m =>
          (m.captures, spanBehind (a ++ sourceOf m.left) m.opening.source,
            spanBehind (a ++ sourceOf m.left ++ m.opening.source ++ sourceOf m.inner) m.closing.source) := by
      rw [ih, Option.map_map]
      refine congrArg (Option.map · _) (funext fun m => ?_)
      simp only [Function.comp_apply, sourceOf_cons, List.append_assoc]
    rw [spansFrom_cons_behind, blockAt?, findBlock, closeAt?_spansFrom]
    dsimp only
    by_cases hshape : t.shape = .blockStart
    · rw [if_pos hshape, if_pos hshape]
      cases f.opens.captures t.name with
      | none => exact hfurther
      | some cs =>
        cases findClose f 0 ts with
        | none => exact hfurther
        | some m =>
          show some (cs, spanBehind a t.source, spanBehind (a ++ t.source ++ sourceOf m.inner) m.marker.source) =
            some (cs, spanBehind (a ++ []) t.source,
              spanBehind (a ++ [] ++ t.source ++ sourceOf m.inner) m.marker.source)
          rw [List.append_nil]
    · rw [if_neg hshape, if_neg hshape]
      exact hfurther

/-! ### What goes with the markers of a block -/

section Extents

variable (before : Text) {m : BlockMatch} {b e : Text}

/-- The lines of the two markers fit into the inner text. -/
theorem lineExtents_le (ho : m.opening = .placeholder b) (hc : m.closing = .placeholder e) :
    (lineExtent (before ++ sourceOf m.left) (sourceOf m.inner ++ m.closing.source ++ sourceOf m.right)).2 +
      (lineExtent (before ++ sourceOf m.left ++ m.opening.source ++ sourceOf m.inner) (sourceOf m.right)).1 ≤
        (sourceOf m.inner).length := by
  rw [ho, hc]
  have h := lines_le (before ++ sourceOf m.left) (sourceOf m.inner) (sourceOf m.right)
  rwa [← lineExtent_opening _ _ e (sourceOf m.right),
    ← lineExtent_closing (before ++ sourceOf m.left) b] at h

theorem dropLast_append {n : Nat} {t : Text} (h : n ≤ t.length) (s : Text) :
    dropLast n (s ++ t) = s ++ dropLast n t := by
  unfold dropLast
  rw [List.length_append, Nat.add_sub_assoc h, List.take_length_add_append]

theorem takeLast_append {n : Nat} {t : Text} (h : n ≤ t.length) (s : Text) :
    takeLast n (s ++ t) = takeLast n t := by
  unfold takeLast
  rw [List.length_append, Nat.add_sub_assoc h, List.drop_length_add_append]

/-- **What goes with the start marker is the opening part of the block.** -/
theorem Block.markerExtent?_opening (ho : m.opening = .placeholder b) (hc : m.closing = .placeholder e) :
    let block := ofMatch before m
    markerExtent? block.text (spanBehind (before ++ sourceOf m.left) m.opening.source) =
      some (spanBehind block.head block.opening) := by
  intro block
  have hfit := lineExtents_le before ho hc
  have htext : block.text = before ++ sourceOf m.left ++ m.opening.source ++
      (sourceOf m.inner ++ m.closing.source ++ sourceOf m.right) := by
    rw [text_ofMatch]
    simp only [List.append_assoc]
  rw [htext, markerExtent?_append, List.append_assoc (sourceOf m.inner),
    List.take_append_of_le_length (by rw [← List.append_assoc]; omega), ← List.append_assoc (sourceOf m.inner)]
  show _ = some (spanBehind (ofMatch before m).head (ofMatch before m).opening)
  unfold ofMatch
  dsimp only
  rw [if_pos hfit]

/-- **What goes with the end marker is the closing part of the block.** -/
theorem Block.markerExtent?_closing (ho : m.opening = .placeholder b) (hc : m.closing = .placeholder e) :
    let block := ofMatch before m
    markerExtent? block.text
        (spanBehind (before ++ sourceOf m.left ++ m.opening.source ++ sourceOf m.inner) m.closing.source) =
      some (spanBehind (block.head ++ block.opening ++ block.inner) block.closing) := by
  intro block
  have hfit := lineExtents_le before ho hc
  rw [text_ofMatch, markerExtent?_append]
  show _ = some (spanBehind ((ofMatch before m).head ++ (ofMatch before m).opening ++ (ofMatch before m).inner)
    (ofMatch before m).closing)
  unfold ofMatch
  dsimp only
  rw [if_pos hfit]
  dsimp only
  generalize lineExtent (before ++ sourceOf m.left) _ = opens at hfit ⊢
  generalize lineExtent (before ++ sourceOf m.left ++ m.opening.source ++ sourceOf m.inner) _ = closes at hfit ⊢
  have hdrop : closes.1 ≤ ((sourceOf m.inner).drop opens.2).length := by
    rw [List.length_drop]
    omega
  have hinner : before ++ sourceOf m.left ++ m.opening.source ++ sourceOf m.inner =
      before ++ sourceOf m.left ++ m.opening.source ++ (sourceOf m.inner).take opens.2 ++
        (sourceOf m.inner).drop opens.2 := by
    rw [List.append_assoc _ (List.take _ _), List.take_append_drop]
  have hleft : dropLast opens.1 (before ++ sourceOf m.left) ++
      (takeLast opens.1 (before ++ sourceOf m.left) ++ m.opening.source ++ (sourceOf m.inner).take opens.2) =
        before ++ sourceOf m.left ++ m.opening.source ++ (sourceOf m.inner).take opens.2 := by
    rw [← List.append_assoc, ← List.append_assoc, dropLast_append_takeLast]
  rw [hinner, dropLast_append hdrop, takeLast_append hdrop, hleft]

end Extents

/-- The ranges of a block in its text. -/
def Block.spans (b : Block) : BlockSpans :=
  ⟨spanBehind b.head (b.opening ++ b.inner ++ b.closing), spanBehind (b.head ++ b.opening) b.inner⟩

theorem FoundBlock.spans_of_extents {found : FoundBlock} {b : Block}
    (ho : found.openingExtent = spanBehind b.head b.opening)
    (hc : found.closingExtent = spanBehind (b.head ++ b.opening ++ b.inner) b.closing) :
    ¬ found.Crosses ∧ found.spans = b.spans := by
  have huncrossed : ¬ found.Crosses := by
    unfold Crosses
    rw [ho, hc]
    simp only [spanBehind, byteSize_append]
    omega
  refine ⟨huncrossed, ?_⟩
  unfold spans
  rw [if_neg huncrossed, ho, hc]
  simp only [Block.spans, spanBehind, byteSize_append, Nat.add_assoc]

namespace BlockWalk

/-- The block a walk stands at makes up its text. -/
def Fits (w : BlockWalk) : Prop := ∀ b ∈ w.current, b.text = w.text

/-- The numbers of a walk. -/
def cursor (w : BlockWalk) : BlockCursor := ⟨w.family, w.text, byteSize w.before, w.current.map Block.spans⟩

theorem fits_next (w : BlockWalk) : w.next.Fits := fun _ hb => text_current hb

/-- **Searching by bytes finds what searching finds, and the lines of the two markers never cross.** -/
theorem found?_cursor (w : BlockWalk) :
    ∃ found, w.cursor.found? = some found ∧ found.map (·.captures) = w.next.captures ∧
      found.map (·.spans) = w.next.cursor.current ∧ ∀ b ∈ found, ¬ b.Crosses := by
  unfold BlockCursor.found? cursor next captures
  dsimp only [text]
  rw [tokensFrom?_append]
  dsimp only [Option.bind_eq_bind, Option.bind_some]
  rw [blockAt?_spansFrom]
  cases hfound : findBlock w.family (tokenize w.rest) with
  | none => exact ⟨none, rfl, rfl, rfl, fun _ h => nomatch h⟩
  | some m =>
    obtain ⟨b, e, ho, hc⟩ := exists_markers_of_findBlock hfound
    have htext : (Block.ofMatch w.before m).text = w.before ++ w.rest :=
      text_current (congrArg (Option.map (Block.ofMatch w.before)) hfound)
    have hopening := Block.markerExtent?_opening w.before ho hc
    have hclosing := Block.markerExtent?_closing w.before ho hc
    dsimp only at hopening hclosing
    rw [htext] at hopening hclosing
    dsimp only [Option.map_some]
    rw [hopening, hclosing]
    refine ⟨_, rfl, congrArg some (Block.ofMatch_eq w.before ho hc).1.symm, ?_, fun found h => ?_⟩
    · exact congrArg some (FoundBlock.spans_of_extents rfl rfl).2
    · obtain rfl := Option.some.inj h
      exact (FoundBlock.spans_of_extents rfl rfl).1

theorem next?_cursor (w : BlockWalk) : w.cursor.next? = some (w.next.captures, w.next.cursor) := by
  obtain ⟨found, hfound, hcaptures, hspans, -⟩ := found?_cursor w
  unfold BlockCursor.next?
  rw [hfound]
  dsimp only [Option.bind_eq_bind, Option.bind_some]
  rw [hcaptures, hspans]
  rfl

theorem inner?_cursor {w : BlockWalk} (h : w.Fits) : w.cursor.inner? = some w.inner := by
  obtain ⟨family, before, rest, current⟩ := w
  cases current with
  | none => rfl
  | some b =>
    have htext : b.text = before ++ rest := h b rfl
    have hparts : b.text = b.head ++ b.opening ++ b.inner ++ (b.closing ++ b.tail) := by
      unfold Block.text
      simp only [List.append_assoc]
    show slice? (before ++ rest) (spanBehind (b.head ++ b.opening) b.inner) = some b.inner
    rw [← htext, hparts]
    exact slice?_append _ _ _

theorem replaceRange?_outer {before rest : Text} {b : Block} (h : b.text = before ++ rest) (new : Text) :
    replaceRange? (before ++ rest) b.spans.outer new = some (b.head ++ new ++ b.tail) := by
  have hparts : b.text = b.head ++ (b.opening ++ b.inner ++ b.closing) ++ b.tail := by
    unfold Block.text
    simp only [List.append_assoc]
  rw [← h, hparts]
  exact replaceRange?_append _ _ _ new

/-- **Keeping and dropping by bytes is keeping and dropping.** -/
theorem keep?_cursor {w : BlockWalk} (h : w.Fits) (kept : Bool) :
    w.cursor.keep? kept = some (w.keep kept).cursor := by
  have hinner := inner?_cursor h
  obtain ⟨family, before, rest, current⟩ := w
  cases current with
  | none => rfl
  | some b =>
    have hinner : slice? (before ++ rest) b.spans.inner = some b.inner := hinner
    have hreplace := replaceRange?_outer (h b rfl)
    unfold BlockCursor.keep? keep cursor text
    dsimp only [Option.map_some]
    cases kept with
    | true =>
      rw [if_pos rfl, if_pos rfl, hinner]
      dsimp only [Option.bind_eq_bind, Option.bind_some]
      rw [hreplace, List.append_assoc]
      rfl
    | false =>
      rw [if_neg Bool.false_ne_true, if_neg Bool.false_ne_true]
      dsimp only [Option.bind_eq_bind, Option.bind_some]
      rw [hreplace, List.append_nil]
      rfl

/-- **Replacing by bytes is replacing.** -/
theorem replace?_cursor {w : BlockWalk} (h : w.Fits) (rendered : Text) :
    w.cursor.replace? rendered = some (w.replace rendered).cursor := by
  obtain ⟨family, before, rest, current⟩ := w
  cases current with
  | none => rfl
  | some b =>
    unfold BlockCursor.replace? replace cursor text
    dsimp only [Option.map_some]
    rw [replaceRange?_outer (h b rfl)]
    dsimp only [Option.bind_eq_bind, Option.bind_some]
    rw [byteSize_append b.head]
    rfl

/-- **A step of the cursor is the step of the walk.** -/
theorem perform?_cursor (s : BlockStep) (w : BlockWalk) (h : w.Fits) :
    BlockCursor.perform? s w.cursor = some ((perform s w).1, (perform s w).2.cursor) ∧ (perform s w).2.Fits := by
  cases s with
  | next =>
    refine ⟨?_, fits_next w⟩
    show w.cursor.next?.map _ = _
    rw [next?_cursor]
    rfl
  | inner =>
    refine ⟨?_, h⟩
    show w.cursor.inner?.map _ = _
    rw [inner?_cursor h]
    rfl
  | keep kept =>
    refine ⟨?_, ?_⟩
    · show (w.cursor.keep? kept).map _ = _
      rw [keep?_cursor h]
      rfl
    · show (w.keep kept).Fits
      unfold keep
      cases hcurrent : w.current with
      | none => exact h
      | some b => exact fun _ hb => nomatch hb
  | replace rendered =>
    refine ⟨?_, ?_⟩
    · show (w.cursor.replace? rendered).map _ = _
      rw [replace?_cursor h]
      rfl
    · show (w.replace rendered).Fits
      unfold replace
      cases hcurrent : w.current with
      | none => exact h
      | some b => exact fun _ hb => nomatch hb

end BlockWalk

/-! ## 4. Safety -/

theorem IsBoundary.le {t : Text} {n : Nat} (h : IsBoundary t n) : n ≤ byteSize t := by
  obtain ⟨a, b, rfl, rfl⟩ := isBoundary_iff.1 h
  rw [byteSize_append]
  exact Nat.le_add_right _ _

/-- The numbers of a cursor over scalars fit its text. -/
structure ScalarCursor.Safe (c : ScalarCursor) : Prop where
  /-- the search goes on between two characters -/
  position : IsBoundary c.text c.position ∧ c.position ≤ byteSize c.text
  /-- the current placeholder is a range of the text -/
  current : ∀ s ∈ c.current, c.position ≤ s.start ∧ s.start ≤ s.stop ∧ s.stop ≤ byteSize c.text ∧
    IsBoundary c.text s.start ∧ IsBoundary c.text s.stop

/-- The numbers of a cursor over blocks fit its text. -/
structure BlockCursor.Safe (c : BlockCursor) : Prop where
  /-- the search goes on between two characters -/
  position : IsBoundary c.text c.position ∧ c.position ≤ byteSize c.text
  /-- the current block is a range of the text, and the text inside it a range of that -/
  ordered : ∀ b ∈ c.current, b.outer.start ≤ b.inner.start ∧ b.inner.start ≤ b.inner.stop ∧
    b.inner.stop ≤ b.outer.stop ∧ b.outer.stop ≤ byteSize c.text
  /-- both begin and end between two characters -/
  boundaries : ∀ b ∈ c.current, IsBoundary c.text b.outer.start ∧ IsBoundary c.text b.inner.start ∧
    IsBoundary c.text b.inner.stop ∧ IsBoundary c.text b.outer.stop
  /-- the lines of the next block's markers do not cross -/
  uncrossed : ∀ found, c.found? = some (some found) → ¬ found.Crosses

theorem ScalarWalk.safe_cursor {w : ScalarWalk} (h : w.Fits) : w.cursor.Safe := by
  have hposition : IsBoundary w.text (byteSize w.before) := isBoundary_append w.before w.rest
  refine ⟨⟨hposition, hposition.le⟩, fun s hs => ?_⟩
  obtain ⟨m, hm, rfl⟩ := Option.map_eq_some_iff.1 hs
  have htext : w.text = w.before ++ m.left ++ m.marker.source ++ m.right := by
    unfold text
    rw [h m hm]
    simp only [List.append_assoc]
  have hstart : IsBoundary w.text (byteSize (w.before ++ m.left)) := by
    rw [htext, List.append_assoc]
    exact isBoundary_append _ _
  have hstop : IsBoundary w.text (byteSize (w.before ++ m.left ++ m.marker.source)) := by
    rw [htext]
    exact isBoundary_append _ _
  rw [byteSize_append (w.before ++ m.left)] at hstop
  refine ⟨?_, Nat.le_add_right _ _, hstop.le, hstart, hstop⟩
  show byteSize w.before ≤ byteSize (w.before ++ m.left)
  rw [byteSize_append]
  exact Nat.le_add_right _ _

theorem BlockWalk.safe_cursor {w : BlockWalk} (h : w.Fits) : w.cursor.Safe := by
  have hposition : IsBoundary w.text (byteSize w.before) := isBoundary_append w.before w.rest
  have hcut : ∀ {b : Block}, b ∈ w.current → ∀ {x y : Text}, b.text = x ++ y →
      IsBoundary w.text (byteSize x) := by
    intro b hb x y hxy
    rw [← h b hb, hxy]
    exact isBoundary_append x y
  have hstop : ∀ b ∈ w.current, IsBoundary w.text b.spans.outer.stop := fun b hb => by
    have hcut := hcut hb (x := b.head ++ (b.opening ++ b.inner ++ b.closing)) (y := b.tail)
      (by unfold Block.text; simp only [List.append_assoc])
    rwa [byteSize_append] at hcut
  refine ⟨⟨hposition, hposition.le⟩, fun s hs => ?_, fun s hs => ?_, fun found hfound => ?_⟩
  · obtain ⟨b, hb, rfl⟩ := Option.map_eq_some_iff.1 hs
    refine ⟨?_, ?_, ?_, (hstop b hb).le⟩ <;> simp only [Block.spans, spanBehind, byteSize_append] <;> omega
  · obtain ⟨b, hb, rfl⟩ := Option.map_eq_some_iff.1 hs
    have hinner := hcut hb (x := b.head ++ b.opening ++ b.inner) (y := b.closing ++ b.tail)
      (by unfold Block.text; simp only [List.append_assoc])
    rw [byteSize_append (b.head ++ b.opening)] at hinner
    exact ⟨hcut hb (y := b.opening ++ (b.inner ++ (b.closing ++ b.tail)))
        (by unfold Block.text; simp only [List.append_assoc]),
      hcut hb (y := b.inner ++ (b.closing ++ b.tail)) (by unfold Block.text; simp only [List.append_assoc]),
      hinner, hstop b hb⟩
  · obtain ⟨found', hfound', -, -, huncrossed⟩ := found?_cursor w
    obtain rfl := Option.some.inj (hfound'.symm.trans hfound)
    exact huncrossed found rfl

/-- **A search finds the same again**, whatever looks were taken in between. -/
def Repeats {σ γ β : Type} (perform? : σ → StateT γ Option β) (next : σ) (looks : σ → Prop)
    (c : γ) : Prop :=
  ∀ ss : List σ, (∀ s ∈ ss, looks s) → ∃ answer answers c', perform? next c = some (answer, c') ∧
    ss.mapM perform? c' = some (answers, c') ∧ perform? next c' = some (answer, c')

theorem repeats_of_follows {σ α β γ : Type} {fits : α → Prop} {view : α → γ} {step : σ → StateM α β}
    {step? : σ → StateT γ Option β} {next : σ} {looks : σ → Prop}
    (h : ∀ s a, fits a → step? s (view a) = some ((step s a).1, view (step s a).2) ∧ fits (step s a).2)
    (hagain : ∀ a, step next (step next a).2 = step next a)
    (hlooks : ∀ s, looks s → ∀ a, (step s (step next a).2).2 = (step next a).2) {a : α} (ha : fits a) :
    Repeats step? next looks (view a) := by
  intro ss hss
  obtain ⟨hnext, hfits⟩ := h next a ha
  obtain ⟨hrun, -⟩ := mapM_follows h ss hfits
  have hstays : ∀ ss : List σ, (∀ s ∈ ss, looks s) → (ss.mapM step (step next a).2).2 = (step next a).2 := by
    intro ss
    induction ss with
    | nil => exact fun _ => rfl
    | cons s ss ih =>
      intro hss
      rw [List.mapM_cons]
      show (ss.mapM step (step s (step next a).2).2).2 = (step next a).2
      rw [hlooks s (hss s List.mem_cons_self) a]
      exact ih fun s hs => hss s (List.mem_cons_of_mem _ hs)
  rw [hstays ss hss] at hrun
  have hsecond := (h next _ hfits).1
  rw [hagain] at hsecond
  exact ⟨_, _, _, hnext, hrun, hsecond⟩

/-- **The cursors over a text are safe under any use.** Whatever a caller does to them, no step fails, each tells
    what the walk tells, and the numbers are those of the walk, which fit the text as it then is. -/
structure CursorsSafe (t : Text) : Prop where
  scalars : ∀ (p : Pattern) (placement : Placement) (steps : List ScalarStep),
    let run := steps.mapM ScalarWalk.perform (ScalarWalk.start p placement t)
    steps.mapM ScalarCursor.perform? (ScalarCursor.start p placement t) = some (run.1, run.2.cursor) ∧
      run.2.cursor.Safe ∧ Repeats ScalarCursor.perform? .next ScalarStep.Looks run.2.cursor
  blocks : ∀ (f : BlockFamily) (steps : List BlockStep),
    let run := steps.mapM BlockWalk.perform (BlockWalk.start f t)
    steps.mapM BlockCursor.perform? (BlockCursor.start f t) = some (run.1, run.2.cursor) ∧
      run.2.cursor.Safe ∧ Repeats BlockCursor.perform? .next BlockStep.Looks run.2.cursor

theorem cursorsSafe (t : Text) : CursorsSafe t where
  scalars p placement steps := by
    intro run
    have hstart : (ScalarWalk.start p placement t).Fits := fun _ hm => nomatch hm
    obtain ⟨hrun, hfits⟩ := mapM_follows ScalarWalk.perform?_cursor steps hstart
    refine ⟨hrun, ScalarWalk.safe_cursor hfits, ?_⟩
    refine repeats_of_follows ScalarWalk.perform?_cursor (fun _ => rfl) (fun s hs w => ?_) hfits
    cases s with
    | next => rfl
    | replace => exact hs.elim
  blocks f steps := by
    intro run
    have hstart : (BlockWalk.start f t).Fits := fun _ hb => nomatch hb
    obtain ⟨hrun, hfits⟩ := mapM_follows BlockWalk.perform?_cursor steps hstart
    refine ⟨hrun, BlockWalk.safe_cursor hfits, ?_⟩
    refine repeats_of_follows BlockWalk.perform?_cursor (fun _ => rfl) (fun s hs w => ?_) hfits
    cases s with
    | next => rfl
    | inner => rfl
    | keep => exact hs.elim
    | replace => exact hs.elim

/-- The line of a marker may begin ahead of where the search goes on. -/
example :
    let t := ' ' :: (braced "A_Start".toList ++ braced "A_End".toList ++ braced "A_Start".toList ++ '\n' ::
      braced "A_End".toList)
    let run := [.next, .keep true, .next].mapM BlockCursor.perform? (BlockCursor.start (.ofStem ['A']) t)
    run.map (fun r => (r.2.position, r.2.current.map fun b => b.outer.start)) = some (1, some 0) := by
  decide +kernel

end RecordExport

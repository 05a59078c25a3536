import RecordExport.Proofs.Template.MarkerLines
import RecordExport.Proofs.Template.Tokens
import RecordExport.Template.Block
/-!
# Where blocks are found

A block is found by its markers alone, and the lines they take by what stands beside them. Both are said
here once, so that a walk over blocks can be followed without its tokens and without its counting of
characters.

* `Balanced`: tokens whose markers of a family close each other. A search for an end marker goes past
  them (`findClose_append_of_balanced`);
* `findBlock_respelled`: nothing but the markers of a family matters for where a block of it is found;
* `Block.ofMatch_eq`: the parts of a block, by whether its two markers stand alone;
* `keepFrom`, `expandFrom`: a walk over conditions, and one over lists, from any point of the text on. Both
  go by one rule (`WalksBy`): an equation for the end and one for a block.
-/

namespace RecordExport

universe v

/-! ## 1. Markers that close each other -/

variable {f : BlockFamily}

theorem BlockFamily.not_isOpening_of_isClosing {t : Token} (h : f.isClosing t = true) :
    f.isOpening t = false := by
  unfold isClosing at h
  unfold isOpening
  rw [Bool.and_eq_true, decide_eq_true_eq] at h
  rw [h.1]
  rfl

theorem not_claims_of_unmarked {k : Token}
    (h : k.shape ≠ .blockStart ∧ k.shape ≠ .blockEnd) : f.isOpening k = false ∧ f.isClosing k = false := by
  unfold BlockFamily.isOpening BlockFamily.isClosing
  rw [decide_eq_false h.1, decide_eq_false h.2]
  exact ⟨rfl, rfl⟩

/-- Tokens whose markers of a family close each other. -/
inductive Balanced (f : BlockFamily) : List Token → Prop
  | nil : Balanced f []
  | other {t : Token} {ts : List Token} (opens : f.isOpening t = false)
      (closes : f.isClosing t = false) (rest : Balanced f ts) : Balanced f (t :: ts)
  | block {o e : Token} {inner ts : List Token} (opens : f.isOpening o = true)
      (inside : Balanced f inner) (closes : f.isClosing e = true) (rest : Balanced f ts) :
      Balanced f (o :: (inner ++ e :: ts))

theorem balanced_of_not_marker {ts : List Token}
    (h : ∀ t ∈ ts, f.isOpening t = false ∧ f.isClosing t = false) : Balanced f ts := by
  induction ts with
  | nil => exact .nil
  | cons t ts ih =>
    obtain ⟨ho, hc⟩ := h t List.mem_cons_self
    exact .other ho hc (ih fun t ht => h t (List.mem_cons_of_mem _ ht))

theorem findClose_of_opening {t : Token} (h : f.isOpening t = true) (depth : Nat) (ts : List Token) :
    findClose f depth (t :: ts) =
      (findClose f (depth + 1) ts).map fun m => { m with inner := t :: m.inner } := by
  rw [findClose.eq_def]
  exact if_pos h

theorem findClose_of_other {t : Token} (ho : f.isOpening t = false) (hc : f.isClosing t = false)
    (depth : Nat) (ts : List Token) :
    findClose f depth (t :: ts) =
      (findClose f depth ts).map fun m => { m with inner := t :: m.inner } := by
  rw [findClose.eq_def]
  dsimp only
  rw [if_neg (by rw [ho]; exact Bool.false_ne_true), if_neg (by rw [hc]; exact Bool.false_ne_true)]

theorem findClose_of_closing {t : Token} (h : f.isClosing t = true) (ts : List Token) :
    findClose f 0 (t :: ts) = some ⟨[], t, ts⟩ := by
  rw [findClose.eq_def]
  dsimp only
  rw [if_neg (by rw [f.not_isOpening_of_isClosing h]; exact Bool.false_ne_true), if_pos h]

theorem findClose_of_closing_succ {t : Token} (h : f.isClosing t = true) (depth : Nat)
    (ts : List Token) :
    findClose f (depth + 1) (t :: ts) =
      (findClose f depth ts).map fun m => { m with inner := t :: m.inner } := by
  rw [findClose.eq_def]
  dsimp only
  rw [if_neg (by rw [f.not_isOpening_of_isClosing h]; exact Bool.false_ne_true), if_pos h]

/-- **The search for an end marker goes past what is balanced.** -/
theorem findClose_append_of_balanced {ts : List Token} (h : Balanced f ts) (depth : Nat)
    (us : List Token) :
    findClose f depth (ts ++ us) =
      (findClose f depth us).map fun m => { m with inner := ts ++ m.inner } := by
  induction h generalizing depth us with
  | nil => exact Option.map_id'.symm
  | other ho hc _ ih =>
    rw [List.cons_append, findClose_of_other ho hc, ih, Option.map_map]
    rfl
  | @block o e inner ts ho _ hc _ ihi ihr =>
    have hsplit : o :: (inner ++ e :: ts) ++ us = o :: (inner ++ (e :: (ts ++ us))) := by simp
    have hinner : ∀ m : CloseMatch, o :: (inner ++ e :: ts) ++ m.inner =
        o :: (inner ++ (e :: (ts ++ m.inner))) := fun m => by simp
    simp only [hinner]
    rw [hsplit, findClose_of_opening ho, ihi, findClose_of_closing_succ hc, ihr]
    simp only [Option.map_map]
    rfl

/-! ## 2. The first block -/

/-- A match with tokens before it. -/
def BlockMatch.behind (ts : List Token) (m : BlockMatch) : BlockMatch := { m with left := ts ++ m.left }

/-- What does not open a closed block stands before the first one. -/
theorem findBlock_cons_of_open {t : Token} {ts : List Token}
    (h : f.isOpening t = false ∨ findClose f 0 ts = none) :
    findBlock f (t :: ts) = (findBlock f ts).map (BlockMatch.behind [t]) := by
  rw [findBlock]
  by_cases hs : t.shape = .blockStart
  · rcases h with h | h
    · have hcaptures : f.opens.captures t.name = none := by
        unfold BlockFamily.isOpening at h
        rw [hs] at h
        exact Option.not_isSome_iff_eq_none.1 (by simpa [Pattern.isMatch] using h)
      simp only [hs, hcaptures, if_true]
      rfl
    · simp only [hs, h, if_true]
      split
      · rename_i heq
        split at heq
        · rename_i hm
          cases hm
        · cases heq
      · rfl
  · simp only [hs, if_false]
    rfl

/-- A start marker whose block is closed begins the first block. -/
theorem findBlock_cons_of_closed {t : Token} {ts : List Token} (ho : f.isOpening t = true)
    {m : CloseMatch} (h : findClose f 0 ts = some m) :
    ∃ cs, f.opens.captures t.name = some cs ∧
      findBlock f (t :: ts) = some ⟨cs, [], t, m.inner, m.marker, m.right⟩ := by
  unfold BlockFamily.isOpening at ho
  rw [Bool.and_eq_true, decide_eq_true_eq] at ho
  obtain ⟨cs, hcs⟩ := Option.isSome_iff_exists.1 ho.2
  refine ⟨cs, hcs, ?_⟩
  rw [findBlock]
  simp only [ho.1, hcs, h, if_true]

/-- Without a start marker there is no block. -/
theorem findBlock_of_not_opening {ts : List Token} (h : ∀ t ∈ ts, f.isOpening t = false)
    (us : List Token) : findBlock f (ts ++ us) = (findBlock f us).map (BlockMatch.behind ts) := by
  induction ts with
  | nil => exact Option.map_id'.symm
  | cons t ts ih =>
    rw [List.cons_append, findBlock_cons_of_open (.inl (h t List.mem_cons_self)),
      ih fun t ht => h t (List.mem_cons_of_mem _ ht), Option.map_map]
    rfl

theorem isClosing_of_findClose {depth : Nat} {ts : List Token} {m : CloseMatch}
    (h : findClose f depth ts = some m) : f.isClosing m.marker = true := by
  have hmap : ∀ {depth t ts m}, (∀ {depth m}, findClose f depth ts = some m →
      f.isClosing m.marker = true) →
      ((findClose f depth ts).map fun m : CloseMatch => { m with inner := t :: m.inner }) = some m →
      f.isClosing m.marker = true := by
    intro depth t ts m ih h
    obtain ⟨m', hm', rfl⟩ := Option.map_eq_some_iff.1 h
    exact (ih hm' :)
  induction ts generalizing depth m with
  | nil => cases h
  | cons t ts ih =>
    rw [findClose.eq_def] at h
    dsimp only at h
    split at h
    · exact hmap ih h
    · split at h
      · rename_i hc
        split at h
        · obtain rfl := Option.some.inj h
          exact hc
        · exact hmap ih h
      · exact hmap ih h

/-- Both markers of a block are placeholders. -/
theorem exists_markers_of_findBlock {ts : List Token} {m : BlockMatch} (h : findBlock f ts = some m) :
    ∃ b e, m.opening = .placeholder b ∧ m.closing = .placeholder e := by
  have hshape : ∀ t : Token, t.shape ≠ .literal → ∃ b, t = .placeholder b := by
    intro t ht
    cases t with
    | literal => exact absurd rfl ht
    | placeholder b => exact ⟨b, rfl⟩
  induction ts generalizing m with
  | nil => cases h
  | cons t ts ih =>
    by_cases ho : f.isOpening t = true
    · cases hclose : findClose f 0 ts with
      | none =>
        rw [findBlock_cons_of_open (.inr hclose)] at h
        obtain ⟨m', hm', rfl⟩ := Option.map_eq_some_iff.1 h
        obtain ⟨b, e, hb, he⟩ := ih hm'
        exact ⟨b, e, hb, he⟩
      | some found =>
        obtain ⟨cs, -, hfound⟩ := findBlock_cons_of_closed ho hclose
        obtain rfl := Option.some.inj (hfound.symm.trans h)
        have hclosing := isClosing_of_findClose hclose
        unfold BlockFamily.isOpening at ho
        unfold BlockFamily.isClosing at hclosing
        rw [Bool.and_eq_true, decide_eq_true_eq] at ho hclosing
        obtain ⟨b, hb⟩ := hshape t (by rw [ho.1]; decide)
        obtain ⟨e, he⟩ := hshape found.marker (by rw [hclosing.1]; decide)
        exact ⟨b, e, hb, he⟩
    · rw [findBlock_cons_of_open (.inl (Bool.eq_false_iff.2 ho))] at h
      obtain ⟨m', hm', rfl⟩ := Option.map_eq_some_iff.1 h
      obtain ⟨b, e, hb, he⟩ := ih hm'
      exact ⟨b, e, hb, he⟩

/-! ## 3. Other tokens do not matter -/

/-- A way to write tokens otherwise that leaves placeholders and makes none. -/
structure Spelling (spell : Token → List Token) : Prop where
  literal : ∀ l, ∀ k ∈ spell (.literal l), k.isPlaceholder = false
  placeholder : ∀ b, spell (.placeholder b) = [.placeholder b]

/-- A match with its parts written otherwise. -/
def CloseMatch.spelledBy (spell : Token → List Token) (m : CloseMatch) : CloseMatch :=
  ⟨m.inner.flatMap spell, m.marker, m.right.flatMap spell⟩

/-- A match with its parts written otherwise. -/
def BlockMatch.spelledBy (spell : Token → List Token) (m : BlockMatch) : BlockMatch :=
  { m with
    left := m.left.flatMap spell
    inner := m.inner.flatMap spell
    right := m.right.flatMap spell }

section Spelled

variable {spell : Token → List Token}

/-- A way to write tokens otherwise that leaves the markers of a family and makes none. -/
def Respells (f : BlockFamily) (spell : Token → List Token) : Prop :=
  ∀ t, spell t = [t] ∨ (f.isOpening t = false ∧ f.isClosing t = false) ∧
    ∀ k ∈ spell t, f.isOpening k = false ∧ f.isClosing k = false

theorem Spelling.respells (h : Spelling spell) (f : BlockFamily) : Respells f spell := by
  intro t
  cases t with
  | placeholder b => exact .inl (h.placeholder b)
  | literal l =>
    refine .inr ⟨⟨rfl, rfl⟩, fun k hk => ?_⟩
    have hliteral := h.literal l k hk
    cases k with
    | literal m => exact ⟨rfl, rfl⟩
    | placeholder b => cases hliteral

/-- The search for an end marker goes by the markers alone. -/
theorem findClose_respelled (h : Respells f spell) (depth : Nat) (ts : List Token) :
    findClose f depth (ts.flatMap spell) = (findClose f depth ts).map (.spelledBy spell) := by
  induction ts generalizing depth with
  | nil => rfl
  | cons t ts ih =>
    rw [List.flatMap_cons]
    have hcons : ∀ m : CloseMatch, (CloseMatch.mk (t :: m.inner) m.marker m.right).spelledBy spell =
        ⟨spell t ++ (m.spelledBy spell).inner, m.marker, (m.spelledBy spell).right⟩ := fun m => by
      rw [CloseMatch.spelledBy, List.flatMap_cons]
      rfl
    rcases h t with hself | ⟨⟨ho, hc⟩, hnone⟩
    · rw [hself] at hcons ⊢
      have hgo : ∀ depth, (Option.map (fun m : CloseMatch => { m with inner := t :: m.inner })
            (findClose f depth (ts.flatMap spell))) =
          (Option.map (fun m : CloseMatch => { m with inner := t :: m.inner })
            (findClose f depth ts)).map (.spelledBy spell) := fun depth => by
        rw [ih, Option.map_map, Option.map_map]
        exact congrArg (Option.map · _) (funext fun m => (hcons m).symm)
      show findClose f depth (t :: ts.flatMap spell) = _
      by_cases ho : f.isOpening t = true
      · rw [findClose_of_opening ho, findClose_of_opening ho, hgo]
      · by_cases hc : f.isClosing t = true
        · cases depth with
          | zero =>
            rw [findClose_of_closing hc, findClose_of_closing hc]
            rfl
          | succ depth => rw [findClose_of_closing_succ hc, findClose_of_closing_succ hc, hgo]
        · have ho := Bool.eq_false_iff.2 ho
          have hc := Bool.eq_false_iff.2 hc
          rw [findClose_of_other ho hc, findClose_of_other ho hc, hgo]
    · rw [findClose_append_of_balanced (balanced_of_not_marker hnone), ih, findClose_of_other ho hc, Option.map_map,
        Option.map_map]
      exact congrArg (Option.map · _) (funext fun m => (hcons m).symm)

/-- **Where a block is found depends on the markers of its family alone.** -/
theorem findBlock_respelled (h : Respells f spell) (ts : List Token) :
    findBlock f (ts.flatMap spell) = (findBlock f ts).map (.spelledBy spell) := by
  induction ts with
  | nil => rfl
  | cons t ts ih =>
    rw [List.flatMap_cons]
    have hbehind : ((findBlock f ts).map (.spelledBy spell)).map (BlockMatch.behind (spell t)) =
        ((findBlock f ts).map (BlockMatch.behind [t])).map (.spelledBy spell) := by
      rw [Option.map_map, Option.map_map]
      refine congrArg (Option.map · _) (funext fun m => ?_)
      show BlockMatch.behind (spell t) (m.spelledBy spell) = (m.behind [t]).spelledBy spell
      unfold BlockMatch.spelledBy BlockMatch.behind
      rw [List.singleton_append, List.flatMap_cons]
    rcases h t with hself | ⟨⟨ho, -⟩, hnone⟩
    · rw [hself] at hbehind ⊢
      show findBlock f (t :: ts.flatMap spell) = _
      have hclose' := findClose_respelled h 0 ts
      by_cases ho : f.isOpening t = true
      · cases hclose : findClose f 0 ts with
        | none =>
          rw [hclose] at hclose'
          rw [findBlock_cons_of_open (.inr hclose), findBlock_cons_of_open (.inr hclose'), ih, hbehind]
        | some m =>
          rw [hclose] at hclose'
          obtain ⟨cs, hcs, hfound⟩ := findBlock_cons_of_closed ho hclose
          obtain ⟨cs', hcs', hfound'⟩ := findBlock_cons_of_closed ho hclose'
          obtain rfl := Option.some.inj (hcs.symm.trans hcs')
          rw [hfound, hfound']
          rfl
      · have ho := Bool.eq_false_iff.2 ho
        rw [findBlock_cons_of_open (.inl ho), findBlock_cons_of_open (.inl ho), ih, hbehind]
    · rw [findBlock_of_not_opening fun k hk => (hnone k hk).1, ih, hbehind, findBlock_cons_of_open (.inl ho)]

/-- The literals do not matter for it. -/
theorem findBlock_spelledBy (h : Spelling spell) (ts : List Token) :
    findBlock f (ts.flatMap spell) = (findBlock f ts).map (.spelledBy spell) :=
  findBlock_respelled (h.respells f) ts

end Spelled

/-! ## 4. The parts of a block -/

/-- The start marker between these texts stands alone. -/
def opensLine (left inner : Text) : Bool := (Text.lastLine left).all isPadding && inner.opensBlank

/-- The end marker between these texts stands alone. -/
def closesLine (inner right : Text) : Bool := inner.closesBlank && (Text.firstLine right).all isPadding

theorem standsAlone_opening (left inner e right : Text) :
    standsAlone left (inner ++ braced e ++ right) = opensLine left inner := by
  have hbrace : inner ++ braced e ++ right = inner ++ '{' :: ('{' :: (e ++ ['}', '}']) ++ right) := by
    simp [braced]
  unfold standsAlone opensLine
  rw [hbrace, Text.firstLine_padding_append rfl (by decide)]

theorem standsAlone_closing (left b inner right : Text) :
    standsAlone (left ++ braced b ++ inner) right = closesLine inner right := by
  have hbrace : left ++ braced b ++ inner = (left ++ '{' :: '{' :: (b ++ ['}'])) ++ '}' :: inner := by
    simp [braced]
  unfold standsAlone closesLine
  rw [hbrace, Text.lastLine_padding_append rfl (by decide)]

theorem lineExtent_opening (left inner e right : Text) :
    (lineExtent left (inner ++ braced e ++ right)).2 =
      if opensLine left inner then (Text.firstLine inner).length + 1 else 0 := by
  unfold lineExtent
  rw [standsAlone_opening]
  split
  · rename_i h
    obtain ⟨l, r, rfl, hl, -⟩ := Text.opensBlank_iff.1 (Bool.and_eq_true_iff.1 h).2
    have hsplit : l ++ '\n' :: r ++ braced e ++ right = l ++ '\n' :: (r ++ braced e ++ right) := by simp
    rw [hsplit, Text.firstLine_cons hl, Text.firstLine_cons hl]
    refine Nat.min_eq_left ?_
    simp only [List.length_append, List.length_cons]
    omega
  · rfl

theorem lineExtent_closing (left b inner right : Text) :
    (lineExtent (left ++ braced b ++ inner) right).1 =
      if closesLine inner right then (Text.lastLine inner).length else 0 := by
  unfold lineExtent
  rw [standsAlone_closing]
  split
  · rename_i h
    have hn : '\n' ∈ inner := Text.mem_of_closesBlank (Bool.and_eq_true_iff.1 h).1
    rw [(Text.lastLine_append_of_mem hn _).1]
  · rfl

/-- The lines that two markers take do not run into each other. -/
theorem lines_le (left inner right : Text) :
    (if opensLine left inner then (Text.firstLine inner).length + 1 else 0) +
      (if closesLine inner right then (Text.lastLine inner).length else 0) ≤ inner.length := by
  split
  · rename_i h
    obtain ⟨l, r, rfl, hl, -⟩ := Text.opensBlank_iff.1 (Bool.and_eq_true_iff.1 h).2
    have hlast := Text.lastLine_behindLine (t := l ++ '\n' :: r) (by simp)
    have hle := Text.length_lastLine_le r
    rw [Text.behindLine_cons hl] at hlast
    rw [← hlast, Text.firstLine_cons hl]
    simp only [List.length_append, List.length_cons]
    split <;> omega
  · have hle := Text.length_lastLine_le inner
    split <;> omega

/-- What is inside a block without the lines its markers take. -/
def innerLines (left inner right : Text) : Text :=
  let inner' := if opensLine left inner then inner.behindLine else inner
  if closesLine inner right then inner'.aheadOfLine else inner'

theorem dropLast_drop_lines (left inner right : Text) :
    dropLast (if closesLine inner right then (Text.lastLine inner).length else 0)
        (inner.drop (if opensLine left inner then (Text.firstLine inner).length + 1 else 0)) =
      innerLines left inner right := by
  unfold innerLines
  have hfront : inner.drop (if opensLine left inner then (Text.firstLine inner).length + 1 else 0) =
      if opensLine left inner then Text.behindLine inner else inner := by
    split <;> rfl
  rw [hfront]
  cases closesLine inner right with
  | false => exact dropLast_zero _
  | true =>
    show dropLast (Text.lastLine inner).length _ = Text.aheadOfLine _
    split
    · rename_i h
      have hn : '\n' ∈ inner := Text.mem_of_opensBlank (Bool.and_eq_true_iff.1 h).2
      unfold Text.aheadOfLine
      rw [Text.lastLine_behindLine hn]
    · rfl

/-- **The parts of a block, by whether its markers stand alone.** -/
theorem Block.ofMatch_eq (before : Text) {m : BlockMatch} {b e : Text} (ho : m.opening = .placeholder b)
    (hc : m.closing = .placeholder e) :
    let left := before ++ sourceOf m.left
    let inner := sourceOf m.inner
    let right := sourceOf m.right
    (ofMatch before m).captures = m.captures ∧
      (ofMatch before m).head = (if opensLine left inner then left.aheadOfLine else left) ∧
      (ofMatch before m).inner = innerLines left inner right ∧
      (ofMatch before m).tail = (if closesLine inner right then right.behindLine else right) := by
  have hfit := lines_le (before ++ sourceOf m.left) (sourceOf m.inner) (sourceOf m.right)
  rw [← lineExtent_opening _ _ e (sourceOf m.right),
    ← lineExtent_closing (before ++ sourceOf m.left) b] at hfit
  unfold ofMatch
  rw [ho, hc]
  dsimp only [Token.source]
  rw [if_pos hfit]
  refine ⟨rfl, ?_, ?_, ?_⟩
  · rw [dropLast_lineExtent, standsAlone_opening]
  · dsimp only
    rw [lineExtent_opening, lineExtent_closing, dropLast_drop_lines]
  · rw [drop_lineExtent, standsAlone_closing]

/-! ## 5. Walks from a point of the text on -/

section Walks

variable {m : Type → Type v} [Monad m]

namespace BlockWalk

variable {w : BlockWalk} {b : Block} {decision : List Text → m Bool} {render : Text → m Text}

theorem keepAllM_of_none (h : w.next.current = none) : w.keepAllM decision = pure w.text := by
  rw [keepAllM]
  split
  · rfl
  · rename_i b hb
    rw [h] at hb
    cases hb

theorem keepAllM_of_some (h : w.next.current = some b) :
    w.keepAllM decision = (do let kept ← decision b.captures; (w.next.keep kept).keepAllM decision) := by
  rw [keepAllM]
  split
  · rename_i hnone
    rw [h] at hnone
    cases hnone
  · rename_i b' hb
    obtain rfl := Option.some.inj (h.symm.trans hb)
    rfl

theorem replaceAllM_of_none (h : w.next.current = none) : w.replaceAllM render = pure w.text := by
  rw [replaceAllM]
  split
  · rfl
  · rename_i b hb
    rw [h] at hb
    cases hb

theorem replaceAllM_of_some (h : w.next.current = some b) :
    w.replaceAllM render =
      (do let rendered ← render b.inner; (w.next.replace rendered).replaceAllM render) := by
  rw [replaceAllM]
  split
  · rename_i hnone
    rw [h] at hnone
    cases hnone
  · rename_i b' hb
    obtain rfl := Option.some.inj (h.symm.trans hb)
    rfl

end BlockWalk

/-- Settle the conditions of a family in what is left of a text. -/
def keepFrom (f : BlockFamily) (decision : List Text → m Bool) (before rest : Text) : m Text :=
  (⟨f, before, rest, none⟩ : BlockWalk).keepAllM decision

/-- Replace the lists of a family in what is left of a text. -/
def expandFrom (f : BlockFamily) (render : Text → m Text) (before rest : Text) : m Text :=
  (⟨f, before, rest, none⟩ : BlockWalk).replaceAllM render

theorem keepBlocksM_eq (f : BlockFamily) (t : Text) (decision : List Text → m Bool) :
    keepBlocksM f t decision = keepFrom f decision [] t := rfl

theorem expandBlocksM_eq {α : Type} (f : BlockFamily) (t : Text) (items : List α)
    (render : α → ListPosition → Text → m Text) :
    expandBlocksM f t items render =
      expandFrom f (fun inner => do
        let rendered ← (positioned items).mapM fun a => render a.1 a.2 inner
        pure (joinItems rendered)) [] t := rfl

theorem next_current (f : BlockFamily) (before rest : Text) :
    (⟨f, before, rest, none⟩ : BlockWalk).next.current =
      (findBlock f (tokenize rest)).map (Block.ofMatch before) := rfl

/-- **How a walk goes**: to the end if no block is left, else with a step at the first one, which tells what
    is passed then and what is left. -/
structure WalksBy (f : BlockFamily) (step : Block → m (Text × Text)) (walk : Text → Text → m Text) :
    Prop where
  ends : ∀ {before rest : Text}, findBlock f (tokenize rest) = none →
    walk before rest = pure (before ++ rest)
  goes : ∀ {before rest : Text} {found : BlockMatch}, findBlock f (tokenize rest) = some found →
    walk before rest = step (Block.ofMatch before found) >>= fun p => walk p.1 p.2

/-- The step of a walk over conditions. -/
def keepStep (decision : List Text → m Bool) (b : Block) : m (Text × Text) := do
  let kept ← decision b.captures
  pure (b.head, if kept then b.inner ++ b.tail else b.tail)

/-- The step of a walk over lists. -/
def expandStep (render : Text → m Text) (b : Block) : m (Text × Text) := do
  let rendered ← render b.inner
  pure (b.head ++ rendered, b.tail)

theorem walksBy_keepFrom [LawfulMonad m] (f : BlockFamily) (decision : List Text → m Bool) :
    WalksBy f (keepStep decision) (keepFrom f decision) where
  ends {before rest} h := BlockWalk.keepAllM_of_none ((next_current f before rest).trans (congrArg _ h))
  goes {before rest found} h := by
    have hn := (next_current f before rest).trans (congrArg _ h)
    unfold keepFrom keepStep
    rw [BlockWalk.keepAllM_of_some hn, bind_assoc]
    refine bind_congr fun kept => ?_
    rw [pure_bind]
    unfold BlockWalk.keep
    rw [hn]
    rfl

theorem walksBy_expandFrom [LawfulMonad m] (f : BlockFamily) (render : Text → m Text) :
    WalksBy f (expandStep render) (expandFrom f render) where
  ends {before rest} h := BlockWalk.replaceAllM_of_none ((next_current f before rest).trans (congrArg _ h))
  goes {before rest found} h := by
    have hn := (next_current f before rest).trans (congrArg _ h)
    unfold expandFrom expandStep
    rw [BlockWalk.replaceAllM_of_some hn, bind_assoc]
    refine bind_congr fun rendered => ?_
    rw [pure_bind]
    unfold BlockWalk.replace
    rw [hn]
    rfl

/-- A text with one block and no other behind it: the block gives way to its items. -/
theorem expandBlocksM_of_only [LawfulMonad m] {α : Type} {f : BlockFamily} {t : Text} {found : BlockMatch}
    (hfound : findBlock f (tokenize t) = some found)
    (honly : findBlock f (tokenize (Block.ofMatch [] found).tail) = none) (items : List α)
    (render : α → ListPosition → Text → m Text) :
    let b := Block.ofMatch [] found
    let renderAll (inner : Text) : m Text := do
      let rendered ← (positioned items).mapM fun a => render a.1 a.2 inner
      pure (joinItems rendered)
    expandBlocksM f t items render = (do let listed ← renderAll b.inner; pure (b.head ++ listed ++ b.tail)) := by
  intro b renderAll
  have hwalk := walksBy_expandFrom f renderAll
  rw [expandBlocksM_eq]
  refine (hwalk.goes hfound).trans ?_
  unfold expandStep
  rw [bind_assoc]
  refine bind_congr fun listed => ?_
  rw [pure_bind]
  exact hwalk.ends honly

/-- Conditions that ask for nothing are settled without asking. -/
theorem keepBlocksM_pure [LawfulMonad m] (f : BlockFamily) (t : Text) (decision : List Text → Bool) :
    keepBlocksM f t (fun cs => (pure (decision cs) : m Bool)) = pure (keepBlocks f t decision) := by
  have hwalk := walksBy_keepFrom f fun cs => (pure (decision cs) : m Bool)
  have hwalk' := walksBy_keepFrom (m := Id) f decision
  have hgo : ∀ n before (t : Text), t.length ≤ n → keepFrom f (fun cs => (pure (decision cs) : m Bool))
      before t = pure (keepFrom (m := Id) f decision before t) := by
    intro n
    induction n using Nat.strong_induction_on with
    | _ n ih =>
      intro before t hn
      cases hfound : findBlock f (tokenize t) with
      | none =>
        rw [hwalk.ends hfound, hwalk'.ends hfound]
        rfl
      | some found =>
        have hlength := Block.length_ofMatch before hfound
        rw [source_tokenize] at hlength
        have hrest : (if decision (Block.ofMatch before found).captures then
            (Block.ofMatch before found).inner ++ (Block.ofMatch before found).tail
            else (Block.ofMatch before found).tail).length < n := by
          split
          · rw [List.length_append]
            omega
          · omega
        rw [hwalk.goes hfound, hwalk'.goes hfound]
        unfold keepStep
        rw [pure_bind, pure_bind]
        exact ih _ hrest _ _ (Nat.le_refl _)
  exact hgo t.length [] t (Nat.le_refl _)

/-- A text in which no block begins is passed. -/
theorem WalksBy.append {step : Block → m (Text × Text)} {walk : Text → Text → m Text}
    (h : WalksBy f step walk) {before a z : Text} {ts : List Token} (ha : sourceOf ts = a)
    (hfind : findBlock f (tokenize (a ++ z)) = (findBlock f (tokenize z)).map (.behind ts)) :
    walk before (a ++ z) = walk (before ++ a) z := by
  cases hz : findBlock f (tokenize z) with
  | none =>
    rw [hz] at hfind
    rw [h.ends hfind, h.ends hz, List.append_assoc]
  | some found =>
    rw [hz] at hfind
    have hmatch : Block.ofMatch before (found.behind ts) = Block.ofMatch (before ++ a) found := by
      have hleft : before ++ sourceOf (found.behind ts).left = before ++ a ++ sourceOf found.left := by
        rw [← ha, List.append_assoc, ← sourceOf_append]
        rfl
      unfold Block.ofMatch
      rw [hleft]
      rfl
    rw [h.goes hfind, h.goes hz, hmatch]

end Walks

end RecordExport

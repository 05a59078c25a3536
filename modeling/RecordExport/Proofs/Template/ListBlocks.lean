import RecordExport.Proofs.Template.BlockTree
import RecordExport.Proofs.Template.OnePass
import RecordExport.Proofs.Template.TrimmedLines
/-!
# Lists by the pairs of the original text

A walk over lists puts rendered text in the place of a block, goes past it, and cuts what is behind into tokens
again. What it does can be told from the original text: pair the markers of the family with a stack, and take
the pairs that lie in no other pair, from left to right.

* `outermost`, `expandPieces`: these pairs, and one step for each of them;
* `Piece`, `withoutPadding`: what comes of it is made of pieces of the original text and of rendered ones, and
  where a marker takes its line with it, only padding that was kept goes;
* `outermost_of_firstBlock`: the first block that a search finds is the first such pair;
* `expandFrom_eq`: from a point of the text on a walk does what the steps do;
* `LeftOf`, `leftOf_expandPieces`: what markers leave of the text between blocks, whatever is rendered;
* `expandBlocksM_expandsOnce`: **a list is put once in the place of each outermost block, and the text between them
  is left as it is, up to padding on the lines of markers**.
-/

namespace RecordExport

universe v

variable {f : BlockFamily}

/-! ## 1. Pieces -/

/-- A piece of the text that a walk over lists makes. -/
inductive Piece where
  /-- original text between two blocks -/
  | kept (t : Text)
  /-- what was put in the place of a block -/
  | put (t : Text)

namespace Piece

/-- The text that pieces make, the latest piece first. -/
def texts : List Piece → Text
  | [] => []
  | .kept t :: ps | .put t :: ps => texts ps ++ t

/-- The original text among pieces, the latest first. -/
def originals : List Piece → List Text
  | [] => []
  | .kept t :: ps => t :: originals ps
  | .put _ :: ps => originals ps

/-- The pieces without the padding they end with. What was put stays as it is. -/
def withoutPadding : List Piece → List Piece
  | [] => []
  | .kept t :: ps =>
    if t.all isPadding then .kept [] :: withoutPadding ps else .kept (t.rdropWhile isPadding) :: ps
  | .put t :: ps => if t = [] then .put t :: withoutPadding ps else .put t :: ps

/-- The pieces in front of a marker. If it stands alone the beginning of its line goes. -/
def aheadOfMarker (alone : Bool) (ps : List Piece) : List Piece := if alone then withoutPadding ps else ps

end Piece

/-! ## 2. The steps -/

/-- The tokens in front of a token and those behind it. -/
def tokensAround (x : Located) (ts : List Located) : List Located × List Located :=
  (ts.takeWhile (· ≠ x), (ts.dropWhile (· ≠ x)).tail)

/-- The text of located tokens. -/
def sourceAt (ts : List Located) : Text := sourceOf (ts.map (·.1))

/-- A text without its first line, if that goes. -/
def afterLine (dropsLine : Bool) (t : Text) : Text := if dropsLine then t.behindLine else t

/-- What is inside a block without the lines of its markers, if these stand alone. -/
def insideLines (opensAlone closesAlone : Bool) (inner : Text) : Text :=
  if closesAlone then (afterLine opensAlone inner).aheadOfLine else afterLine opensAlone inner

/-- The pairs that lie in no other pair. -/
def outermost (pairs : List (Located × Located)) : List (Located × Located) :=
  pairs.filter fun p => !pairs.any fun q => q.1.2.start < p.1.2.start && p.2.2.start < q.2.2.start

/-- Put what is rendered in the place of blocks, given by their markers from left to right. `made` is what was
    made so far, and `dropsLine` tells that the last marker takes the rest of its line with it. A marker that
    stands alone in the text as it is made so far takes its line with it. -/
def expandPieces {m : Type → Type v} [Monad m] (render : Text → m (List Text)) :
    (made : List Piece) → (dropsLine : Bool) → List Located → List (Located × Located) → m (List Piece)
  | made, dropsLine, ts, [] => pure (.kept (afterLine dropsLine (sourceAt ts)) :: made)
  | made, dropsLine, ts, (o, e) :: pairs => do
    let around := tokensAround o ts
    let inside := tokensAround e around.2
    let made := .kept (afterLine dropsLine (sourceAt around.1)) :: made
    let inner := sourceAt inside.1
    let right := sourceAt inside.2
    let opensAlone := standsAlone (Piece.texts made) (inner ++ e.1.source ++ right)
    let closesAlone := standsAlone (Piece.texts made ++ o.1.source ++ inner) right
    let items ← render (insideLines opensAlone closesAlone inner)
    expandPieces render (.put (joinItems items) :: Piece.aheadOfMarker opensAlone made) closesAlone inside.2 pairs

/-- The original text outside of blocks. -/
def outside : List Located → List (Located × Located) → List Text
  | ts, [] => [sourceAt ts]
  | ts, (o, e) :: pairs =>
    sourceAt (tokensAround o ts).1 :: outside (tokensAround e (tokensAround o ts).2).2 pairs

/-! ## 3. Padding at the end -/

theorem rdropWhile_append_of_all {p : Char → Bool} {a b : Text} (h : b.all p = true) :
    (a ++ b).rdropWhile p = a.rdropWhile p := by
  unfold List.rdropWhile
  rw [List.reverse_append, List.dropWhile_append_of_pos]
  exact fun c hc => List.all_eq_true.1 h c (List.mem_reverse.1 hc)

theorem rdropWhile_append_of_not_all {p : Char → Bool} (a : Text) {b : Text} (h : ¬ b.all p = true) :
    (a ++ b).rdropWhile p = a ++ b.rdropWhile p := by
  unfold List.rdropWhile
  have hne : (b.reverse.dropWhile p).isEmpty = false := by
    rw [List.isEmpty_eq_false_iff, ne_eq, List.dropWhile_eq_nil_iff]
    exact fun hall => h (List.all_eq_true.2 fun c hc => hall c (List.mem_reverse.2 hc))
  rw [List.reverse_append, List.dropWhile_append, hne, if_neg Bool.false_ne_true, List.reverse_append,
    List.reverse_reverse]

/-- A last line of padding is the padding at the end. -/
theorem aheadOfLine_eq_rdropWhile {t : Text} (h : (Text.lastLine t).all isPadding = true) :
    t.aheadOfLine = t.rdropWhile isPadding := by
  by_cases hn : '\n' ∈ t
  · obtain ⟨l, r, rfl, hr⟩ := Text.eq_append_lastLine_of_mem hn
    rw [Text.lastLine_cons hr] at h
    have hsplit : l ++ '\n' :: r = (l ++ ['\n']) ++ r := by simp
    rw [Text.aheadOfLine_cons hr, hsplit, rdropWhile_append_of_all h]
    exact (List.rdropWhile_concat_neg _ _ _ (by decide)).symm
  · rw [Text.lastLine_of_not_mem hn] at h
    rw [Text.aheadOfLine_of_not_mem hn]
    exact (List.rdropWhile_eq_nil_iff.2 (List.all_eq_true.1 h)).symm

/-- The last line of a text is not padding alone, unless there is nothing on it. -/
def Settled (t : Text) : Prop := t = [] ∨ t.getLast? = some '\n' ∨ ¬ (Text.lastLine t).all isPadding = true

theorem lastLine_joinLines (ls : List Text) {l : Text} (h : '\n' ∉ l) :
    Text.lastLine (joinLines (ls ++ [l])) = l := by
  rcases List.eq_nil_or_concat' ls with rfl | ⟨ls, m, rfl⟩
  · exact Text.lastLine_of_not_mem h
  · have hjoin : joinLines (ls ++ [m] ++ [l]) = joinLines (ls ++ [m]) ++ '\n' :: l := by
      have happend := joinLines_append ls m [] [l]
      rw [List.append_nil] at happend
      rw [List.append_assoc]
      exact happend
    rw [hjoin, Text.lastLine_cons h]

theorem allBlank_of_padding {l : Text} (h : l.all isPadding = true) : Text.allBlank l = true := by
  refine List.all_eq_true.2 fun c hc => ?_
  have hpadding := List.all_eq_true.1 h c hc
  simp only [isPadding, Bool.or_eq_true, decide_eq_true_eq] at hpadding
  rcases hpadding with (rfl | rfl) | rfl <;> rfl

/-- What is put in the place of a block ends with ink or with a line feed. -/
theorem settled_joinItems (items : List Text) : Settled (joinItems items) := by
  unfold joinItems
  dsimp only
  split
  · exact .inr (.inl List.getLast?_concat)
  · generalize items.flatten = t
    have htrim : trimBlankLines t =
        joinLines (((splitLines t).dropWhile Text.allBlank).rdropWhile Text.allBlank) := rfl
    rw [htrim]
    rcases List.eq_nil_or_concat' (((splitLines t).dropWhile Text.allBlank).rdropWhile Text.allBlank) with
      hls | ⟨ls, l, hls⟩
    · rw [hls]
      exact .inl rfl
    · -- the last line that is left is not blank
      have hmem : l ∈ ((splitLines t).dropWhile Text.allBlank).rdropWhile Text.allBlank := by
        rw [hls]
        exact List.mem_append_right _ List.mem_cons_self
      have hline := (List.dropWhile_sublist _).mem ((List.rdropWhile_prefix _ _).sublist.mem hmem)
      have hink := List.rdropWhile_last_not Text.allBlank _ (by rw [hls]; simp)
      simp only [hls, List.getLast_concat] at hink
      rw [hls]
      refine .inr (.inr fun hpadding => hink ?_)
      rw [lastLine_joinLines ls (not_mem_of_mem_splitLines hline)] at hpadding
      exact allBlank_of_padding hpadding

/-- **Only padding that was kept goes**: where the last line of the pieces is padding it is their padding. -/
theorem texts_withoutPadding {ps : List Piece} (hput : ∀ t, .put t ∈ ps → Settled t)
    (h : (Text.lastLine (Piece.texts ps)).all isPadding = true) :
    Piece.texts (Piece.withoutPadding ps) = (Piece.texts ps).rdropWhile isPadding := by
  induction ps with
  | nil => rfl
  | cons p ps ih =>
    have hrest := ih fun t ht => hput t (List.mem_cons_of_mem _ ht)
    -- in front of a text that is all padding the last line is padding too
    have hfront : ∀ {t : Text}, t.all isPadding = true →
        (Text.lastLine (Piece.texts ps ++ t)).all isPadding = true →
        (Text.lastLine (Piece.texts ps)).all isPadding = true := by
      intro t ht hall
      rw [Text.lastLine_append_of_not_mem (not_mem_of_padding ht rfl), List.all_append] at hall
      exact (Bool.and_eq_true_iff.1 hall).1
    cases p with
    | kept t =>
      rw [Piece.texts] at h ⊢
      rw [Piece.withoutPadding]
      split
      · rename_i ht
        rw [Piece.texts, List.append_nil, hrest (hfront ht h), rdropWhile_append_of_all ht]
      · rename_i ht
        rw [Piece.texts, rdropWhile_append_of_not_all _ ht]
    | put t =>
      rw [Piece.texts] at h ⊢
      rw [Piece.withoutPadding]
      split
      · rename_i ht
        subst ht
        rw [List.append_nil] at h
        rw [Piece.texts, List.append_nil, List.append_nil, hrest h]
      · rename_i hne
        rw [Piece.texts]
        rcases hput t List.mem_cons_self with ht | ht | ht
        · exact absurd ht hne
        · obtain ⟨t, rfl⟩ := List.getLast?_eq_some_iff.1 ht
          rw [← List.append_assoc]
          exact (List.rdropWhile_concat_neg _ _ _ (by decide)).symm
        · refine absurd ?_ ht
          by_cases hn : '\n' ∈ t
          · rwa [(Text.lastLine_append_of_mem hn _).1] at h
          · rw [Text.lastLine_append_of_not_mem hn, List.all_append] at h
            rw [Text.lastLine_of_not_mem hn]
            exact (Bool.and_eq_true_iff.1 h).2

theorem texts_aheadOfMarker {ps : List Piece} (hput : ∀ t, .put t ∈ ps → Settled t) {alone : Bool}
    (h : alone = true → (Text.lastLine (Piece.texts ps)).all isPadding = true) :
    Piece.texts (Piece.aheadOfMarker alone ps) =
      if alone then (Piece.texts ps).aheadOfLine else Piece.texts ps := by
  unfold Piece.aheadOfMarker
  cases alone with
  | true => exact (texts_withoutPadding hput (h rfl)).trans (aheadOfLine_eq_rdropWhile (h rfl)).symm
  | false => rfl

/-- What was put is put before a marker too. -/
theorem mem_of_mem_aheadOfMarker {ps : List Piece} {alone : Bool} {t : Text}
    (h : .put t ∈ Piece.aheadOfMarker alone ps) : .put t ∈ ps := by
  have hgo : ∀ ps : List Piece, .put t ∈ Piece.withoutPadding ps → .put t ∈ ps := by
    intro ps h
    fun_induction Piece.withoutPadding ps with
    | case1 => exact h
    | case2 s ps _ ih => exact List.mem_cons_of_mem _ (ih ((List.mem_cons.1 h).resolve_left Piece.noConfusion))
    | case3 s ps _ => exact List.mem_cons_of_mem _ ((List.mem_cons.1 h).resolve_left Piece.noConfusion)
    | case4 ps ih =>
      rcases List.mem_cons.1 h with heq | h
      · exact heq ▸ List.mem_cons_self
      · exact List.mem_cons_of_mem _ (ih h)
    | case5 s ps _ => exact h
  unfold Piece.aheadOfMarker at h
  split at h
  · exact hgo ps h
  · exact h

/-! ## 4. The first block -/

/-- Without a first line of padding a text has the same first block, and less in front of it. -/
theorem findBlock_afterLine {ts : List Located} (hcut : WellCut (ts.map (·.1))) {dropsLine : Bool}
    (h : dropsLine = true → (Text.firstLine (sourceAt ts)).all isPadding = true) :
    (findBlock f (ts.map (·.1)) = none → findBlock f (tokenize (afterLine dropsLine (sourceAt ts))) = none) ∧
      ∀ m, findBlock f (ts.map (·.1)) = some m → ∃ ls,
        findBlock f (tokenize (afterLine dropsLine (sourceAt ts))) = some { m with left := ls } ∧
          sourceOf ls = afterLine dropsLine (sourceOf m.left) := by
  unfold afterLine sourceAt at *
  generalize ts.map (·.1) = ks at hcut h ⊢
  rename' hcut => hks
  cases dropsLine with
  | false =>
    rw [if_neg Bool.false_ne_true, tokenize_sourceOf hks]
    exact ⟨id, fun m hm => ⟨m.left, hm, rfl⟩⟩
  | true =>
    have h := h rfl
    simp only [if_true]
    rw [tokenize_behindLine hks h]
    cases ks with
    | nil => exact ⟨id, fun m hm => by cases hm⟩
    | cons k ks =>
      cases k with
      | placeholder b =>
        rw [sourceOf_cons, Token.source, not_padding_firstLine_braced] at h
        cases h
      | literal l =>
        have hliteral : ∀ l, findBlock f (.literal l :: ks) = (findBlock f ks).map (.behind [.literal l]) := fun l =>
          findBlock_cons_of_open (.inl rfl)
        rw [hliteral, tokensBehindLine]
        constructor
        · intro hnone
          have hnone := Option.map_eq_none_iff.1 hnone
          split
          · exact hnone
          · rw [hliteral, hnone]
            rfl
        · intro m hm
          obtain ⟨m, hm', rfl⟩ := Option.map_eq_some_iff.1 hm
          have hne : ks ≠ [] := fun hnil => by
            rw [hnil] at hm'
            cases hm'
          have hleft : Text.behindLine (sourceOf (m.behind [.literal l]).left) = l.behindLine ++ sourceOf m.left :=
            (Text.firstLine_append_of_mem (mem_of_padding_firstLine hks hne h) _).2
          rw [hleft]
          split
          · rename_i hl
            rw [hl]
            exact ⟨m.left, hm', rfl⟩
          · rw [hliteral, hm']
            exact ⟨.literal l.behindLine :: m.left, rfl, rfl⟩

section FirstBlock

variable {ts left inner right : List Located} {o e : Located} {found : BlockMatch}

theorem tokensAround_append {x : Located} {ls : List Located} (h : x ∉ ls) (rs : List Located) :
    tokensAround x (ls ++ x :: rs) = (ls, rs) := by
  have hall : ∀ y ∈ ls, decide (y ≠ x) = true := fun y hy => decide_eq_true fun heq => h (heq ▸ hy)
  have hstop : (x :: rs).takeWhile (· ≠ x) = [] := by simp
  have hbehind : (x :: rs).dropWhile (· ≠ x) = x :: rs := by simp
  unfold tokensAround
  rw [List.takeWhile_append_of_pos hall, List.dropWhile_append_of_pos hall, hstop, hbehind, List.append_nil]
  rfl

/-- **The first block that a search finds is the first of the outermost pairs**, and the others are the outermost
    pairs behind it. -/
theorem outermost_of_firstBlock (h : FirstBlock f ts found left o inner e right)
    (hsorted : ts.Pairwise fun a b => a.2.start < b.2.start) :
    outermost (f.pairing [] ts).pairs = (o, e) :: outermost (f.pairing [] right).pairs := by
  rw [h.tokens, List.pairwise_append, List.pairwise_cons, List.pairwise_append, List.pairwise_cons] at hsorted
  obtain ⟨-, ⟨ho, -, ⟨her, -⟩, hie⟩, -⟩ := hsorted
  have hoi : ∀ x ∈ inner, o.2.start < x.2.start := fun x hx => ho x (List.mem_append_left _ hx)
  have hoe : o.2.start < e.2.start := ho e (List.mem_append_right _ List.mem_cons_self)
  have hie : ∀ x ∈ inner, x.2.start < e.2.start := fun x hx => hie x hx e List.mem_cons_self
  have hin := madeOf_pairing f inner
  have hout := madeOf_pairing f right
  unfold outermost
  rw [h.pairs, List.filter_append, List.filter_cons]
  have hins : (f.pairing [] inner).pairs.filter (fun p => !((f.pairing [] inner).pairs ++
      (o, e) :: (f.pairing [] right).pairs).any fun q => q.1.2.start < p.1.2.start && p.2.2.start < q.2.2.start) =
      [] := by
    refine List.filter_eq_nil_iff.2 fun p hp => ?_
    rw [Bool.not_eq_true, Bool.not_eq_false', List.any_eq_true]
    refine ⟨(o, e), List.mem_append_right _ List.mem_cons_self, ?_⟩
    simpa using ⟨hoi p.1 (hin p hp).1, hie p.2 (hin p hp).2⟩
  rw [hins, List.nil_append, if_pos]
  · refine congrArg _ (List.filter_congr fun p hp => congrArg _ ?_)
    have hp := hout p hp
    have hother : ∀ q ∈ (f.pairing [] inner).pairs,
        (decide (q.1.2.start < p.1.2.start) && decide (p.2.2.start < q.2.2.start)) = false := fun q hq => by
      have hq := hie q.2 (hin q hq).2
      have hpe := her p.2 hp.2
      simp only [Bool.and_eq_false_iff, decide_eq_false_iff_not]
      omega
    rw [List.any_append, List.any_eq_false.2 fun q hq => by rw [hother q hq]; exact Bool.false_ne_true,
      Bool.false_or, List.any_cons, decide_eq_false (p := p.2.2.start < e.2.start), Bool.and_false, Bool.false_or]
    exact Nat.not_lt.2 (Nat.le_of_lt (her p.2 hp.2))
  · rw [Bool.not_eq_true', List.any_eq_false]
    intro q hq
    simp only [Bool.and_eq_true, decide_eq_true_eq, not_and, Nat.not_lt]
    intro hlt
    rcases List.mem_append.1 hq with hq | hq
    · exact absurd hlt (Nat.not_lt.2 (Nat.le_of_lt (hoi q.1 (hin q hq).1)))
    · rcases List.mem_cons.1 hq with rfl | hq
      · exact absurd hlt (Nat.lt_irrefl _)
      · have := her q.1 (hout q hq).1
        omega

/-- The markers of the first block, and what is cut off at them. -/
structure FirstBlock.Cut (f : BlockFamily) (ts left : List Located) (o : Located) (inner : List Located)
    (e : Located) (right : List Located) : Prop where
  opening : ∃ b, o.1 = .placeholder b
  closing : ∃ b, e.1 = .placeholder b
  around : tokensAround o ts = (left, inner ++ e :: right)
  inside : tokensAround e (inner ++ e :: right) = (inner, right)
  rest_cut : WellCut (right.map (·.1))
  rest_sorted : right.Pairwise fun a b => a.2.start < b.2.start
  rest_shorter : right.length < ts.length

theorem FirstBlock.cut (h : FirstBlock f ts found left o inner e right)
    (hfound : findBlock f (ts.map (·.1)) = some found) (hcut : WellCut (ts.map (·.1)))
    (hsorted : ts.Pairwise fun a b => a.2.start < b.2.start) : Cut f ts left o inner e right := by
  obtain ⟨b, d, hb, hd⟩ := exists_markers_of_findBlock hfound
  have hlength := congrArg List.length h.tokens
  rw [h.tokens, List.map_append, List.map_cons, List.map_append, List.map_cons] at hcut
  rw [h.tokens, List.pairwise_append, List.pairwise_cons, List.pairwise_append, List.pairwise_cons] at hsorted
  obtain ⟨-, ⟨-, -, ⟨-, hright⟩, hie⟩, hleft⟩ := hsorted
  have hol : o ∉ left := fun hmem => absurd (hleft o hmem o List.mem_cons_self) (Nat.lt_irrefl _)
  have hei : e ∉ inner := fun hmem => absurd (hie e hmem e List.mem_cons_self) (Nat.lt_irrefl _)
  refine ⟨⟨b, ?_⟩, ⟨d, ?_⟩, ?_, tokensAround_append hei right, hcut.of_append.tail.of_append.tail,
    hright, ?_⟩
  · rw [h.eq] at hb
    exact hb
  · rw [h.eq] at hd
    exact hd
  · rw [h.tokens]
    exact tokensAround_append hol _
  · simp only [List.length_append, List.length_cons] at hlength
    omega

end FirstBlock

/-! ## 5. The walk and the steps -/

section Walk

variable {m : Type → Type v} [Monad m] {render : Text → m (List Text)} {made : List Piece} {dropsLine : Bool}
  {ts left inner right : List Located} {o e : Located}

/-- **The step for a block**, with its markers seen from inside it and from beside it. -/
theorem expandPieces_block (h : FirstBlock.Cut f ts left o inner e right) (pairs : List (Located × Located)) :
    let kept := Piece.kept (afterLine dropsLine (sourceAt left)) :: made
    expandPieces render made dropsLine ts ((o, e) :: pairs) = (do
      let items ← render (innerLines (Piece.texts kept) (sourceAt inner) (sourceAt right))
      expandPieces render
        (.put (joinItems items) :: Piece.aheadOfMarker (opensLine (Piece.texts kept) (sourceAt inner)) kept)
        (closesLine (sourceAt inner) (sourceAt right)) right pairs) := by
  obtain ⟨b, ho⟩ := h.opening
  obtain ⟨d, he⟩ := h.closing
  dsimp only
  rw [expandPieces, h.around]
  dsimp only
  rw [h.inside, ho, he]
  dsimp only [Token.source]
  rw [standsAlone_opening, standsAlone_closing]
  rfl

variable [LawfulMonad m]

/-- The walk at the first block. -/
theorem expandFrom_block {found : BlockMatch} (h : FirstBlock f ts found left o inner e right)
    (hfound : findBlock f (ts.map (·.1)) = some found) (hcut : WellCut (ts.map (·.1)))
    (hdrops : dropsLine = true → (Text.firstLine (sourceAt ts)).all isPadding = true) (before : Text) :
    let passed := before ++ afterLine dropsLine (sourceAt left)
    expandFrom f (fun inner => joinItems <$> render inner) before (afterLine dropsLine (sourceAt ts)) = (do
      let items ← render (innerLines passed (sourceAt inner) (sourceAt right))
      expandFrom f (fun inner => joinItems <$> render inner)
        ((if opensLine passed (sourceAt inner) then passed.aheadOfLine else passed) ++ joinItems items)
        (afterLine (closesLine (sourceAt inner) (sourceAt right)) (sourceAt right))) := by
  have hwalk := walksBy_expandFrom f fun inner => joinItems <$> render inner
  obtain ⟨ls, hfound', hls⟩ := (findBlock_afterLine (f := f) hcut hdrops).2 found hfound
  obtain ⟨b, d, hsplits⟩ := exists_splits hfound'
  obtain ⟨-, hhead, hinner, htail⟩ := Block.ofMatch_eq before hsplits.opening hsplits.closing
  have hleft : sourceOf found.left = sourceAt left := congrArg (sourceOf ·.left) h.eq
  have hin : sourceOf found.inner = sourceAt inner := congrArg (sourceOf ·.inner) h.eq
  have hright : sourceOf found.right = sourceAt right := congrArg (sourceOf ·.right) h.eq
  dsimp only at hhead hinner htail
  rw [hls, hleft, hin] at hhead
  rw [hls, hleft, hin, hright] at hinner
  rw [hin, hright] at htail
  dsimp only
  rw [hwalk.goes hfound', expandStep, hinner, bind_map_left, bind_assoc]
  refine bind_congr fun items => ?_
  rw [pure_bind, hhead, htail]
  rfl

/-- **From a point of the text on a walk does what the steps do** for the outermost pairs of the tokens that are
    left. -/
theorem expandFrom_eq (hcut : WellCut (ts.map (·.1))) (hsorted : ts.Pairwise fun a b => a.2.start < b.2.start)
    (hput : ∀ t, .put t ∈ made → Settled t)
    (hdrops : dropsLine = true → (Text.firstLine (sourceAt ts)).all isPadding = true) :
    expandFrom f (fun inner => joinItems <$> render inner) (Piece.texts made) (afterLine dropsLine (sourceAt ts)) =
      Piece.texts <$> expandPieces render made dropsLine ts (outermost (f.pairing [] ts).pairs) := by
  induction hn : ts.length using Nat.strong_induction_on generalizing made dropsLine ts with
  | _ n ih =>
    cases hfound : findBlock f (ts.map (·.1)) with
    | none =>
      have hwalk := walksBy_expandFrom f fun inner => joinItems <$> render inner
      rw [hwalk.ends ((findBlock_afterLine hcut hdrops).1 hfound), BlockFamily.pairs_of_findBlock_eq_none hfound]
      show _ = Piece.texts <$> pure _
      rw [map_pure]
      rfl
    | some found =>
      obtain ⟨left, o, inner, e, right, hfirst⟩ := exists_firstBlock hfound
      have hparts := hfirst.cut hfound hcut hsorted
      rw [outermost_of_firstBlock hfirst hsorted, expandPieces_block hparts,
        expandFrom_block hfirst hfound hcut hdrops, map_bind]
      refine bind_congr fun items => ?_
      have hsettled : ∀ t, .put t ∈ Piece.kept (afterLine dropsLine (sourceAt left)) :: made → Settled t :=
        fun t ht => hput t ((List.mem_cons.1 ht).resolve_left Piece.noConfusion)
      generalize hkept : Piece.kept (afterLine dropsLine (sourceAt left)) :: made = kept at hsettled ⊢
      have htexts : Piece.texts made ++ afterLine dropsLine (sourceAt left) = Piece.texts kept := hkept ▸ rfl
      have hopens : opensLine (Piece.texts kept) (sourceAt inner) = true →
          (Text.lastLine (Piece.texts kept)).all isPadding = true := fun h => (Bool.and_eq_true_iff.1 h).1
      have hcloses : closesLine (sourceAt inner) (sourceAt right) = true →
          (Text.firstLine (sourceAt right)).all isPadding = true := fun h => (Bool.and_eq_true_iff.1 h).2
      rw [htexts, ← texts_aheadOfMarker hsettled hopens]
      show expandFrom f _ (Piece.texts (.put (joinItems items) :: _)) _ = _
      refine ih right.length (hn ▸ hparts.rest_shorter) hparts.rest_cut hparts.rest_sorted
        (fun t ht => ?_) hcloses rfl
      rcases List.mem_cons.1 ht with heq | ht
      · obtain rfl := Piece.put.inj heq
        exact settled_joinItems items
      · exact hsettled t (mem_of_mem_aheadOfMarker ht)

end Walk

/-! ## 6. What is kept -/

/-- What markers leave of a text between them: with the marker in front of it the rest of its line may go, that is
    padding and a line feed, and with the marker behind it the padding it ends with. -/
def LeftOf (t kept : Text) : Prop :=
  ∃ a b, t = a ++ (kept ++ b) ∧ (a.all isPadding = true ∨ ∃ p, a = p ++ ['\n'] ∧ p.all isPadding = true) ∧
    b.all isPadding = true

theorem leftOf_afterLine {dropsLine : Bool} {t : Text}
    (h : dropsLine = true → (Text.firstLine t).all isPadding = true) : LeftOf t (afterLine dropsLine t) := by
  unfold afterLine
  cases dropsLine with
  | false => exact ⟨[], [], (List.append_nil t).symm, .inl rfl, rfl⟩
  | true =>
    have hfirst := h rfl
    rw [if_pos rfl]
    by_cases hn : '\n' ∈ t
    · obtain ⟨l, r, rfl, hl⟩ := List.eq_append_cons_of_mem hn
      rw [Text.firstLine_cons hl] at hfirst
      rw [Text.behindLine_cons hl]
      exact ⟨l ++ ['\n'], [], by simp, .inr ⟨l, rfl, hfirst⟩, rfl⟩
    · rw [Text.firstLine_of_not_mem hn] at hfirst
      rw [Text.behindLine_of_not_mem hn]
      exact ⟨t, [], (List.append_nil t).symm, .inl hfirst, rfl⟩

theorem LeftOf.rdropWhile {t kept : Text} (h : LeftOf t kept) : LeftOf t (kept.rdropWhile isPadding) := by
  obtain ⟨a, b, rfl, ha, hb⟩ := h
  refine ⟨a, kept.rtakeWhile isPadding ++ b, ?_, ha, ?_⟩
  · rw [← List.append_assoc (kept.rdropWhile isPadding), List.rdropWhile_append_rtakeWhile]
  · rw [List.all_append, hb, Bool.and_true]
    exact List.all_eq_true.2 fun c hc => List.mem_rtakeWhile_imp hc

theorem leftOf_withoutPadding {ts : List Text} {ps : List Piece}
    (h : List.Forall₂ LeftOf ts (Piece.originals ps)) :
    List.Forall₂ LeftOf ts (Piece.originals (Piece.withoutPadding ps)) := by
  fun_induction Piece.withoutPadding ps generalizing ts with
  | case1 => exact h
  | case2 t ps hall ih =>
    obtain ⟨s, ss, hs, hss, rfl⟩ := List.forall₂_cons_right_iff.1 h
    have hnil := List.rdropWhile_eq_nil_iff.2 (List.all_eq_true.1 hall)
    exact .cons (hnil ▸ hs.rdropWhile) (ih hss)
  | case3 t ps hall =>
    obtain ⟨s, ss, hs, hss, rfl⟩ := List.forall₂_cons_right_iff.1 h
    exact .cons hs.rdropWhile hss
  | case4 ps ih => exact ih h
  | case5 => exact h

/-- Only padding goes in front of a marker. -/
theorem leftOf_aheadOfMarker {ts : List Text} {ps : List Piece} (alone : Bool)
    (h : List.Forall₂ LeftOf ts (Piece.originals ps)) :
    List.Forall₂ LeftOf ts (Piece.originals (Piece.aheadOfMarker alone ps)) := by
  cases alone with
  | true => exact leftOf_withoutPadding h
  | false => exact h

/-- A first line of padding begins with padding. -/
theorem padding_of_firstLine_append {a z : Text} (h : (Text.firstLine (a ++ z)).all isPadding = true) :
    (Text.firstLine a).all isPadding = true := by
  by_cases hn : '\n' ∈ a
  · rwa [(Text.firstLine_append_of_mem hn z).1] at h
  · rw [Text.firstLine_append_of_not_mem hn, List.all_append] at h
    rw [Text.firstLine_of_not_mem hn]
    exact (Bool.and_eq_true_iff.1 h).1

theorem padding_of_standsAlone {left right : Text} (h : standsAlone left right = true) :
    (Text.firstLine right).all isPadding = true := (Bool.and_eq_true_iff.1 h).2

theorem sourceAt_around (x : Located) (ts : List Located) :
    ∃ z, sourceAt ts = sourceAt (tokensAround x ts).1 ++ z := by
  refine ⟨sourceAt (ts.dropWhile (· ≠ x)), ?_⟩
  unfold sourceAt tokensAround
  rw [← sourceOf_append, ← List.map_append, List.takeWhile_append_dropWhile]

section Outcomes

variable {m : Type → Type v} [Monad m] [LawfulMonad m] {α β : Type} {P : α → Prop}

theorem liftp_pure {a : α} (h : P a) : Functor.Liftp P (pure a : m α) := ⟨pure ⟨a, h⟩, map_pure _ _⟩

theorem liftp_bind {x : m β} {g : β → m α} (h : ∀ b, Functor.Liftp P (g b)) : Functor.Liftp P (x >>= g) := by
  choose y hy using h
  refine ⟨x >>= y, ?_⟩
  rw [map_bind]
  exact bind_congr hy

/-- **Whatever is rendered, the text outside of blocks is kept**, up to what markers take of their lines. -/
theorem leftOf_expandPieces {render : Text → m (List Text)} {dropsLine : Bool} {ts : List Located}
    {made : List Piece} {pairs : List (Located × Located)} {passed : List Text}
    (hdrops : dropsLine = true → (Text.firstLine (sourceAt ts)).all isPadding = true)
    (hmade : List.Forall₂ LeftOf passed (Piece.originals made)) :
    Functor.Liftp (fun ps => List.Forall₂ LeftOf ((outside ts pairs).reverse ++ passed) (Piece.originals ps))
      (expandPieces render made dropsLine ts pairs) := by
  induction pairs generalizing dropsLine ts made passed with
  | nil => exact liftp_pure (.cons (leftOf_afterLine hdrops) hmade)
  | cons p pairs ih =>
    obtain ⟨o, e⟩ := p
    obtain ⟨z, hz⟩ := sourceAt_around o ts
    have hgap := leftOf_afterLine fun h => padding_of_firstLine_append (hz ▸ hdrops h)
    rw [expandPieces, outside, List.reverse_cons, List.append_assoc]
    exact liftp_bind fun items => ih padding_of_standsAlone (leftOf_aheadOfMarker _ (.cons hgap hmade))

end Outcomes

/-! ## 7. Lists -/

section Lists

variable {m : Type → Type v} [Monad m] {α : Type}

/-- The pieces of a text whose lists are expanded: for each outermost block of the original text, from left to
    right, the items are rendered in their order and put in its place together. -/
def listPieces (f : BlockFamily) (t : Text) (items : List α) (render : α → ListPosition → Text → m Text) :
    m (List Piece) :=
  expandPieces (fun inner => (positioned items).mapM fun a => render a.1 a.2 inner) [] false (locate t)
    (outermost (f.pairing [] (locate t)).pairs)

/-- **The items of a list are told where they stand in it.** -/
theorem positioned_getElem? {items : List α} {i : Nat} {a : α} {p : ListPosition}
    (h : (positioned items)[i]? = some (a, p)) :
    items[i]? = some a ∧ p.index = i ∧ (p.isFirst = true ↔ i = 0) ∧
      (p.isLast = true ↔ i + 1 = items.length) := by
  unfold positioned at h
  rw [List.getElem?_map, List.getElem?_zipIdx, Nat.zero_add, Option.map_map, Option.map_eq_some_iff] at h
  obtain ⟨b, hb, heq⟩ := h
  obtain ⟨rfl, rfl⟩ := Prod.mk.inj heq
  exact ⟨hb, rfl, decide_eq_true_iff, decide_eq_true_iff⟩

theorem map_positioned (items : List α) : (positioned items).map (·.1) = items := by
  unfold positioned
  rw [List.map_map]
  exact List.zipIdx_map_fst 0 items

/-- **What comes of lists in a text.** -/
structure ExpandsOnce (f : BlockFamily) (t : Text) (items : List α)
    (render : α → ListPosition → Text → m Text) : Prop where
  /-- each outermost block of the original text is expanded once, and what is put there is left alone -/
  expands : expandBlocksM f t items render = Piece.texts <$> listPieces f t items render
  /-- whatever is rendered, the text outside of these blocks is kept, up to what markers take of their lines -/
  keeps : Functor.Liftp (fun ps => List.Forall₂ LeftOf
      (outside (locate t) (outermost (f.pairing [] (locate t)).pairs)) (Piece.originals ps).reverse)
    (listPieces f t items render)
  /-- the items are rendered in their order -/
  order : (positioned items).map (·.1) = items
  /-- and each of them is told where it stands -/
  positions : ∀ i a p, (positioned items)[i]? = some (a, p) →
    items[i]? = some a ∧ p.index = i ∧ (p.isFirst = true ↔ i = 0) ∧ (p.isLast = true ↔ i + 1 = items.length)

/-- **Lists are expanded once for each outermost block of the original text.** -/
theorem expandBlocksM_expandsOnce [LawfulMonad m] (f : BlockFamily) (t : Text) (items : List α)
    (render : α → ListPosition → Text → m Text) : ExpandsOnce f t items render where
  expands := by
    have hcut : WellCut ((locate t).map (·.1)) := (map_locate t).symm ▸ wellCut_tokenize t
    have hsource : sourceAt (locate t) = t := (congrArg sourceOf (map_locate t)).trans (source_tokenize t)
    have hrender : (fun inner => do
        let rendered ← (positioned items).mapM fun a => render a.1 a.2 inner
        pure (joinItems rendered)) =
        fun inner => joinItems <$> (positioned items).mapM fun a => render a.1 a.2 inner :=
      funext fun inner => bind_pure_comp _ _
    rw [expandBlocksM_eq, hrender]
    conv => lhs; rw [← hsource]
    exact expandFrom_eq hcut (pairwise_locate t) (fun t ht => absurd ht List.not_mem_nil) fun h =>
      absurd h Bool.false_ne_true
  keeps := by
    have hreverse : (fun ps => List.Forall₂ LeftOf (outside (locate t) (outermost (f.pairing [] (locate t)).pairs))
        (Piece.originals ps).reverse) = fun ps => List.Forall₂ LeftOf
        ((outside (locate t) (outermost (f.pairing [] (locate t)).pairs)).reverse ++ []) (Piece.originals ps) :=
      funext fun ps => propext (by rw [List.append_nil, ← List.forall₂_reverse_iff, List.reverse_reverse])
    rw [hreverse]
    exact leftOf_expandPieces (fun h => absurd h Bool.false_ne_true) .nil
  order := map_positioned items
  positions _ _ _ := positioned_getElem?

end Lists

/-- A block with a block in it and markers on lines of their own, an empty block, a start marker without an end
    and an end marker without a start. -/
def shelfText : Text :=
  braced "Shelf_End".toList ++ "a\n  ".toList ++ braced "Shelf_Start".toList ++ "\r\n- x".toList ++
    braced "Shelf_Start".toList ++ "y".toList ++ braced "Shelf_End".toList ++ "\n".toList ++
    braced "Shelf_End".toList ++ " \nb".toList ++ braced "Shelf_Start".toList ++ braced "Shelf_End".toList ++
    "  ".toList ++ braced "Shelf_Start".toList ++ "c".toList

/-- An item with its number and the marker that ends its own block, a line feed behind it unless it is the last. -/
def shelfItem (a : Text) (p : ListPosition) (inner : Text) : Text :=
  a ++ (toString p.index).toList ++ inner ++ braced "Shelf_End".toList ++ (if p.isLast then [] else ['\n'])

theorem expandsOnce_shelf : ExpandsOnce (m := Id) (.ofStem "Shelf".toList) shelfText ["p".toList, "q".toList]
    shelfItem := expandBlocksM_expandsOnce (m := Id) _ _ _ _

/-- Two blocks are expanded, and the end markers put there end nothing. -/
example : expandBlocks (.ofStem "Shelf".toList) shelfText ["p".toList, "q".toList] shelfItem =
    braced "Shelf_End".toList ++ "a\np0- x".toList ++ braced "Shelf_Start".toList ++ "y".toList ++
      braced "Shelf_End".toList ++ "\n".toList ++ braced "Shelf_End".toList ++ "\nq1- x".toList ++
      braced "Shelf_Start".toList ++ "y".toList ++ braced "Shelf_End".toList ++ "\n".toList ++
      braced "Shelf_End".toList ++ "bp0".toList ++ braced "Shelf_End".toList ++ "\nq1".toList ++
      braced "Shelf_End".toList ++ "  ".toList ++ braced "Shelf_Start".toList ++ "c".toList := by
  decide +kernel

end RecordExport

import RecordExport.Proofs.Template.LineMarks
/-!
# Conditions by lines

Where every marker of a family stands alone on its line, conditions take out whole lines and leave the others as
they are: the lines of paired markers go, and with a dropped block the lines in it.

* `blocksOf`, `droppedBlocks`: the blocks of the original text, and those that are dropped when the decision is
  asked at each of them that does not begin in a dropped one;
* `stays`: whether a line is left;
* `exists_lineBlock`: the first block that a walk over such lines finds, and what it leaves of them;
* `keepFrom_lines`: from a point of the text on a walk leaves the lines that stay;
* `keepBlocksM_lines`: **so do conditions on a whole text**, with any line ends and however blocks nest or markers
  are left over.
-/

namespace RecordExport

universe v

variable {f : BlockFamily}

/-! ## 1. Which lines stay -/

/-- The blocks of tokens, by their markers, in the order they begin. -/
def blocksOf (f : BlockFamily) (ts : List Located) : List (Located × Located) :=
  ts.filterMap fun o => (closerIn (f.pairing [] ts).pairs o).map fun e => (o, e)

/-- The place is between the markers of the block. -/
def isInside (b : Located × Located) (pos : Nat) : Bool := b.1.2.start < pos && pos < b.2.2.start

/-- Ask for each block whether it is kept, with what the name of its start marker captures, and tell those that are
    dropped. A block that begins in a dropped one is not asked for. -/
def droppedBlocks {m : Type → Type v} [Monad m] (f : BlockFamily) (decision : List Text → m Bool) :
    (dropped : List (Located × Located)) → List (Located × Located) → m (List (Located × Located))
  | dropped, [] => pure dropped
  | dropped, b :: bs =>
    if dropped.any fun d => isInside d b.1.2.start then droppedBlocks f decision dropped bs
    else do
      let kept ← decision ((f.opens.captures b.1.1.name).getD [])
      droppedBlocks f decision (if kept then dropped else dropped ++ [b]) bs

/-- A line stays if it holds no marker of a block and is not inside a dropped one. -/
def stays (blocks dropped : List (Located × Located)) (l : Line) : Bool :=
  !(blocks.any fun b => l.holds b.1 || l.holds b.2) && !(dropped.any fun b => isInside b l.2.start)

/-! ## 2. The first block on lines -/

/-- Keep what the family claims. -/
def claimedOnly (f : BlockFamily) (k : Token) : List Token := if f.claims k then [k] else []

theorem respells_claimedOnly (f : BlockFamily) : Respells f (claimedOnly f) := by
  intro k
  unfold claimedOnly
  cases h : f.claims k with
  | true => exact .inl rfl
  | false => exact .inr ⟨Bool.or_eq_false_iff.1 h, fun k hk => absurd hk List.not_mem_nil⟩

theorem flatMap_claimedOnly (ks : List Token) : ks.flatMap (claimedOnly f) = ks.filter f.claims := by
  induction ks with
  | nil => rfl
  | cons k ks ih =>
    rw [List.flatMap_cons, List.filter_cons, ih, claimedOnly]
    split <;> rfl

/-- The first block of lines is found among their markers. -/
theorem findBlock_marksOn {ls : List Line} (h : LinesFit f ls) : findBlock f ((marksOn f ls).map (·.1)) =
    (findBlock f (tokenize (textsOf ls))).map fun m => m.spelledBy (claimedOnly f) := by
  rw [← claimed_textsOf h, ← flatMap_claimedOnly, findBlock_respelled (respells_claimedOnly f)]

/-- A list is cut at one of its claimed tokens by how many stand in front of it. -/
theorem eq_of_claimed_eq {as bs as' bs' : List Token} {k k' : Token} (h : as ++ k :: bs = as' ++ k' :: bs')
    (hk : f.claims k = true) (hk' : f.claims k' = true)
    (hcount : (as.filter f.claims).length = (as'.filter f.claims).length) : as = as' ∧ k = k' ∧ bs = bs' := by
  induction as generalizing as' with
  | nil =>
    cases as' with
    | nil => exact ⟨rfl, List.cons.inj h⟩
    | cons a as' =>
      rw [List.nil_append] at h
      obtain ⟨rfl, -⟩ := List.cons.inj h
      rw [List.filter_cons_of_pos hk] at hcount
      cases hcount
  | cons a as ih =>
    cases as' with
    | nil =>
      obtain ⟨rfl, -⟩ := List.cons.inj h
      rw [List.filter_cons_of_pos hk'] at hcount
      cases hcount
    | cons a' as' =>
      obtain ⟨rfl, hrest⟩ := List.cons.inj h
      have hcount' : (as.filter f.claims).length = (as'.filter f.claims).length := by
        rw [List.filter_cons, List.filter_cons] at hcount
        split at hcount
        · exact Nat.succ.inj hcount
        · exact hcount
      obtain ⟨rfl, hmarker⟩ := ih hrest hcount'
      exact ⟨rfl, hmarker⟩

/-- **A block is found among tokens where it is found among the claimed ones.** -/
theorem findBlock_of_claimed {ks ls is rs : List Token} {o e : Token} {m : BlockMatch}
    (hks : ks = ls ++ o :: (is ++ e :: rs)) (ho : f.claims o = true) (he : f.claims e = true)
    (h : findBlock f (ks.filter f.claims) = some m) (hleft : m.left = ls.filter f.claims)
    (hinner : m.inner = is.filter f.claims) : findBlock f ks = some ⟨m.captures, ls, o, is, e, rs⟩ := by
  rw [← flatMap_claimedOnly, findBlock_respelled (respells_claimedOnly f)] at h
  obtain ⟨found, hfound, rfl⟩ := Option.map_eq_some_iff.1 h
  have hfirst := isFirst_of_findBlock hfound
  have htokens := (tokens_findBlock hfound).1
  simp only [BlockMatch.spelledBy, flatMap_claimedOnly] at hleft hinner
  have hopening : f.claims found.opening = true := Bool.or_eq_true_iff.2 (.inl hfirst.opens)
  have hclosing : f.claims found.closing = true := Bool.or_eq_true_iff.2 (.inr (isClosing_of_findClose hfirst.closed))
  obtain ⟨hl, hopen, hbehind⟩ := eq_of_claimed_eq (htokens.symm.trans hks) hopening ho (congrArg List.length hleft)
  obtain ⟨hi, hclose, hr⟩ := eq_of_claimed_eq hbehind hclosing he (congrArg List.length hinner)
  rw [hfound, ← hl, ← hopen, ← hi, ← hclose, ← hr]
  rfl

/-- Behind the end of a line padding goes as a last line. -/
theorem EndsLine.aheadOfLine_append {s p : Text} (hs : EndsLine s) (hp : p.all isPadding = true) :
    (Text.lastLine (s ++ p)).all isPadding = true ∧ (s ++ p).aheadOfLine = s := by
  unfold Text.aheadOfLine
  rw [hs.lastLine_append, Text.lastLine_of_not_mem (not_mem_of_padding hp rfl)]
  refine ⟨hp, ?_⟩
  unfold dropLast
  rw [List.length_append, Nat.add_sub_cancel, List.take_left]

/-- A text behind a marker and the end of its line. -/
structure RestOfLine (q z : Text) : Prop where
  padding : (Text.firstLine q).all isPadding = true
  ends : q.behindLine = []
  feed : z ≠ [] → q.getLast? = some '\n'

theorem RestOfLine.behindLine_append {q z : Text} (h : RestOfLine q z) :
    (Text.firstLine (q ++ z)).all isPadding = true ∧ (q ++ z).behindLine = z := by
  by_cases hz : z = []
  · rw [hz, List.append_nil]
    exact ⟨h.padding, h.ends⟩
  · obtain ⟨hfirst, hbehind⟩ := Text.firstLine_append_of_mem (List.mem_of_getLast? (h.feed hz)) z
    rw [hfirst, hbehind, h.ends]
    exact ⟨h.padding, rfl⟩

/-- **A block whose markers stand alone leaves whole lines.** -/
theorem Block.ofMatch_alone {before front p q contents p' q' tail b e : Text} {m : BlockMatch}
    (ho : m.opening = .placeholder b) (hc : m.closing = .placeholder e) (hleft : sourceOf m.left = front ++ p)
    (hinner : sourceOf m.inner = q ++ (contents ++ p')) (hright : sourceOf m.right = q' ++ tail)
    (hbefore : EndsLine (before ++ front)) (hp : p.all isPadding = true) (hq : RestOfLine q (contents ++ p'))
    (hfeed : q.getLast? = some '\n') (hcontents : EndsLine contents) (hp' : p'.all isPadding = true)
    (hq' : RestOfLine q' tail) :
    (ofMatch before m).head = before ++ front ∧ (ofMatch before m).inner = contents ∧
      (ofMatch before m).tail = tail := by
  obtain ⟨-, hhead, hin, htail⟩ := Block.ofMatch_eq before ho hc
  obtain ⟨hfront, hahead⟩ := hbefore.aheadOfLine_append hp
  obtain ⟨hopens, hbehind⟩ := hq.behindLine_append
  obtain ⟨hcloses, hbehind'⟩ := hq'.behindLine_append
  have hmem : '\n' ∈ q ++ (contents ++ p') := List.mem_append_left _ (List.mem_of_getLast? hfeed)
  have hopensLine : opensLine (before ++ sourceOf m.left) (sourceOf m.inner) = true := by
    rw [hleft, hinner, ← List.append_assoc before]
    exact Bool.and_eq_true_iff.2 ⟨hfront, Bool.and_eq_true_iff.2 ⟨decide_eq_true hmem, hopens⟩⟩
  have hclosesLine : closesLine (sourceOf m.inner) (sourceOf m.right) = true := by
    rw [hinner, hright]
    refine Bool.and_eq_true_iff.2 ⟨Bool.and_eq_true_iff.2 ⟨decide_eq_true hmem, ?_⟩, hcloses⟩
    rw [← List.append_assoc]
    exact (EndsLine.aheadOfLine_append (.append (.inr hfeed) hcontents) hp').1
  rw [hopensLine, if_pos rfl, hleft, ← List.append_assoc, hahead] at hhead
  rw [hclosesLine, if_pos rfl, hright, hbehind'] at htail
  refine ⟨hhead, ?_, htail⟩
  rw [hin, innerLines, hopensLine, hclosesLine, if_pos rfl, if_pos rfl, hinner, hbehind]
  exact (hcontents.aheadOfLine_append hp').2

/-- The first block that a search finds on lines, and what it leaves of them. -/
structure LineBlock (f : BlockFamily) (ls : List Line) (before : Text) (b : Block) (captures : List Text)
    (as : List Line) (lo : Line) (is : List Line) (le : Line) (rs : List Line) (o e : Located) : Prop where
  lines : ls = as ++ lo :: (is ++ le :: rs)
  opening : markOn f lo = some o
  closing : markOn f le = some e
  first : ∃ m : BlockMatch, m.captures = captures ∧
    FirstBlock f (marksOn f ls) m (marksOn f as) o (marksOn f is) e (marksOn f rs)
  asks : b.captures = captures
  head : b.head = before ++ textsOf as
  inner : b.inner = textsOf is
  tail : b.tail = textsOf rs

theorem claims_of_markOn {l : Line} {x : Located} (h : markOn f l = some x) : f.claims x.1 = true :=
  List.find?_some (p := fun x : Located => f.claims x.1) h

/-- A marker on lines stands on one of them. -/
theorem exists_line_of_marksOn {ls : List Line} {left right : List Located} {x : Located}
    (h : marksOn f ls = left ++ x :: right) :
    ∃ as l rs, ls = as ++ l :: rs ∧ marksOn f as = left ∧ markOn f l = some x ∧ marksOn f rs = right := by
  obtain ⟨as, rest, rfl, hleft, hrest⟩ := List.filterMap_eq_append_iff.1 h
  obtain ⟨bs, l, rs, rfl, hnone, hx, hright⟩ := List.filterMap_eq_cons_iff.1 hrest
  refine ⟨as ++ bs, l, rs, (List.append_assoc _ _ _).symm, ?_, hx, hright⟩
  rw [marksOn_append, marksOn, hleft, marksOn, List.filterMap_eq_nil_iff.2 hnone, List.append_nil]

/-- The text of lines, cut at the lone markers of two of them: `p` and `p'` stand in front of these on their lines, and
    `q` and `q'` behind. -/
structure LinesCut (f : BlockFamily) (as : List Line) (o : Token) (is : List Line) (e : Token) (rs : List Line)
    (t p q p' q' : Text) : Prop where
  tokens : tokenize t = tokenize (textsOf as ++ p) ++ o ::
    (tokenize (q ++ (textsOf is ++ p')) ++ e :: tokenize (q' ++ textsOf rs))
  left : (tokenize (textsOf as ++ p)).filter f.claims = (marksOn f as).map (·.1)
  inner : (tokenize (q ++ (textsOf is ++ p'))).filter f.claims = (marksOn f is).map (·.1)
  front : EndsLine (textsOf as)
  contents : EndsLine (textsOf is)
  padding : p.all isPadding = true
  padding' : p'.all isPadding = true
  rest : RestOfLine q (textsOf is ++ p')
  rest' : RestOfLine q' (textsOf rs)
  feed : q.getLast? = some '\n'

theorem exists_linesCut {as is rs : List Line} {lo le : Line} {o e : Located}
    (h : LinesFit f (as ++ lo :: (is ++ le :: rs))) (hlo : markOn f lo = some o) (hle : markOn f le = some e) :
    ∃ b d p q p' q', o.1 = .placeholder b ∧ e.1 = .placeholder d ∧
      LinesCut f as o.1 is e.1 rs (textsOf (as ++ lo :: (is ++ le :: rs))) p q p' q' := by
  have hfits := h.fits
  simp only [List.forall_mem_append, List.forall_mem_cons] at hfits
  obtain ⟨-, hfitsOpening, -, hfitsClosing, -⟩ := hfits
  obtain ⟨b, p, q, ho, hb, hlotext, hp, hq, hqends⟩ := hfitsOpening.alone o hlo
  obtain ⟨d, p', q', he, hd, hletext, hp', hq', hqends'⟩ := hfitsClosing.alone e hle
  -- every line but the last ends with its line feed
  obtain ⟨-, hfeedsBehind, hfeedsFront⟩ := List.pairwise_append.1 h.feeds
  obtain ⟨hfeedOpening, hfeedsInside⟩ := List.pairwise_cons.1 hfeedsBehind
  obtain ⟨-, hfeedsEnd, hfeedsInner⟩ := List.pairwise_append.1 hfeedsInside
  have hfront : EndsLine (textsOf as) := endsLine_textsOf fun l hl => hfeedsFront l hl lo List.mem_cons_self
  have hinside : EndsLine (textsOf is) := endsLine_textsOf fun l hl => hfeedsInner l hl le List.mem_cons_self
  have hqfeed : q.getLast? = some '\n' := by
    have hfeed := hfeedOpening le (List.mem_append_right _ List.mem_cons_self)
    rw [hlotext] at hfeed
    exact getLast?_behind_braced hfeed
  have hqfeed' : textsOf rs ≠ [] → q'.getLast? = some '\n' := fun hne => by
    cases rs with
    | nil => exact absurd rfl hne
    | cons r rs =>
      have hfeed := (List.pairwise_cons.1 hfeedsEnd).1 r List.mem_cons_self
      rw [hletext] at hfeed
      exact getLast?_behind_braced hfeed
  have htext : textsOf (as ++ lo :: (is ++ le :: rs)) =
      (textsOf as ++ p) ++ (braced b ++ ((q ++ (textsOf is ++ p')) ++ (braced d ++ (q' ++ textsOf rs)))) := by
    rw [textsOf_append, textsOf_cons, textsOf_append, textsOf_cons, hlotext, hletext]
    simp only [List.append_assoc]
  have hnone : ∀ {t : Text}, '{' ∉ t → (tokenize t).filter f.claims = [] := fun ht =>
    claimed_of_not_mem ((source_tokenize _).symm ▸ ht)
  refine ⟨b, d, p, q, p', q', ho, he, ?_, ?_, ?_, hfront, hinside, hp, hp', ⟨hq, hqends, fun _ => hqfeed⟩,
    ⟨hq', hqends', hqfeed'⟩, hqfeed⟩
  · rw [htext, tokenize_append_braced _ hb, tokenize_append_braced _ hd, ho, he]
  · rw [hfront.claimed_append, hnone (not_mem_of_padding hp rfl), List.append_nil]
    exact claimed_textsOf (h.sublist (List.sublist_append_left _ _))
  · rw [EndsLine.claimed_append (.inr hqfeed), hnone (brace_not_mem_of_firstLine hq hqends), List.nil_append,
      hinside.claimed_append, hnone (not_mem_of_padding hp' rfl), List.append_nil]
    refine claimed_textsOf (h.sublist ?_)
    exact ((List.sublist_append_left _ _).trans (List.sublist_cons_self _ _)).trans (List.sublist_append_right _ _)

/-- **The first block that a walk finds on lines whose markers stand alone.** -/
theorem exists_lineBlock {ls : List Line} {before : Text} {found : BlockMatch} (h : LinesFit f ls)
    (hbefore : EndsLine before) (hfound : findBlock f (tokenize (textsOf ls)) = some found) :
    ∃ captures as lo is le rs o e,
      LineBlock f ls before (Block.ofMatch before found) captures as lo is le rs o e := by
  have hclaimed : findBlock f ((marksOn f ls).map (·.1)) = some (found.spelledBy (claimedOnly f)) := by
    rw [findBlock_marksOn h, hfound]
    rfl
  obtain ⟨left, o, inner, e, right, hfirst⟩ := exists_firstBlock hclaimed
  obtain ⟨as, lo, rest, rfl, rfl, hlo, hrest⟩ := exists_line_of_marksOn hfirst.tokens
  obtain ⟨is, le, rs, rfl, rfl, hle, rfl⟩ := exists_line_of_marksOn hrest
  obtain ⟨b, d, p, q, p', q', ho, he, hcut⟩ := exists_linesCut h hlo hle
  rw [← claimed_textsOf h] at hclaimed
  have hexact := findBlock_of_claimed hcut.tokens (claims_of_markOn hlo) (claims_of_markOn hle) hclaimed
    ((congrArg BlockMatch.left hfirst.eq).trans hcut.left.symm)
    ((congrArg BlockMatch.inner hfirst.eq).trans hcut.inner.symm)
  have hparts := Option.some.inj (hfound.symm.trans hexact)
  have hsource : ∀ {ks : List Token} {t : Text}, ks = tokenize t → sourceOf ks = t := fun hks =>
    hks ▸ source_tokenize _
  obtain ⟨hhead, hcontents, htail⟩ := Block.ofMatch_alone
    ((congrArg BlockMatch.opening hparts).trans ho) ((congrArg BlockMatch.closing hparts).trans he)
    (hsource (congrArg BlockMatch.left hparts)) (hsource (congrArg BlockMatch.inner hparts))
    (hsource (congrArg BlockMatch.right hparts)) (hbefore.append hcut.front) hcut.padding hcut.rest hcut.feed
    hcut.contents hcut.padding' hcut.rest'
  exact ⟨_, as, lo, is, le, rs, o, e, rfl, hlo, hle, ⟨_, rfl, hfirst⟩, Block.captures_ofMatch before found, hhead,
    hcontents, htail⟩

/-! ## 3. What is asked -/

section Asked

variable {m : Type → Type v} [Monad m] [LawfulMonad m] {decision : List Text → m Bool} {α : Type}

/-- All that is dropped was asked for. -/
theorem map_droppedBlocks_congr {F G : List (Located × Located) → α} {dropped bs : List (Located × Located)}
    (h : ∀ ds, (∀ d ∈ ds, d ∈ dropped ∨ d ∈ bs) → F ds = G ds) :
    F <$> droppedBlocks f decision dropped bs = G <$> droppedBlocks f decision dropped bs := by
  induction bs generalizing dropped with
  | nil => rw [droppedBlocks, map_pure, map_pure, h dropped fun d hd => .inl hd]
  | cons b bs ih =>
    have hskip := ih fun ds hds => h ds fun d hd => (hds d hd).imp_right (List.mem_cons_of_mem b)
    rw [droppedBlocks]
    split
    · exact hskip
    · rw [map_bind, map_bind]
      refine bind_congr fun kept => ?_
      cases kept with
      | true => exact hskip
      | false =>
        refine ih fun ds hds => h ds fun d hd => ?_
        rcases hds d hd with hd | hd
        · rcases List.mem_append.1 hd with hd | hd
          · exact .inl hd
          · exact .inr (List.mem_singleton.1 hd ▸ List.mem_cons_self)
        · exact .inr (List.mem_cons_of_mem b hd)

omit [LawfulMonad m] in
/-- Nothing is asked for inside of a dropped block. -/
theorem droppedBlocks_inside {d : Located × Located} {dropped bs : List (Located × Located)} (hd : d ∈ dropped)
    (h : ∀ b ∈ bs, isInside d b.1.2.start = true) (cs : List (Located × Located)) :
    droppedBlocks f decision dropped (bs ++ cs) = droppedBlocks f decision dropped cs := by
  induction bs with
  | nil => rfl
  | cons b bs ih =>
    have hinside : (dropped.any fun d => isInside d b.1.2.start) = true :=
      List.any_eq_true.2 ⟨d, hd, h b List.mem_cons_self⟩
    rw [List.cons_append, droppedBlocks, if_pos hinside, ih fun b hb => h b (List.mem_cons_of_mem _ hb)]

/-- A dropped block does not matter for what begins outside of it. -/
theorem droppedBlocks_outside {d : Located × Located} {dropped bs : List (Located × Located)}
    (h : ∀ b ∈ bs, isInside d b.1.2.start = false) :
    droppedBlocks f decision (d :: dropped) bs = (d :: ·) <$> droppedBlocks f decision dropped bs := by
  induction bs generalizing dropped with
  | nil => rw [droppedBlocks, droppedBlocks, map_pure]
  | cons b bs ih =>
    have hrest : ∀ b ∈ bs, isInside d b.1.2.start = false := fun b hb => h b (List.mem_cons_of_mem _ hb)
    rw [droppedBlocks, droppedBlocks, List.any_cons, h b List.mem_cons_self, Bool.false_or]
    split
    · exact ih hrest
    · rw [map_bind]
      refine bind_congr fun kept => ?_
      cases kept with
      | true => exact ih hrest
      | false => exact ih hrest

/-- A block is asked for, and then the blocks in it, if it is kept, and those behind it. -/
theorem droppedBlocks_cons {o e : Located} {inner right : List (Located × Located)}
    (hinner : ∀ b ∈ inner, isInside (o, e) b.1.2.start = true)
    (hright : ∀ b ∈ right, isInside (o, e) b.1.2.start = false) :
    droppedBlocks f decision [] ((o, e) :: (inner ++ right)) =
      decision ((f.opens.captures o.1.name).getD []) >>= fun kept =>
        if kept then droppedBlocks f decision [] (inner ++ right)
        else ((o, e) :: ·) <$> droppedBlocks f decision [] right := by
  rw [droppedBlocks, List.any_nil, if_neg Bool.false_ne_true]
  refine bind_congr fun kept => ?_
  cases kept with
  | true => rfl
  | false =>
    rw [if_neg Bool.false_ne_true, if_neg Bool.false_ne_true, List.nil_append,
      droppedBlocks_inside List.mem_cons_self hinner, droppedBlocks_outside hright]

end Asked

/-! ## 4. Where lines and blocks stand -/

section Places

variable {l : Line} {ls as is rs : List Line} {x o e : Located} {ds bs : List (Located × Located)}

theorem holds_iff : l.holds x = true ↔ l.2.start ≤ x.2.start ∧ x.2.start < l.2.stop := by
  unfold Line.holds
  rw [Bool.and_eq_true, decide_eq_true_eq, decide_eq_true_eq]

/-- Markers on lines in front of a line begin there. -/
theorem start_lt_of_mem_marksOn (h : LinesFit f ls) (hl : ∀ a ∈ ls, a.2.stop ≤ l.2.start)
    (hx : x ∈ marksOn f ls) : x.2.start < l.2.start := by
  obtain ⟨a, ha, hmark⟩ := List.mem_filterMap.1 hx
  exact (holds_iff.1 ((h.fits a ha).holds x hmark)).2.trans_le (hl a ha)

/-- Markers on lines behind a line begin there. -/
theorem stop_le_of_mem_marksOn (h : LinesFit f ls) (hl : ∀ a ∈ ls, l.2.stop ≤ a.2.start)
    (hx : x ∈ marksOn f ls) : l.2.stop ≤ x.2.start := by
  obtain ⟨a, ha, hmark⟩ := List.mem_filterMap.1 hx
  exact (hl a ha).trans (holds_iff.1 ((h.fits a ha).holds x hmark)).1

theorem pairwise_marksOn (h : LinesFit f ls) : (marksOn f ls).Pairwise fun a b => a.2.start < b.2.start := by
  induction ls with
  | nil => exact .nil
  | cons l ls ih =>
    have hls := h.sublist (List.sublist_cons_self l ls)
    rw [marksOn_cons]
    cases hmark : markOn f l with
    | none => exact ih hls
    | some x =>
      refine .cons (fun y hy => ?_) (ih hls)
      have hx := holds_iff.1 ((h.fits l List.mem_cons_self).holds x hmark)
      exact hx.2.trans_le (stop_le_of_mem_marksOn hls (List.pairwise_cons.1 h.apart).1 hy)

/-- A line stays by the blocks that may hold it. -/
theorem stays_congr {blocks blocks' dropped dropped' : List (Located × Located)}
    (hblocks : (blocks.any fun b => l.holds b.1 || l.holds b.2) = blocks'.any fun b => l.holds b.1 || l.holds b.2)
    (hdropped : (dropped.any fun b => isInside b l.2.start) = dropped'.any fun b => isInside b l.2.start) :
    stays blocks dropped l = stays blocks' dropped' l := by
  unfold stays
  rw [hblocks, hdropped]

/-- A line in front of all blocks stays. -/
theorem stays_of_behind (hfilled : l.2.start < l.2.stop)
    (hbs : ∀ b ∈ bs, l.2.stop ≤ b.1.2.start ∧ l.2.stop ≤ b.2.2.start) (hds : ∀ d ∈ ds, d ∈ bs) :
    stays bs ds l = true := by
  unfold stays
  rw [Bool.and_eq_true, Bool.not_eq_true', Bool.not_eq_true', List.any_eq_false, List.any_eq_false]
  constructor
  · intro b hb
    have hb := hbs b hb
    rw [Bool.or_eq_true, holds_iff, holds_iff]
    omega
  · intro d hd
    have hd := hbs d (hds d hd)
    simp only [isInside, Bool.and_eq_true, decide_eq_true_eq]
    omega

theorem mem_of_mem_blocksOf {ts : List Located} {b : Located × Located} (h : b ∈ blocksOf f ts) :
    b.1 ∈ ts ∧ b.2 ∈ ts := by
  obtain ⟨o, -, ho⟩ := List.mem_filterMap.1 h
  obtain ⟨e, he, rfl⟩ := Option.map_eq_some_iff.1 ho
  exact madeOf_pairing f ts _ (mem_of_closerIn he)

theorem blocksOf_eq_nil {ts : List Located} (h : findBlock f (ts.map (·.1)) = none) : blocksOf f ts = [] := by
  unfold blocksOf
  rw [BlockFamily.pairs_of_findBlock_eq_none h]
  exact List.filterMap_eq_nil_iff.2 fun _ _ => rfl

/-- The blocks of tokens by their first block. -/
theorem blocksOf_firstBlock {ts left inner right : List Located} {m : BlockMatch}
    (h : FirstBlock f ts m left o inner e right) (hnodup : ts.Nodup) :
    blocksOf f ts = (o, e) :: (blocksOf f inner ++ blocksOf f right) ∧
      blocksOf f (inner ++ right) = blocksOf f inner ++ blocksOf f right := by
  have hlookups := h.lookups hnodup
  have hkept := List.forall_mem_append.1 hlookups.kept
  constructor
  · refine (congrArg (List.filterMap _) h.tokens).trans ?_
    rw [List.filterMap_append, List.filterMap_eq_nil_iff.2 fun t ht => by rw [(hlookups.before t ht).1]; rfl,
      List.nil_append, List.filterMap_cons_some (by rw [hlookups.opens]; rfl), List.filterMap_append,
      List.filterMap_cons_none (by rw [hlookups.closes.1]; rfl)]
    refine congrArg _ (congrArg₂ _ (List.filterMap_congr fun t ht => ?_) (List.filterMap_congr fun t ht => ?_))
    · rw [hlookups.within t ht]
    · rw [(hlookups.behind t ht).1]
  · refine List.filterMap_append.trans ?_
    refine congrArg₂ _ (List.filterMap_congr fun t ht => ?_) (List.filterMap_congr fun t ht => ?_)
    · rw [← (hkept.1 t ht).1, hlookups.within t ht]
    · rw [← (hkept.2 t ht).1, (hlookups.behind t ht).1]

/-- Lines cut at the markers of a block, and where they stand. -/
structure Around (f : BlockFamily) (ls as : List Line) (lo : Line) (is : List Line) (le : Line) (rs : List Line)
    (o e : Located) : Prop where
  lines : ls = as ++ lo :: (is ++ le :: rs)
  front : ∀ l ∈ as, ∀ x, x = o ∨ x = e ∨ x ∈ marksOn f is ∨ x ∈ marksOn f rs → l.2.stop ≤ x.2.start
  opens : lo.holds o = true
  closes : le.holds e = true
  inside : ∀ l ∈ is, o.2.start < l.2.start ∧ l.2.stop ≤ e.2.start
  behind : ∀ l ∈ rs, o.2.start < l.2.start ∧ e.2.start < l.2.start ∧
    ∀ x ∈ marksOn f is, x.2.start < l.2.start
  contents : ∀ x ∈ marksOn f is, o.2.start < x.2.start ∧ x.2.start < e.2.start
  rest : ∀ x ∈ marksOn f rs, e.2.start < x.2.start

theorem around_of_lines {lo le : Line} (h : LinesFit f ls) (hls : ls = as ++ lo :: (is ++ le :: rs))
    (hlo : markOn f lo = some o) (hle : markOn f le = some e) : Around f ls as lo is le rs o e := by
  subst hls
  obtain ⟨-, hbehind, hfront⟩ := List.pairwise_append.1 h.apart
  obtain ⟨hopening, hinside⟩ := List.pairwise_cons.1 hbehind
  obtain ⟨-, hrest, hinner⟩ := List.pairwise_append.1 hinside
  have hclosing := (List.pairwise_cons.1 hrest).1
  have hfits := h.fits
  simp only [List.forall_mem_append, List.forall_mem_cons] at hfits hopening
  obtain ⟨-, hfitsOpening, hfitsInside, hfitsClosing, hfitsRest⟩ := hfits
  obtain ⟨hopeningInside, hopeningClosing, hopeningRest⟩ := hopening
  have ho := holds_iff.1 (hfitsOpening.holds o hlo)
  have he := holds_iff.1 (hfitsClosing.holds e hle)
  have his : LinesFit f is := h.sublist
    (((List.sublist_append_left _ _).trans (List.sublist_cons_self _ _)).trans (List.sublist_append_right _ _))
  have hrs : LinesFit f rs := h.sublist ((((List.sublist_cons_self _ _).trans (List.sublist_append_right _ _)).trans
    (List.sublist_cons_self _ _)).trans (List.sublist_append_right _ _))
  have hfrontOf : ∀ l ∈ as, l.2.stop ≤ lo.2.start ∧ l.2.stop ≤ le.2.start ∧
      (∀ i ∈ is, l.2.stop ≤ i.2.start) ∧ ∀ r ∈ rs, l.2.stop ≤ r.2.start := fun l hl => by
    have hl := hfront l hl
    simp only [List.forall_mem_append, List.forall_mem_cons] at hl
    exact ⟨hl.1, hl.2.2.1, hl.2.1, hl.2.2.2⟩
  refine ⟨rfl, fun l hl x hx => ?_, hfitsOpening.holds o hlo, hfitsClosing.holds e hle, fun l hl => ?_,
    fun l hl => ?_, fun x hx => ?_, fun x hx => ?_⟩
  · obtain ⟨hlLo, hlLe, hlIs, hlRs⟩ := hfrontOf l hl
    rcases hx with rfl | rfl | hx | hx
    · exact hlLo.trans ho.1
    · exact hlLe.trans he.1
    · exact stop_le_of_mem_marksOn his hlIs hx
    · exact stop_le_of_mem_marksOn hrs hlRs hx
  · exact ⟨ho.2.trans_le (hopeningInside l hl), (hinner l hl le List.mem_cons_self).trans he.1⟩
  · exact ⟨ho.2.trans_le (hopeningRest l hl), he.2.trans_le (hclosing l hl), fun x hx =>
      start_lt_of_mem_marksOn his (fun i hi => hinner i hi l (List.mem_cons_of_mem _ hl)) hx⟩
  · exact ⟨ho.2.trans_le (stop_le_of_mem_marksOn his hopeningInside hx),
      (start_lt_of_mem_marksOn his (fun i hi => hinner i hi le List.mem_cons_self) hx).trans_le he.1⟩
  · exact he.2.trans_le (stop_le_of_mem_marksOn hrs hclosing hx)

/-- The lines in front of the first block stay, and those of its markers do not. -/
theorem Around.filter_lines {lo le : Line} (h : Around f ls as lo is le rs o e) (hfits : LinesFit f ls)
    (hds : ∀ d ∈ ds, d ∈ (o, e) :: (blocksOf f (marksOn f is) ++ blocksOf f (marksOn f rs))) :
    ls.filter (stays ((o, e) :: (blocksOf f (marksOn f is) ++ blocksOf f (marksOn f rs))) ds) =
      as ++ (is.filter (stays ((o, e) :: (blocksOf f (marksOn f is) ++ blocksOf f (marksOn f rs))) ds) ++
        rs.filter (stays ((o, e) :: (blocksOf f (marksOn f is) ++ blocksOf f (marksOn f rs))) ds)) := by
  set blocks := (o, e) :: (blocksOf f (marksOn f is) ++ blocksOf f (marksOn f rs)) with hblocks
  have hmarks : ∀ b ∈ blocks, ∀ l ∈ as, l.2.stop ≤ b.1.2.start ∧ l.2.stop ≤ b.2.2.start :=
    fun b hb l hl => by
    rcases List.mem_cons.1 hb with rfl | hb
    · exact ⟨h.front l hl o (.inl rfl), h.front l hl e (.inr (.inl rfl))⟩
    · rcases List.mem_append.1 hb with hb | hb
      · obtain ⟨h1, h2⟩ := mem_of_mem_blocksOf hb
        exact ⟨h.front l hl _ (.inr (.inr (.inl h1))), h.front l hl _ (.inr (.inr (.inl h2)))⟩
      · obtain ⟨h1, h2⟩ := mem_of_mem_blocksOf hb
        exact ⟨h.front l hl _ (.inr (.inr (.inr h1))), h.front l hl _ (.inr (.inr (.inr h2)))⟩
  have hheld : ∀ {l : Line}, (l.holds o || l.holds e) = true → ¬ stays blocks ds l = true := fun hl => by
    unfold stays
    rw [hblocks, List.any_cons, hl, Bool.true_or, Bool.not_true, Bool.false_and]
    exact Bool.false_ne_true
  have hfront : as.filter (stays blocks ds) = as := List.filter_eq_self.2 fun l hl =>
    stays_of_behind (hfits.fits l (h.lines ▸ List.mem_append_left _ hl)).filled (fun b hb => hmarks b hb l hl) hds
  rw [h.lines, List.filter_append, hfront, List.filter_cons_of_neg (hheld (Bool.or_eq_true_iff.2 (.inl h.opens))),
    List.filter_append, List.filter_cons_of_neg (hheld (Bool.or_eq_true_iff.2 (.inr h.closes)))]

theorem not_holds {l : Line} (h : x.2.start < l.2.start ∨ l.2.stop ≤ x.2.start) : l.holds x = false := by
  rw [← Bool.not_eq_true, holds_iff]
  omega

theorem isInside_iff {b : Located × Located} {pos : Nat} :
    isInside b pos = true ↔ b.1.2.start < pos ∧ pos < b.2.2.start := by
  unfold isInside
  rw [Bool.and_eq_true, decide_eq_true_eq, decide_eq_true_eq]

/-- **Of a kept block the lines of its markers go.** -/
theorem Around.filter_kept {lo le : Line} (h : Around f ls as lo is le rs o e) (hfits : LinesFit f ls)
    (hds : ∀ d ∈ ds, d ∈ blocksOf f (marksOn f is) ++ blocksOf f (marksOn f rs)) :
    ls.filter (stays ((o, e) :: (blocksOf f (marksOn f is) ++ blocksOf f (marksOn f rs))) ds) =
      as ++ (is ++ rs).filter (stays (blocksOf f (marksOn f is) ++ blocksOf f (marksOn f rs)) ds) := by
  rw [h.filter_lines hfits fun d hd => List.mem_cons_of_mem _ (hds d hd), List.filter_append]
  have hsame : ∀ {l : Line}, l.holds o = false → l.holds e = false →
      stays ((o, e) :: (blocksOf f (marksOn f is) ++ blocksOf f (marksOn f rs))) ds l =
        stays (blocksOf f (marksOn f is) ++ blocksOf f (marksOn f rs)) ds l := fun ho he => by
    refine stays_congr ?_ rfl
    rw [List.any_cons, ho, he, Bool.or_self, Bool.false_or]
  refine congrArg _ (congrArg₂ _ (List.filter_congr fun l hl => ?_) (List.filter_congr fun l hl => ?_))
  · exact hsame (not_holds (.inl (h.inside l hl).1)) (not_holds (.inr (h.inside l hl).2))
  · exact hsame (not_holds (.inl (h.behind l hl).1)) (not_holds (.inl (h.behind l hl).2.1))

/-- **Of a dropped block all lines go.** -/
theorem Around.filter_dropped {lo le : Line} (h : Around f ls as lo is le rs o e) (hfits : LinesFit f ls)
    (hds : ∀ d ∈ ds, d ∈ blocksOf f (marksOn f rs)) :
    ls.filter (stays ((o, e) :: (blocksOf f (marksOn f is) ++ blocksOf f (marksOn f rs))) ((o, e) :: ds)) =
      as ++ rs.filter (stays (blocksOf f (marksOn f rs)) ds) := by
  have hdropped : ∀ d ∈ (o, e) :: ds, d ∈ (o, e) :: (blocksOf f (marksOn f is) ++ blocksOf f (marksOn f rs)) := by
    refine List.forall_mem_cons.2 ⟨List.mem_cons_self, fun d hd => ?_⟩
    exact List.mem_cons_of_mem _ (List.mem_append_right _ (hds d hd))
  have hinside : is.filter (stays ((o, e) :: (blocksOf f (marksOn f is) ++ blocksOf f (marksOn f rs)))
      ((o, e) :: ds)) = [] := by
    refine List.filter_eq_nil_iff.2 fun l hl => ?_
    have hl' := h.inside l hl
    have hfilled := (hfits.fits l (h.lines ▸ by simp [hl])).filled
    have hin : (((o, e) :: ds).any fun b => isInside b l.2.start) = true :=
      List.any_eq_true.2 ⟨_, List.mem_cons_self, isInside_iff.2 ⟨hl'.1, hfilled.trans_le hl'.2⟩⟩
    unfold stays
    rw [hin, Bool.not_true, Bool.and_false]
    exact Bool.false_ne_true
  rw [h.filter_lines hfits hdropped, hinside, List.nil_append]
  refine congrArg _ (List.filter_congr fun l hl => ?_)
  obtain ⟨ho, he, hx⟩ := h.behind l hl
  refine stays_congr ?_ ?_
  · have hnone : ((blocksOf f (marksOn f is)).any fun b => l.holds b.1 || l.holds b.2) = false := by
      refine List.any_eq_false.2 fun b hb => ?_
      obtain ⟨h1, h2⟩ := mem_of_mem_blocksOf hb
      rw [not_holds (.inl (hx _ h1)), not_holds (.inl (hx _ h2))]
      exact Bool.false_ne_true
    rw [List.any_cons, not_holds (.inl ho), not_holds (.inl he), List.any_append, hnone, Bool.or_self, Bool.false_or,
      Bool.false_or]
  · have hout : isInside (o, e) l.2.start = false := by
      rw [← Bool.not_eq_true, isInside_iff]
      exact fun hin => absurd (hin.2.trans he) (Nat.lt_irrefl _)
    rw [List.any_cons, hout, Bool.false_or]

/-- The blocks in a block and those behind it. -/
theorem Around.droppedBlocks_eq {m : Type → Type v} [Monad m] [LawfulMonad m] {decision : List Text → m Bool}
    {lo le : Line} (h : Around f ls as lo is le rs o e) :
    droppedBlocks f decision [] ((o, e) :: (blocksOf f (marksOn f is) ++ blocksOf f (marksOn f rs))) =
      decision ((f.opens.captures o.1.name).getD []) >>= fun kept =>
        if kept then droppedBlocks f decision [] (blocksOf f (marksOn f is) ++ blocksOf f (marksOn f rs))
        else ((o, e) :: ·) <$> droppedBlocks f decision [] (blocksOf f (marksOn f rs)) := by
  refine droppedBlocks_cons (fun b hb => ?_) fun b hb => ?_
  · exact isInside_iff.2 (h.contents _ (mem_of_mem_blocksOf hb).1)
  · have hlt := h.rest _ (mem_of_mem_blocksOf hb).1
    rw [← Bool.not_eq_true, isInside_iff]
    exact fun hin => absurd (hin.2.trans hlt) (Nat.lt_irrefl _)

end Places

/-! ## 5. The walk -/

section Walk

variable {m : Type → Type v} [Monad m] [LawfulMonad m]

/-- **From a point of the text on a walk leaves the lines that stay.** -/
theorem keepFrom_lines (decision : List Text → m Bool) {before : Text} {ls : List Line} (h : LinesFit f ls)
    (hbefore : EndsLine before) :
    keepFrom f decision before (textsOf ls) =
      (fun dropped => before ++ textsOf (ls.filter (stays (blocksOf f (marksOn f ls)) dropped))) <$>
        droppedBlocks f decision [] (blocksOf f (marksOn f ls)) := by
  induction hn : ls.length using Nat.strong_induction_on generalizing before ls with
  | _ n ih =>
    have hwalk := walksBy_keepFrom f decision
    cases hfound : findBlock f (tokenize (textsOf ls)) with
    | none =>
      have hnone := findBlock_marksOn h
      rw [hfound, Option.map_none] at hnone
      have hall : ls.filter (stays [] []) = ls := List.filter_eq_self.2 fun _ _ => rfl
      rw [hwalk.ends hfound, blocksOf_eq_nil hnone, droppedBlocks, map_pure, hall]
    | some found =>
      obtain ⟨captures, as, lo, is, le, rs, o, e, hblock⟩ := exists_lineBlock h hbefore hfound
      obtain ⟨m', hm', hfirst⟩ := hblock.first
      have haround := around_of_lines h hblock.lines hblock.opening hblock.closing
      have hnodup : (marksOn f ls).Nodup := (pairwise_marksOn h).imp fun hlt heq =>
        absurd (heq ▸ hlt) (Nat.lt_irrefl _)
      obtain ⟨hblocks, hkept⟩ := blocksOf_firstBlock hfirst hnodup
      have hpassed : EndsLine (before ++ textsOf as) := by
        refine hbefore.append (endsLine_textsOf fun l hl => ?_)
        exact (List.pairwise_append.1 (hblock.lines ▸ h.feeds)).2.2 l hl lo List.mem_cons_self
      have hlength := congrArg List.length hblock.lines
      simp only [List.length_append, List.length_cons] at hlength
      have hisrs : (is ++ rs).Sublist ls := by
        rw [hblock.lines]
        exact (((List.sublist_cons_self le rs).append_left is).cons lo).trans (List.sublist_append_right as _)
      have hasks : (f.opens.captures o.1.name).getD [] = captures := by
        rw [hfirst.captures, hm']
        rfl
      rw [hwalk.goes hfound, keepStep, hblock.asks, hblocks, haround.droppedBlocks_eq, hasks, bind_assoc, map_bind]
      refine bind_congr fun kept => ?_
      rw [pure_bind]
      cases kept with
      | true =>
        dsimp only
        rw [if_pos rfl, if_pos rfl, hblock.head, hblock.inner, hblock.tail, ← textsOf_append,
          ih (is ++ rs).length (by rw [List.length_append]; omega) (h.sublist hisrs) hpassed rfl, marksOn_append, hkept]
        refine map_droppedBlocks_congr fun ds hds => ?_
        rw [haround.filter_kept h fun d hd => (hds d hd).resolve_left List.not_mem_nil, textsOf_append,
          List.append_assoc]
      | false =>
        have hrs := h.sublist ((List.sublist_append_right is rs).trans hisrs)
        dsimp only
        rw [if_neg Bool.false_ne_true, if_neg Bool.false_ne_true, hblock.head, hblock.tail,
          ih rs.length (by omega) hrs hpassed rfl, Functor.map_map]
        refine map_droppedBlocks_congr fun ds hds => ?_
        rw [haround.filter_dropped h fun d hd => (hds d hd).resolve_left List.not_mem_nil, textsOf_append,
          List.append_assoc]

end Walk

/-- The blocks go by the markers of the family alone. -/
theorem blocksOf_claimedOf (f : BlockFamily) (ts : List Located) : blocksOf f (claimedOf f ts) = blocksOf f ts := by
  have hpairs : f.pairing [] ts = f.pairing [] (claimedOf f ts) :=
    Pairing.ofMarkers_filter (fun _ _ _ => ⟨rfl, rfl⟩) (fun _ _ hx => Bool.or_eq_false_iff.1 hx) []
  unfold blocksOf
  rw [← hpairs, claimedOf, List.filterMap_filter]
  refine List.filterMap_congr fun x _ => ?_
  split
  · rfl
  · rename_i hclaims
    cases hcloser : closerIn (f.pairing [] ts).pairs x with
    | none => rfl
    | some e =>
      rw [hpairs] at hcloser
      exact absurd (List.mem_filter.1 (madeOf_pairing f _ _ (mem_of_closerIn hcloser)).1).2 hclaims

/-- **Conditions take out whole lines** where every marker of the family stands alone on its line: the lines of
    the markers of a block, and those inside of a dropped block. The others are left as they are. -/
theorem keepBlocksM_lines {m : Type → Type v} [Monad m] [LawfulMonad m] {t : Text} (h : MarksAlone f t)
    (decision : List Text → m Bool) :
    keepBlocksM f t decision =
      (fun dropped => textsOf ((locateLines t).filter (stays (blocksOf f (locate t)) dropped))) <$>
        droppedBlocks f decision [] (blocksOf f (locate t)) := by
  obtain ⟨hlines, hmarks⟩ := linesFit_locateLines h
  have hwalk := keepFrom_lines decision hlines (.inl rfl)
  rw [locateLines, textsOf_linesFrom, ← locateLines, ← hmarks, blocksOf_claimedOf] at hwalk
  exact hwalk

/-- Markers on lines of their own, with line ends of both kinds and none at the end: an end marker without a start,
    a block in a block, an empty block and a start marker without an end. -/
def linedText : Text :=
  "  ".toList ++ braced "Has_End".toList ++ "\r\nkept\r\n".toList ++ braced "Has_A_Start".toList ++
    "\r\na\r\n\t".toList ++ braced "Has_B_Start".toList ++ "\t\nb\n".toList ++ braced "Has_End".toList ++
    "\n".toList ++ braced "Has_End".toList ++ " \n".toList ++ braced "Has_A_Start".toList ++ "\n".toList ++
    braced "Has_End".toList ++ "\nc\n".toList ++ braced "Has_B_Start".toList

theorem keepBlocksM_lines_lined : MarksAlone hasFamily linedText ∧
    keepBlocksM (m := Id) hasFamily linedText (fun cs => pure (cs == ["A".toList])) =
      textsOf ((locateLines linedText).filter (stays (blocksOf hasFamily (locate linedText))
        (droppedBlocks (m := Id) hasFamily (fun cs => pure (cs == ["A".toList])) []
          (blocksOf hasFamily (locate linedText))))) := by
  have h : MarksAlone hasFamily linedText := by decide +kernel
  exact ⟨h, keepBlocksM_lines (m := Id) h _⟩

/-- The lines of the markers that are left over stay as they are. -/
example : keepBlocks hasFamily linedText (fun cs => cs == ["A".toList]) =
    "  ".toList ++ braced "Has_End".toList ++ "\r\nkept\r\na\r\nc\n".toList ++ braced "Has_B_Start".toList := by
  decide +kernel

end RecordExport

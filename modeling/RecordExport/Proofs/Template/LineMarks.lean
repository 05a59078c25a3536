import RecordExport.Proofs.Template.BlockTree
/-!
# Markers on lines of their own

Where every marker of a family stands alone on its line, the text is told by its lines: a line either holds one
marker, with padding beside it, or none. A line ends with its line feed, and no placeholder reaches over that, so
the markers of lines put together are those of each line.

* `fullLines`, `locateLines`: the lines of a text, each with its own line end, and the bytes they cover;
* `markOn`: the marker on a line;
* `MarksAlone`: every marker of a family stands alone on its line;
* `LineFits`: what a line with or without such a marker is, and `fits_linesFrom`: **the lines of such a text fit**,
  and their markers are the markers of the text;
* `LinesFit`, `claimed_textsOf`: **lines of a text, some of them left out, have the markers that are on each.**
-/

namespace RecordExport

variable {f : BlockFamily}

/-! ## 1. Lines -/

/-- The lines of a text, each with the line feed that ends it. -/
def fullLines : Text → List Text
  | [] => []
  | c :: t =>
    if c = '\n' then [c] :: fullLines t
    else
      match fullLines t with
      | l :: ls => (c :: l) :: ls
      | [] => [[c]]

/-- A line and the bytes that it covers. -/
abbrev Line := Text × Span

/-- Lines with the bytes each covers, the first beginning at `pos`. -/
def linesFrom (pos : Nat) : List Text → List Line
  | [] => []
  | l :: ls => (l, ⟨pos, pos + Text.byteSize l⟩) :: linesFrom (pos + Text.byteSize l) ls

/-- The lines of a text with the bytes each covers. -/
def locateLines (t : Text) : List Line := linesFrom 0 (fullLines t)

/-- The text of lines. -/
def textsOf (ls : List Line) : Text := ls.flatMap (·.1)

theorem textsOf_append (ls ms : List Line) : textsOf (ls ++ ms) = textsOf ls ++ textsOf ms := List.flatMap_append

theorem textsOf_cons (l : Line) (ls : List Line) : textsOf (l :: ls) = l.1 ++ textsOf ls := List.flatMap_cons

theorem fullLines_of_not_mem {l : Text} (hl : l ≠ []) (h : '\n' ∉ l) : fullLines l = [l] := by
  induction l with
  | nil => exact absurd rfl hl
  | cons c l ih =>
    have hc : c ≠ '\n' := fun heq => h (heq ▸ List.mem_cons_self)
    rw [fullLines, if_neg hc]
    by_cases hnil : l = []
    · rw [hnil]
      rfl
    · rw [ih hnil fun hm => h (List.mem_cons_of_mem _ hm)]

theorem fullLines_feed {l : Text} (h : '\n' ∉ l) (t : Text) :
    fullLines (l ++ '\n' :: t) = (l ++ ['\n']) :: fullLines t := by
  induction l with
  | nil => rw [List.nil_append, fullLines, if_pos rfl, List.nil_append]
  | cons c l ih =>
    have hc : c ≠ '\n' := fun heq => h (heq ▸ List.mem_cons_self)
    rw [List.cons_append, fullLines, if_neg hc, ih fun hm => h (List.mem_cons_of_mem _ hm)]
    rfl

/-- A text is empty, a line that nothing ends, or a line with a line feed in front of a text. -/
theorem lines_induction {P : Text → Prop} (nil : P []) (last : ∀ l, l ≠ [] → '\n' ∉ l → P l)
    (line : ∀ l t, '\n' ∉ l → P t → P (l ++ '\n' :: t)) (t : Text) : P t := by
  induction hn : t.length using Nat.strong_induction_on generalizing t with
  | _ n ih =>
    by_cases hmem : '\n' ∈ t
    · obtain ⟨l, r, rfl, hl⟩ := List.eq_append_cons_of_mem hmem
      simp only [List.length_append, List.length_cons] at hn
      exact line l r hl (ih r.length (by omega) r rfl)
    · by_cases hnil : t = []
      · rw [hnil]
        exact nil
      · exact last t hnil hmem

/-- The lines are the text. -/
theorem textsOf_linesFrom (pos : Nat) (t : Text) : textsOf (linesFrom pos (fullLines t)) = t := by
  induction t using lines_induction generalizing pos with
  | nil => rfl
  | last l hl h =>
    rw [fullLines_of_not_mem hl h]
    exact List.append_nil l
  | line l t h ih =>
    rw [fullLines_feed h, linesFrom, textsOf_cons, ih]
    simp

/-- Every line begins where the ones before it have ended. -/
theorem pairwise_linesFrom (pos : Nat) (ls : List Text) :
    (∀ l ∈ linesFrom pos ls, pos ≤ l.2.start) ∧
      (linesFrom pos ls).Pairwise fun a b => a.2.stop ≤ b.2.start := by
  induction ls generalizing pos with
  | nil => exact ⟨fun l hl => absurd hl List.not_mem_nil, .nil⟩
  | cons l ls ih =>
    obtain ⟨hstarts, hpairwise⟩ := ih (pos + Text.byteSize l)
    refine ⟨fun x hx => ?_, .cons hstarts hpairwise⟩
    rcases List.mem_cons.1 hx with rfl | hx
    · exact Nat.le_refl _
    · exact (Nat.le_add_right _ _).trans (hstarts x hx)

/-- A line that is followed by another ends with its line feed. -/
theorem pairwise_feed_linesFrom (pos : Nat) (t : Text) :
    (linesFrom pos (fullLines t)).Pairwise fun a _ => a.1.getLast? = some '\n' := by
  induction t using lines_induction generalizing pos with
  | nil => exact .nil
  | last l hl h =>
    rw [fullLines_of_not_mem hl h]
    exact List.pairwise_singleton _ _
  | line l t h ih =>
    rw [fullLines_feed h]
    exact .cons (fun _ _ => List.getLast?_concat) (ih _)

/-! ## 2. Markers on lines -/

/-- The marker of a family on a line, with its place in the text. -/
def markOn (f : BlockFamily) (l : Line) : Option Located :=
  (spansFrom l.2.start (tokenize l.1)).find? fun x => f.claims x.1

/-- The markers on lines. -/
def marksOn (f : BlockFamily) (ls : List Line) : List Located := ls.filterMap (markOn f)

theorem marksOn_cons (f : BlockFamily) (l : Line) (ls : List Line) :
    marksOn f (l :: ls) = (markOn f l).toList ++ marksOn f ls := by
  unfold marksOn
  cases hmark : markOn f l with
  | none => rw [List.filterMap_cons_none hmark]; rfl
  | some x => rw [List.filterMap_cons_some hmark]; rfl

theorem marksOn_append (f : BlockFamily) (ls ms : List Line) :
    marksOn f (ls ++ ms) = marksOn f ls ++ marksOn f ms := List.filterMap_append

/-- A token begins on the line. -/
def Line.holds (l : Line) (x : Located) : Bool := l.2.start ≤ x.2.start && x.2.start < l.2.stop

/-- Every marker of the family stands alone on its line. -/
def MarksAlone (f : BlockFamily) (t : Text) : Prop :=
  ∀ ls k rs, tokenize t = ls ++ k :: rs → f.claims k = true → standsAlone (sourceOf ls) (sourceOf rs) = true

/-- A test that every marker among tokens, with a text in front of them, stands alone on its line. -/
def aloneFrom (f : BlockFamily) (before : Text) : List Token → Bool
  | [] => true
  | k :: ks => (!f.claims k || standsAlone before (sourceOf ks)) && aloneFrom f (before ++ k.source) ks

theorem aloneFrom_iff {before : Text} {ks : List Token} : aloneFrom f before ks = true ↔
    ∀ ls k rs, ks = ls ++ k :: rs → f.claims k = true →
      standsAlone (before ++ sourceOf ls) (sourceOf rs) = true := by
  induction ks generalizing before with
  | nil => exact ⟨fun _ ls k rs h => absurd h.symm (List.append_ne_nil_of_right_ne_nil ls (List.cons_ne_nil k rs)),
      fun _ => rfl⟩
  | cons k ks ih =>
    rw [aloneFrom, Bool.and_eq_true, Bool.or_eq_true, Bool.not_eq_true', ih]
    constructor
    · rintro ⟨hfirst, hrest⟩ ls x rs hsplit hclaims
      cases ls with
      | nil =>
        obtain ⟨rfl, rfl⟩ := List.cons.inj hsplit
        rw [sourceOf_nil, List.append_nil]
        exact hfirst.resolve_left fun h => Bool.false_ne_true (h.symm.trans hclaims)
      | cons l ls =>
        obtain ⟨rfl, hbehind⟩ := List.cons.inj hsplit
        rw [sourceOf_cons, ← List.append_assoc]
        exact hrest ls x rs hbehind hclaims
    · intro h
      refine ⟨?_, fun ls x rs hsplit hclaims => ?_⟩
      · cases hclaims : f.claims k with
        | false => exact .inl rfl
        | true =>
          have halone := h [] k ks rfl hclaims
          rw [sourceOf_nil, List.append_nil] at halone
          exact .inr halone
      · have halone := h (k :: ls) x rs (congrArg _ hsplit) hclaims
        rwa [sourceOf_cons, ← List.append_assoc] at halone

instance (f : BlockFamily) (t : Text) : Decidable (MarksAlone f t) :=
  decidable_of_iff (aloneFrom f [] (tokenize t) = true) aloneFrom_iff

/-- A marker of the family is a placeholder. -/
theorem exists_placeholder_of_claims {k : Token} (h : f.claims k = true) : ∃ b, k = .placeholder b := by
  cases k with
  | literal l => cases h
  | placeholder b => exact ⟨b, rfl⟩

/-- Markers stand alone wherever they are written in the text. -/
theorem marksAlone_iff {t : Text} : MarksAlone f t ↔ ∀ a b r, t = a ++ (braced b ++ r) → IsBody b →
    f.claims (.placeholder b) = true → standsAlone a r = true := by
  constructor
  · intro h a b r ht hb hclaims
    have halone := h (tokenize a) (.placeholder b) (tokenize r) (by rw [ht, tokenize_append_braced a hb]) hclaims
    rwa [source_tokenize, source_tokenize] at halone
  · intro h ls k rs hks hclaims
    obtain ⟨b, rfl⟩ := exists_placeholder_of_claims hclaims
    refine h (sourceOf ls) b (sourceOf rs) ?_ ?_ hclaims
    · conv => lhs; rw [← source_tokenize t, hks, sourceOf_append, sourceOf_cons]
      rfl
    · exact isBody_of_mem_tokenize (hks ▸ List.mem_append_right ls List.mem_cons_self)

/-- What a line is, with one marker that stands alone or without a marker. -/
structure LineFits (f : BlockFamily) (l : Line) : Prop where
  filled : l.2.start < l.2.stop
  marks : (tokenize l.1).filter f.claims = (markOn f l).toList.map (·.1)
  holds : ∀ x, markOn f l = some x → l.holds x = true
  /-- there is only padding in front of the marker, and padding and a line end behind it -/
  alone : ∀ x, markOn f l = some x → ∃ b p q, x.1 = .placeholder b ∧ IsBody b ∧ l.1 = p ++ (braced b ++ q) ∧
    p.all isPadding = true ∧ (Text.firstLine q).all isPadding = true ∧ q.behindLine = []

/-- A text without braces has no marker. -/
theorem claimed_of_not_mem {ks : List Token} (h : '{' ∉ sourceOf ks) : ks.filter f.claims = [] := by
  refine List.filter_eq_nil_iff.2 fun k hk hclaims => h ?_
  obtain ⟨b, rfl⟩ := exists_placeholder_of_claims hclaims
  exact List.mem_flatMap.2 ⟨_, hk, List.mem_cons_self⟩

/-- Padding and a line end have no braces. -/
theorem brace_not_mem_of_firstLine {q : Text} (h : (Text.firstLine q).all isPadding = true)
    (hbehind : q.behindLine = []) : '{' ∉ q := by
  by_cases hn : '\n' ∈ q
  · obtain ⟨l, r, rfl, hl⟩ := List.eq_append_cons_of_mem hn
    rw [Text.firstLine_cons hl] at h
    rw [Text.behindLine_cons hl] at hbehind
    rw [hbehind]
    intro hmem
    rcases List.mem_append.1 hmem with hmem | hmem
    · exact not_mem_of_padding h rfl hmem
    · simp at hmem
  · rw [Text.firstLine_of_not_mem hn] at h
    exact not_mem_of_padding h rfl

/-- The markers of a family among located tokens. -/
def claimedOf (f : BlockFamily) (ts : List Located) : List Located := ts.filter fun x => f.claims x.1

theorem map_claimedOf (f : BlockFamily) (pos : Nat) (ks : List Token) :
    (claimedOf f (spansFrom pos ks)).map (·.1) = ks.filter f.claims := by
  unfold claimedOf
  conv => rhs; rw [← spansFrom_fst pos ks, List.filter_map]
  rfl

theorem claimedOf_of_not_mem {ks : List Token} (h : '{' ∉ sourceOf ks) (pos : Nat) :
    claimedOf f (spansFrom pos ks) = [] :=
  List.map_eq_nil_iff.1 ((map_claimedOf f pos ks).trans (claimed_of_not_mem h))

/-- Beside a marker that stands alone on a line there is padding, and behind that nothing. -/
theorem padding_on_line {l b : Text} {ls rs : List Token} (hfeed : ∀ x y, l = x ++ '\n' :: y → y = [])
    (h : MarksAlone f l) (hks : tokenize l = ls ++ .placeholder b :: rs)
    (hclaims : f.claims (.placeholder b) = true) :
    l = sourceOf ls ++ (braced b ++ sourceOf rs) ∧ (sourceOf ls).all isPadding = true ∧
      (Text.firstLine (sourceOf rs)).all isPadding = true ∧ Text.behindLine (sourceOf rs) = [] := by
  have hsplit : l = sourceOf ls ++ (braced b ++ sourceOf rs) := by
    conv => lhs; rw [← source_tokenize l, hks, sourceOf_append, sourceOf_cons]
    rfl
  obtain ⟨hleft, hright⟩ := Bool.and_eq_true_iff.1 (h ls _ rs hks hclaims)
  -- a line feed can only be the last character
  have hline : '\n' ∉ sourceOf ls := fun hn => by
    obtain ⟨x, y, hxy⟩ := List.append_of_mem hn
    have hnil := hfeed x (y ++ (braced b ++ sourceOf rs)) (by rw [hsplit, hxy, List.append_assoc, List.cons_append])
    exact List.cons_ne_nil _ _ (List.append_eq_nil_iff.1 (List.append_eq_nil_iff.1 hnil).2).1
  rw [Text.lastLine_of_not_mem hline] at hleft
  refine ⟨hsplit, hleft, hright, ?_⟩
  by_cases hn : '\n' ∈ sourceOf rs
  · obtain ⟨x, y, hxy, hx⟩ := List.eq_append_cons_of_mem hn
    rw [hxy, Text.behindLine_cons hx]
    exact hfeed (sourceOf ls ++ (braced b ++ x)) y (by rw [hsplit, hxy]; simp only [List.append_assoc])
  · exact Text.behindLine_of_not_mem hn

/-- **A line fits**, and its marker is all that the family claims of it. -/
theorem lineFits {l : Text} (hl : l ≠ []) (hfeed : ∀ x y, l = x ++ '\n' :: y → y = []) (h : MarksAlone f l)
    (pos : Nat) :
    LineFits f (l, ⟨pos, pos + Text.byteSize l⟩) ∧
      claimedOf f (spansFrom pos (tokenize l)) = (markOn f (l, ⟨pos, pos + Text.byteSize l⟩)).toList := by
  have hfilled : pos < pos + Text.byteSize l := Nat.lt_add_of_pos_right (byteSize_pos hl)
  have hmap := map_claimedOf f pos (tokenize l)
  have hmark : markOn f (l, ⟨pos, pos + Text.byteSize l⟩) = (claimedOf f (spansFrom pos (tokenize l))).head? :=
    List.head?_filter.symm
  by_cases hex : ∃ k ∈ tokenize l, f.claims k = true
  · obtain ⟨k, hmem, hclaims⟩ := hex
    obtain ⟨ls, rs, hks⟩ := List.append_of_mem hmem
    obtain ⟨b, rfl⟩ := exists_placeholder_of_claims hclaims
    obtain ⟨hsplit, hleft, hright, hbehind⟩ := padding_on_line hfeed h hks hclaims
    have hnone := claimedOf_of_not_mem (f := f) (not_mem_of_padding hleft rfl) pos
    have hclaimed : claimedOf f (spansFrom pos (tokenize l)) =
        [(.placeholder b, ⟨pos + Text.byteSize (sourceOf ls),
          pos + Text.byteSize (sourceOf ls) + Token.byteSize (.placeholder b)⟩)] := by
      rw [hks, spansFrom_append, spansFrom]
      unfold claimedOf at hnone ⊢
      rw [List.filter_append, hnone, List.nil_append, List.filter_cons, if_pos hclaims]
      exact congrArg _ (claimedOf_of_not_mem (brace_not_mem_of_firstLine hright hbehind) _)
    rw [hclaimed, List.head?_cons] at hmark
    refine ⟨⟨hfilled, ?_, fun x hx => ?_, fun x hx => ?_⟩, ?_⟩
    · rw [hmark, ← hmap, hclaimed]
      rfl
    · obtain rfl := Option.some.inj (hmark.symm.trans hx)
      have hsize := congrArg Text.byteSize hsplit
      have hmarker : 0 < Text.byteSize (braced b) := byteSize_pos (List.cons_ne_nil _ _)
      rw [Text.byteSize_append, Text.byteSize_append] at hsize
      simp only [Line.holds, Bool.and_eq_true, decide_eq_true_eq]
      omega
    · obtain rfl := Option.some.inj (hmark.symm.trans hx)
      exact ⟨b, _, _, rfl, isBody_of_mem_tokenize hmem, hsplit, hleft, hright, hbehind⟩
    · rw [hmark, hclaimed]
      rfl
  · have hclaimed : claimedOf f (spansFrom pos (tokenize l)) = [] := by
      refine List.map_eq_nil_iff.1 (hmap.trans (List.filter_eq_nil_iff.2 fun k hk hclaims => hex ⟨k, hk, hclaims⟩))
    rw [hclaimed, List.head?_nil] at hmark
    have hnot : ∀ {x}, markOn f (l, ⟨pos, pos + Text.byteSize l⟩) ≠ some x := fun hx => by
      rw [hmark] at hx
      cases hx
    refine ⟨⟨hfilled, ?_, fun x hx => absurd hx hnot, fun x hx => absurd hx hnot⟩, ?_⟩
    · rw [hmark, ← hmap, hclaimed]
      rfl
    · rw [hmark, hclaimed]
      rfl

/-! ## 3. The lines of a text -/

theorem getLast?_behind_braced {a b r : Text} (h : (a ++ (braced b ++ r)).getLast? = some '\n') :
    r.getLast? = some '\n' := by
  rcases List.eq_nil_or_concat' r with rfl | ⟨r, c, rfl⟩
  · have hbrace : a ++ (braced b ++ []) = (a ++ '{' :: '{' :: (b ++ ['}'])) ++ ['}'] := by simp [braced]
    rw [hbrace, List.getLast?_concat] at h
    cases h
  · rw [← List.append_assoc, ← List.append_assoc, List.getLast?_concat] at h
    rw [List.getLast?_concat, h]

theorem lastLine_feed_append (s t : Text) : Text.lastLine ((s ++ ['\n']) ++ t) = Text.lastLine t := by
  by_cases hn : '\n' ∈ t
  · exact (Text.lastLine_append_of_mem hn _).1
  · rw [List.append_assoc, List.singleton_append, Text.lastLine_cons hn, Text.lastLine_of_not_mem hn]

/-- The markers of tokens put together, where a literal may come of two. -/
theorem claimedOf_glue (pos : Nat) (ks ts : List Token) :
    claimedOf f (spansFrom pos (glue ks ts)) = claimedOf f (spansFrom pos ks) ++
      claimedOf f (spansFrom (pos + Text.byteSize (sourceOf ks)) ts) := by
  unfold claimedOf
  rcases List.eq_nil_or_concat' ks with rfl | ⟨ks, k, rfl⟩
  · rfl
  · rw [glue_concat, spansFrom_append, spansFrom_append, sourceOf_append, Text.byteSize_append, List.filter_append,
      List.filter_append, List.append_assoc, ← Nat.add_assoc]
    refine congrArg _ ?_
    generalize pos + Text.byteSize (sourceOf ks) = pos
    unfold fuse
    split
    · rename_i l m ts
      have hliteral : ∀ (l : Text) (s : Span) (ts : List Located),
          ((Token.literal l, s) :: ts).filter (fun x => f.claims x.1) = ts.filter fun x => f.claims x.1 :=
        fun _ _ _ => List.filter_cons_of_neg Bool.false_ne_true
      simp only [spansFrom, hliteral, Token.byteSize, Token.source, sourceOf_cons, sourceOf_nil, List.append_nil,
        Text.byteSize_append, Nat.add_assoc, List.filter_nil, List.nil_append]
    · rw [spansFrom, spansFrom, spansFrom, sourceOf_cons, sourceOf_nil, List.append_nil]
      exact List.filter_append [_] _

theorem claimed_glue (ks ts : List Token) :
    (glue ks ts).filter f.claims = ks.filter f.claims ++ ts.filter f.claims := by
  rw [← map_claimedOf f 0 (glue ks ts), claimedOf_glue, List.map_append, map_claimedOf, map_claimedOf]

/-- **The lines of a text whose markers stand alone fit**, and their markers are those of the text. -/
theorem fits_linesFrom {t : Text} (h : MarksAlone f t) (pos : Nat) :
    (∀ l ∈ linesFrom pos (fullLines t), LineFits f l) ∧
      claimedOf f (spansFrom pos (tokenize t)) = marksOn f (linesFrom pos (fullLines t)) := by
  induction t using lines_induction generalizing pos with
  | nil =>
    rw [tokenize]
    exact ⟨fun l hl => absurd hl List.not_mem_nil, rfl⟩
  | last l hl hn =>
    obtain ⟨hfits, hclaimed⟩ := lineFits hl (fun x y hxy => absurd (by rw [hxy]; simp) hn) h pos
    rw [fullLines_of_not_mem hl hn, linesFrom, linesFrom, marksOn_cons, hclaimed]
    exact ⟨fun x hx => List.mem_singleton.1 hx ▸ hfits, (List.append_nil _).symm⟩
  | line l t hn ih =>
    have hsplit : l ++ '\n' :: t = (l ++ ['\n']) ++ t := by simp
    rw [marksAlone_iff, hsplit] at h
    have hline : MarksAlone f (l ++ ['\n']) := marksAlone_iff.2 fun a b r ha hb hclaims => by
      have halone := h a b (r ++ t) (by rw [ha]; simp only [List.append_assoc]) hb hclaims
      have hmem : '\n' ∈ r := List.mem_of_getLast? (getLast?_behind_braced (ha ▸ List.getLast?_concat))
      unfold standsAlone at halone ⊢
      rwa [(Text.firstLine_append_of_mem hmem t).1] at halone
    have hrest : MarksAlone f t := marksAlone_iff.2 fun a b r ha hb hclaims => by
      have halone := h ((l ++ ['\n']) ++ a) b r (by rw [ha]; simp only [List.append_assoc]) hb hclaims
      unfold standsAlone at halone ⊢
      rwa [lastLine_feed_append] at halone
    have hfeed : ∀ x y, l ++ ['\n'] = x ++ '\n' :: y → y = [] := fun x y hxy => by
      rcases List.eq_nil_or_concat' y with rfl | ⟨y, c, rfl⟩
      · rfl
      · rw [← List.cons_append, ← List.append_assoc] at hxy
        exact absurd (by rw [(List.append_inj' hxy rfl).1]; simp) hn
    obtain ⟨hfits, hclaimed⟩ := lineFits (List.concat_ne_nil _ _) hfeed hline pos
    obtain ⟨hfitsRest, hclaimedRest⟩ := ih hrest (pos + Text.byteSize (l ++ ['\n']))
    rw [fullLines_feed hn, linesFrom]
    refine ⟨fun x hx => ?_, ?_⟩
    · rcases List.mem_cons.1 hx with rfl | hx
      · exact hfits
      · exact hfitsRest x hx
    · rw [hsplit, tokenize_append (not_unfinished_feed l), claimedOf_glue, source_tokenize, hclaimedRest, hclaimed,
        marksOn_cons]

/-! ## 4. The markers of lines put together -/

/-- The text ends with a line feed, unless it is empty. -/
def EndsLine (t : Text) : Prop := t = [] ∨ t.getLast? = some '\n'

theorem EndsLine.append {s t : Text} (hs : EndsLine s) (ht : EndsLine t) : EndsLine (s ++ t) := by
  rcases ht with rfl | ht
  · rw [List.append_nil]
    exact hs
  · exact .inr (by rw [List.getLast?_append, ht]; rfl)

/-- What stands behind it is a line by itself. -/
theorem EndsLine.lastLine_append {s : Text} (hs : EndsLine s) (t : Text) :
    Text.lastLine (s ++ t) = Text.lastLine t := by
  rcases hs with rfl | hs
  · rfl
  · obtain ⟨s, rfl⟩ := List.getLast?_eq_some_iff.1 hs
    exact lastLine_feed_append s t

/-- Behind the end of a line a text has its own markers. -/
theorem EndsLine.claimed_append {s : Text} (hs : EndsLine s) (t : Text) :
    (tokenize (s ++ t)).filter f.claims = (tokenize s).filter f.claims ++ (tokenize t).filter f.claims := by
  rcases hs with rfl | hs
  · rw [tokenize]
    rfl
  · obtain ⟨s, rfl⟩ := List.getLast?_eq_some_iff.1 hs
    rw [tokenize_append (not_unfinished_feed s), claimed_glue]

/-- Lines of a text, some of them left out. -/
structure LinesFit (f : BlockFamily) (ls : List Line) : Prop where
  fits : ∀ l ∈ ls, LineFits f l
  apart : ls.Pairwise fun a b => a.2.stop ≤ b.2.start
  feeds : ls.Pairwise fun a _ => a.1.getLast? = some '\n'

theorem LinesFit.sublist {ls ms : List Line} (h : LinesFit f ls) (hms : ms.Sublist ls) : LinesFit f ms :=
  ⟨fun l hl => h.fits l (hms.mem hl), h.apart.sublist hms, h.feeds.sublist hms⟩

theorem linesFit_locateLines {t : Text} (h : MarksAlone f t) :
    LinesFit f (locateLines t) ∧ claimedOf f (locate t) = marksOn f (locateLines t) :=
  ⟨⟨(fits_linesFrom h 0).1, (pairwise_linesFrom 0 _).2, pairwise_feed_linesFrom 0 t⟩, (fits_linesFrom h 0).2⟩

/-- Lines in front of a line end with the end of a line. -/
theorem endsLine_textsOf {ls : List Line} (h : ∀ l ∈ ls, l.1.getLast? = some '\n') : EndsLine (textsOf ls) := by
  induction ls with
  | nil => exact .inl rfl
  | cons l ls ih =>
    rw [textsOf_cons]
    exact .append (.inr (h l List.mem_cons_self)) (ih fun l hl => h l (List.mem_cons_of_mem _ hl))

/-- **The markers of lines put together are those on each line.** -/
theorem claimed_textsOf {ls : List Line} (h : LinesFit f ls) :
    (tokenize (textsOf ls)).filter f.claims = (marksOn f ls).map (·.1) := by
  induction ls with
  | nil =>
    show (tokenize []).filter f.claims = _
    rw [tokenize]
    rfl
  | cons l ls ih =>
    have hl := (h.fits l List.mem_cons_self).marks
    rw [textsOf_cons, marksOn_cons, List.map_append, ← hl, ← ih (h.sublist (List.sublist_cons_self l ls))]
    cases ls with
    | nil =>
      have hnil : (tokenize (textsOf [])).filter f.claims = [] := by
        show (tokenize []).filter f.claims = []
        rw [tokenize]
        rfl
      rw [hnil, List.append_nil]
      exact congrArg (fun t => (tokenize t).filter f.claims) (List.append_nil l.1)
    | cons m ms =>
      exact EndsLine.claimed_append (.inr ((List.pairwise_cons.1 h.feeds).1 m List.mem_cons_self)) _

end RecordExport

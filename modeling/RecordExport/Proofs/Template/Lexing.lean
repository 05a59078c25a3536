import Mathlib.Data.List.Chain
import RecordExport.Proofs.Validation.Issues
/-!
# Where the placeholders of a text are

Cutting a text into tokens is settled by what the tokens look like: a list of tokens that alternates
between literals without placeholders and placeholders is what its own text is cut into, and no other list
is. So the tokens from the middle of a text on are those the whole text has there, as long as the middle is
not inside a placeholder.

* `tokenize_eq_iff`: **the tokens of a text are the one list that writes it and is well cut**;
* `tokenize_eq_joined`: the same tokens come of taking the longest piece at each place and joining the
  literal ones;
* `WellCut.cut`: a text is cut between two of its tokens or inside one;
* `lexed_locate`: what the located tokens of a text are: they cover it, they are its placeholders, and what
  the rest of a text has is what the text has there.
-/

namespace RecordExport

/-! ## 1. Lists of tokens that stand for themselves -/

/-- No placeholder stands in the text. -/
def Plain (l : Text) : Prop := ∀ a b r, IsBody b → l ≠ a ++ (braced b ++ r)

theorem plain_nil : Plain [] := fun _ _ _ _ h =>
  List.cons_ne_nil _ _ (List.append_eq_nil_iff.1 (List.append_eq_nil_iff.1 h.symm).2).1

theorem Plain.of_suffix {l m : Text} (h : Plain l) (hs : m <:+ l) : Plain m := by
  rintro a b r hb rfl
  obtain ⟨x, rfl⟩ := hs
  exact h (x ++ a) b r hb (List.append_assoc x a _).symm

/-- A character that begins no placeholder leaves a text plain. -/
theorem Plain.cons {c : Char} {l z : Text} (h : Plain l) (hcut : cutPlaceholder? (c :: (l ++ z)) = none) :
    Plain (c :: l) := by
  intro a b r hb heq
  cases a with
  | nil =>
    have hwhole : c :: (l ++ z) = braced b ++ (r ++ z) := by
      rw [← List.cons_append, heq, List.nil_append, List.append_assoc]
    rw [hwhole, cutPlaceholder?_braced hb] at hcut
    cases hcut
  | cons x a => exact h a b r hb (List.cons.inj heq).2

/-- Literals without placeholders between placeholders, each literal as long as it can be. -/
inductive WellCut : List Token → Prop
  | nil : WellCut []
  | placeholder {b : Text} {ks : List Token} (body : IsBody b) (rest : WellCut ks) :
    WellCut (.placeholder b :: ks)
  | last {l : Text} (filled : l ≠ []) (plain : Plain l) : WellCut [.literal l]
  | literal {l b : Text} {ks : List Token} (filled : l ≠ []) (plain : Plain l)
    (rest : WellCut (.placeholder b :: ks)) : WellCut (.literal l :: .placeholder b :: ks)

namespace WellCut

variable {ks ls : List Token} {k : Token}

theorem tail (h : WellCut (k :: ks)) : WellCut ks := by
  cases h with
  | placeholder _ rest => exact rest
  | last _ _ => exact nil
  | literal _ _ rest => exact rest

theorem of_append (h : WellCut (ls ++ ks)) : WellCut ks := by
  induction ls with
  | nil => exact h
  | cons l ls ih => exact ih h.tail

theorem body {b : Text} (h : WellCut (.placeholder b :: ks)) : IsBody b := by
  cases h with
  | placeholder body _ => exact body

/-- A literal may lose its beginning. -/
theorem of_suffix {l m : Text} (h : WellCut (.literal l :: ks)) (hm : m ≠ []) (hs : m <:+ l) :
    WellCut (.literal m :: ks) := by
  cases h with
  | last _ plain => exact last hm (plain.of_suffix hs)
  | literal _ plain rest => exact literal hm (plain.of_suffix hs) rest

/-- Of two neighbours one is a placeholder. -/
theorem isChain (h : WellCut ks) : ks.IsChain fun j k => j.isPlaceholder = true ∨ k.isPlaceholder = true := by
  induction h with
  | nil => exact .nil
  | @placeholder b ks _ rest ih =>
    cases ks with
    | nil => exact .singleton _
    | cons k ks => exact .cons_cons (.inl rfl) ih
  | last _ _ => exact .singleton _
  | literal _ _ _ ih => exact .cons_cons (.inr rfl) ih

end WellCut

/-! ## 2. The tokens of a text -/

/-- A character that begins no placeholder joins the literal it stands before. -/
theorem wellCut_joinLiteral {c : Char} {ks : List Token} (h : WellCut ks)
    (hcut : cutPlaceholder? (c :: sourceOf ks) = none) : WellCut (joinLiteral c ks) := by
  cases h with
  | nil => exact .last (List.cons_ne_nil _ _) (plain_nil.cons hcut)
  | placeholder body rest =>
    exact .literal (List.cons_ne_nil _ _) (plain_nil.cons hcut) (.placeholder body rest)
  | last _ plain => exact .last (List.cons_ne_nil _ _) (plain.cons hcut)
  | literal _ plain rest => exact .literal (List.cons_ne_nil _ _) (plain.cons hcut) rest

theorem wellCut_tokenize (t : Text) : WellCut (tokenize t) := by
  fun_induction tokenize t with
  | case1 => exact .nil
  | case2 c t body rest hcut ih => exact .placeholder (isBody_of_cutPlaceholder? hcut) ih
  | case3 c t hcut ih => exact wellCut_joinLiteral ih ((source_tokenize t).symm ▸ hcut)

/-- A text without placeholders is one literal. -/
theorem tokenize_plain {l : Text} (hl : l ≠ []) (h : Plain l) : tokenize l = [.literal l] := by
  induction l with
  | nil => exact absurd rfl hl
  | cons c l ih =>
    have hcut : cutPlaceholder? (c :: l) = none := by
      cases hfound : cutPlaceholder? (c :: l) with
      | none => rfl
      | some p =>
        exact absurd (eq_of_cutPlaceholder? hfound).1 (h [] p.1 p.2 (isBody_of_cutPlaceholder? hfound))
    rw [tokenize_of_not_cut hcut]
    cases l with
    | nil => rw [tokenize]; rfl
    | cons d l => rw [ih (List.cons_ne_nil d l) (h.of_suffix (List.suffix_cons c _))]; rfl

/-- **A well cut list is what its own text is cut into.** -/
theorem tokenize_sourceOf {ks : List Token} (h : WellCut ks) : tokenize (sourceOf ks) = ks := by
  induction h with
  | nil => rw [sourceOf_nil, tokenize]
  | placeholder body _ ih => rw [sourceOf_cons, Token.source, tokenize_braced body, ih]
  | last filled plain => rw [sourceOf_cons, sourceOf_nil, List.append_nil, Token.source, tokenize_plain filled plain]
  | @literal l b ks filled plain rest ih =>
    rw [sourceOf_cons, Token.source, tokenize_braced rest.body] at ih
    rw [sourceOf_cons, sourceOf_cons, Token.source, Token.source, tokenize_append_braced l rest.body, ih,
      tokenize_plain filled plain]
    rfl

/-- **The tokens of a text are the one list that writes it and is well cut.** -/
theorem tokenize_eq_iff {t : Text} {ks : List Token} : tokenize t = ks ↔ WellCut ks ∧ sourceOf ks = t := by
  constructor
  · rintro rfl
    exact ⟨wellCut_tokenize t, source_tokenize t⟩
  · rintro ⟨hks, rfl⟩
    exact tokenize_sourceOf hks

/-- **A text is cut between two of its tokens or inside one of them.** -/
theorem exists_cut {ks : List Token} {pre rest : Text} (h : sourceOf ks = pre ++ rest) :
    (∃ ls rs, ks = ls ++ rs ∧ pre = sourceOf ls ∧ rest = sourceOf rs) ∨
      ∃ ls k rs x y, ks = ls ++ k :: rs ∧ k.source = x ++ y ∧ x ≠ [] ∧ y ≠ [] ∧
        pre = sourceOf ls ++ x ∧ rest = y ++ sourceOf rs := by
  induction ks generalizing pre with
  | nil =>
    obtain ⟨rfl, rfl⟩ := List.append_eq_nil_iff.1 h.symm
    exact .inl ⟨[], [], rfl, rfl, rfl⟩
  | cons k ks ih =>
    rw [sourceOf_cons] at h
    rcases List.append_eq_append_iff.1 h with ⟨z, rfl, hz⟩ | ⟨z, hk, rfl⟩
    · rcases ih hz with ⟨ls, rs, rfl, rfl, rfl⟩ | ⟨ls, j, rs, x, y, rfl, hj, hx, hy, rfl, rfl⟩
      · exact .inl ⟨k :: ls, rs, rfl, (sourceOf_cons k ls).symm, rfl⟩
      · refine .inr ⟨k :: ls, j, rs, x, y, rfl, hj, hx, hy, ?_, rfl⟩
        rw [sourceOf_cons, List.append_assoc]
    · by_cases hpre : pre = []
      · refine .inl ⟨[], k :: ks, rfl, hpre, ?_⟩
        rw [hpre, List.nil_append] at hk
        rw [sourceOf_cons, hk]
      · by_cases hz : z = []
        · refine .inl ⟨[k], ks, rfl, ?_, ?_⟩
          · rw [sourceOf_cons, sourceOf_nil, List.append_nil, hk, hz, List.append_nil]
          · rw [hz, List.nil_append]
        · exact .inr ⟨[], k, ks, pre, z, rfl, hk, hpre, hz, rfl, rfl⟩

/-! ## 3. Longest pieces, joined -/

/-- The pieces of a text with the longest taken at each place: a placeholder, a run without opening braces,
    or a single opening brace. -/
def pieces : Text → List Token
  | [] => []
  | c :: t =>
    match _h : cutPlaceholder? (c :: t) with
    | some (body, rest) => .placeholder body :: pieces rest
    | none =>
      if c = '{' then .literal ['{'] :: pieces t
      else .literal (c :: t.takeWhile (· ≠ '{')) :: pieces (t.dropWhile (· ≠ '{'))
  termination_by t => t.length
  decreasing_by
    · exact length_lt_of_cutPlaceholder? _h
    · exact Nat.lt_succ_self _
    · exact Nat.lt_succ_of_le (List.dropWhile_sublist _).length_le

/-- A run without opening braces is literal, and one with the literal behind it. -/
theorem tokenize_run {l : Text} (hl : l ≠ []) (h : ∀ c ∈ l, c ≠ '{') (t : Text) :
    tokenize (l ++ t) = fuse (.literal l) (tokenize t) := by
  induction l with
  | nil => exact absurd rfl hl
  | cons c l ih =>
    have hcut : cutPlaceholder? (c :: (l ++ t)) = none :=
      cutPlaceholder?_of_ne fun z hz => h c List.mem_cons_self (List.cons.inj hz).1
    rw [List.cons_append, tokenize_of_not_cut hcut]
    cases l with
    | nil => exact joinLiteral_eq_fuse c (tokenize t)
    | cons d l =>
      rw [ih (List.cons_ne_nil d l) fun c hc => h c (List.mem_cons_of_mem _ hc)]
      cases tokenize t with
      | nil => rfl
      | cons k ks => cases k <;> rfl

/-- Taking piece after piece goes on with the tokens of the text. -/
theorem foldl_pieces (t : Text) (ks : List Token) :
    (pieces t).foldl (fun ks k => glue ks [k]) ks = glue ks (tokenize t) := by
  fun_induction pieces t generalizing ks with
  | case1 =>
    rw [tokenize, glue_nil]
    rfl
  | case2 c t body rest hcut ih =>
    rw [List.foldl_cons, ih, glue_assoc, tokenize_of_cut hcut]
    rfl
  | case3 t hcut ih =>
    rw [List.foldl_cons, ih, glue_assoc, tokenize_of_not_cut hcut, joinLiteral_eq_fuse]
  | case4 c t hcut hc ih =>
    have hrun : ∀ x ∈ c :: t.takeWhile (· ≠ '{'), x ≠ '{' := by
      intro x hx
      rcases List.mem_cons.1 hx with rfl | hx
      · exact hc
      · exact of_decide_eq_true (p := x ≠ '{') (List.mem_takeWhile_imp (p := fun x => decide (x ≠ '{')) hx)
    have hsplit : c :: t = (c :: t.takeWhile (· ≠ '{')) ++ t.dropWhile (· ≠ '{') := by
      rw [List.cons_append, List.takeWhile_append_dropWhile]
    rw [List.foldl_cons, ih, glue_assoc, hsplit, tokenize_run (List.cons_ne_nil _ _) hrun]

/-- **The tokens of a text are its longest pieces, each literal one joined to the one before it.** -/
theorem tokenize_eq_joined (t : Text) : tokenize t = (pieces t).foldl (fun ks k => glue ks [k]) [] :=
  (foldl_pieces t []).symm

/-! ## 4. Positions -/

/-- The ranges stand one right behind the other, from one byte to another. -/
def Contiguous : Nat → Nat → List Span → Prop
  | a, z, [] => a = z
  | a, z, s :: ss => s.start = a ∧ Contiguous s.stop z ss

/-- The text has this piece at the range, whose ends lie between characters. -/
def StandsAt (t w : Text) (s : Span) : Prop :=
  ∃ pre post, t = pre ++ (w ++ post) ∧ s = ⟨Text.byteSize pre, Text.byteSize pre + Text.byteSize w⟩

theorem byteSize_sourceOf_cons (k : Token) (ks : List Token) :
    Text.byteSize (sourceOf (k :: ks)) = k.byteSize + Text.byteSize (sourceOf ks) :=
  Text.byteSize_append k.source (sourceOf ks)

theorem spansFrom_append (pos : Nat) (ks ls : List Token) :
    spansFrom pos (ks ++ ls) = spansFrom pos ks ++ spansFrom (pos + Text.byteSize (sourceOf ks)) ls := by
  induction ks generalizing pos with
  | nil => rfl
  | cons k ks ih =>
    rw [List.cons_append, spansFrom, ih, byteSize_sourceOf_cons, ← Nat.add_assoc]
    rfl

theorem contiguous_spansFrom (pos : Nat) (ks : List Token) :
    Contiguous pos (pos + Text.byteSize (sourceOf ks)) ((spansFrom pos ks).map (·.2)) := by
  induction ks generalizing pos with
  | nil => rfl
  | cons k ks ih =>
    rw [byteSize_sourceOf_cons, ← Nat.add_assoc]
    exact ⟨rfl, ih (pos + k.byteSize)⟩

/-- A token with its range is one of the tokens, with the bytes before it and its own. -/
theorem mem_spansFrom {pos : Nat} {ks : List Token} {a : Located} :
    a ∈ spansFrom pos ks ↔ ∃ ls rs, ks = ls ++ a.1 :: rs ∧
      a.2 = ⟨pos + Text.byteSize (sourceOf ls), pos + Text.byteSize (sourceOf ls) + a.1.byteSize⟩ := by
  constructor
  · intro h
    induction ks generalizing pos with
    | nil => cases h
    | cons k ks ih =>
      rcases List.mem_cons.1 h with rfl | h
      · exact ⟨[], ks, rfl, rfl⟩
      · obtain ⟨ls, rs, hks, ha⟩ := ih h
        refine ⟨k :: ls, rs, ?_, ?_⟩
        · rw [hks]
          rfl
        · rw [byteSize_sourceOf_cons, ← Nat.add_assoc]
          exact ha
  · rintro ⟨ls, rs, rfl, ha⟩
    rw [spansFrom_append]
    refine List.mem_append_right _ ?_
    rw [spansFrom, ← ha]
    exact List.mem_cons_self

/-- A token of a text stands where its range says. -/
theorem standsAt_of_mem_locate {t : Text} {a : Located} (h : a ∈ locate t) : StandsAt t a.1.source a.2 := by
  obtain ⟨ls, rs, hks, ha⟩ := mem_spansFrom.1 h
  refine ⟨sourceOf ls, sourceOf rs, ?_, ?_⟩
  · rw [← sourceOf_cons, ← sourceOf_append, ← hks, source_tokenize]
  · rw [Nat.zero_add] at ha
    exact ha

/-- A range moved on by some bytes. -/
def Span.shift (n : Nat) (s : Span) : Span := ⟨n + s.start, n + s.stop⟩

theorem spansFrom_shift (n pos : Nat) (ks : List Token) :
    spansFrom (n + pos) ks = (spansFrom pos ks).map fun a => (a.1, a.2.shift n) := by
  induction ks generalizing pos with
  | nil => rfl
  | cons k ks ih =>
    rw [spansFrom, Nat.add_assoc, ih]
    rfl

/-! ## 5. What the located tokens of a text are -/

/-- The text is two opening braces, a body of one or more characters other than braces and line ends, and
    two closing braces. -/
def Written (w b : Text) : Prop :=
  w = ['{', '{'] ++ b ++ ['}', '}'] ∧ b ≠ [] ∧ ∀ c ∈ b, c ≠ '{' ∧ c ≠ '}' ∧ c ≠ '\r' ∧ c ≠ '\n'

theorem written_iff {w b : Text} : Written w b ↔ w = braced b ∧ IsBody b := by
  have hchar : ∀ c, isBodyChar c = true ↔ c ≠ '{' ∧ c ≠ '}' ∧ c ≠ '\r' ∧ c ≠ '\n' := by
    intro c
    unfold isBodyChar
    rw [Bool.and_eq_true, Bool.and_eq_true, Bool.and_eq_true, and_assoc, and_assoc]
    simp only [decide_eq_true_eq]
  constructor
  · rintro ⟨hw, hne, hb⟩
    exact ⟨hw, hne, fun c hc => (hchar c).2 (hb c hc)⟩
  · rintro ⟨hw, hb⟩
    exact ⟨hw, hb.ne_nil, fun c hc => (hchar c).1 (hb.chars c hc)⟩

/-- The placeholders among located tokens. -/
def placeholdersOf (ls : List Located) : List Located := ls.filter fun a => a.1.isPlaceholder

/-- What tokens with their ranges are to the text they are cut from. -/
structure Lexed (t : Text) (ls : List Located) : Prop where
  /-- the ranges stand one right behind the other and cover the text -/
  covers : Contiguous 0 (Text.byteSize t) (ls.map (·.2))
  /-- no range is empty -/
  filled : ∀ a ∈ ls, a.2.start < a.2.stop
  /-- each range lies between characters and has its token there -/
  stands : ∀ a ∈ ls, StandsAt t a.1.source a.2
  /-- no literal stands beside a literal -/
  apart : ls.IsChain fun a b => a.1.isPlaceholder = true ∨ b.1.isPlaceholder = true
  /-- a range is a placeholder exactly if what stands there is written like one -/
  placeholders : ∀ b s, (Token.placeholder b, s) ∈ ls ↔ ∃ w, StandsAt t w s ∧ Written w b
  /-- from a place on that is not inside a placeholder the text has the placeholders its rest has -/
  stable : ∀ pre rest, t = pre ++ rest →
    (∀ a ∈ placeholdersOf ls, ¬ (a.2.start < Text.byteSize pre ∧ Text.byteSize pre < a.2.stop)) →
      (placeholdersOf (locate rest)).map (fun a => (a.1, a.2.shift (Text.byteSize pre))) =
        (placeholdersOf ls).filter fun a => Text.byteSize pre ≤ a.2.start

theorem placeholdersOf_append (ls rs : List Located) :
    placeholdersOf (ls ++ rs) = placeholdersOf ls ++ placeholdersOf rs := List.filter_append ls rs

/-- A placeholder begins in front of the end of the tokens it is one of. -/
theorem start_lt_of_mem_placeholdersOf {pos : Nat} {ks : List Token} {a : Located}
    (h : a ∈ placeholdersOf (spansFrom pos ks)) : a.2.start < pos + Text.byteSize (sourceOf ks) := by
  obtain ⟨hmem, hplaceholder⟩ := List.mem_filter.1 h
  obtain ⟨ls, rs, rfl, ha⟩ := mem_spansFrom.1 hmem
  have hpos : 0 < a.1.byteSize := by
    cases hk : a.1 with
    | literal l =>
      rw [hk] at hplaceholder
      cases hplaceholder
    | placeholder b => exact byteSize_pos (List.cons_ne_nil _ _)
  rw [ha, sourceOf_append, Text.byteSize_append, byteSize_sourceOf_cons]
  show pos + Text.byteSize (sourceOf ls) < _
  omega

/-- The placeholders of the tokens before a place and of those behind it are told apart by the place. -/
theorem filter_placeholdersOf {n m : Nat} {ls rs : List Token} (hls : Text.byteSize (sourceOf ls) ≤ n)
    (hrs : n ≤ m) :
    (placeholdersOf (spansFrom 0 ls) ++ placeholdersOf (spansFrom m rs)).filter (fun a => n ≤ a.2.start) =
      placeholdersOf (spansFrom m rs) := by
  have hbefore : (placeholdersOf (spansFrom 0 ls)).filter (fun a => n ≤ a.2.start) = [] := by
    refine List.filter_eq_nil_iff.2 fun a ha hle => ?_
    have hlt := start_lt_of_mem_placeholdersOf ha
    rw [Nat.zero_add] at hlt
    exact absurd (of_decide_eq_true hle) (Nat.not_le.2 (Nat.lt_of_lt_of_le hlt hls))
  have hbehind : (placeholdersOf (spansFrom m rs)).filter (fun a => n ≤ a.2.start) =
      placeholdersOf (spansFrom m rs) := by
    refine List.filter_eq_self.2 fun a ha => decide_eq_true ?_
    exact Nat.le_trans hrs (le_start_of_mem_spansFrom (List.mem_filter.1 ha).1)
  rw [List.filter_append, hbefore, hbehind, List.nil_append]

theorem placeholdersOf_shift (n : Nat) (t : Text) :
    (placeholdersOf (locate t)).map (fun a => (a.1, a.2.shift n)) = placeholdersOf (spansFrom n (tokenize t)) := by
  have hshift := spansFrom_shift n 0 (tokenize t)
  rw [Nat.add_zero] at hshift
  unfold placeholdersOf
  rw [hshift, List.filter_map]
  rfl

/-- **The rest of a text has the placeholders that the text has there.** -/
theorem placeholdersOf_rest {pre rest : Text}
    (h : ∀ a ∈ placeholdersOf (locate (pre ++ rest)),
      ¬ (a.2.start < Text.byteSize pre ∧ Text.byteSize pre < a.2.stop)) :
    (placeholdersOf (locate rest)).map (fun a => (a.1, a.2.shift (Text.byteSize pre))) =
      (placeholdersOf (locate (pre ++ rest))).filter fun a => Text.byteSize pre ≤ a.2.start := by
  have hcut := wellCut_tokenize (pre ++ rest)
  rw [placeholdersOf_shift]
  rcases exists_cut (source_tokenize (pre ++ rest)) with
    ⟨ls, rs, hks, hpre, hrest⟩ | ⟨ls, k, rs, x, y, hks, hk, hx, hy, hpre, hrest⟩
  · -- the place is between two tokens
    rw [hks] at hcut
    have hlocate : locate (pre ++ rest) = spansFrom 0 ls ++ spansFrom (Text.byteSize pre) rs := by
      rw [locate, hks, spansFrom_append, Nat.zero_add, ← hpre]
    rw [hlocate, placeholdersOf_append, filter_placeholdersOf (hpre ▸ Nat.le_refl _) (Nat.le_refl _), hrest,
      tokenize_sourceOf hcut.of_append]
  · have hlocate : locate (pre ++ rest) = spansFrom 0 ls ++ (k, ⟨Text.byteSize (sourceOf ls),
        Text.byteSize (sourceOf ls) + k.byteSize⟩) :: spansFrom (Text.byteSize (sourceOf ls) + k.byteSize) rs := by
      rw [locate, hks, spansFrom_append, Nat.zero_add]
      rfl
    have hsize : k.byteSize = Text.byteSize x + Text.byteSize y := by
      rw [Token.byteSize, hk, Text.byteSize_append]
    have hat : Text.byteSize pre = Text.byteSize (sourceOf ls) + Text.byteSize x := by
      rw [hpre, Text.byteSize_append]
    have hxpos := byteSize_pos hx
    have hypos := byteSize_pos hy
    cases k with
    | placeholder b =>
      have hmem : (Token.placeholder b, Span.mk (Text.byteSize (sourceOf ls))
          (Text.byteSize (sourceOf ls) + (Token.placeholder b).byteSize)) ∈
        placeholdersOf (locate (pre ++ rest)) := by
        rw [hlocate, placeholdersOf_append]
        exact List.mem_append_right _ List.mem_cons_self
      refine absurd ⟨?_, ?_⟩ (h _ hmem)
      · show Text.byteSize (sourceOf ls) < Text.byteSize pre
        omega
      · show Text.byteSize pre < Text.byteSize (sourceOf ls) + (Token.placeholder b).byteSize
        omega
    | literal l =>
      -- the place is inside a literal, of which the rest keeps the end
      have hl : y <:+ l := ⟨x, hk.symm⟩
      rw [hks] at hcut
      have hrs : WellCut (.literal y :: rs) := hcut.of_append.of_suffix hy hl
      have hsource : rest = sourceOf (.literal y :: rs) := hrest
      have hbehind : Text.byteSize pre + Text.byteSize y =
          Text.byteSize (sourceOf ls) + (Token.literal l).byteSize := by
        rw [hat, hsize, Nat.add_assoc]
      rw [hlocate, placeholdersOf_append, hsource, tokenize_sourceOf hrs]
      show placeholdersOf (spansFrom (Text.byteSize pre + Text.byteSize y) rs) =
        (placeholdersOf (spansFrom 0 ls) ++ placeholdersOf (spansFrom (Text.byteSize (sourceOf ls) +
          (Token.literal l).byteSize) rs)).filter _
      rw [← hbehind, filter_placeholdersOf]
      · rw [hat]
        exact Nat.le_add_right _ _
      · exact Nat.le_add_right _ _

/-- **The tokens of a text cover it, they are its placeholders and what is between them, and the rest of
    the text has the placeholders that the text has there.** -/
theorem lexed_locate (t : Text) : Lexed t (locate t) where
  covers := by
    have hcovers := contiguous_spansFrom 0 (tokenize t)
    rwa [source_tokenize, Nat.zero_add] at hcovers
  filled := by
    intro a ha
    obtain ⟨ls, rs, hks, hspan⟩ := mem_spansFrom.1 ha
    have hmem : a.1 ∈ tokenize t := hks ▸ List.mem_append_right ls List.mem_cons_self
    rw [hspan]
    exact Nat.lt_add_of_pos_right (byteSize_pos (source_ne_nil_of_mem_tokenize hmem))
  stands _ ha := standsAt_of_mem_locate ha
  apart := by
    have hchain := (wellCut_tokenize t).isChain
    rw [← map_locate] at hchain
    exact (List.isChain_map Prod.fst).1 hchain
  placeholders := by
    intro b s
    constructor
    · intro h
      have hbody : IsBody b := by
        have hmem := List.mem_map_of_mem (f := Prod.fst) h
        rw [map_locate] at hmem
        exact isBody_of_mem_tokenize hmem
      exact ⟨braced b, standsAt_of_mem_locate h, written_iff.2 ⟨rfl, hbody⟩⟩
    · rintro ⟨w, ⟨pre, post, rfl, rfl⟩, hw⟩
      obtain ⟨rfl, hbody⟩ := written_iff.1 hw
      refine mem_spansFrom.2 ⟨tokenize pre, tokenize post, tokenize_append_braced pre hbody post, ?_⟩
      rw [source_tokenize, Nat.zero_add]
      rfl
  stable := by
    rintro pre rest rfl h
    exact placeholdersOf_rest h

/-- Three braces on either side: the outer two belong to the text beside the placeholder. -/
example : tokenize ("\x7b\x7b\x7bA\x7d\x7d\x7d".toList) =
    [.literal ['{'], .placeholder ['A'], .literal ['}']] := by
  cbv

end RecordExport

import Mathlib.Data.List.Infix
import RecordExport.Proofs.Template.MarkerLines
import RecordExport.Proofs.Template.Tokens
/-!
# Texts put together

Where something is taken out of a text, what was apart comes together. A marker may come of it, if the text in
front ends in the beginning of a placeholder and the text behind finishes that. Else the two have the tokens
that they have by themselves.

* `tokenize_append`: **texts put together have the tokens that they have by themselves**, if the first does not
  end in the beginning of a placeholder; so it is with their markers (`markers_append`) and with what they spell
  (`spelled_tokenize_append`);
* `spelled`: tokens without spaces, tabs and line ends, however their literals are cut. Lines of padding that go
  with a marker spell nothing (`spelled_aheadOfLine`, `spelled_behindLine`);
* `GuardedBy`, `Guarded`: no marker of the text stands behind the beginning of a placeholder. So it is of parts of
  such a text, and of such parts put together (`GuardedBy.of_infix`, `GuardedBy.append`).
-/

namespace RecordExport

/-! ## 1. Beginnings of placeholders -/

/-- The token opens or closes a block. -/
def Token.isMarker (k : Token) : Bool := k.shape = .blockStart || k.shape = .blockEnd

/-- The start and end markers of a text. -/
def markers (t : Text) : List Token := (tokenize t).filter Token.isMarker

/-- The text ends in the beginning of a placeholder, which what follows may finish. -/
def Unfinished (t : Text) : Prop :=
  ∃ s r b, s <:+ t ∧ s ≠ [] ∧ r ≠ [] ∧ IsBody b ∧ s ++ r = braced b

theorem Unfinished.of_suffix {t u : Text} (h : Unfinished t) (hs : t <:+ u) : Unfinished u := by
  obtain ⟨s, r, b, hst, hrest⟩ := h
  exact ⟨s, r, b, hst.trans hs, hrest⟩

/-- What the whole ends in begins in one of the two. -/
theorem unfinished_append {a b : Text} (h : Unfinished (a ++ b)) : Unfinished a ∨ Unfinished b := by
  obtain ⟨s, r, body, hs, hne, hr, hbody, heq⟩ := h
  rcases Nat.lt_or_ge b.length s.length with hlt | hle
  · -- a part of it ends the first, and the second belongs to what follows
    obtain ⟨s', rfl⟩ := List.suffix_of_suffix_length_le (List.suffix_append a b) hs hlt.le
    have hs' : s' <:+ a := ((List.suffix_append_inj_of_length_eq rfl).1 hs).1
    refine .inl ⟨s', b ++ r, body, hs', ?_, ?_, hbody, (List.append_assoc s' b r).symm.trans heq⟩
    · rintro rfl
      exact absurd hlt (Nat.lt_irrefl _)
    · exact fun hnil => hr (List.append_eq_nil_iff.1 hnil).2
  · exact .inr ⟨s, r, body, List.suffix_of_suffix_length_le hs (List.suffix_append a b) hle, hne, hr, hbody,
      heq⟩

/-- A line feed finishes nothing. -/
theorem not_unfinished_feed (t : Text) : ¬ Unfinished (t ++ ['\n']) := by
  rintro ⟨s, r, b, hs, hne, -, hbody, heq⟩
  obtain ⟨s', rfl, -⟩ := (List.suffix_concat_iff.1 hs).resolve_left hne
  have hmem : '\n' ∈ braced b := heq ▸ List.mem_append_left r (List.mem_append_right s' List.mem_cons_self)
  have hb : '\n' ∈ b := by simpa [braced] using hmem
  exact absurd (hbody.chars _ hb) (by decide)

/-- A text that ends with a placeholder ends in no beginning of one. -/
theorem not_unfinished_braced (x : Text) {b : Text} (hb : IsBody b) : ¬ Unfinished (x ++ braced b) := by
  rintro ⟨s, r, c, ⟨x', hx⟩, hne, hr, hc, heq⟩
  -- the text and what finishes it, cut at either placeholder
  have hcuts : tokenize x ++ .placeholder b :: tokenize r = tokenize x' ++ [.placeholder c] := by
    have hnil : tokenize [] = [] := by rw [tokenize]
    rw [← tokenize_append_braced x hb, ← hnil, ← tokenize_append_braced x' hc, List.append_nil, ← heq,
      ← List.append_assoc, ← hx, List.append_assoc]
  rcases List.eq_nil_or_concat' (tokenize r) with hnil | ⟨ts, k, hts⟩
  · rw [← source_tokenize r, hnil] at hr
    exact hr rfl
  · rw [hts, ← List.cons_append, ← List.append_assoc] at hcuts
    obtain ⟨-, hk⟩ := List.append_inj' hcuts rfl
    obtain rfl := (List.cons.inj hk).1
    have hlength := congrArg List.length heq
    rw [← source_tokenize r, hts, sourceOf_append, sourceOf_cons, sourceOf_nil, List.append_nil] at hlength
    have hpos := List.length_pos_iff.2 hne
    simp only [List.length_append, Token.source] at hlength
    omega

/-- **Texts put together have the tokens that they have by themselves**, one literal where two meet. -/
theorem tokenize_append {a : Text} (h : ¬ Unfinished a) (b : Text) :
    tokenize (a ++ b) = glue (tokenize a) (tokenize b) := by
  fun_induction tokenize a with
  | case1 => rfl
  | case2 c a body rest hcut ih =>
    have ha := (eq_of_cutPlaceholder? hcut).1
    have hbody := isBody_of_cutPlaceholder? hcut
    have hrest : ¬ Unfinished rest := fun hu => h (hu.of_suffix (ha ▸ List.suffix_append _ rest))
    rw [ha, List.append_assoc, tokenize_braced hbody, ih hrest]
    exact fuse_glue (.placeholder body) (tokenize rest) (tokenize b)
  | case3 c a hcut ih =>
    have hrest : ¬ Unfinished a := fun hu => h (hu.of_suffix (List.suffix_cons c a))
    have hcut' : cutPlaceholder? (c :: (a ++ b)) = none := by
      cases hfound : cutPlaceholder? (c :: (a ++ b)) with
      | none => rfl
      | some p =>
        -- a placeholder that is cut here is not all in the first text, so the first begins it
        have hsplit := (eq_of_cutPlaceholder? hfound).1
        have hbody := isBody_of_cutPlaceholder? hfound
        rcases Nat.lt_or_ge (c :: a).length (braced p.1).length with hlt | hle
        · obtain ⟨r, hr⟩ := List.prefix_of_prefix_length_le (List.prefix_append (c :: a) b)
            (⟨p.2, hsplit.symm⟩ : braced p.1 <+: c :: a ++ b) hlt.le
          refine absurd ⟨c :: a, r, p.1, List.suffix_refl _, List.cons_ne_nil _ _, ?_, hbody, hr⟩ h
          rintro rfl
          rw [List.append_nil] at hr
          rw [hr] at hlt
          exact absurd hlt (Nat.lt_irrefl _)
        · obtain ⟨r, hr⟩ := List.prefix_of_prefix_length_le
            (⟨p.2, hsplit.symm⟩ : braced p.1 <+: c :: a ++ b) (List.prefix_append (c :: a) b) hle
          rw [← hr, cutPlaceholder?_braced hbody] at hcut
          cases hcut
    rw [List.cons_append, tokenize_of_not_cut hcut', ih hrest, joinLiteral_eq_fuse, joinLiteral_eq_fuse,
      fuse_glue]

/-! ## 2. What a text spells -/

/-- A space, a tab or a part of a line end. -/
def isSpacing (c : Char) : Bool := isPadding c || c = '\n'

/-- The text without spaces, tabs and line ends. -/
def Text.unspaced (t : Text) : Text := t.filter fun c => !isSpacing c

theorem Text.unspaced_append (s t : Text) : unspaced (s ++ t) = unspaced s ++ unspaced t :=
  List.filter_append s t

theorem Text.unspaced_of_padding {t : Text} (h : t.all isPadding = true) : unspaced t = [] := by
  refine List.filter_eq_nil_iff.2 fun c hc => ?_
  rw [isSpacing, List.all_eq_true.1 h c hc]
  exact Bool.false_ne_true

theorem Text.unspaced_unspaced (t : Text) : unspaced (unspaced t) = unspaced t := by
  unfold unspaced
  rw [List.filter_filter]
  simp only [Bool.and_self]

/-- A token with a literal in single characters, without spaces, tabs and line ends. -/
def Token.spell : Token → List Token
  | .literal l => l.unspaced.map fun c => .literal [c]
  | .placeholder b => [.placeholder b]

/-- Tokens with their literals in single characters. Where literals are cut does not matter for it. -/
def spelled (ts : List Token) : List Token := ts.flatMap Token.spell

theorem spelled_append (ts us : List Token) : spelled (ts ++ us) = spelled ts ++ spelled us :=
  List.flatMap_append

theorem spelled_cons (k : Token) (ts : List Token) : spelled (k :: ts) = k.spell ++ spelled ts :=
  List.flatMap_cons

theorem spelled_fuse (k : Token) (ts : List Token) : spelled (fuse k ts) = k.spell ++ spelled ts := by
  unfold fuse
  split
  · rename_i l m ts
    rw [spelled_cons, spelled_cons, Token.spell, Token.spell, Token.spell, Text.unspaced_append, List.map_append,
      List.append_assoc]
  · exact spelled_cons _ _

theorem spelled_glue (ks ts : List Token) : spelled (glue ks ts) = spelled ks ++ spelled ts := by
  rcases List.eq_nil_or_concat' ks with rfl | ⟨ks, k, rfl⟩
  · rfl
  · rw [glue_concat, spelled_append, spelled_fuse, spelled_append, List.append_assoc, spelled_cons k [],
      List.append_assoc]
    rfl

/-- What tokens spell is what their text is without spaces, tabs and line ends. -/
theorem unspaced_sourceOf_spelled (ts : List Token) :
    (sourceOf (spelled ts)).unspaced = (sourceOf ts).unspaced := by
  induction ts with
  | nil => rfl
  | cons k ts ih =>
    rw [spelled_cons, sourceOf_append, Text.unspaced_append, ih, sourceOf_cons, Text.unspaced_append]
    congr 1
    cases k with
    | placeholder b => exact congrArg Text.unspaced (List.append_nil (braced b))
    | literal l =>
      have hsingle : ∀ l : Text, sourceOf (l.map fun c => Token.literal [c]) = l := by
        intro l
        induction l with
        | nil => rfl
        | cons c l ih => rw [List.map_cons, sourceOf_cons, ih]; rfl
      rw [Token.spell, hsingle, Text.unspaced_unspaced]
      rfl

theorem unspaced_eq_of_spelled_eq {ts us : List Token} (h : spelled ts = spelled us) :
    (sourceOf ts).unspaced = (sourceOf us).unspaced := by
  rw [← unspaced_sourceOf_spelled, h, unspaced_sourceOf_spelled]

/-- **Texts put together spell what they spell by themselves.** -/
theorem spelled_tokenize_append {a : Text} (h : ¬ Unfinished a) (b : Text) :
    spelled (tokenize (a ++ b)) = spelled (tokenize a) ++ spelled (tokenize b) := by
  rw [tokenize_append h, spelled_glue]

/-- Spaces, tabs and line ends spell nothing. -/
theorem spelled_blank_append {a : Text} (h : a.unspaced = []) (t : Text) :
    spelled (tokenize (a ++ t)) = spelled (tokenize t) := by
  induction a with
  | nil => rfl
  | cons c a ih =>
    obtain ⟨hc, ha⟩ := List.forall_mem_cons.1 (List.filter_eq_nil_iff.1 h)
    have hbrace : c ≠ '{' := by
      rintro rfl
      exact hc rfl
    have hspell : Token.spell (.literal [c]) = [] := by
      have hempty : Text.unspaced [c] = [] := List.filter_cons_of_neg (p := fun c => !isSpacing c) hc
      rw [Token.spell, hempty]
      rfl
    have hcut : cutPlaceholder? (c :: (a ++ t)) = none :=
      cutPlaceholder?_of_ne fun z hz => hbrace (List.cons.inj hz).1
    rw [List.cons_append, tokenize_of_not_cut hcut, joinLiteral_eq_fuse, spelled_fuse, hspell,
      ih (List.filter_eq_nil_iff.2 ha)]
    rfl

theorem spelled_nil : spelled (tokenize []) = [] := by
  rw [tokenize]
  rfl

theorem markers_eq (t : Text) : markers t = (spelled (tokenize t)).filter Token.isMarker := by
  unfold markers spelled
  induction tokenize t with
  | nil => rfl
  | cons k ts ih =>
    rw [List.flatMap_cons, List.filter_append, List.filter_cons, ih]
    cases k with
    | placeholder b => 
      rw [Token.spell, List.filter_cons]
      split <;> rfl
    | literal l =>
      have hnone : (Token.spell (.literal l)).filter Token.isMarker = [] := by
        refine List.filter_eq_nil_iff.2 fun k hk => ?_
        obtain ⟨c, -, rfl⟩ := List.mem_map.1 hk
        exact Bool.false_ne_true
      rw [hnone]
      rfl

/-- Texts that spell the same have the same markers. -/
theorem markers_eq_of_spelled_eq {a b : Text} (h : spelled (tokenize a) = spelled (tokenize b)) :
    markers a = markers b := by
  rw [markers_eq, markers_eq, h]

theorem markers_nil : markers [] = [] := by
  rw [markers_eq, spelled_nil]
  rfl

/-- **Texts put together have the markers that they have by themselves.** -/
theorem markers_append {a : Text} (h : ¬ Unfinished a) (b : Text) :
    markers (a ++ b) = markers a ++ markers b := by
  rw [markers_eq, markers_eq, markers_eq, spelled_tokenize_append h, List.filter_append]

/-! ## 3. Lines that go with a marker -/

/-- A text that ends with its last line feed finishes nothing. -/
theorem not_unfinished_aheadOfLine (t : Text) : ¬ Unfinished t.aheadOfLine := by
  by_cases h : '\n' ∈ t
  · obtain ⟨l, r, rfl, hr⟩ := Text.eq_append_lastLine_of_mem h
    rw [Text.aheadOfLine_cons hr]
    exact not_unfinished_feed l
  · rw [Text.aheadOfLine_of_not_mem h]
    rintro ⟨s, r, b, hs, hne, -⟩
    exact hne (List.suffix_nil.1 hs)

/-- A last line of padding spells nothing. -/
theorem spelled_aheadOfLine {t : Text} (h : (Text.lastLine t).all isPadding = true) :
    spelled (tokenize t.aheadOfLine) = spelled (tokenize t) := by
  have hpadding : ∀ {l : Text}, l.all isPadding = true → spelled (tokenize l) = [] := fun {l} hl => by
    rw [← List.append_nil l, spelled_blank_append (Text.unspaced_of_padding hl), spelled_nil]
  by_cases hn : '\n' ∈ t
  · obtain ⟨l, r, rfl, hr⟩ := Text.eq_append_lastLine_of_mem hn
    rw [Text.lastLine_cons hr] at h
    have hsplit : l ++ '\n' :: r = (l ++ ['\n']) ++ r := by simp
    rw [Text.aheadOfLine_cons hr, hsplit, spelled_tokenize_append (not_unfinished_feed l), hpadding h,
      List.append_nil]
  · rw [Text.lastLine_of_not_mem hn] at h
    rw [Text.aheadOfLine_of_not_mem hn, hpadding h, spelled_nil]

/-- A first line of padding spells nothing. -/
theorem spelled_behindLine {t : Text} (h : (Text.firstLine t).all isPadding = true) :
    spelled (tokenize t.behindLine) = spelled (tokenize t) := by
  by_cases hn : '\n' ∈ t
  · obtain ⟨l, r, rfl, hl⟩ := List.eq_append_cons_of_mem hn
    rw [Text.firstLine_cons hl] at h
    have hblank : Text.unspaced (l ++ ['\n']) = [] := by
      rw [Text.unspaced_append, Text.unspaced_of_padding h]
      rfl
    have hsplit : l ++ '\n' :: r = (l ++ ['\n']) ++ r := by simp
    rw [Text.behindLine_cons hl, hsplit, spelled_blank_append hblank]
  · rw [Text.firstLine_of_not_mem hn] at h
    rw [Text.behindLine_of_not_mem hn, ← List.append_nil t, spelled_blank_append (Text.unspaced_of_padding h)]

/-! ## 4. Markers that stand behind nothing unfinished -/

section

variable {p : Token → Bool}

/-- No placeholder of a kind stands right behind the beginning of a placeholder. -/
def GuardedBy (p : Token → Bool) (t : Text) : Prop :=
  ∀ a b r, t = a ++ (braced b ++ r) → IsBody b → p (.placeholder b) = true → ¬ Unfinished a

theorem GuardedBy.of_infix {t x y z : Text} (h : GuardedBy p t) (ht : t = x ++ (y ++ z)) : GuardedBy p y := by
  rintro a b r rfl hb hm hu
  refine h (x ++ a) b (r ++ z) ?_ hb hm (hu.of_suffix (List.suffix_append x a))
  rw [ht]
  simp only [List.append_assoc]

theorem GuardedBy.aheadOfLine {t : Text} (h : GuardedBy p t) : GuardedBy p t.aheadOfLine :=
  h.of_infix (x := []) (dropLast_append_takeLast (Text.lastLine t).length t).symm

theorem GuardedBy.behindLine {t : Text} (h : GuardedBy p t) : GuardedBy p t.behindLine := by
  refine h.of_infix (x := t.take ((Text.firstLine t).length + 1)) (z := []) ?_
  rw [List.append_nil]
  exact (List.take_append_drop _ t).symm

/-- A marker of texts put together is in one of them. -/
theorem GuardedBy.append {t u : Text} (ht : GuardedBy p t) (hu : GuardedBy p u) (hfinished : ¬ Unfinished t) :
    GuardedBy p (t ++ u) := by
  intro a b r heq hb hm hunfinished
  rcases Nat.lt_or_ge a.length t.length with hlt | hle
  · obtain ⟨s, rfl⟩ := List.prefix_of_prefix_length_le (List.prefix_append a (braced b ++ r))
      (heq ▸ List.prefix_append t u) hlt.le
    have hs : s ++ u = braced b ++ r := List.append_cancel_left ((List.append_assoc a s u).symm.trans heq)
    rcases Nat.lt_or_ge s.length (braced b).length with hshort | hlong
    · -- the marker would reach from one text into the other
      obtain ⟨r', hr'⟩ := List.prefix_of_prefix_length_le (List.prefix_append s u)
        (hs ▸ List.prefix_append (braced b) r) hshort.le
      refine hfinished ⟨s, r', b, List.suffix_append a s, ?_, ?_, hb, hr'⟩
      · rintro rfl
        rw [List.append_nil] at hlt
        exact absurd hlt (Nat.lt_irrefl _)
      · rintro rfl
        rw [List.append_nil] at hr'
        rw [hr'] at hshort
        exact absurd hshort (Nat.lt_irrefl _)
    · obtain ⟨s', rfl⟩ := List.prefix_of_prefix_length_le (List.prefix_append (braced b) r)
        (hs ▸ List.prefix_append s u) hlong
      exact ht a b s' rfl hb hm hunfinished
  · obtain ⟨a', rfl⟩ := List.prefix_of_prefix_length_le (List.prefix_append t u)
      (heq ▸ List.prefix_append a (braced b ++ r)) hle
    have hu' : u = a' ++ (braced b ++ r) :=
      List.append_cancel_left (heq.trans (List.append_assoc t a' (braced b ++ r)))
    rcases unfinished_append hunfinished with h | h
    · exact hfinished h
    · exact hu a' b r hu' hb hm h

end

/-- No start or end marker stands right behind the beginning of a placeholder. -/
def Guarded (t : Text) : Prop :=
  ∀ a b r, t = a ++ (braced b ++ r) → IsBody b → (Token.placeholder b).isMarker = true → ¬ Unfinished a

theorem Guarded.of_infix {t x y z : Text} (h : Guarded t) (ht : t = x ++ (y ++ z)) : Guarded y :=
  GuardedBy.of_infix (p := Token.isMarker) h ht

theorem Guarded.append {t u : Text} (ht : Guarded t) (hu : Guarded u) (hfinished : ¬ Unfinished t) :
    Guarded (t ++ u) := GuardedBy.append (p := Token.isMarker) ht hu hfinished

/-! ## 5. A test -/

/-- The text begins like a placeholder and does not end one. -/
def beginsPlaceholder : Text → Bool
  | ['{'] => true
  | '{' :: '{' :: t => t.dropWhile isBodyChar = [] || t.dropWhile isBodyChar = ['}']
  | _ => false

theorem beginsPlaceholder_of_append {s r b : Text} (hs : s ≠ []) (hr : r ≠ []) (hb : IsBody b)
    (h : s ++ r = braced b) : beginsPlaceholder s = true := by
  match s, hs with
  | [c], _ =>
    obtain ⟨rfl, -⟩ := List.cons.inj h
    rfl
  | c :: d :: s, _ =>
    obtain ⟨rfl, h'⟩ := List.cons.inj h
    obtain ⟨rfl, hbody⟩ := List.cons.inj h'
    have hdrop : s.dropWhile isBodyChar = [] ∨ s.dropWhile isBodyChar = ['}'] := by
      rcases Nat.lt_or_ge b.length s.length with hlt | hle
      · -- one brace of the end is there, and not the other
        obtain ⟨z, rfl⟩ := List.prefix_of_prefix_length_le (List.prefix_append b ['}', '}'])
          (hbody ▸ List.prefix_append s r) hlt.le
        have hz : z ++ r = ['}', '}'] :=
          List.append_cancel_left ((List.append_assoc b z r).symm.trans hbody)
        rw [List.dropWhile_append_of_pos hb.chars]
        match z, r, hr, hz with
        | [], _, _, _ => exact .inl rfl
        | [x], y :: r, _, hz =>
          obtain ⟨rfl, -⟩ := List.cons.inj hz
          exact .inr rfl
        | x :: y :: z, w :: r, _, hz =>
          have hlength := congrArg List.length hz
          simp at hlength
      · have hleads : s <+: b := List.prefix_of_prefix_length_le (hbody ▸ List.prefix_append s r)
          (List.prefix_append b ['}', '}']) hle
        exact .inl (List.dropWhile_eq_nil_iff.2 fun c hc => hb.chars c (hleads.subset hc))
    refine Bool.or_eq_true_iff.2 (hdrop.imp ?_ ?_) <;> exact decide_eq_true

/-- A test that no marker among tokens stands behind the beginning of a placeholder. -/
def guardedFrom (before : Text) : List Token → Bool
  | [] => true
  | k :: ks => (!k.isMarker || !before.tails.any beginsPlaceholder) && guardedFrom (before ++ k.source) ks

theorem not_unfinished_of_tails {t : Text} (h : t.tails.any beginsPlaceholder = false) :
    ¬ Unfinished t := by
  rintro ⟨s, r, b, hs, hne, hr, hb, heq⟩
  have hbegins := List.any_eq_false.1 h s ((List.mem_tails s t).2 hs)
  exact hbegins (beginsPlaceholder_of_append hne hr hb heq)

theorem guarded_of_guardedFrom {t : Text} (h : guardedFrom [] (tokenize t) = true) : Guarded t := by
  have hgo : ∀ (ls : List Token) (before : Text) (k : Token) (rs : List Token),
      guardedFrom before (ls ++ k :: rs) = true → k.isMarker = true →
        ¬ Unfinished (before ++ sourceOf ls) := by
    intro ls
    induction ls with
    | nil =>
      intro before k rs h hk
      have htest := (Bool.and_eq_true_iff.1 h).1
      rw [hk, Bool.not_true, Bool.false_or, Bool.not_eq_true'] at htest
      rw [sourceOf_nil, List.append_nil]
      exact not_unfinished_of_tails htest
    | cons l ls ih =>
      intro before k rs h hk
      have hrest := ih (before ++ l.source) k rs (Bool.and_eq_true_iff.1 h).2 hk
      rwa [List.append_assoc, ← sourceOf_cons] at hrest
  rintro a b r rfl hb hm
  rw [tokenize_append_braced a hb] at h
  have hguarded := hgo (tokenize a) [] _ _ h hm
  rwa [List.nil_append, source_tokenize] at hguarded

end RecordExport

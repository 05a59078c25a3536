import RecordExport.Proofs.Template.Lexing
import RecordExport.Proofs.Template.Scalars
/-!
# Replacing scalars in one pass

A walk changes the text it goes through and cuts what is behind each value into tokens again. It could as well
cut the text once and go over the tokens, writing to the end of what it has written so far: a value is never
cut again, and where a line goes the rest of it is padding, which has no tokens.

* `Insertion`, `insertion`: what a value does to what is written so far and to the rest of the line;
* `onePass`: the pass over the tokens;
* `tokenize_behindLine`: without the padding its line ends in a text has the tokens behind it;
* `replaceAllM_eq_onePass`: from anywhere on a walk does what the pass does;
* `replaceScalarsM_in_one_pass`: so does replacing, which asks once for each matching scalar of the text;
* `replaceScalars_inline`: values that go in as they are stand in the places of the tokens.
-/

namespace RecordExport

universe v

/-! ## 1. The pass -/

/-- What is written when a value has been put in, and whether the rest of its line goes. -/
structure Insertion where
  written : Text
  dropsLine : Bool

/-- A value put behind what is written so far, `rest` standing behind its placeholder. A value with nothing
    left takes its line away if there is only padding on it. -/
def insertion (placement : Placement) (written rest value : Text) : Insertion :=
  match placement with
  | .inline => ⟨written ++ value, false⟩
  | .fitted =>
    if trimBlankLines value = [] then
      if standsAlone written rest then ⟨written.aheadOfLine, true⟩ else ⟨written, false⟩
    else ⟨written ++ applyIndent (leadingIndent written) (trimBlankLines value), false⟩

/-- One pass over tokens, left to right. A scalar with a matching name is asked for and gives way to its
    value; every other token is written as it is, without its first line where that goes with a value. -/
def onePass {m : Type → Type v} [Monad m] (p : Pattern) (placement : Placement)
    (value : List Text → m Text) : (written : Text) → (dropsLine : Bool) → List Token → m Text
  | written, _, [] => pure written
  | written, dropsLine, k :: ks =>
    match scalarCaptures p k with
    | some cs => do
      let v ← value cs
      let i := insertion placement written (sourceOf ks) v
      onePass p placement value i.written i.dropsLine ks
    | none =>
      onePass p placement value (written ++ if dropsLine then k.source.behindLine else k.source) false ks

section

variable {m : Type → Type v} [Monad m] {p : Pattern} {placement : Placement} {value : List Text → m Text}

theorem onePass_of_none {k : Token} (h : scalarCaptures p k = none) (written : Text) (dropsLine : Bool)
    (ks : List Token) :
    onePass p placement value written dropsLine (k :: ks) =
      onePass p placement value (written ++ if dropsLine then k.source.behindLine else k.source) false ks := by
  rw [onePass, h]

theorem onePass_of_some {k : Token} {cs : List Text} (h : scalarCaptures p k = some cs) (written : Text)
    (dropsLine : Bool) (ks : List Token) :
    onePass p placement value written dropsLine (k :: ks) =
      (do let v ← value cs
          let i := insertion placement written (sourceOf ks) v
          onePass p placement value i.written i.dropsLine ks) := by
  rw [onePass, h]

/-- Tokens that do not match are written as they are. -/
theorem onePass_append {pre : List Token} (h : ∀ k ∈ pre, scalarCaptures p k = none) (written : Text)
    (ks : List Token) :
    onePass p placement value written false (pre ++ ks) =
      onePass p placement value (written ++ sourceOf pre) false ks := by
  induction pre generalizing written with
  | nil => rw [List.nil_append, sourceOf_nil, List.append_nil]
  | cons k pre ih =>
    rw [List.cons_append, onePass_of_none (h k List.mem_cons_self), if_neg Bool.false_ne_true,
      ih (fun j hj => h j (List.mem_cons_of_mem k hj)), sourceOf_cons, List.append_assoc]

/-! ## 2. A line that goes -/

/-- A text whose first line is padding begins with no placeholder. -/
theorem not_padding_firstLine_braced (b z : Text) : (Text.firstLine (braced b ++ z)).all isPadding = false := by
  have hfirst : Text.firstLine (braced b ++ z) = '{' :: Text.firstLine ('{' :: (b ++ ['}', '}'] ++ z)) := rfl
  rw [hfirst]
  rfl

/-- A literal with tokens behind it holds the end of a first line of padding. -/
theorem mem_of_padding_firstLine {l : Text} {ks : List Token} (hks : WellCut (.literal l :: ks)) (hne : ks ≠ [])
    (h : (Text.firstLine (sourceOf (.literal l :: ks))).all isPadding = true) : '\n' ∈ l := by
  refine by_contra fun hn => ?_
  cases hks with
  | last _ _ => exact hne rfl
  | literal _ _ _ =>
    rw [sourceOf_cons, Token.source, sourceOf_cons, Token.source, Text.firstLine_append_of_not_mem hn,
      List.all_append, not_padding_firstLine_braced, Bool.and_false] at h
    cases h

/-- Tokens without the first line of the literal they begin with. -/
def tokensBehindLine : List Token → List Token
  | .literal l :: ks => if l.behindLine = [] then ks else .literal l.behindLine :: ks
  | ks => ks

/-- **Without a first line of padding a text has its own tokens, the first literal without that line.** -/
theorem tokenize_behindLine {ks : List Token} (hks : WellCut ks)
    (h : (Text.firstLine (sourceOf ks)).all isPadding = true) :
    tokenize (sourceOf ks).behindLine = tokensBehindLine ks := by
  have hnil : (tokenize [] : List Token) = [] := by rw [tokenize]
  cases ks with
  | nil =>
    rw [sourceOf_nil, Text.behindLine_of_not_mem List.not_mem_nil, hnil]
    rfl
  | cons k ks =>
    cases k with
    | placeholder b =>
      rw [sourceOf_cons, Token.source, not_padding_firstLine_braced] at h
      cases h
    | literal l =>
      rw [tokensBehindLine, sourceOf_cons, Token.source]
      by_cases hn : '\n' ∈ l
      · -- the line ends in the literal
        rw [(Text.firstLine_append_of_mem hn _).2]
        split
        · rename_i hl
          rw [hl, List.nil_append, tokenize_sourceOf hks.tail]
        · rename_i hl
          exact tokenize_sourceOf (hks.of_suffix hl (List.drop_suffix _ l))
      · -- the literal is the end of the text
        obtain rfl : ks = [] := by_contra fun hne => hn (mem_of_padding_firstLine hks hne h)
        rw [sourceOf_nil, List.append_nil, Text.behindLine_of_not_mem hn, hnil, if_pos rfl]

/-- The pass goes over what is left of the first literal. -/
theorem onePass_behindLine {ks : List Token} (hks : WellCut ks)
    (h : (Text.firstLine (sourceOf ks)).all isPadding = true) (written : Text) :
    onePass p placement value written true ks =
      onePass p placement value written false (tokenize (sourceOf ks).behindLine) := by
  rw [tokenize_behindLine hks h]
  have hnone : ∀ l, scalarCaptures p (.literal l) = none := fun _ => rfl
  cases ks with
  | nil => rfl
  | cons k ks =>
    cases k with
    | placeholder b =>
      rw [sourceOf_cons, Token.source, not_padding_firstLine_braced] at h
      cases h
    | literal l =>
      rw [onePass_of_none (hnone l), if_pos rfl, tokensBehindLine, Token.source]
      split
      · rename_i hl
        rw [hl, List.append_nil]
      · rw [onePass_of_none (hnone _), if_neg Bool.false_ne_true]
        rfl

/-! ## 3. The walk -/

/-- What a replacement makes of the text on either side. -/
theorem replace_eq_insertion {w : ScalarWalk} {found : ScalarMatch} (h : w.next.current = some found)
    (v : Text) :
    (w.next.replace v).before = (insertion w.placement (w.before ++ found.left) found.right v).written ∧
      (w.next.replace v).rest =
        if (insertion w.placement (w.before ++ found.left) found.right v).dropsLine = true
        then found.right.behindLine else found.right := by
  unfold ScalarWalk.replace insertion
  rw [h]
  have hbefore : w.next.before = w.before := rfl
  have hplacement : w.next.placement = w.placement := rfl
  dsimp only
  rw [hbefore, hplacement]
  cases w.placement with
  | inline => exact ⟨rfl, rfl⟩
  | fitted =>
    dsimp only
    by_cases hempty : trimBlankLines v = []
    · rw [if_pos hempty, if_pos hempty]
      dsimp only
      rw [dropLast_lineExtent, drop_lineExtent]
      cases standsAlone (w.before ++ found.left) found.right with
      | true => exact ⟨rfl, rfl⟩
      | false => exact ⟨rfl, rfl⟩
    · rw [if_neg hempty, if_neg hempty]
      exact ⟨rfl, rfl⟩

/-- Where a line goes there is only padding behind the placeholder. -/
theorem padding_of_dropsLine {written rest v : Text}
    (h : (insertion placement written rest v).dropsLine = true) : (Text.firstLine rest).all isPadding = true := by
  unfold insertion at h
  split at h
  · cases h
  · split at h
    · split at h
      · rename_i halone
        exact (Bool.and_eq_true_iff.1 halone).2
      · cases h
    · cases h

theorem placement_replace (w : ScalarWalk) (v : Text) : (w.next.replace v).placement = w.placement := by
  unfold ScalarWalk.replace
  split
  · rfl
  · split
    · rfl
    · dsimp only
      split <;> rfl

/-- **From anywhere on a walk does what one pass over the tokens that are left does.** -/
theorem replaceAllM_eq_onePass (value : List Text → m Text) (w : ScalarWalk) :
    w.replaceAllM value = onePass w.pattern w.placement value w.before false (tokenize w.rest) := by
  induction w using ScalarWalk.replaceAllM.induct with
  | case1 w hw =>
    have hpass : onePass w.pattern w.placement value w.before false (tokenize w.rest ++ []) =
        onePass w.pattern w.placement value (w.before ++ sourceOf (tokenize w.rest)) false [] :=
      onePass_append (List.filterMap_eq_nil_iff.1 (findScalar_eq_none hw)) w.before []
    rw [ScalarWalk.replaceAllM_of_none hw]
    rw [List.append_nil, source_tokenize] at hpass
    exact hpass.symm
  | case2 w found hw ih =>
    obtain ⟨pre, b, post, hts, -, hleft, hright, hcs, hpre⟩ := findScalar_split hw
    have hcut : WellCut post := (hts ▸ wellCut_tokenize w.rest : WellCut (pre ++ _)).of_append.tail
    have hpost : tokenize (sourceOf post) = post := tokenize_sourceOf hcut
    rw [ScalarWalk.replaceAllM_of_some hw, hts, onePass_append hpre, onePass_of_some hcs]
    refine congrArg _ (funext fun v => ?_)
    obtain ⟨hbefore, hrest⟩ := replace_eq_insertion hw v
    rw [hleft, hright] at hbefore hrest
    rw [ih v, ScalarWalk.pattern_replace, placement_replace, hbefore, hrest]
    dsimp only
    cases hdrops : (insertion w.placement (w.before ++ sourceOf pre) (sourceOf post) v).dropsLine with
    | true => rw [if_pos rfl, onePass_behindLine hcut (padding_of_dropsLine hdrops)]
    | false => rw [if_neg Bool.false_ne_true, hpost]

end

/-! ## 4. Replacing -/

/-- What goes in as it is stands in the place of its token. -/
theorem onePass_inline (p : Pattern) (value : List Text → Text) (written : Text) (ks : List Token) :
    onePass (m := Id) p .inline value written false ks =
      written ++ ks.flatMap fun k => ((scalarCaptures p k).map value).getD k.source := by
  induction ks generalizing written with
  | nil => exact (List.append_nil written).symm
  | cons k ks ih =>
    rw [List.flatMap_cons, ← List.append_assoc]
    cases hcs : scalarCaptures p k with
    | none =>
      rw [onePass_of_none hcs]
      exact ih _
    | some cs =>
      rw [onePass_of_some hcs]
      exact ih _

theorem replaceScalars_inline (p : Pattern) (t : Text) (value : List Text → Text) :
    replaceScalars p .inline t value =
      (tokenize t).flatMap fun k => ((scalarCaptures p k).map value).getD k.source :=
  (replaceAllM_eq_onePass (m := Id) value (ScalarWalk.start p .inline t)).trans
    (onePass_inline p value [] (tokenize t))

/-- An answer that also notes what was asked. -/
def noting {σ : Type} (value : List Text → StateM σ Text) (cs : List Text) :
    StateM (List (List Text) × σ) Text :=
  fun s => ((value cs s.2).1, s.1 ++ [cs], (value cs s.2).2)

/-- Asking for several values notes each of them, in the order they are asked for. -/
theorem mapM_noting {σ : Type} (value : List Text → StateM σ Text) (asked : List (List Text))
    (s : List (List Text) × σ) : (asked.mapM (noting value) s).2.1 = s.1 ++ asked := by
  induction asked generalizing s with
  | nil => exact (List.append_nil _).symm
  | cons cs asked ih =>
    rw [List.mapM_cons]
    show (asked.mapM (noting value) (noting value cs s).2).2.1 = _
    rw [ih]
    exact List.append_assoc s.1 [cs] asked

/-- **Replacing scalars is one pass over the tokens of the text, and asks once for each that matches.** -/
theorem replaceScalarsM_in_one_pass (p : Pattern) (placement : Placement) (t : Text) :
    (∀ (m : Type → Type v) [Monad m] (value : List Text → m Text),
      replaceScalarsM p placement t value = onePass p placement value [] false (tokenize t)) ∧
    ∀ (σ : Type) (value : List Text → StateM σ Text) (s : σ),
      (replaceScalarsM p placement t (noting value) ([], s)).2.1 = (tokenize t).filterMap (scalarCaptures p) := by
  constructor
  · intro m _ value
    exact replaceAllM_eq_onePass value (ScalarWalk.start p placement t)
  · intro σ value s
    rw [replaceScalarsM_eq]
    exact mapM_noting value (scalarsIn p t) ([], s)

end RecordExport

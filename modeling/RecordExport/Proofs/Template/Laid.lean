import RecordExport.Proofs.Render.Foreign
import RecordExport.Proofs.Template.Lexing
import RecordExport.Proofs.Template.OnePass
import RecordExport.Proofs.Template.Sealed
import RecordExport.Template.BuiltIn
/-!
# Texts laid out as tokens

A template is written as a row of pieces, and a value that is put in becomes one piece more. As long as no two opening
braces can meet, the tokens of such a text are those it is laid out with, however its literals are cut, and what is
put into the text is put in the place of a token.

* `Laid`: the literals of a row have no two opening braces side by side and none at the end;
* `Laid.flatMap_tokenize`: what is read off the tokens of its text is read off the row;
* `Laid.fill_inline`, `Laid.fill_fitted`: a value in the place of a token, as it is or fitted into its line;
* `BuiltIn.laid`: **every built-in template is laid out so**.
-/

namespace RecordExport

/-! ## 1. Rows of tokens -/

/-- A literal beside which no placeholder can come about, or a placeholder. -/
def Token.IsLaid : Token → Prop
  | .literal l => unopened (l ++ ['{']) = true
  | .placeholder b => IsBody b

instance : DecidablePred Token.IsLaid
  | .literal l => inferInstanceAs (Decidable (unopened (l ++ ['{']) = true))
  | .placeholder b => inferInstanceAs (Decidable (IsBody b))

/-- **No two opening braces meet in the literals of the row**, or where one of them ends. -/
def Laid (ks : List Token) : Prop := ∀ k ∈ ks, k.IsLaid

instance (ks : List Token) : Decidable (Laid ks) := inferInstanceAs (Decidable (∀ k ∈ ks, k.IsLaid))

variable {ks pre post : List Token} {l b v : Text} {name : String}

theorem laid_cons {k : Token} : Laid (k :: ks) ↔ k.IsLaid ∧ Laid ks := List.forall_mem_cons

theorem laid_append : Laid (pre ++ post) ↔ Laid pre ∧ Laid post := List.forall_mem_append

theorem Token.isLaid_literal (h : '{' ∉ l) : Token.IsLaid (.literal l) :=
  unopened_append.2 ⟨unopened_of_not_mem h, apart_of_not_mem_left h, rfl⟩

theorem Token.isLaid_append {a : Text} (ha : IsLaid (.literal a)) (hl : IsLaid (.literal l)) :
    IsLaid (.literal (a ++ l)) := by
  obtain ⟨hopen, hapart, -⟩ := unopened_append.1 (show unopened (a ++ ['{']) = true from ha)
  show unopened (a ++ l ++ ['{']) = true
  rw [List.append_assoc]
  exact unopened_append.2 ⟨hopen, fun hlast => absurd rfl (hapart hlast), hl⟩

/-- A text without two opening braces holds no placeholder. -/
theorem plain_of_unopened (h : unopened l = true) : Plain l := by
  rintro a b r - rfl
  have hbraces := (unopened_append.1 h).2.2
  exact absurd rfl ((unopened_cons.1 hbraces).1 rfl)

/-! ## 2. Their tokens -/

/-- **What is read off the tokens of a text is read off the row** it is laid out as, if it is the same wherever
    literals are cut. -/
theorem Laid.flatMap_tokenize {α : Type} {g : Token → List α} (h : Laid ks) (hnil : g (.literal []) = [])
    (happend : ∀ a l, g (.literal (a ++ l)) = g (.literal a) ++ g (.literal l)) :
    (tokenize (sourceOf ks)).flatMap g = ks.flatMap g := by
  have hplain : ∀ l, Token.IsLaid (.literal l) → (tokenize l).flatMap g = g (.literal l) := by
    intro l hl
    by_cases hne : l = []
    · rw [hne, tokenize, hnil]
      rfl
    · rw [tokenize_plain hne (plain_of_unopened (unopened_append.1 hl).1), List.flatMap_singleton]
  -- a literal joins with what stands in front of it, up to the next placeholder
  have hbehind : ∀ ks, Laid ks → ∀ l, Token.IsLaid (.literal l) →
      (tokenize (l ++ sourceOf ks)).flatMap g = g (.literal l) ++ ks.flatMap g := by
    intro ks
    induction ks with
    | nil =>
      intro _ l hl
      rw [sourceOf_nil, List.append_nil, hplain l hl, List.flatMap_nil, List.append_nil]
    | cons k ks ih =>
      intro hks l hl
      obtain ⟨hk, hrow⟩ := laid_cons.1 hks
      rw [sourceOf_cons, List.flatMap_cons]
      cases k with
      | literal l' =>
        rw [Token.source, ← List.append_assoc, ih hrow _ (Token.isLaid_append hl hk), happend, List.append_assoc]
      | placeholder b =>
        have hrest := ih hrow [] rfl
        rw [List.nil_append, hnil, List.nil_append] at hrest
        rw [Token.source, tokenize_append_braced l hk, List.flatMap_append, List.flatMap_cons, hplain l hl, hrest]
  have hall := hbehind ks h [] rfl
  rwa [List.nil_append, hnil, List.nil_append] at hall

theorem Laid.filterMap_tokenize {α : Type} {g : Token → Option α} (h : Laid ks)
    (hg : ∀ l, g (.literal l) = none) :
    (tokenize (sourceOf ks)).filterMap g = ks.filterMap g := by
  rw [List.filterMap_eq_flatMap_toList, List.filterMap_eq_flatMap_toList]
  refine h.flatMap_tokenize ?_ fun a l => ?_
  · rw [hg]
    rfl
  · rw [hg, hg, hg]
    rfl

theorem Laid.scalarsIn (h : Laid ks) (p : Pattern) : scalarsIn p (sourceOf ks) = ks.filterMap (scalarCaptures p) :=
  h.filterMap_tokenize fun _ => rfl

/-- The placeholders of the text are those of the row. -/
theorem Laid.mem_of_mem_tokenize (h : Laid ks) (hb : .placeholder b ∈ tokenize (sourceOf ks)) :
    .placeholder b ∈ ks := by
  have hmem : b ∈ (tokenize (sourceOf ks)).filterMap Token.body? := List.mem_filterMap.2 ⟨_, hb, rfl⟩
  rw [h.filterMap_tokenize fun _ => rfl] at hmem
  obtain ⟨k, hk, hkb⟩ := List.mem_filterMap.1 hmem
  cases k with
  | literal l => cases hkb
  | placeholder b' =>
    obtain rfl := Option.some.inj hkb
    exact hk

theorem Laid.avoids (h : Laid ks) {start : Text} (hks : ∀ b, .placeholder b ∈ ks → ¬ start <+: Text.trim b) :
    (sourceOf ks).Avoids start := fun b hb => hks b (h.mem_of_mem_tokenize hb)

/-! ## 3. Values in their places -/

/-- The token, or a value in its place if it is a scalar with this name. -/
def Token.filled (name : String) (v : Text) (k : Token) : Token :=
  if (scalarCaptures (.literal name.toList) k).isSome then .literal v else k

theorem Laid.filled (h : Laid ks) (name : String) (hv : '{' ∉ v) : Laid (ks.map (Token.filled name v)) := by
  intro k' hk'
  obtain ⟨k, hk, rfl⟩ := List.mem_map.1 hk'
  unfold Token.filled
  split
  · exact Token.isLaid_literal hv
  · exact h k hk

/-- **A value that goes in as it is stands in the place of its tokens.** -/
theorem Laid.fill_inline (h : Laid ks) (name : String) (v : Text) :
    fill name .inline v (sourceOf ks) = sourceOf (ks.map (Token.filled name v)) := by
  have hone : ∀ k : Token, ((scalarCaptures (.literal name.toList) k).map fun _ => v).getD k.source =
      (k.filled name v).source := by
    intro k
    unfold Token.filled
    cases scalarCaptures (.literal name.toList) k <;> rfl
  unfold fill
  rw [replaceScalars_inline, h.flatMap_tokenize rfl fun _ _ => rfl, sourceOf, List.flatMap_map]
  exact List.flatMap_congr fun k _ => hone k

/-- Without scalars of the name nothing more is put in, and the rest of a line that goes is left out. -/
theorem onePass_of_no_scalar {p : Pattern} {ks : List Token} (hcut : WellCut ks)
    (h : ∀ k ∈ ks, scalarCaptures p k = none) (placement : Placement) (value : List Text → Text) (written : Text)
    (dropsLine : Bool) (hdrops : dropsLine = true → (Text.firstLine (sourceOf ks)).all isPadding = true) :
    onePass (m := Id) p placement value written dropsLine ks =
      written ++ if dropsLine then (sourceOf ks).behindLine else sourceOf ks := by
  have hkept : ∀ ks : List Token, (∀ k ∈ ks, scalarCaptures p k = none) →
      onePass (m := Id) p placement value written false ks = written ++ sourceOf ks := by
    intro ks hks
    have hpass : onePass (m := Id) p placement value written false (ks ++ []) = _ := onePass_append hks written []
    rw [List.append_nil] at hpass
    exact hpass
  cases dropsLine with
  | false => exact hkept ks h
  | true =>
    have hbehind : ∀ k ∈ tokenize (sourceOf ks).behindLine, scalarCaptures p k = none := by
      refine List.filterMap_eq_nil_iff.1 ?_
      refine (scalarsIn_behindLine p (hdrops rfl)).trans ?_
      unfold RecordExport.scalarsIn
      rw [tokenize_sourceOf hcut]
      exact List.filterMap_eq_nil_iff.2 h
    rw [onePass_behindLine hcut (hdrops rfl), hkept _ hbehind, source_tokenize]
    rfl

/-- **A value that is fitted into its line**, where its placeholder is the only one. -/
theorem Laid.fill_fitted (h : Laid (pre ++ .placeholder b :: post))
    (hpre : ∀ k ∈ pre, scalarCaptures (.literal name.toList) k = none)
    (hb : (scalarCaptures (.literal name.toList) (.placeholder b)).isSome = true)
    (hpost : ∀ k ∈ post, scalarCaptures (.literal name.toList) k = none) (v : Text) :
    fill name .fitted v (sourceOf (pre ++ .placeholder b :: post)) =
      let i := insertion .fitted (sourceOf pre) (sourceOf post) v
      i.written ++ if i.dropsLine then (sourceOf post).behindLine else sourceOf post := by
  obtain ⟨hlaid, hlaid'⟩ := laid_append.1 h
  obtain ⟨hbody, hlaid'⟩ := laid_cons.1 hlaid'
  obtain ⟨cs, hcs⟩ := Option.isSome_iff_exists.1 hb
  have hnone : ∀ {ks : List Token}, Laid ks → (∀ k ∈ ks, scalarCaptures (.literal name.toList) k = none) →
      ∀ k ∈ tokenize (sourceOf ks), scalarCaptures (.literal name.toList) k = none := by
    intro ks hks hk
    refine List.filterMap_eq_nil_iff.1 ?_
    rw [hks.filterMap_tokenize fun _ => rfl]
    exact List.filterMap_eq_nil_iff.2 hk
  have htokens : tokenize (sourceOf (pre ++ .placeholder b :: post)) =
      tokenize (sourceOf pre) ++ .placeholder b :: tokenize (sourceOf post) := by
    rw [sourceOf_append, sourceOf_cons]
    exact tokenize_append_braced _ hbody _
  have hpass : fill name .fitted v (sourceOf (pre ++ .placeholder b :: post)) =
      onePass (m := Id) (.literal name.toList) .fitted (fun _ => v) [] false _ :=
    replaceAllM_eq_onePass (m := Id) (fun _ => v) (ScalarWalk.start (.literal name.toList) .fitted _)
  let i := insertion .fitted (sourceOf pre) (sourceOf post) v
  have hbehind := onePass_of_no_scalar (wellCut_tokenize _) (hnone hlaid' hpost) .fitted (fun _ => v) i.written
    i.dropsLine
  rw [source_tokenize] at hbehind
  rw [hpass]
  show onePass (m := Id) _ _ _ _ _ (tokenize (sourceOf _)) = _
  rw [htokens, onePass_append (hnone hlaid hpre), onePass_of_some hcs, List.nil_append, source_tokenize,
    source_tokenize]
  exact hbehind padding_of_dropsLine

/-! ## 4. Built-in templates -/

/-- The token a piece is written as. -/
def TemplatePiece.token : TemplatePiece → Token
  | .text s => .literal s.toList
  | .slot n => .placeholder n.toList

namespace BuiltIn

theorem template_eq (k : ArtifactKind) : template k = sourceOf ((pieces k).map TemplatePiece.token) := by
  unfold template sourceOf
  rw [List.flatMap_map]
  refine List.flatMap_congr fun p _ => ?_
  cases p <;> rfl

/-- **Every built-in template is laid out.** -/
theorem laid (k : ArtifactKind) : Laid ((pieces k).map TemplatePiece.token) := by
  cases k <;> decide +kernel

end BuiltIn

end RecordExport

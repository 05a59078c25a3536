import RecordExport.Proofs.Template.Pairs
import RecordExport.Proofs.Template.Scalars
import RecordExport.Proofs.Template.TrimmedLines
import RecordExport.Resolver.Filling
/-!
# Passes around exchanged contents

A pass that knows no name in or around the exchanged contents does the same in both texts: it finds the
same placeholders and leaves the contents where they are. Blocks are settled so already; here it is said of
scalars, of lists and of looking for names.

* `replaceScalarsM_shielded`: scalars are replaced by the same values;
* `expandBlocksM_shielded`: lists are expanded to texts that are exchanged in turn;
* `mentions_shielded`: names are mentioned in both.
-/

namespace RecordExport

universe v

variable {H : Exchange} {t t' : Text}

/-- The contents begin and end alike. -/
def Exchange.Edged (H : Exchange) : Prop := ∀ {k c c'}, H k c c' → SameEdges c c'

/-! ## 1. Indentation -/

theorem leadingIndent_append {r : Text} (hr : '\n' ∉ r) (l : Text) :
    leadingIndent (l ++ '{' :: r) = leadingIndent l := by
  have hplain : '\n' ∉ '{' :: r := fun hm => by
    rcases List.mem_cons.1 hm with heq | hm
    · cases heq
    · exact hr hm
  unfold leadingIndent
  rw [Text.lastLine_append_of_not_mem hplain, List.takeWhile_append]
  split
  · rename_i hall
    rw [(List.takeWhile_prefix _).eq_of_length hall]
    exact List.append_nil _
  · rfl

theorem leadingIndent_append_of_mem {r : Text} (hr : '\n' ∈ r) (l : Text) :
    leadingIndent (l ++ r) = leadingIndent r := by
  unfold leadingIndent
  rw [(Text.lastLine_append_of_mem hr l).1]

theorem IsBody.not_mem {b : Text} (hb : IsBody b) : '\n' ∉ b := fun hm => by
  have hbody := hb.chars _ hm
  cases hbody

/-- The line behind a block begins with the last of these texts that has a line feed. -/
theorem leadingIndent_around (a : Text) (k : Markers) (c z : Text) :
    leadingIndent (a ++ (k.around c ++ z)) =
      if '\n' ∈ z then leadingIndent z else if '\n' ∈ c then leadingIndent c else leadingIndent a := by
  have ho := k.isBody_opening.not_mem
  have he := k.isBody_closing.not_mem
  split
  · rename_i hz
    rw [← List.append_assoc, leadingIndent_append_of_mem hz]
  · rename_i hz
    split
    · rename_i hc
      have hsplit : a ++ (k.around c ++ z) =
          (a ++ braced k.opening ++ c) ++ '{' :: ('{' :: (k.closing ++ ['}', '}']) ++ z) := by
        simp [Markers.around, braced]
      rw [hsplit, leadingIndent_append (by simp [hz, he]), leadingIndent_append_of_mem hc]
    · rename_i hc
      have hsplit : a ++ (k.around c ++ z) =
          a ++ '{' :: ('{' :: (k.opening ++ ['}', '}']) ++ (c ++ braced k.closing) ++ z) := by
        simp [Markers.around, braced]
      rw [hsplit, leadingIndent_append (by simp [braced, hz, hc, ho, he])]

namespace Exchanged

theorem feed (hH : H.Edged) (h : Exchanged H t t') : '\n' ∈ t ↔ '\n' ∈ t' := by
  induction h with
  | same a => exact Iff.rfl
  | @swap a k c c' t t' content _ ih =>
    have hsplit : ∀ c z, '\n' ∈ a ++ (k.around c ++ z) ↔ '\n' ∈ a ∨ '\n' ∈ k.opening ∨ '\n' ∈ c ∨
        '\n' ∈ k.closing ∨ '\n' ∈ z := fun c z => by simp [Markers.around, braced]
    rw [hsplit, hsplit, (hH content).feed, ih]

theorem leadingIndent (hH : H.Edged) (h : Exchanged H t t') :
    RecordExport.leadingIndent t = RecordExport.leadingIndent t' := by
  induction h with
  | same a => rfl
  | @swap a k c c' t t' content rest ih =>
    rw [leadingIndent_around, leadingIndent_around, ih]
    have hedges := hH content
    by_cases ht : '\n' ∈ t
    · rw [if_pos ht, if_pos ((rest.feed hH).1 ht)]
    · rw [if_neg ht, if_neg fun h => ht ((rest.feed hH).2 h)]
      by_cases hc : '\n' ∈ c
      · rw [if_pos hc, if_pos (hedges.feed.1 hc), hedges.indent hc]
      · rw [if_neg hc, if_neg fun h => hc (hedges.feed.2 h)]

end Exchanged

/-! ## 2. Scalars -/

variable {p : Pattern}

theorem scalarCaptures_of_lacks {ts : List Token}
    (h : ∀ b, Token.placeholder b ∈ ts → ¬ p.isMatch (Text.trim b) = true) :
    ∀ t ∈ ts, scalarCaptures p t = none := by
  intro t ht
  unfold scalarCaptures
  cases t with
  | literal l => rfl
  | placeholder b =>
    split
    · exact Option.not_isSome_iff_eq_none.1 (h b ht)
    · rfl

theorem findScalar_append {ts : List Token} (h : ∀ t ∈ ts, scalarCaptures p t = none)
    (us : List Token) :
    findScalar p (ts ++ us) =
      (findScalar p us).map fun m => { m with left := sourceOf ts ++ m.left } := by
  induction ts with
  | nil => exact Option.map_id'.symm
  | cons t ts ih =>
    rw [List.cons_append, findScalar, h t List.mem_cons_self]
    dsimp only
    rw [ih fun t ht => h t (List.mem_cons_of_mem _ ht), Option.map_map]
    simp only [sourceOf_cons, List.append_assoc]
    rfl

/-- The same scalar, with exchanged texts beside it. -/
structure SwappedScalar (H : Exchange) (m m' : ScalarMatch) : Prop where
  captures : m.captures = m'.captures
  left : Exchanged H m.left m'.left
  right : Exchanged H m.right m'.right

/-- **A scalar is found in both.** -/
theorem findScalar_swapped (hH : H.Lacks fun name => p.isMatch name = true) {ts ts' : List Token}
    (h : Swapped H ts ts') :
    (findScalar p ts = none ∧ findScalar p ts' = none) ∨
      ∃ m m', findScalar p ts = some m ∧ findScalar p ts' = some m' ∧ SwappedScalar H m m' := by
  have hbehind : ∀ {us us' vs vs' : List Token},
      (∀ t ∈ us, scalarCaptures p t = none) → (∀ t ∈ us', scalarCaptures p t = none) →
      (∀ {t t'}, Exchanged H t t' → Exchanged H (sourceOf us ++ t) (sourceOf us' ++ t')) →
      ((findScalar p vs = none ∧ findScalar p vs' = none) ∨
        ∃ m m', findScalar p vs = some m ∧ findScalar p vs' = some m' ∧ SwappedScalar H m m') →
      (findScalar p (us ++ vs) = none ∧ findScalar p (us' ++ vs') = none) ∨
        ∃ m m', findScalar p (us ++ vs) = some m ∧ findScalar p (us' ++ vs') = some m' ∧
          SwappedScalar H m m' := by
    rintro us us' vs vs' hus hus' hswap (⟨hn, hn'⟩ | ⟨m, m', hm, hm', hmm⟩)
    · rw [findScalar_append hus, findScalar_append hus', hn, hn']
      exact .inl ⟨rfl, rfl⟩
    · rw [findScalar_append hus, findScalar_append hus', hm, hm']
      exact .inr ⟨_, _, rfl, rfl, hmm.captures, hswap hmm.left, hmm.right⟩
  induction h with
  | nil => exact .inl ⟨rfl, rfl⟩
  | @cons k ts ts' rest ih =>
    cases hk : scalarCaptures p k with
    | some cs =>
      have hfound : ∀ ts, findScalar p (k :: ts) = some ⟨cs, [], k, sourceOf ts⟩ := fun ts => by
        rw [findScalar, hk]
      exact .inr ⟨_, _, hfound ts, hfound ts', rfl, .same [], rest.sourceOf⟩
    | none =>
      have hone : ∀ t ∈ [k], scalarCaptures p t = none := fun t ht => by
        rw [List.mem_singleton.1 ht, hk]
      exact hbehind hone hone (fun h => h.append_left _) ih
  | @swap k c c' ts ts' content _ ih =>
    refine hbehind (scalarCaptures_of_lacks fun b hb => hH content b (.inl hb))
      (scalarCaptures_of_lacks fun b hb => hH content b (.inr hb)) (fun h => ?_) ih
    rw [Markers.sourceOf_tokens, Markers.sourceOf_tokens]
    exact .swap [] content h

theorem scalarsIn_shielded (hH : H.Lacks fun name => p.isMatch name = true) (h : Exchanged H t t') :
    scalarsIn p t = scalarsIn p t' := by
  have hnone : ∀ {ts : List Token}, (∀ t ∈ ts, scalarCaptures p t = none) →
      ts.filterMap (scalarCaptures p) = [] := List.filterMap_eq_nil_iff.2
  have htokens := h.tokenize
  unfold scalarsIn
  generalize tokenize t = ts, tokenize t' = ts' at htokens ⊢
  induction htokens with
  | nil => rfl
  | cons k _ ih => rw [List.filterMap_cons, List.filterMap_cons, ih]
  | swap content _ ih =>
    rw [List.filterMap_append, List.filterMap_append, ih,
      hnone (scalarCaptures_of_lacks fun b hb => hH content b (.inl hb)),
      hnone (scalarCaptures_of_lacks fun b hb => hH content b (.inr hb))]

/-- Two walks over scalars that passed exchanged texts and have exchanged ones before them. -/
structure ShieldedWalks (H : Exchange) (w w' : ScalarWalk) : Prop where
  pattern : w.pattern = w'.pattern
  placement : w.placement = w'.placement
  before : Exchanged H w.before w'.before
  rest : Exchanged H w.rest w'.rest

/-- **A step of such walks.** -/
theorem ShieldedWalks.replace {w w' : ScalarWalk} (hE : H.Edged)
    (hH : H.Lacks fun name => w.pattern.isMatch name = true) (h : ShieldedWalks H w w') (v : Text) :
    ShieldedWalks H (w.next.replace v) (w'.next.replace v) := by
  obtain ⟨hpattern, hplacement, hbefore, hrest⟩ := h
  have hcurrent : w'.next.current = findScalar w.pattern (tokenize w'.rest) := by
    rw [hpattern]
    rfl
  rcases findScalar_swapped hH hrest.tokenize with ⟨hn, hn'⟩ | ⟨m, m', hm, hm', hmm⟩
  · have hw : w.next.current = none := hn
    unfold ScalarWalk.replace
    rw [hw, hcurrent, hn']
    exact ⟨hpattern, hplacement, hbefore, hrest⟩
  · have hw : w.next.current = some m := hm
    have hleft : Exchanged H (w.next.before ++ m.left) (w'.next.before ++ m'.left) :=
      hbefore.append hmm.left
    have hp : w'.next.placement = w.next.placement := hplacement.symm
    unfold ScalarWalk.replace
    rw [hw, hcurrent, hm', hp]
    dsimp only
    split
    · exact ⟨hpattern, rfl, hleft.append (.same v), hmm.right⟩
    · split
      · -- nothing is left of the value, which takes the same line away in both
        have halone : standsAlone (w'.next.before ++ m'.left) m'.right =
            standsAlone (w.next.before ++ m.left) m.right := by
          unfold standsAlone
          rw [hleft.lastLine, hmm.right.firstLine]
        refine ⟨hpattern, rfl, ?_, ?_⟩
        · dsimp only
          rw [dropLast_lineExtent, dropLast_lineExtent, halone]
          split
          · rename_i hline
            exact hleft.aheadOfLine (Bool.and_eq_true_iff.1 hline).1
          · exact hleft
        · dsimp only
          rw [drop_lineExtent, drop_lineExtent, halone]
          split
          · rename_i hline
            exact hmm.right.behindLine (Bool.and_eq_true_iff.1 hline).2
          · exact hmm.right
      · refine ⟨hpattern, rfl, ?_, hmm.right⟩
        dsimp only
        rw [hleft.leadingIndent hE]
        exact hleft.append (.same _)

theorem placeValues_shielded (hE : H.Edged) (hH : H.Lacks fun name => p.isMatch name = true)
    (placement : Placement) (vs : List Text) (h : Exchanged H t t') :
    Exchanged H (placeValues p placement vs t) (placeValues p placement vs t') := by
  have hwalk : ∀ {w w' : ScalarWalk}, (H.Lacks fun name => w.pattern.isMatch name = true) →
      ShieldedWalks H w w' → Exchanged H (w.placeValues vs) (w'.placeValues vs) := by
    induction vs with
    | nil => exact fun _ hw => hw.before.append hw.rest
    | cons v vs ih =>
      intro w w' hlacks hw
      refine ih ?_ (hw.replace hE hlacks v)
      rwa [ScalarWalk.pattern_replace]
  exact hwalk hH ⟨rfl, rfl, .same [], h⟩

section Passes

variable {m : Type → Type v} [Monad m] [LawfulMonad m]
  {Q : (α β : Type) → (α → β → Prop) → m α → m β → Prop}

/-- **Scalars are replaced by the same values.** -/
theorem replaceScalarsM_shielded (hQ : PairedBy Q) (hE : H.Edged)
    (hH : H.Lacks fun name => p.isMatch name = true) {value : List Text → m Text}
    (hv : ∀ cs, Q Text Text Eq (value cs) (value cs)) (placement : Placement) (h : Exchanged H t t') :
    Q Text Text (Exchanged H) (replaceScalarsM p placement t value)
      (replaceScalarsM p placement t' value) := by
  rw [replaceScalarsM_eq, replaceScalarsM_eq, ← scalarsIn_shielded hH h]
  refine hQ.sequence (hQ.mapM (S := Eq) (R := Eq) (fun cs cs' hcs => hcs ▸ hv cs)
    (List.forall₂_same.2 fun _ _ => rfl)) fun vs vs' hvs => hQ.result ?_
  obtain rfl := List.forall₂_eq_eq_eq ▸ hvs.1
  exact placeValues_shielded hE hH placement vs h

end Passes

/-! ## 3. Lists -/

namespace Exchanged

theorem trimFront (h : Exchanged H t t') :
    Exchanged H (RecordExport.trimFront t) (RecordExport.trimFront t') := by
  cases h with
  | same a => exact .same _
  | @swap a k c c' t t' content rest =>
    obtain ⟨a₁, ha⟩ := trimFront_append a
    have hfront : ∀ c z, RecordExport.trimFront (a ++ (k.around c ++ z)) = a₁ ++ (k.around c ++ z) :=
      fun c z => ha '{' _ rfl
    rw [hfront, hfront]
    exact .swap a₁ content rest

theorem trimBehind (h : Exchanged H t t') :
    Exchanged H (RecordExport.trimBehind t) (RecordExport.trimBehind t') := by
  induction h with
  | same a => exact .same _
  | @swap a k c c' t t' content _ ih =>
    have hback : ∀ c z, RecordExport.trimBehind (a ++ (k.around c ++ z)) =
        a ++ (k.around c ++ RecordExport.trimBehind z) := by
      intro c z
      obtain ⟨l, hl⟩ := Markers.append_around_append a k c
      rw [hl, hl, (trimBack_append l z (c := '}') rfl).2]
    rw [hback, hback]
    exact .swap a content ih

theorem trimBack (h : Exchanged H t t') :
    Exchanged H (RecordExport.trimBack t) (RecordExport.trimBack t') := by
  cases h with
  | same a => exact .same _
  | @swap a k c c' t t' content rest =>
    have hback : ∀ c z, RecordExport.trimBack (a ++ (k.around c ++ z)) =
        a ++ (k.around c ++ RecordExport.trimBehind z) := by
      intro c z
      obtain ⟨l, hl⟩ := Markers.append_around_append a k c
      rw [hl, hl, (trimBack_append l z (c := '}') rfl).1]
    rw [hback, hback]
    exact .swap a content rest.trimBehind

theorem trimBlankLines (h : Exchanged H t t') :
    Exchanged H (RecordExport.trimBlankLines t) (RecordExport.trimBlankLines t') := by
  rw [trimBlankLines_eq, trimBlankLines_eq]
  exact h.trimFront.trimBack

theorem getLast? (h : Exchanged H t t') : t.getLast? = t'.getLast? := by
  induction h with
  | same a => rfl
  | @swap a k c c' t t' _ _ ih =>
    have hlast : ∀ c z, (a ++ (k.around c ++ z)).getLast? = z.getLast?.or (some '}') := by
      intro c z
      obtain ⟨l, hl⟩ := Markers.append_around_append a k c
      rw [hl, List.getLast?_append]
      cases z <;> rfl
    rw [hlast, hlast, ih]

theorem eq_nil (h : Exchanged H t t') : t = [] ↔ t' = [] := by
  rw [← List.getLast?_eq_none_iff, ← List.getLast?_eq_none_iff, h.getLast?]

theorem flatten {ts ts' : List Text} (h : List.Forall₂ (Exchanged H) ts ts') :
    Exchanged H ts.flatten ts'.flatten := by
  induction h with
  | nil => exact .same _
  | cons ht _ ih => exact ht.append ih

theorem joinItems {ts ts' : List Text} (h : List.Forall₂ (Exchanged H) ts ts') :
    Exchanged H (RecordExport.joinItems ts) (RecordExport.joinItems ts') := by
  have hjoined := flatten h
  have htrimmed := hjoined.trimBlankLines
  have hbreak : RecordExport.trimBlankLines ts.flatten ≠ [] ∧ ts.flatten.getLast? = some '\n' ↔
      RecordExport.trimBlankLines ts'.flatten ≠ [] ∧ ts'.flatten.getLast? = some '\n' := by
    rw [hjoined.getLast?, ne_eq, ne_eq, htrimmed.eq_nil]
  unfold RecordExport.joinItems
  dsimp only
  split
  · rename_i hkept
    rw [if_pos (hbreak.1 hkept)]
    exact htrimmed.append (.same _)
  · rename_i hkept
    rw [if_neg fun h => hkept (hbreak.2 h)]
    exact htrimmed

end Exchanged

/-- **Lists are expanded to texts that are exchanged in turn.** -/
theorem expandBlocksM_shielded {m : Type → Type v} [Monad m] [LawfulMonad m]
    {Q : (α β : Type) → (α → β → Prop) → m α → m β → Prop} (hQ : PairedBy Q) {f : BlockFamily}
    (hH : H.Lacks f.marks) {α : Type} {items : List α} {render : α → ListPosition → Text → m Text}
    (hr : ∀ a ∈ items, ∀ position {inner inner'}, Exchanged H inner inner' →
      Q Text Text (Exchanged H) (render a position inner) (render a position inner'))
    (h : Exchanged H t t') :
    Q Text Text (Exchanged H) (expandBlocksM f t items render) (expandBlocksM f t' items render) := by
  rw [expandBlocksM_eq, expandBlocksM_eq]
  refine walksAlike_shielded hQ (walksBy_expandFrom f _) hH (stepsAlike_expand hQ ?_) t.length
    (Nat.le_refl _) (.same []) h
  intro inner inner' hinner
  have hitems : List.Forall₂ (fun a a' => a = a' ∧ a.1 ∈ items) (positioned items) (positioned items) := by
    refine List.forall₂_same.2 fun a ha => ⟨rfl, ?_⟩
    obtain ⟨⟨b, i⟩, hb, rfl⟩ := List.mem_map.1 ha
    exact List.fst_mem_of_mem_zipIdx hb
  refine hQ.sequence (hQ.mapM (R := Exchanged H) ?_ hitems) fun ts ts' hts =>
    hQ.result (Exchanged.joinItems hts.1)
  rintro a _ ⟨rfl, ha⟩
  exact hr a.1 ha a.2 hinner

/-! ## 4. Beginnings of names -/

/-- Every name of the pattern begins so. -/
def Pattern.Begins (start : Text) (p : Pattern) : Prop := ∀ name, p.isMatch name = true → start <+: name

/-- Every name that opens or closes a block of the family begins so. -/
def BlockFamily.Begins (start : Text) (f : BlockFamily) : Prop :=
  f.opens.Begins start ∧ f.closes.Begins start

/-- No placeholder in or around the contents has a name that begins so. -/
def Exchange.Avoids (H : Exchange) (start : Text) : Prop := H.Lacks fun name => start <+: name

variable {start : Text}

theorem begins_parts {s : Text} (h : start <+: s) (ps : List NamePart) :
    (Pattern.parts (.fixed s :: ps)).Begins start := by
  intro name hname
  obtain ⟨cs, hcs⟩ := Option.isSome_iff_exists.1 hname
  obtain ⟨r, hr, -⟩ := Option.bind_eq_some_iff.1 hcs
  rw [Text.eq_append_of_afterLeading? hr]
  exact h.trans (List.prefix_append _ _)

theorem begins_ofStem {stem : Text} (h : start <+: stem ++ ['_']) :
    (BlockFamily.ofStem stem).Begins start := by
  have htrail : ∀ trail, start <+: stem ++ '_' :: trail := fun trail => by
    rw [← List.singleton_append, ← List.append_assoc]
    exact h.trans (List.prefix_append _ _)
  exact ⟨begins_parts (htrail _) [], begins_parts (htrail _) []⟩

theorem Exchange.Avoids.mono (hH : H.Avoids start) {longer : Text} (h : start <+: longer) :
    H.Avoids longer :=
  fun hc b hb hm => hH hc b hb (h.trans hm)

/-- The names of a namespace. -/
theorem begins_name {space : String} (h : start <+: (space ++ "_").toList) (rest : String) :
    start <+: (space ++ ("_" ++ rest)).toList := by
  rw [← String.append_assoc, String.toList_append]
  exact h.trans (List.prefix_append _ _)

theorem Exchange.Avoids.lacks (hH : H.Avoids start) {p : Pattern} (hp : p.Begins start) :
    H.Lacks fun name => p.isMatch name = true :=
  fun hc b hb hm => hH hc b hb (hp _ hm)

theorem Exchange.Avoids.marks (hH : H.Avoids start) {f : BlockFamily} (hf : f.Begins start) :
    H.Lacks f.marks :=
  fun hc b hb hm => hH hc b hb (hm.elim (hf.1 _) (hf.2 _))

/-- **Names are mentioned in both.** -/
theorem mentions_shielded (beginning : String) (hH : H.Avoids beginning.toList)
    (h : Exchanged H t t') : mentions beginning t = mentions beginning t' := by
  have hnone : ∀ {ts : List Token}, (∀ b, Token.placeholder b ∈ ts → ¬ beginning.toList <+: Text.trim b) →
      (ts.any fun k => k.isPlaceholder && Text.beginsWith k.name beginning.toList) = false := by
    intro ts hts
    refine List.any_eq_false.2 fun k hk hm => ?_
    cases k with
    | literal l => cases hm
    | placeholder b => exact hts b hk (Text.beginsWith_iff.1 (Bool.and_eq_true_iff.1 hm).2)
  have htokens := h.tokenize
  unfold mentions
  generalize tokenize t = ts, tokenize t' = ts' at htokens ⊢
  induction htokens with
  | nil => rfl
  | cons k _ ih => rw [List.any_cons, List.any_cons, ih]
  | swap content _ ih =>
    rw [List.any_append, List.any_append, ih, hnone fun b hb => hH content b (.inl hb),
      hnone fun b hb => hH content b (.inr hb)]

/-- If the blocks that are exchanged begin with such a name it is mentioned in both, or nothing is
    exchanged. -/
theorem mentions_swapped {beginning : String}
    (hH : ∀ {k c c'}, H k c c' → beginning.toList <+: Text.trim k.opening) (h : Exchanged H t t') :
    t = t' ∨ (mentions beginning t = true ∧ mentions beginning t' = true) := by
  cases h with
  | same a => exact .inl rfl
  | @swap a k c c' z z' content _ =>
    have hmentions : ∀ c z, mentions beginning (a ++ (k.around c ++ z)) = true := by
      intro c z
      unfold mentions
      rw [Markers.tokenize_append_around]
      refine List.any_eq_true.2 ⟨.placeholder k.opening, ?_, ?_⟩
      · exact List.mem_append_right _ List.mem_cons_self
      · exact Bool.and_eq_true_iff.2 ⟨rfl, Text.beginsWith_iff.2 (hH content)⟩
    exact .inr ⟨hmentions c z, hmentions c' z'⟩

theorem fill_shielded (hE : H.Edged) (hH : H.Avoids start) (name : String) (hname : start <+: name.toList)
    (placement : Placement) (value : Text) (h : Exchanged H t t') :
    Exchanged H (fill name placement value t) (fill name placement value t') :=
  replaceScalarsM_shielded pairedBy_id hE (hH.lacks (begins_parts hname [])) (fun _ => rfl) placement h

theorem gate_shielded (hH : H.Avoids start) (stem : String) (hstem : start <+: stem.toList) (kept : Bool)
    (h : Exchanged H t t') : Exchanged H (gate stem kept t) (gate stem kept t') :=
  keepBlocks_shielded _ (hH.marks (begins_ofStem (hstem.trans (List.prefix_append _ _)))) h

theorem fillPosition_shielded (hE : H.Edged) (hH : H.Avoids start) (space : String)
    (hspace : start <+: (space ++ "_").toList) (position : ListPosition) (h : Exchanged H t t') :
    Exchanged H (fillPosition space position t) (fillPosition space position t') := by
  have hname := begins_name hspace
  unfold fillPosition
  refine fill_shielded hE hH _ (hname "Index") .inline _ ?_
  refine gate_shielded hH _ (hname "IsNotLast") _ (gate_shielded hH _ (hname "IsLast") _ ?_)
  exact gate_shielded hH _ (hname "IsNotFirst") _ (gate_shielded hH _ (hname "IsFirst") _ h)

end RecordExport

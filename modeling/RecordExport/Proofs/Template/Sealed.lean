import RecordExport.Proofs.Template.Blocks
import RecordExport.Proofs.Template.Scalars
import RecordExport.Proofs.Template.TrimmedLines
/-!
# Texts in which no placeholder can come about

A placeholder begins with two opening braces. In a SEALED text every two opening braces begin one, and
what is put into it has none. Then all that a walk does is to take placeholders away: nothing that is
joined can make a new one, and what a walk does depends on the placeholders alone.

* `Sealed bs t`: the text is sealed, and these are the bodies of its placeholders;
* `Sealed.append`, `Sealed.of_append_left`, `Sealed.of_append_right`: putting together and cutting off;
* `Sealed.placeValues`: values in the places of scalars leave the other placeholders;
* `keepBlocks_sealed`: conditions leave the same placeholders in texts that had the same.
-/

namespace RecordExport

/-! ## 1. Opening braces -/

/-- No two opening braces stand side by side. -/
def unopened : Text → Bool
  | [] => true
  | c :: t => !(c = '{' && t.head? = some '{') && unopened t

/-- No two opening braces meet where these texts do. -/
def Apart (s t : Text) : Prop := s.getLast? = some '{' → t.head? ≠ some '{'

theorem unopened_cons {c : Char} {t : Text} :
    unopened (c :: t) = true ↔ (c = '{' → t.head? ≠ some '{') ∧ unopened t = true := by
  show (!(decide (c = '{') && decide (t.head? = some '{')) && unopened t) = true ↔ _
  rw [Bool.and_eq_true, Bool.not_eq_true', Bool.and_eq_false_imp]
  simp only [decide_eq_true_eq, decide_eq_false_iff_not, ne_eq]

theorem unopened_append {s t : Text} :
    unopened (s ++ t) = true ↔ unopened s = true ∧ Apart s t ∧ unopened t = true := by
  unfold Apart
  induction s with
  | nil => simp [unopened]
  | cons c s ih =>
    rw [List.cons_append, unopened_cons, unopened_cons, ih, and_assoc]
    cases s with
    | nil => simp [unopened]
    | cons d s => simp only [List.cons_append, List.head?_cons, List.getLast?_cons_cons]

theorem apart_of_not_mem_left {s t : Text} (h : '{' ∉ s) : Apart s t :=
  fun hs => absurd (List.mem_of_getLast? hs) h

theorem unopened_of_not_mem {t : Text} (h : '{' ∉ t) : unopened t = true := by
  induction t with
  | nil => rfl
  | cons c t ih =>
    refine unopened_cons.2 ⟨fun hc => absurd ?_ h, ih fun hm => h (List.mem_cons_of_mem _ hm)⟩
    rw [hc]
    exact List.mem_cons_self

/-! ## 2. Sealed texts -/

/-- **Every two opening braces begin a placeholder**, and these are the bodies of the placeholders. -/
inductive Sealed : List Text → Text → Prop
  | plain {l : Text} (literal : unopened l = true) : Sealed [] l
  | hole {l b t : Text} {bs : List Text} (literal : unopened (l ++ ['{']) = true) (body : IsBody b)
      (rest : Sealed bs t) : Sealed (b :: bs) (l ++ (braced b ++ t))

variable {bs bs' : List Text} {b s t : Text}

theorem placeholder_not_mem_of_unopened {l : Text} (h : unopened l = true) :
    ∀ b, Token.placeholder b ∉ tokenize l := by
  intro b
  fun_induction tokenize l with
  | case1 => exact List.not_mem_nil
  | case2 c t body rest hcut _ =>
    have hopens := (eq_of_cutPlaceholder? hcut).1
    rw [hopens] at h
    exact absurd rfl ((unopened_cons.1 h).1 rfl)
  | case3 c t hcut ih =>
    intro hm
    refine ih (unopened_cons.1 h).2 ?_
    unfold joinLiteral at hm
    split at hm <;> simp_all

theorem Sealed.append (hs : Sealed bs s) (ht : Sealed bs' t) (h : Apart s t) :
    Sealed (bs ++ bs') (s ++ t) := by
  induction hs with
  | @plain l hl =>
    cases ht with
    | plain hl' => exact .plain (unopened_append.2 ⟨hl, h, hl'⟩)
    | @hole l' b t bs hl' hb ht =>
      rw [← List.append_assoc]
      refine .hole ?_ hb ht
      rw [List.append_assoc]
      refine unopened_append.2 ⟨hl, fun hlast hhead => h hlast ?_, hl'⟩
      cases l' with
      | nil => rfl
      | cons c l' => exact hhead
  | @hole l b t' bs hl hb _ ih =>
    have hrest : Apart t' t := by
      intro hlast
      refine h ?_
      rw [← List.append_assoc, List.getLast?_append, hlast]
      rfl
    simp only [List.append_assoc, List.cons_append]
    exact .hole hl hb (ih hrest)

/-- What stands behind text without opening braces is sealed by itself. -/
theorem Sealed.of_append_left {a : Text} (h : Sealed bs (a ++ t)) (ha : '{' ∉ a) : Sealed bs t := by
  generalize hx : a ++ t = x at h
  cases h with
  | plain hl =>
    rw [← hx] at hl
    exact .plain (unopened_append.1 hl).2.2
  | @hole l b z bs hl hb hz =>
    rcases List.append_eq_append_iff.1 hx with ⟨l', rfl, rfl⟩ | ⟨a', rfl, hz'⟩
    · rw [List.append_assoc] at hl
      exact .hole (unopened_append.1 hl).2.2 hb hz
    · cases a' with
      | nil =>
        obtain rfl : braced b ++ z = t := hz'
        exact .hole (l := []) rfl hb hz
      | cons c a' =>
        obtain ⟨rfl, -⟩ := List.cons.inj hz'
        exact absurd (List.mem_append_right _ List.mem_cons_self) ha

theorem getLast?_append_braced (l b : Text) : (l ++ braced b).getLast? = some '}' := by
  have hsplit : l ++ braced b = (l ++ '{' :: '{' :: (b ++ ['}'])) ++ ['}'] := by simp [braced]
  rw [hsplit, List.getLast?_concat]

/-- What stands before text without closing braces is sealed by itself. -/
theorem Sealed.of_append_right {a : Text} (h : Sealed bs (t ++ a)) (ha : '}' ∉ a) : Sealed bs t := by
  generalize hx : t ++ a = x at h
  induction h generalizing t with
  | plain hl =>
    rw [← hx] at hl
    exact .plain (unopened_append.1 hl).1
  | @hole l b z bs hl hb hz ih =>
    have hsplit : l ++ (braced b ++ z) = (l ++ braced b) ++ z := by rw [List.append_assoc]
    rw [hsplit] at hx
    rcases List.append_eq_append_iff.1 hx with ⟨a', ha', rfl⟩ | ⟨t', rfl, rfl⟩
    · obtain rfl : a' = [] := by
        by_contra hne
        have hlast := congrArg List.getLast? ha'
        obtain ⟨c, hc⟩ := Option.ne_none_iff_exists'.1 fun h => hne (List.getLast?_eq_none_iff.1 h)
        rw [getLast?_append_braced, List.getLast?_append, hc] at hlast
        obtain rfl := Option.some.inj hlast
        exact ha (List.mem_append_left _ (List.mem_of_getLast? hc))
      rw [List.append_nil] at ha'
      rw [← ha']
      have hrest := ih (t := []) rfl
      have hhole := Sealed.hole hl hb hrest
      rwa [List.append_nil] at hhole
    · rw [List.append_assoc]
      exact .hole hl hb (ih rfl)

/-! ## 3. Their placeholders -/

/-- The body of a placeholder. -/
def Token.body? : Token → Option Text
  | .literal _ => none
  | .placeholder b => some b

theorem filterMap_body?_of_unopened {l : Text} (h : unopened l = true) :
    (tokenize l).filterMap Token.body? = [] := by
  refine List.filterMap_eq_nil_iff.2 fun k hk => ?_
  cases k with
  | literal => rfl
  | placeholder b => exact absurd hk (placeholder_not_mem_of_unopened h b)

/-- The placeholders of a sealed text are those it is made with. -/
theorem Sealed.bodies (h : Sealed bs t) : (tokenize t).filterMap Token.body? = bs := by
  induction h with
  | plain hl => exact filterMap_body?_of_unopened hl
  | @hole l b t bs hl hb _ ih =>
    rw [tokenize_append_braced l hb, List.filterMap_append,
      filterMap_body?_of_unopened (unopened_append.1 hl).1, List.filterMap_cons, ih]
    rfl

/-- **A sealed text is cut at each of its placeholders into sealed texts.** -/
theorem Sealed.split (h : Sealed bs t) {pre post : List Token}
    (hts : tokenize t = pre ++ .placeholder b :: post) :
    Sealed (pre.filterMap Token.body?) (sourceOf pre) ∧ (sourceOf pre).getLast? ≠ some '{' ∧
      Sealed (post.filterMap Token.body?) (sourceOf post) := by
  induction h generalizing pre with
  | plain hl =>
    refine absurd ?_ (placeholder_not_mem_of_unopened hl b)
    rw [hts]
    exact List.mem_append_right _ List.mem_cons_self
  | @hole l b₀ t bs hl hb hrest ih =>
    obtain ⟨hl₀, hapart, -⟩ := unopened_append.1 hl
    have hfirst : Sealed ((tokenize l).filterMap Token.body?) (sourceOf (tokenize l)) ∧
        (sourceOf (tokenize l)).getLast? ≠ some '{' ∧
          Sealed ((tokenize t).filterMap Token.body?) (sourceOf (tokenize t)) := by
      rw [filterMap_body?_of_unopened hl₀, hrest.bodies, source_tokenize, source_tokenize]
      exact ⟨.plain hl₀, fun h => hapart h rfl, hrest⟩
    rw [tokenize_append_braced l hb] at hts
    rcases List.append_eq_append_iff.1 hts with ⟨pre', rfl, hpre'⟩ | ⟨post', hpost', hts'⟩
    · cases pre' with
      | nil =>
        obtain ⟨-, rfl⟩ := List.cons.inj hpre'
        rw [List.append_nil]
        exact hfirst
      | cons k pre' =>
        obtain ⟨rfl, hts'⟩ := List.cons.inj hpre'
        obtain ⟨hpre, hopen, hpost⟩ := ih hts'
        have hsource : sourceOf (tokenize l ++ .placeholder b₀ :: pre') =
            l ++ (braced b₀ ++ sourceOf pre') := by
          rw [sourceOf_append, source_tokenize]
          rfl
        have hbodies : (tokenize l ++ .placeholder b₀ :: pre').filterMap Token.body? =
            b₀ :: pre'.filterMap Token.body? := by
          rw [List.filterMap_append, filterMap_body?_of_unopened hl₀]
          rfl
        rw [hsource, hbodies]
        refine ⟨.hole hl hb hpre, fun hlast => ?_, hpost⟩
        rw [← List.append_assoc, List.getLast?_append, getLast?_append_braced] at hlast
        cases hp : (sourceOf pre').getLast? with
        | none =>
          rw [hp] at hlast
          cases hlast
        | some c =>
          rw [hp] at hlast
          exact hopen (hp.trans hlast)
    · cases post' with
      | nil =>
        obtain ⟨-, rfl⟩ := List.cons.inj hts'
        rw [List.append_nil] at hpost'
        rw [← hpost']
        exact hfirst
      | cons k post' =>
        -- the placeholder would stand in the literal
        obtain ⟨rfl, -⟩ := List.cons.inj hts'
        refine absurd ?_ (placeholder_not_mem_of_unopened hl₀ b)
        rw [hpost']
        exact List.mem_append_right _ List.mem_cons_self

/-! ## 4. Cutting lines off -/

theorem Sealed.behindLine (h : Sealed bs t) (hp : (Text.firstLine t).all isPadding = true) :
    Sealed bs t.behindLine := by
  by_cases hn : '\n' ∈ t
  · obtain ⟨l, r, rfl, hl⟩ := List.eq_append_cons_of_mem hn
    rw [Text.firstLine_cons hl] at hp
    have hplain : '{' ∉ l ++ ['\n'] := by simpa using not_mem_of_padding hp (c := '{') rfl
    have hsplit : l ++ '\n' :: r = (l ++ ['\n']) ++ r := by simp
    rw [hsplit] at h
    rw [Text.behindLine_cons hl]
    exact h.of_append_left hplain
  · rw [Text.firstLine_of_not_mem hn] at hp
    rw [Text.behindLine_of_not_mem hn]
    have hall : t = t ++ [] := (List.append_nil t).symm
    rw [hall] at h
    exact h.of_append_left (not_mem_of_padding hp rfl)

theorem Sealed.aheadOfLine (h : Sealed bs t) (hp : (Text.lastLine t).all isPadding = true) :
    Sealed bs t.aheadOfLine ∧ t.aheadOfLine.getLast? ≠ some '{' := by
  by_cases hn : '\n' ∈ t
  · obtain ⟨l, r, rfl, hr⟩ := Text.eq_append_lastLine_of_mem hn
    rw [Text.lastLine_cons hr] at hp
    have hsplit : l ++ '\n' :: r = (l ++ ['\n']) ++ r := by simp
    rw [hsplit] at h
    rw [Text.aheadOfLine_cons hr, List.getLast?_concat]
    exact ⟨h.of_append_right (not_mem_of_padding hp rfl), by decide⟩
  · rw [Text.lastLine_of_not_mem hn] at hp
    rw [Text.aheadOfLine_of_not_mem hn]
    exact ⟨h.of_append_right (t := []) (not_mem_of_padding hp rfl), by decide⟩

/-! ## 5. Texts that may be put in -/

theorem unopened_joinLines {ls : List Text} (h : ∀ l ∈ ls, unopened l = true) :
    unopened (joinLines ls) = true := by
  induction ls with
  | nil => rfl
  | cons l ls ih =>
    have hl := h l List.mem_cons_self
    cases ls with
    | nil => exact hl
    | cons m ms =>
      have hfeed : ∀ {r : Text}, unopened r = true → unopened ('\n' :: r) = true := fun hr =>
        unopened_cons.2 ⟨fun hc => absurd hc (by decide), hr⟩
      exact unopened_append.2 ⟨hl, fun _ => by simp,
        hfeed (ih fun m hm => h m (List.mem_cons_of_mem _ hm))⟩

theorem unopened_of_mem_splitLines (h : unopened t = true) : ∀ l ∈ splitLines t, unopened l = true := by
  induction t with
  | nil =>
    intro l hl
    obtain rfl := List.mem_singleton.1 hl
    rfl
  | cons c t ih =>
    have ih := ih (unopened_cons.1 h).2
    intro l hl
    unfold splitLines at hl
    split at hl
    · rcases List.mem_cons.1 hl with rfl | hl
      · rfl
      · exact ih l hl
    · split at hl
      · rename_i m ms hs
        rcases List.mem_cons.1 hl with rfl | hl
        · refine unopened_cons.2 ⟨fun hc hm => ?_, ih m (hs ▸ List.mem_cons_self)⟩
          have hhead : t.head? = some '{' := by
            rw [← joinLines_splitLines t, hs]
            cases m with
            | nil => cases hm
            | cons d m => cases ms <;> exact hm
          exact (unopened_cons.1 h).1 hc hhead
        · exact ih l (hs ▸ List.mem_cons_of_mem _ hl)
      · rename_i hs
        exact absurd hs (splitLines_ne_nil t)

/-- **Where the text is put in no placeholder comes about**: it has no two opening braces side by side and,
    white space aside, none at its end. -/
structure Harmless (v : Text) : Prop where
  unopened : RecordExport.unopened v = true
  last : (ink v).getLast? ≠ some '{'

theorem Harmless.of_not_mem {v : Text} (h : '{' ∉ v) : Harmless v :=
  ⟨unopened_of_not_mem h, fun hl => h (List.mem_filter.1 (List.mem_of_getLast? hl)).1⟩

theorem Harmless.getLast? {v : Text} (h : Harmless v) : v.getLast? ≠ some '{' :=
  fun hl => h.last (getLast?_ink hl rfl)

/-- Trimming and indenting do no harm. -/
theorem Harmless.fitted {v : Text} (h : Harmless v) (left : Text) :
    Harmless (applyIndent (leadingIndent left) (trimBlankLines v)) := by
  have hblank := allBlank_leadingIndent left
  have hindent : '{' ∉ leadingIndent left := fun hm => by
    have hbrace := List.all_eq_true.1 hblank _ hm
    cases hbrace
  obtain ⟨ls, hls, hunopened⟩ := trimBlankLines_lines (unopened_of_mem_splitLines h.unopened)
  obtain ⟨ms, hms, hunopened⟩ := applyIndent_lines (leadingIndent left)
    (unopened_of_mem_splitLines (hls ▸ unopened_joinLines hunopened)) fun l hl =>
      unopened_append.2 ⟨unopened_of_not_mem hindent, apart_of_not_mem_left hindent, hl⟩
  refine ⟨hms ▸ unopened_joinLines hunopened, ?_⟩
  rw [ink_applyIndent hblank, ink_trimBlankLines]
  exact h.last

/-! ## 6. Values in their places -/

/-- The placeholders that are no matching scalars. -/
def unmatched (p : Pattern) (bs : List Text) : List Text :=
  bs.filter fun b => (scalarCaptures p (.placeholder b)).isNone

theorem unmatched_of_none {p : Pattern} (h : ∀ b ∈ bs, scalarCaptures p (.placeholder b) = none) :
    unmatched p bs = bs := List.filter_eq_self.2 fun b hb => by rw [h b hb]; rfl

/-- What is read off the placeholders of a sealed text is read off their bodies. -/
theorem Sealed.filterMap {β : Type} (h : Sealed bs t) {g : Token → Option β} (hg : ∀ l, g (.literal l) = none) :
    (tokenize t).filterMap g = bs.filterMap fun b => g (.placeholder b) := by
  have hbody : ∀ k : Token, k.body?.bind (fun b => g (.placeholder b)) = g k := by
    intro k
    cases k with
    | literal l => exact (hg l).symm
    | placeholder b => rfl
  rw [← h.bodies, List.filterMap_filterMap]
  simp only [hbody]

theorem scalarsIn_sealed (p : Pattern) (h : Sealed bs t) :
    scalarsIn p t = bs.filterMap fun b => scalarCaptures p (.placeholder b) := h.filterMap fun _ => rfl

/-- What a walk has passed: it does not end in an opening brace. -/
structure SealedBefore (bs : List Text) (s : Text) : Prop where
  isSealed : Sealed bs s
  last : s.getLast? ≠ some '{'

theorem SealedBefore.apart (h : SealedBefore bs s) (t : Text) : Apart s t := fun hl => absurd hl h.last

theorem sealedBefore_nil : SealedBefore [] [] := ⟨.plain rfl, by decide⟩

theorem SealedBefore.append (hs : SealedBefore bs s) (ht : SealedBefore bs' t) :
    SealedBefore (bs ++ bs') (s ++ t) := by
  refine ⟨hs.isSealed.append ht.isSealed (hs.apart t), fun hl => ?_⟩
  rw [List.getLast?_append] at hl
  cases ht' : t.getLast? with
  | none =>
    rw [ht'] at hl
    exact hs.last hl
  | some c =>
    rw [ht'] at hl
    exact ht.last (ht'.trans hl)

/-- What was passed, with a text behind it that may be put in. -/
theorem SealedBefore.insert (h : SealedBefore bs s) {v : Text} (hv : Harmless v) :
    SealedBefore bs (s ++ v) := by
  have hplain : SealedBefore [] v := ⟨.plain hv.unopened, hv.getLast?⟩
  have happend := h.append hplain
  rwa [List.append_nil] at happend

theorem SealedBefore.aheadOfLine (h : SealedBefore bs s)
    (hp : (Text.lastLine s).all isPadding = true) : SealedBefore bs s.aheadOfLine :=
  ⟨(h.isSealed.aheadOfLine hp).1, (h.isSealed.aheadOfLine hp).2⟩

theorem SealedBefore.behindLine (h : SealedBefore bs s)
    (hp : (Text.firstLine s).all isPadding = true) : SealedBefore bs s.behindLine := by
  refine ⟨h.isSealed.behindLine hp, fun hl => h.last ?_⟩
  rw [← List.take_append_drop ((Text.firstLine s).length + 1) s, List.getLast?_append]
  rw [Text.behindLine] at hl
  rw [hl]
  rfl

/-- **A step of a walk over scalars**: one placeholder is taken away. -/
theorem Sealed.replace {w : ScalarWalk} {m : ScalarMatch} {v : Text} (hm : w.next.current = some m)
    (hv : Harmless v) (hbefore : SealedBefore bs w.before) (hrest : Sealed bs' w.rest) :
    ∃ pre b post, bs' = pre ++ b :: post ∧ scalarCaptures w.pattern (.placeholder b) = some m.captures ∧
      unmatched w.pattern pre = pre ∧ SealedBefore (bs ++ pre) (w.next.replace v).before ∧
      Sealed post (w.next.replace v).rest := by
  obtain ⟨pre, b, post, hts, -, hleft, hright, hcaptures, hnone⟩ := findScalar_split hm
  obtain ⟨hpre, hopen, hpost⟩ := hrest.split hts
  have hbodies : pre.filterMap Token.body? ++ b :: post.filterMap Token.body? = bs' := by
    rw [← hrest.bodies, hts, List.filterMap_append]
    rfl
  have hunmatched : ∀ b ∈ pre.filterMap Token.body?, scalarCaptures w.pattern (.placeholder b) = none := by
    intro b hb
    obtain ⟨k, hk, hkb⟩ := List.mem_filterMap.1 hb
    cases k with
    | literal => cases hkb
    | placeholder b' =>
      cases hkb
      exact hnone _ hk
  have hfront : SealedBefore (bs ++ pre.filterMap Token.body?) (w.before ++ m.left) := by
    rw [hleft]
    exact hbefore.append ⟨hpre, hopen⟩
  rw [← hright] at hpost
  refine ⟨_, b, _, hbodies.symm, hcaptures, unmatched_of_none hunmatched, ?_⟩
  unfold ScalarWalk.replace
  rw [hm]
  dsimp only
  split
  · exact ⟨hfront.insert hv, hpost⟩
  · split
    · -- nothing is left of the value, which takes its line away
      dsimp only
      rw [dropLast_lineExtent, drop_lineExtent]
      split
      · rename_i halone
        obtain ⟨hl, hr⟩ := Bool.and_eq_true_iff.1 halone
        exact ⟨hfront.aheadOfLine hl, hpost.behindLine hr⟩
      · exact ⟨hfront, hpost⟩
    · exact ⟨hfront.insert (hv.fitted _), hpost⟩

theorem Sealed.placeValues_walk {w : ScalarWalk} {vs : List Text} (hvs : ∀ v ∈ vs, Harmless v)
    (hlength : vs.length = (scalarsIn w.pattern w.rest).length) (hbefore : SealedBefore bs w.before)
    (hrest : Sealed bs' w.rest) : Sealed (bs ++ unmatched w.pattern bs') (w.placeValues vs) := by
  induction vs generalizing w bs bs' with
  | nil =>
    have hscalars := List.length_eq_zero_iff.1 hlength.symm
    rw [scalarsIn_sealed _ hrest] at hscalars
    rw [unmatched_of_none (List.filterMap_eq_nil_iff.1 hscalars)]
    exact hbefore.isSealed.append hrest (hbefore.apart _)
  | cons v vs ih =>
    cases hcurrent : w.next.current with
    | none =>
      rw [ScalarWalk.scalarsIn_of_none hcurrent] at hlength
      cases hlength
    | some m =>
      obtain ⟨pre, b, post, rfl, hb, hpre, hbefore', hrest'⟩ :=
        Sealed.replace hcurrent (hvs v List.mem_cons_self) hbefore hrest
      have hunmatched : unmatched w.pattern (pre ++ b :: post) = pre ++ unmatched w.pattern post := by
        conv => rhs; rw [← hpre]
        unfold unmatched
        rw [List.filter_append, List.filter_cons_of_neg]
        rw [hb]
        exact Bool.false_ne_true
      rw [ScalarWalk.scalarsIn_of_some hcurrent v, List.length_cons, List.length_cons] at hlength
      have hgo := ih (w := w.next.replace v) (fun v hv => hvs v (List.mem_cons_of_mem _ hv))
        (by rw [ScalarWalk.pattern_replace]; exact Nat.succ.inj hlength) hbefore' hrest'
      rw [ScalarWalk.pattern_replace, List.append_assoc] at hgo
      rw [hunmatched]
      exact hgo

/-- **Values in the places of scalars leave the other placeholders.** -/
theorem Sealed.placeValues (h : Sealed bs t) {p : Pattern} (placement : Placement) {vs : List Text}
    (hvs : ∀ v ∈ vs, Harmless v) (hlength : vs.length = (scalarsIn p t).length) :
    Sealed (unmatched p bs) (RecordExport.placeValues p placement vs t) :=
  Sealed.placeValues_walk (w := .start p placement t) hvs hlength sealedBefore_nil h

end RecordExport

import RecordExport.Proofs.Template.MarkerLines
import RecordExport.Proofs.Template.Tokens
import RecordExport.Template.Scalar
/-!
# What a walk over scalars asks for

A walk never looks at what it put in, so the placeholders it stops at are those that stood in the text at
first. Replacing the scalars of a pattern is therefore two things one after the other: asking for the
value of each, in the order they stand in, and putting the values in their places.

* `scalarsIn`: what the names of a text's matching scalars capture;
* `placeValues`: a text with given values in the places of its matching scalars;
* `replaceScalarsM_eq`: replacing is asking and then placing.
-/

namespace RecordExport

universe v

/-! ## 1. The scalars of a text -/

/-- What the names of a text's matching scalars capture, in the order they stand in. -/
def scalarsIn (p : Pattern) (t : Text) : List (List Text) := (tokenize t).filterMap (scalarCaptures p)

theorem mem_scalarsIn {p : Pattern} {t : Text} {cs : List Text} (h : cs ∈ scalarsIn p t) :
    ∃ k ∈ tokenize t, k.shape = .scalar ∧ p.captures k.name = some cs := by
  obtain ⟨k, hk, hcs⟩ := List.mem_filterMap.1 h
  unfold scalarCaptures at hcs
  split at hcs
  · exact ⟨k, hk, by assumption, hcs⟩
  · cases hcs

theorem filterMap_joinLiteral (p : Pattern) (c : Char) (ts : List Token) :
    (joinLiteral c ts).filterMap (scalarCaptures p) = ts.filterMap (scalarCaptures p) := by
  unfold joinLiteral
  split <;> rfl

/-- Characters that open nothing have no placeholders. -/
theorem scalarsIn_append_of_plain (p : Pattern) {a : Text} (ha : '{' ∉ a) (t : Text) :
    scalarsIn p (a ++ t) = scalarsIn p t := by
  induction a with
  | nil => rfl
  | cons c a ih =>
    have hc : c ≠ '{' := fun h => ha (h ▸ List.mem_cons_self)
    have hcut : cutPlaceholder? (c :: (a ++ t)) = none :=
      cutPlaceholder?_of_ne fun z hz => hc (List.cons.inj hz).1
    unfold scalarsIn at ih ⊢
    rw [List.cons_append, tokenize_of_not_cut hcut, filterMap_joinLiteral]
    exact ih fun h => ha (List.mem_cons_of_mem _ h)

/-- What follows a placeholder has its own tokens. -/
theorem tokenize_sourceOf_of_append {t b : Text} {pre ts : List Token}
    (h : tokenize t = pre ++ .placeholder b :: ts) : tokenize (sourceOf ts) = ts := by
  have hjoin : ∀ c us pre, joinLiteral c us = pre ++ .placeholder b :: ts →
      ∃ pre', us = pre' ++ .placeholder b :: ts := by
    intro c us pre hus
    unfold joinLiteral at hus
    split at hus
    · rename_i l us
      cases pre with
      | nil => cases hus
      | cons x pre =>
        obtain ⟨-, rfl⟩ := List.cons.inj hus
        exact ⟨.literal l :: pre, rfl⟩
    · cases pre with
      | nil => cases hus
      | cons x pre =>
        obtain ⟨-, rfl⟩ := List.cons.inj hus
        exact ⟨pre, rfl⟩
  fun_induction tokenize t generalizing pre with
  | case1 => simp at h
  | case2 c t body rest hcut ih =>
    cases pre with
    | nil =>
      obtain ⟨-, rfl⟩ := List.cons.inj h
      rw [source_tokenize]
    | cons x pre =>
      obtain ⟨-, h⟩ := List.cons.inj h
      exact ih h
  | case3 c t hcut ih =>
    obtain ⟨pre', h'⟩ := hjoin c _ pre h
    exact ih h'

/-- A cut leaves what is behind it to the answer. -/
theorem cutLongest_eq {β : Type} {answer : Text → Option β} {t front : Text} {b : β}
    (h : cutLongest answer t = some (front, b)) : ∃ rest, t = front ++ rest ∧ answer rest = some b := by
  have hhere : ∀ {t front : Text} {b : β}, (answer t).map (fun b => (([] : Text), b)) = some (front, b) →
      ∃ rest, t = front ++ rest ∧ answer rest = some b := by
    intro t front b h
    obtain ⟨b', hb', heq⟩ := Option.map_eq_some_iff.1 h
    obtain ⟨rfl, rfl⟩ := Prod.mk.inj heq
    exact ⟨t, rfl, hb'⟩
  induction t generalizing front b with
  | nil => exact hhere h
  | cons c t ih =>
    unfold cutLongest at h
    dsimp only at h
    split at h
    · exact hhere h
    · split at h
      · rename_i front' b' hcut
        obtain ⟨rfl, rfl⟩ := Prod.mk.inj (Option.some.inj h)
        obtain ⟨rest, rfl, hrest⟩ := ih hcut
        exact ⟨rest, rfl, hrest⟩
      · exact hhere h

/-- What a name made of parts captures is in the name. -/
theorem mem_of_partCaptures {ps : List NamePart} {t : Text} {cs : List Text}
    (h : partCaptures ps t = some cs) {c : Text} (hc : c ∈ cs) {x : Char} (hx : x ∈ c) : x ∈ t := by
  induction ps generalizing t cs with
  | nil =>
    unfold partCaptures at h
    split at h
    · obtain rfl := Option.some.inj h
      cases hc
    · cases h
  | cons part ps ih =>
    cases part with
    | fixed lead =>
      obtain ⟨r, hr, hcs⟩ := Option.bind_eq_some_iff.1 h
      rw [Text.eq_append_of_afterLeading? hr]
      exact List.mem_append_right _ (ih hcs hc)
    | captured =>
      obtain ⟨⟨front, captures⟩, hcut, rfl⟩ := Option.map_eq_some_iff.1 h
      obtain ⟨rest, rfl, hrest⟩ := cutLongest_eq hcut
      rcases List.mem_cons.1 hc with rfl | hc
      · exact List.mem_append_left _ hx
      · exact List.mem_append_right _ (ih hrest hc)
    | filled =>
      cases t with
      | nil => cases h
      | cons d t =>
        unfold partCaptures at h
        split at h
        · cases h
        · obtain ⟨⟨front, captures⟩, hcut, rfl⟩ := Option.map_eq_some_iff.1 h
          obtain ⟨rest, rfl, hrest⟩ := cutLongest_eq hcut
          exact List.mem_cons_of_mem _ (List.mem_append_right _ (ih hrest hc))

theorem mem_of_mem_trim {c : Char} {b : Text} (h : c ∈ Text.trim b) : c ∈ b := by
  have hstart : c ∈ b.trimStart :=
    List.mem_reverse.1 ((List.dropWhile_sublist _).mem (List.mem_reverse.1 h))
  exact (List.dropWhile_sublist _).mem hstart

/-- A captured part of a placeholder's name has no braces. -/
theorem not_mem_of_mem_scalarsIn {ps : List NamePart} {t : Text} {cs : List Text}
    (h : cs ∈ scalarsIn (.parts ps) t) : ∀ c ∈ cs, '{' ∉ c := by
  intro c hc hx
  obtain ⟨k, hk, -, hcaptures⟩ := mem_scalarsIn h
  have hname : '{' ∈ k.name := mem_of_partCaptures hcaptures hc hx
  cases k with
  | literal l => cases hname
  | placeholder b =>
    have hbody := (isBody_of_mem_tokenize hk).chars _ (mem_of_mem_trim hname)
    cases hbody

/-! ## 2. The first of them -/

theorem findScalar_eq_none {p : Pattern} {ts : List Token} (h : findScalar p ts = none) :
    ts.filterMap (scalarCaptures p) = [] := by
  induction ts with
  | nil => rfl
  | cons t ts ih =>
    unfold findScalar at h
    split at h
    · cases h
    · rename_i hnone
      rw [List.filterMap_cons_none hnone]
      exact ih (Option.map_eq_none_iff.1 h)

/-- The first matching scalar, the tokens before it and those behind. -/
theorem findScalar_split {p : Pattern} {ts : List Token} {m : ScalarMatch}
    (h : findScalar p ts = some m) :
    ∃ pre b post, ts = pre ++ .placeholder b :: post ∧ m.marker = .placeholder b ∧
      m.left = sourceOf pre ∧ m.right = sourceOf post ∧
      scalarCaptures p (.placeholder b) = some m.captures ∧
      ∀ k ∈ pre, scalarCaptures p k = none := by
  induction ts generalizing m with
  | nil => cases h
  | cons t ts ih =>
    unfold findScalar at h
    split at h
    · rename_i cs hcs
      obtain rfl := Option.some.inj h
      cases t with
      | literal l => simp [scalarCaptures, Token.shape] at hcs
      | placeholder b => exact ⟨[], b, ts, rfl, rfl, rfl, rfl, hcs, fun _ hk => by cases hk⟩
    · rename_i hnone
      obtain ⟨m', hm', rfl⟩ := Option.map_eq_some_iff.1 h
      obtain ⟨pre, b, post, rfl, hmarker, hleft, hright, hcs, hpre⟩ := ih hm'
      refine ⟨t :: pre, b, post, rfl, hmarker, ?_, hright, hcs, fun k hk => ?_⟩
      · show t.source ++ m'.left = sourceOf (t :: pre)
        rw [hleft, sourceOf_cons]
      · rcases List.mem_cons.1 hk with rfl | hk
        · exact hnone
        · exact hpre k hk

/-- A line of padding has no placeholders. -/
theorem scalarsIn_behindLine (p : Pattern) {t : Text}
    (h : (Text.firstLine t).all isPadding = true) : scalarsIn p (Text.behindLine t) = scalarsIn p t := by
  by_cases hn : '\n' ∈ t
  · obtain ⟨l, r, rfl, hl⟩ := List.eq_append_cons_of_mem hn
    rw [Text.firstLine_cons hl] at h
    have hfeed : '{' ∉ l ++ ['\n'] := by simpa using not_mem_of_padding h (c := '{') rfl
    have hsplit : l ++ '\n' :: r = (l ++ ['\n']) ++ r := by simp
    rw [Text.behindLine_cons hl, hsplit, scalarsIn_append_of_plain p hfeed]
  · rw [Text.firstLine_of_not_mem hn] at h
    have hall := scalarsIn_append_of_plain p (not_mem_of_padding h rfl) []
    rw [List.append_nil] at hall
    rw [Text.behindLine_of_not_mem hn, hall]

/-- What goes with a marker has no placeholders. -/
theorem scalarsIn_drop_lineExtent (p : Pattern) (left right : Text) :
    scalarsIn p (right.drop (lineExtent left right).2) = scalarsIn p right := by
  rw [drop_lineExtent]
  split
  · rename_i halone
    exact scalarsIn_behindLine p (Bool.and_eq_true_iff.1 halone).2
  · rfl

/-! ## 3. Asking and placing -/

namespace ScalarWalk

/-- Walk on and put given values in the places of the matching placeholders. -/
def placeValues : (vs : List Text) → ScalarWalk → Text
  | [], w => w.text
  | v :: vs, w => placeValues vs (w.next.replace v)

theorem pattern_replace (w : ScalarWalk) (v : Text) : (w.next.replace v).pattern = w.pattern := by
  unfold replace
  split
  · rfl
  · split
    · rfl
    · dsimp only
      split <;> rfl

/-- A walk without a next placeholder has passed all of them. -/
theorem scalarsIn_of_none {w : ScalarWalk} (h : w.next.current = none) :
    scalarsIn w.pattern w.rest = [] := findScalar_eq_none h

/-- The next placeholder is the first that is left, and the others are left behind it. -/
theorem scalarsIn_of_some {w : ScalarWalk} {m : ScalarMatch} (h : w.next.current = some m)
    (v : Text) :
    scalarsIn w.pattern w.rest = m.captures :: scalarsIn w.pattern (w.next.replace v).rest := by
  obtain ⟨pre, b, post, hts, -, -, hright, hcs, hpre⟩ := findScalar_split h
  have hnone : pre.filterMap (scalarCaptures w.pattern) = [] :=
    List.filterMap_eq_nil_iff.2 hpre
  have hfirst : scalarsIn w.pattern w.rest = m.captures :: scalarsIn w.pattern m.right := by
    unfold scalarsIn
    rw [hts, List.filterMap_append, hnone, List.filterMap_cons_some hcs, hright,
      tokenize_sourceOf_of_append hts]
    rfl
  rw [hfirst]
  unfold replace
  rw [h]
  dsimp only
  split
  · rfl
  · split
    · rw [scalarsIn_drop_lineExtent]
    · rfl

theorem replaceAllM_of_none {m : Type → Type v} [Monad m] {value : List Text → m Text}
    {w : ScalarWalk} (h : w.next.current = none) : w.replaceAllM value = pure w.text := by
  rw [replaceAllM]
  split
  · rfl
  · rename_i found hfound
    rw [h] at hfound
    cases hfound

theorem replaceAllM_of_some {m : Type → Type v} [Monad m] {value : List Text → m Text}
    {w : ScalarWalk} {found : ScalarMatch} (h : w.next.current = some found) :
    w.replaceAllM value =
      (do let v ← value found.captures; (w.next.replace v).replaceAllM value) := by
  rw [replaceAllM]
  split
  · rename_i hnone
    rw [h] at hnone
    cases hnone
  · rename_i found' hfound
    rw [h] at hfound
    cases hfound
    rfl

/-- **A walk asks for the value of each matching placeholder in turn and places them.** -/
theorem replaceAllM_eq {m : Type → Type v} [Monad m] [LawfulMonad m] (value : List Text → m Text)
    (w : ScalarWalk) :
    w.replaceAllM value =
      (do let vs ← (scalarsIn w.pattern w.rest).mapM value; pure (w.placeValues vs)) := by
  induction w using replaceAllM.induct with
  | case1 w hw =>
    rw [replaceAllM_of_none hw, scalarsIn_of_none hw, List.mapM_nil, pure_bind]
    rfl
  | case2 w found hw ih =>
    rw [replaceAllM_of_some hw, scalarsIn_of_some hw [], List.mapM_cons]
    simp only [bind_assoc, pure_bind]
    refine bind_congr fun v => ?_
    have hrest := (scalarsIn_of_some hw []).symm.trans (scalarsIn_of_some hw v)
    rw [ih v, pattern_replace, (List.cons.inj hrest).2]
    rfl

end ScalarWalk

/-- A text with given values in the places of its matching scalars. -/
def placeValues (p : Pattern) (placement : Placement) (vs : List Text) (t : Text) : Text :=
  (ScalarWalk.start p placement t).placeValues vs

/-- **Replacing scalars is asking for their values and then placing them.** -/
theorem replaceScalarsM_eq {m : Type → Type v} [Monad m] [LawfulMonad m] (p : Pattern)
    (placement : Placement) (t : Text) (value : List Text → m Text) :
    replaceScalarsM p placement t value =
      (do let vs ← (scalarsIn p t).mapM value; pure (placeValues p placement vs t)) :=
  ScalarWalk.replaceAllM_eq value (ScalarWalk.start p placement t)

theorem replaceScalars_eq (p : Pattern) (placement : Placement) (t : Text)
    (value : List Text → Text) :
    replaceScalars p placement t value =
      placeValues p placement ((scalarsIn p t).map value) t := by
  have h := replaceScalarsM_eq (m := Id) p placement t value
  rw [show (scalarsIn p t).mapM (m := Id) value = (scalarsIn p t).map value from
    List.mapM_pure] at h
  exact h

end RecordExport

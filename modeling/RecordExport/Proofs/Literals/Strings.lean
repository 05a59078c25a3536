import RecordExport.Proofs.Literals.Escaping
import RecordExport.Proofs.Template.OnePass
import RecordExport.Proofs.Template.TrimmedLines
/-!
# The strings of a text

A program that reads an exported text finds its strings: what stands between two double quotes, a backslash taking
the next character with it. This file says what these strings are and what leaves them as they are.

* `StringState`, `stringsFrom`, `strings`: reading the strings of a text from left to right;
* `StandsFor`: what is written between quotes and the string it is read as; `standsFor_escape`, `standsFor_plain`;
* `Strung`: a text in which every string stands on one line;
* `Strung.trimBlankLines`, `Strung.applyIndent`: such a text keeps its strings when it is trimmed and indented;
* `strings_insertion`: **so does a text into which one is put**, wherever its line goes.
-/

namespace RecordExport

/-! ## 1. Reading strings -/

/-- Where a reader of strings stands. -/
inductive StringState where
  | outside
  /-- in a string of which this was read -/
  | inside (s : Text)
  /-- there, behind a backslash -/
  | escaped (s : Text)
  deriving DecidableEq, Repr

namespace StringState

/-- Read one character: where that leads to, and the string that ends with it. -/
def step : StringState → Char → StringState × Option Text
  | outside, c => (if c = '"' then inside [] else outside, none)
  | inside s, c => if c = '"' then (outside, some s) else (if c = '\\' then escaped s else inside (s ++ [c]), none)
  | escaped s, c => (inside (s ++ [if c = 'n' then '\n' else c]), none)

end StringState

/-- The strings that end in a text. There are none if the last one does not end. -/
def stringsFrom : StringState → Text → Option (List Text)
  | .outside, [] => some []
  | .inside _, [] | .escaped _, [] => none
  | q, c :: t => (stringsFrom (q.step c).1 t).map ((q.step c).2.toList ++ ·)

/-- **The double-quoted strings of a text, read.** -/
def strings (t : Text) : Option (List Text) := stringsFrom .outside t

section Reading

variable {q : StringState} {a b t v w : Text} {ss : List Text}

theorem stringsFrom_cons (q : StringState) (c : Char) (t : Text) :
    stringsFrom q (c :: t) = (stringsFrom (q.step c).1 t).map ((q.step c).2.toList ++ ·) := by
  cases q <;> rfl

/-- Reading goes on outside behind a text that ends outside. -/
theorem stringsFrom_append (h : stringsFrom q a = some ss) (b : Text) :
    stringsFrom q (a ++ b) = (strings b).map (ss ++ ·) := by
  induction a generalizing q ss with
  | nil =>
    cases q with
    | outside =>
      obtain rfl := Option.some.inj h
      simp [strings]
    | inside s => cases h
    | escaped s => cases h
  | cons c a ih =>
    rw [stringsFrom_cons, Option.map_eq_some_iff] at h
    obtain ⟨rest, hrest, rfl⟩ := h
    rw [List.cons_append, stringsFrom_cons, ih hrest, Option.map_map]
    simp [Function.comp_def]

/-- Text without quotes begins and ends no string. -/
theorem stringsFrom_plain (q : StringState) (h : '"' ∉ a) : stringsFrom q a = stringsFrom q [] := by
  induction a generalizing q with
  | nil => rfl
  | cons c a ih =>
    rw [List.mem_cons, not_or] at h
    have hc : c ≠ '"' := Ne.symm h.1
    rw [stringsFrom_cons, ih _ h.2]
    cases q with
    | outside => simp [StringState.step, hc, stringsFrom]
    | inside s =>
      simp only [StringState.step, hc, if_false]
      split <;> rfl
    | escaped s => rfl

theorem strings_plain (h : '"' ∉ a) : strings a = some [] := stringsFrom_plain .outside h

theorem strings_plain_append (h : '"' ∉ a) (b : Text) : strings (a ++ b) = strings b := by
  refine (stringsFrom_append (strings_plain h) b).trans ?_
  simp

theorem strings_append_plain (h : '"' ∉ b) (a : Text) : strings (a ++ b) = strings a := by
  have hgo : ∀ (a : Text) (q : StringState), stringsFrom q (a ++ b) = stringsFrom q a := by
    intro a
    induction a with
    | nil => exact fun q => stringsFrom_plain q h
    | cons c a ih =>
      intro q
      rw [List.cons_append, stringsFrom_cons, stringsFrom_cons, ih]
  exact hgo a .outside

/-! ## 2. Between quotes -/

/-- What is written between quotes is read as this string. -/
def StandsFor (w v : Text) : Prop :=
  ∀ s t, stringsFrom (.inside s) (w ++ t) = stringsFrom (.inside (s ++ v)) t

theorem standsFor_nil : StandsFor [] [] := fun s t => by rw [List.append_nil, List.nil_append]

theorem StandsFor.append {w' v' : Text} (h : StandsFor w v) (h' : StandsFor w' v') :
    StandsFor (w ++ w') (v ++ v') := by
  intro s t
  rw [List.append_assoc, h, h', List.append_assoc]

/-- Without quotes and backslashes every character stands for itself. -/
theorem standsFor_plain (hquote : '"' ∉ v) (hback : '\\' ∉ v) : StandsFor v v := by
  induction v with
  | nil => exact standsFor_nil
  | cons c v ih =>
    rw [List.mem_cons, not_or] at hquote hback
    have hone : StandsFor [c] [c] := by
      intro s t
      rw [List.singleton_append, stringsFrom_cons]
      simp [StringState.step, Ne.symm hquote.1, Ne.symm hback.1]
    exact hone.append (ih hquote.2 hback.2)

theorem reversible_standard : EscapeSettings.standard.Reversible '\\' 'n' :=
  ⟨by decide, by decide, by decide, by decide, by decide, by decide⟩

/-- **An escaped value stands for the value** without its carriage returns. -/
theorem standsFor_escape (v : Text) :
    StandsFor (EscapeSettings.standard.escape v) (EscapeSettings.withoutReturns v) := by
  have hpair : ∀ c, StandsFor ['\\', c] [if c = 'n' then '\n' else c] := by
    intro c s t
    rw [List.cons_append, List.singleton_append, stringsFrom_cons, stringsFrom_cons]
    simp [StringState.step]
  induction v with
  | nil => exact standsFor_nil
  | cons c v ih =>
    rw [EscapeSettings.escape_cons]
    unfold EscapeSettings.withoutReturns at ih ⊢
    rcases reversible_standard.escapeChar_cases c with
      ⟨rfl, hw⟩ | ⟨rfl, hw⟩ | ⟨hr, -, hl, hw⟩ | ⟨hr, -, hl, hw⟩
    · rw [hw, List.filter_cons_of_neg (by simp)]
      exact ih
    · rw [hw, List.filter_cons_of_pos (by simp)]
      exact (hpair 'n').append ih
    · rw [hw, List.filter_cons_of_pos (by simpa using hr)]
      have hc := hpair c
      rw [if_neg (reversible_standard.ne_of_listed hl)] at hc
      exact hc.append ih
    · rw [hw, List.filter_cons_of_pos (by simpa using hr)]
      have hplain : ∀ d ∈ EscapeSettings.standard.escapedCharacters.toList, d ∉ [c] := by
        rintro d hd hm
        rw [List.mem_singleton.1 hm] at hd
        exact hl hd
      exact (standsFor_plain (hplain '"' (by decide)) (hplain '\\' (by decide))).append ih

/-- A quoted string behind other text. -/
theorem strings_quoted (hw : StandsFor w v) (ha : '"' ∉ a) (t : Text) :
    strings (a ++ '"' :: (w ++ '"' :: t)) = (strings t).map (v :: ·) := by
  rw [strings_plain_append ha]
  unfold strings
  rw [stringsFrom_cons]
  simp only [StringState.step, if_true, Option.toList_none, List.nil_append]
  rw [hw, stringsFrom_cons]
  simp [StringState.step, Option.map_map, Function.comp_def]

end Reading

/-! ## 3. Strings on one line -/

/-- **A text each of whose strings stands on one line**, and these strings. -/
inductive Strung : Text → List Text → Prop where
  | nil : Strung [] []
  | char {c : Char} {t : Text} {ss : List Text} (hc : c ≠ '"') (rest : Strung t ss) : Strung (c :: t) ss
  | string {w v t : Text} {ss : List Text} (hw : StandsFor w v) (hfeed : '\n' ∉ w) (rest : Strung t ss) :
      Strung ('"' :: (w ++ '"' :: t)) (v :: ss)

namespace Strung

variable {a b t : Text} {ss ss' : List Text}

theorem append (ha : Strung a ss) (hb : Strung b ss') : Strung (a ++ b) (ss ++ ss') := by
  induction ha with
  | nil => exact hb
  | char hc _ ih => exact .char hc ih
  | string hw hfeed _ ih =>
    rw [List.cons_append, List.append_assoc, List.cons_append]
    exact .string hw hfeed ih

theorem plain (h : '"' ∉ a) : Strung a [] := by
  induction a with
  | nil => exact .nil
  | cons c a ih =>
    rw [List.mem_cons, not_or] at h
    exact .char (Ne.symm h.1) (ih h.2)

theorem strings_eq (h : Strung t ss) : strings t = some ss := by
  induction h with
  | nil => rfl
  | @char c t ss hc _ ih =>
    have hplain : '"' ∉ [c] := by simpa using Ne.symm hc
    exact (strings_plain_append hplain t).trans ih
  | string hw _ _ ih =>
    refine (strings_quoted hw List.not_mem_nil _).trans ?_
    rw [ih, Option.map_some]

theorem eq_nil (h : Strung t ss) (ht : '"' ∉ t) : ss = [] :=
  Option.some.inj (h.strings_eq.symm.trans (strings_plain ht))

/-- What stands behind text without quotes has all the strings. -/
theorem of_append_left (h : Strung (a ++ b) ss) (ha : '"' ∉ a) : Strung b ss := by
  induction a with
  | nil => exact h
  | cons c a ih =>
    rw [List.mem_cons, not_or] at ha
    generalize ht : c :: a ++ b = t at h
    cases h with
    | nil => cases ht
    | char _ rest =>
      obtain ⟨rfl, rfl⟩ := List.cons.inj ht
      exact ih rest ha.2
    | string => exact absurd (List.cons.inj ht).1.symm ha.1

/-- So has what stands in front of it. -/
theorem of_append_right (h : Strung (a ++ b) ss) (hb : '"' ∉ b) : Strung a ss := by
  generalize ht : a ++ b = t at h
  induction h generalizing a with
  | nil =>
    obtain ⟨rfl, -⟩ := List.append_eq_nil_iff.1 ht
    exact .nil
  | @char c t ss hc rest ih =>
    cases a with
    | nil =>
      obtain rfl : b = c :: t := ht
      rw [(Strung.char hc rest).eq_nil hb]
      exact .nil
    | cons d a =>
      obtain ⟨rfl, hrest⟩ := List.cons.inj ht
      exact .char hc (ih hrest)
  | string hw hfeed rest ih =>
    cases a with
    | nil =>
      rw [show b = _ from ht] at hb
      exact absurd List.mem_cons_self hb
    | cons d a =>
      obtain ⟨rfl, hrest⟩ := List.cons.inj ht
      rcases List.append_eq_append_iff.1 hrest with ⟨w', rfl, rfl⟩ | ⟨a', rfl, ha'⟩
      · exact absurd (List.mem_append_right _ List.mem_cons_self) hb
      · cases a' with
        | nil =>
          rw [show b = _ from ha'.symm] at hb
          exact absurd List.mem_cons_self hb
        | cons d a' =>
          obtain ⟨rfl, hbehind⟩ := List.cons.inj ha'
          exact .string hw hfeed (ih hbehind.symm)

/-! ## 4. Trimming and indenting -/

/-- Trimming only takes blanks away. -/
theorem exists_trimBlankLines (t : Text) : ∃ a b, t = a ++ (RecordExport.trimBlankLines t ++ b) ∧
    Text.allBlank a = true ∧ Text.allBlank b = true := by
  obtain ⟨a, b, hab⟩ := infix_trimBlankLines t
  have hink := congrArg ink hab
  rw [ink_append, ink_append, ink_trimBlankLines] at hink
  have hlength := congrArg List.length hink
  simp only [List.length_append] at hlength
  refine ⟨a, b, ?_, allBlank_iff_ink.2 (List.length_eq_zero_iff.1 (by omega)),
    allBlank_iff_ink.2 (List.length_eq_zero_iff.1 (by omega))⟩
  rw [← List.append_assoc]
  exact hab.symm

theorem quote_not_mem_of_allBlank (h : Text.allBlank a = true) : '"' ∉ a := fun hm =>
  Bool.false_ne_true (List.all_eq_true.1 h _ hm)

theorem trimBlankLines (h : Strung t ss) : Strung (RecordExport.trimBlankLines t) ss := by
  obtain ⟨a, b, hab, ha, hb⟩ := exists_trimBlankLines t
  rw [hab] at h
  exact (h.of_append_left (quote_not_mem_of_allBlank ha)).of_append_right (quote_not_mem_of_allBlank hb)

/-- The strings of a text are those of its lines. -/
theorem splitLines (h : Strung t ss) :
    ∃ sss, List.Forall₂ Strung (RecordExport.splitLines t) sss ∧ sss.flatten = ss := by
  induction h with
  | nil => exact ⟨[[]], .cons .nil .nil, rfl⟩
  | @char c t ss hc _ ih =>
    obtain ⟨sss, hlines, rfl⟩ := ih
    obtain ⟨l, ls, ht⟩ := List.exists_cons_of_ne_nil (splitLines_ne_nil t)
    by_cases hfeed : c = '\n'
    · refine ⟨[] :: sss, ?_, rfl⟩
      rw [RecordExport.splitLines, if_pos hfeed]
      exact .cons .nil hlines
    · rw [ht] at hlines
      cases hlines with
      | cons hl hls =>
        rw [splitLines_cons hfeed ht]
        exact ⟨_, .cons (.char hc hl) hls, rfl⟩
  | @string w v t ss hw hfeed _ ih =>
    obtain ⟨sss, hlines, rfl⟩ := ih
    obtain ⟨l, ls, ht⟩ := List.exists_cons_of_ne_nil (splitLines_ne_nil t)
    have hfront : RecordExport.splitLines ('"' :: (w ++ ['"'])) = [] ++ ['"' :: (w ++ ['"'])] :=
      splitLines_of_not_mem (by simp [hfeed])
    have hlast := splitLines_append [] hfront ht
    rw [ht] at hlines
    cases hlines with
    | cons hl hls =>
      simp only [List.cons_append, List.append_assoc, List.nil_append] at hlast
      rw [hlast]
      exact ⟨_, .cons (.string hw hfeed hl) hls, rfl⟩

theorem joinLines {ls : List Text} {sss : List (List Text)} (h : List.Forall₂ Strung ls sss) :
    Strung (RecordExport.joinLines ls) sss.flatten := by
  induction h with
  | nil => exact .nil
  | @cons l ss ls sss hl hls ih =>
    cases hls with
    | nil => simpa [RecordExport.joinLines] using hl
    | cons hm hms => exact hl.append (.char (by decide) ih)

theorem applyIndent (h : Strung t ss) {indent : Text} (hblank : Text.allBlank indent = true) :
    Strung (RecordExport.applyIndent indent t) ss := by
  obtain ⟨sss, hlines, rfl⟩ := h.splitLines
  have hindent : ∀ {l : Text} {ss : List Text}, Strung l ss →
      Strung (if Text.allBlank l then l else indent ++ l) ss := by
    intro l ss hl
    split
    · exact hl
    · exact (Strung.plain (quote_not_mem_of_allBlank hblank)).append hl
  unfold RecordExport.applyIndent
  generalize RecordExport.splitLines t = ls at hlines ⊢
  cases hlines with
  | nil => exact .nil
  | cons hl hls =>
    refine joinLines (.cons hl ?_)
    rw [List.forall₂_map_left_iff]
    exact hls.imp fun _ _ => hindent

/-- Items have their strings, one after the other, and so has what they are joined to. -/
theorem joinItems {ts : List Text} {sss : List (List Text)} (h : List.Forall₂ Strung ts sss) :
    Strung (RecordExport.joinItems ts) sss.flatten := by
  have hflat : Strung ts.flatten sss.flatten := by
    induction h with
    | nil => exact .nil
    | cons ht _ ih => exact ht.append ih
  unfold RecordExport.joinItems
  dsimp only
  split
  · have hfeed := hflat.trimBlankLines.append (plain (a := ['\n']) (by decide))
    rwa [List.append_nil] at hfeed
  · exact hflat.trimBlankLines

end Strung

/-! ## 5. Putting a text in -/

/-- A last line of padding has no strings. -/
theorem strings_aheadOfLine {t : Text} (h : (Text.lastLine t).all isPadding = true) :
    strings t.aheadOfLine = strings t := by
  by_cases hfeed : '\n' ∈ t
  · obtain ⟨l, r, rfl, hr⟩ := Text.eq_append_lastLine_of_mem hfeed
    rw [Text.lastLine_cons hr] at h
    have hsplit : l ++ '\n' :: r = (l ++ ['\n']) ++ r := by simp
    rw [Text.aheadOfLine_cons hr, hsplit, strings_append_plain (not_mem_of_padding h rfl)]
  · rw [Text.lastLine_of_not_mem hfeed] at h
    rw [Text.aheadOfLine_of_not_mem hfeed]
    exact (strings_plain (not_mem_of_padding h rfl)).symm

/-- Nor has a first one. -/
theorem strings_behindLine {t : Text} (h : (Text.firstLine t).all isPadding = true) :
    strings t.behindLine = strings t := by
  by_cases hfeed : '\n' ∈ t
  · obtain ⟨l, r, rfl, hl⟩ := List.eq_append_cons_of_mem hfeed
    rw [Text.firstLine_cons hl] at h
    have hsplit : l ++ '\n' :: r = (l ++ ['\n']) ++ r := by simp
    have hplain : '"' ∉ l ++ ['\n'] := by simpa using not_mem_of_padding h (c := '"') rfl
    rw [Text.behindLine_cons hl, hsplit, strings_plain_append hplain]
  · rw [Text.firstLine_of_not_mem hfeed] at h
    rw [Text.behindLine_of_not_mem hfeed]
    exact (strings_plain (not_mem_of_padding h rfl)).symm

/-- **A text put into another adds its strings**, whether its lines are indented or nothing is left of it and it takes
    its line away. -/
theorem strings_insertion {written rest v : Text} {ss ss' : List Text} (hwritten : strings written = some ss)
    (hv : Strung v ss') :
    strings ((insertion .fitted written rest v).written ++
        if (insertion .fitted written rest v).dropsLine then rest.behindLine else rest) =
      (strings rest).map (ss ++ ss' ++ ·) := by
  have hadded : ∀ {u : Text} {ss : List Text}, strings u = some ss →
      strings (u ++ rest) = (strings rest).map (ss ++ ·) :=
    fun hu => stringsFrom_append hu rest
  unfold insertion
  dsimp only
  split
  · rename_i hempty
    have htrim := hv.trimBlankLines
    rw [hempty] at htrim
    rw [htrim.eq_nil List.not_mem_nil, List.append_nil]
    split
    · -- the line the text was to stand on goes, and there is only padding on it
      rename_i halone
      obtain ⟨hlast, hfirst⟩ := Bool.and_eq_true_iff.1 halone
      have hahead : strings written.aheadOfLine = some ss := (strings_aheadOfLine hlast).trans hwritten
      rw [if_pos rfl, ← strings_behindLine hfirst]
      exact stringsFrom_append hahead _
    · exact hadded hwritten
  · have hplaced := (hv.trimBlankLines.applyIndent (allBlank_leadingIndent written)).strings_eq
    have hboth : strings (written ++ applyIndent (leadingIndent written) (trimBlankLines v)) = some (ss ++ ss') := by
      refine (stringsFrom_append hwritten _).trans ?_
      rw [hplaced, Option.map_some]
    exact hadded hboth

end RecordExport

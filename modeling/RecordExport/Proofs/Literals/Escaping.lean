import Mathlib.Data.List.Basic
import RecordExport.Settings
/-!
# Reading a literal back

`EscapeSettings.escape` writes a value so that it can stand in a string literal. This file says what
reading such a literal means and that it gives the value back:

* `readLiteral` reads from left to right. The escape character takes the next character with it,
  and the two stand for a line feed or for that next character; everything else stands for itself.
* `standsEscaped` tells of a place, by what stands before it, whether an escape character is waiting
  for the character there;
* `Reversible` is what the settings must be like, and `WritesLiteral` what is written then
  (`writesLiteral_escape`): the literal reads back, it has no line ends of its own, and no listed
  character in it goes unescaped. So values share a literal just if they differ in carriage returns
  only.
-/

namespace RecordExport

/-! ## 1. Reading -/

/-- What a literal stands for: the escape character `e` and `x` for a line feed, `e` and any other
    character for that character. A literal that ends in an open escape stands for nothing. -/
def readLiteral (e x : Char) : Text → Option Text
  | [] => some []
  | [c] => if c = e then none else some [c]
  | c :: d :: t =>
    if c = e then (readLiteral e x t).map ((if d = x then '\n' else d) :: ·)
    else (readLiteral e x (d :: t)).map (c :: ·)

@[simp] theorem readLiteral_escape (e x d : Char) (t : Text) :
    readLiteral e x (e :: d :: t) =
      (readLiteral e x t).map ((if d = x then '\n' else d) :: ·) := by
  simp [readLiteral]

theorem readLiteral_cons {e c : Char} (x : Char) (hc : c ≠ e) (t : Text) :
    readLiteral e x (c :: t) = (readLiteral e x t).map (c :: ·) := by
  cases t with
  | nil => simp [readLiteral, hc]
  | cons d t => simp [readLiteral, hc]

/-- An escape character that is not escaped itself stands at the end of a text read so far, waiting
    for the character it takes with it. -/
def standsEscaped (e : Char) (before : Text) : Bool :=
  before.foldl (fun waiting c => !waiting && c = e) false

/-- Every character of a list stands escaped, or is an escape character that escapes. -/
def Guards (e : Char) (listed t : Text) : Prop :=
  ∀ before c behind, t = before ++ c :: behind → c ∈ listed →
    standsEscaped e before ∨ c = e ∧ standsEscaped e before = false

/-- Behind a text that leaves no escape open, reading begins anew. -/
theorem standsEscaped_append {e : Char} {s : Text} (hs : standsEscaped e s = false) (t : Text) :
    standsEscaped e (s ++ t) = standsEscaped e t := by
  unfold standsEscaped at hs ⊢
  rw [List.foldl_append, hs]

theorem Guards.append {e : Char} {listed s t : Text} (hs : Guards e listed s)
    (ho : standsEscaped e s = false) (ht : Guards e listed t) : Guards e listed (s ++ t) := by
  intro before c behind he hc
  rcases List.append_eq_append_iff.1 he with ⟨inner, rfl, hi⟩ | ⟨inner, rfl, hi⟩
  · rw [standsEscaped_append ho]
    exact ht inner c behind hi hc
  · -- the character is the last part's first one, or it is in the first part
    cases inner with
    | nil =>
      rw [List.append_nil] at ho
      have h := ht [] c behind (by simpa using hi.symm) hc
      rw [ho]
      exact h
    | cons d inner =>
      obtain ⟨rfl, -⟩ := List.cons_eq_cons.1 hi
      exact hs before c inner rfl hc

/-! ## 2. Settings that can be undone -/

namespace EscapeSettings

/-- Escaping can be undone: one escape character `e`, which is escaped itself, and a line feed
    written as `e` and a character `x` that is never escaped. -/
structure Reversible (s : EscapeSettings) (e x : Char) : Prop where
  escapeCharacter : s.escapeCharacter.toList = [e]
  ne_return : e ≠ '\r'
  ne_feed : e ≠ '\n'
  listed : e ∈ s.escapedCharacters.toList
  lineFeed : s.lineFeed.toList = [e, x]
  unlisted : x ∉ s.escapedCharacters.toList

/-- A value without its carriage returns. -/
def withoutReturns (v : Text) : Text := v.filter (· ≠ '\r')

/-- **A text is a literal of a value**: it reads as the value without its carriage returns, it has
    no line end but for what `x` itself is, and every listed character in it is guarded. -/
structure WritesLiteral (s : EscapeSettings) (e x : Char) (v t : Text) : Prop where
  reads : readLiteral e x t = some (withoutReturns v)
  returns : '\r' ∈ t → x = '\r'
  feeds : '\n' ∈ t → x = '\n'
  guards : Guards e s.escapedCharacters.toList t

theorem escape_cons (s : EscapeSettings) (c : Char) (v : Text) :
    s.escape (c :: v) = s.escapeChar c ++ s.escape v := List.flatMap_cons

/-- Carriage returns leave no trace in a literal. -/
theorem escape_withoutReturns (s : EscapeSettings) (v : Text) :
    s.escape (withoutReturns v) = s.escape v := by
  induction v with
  | nil => rfl
  | cons c v ih =>
    unfold withoutReturns at ih ⊢
    by_cases hc : c = '\r'
    · have hnone : s.escapeChar c = [] := by rw [escapeChar, if_pos hc]
      rw [List.filter_cons_of_neg (by simp [hc]), ih, escape_cons, hnone, List.nil_append]
    · rw [List.filter_cons_of_pos (by simp [hc]), escape_cons, escape_cons, ih]

namespace Reversible

variable {s : EscapeSettings} {e x : Char}

/-- How a character is written: not at all, escaped, or as it is. -/
theorem escapeChar_cases (h : s.Reversible e x) (c : Char) :
    (c = '\r' ∧ s.escapeChar c = []) ∨
    (c = '\n' ∧ s.escapeChar c = [e, x]) ∨
    (c ≠ '\r' ∧ c ≠ '\n' ∧ c ∈ s.escapedCharacters.toList ∧ s.escapeChar c = [e, c]) ∨
    (c ≠ '\r' ∧ c ≠ '\n' ∧ c ∉ s.escapedCharacters.toList ∧ s.escapeChar c = [c]) := by
  unfold escapeChar
  by_cases hr : c = '\r'
  · exact .inl ⟨hr, if_pos hr⟩
  · by_cases hf : c = '\n'
    · exact .inr (.inl ⟨hf, by rw [if_neg hr, if_pos hf, h.lineFeed]⟩)
    · by_cases hl : c ∈ s.escapedCharacters.toList
      · refine .inr (.inr (.inl ⟨hr, hf, hl, ?_⟩))
        rw [if_neg hr, if_neg hf, if_pos (by simpa using hl), h.escapeCharacter]
        rfl
      · refine .inr (.inr (.inr ⟨hr, hf, hl, ?_⟩))
        rw [if_neg hr, if_neg hf, if_neg (by simpa using hl)]

/-- A listed character is never `x`, so it is not taken for a line feed. -/
theorem ne_of_listed (h : s.Reversible e x) {c : Char} (hc : c ∈ s.escapedCharacters.toList) :
    c ≠ x := fun hx => h.unlisted (hx ▸ hc)

theorem ne_of_unlisted (h : s.Reversible e x) {c : Char} (hc : c ∉ s.escapedCharacters.toList) :
    c ≠ e := fun he => hc (he ▸ h.listed)

/-- **Reading undoes escaping** up to carriage returns. -/
theorem readLiteral_escape (h : s.Reversible e x) (v : Text) :
    readLiteral e x (s.escape v) = some (withoutReturns v) := by
  induction v with
  | nil => rfl
  | cons c v ih =>
    rw [escape_cons]
    unfold withoutReturns at ih ⊢
    rcases h.escapeChar_cases c with ⟨rfl, hw⟩ | ⟨rfl, hw⟩ | ⟨hr, -, hl, hw⟩ | ⟨hr, -, hl, hw⟩
    · rw [hw, List.filter_cons_of_neg (by simp)]
      exact ih
    · rw [hw, List.filter_cons_of_pos (by simp)]
      show readLiteral e x (e :: x :: s.escape v) = _
      rw [RecordExport.readLiteral_escape, ih, if_pos rfl, Option.map_some]
    · rw [hw, List.filter_cons_of_pos (by simpa using hr)]
      show readLiteral e x (e :: c :: s.escape v) = _
      rw [RecordExport.readLiteral_escape, ih, if_neg (h.ne_of_listed hl), Option.map_some]
    · rw [hw, List.filter_cons_of_pos (by simpa using hr)]
      show readLiteral e x (c :: s.escape v) = _
      rw [readLiteral_cons x (h.ne_of_unlisted hl), ih, Option.map_some]

/-- What one character is written as leaves no escape open and guards what is listed. -/
theorem guards_escapeChar (h : s.Reversible e x) (c : Char) :
    standsEscaped e (s.escapeChar c) = false ∧
      Guards e s.escapedCharacters.toList (s.escapeChar c) := by
  have hpair : ∀ d, standsEscaped e [e, d] = false ∧
      Guards e s.escapedCharacters.toList [e, d] := by
    intro d
    refine ⟨by simp [standsEscaped], fun before a behind he _ => ?_⟩
    match before, he with
    | [], he =>
      obtain ⟨rfl, -⟩ := List.cons_eq_cons.1 he
      exact .inr ⟨rfl, rfl⟩
    | [b], he =>
      obtain ⟨rfl, -⟩ := List.cons_eq_cons.1 he
      exact .inl (by simp [standsEscaped])
    | _ :: _ :: _, he => simp at he
  rcases h.escapeChar_cases c with ⟨-, hw⟩ | ⟨-, hw⟩ | ⟨-, -, -, hw⟩ | ⟨-, -, hl, hw⟩ <;> rw [hw]
  · exact ⟨rfl, fun before a behind he _ => by simp at he⟩
  · exact hpair x
  · exact hpair c
  · refine ⟨by simp [standsEscaped, h.ne_of_unlisted hl], fun before a behind he ha => ?_⟩
    have hmem : a ∈ [c] := he ▸ List.mem_append_right before List.mem_cons_self
    exact absurd (List.mem_singleton.1 hmem ▸ ha) hl

theorem guards_escape (h : s.Reversible e x) (v : Text) :
    Guards e s.escapedCharacters.toList (s.escape v) := by
  induction v with
  | nil => exact fun before a behind he _ => by simp [escape] at he
  | cons c v ih =>
    rw [escape_cons]
    obtain ⟨hopen, hguards⟩ := h.guards_escapeChar c
    exact hguards.append hopen ih

/-- A line end in a literal is the `x` of a line feed. -/
theorem eq_of_lineEnd_mem (h : s.Reversible e x) {v : Text} {c : Char} (hc : c ∈ s.escape v)
    (hend : c = '\r' ∨ c = '\n') : x = c := by
  obtain ⟨a, -, ha⟩ := List.mem_flatMap.1 hc
  have hce : c ≠ e := by
    rintro rfl
    exact hend.elim h.ne_return h.ne_feed
  rcases h.escapeChar_cases a with ⟨-, hw⟩ | ⟨-, hw⟩ | ⟨hr, hf, -, hw⟩ | ⟨hr, hf, -, hw⟩
  · simp [hw] at ha
  · have : c = x := by simpa [hw, hce] using ha
    exact this.symm
  · have : c = a := by simpa [hw, hce] using ha
    exact absurd hend (by simp [this, hr, hf])
  · have : c = a := by simpa [hw] using ha
    exact absurd hend (by simp [this, hr, hf])

end Reversible

/-! ## 3. Literals of values -/

/-- **Escaping writes literals.** What is written for a value is a literal of it, and two values are
    written alike just if they differ in carriage returns only. -/
theorem writesLiteral_escape {s : EscapeSettings} {e x : Char} (h : s.Reversible e x)
    (v w : Text) :
    s.WritesLiteral e x v (s.escape v) ∧
      (s.escape v = s.escape w ↔ withoutReturns v = withoutReturns w) := by
  refine ⟨?_, ?_, ?_⟩
  · exact {
      reads := h.readLiteral_escape v
      returns := fun hr => h.eq_of_lineEnd_mem hr (.inl rfl)
      feeds := fun hf => h.eq_of_lineEnd_mem hf (.inr rfl)
      guards := h.guards_escape v }
  · intro he
    have hread := h.readLiteral_escape v
    rw [he, h.readLiteral_escape w] at hread
    exact (Option.some.inj hread).symm
  · intro he
    rw [← s.escape_withoutReturns v, he, s.escape_withoutReturns w]

/-- The settings by default can be undone: a greeting with quotes, a backslash before an n, and a
    line end of either form. -/
theorem writesLiteral_greeting :
    standard.Reversible '\\' 'n' ∧
      standard.escape "say \"hi\" \\n\r\nnow".toList = "say \\\"hi\\\" \\\\n\\nnow".toList ∧
      standard.WritesLiteral '\\' 'n' "say \"hi\" \\n\r\nnow".toList
        (standard.escape "say \"hi\" \\n\r\nnow".toList) ∧
      (standard.escape "say \"hi\" \\n\r\nnow".toList = standard.escape "say \"hi\" \\n\nnow".toList
        ↔ withoutReturns "say \"hi\" \\n\r\nnow".toList
          = withoutReturns "say \"hi\" \\n\nnow".toList) := by
  have h : standard.Reversible '\\' 'n' :=
    ⟨by decide, by decide, by decide, by decide, by decide, by decide⟩
  exact ⟨h, by decide, writesLiteral_escape h _ _⟩

end EscapeSettings
end RecordExport

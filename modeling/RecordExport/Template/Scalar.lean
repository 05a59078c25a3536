import RecordExport.Template.MarkerLine
import RecordExport.Template.Pattern
/-!
# Replacing scalar placeholders

A `ScalarWalk` goes through a text from left to right and stops at every scalar placeholder whose
name matches a pattern. The text behind the walk is final: what was inserted is never looked at
again, whatever it contains. An inserted value either goes in as it is, or it loses its blank edge
lines and takes on the indentation of its line; a value with nothing left then takes its placeholder
away, with the whole line if the placeholder stood alone.

The part still to be walked gets shorter with every replacement (`length_rest_replace`), which is
why `replaceScalarsM` ends for every value it is given.
-/

namespace RecordExport

universe v

/-! ## 1. Finding a placeholder -/

/-- A scalar placeholder found in a text: what its name captures, the text before it, the
    placeholder, the text after it. -/
structure ScalarMatch where
  captures : List Text
  left : Text
  marker : Token
  right : Text

/-- The captures of a token that is a scalar with a matching name. -/
def scalarCaptures (p : Pattern) (t : Token) : Option (List Text) :=
  if t.shape = .scalar then p.captures t.name else none

/-- The first matching scalar among tokens. -/
def findScalar (p : Pattern) : List Token → Option ScalarMatch
  | [] => none
  | t :: ts =>
    match scalarCaptures p t with
    | some cs => some ⟨cs, [], t, sourceOf ts⟩
    | none => (findScalar p ts).map fun m => { m with left := t.source ++ m.left }

theorem length_source_pos {t : Token} (h : t.shape ≠ .literal) : 0 < t.source.length := by
  cases t with
  | literal => exact absurd rfl h
  | placeholder => simp [Token.source, braced]

/-- The parts of a match are the tokens' text, and its marker takes some of it. -/
theorem source_findScalar {p : Pattern} {ts : List Token} {m : ScalarMatch}
    (h : findScalar p ts = some m) :
    sourceOf ts = m.left ++ m.marker.source ++ m.right ∧ 0 < m.marker.source.length := by
  induction ts generalizing m with
  | nil => simp [findScalar] at h
  | cons t ts ih =>
    unfold findScalar at h
    split at h
    · rename_i cs hc
      simp only [Option.some.injEq] at h
      subst h
      refine ⟨by simp, length_source_pos ?_⟩
      unfold scalarCaptures at hc
      split at hc
      · simp_all
      · simp at hc
    · simp only [Option.map_eq_some_iff] at h
      obtain ⟨m', hm', rfl⟩ := h
      obtain ⟨h1, h2⟩ := ih hm'
      exact ⟨by simp [h1], h2⟩

/-! ## 2. The walk -/

/-- How an inserted value meets its line. -/
inductive Placement where
  /-- as it is -/
  | inline
  /-- without blank edge lines, its further lines indented like its first -/
  | fitted
  deriving DecidableEq, Repr

/-- A walk over the matching scalars of a text. -/
structure ScalarWalk where
  pattern : Pattern
  placement : Placement
  /-- the text already passed -/
  before : Text
  /-- the text still to be searched -/
  rest : Text
  /-- the placeholder the walk stands at -/
  current : Option ScalarMatch

namespace ScalarWalk

/-- A walk at the beginning of a text. -/
def start (pattern : Pattern) (placement : Placement) (t : Text) : ScalarWalk :=
  ⟨pattern, placement, [], t, none⟩

/-- The whole text as it now is. -/
def text (w : ScalarWalk) : Text := w.before ++ w.rest

/-- Go to the next matching placeholder. -/
def next (w : ScalarWalk) : ScalarWalk :=
  { w with current := findScalar w.pattern (tokenize w.rest) }

/-- What the current placeholder's name captures. -/
def captures (w : ScalarWalk) : Option (List Text) := w.current.map (·.captures)

/-- Put a value in the place of the current placeholder and go past it. Without a current
    placeholder nothing happens. -/
def replace (w : ScalarWalk) (value : Text) : ScalarWalk :=
  match w.current with
  | none => w
  | some m =>
    let left := w.before ++ m.left
    match w.placement with
    | .inline => { w with before := left ++ value, rest := m.right, current := none }
    | .fitted =>
      let trimmed := trimBlankLines value
      if trimmed = [] then
        let extent := lineExtent left m.right
        { w with before := dropLast extent.1 left, rest := m.right.drop extent.2, current := none }
      else
        { w with
          before := left ++ applyIndent (leadingIndent left) trimmed
          rest := m.right
          current := none }

/-- A replacement leaves less to be searched. -/
theorem length_rest_replace {w : ScalarWalk} {m : ScalarMatch} (value : Text)
    (h : (w.next).current = some m) : ((w.next).replace value).rest.length < w.rest.length := by
  have hs := source_findScalar (show findScalar w.pattern (tokenize w.rest) = some m from h)
  rw [source_tokenize] at hs
  have hl : m.right.length < w.rest.length := by
    rw [hs.1]
    simp
    omega
  unfold replace
  rw [h]
  simp only
  split
  · exact hl
  · split
    · simp
      omega
    · exact hl

end ScalarWalk

/-! ## 3. Replacing all of them -/

/-- Walk on to the end, asking for a value at every placeholder. -/
def ScalarWalk.replaceAllM {m : Type → Type v} [Monad m] (value : List Text → m Text)
    (w : ScalarWalk) : m Text :=
  match _h : w.next.current with
  | none => pure w.next.text
  | some found => do
    let v ← value found.captures
    replaceAllM value (w.next.replace v)
  termination_by w.rest.length
  decreasing_by exact length_rest_replace v _h

/-- Replace every scalar placeholder whose name matches, asking for each value in turn. -/
def replaceScalarsM {m : Type → Type v} [Monad m] (p : Pattern) (placement : Placement) (t : Text)
    (value : List Text → m Text) : m Text :=
  (ScalarWalk.start p placement t).replaceAllM value

/-- Replace every scalar placeholder whose name matches. -/
def replaceScalars (p : Pattern) (placement : Placement) (t : Text)
    (value : List Text → Text) : Text :=
  replaceScalarsM (m := Id) p placement t value

end RecordExport

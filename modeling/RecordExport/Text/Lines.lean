import RecordExport.Text.Blank
/-!
# Lines

A text is a row of lines with a line feed between each two. Inserted values lose the blank lines at
their ends and take on the indentation of the place they land on; rendered list items are joined and
keep their last line feed. A line is blank when it holds white space only.
-/

namespace RecordExport

/-! ## 1. Cutting and joining -/

/-- The lines of a text, cut at every line feed; there is always at least one. -/
def splitLines : Text → List Text
  | [] => [[]]
  | c :: t =>
    if c = '\n' then [] :: splitLines t
    else
      match splitLines t with
      | l :: ls => (c :: l) :: ls
      | [] => [[c]]

/-- Lines with a line feed between each two. -/
def joinLines : List Text → Text
  | [] => []
  | [l] => l
  | l :: ls => l ++ '\n' :: joinLines ls

theorem splitLines_ne_nil (t : Text) : splitLines t ≠ [] := by
  cases t with
  | nil => simp [splitLines]
  | cons c t =>
    unfold splitLines
    split
    · simp
    · split <;> simp

/-- Cutting loses nothing. -/
@[simp] theorem joinLines_splitLines (t : Text) : joinLines (splitLines t) = t := by
  induction t with
  | nil => rfl
  | cons c t ih =>
    have ne := splitLines_ne_nil t
    unfold splitLines
    split
    · rename_i h
      cases hs : splitLines t with
      | nil => exact absurd hs ne
      | cons l ls => rw [hs] at ih; simp [joinLines, ih, h]
    · cases hs : splitLines t with
      | nil => exact absurd hs ne
      | cons l ls =>
        rw [hs] at ih
        cases ls with
        | nil => simpa [joinLines] using ih
        | cons m ms => simpa [joinLines] using ih

/-! ## 2. Inserted values -/

/-- The text without the blank lines at its ends. -/
def trimBlankLines (t : Text) : Text :=
  let kept := (splitLines t).dropWhile Text.allBlank
  joinLines ((kept.reverse.dropWhile Text.allBlank).reverse)

/-- The text with every line after the first indented; blank lines stay as they are. -/
def applyIndent (indent t : Text) : Text :=
  match splitLines t with
  | [] => []
  | l :: ls => joinLines (l :: ls.map fun l => if Text.allBlank l then l else indent ++ l)

/-- Rendered items, one after the other, without the blank lines at the ends. A line feed at the
    very end is kept, so a list written line by line stays one. -/
def joinItems (items : List Text) : Text :=
  let joined := items.flatten
  let trimmed := trimBlankLines joined
  if trimmed ≠ [] ∧ joined.getLast? = some '\n' then trimmed ++ ['\n'] else trimmed

/-! ## 3. Terminated lines -/

/-- A line without the carriage return at its end. -/
def dropReturn (l : Text) : Text := if l.getLast? = some '\r' then l.dropLast else l

/-- The lines of a text whose last line feed only ends the last line; line ends may be line feeds
    or a carriage return and a line feed. -/
def terminatedLines (t : Text) : List Text :=
  let ls := splitLines t
  ls.dropLast.map dropReturn ++ (ls.getLast?.toList.filter (· ≠ []))

end RecordExport

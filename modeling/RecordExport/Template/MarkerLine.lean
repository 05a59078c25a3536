import RecordExport.Template.Token
import RecordExport.Text.Lines
/-!
# The line a marker stands on

A marker that stands alone on its line takes the whole line with it when it goes, so block markers
may be written on lines of their own. Standing alone means that only spaces, tabs and carriage
returns share the line. Everything here looks at a cut: the text before a marker and the text after
it.
-/

namespace RecordExport

/-- A character that may stand beside a marker that stands alone. -/
def isPadding (c : Char) : Bool := c = ' ' || c = '\t' || c = '\r'

/-- Nothing but padding stands beside a marker on its line. -/
def standsAlone (left right : Text) : Bool :=
  (Text.lastLine left).all isPadding && (Text.firstLine right).all isPadding

/-- How many characters before and after a marker go with it: its whole line with the line feed when
    it stands alone, else none. -/
def lineExtent (left right : Text) : Nat × Nat :=
  if standsAlone left right then
    ((Text.lastLine left).length, min ((Text.firstLine right).length + 1) right.length)
  else (0, 0)

/-- The spaces and tabs the line of a cut begins with. -/
def leadingIndent (left : Text) : Text :=
  (Text.lastLine left).takeWhile fun c => c = ' ' || c = '\t'

/-- The text without its last `n` characters. -/
def dropLast (n : Nat) (t : Text) : Text := t.take (t.length - n)

/-- The last `n` characters of a text. -/
def takeLast (n : Nat) (t : Text) : Text := t.drop (t.length - n)

@[simp] theorem dropLast_append_takeLast (n : Nat) (t : Text) : dropLast n t ++ takeLast n t = t :=
  List.take_append_drop _ _

@[simp] theorem dropLast_zero (t : Text) : dropLast 0 t = t := by simp [dropLast]

theorem length_dropLast_le (n : Nat) (t : Text) : (dropLast n t).length ≤ t.length := by
  simp [dropLast]

end RecordExport

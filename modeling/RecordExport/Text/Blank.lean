import RecordExport.Text.Basic
/-!
# White space

The characters with the Unicode property White_Space, and the trimming they define. Placeholder
names, record values and script lines are all trimmed by this one class.
-/

namespace RecordExport

/-- A character with the Unicode property White_Space: 25 characters in ten ranges. -/
def isBlank (c : Char) : Bool :=
  let n := c.toNat
  (0x9 ≤ n && n ≤ 0xD) || n == 0x20 || n == 0x85 || n == 0xA0 || n == 0x1680
    || (0x2000 ≤ n && n ≤ 0x200A) || n == 0x2028 || n == 0x2029 || n == 0x202F || n == 0x205F
    || n == 0x3000

namespace Text

/-- The text without its leading white space. -/
def trimStart (t : Text) : Text := t.dropWhile isBlank

/-- The text without its trailing white space. -/
def trimEnd (t : Text) : Text := (t.reverse.dropWhile isBlank).reverse

/-- The text without white space at either end. -/
def trim (t : Text) : Text := t.trimStart.trimEnd

/-- A text of white space only. -/
def allBlank (t : Text) : Bool := t.all isBlank

end Text
end RecordExport

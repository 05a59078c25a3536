import RecordExport.Text.Basic
/-!
# JSON values and their written form

The values this library writes: the placeholder listing of a kind, and every record. Members keep
the order they were given in. Two layouts are used, one without any space and one with a member or
item per line, indented by two spaces.
-/

namespace RecordExport

/-- A value to be written. Every number the library writes is a natural number. -/
inductive Json where
  | null
  | bool (b : Bool)
  | nat (n : Nat)
  | str (s : String)
  | arr (items : List Json)
  | obj (members : List (String × Json))

namespace Json

/-! ## 1. Strings -/

/-- A hexadecimal digit below sixteen, in lower case. -/
def hexDigit (n : Nat) : Char := if n < 10 then Char.ofNat (48 + n) else Char.ofNat (87 + n)

/-- One character inside a quoted string: the quote, the backslash and the control characters are
    escaped, by a short form where JSON has one. -/
def escapeChar (c : Char) : Text :=
  if c = '"' then ['\\', '"']
  else if c = '\\' then ['\\', '\\']
  else if c = '\n' then ['\\', 'n']
  else if c = '\r' then ['\\', 'r']
  else if c = '\t' then ['\\', 't']
  else if c = '\x08' then ['\\', 'b']
  else if c = '\x0c' then ['\\', 'f']
  else if c.toNat < 0x20 then
    ['\\', 'u', '0', '0', hexDigit (c.toNat / 16), hexDigit (c.toNat % 16)]
  else [c]

/-- A quoted string. -/
def quoted (s : String) : Text := '"' :: (s.toList.flatMap escapeChar ++ ['"'])

/-- A natural number in decimal. -/
def decimal (n : Nat) : Text := Nat.toDigits 10 n

/-! ## 2. Without spaces -/

mutual

/-- A value written without spaces. -/
def compact : Json → Text
  | .null => "null".toList
  | .bool true => "true".toList
  | .bool false => "false".toList
  | .nat n => decimal n
  | .str s => quoted s
  | .arr [] => "[]".toList
  | .arr (v :: vs) => '[' :: (compact v ++ compactItems vs)
  | .obj [] => ['\x7b', '\x7d']
  | .obj ((k, v) :: ms) => '\x7b' :: (quoted k ++ ':' :: (compact v ++ compactMembers ms))

/-- The items after the first, each behind a comma, and the closing bracket. -/
def compactItems : List Json → Text
  | [] => [']']
  | v :: vs => ',' :: (compact v ++ compactItems vs)

/-- The members after the first, each behind a comma, and the closing brace. -/
def compactMembers : List (String × Json) → Text
  | [] => ['\x7d']
  | (k, v) :: ms => ',' :: (quoted k ++ ':' :: (compact v ++ compactMembers ms))

end

/-! ## 3. A line for every member and item -/

/-- A line feed and the indentation of a nesting depth. -/
def newLine (depth : Nat) : Text := '\n' :: List.replicate (2 * depth) ' '

mutual

/-- A value written over several lines, its own nesting depth given. -/
def indented (depth : Nat) : Json → Text
  | .null => "null".toList
  | .bool true => "true".toList
  | .bool false => "false".toList
  | .nat n => decimal n
  | .str s => quoted s
  | .arr [] => "[]".toList
  | .arr (v :: vs) =>
    '[' :: (newLine (depth + 1) ++ indented (depth + 1) v ++ indentedItems depth vs)
  | .obj [] => ['\x7b', '\x7d']
  | .obj ((k, v) :: ms) =>
    '\x7b' :: (newLine (depth + 1) ++ quoted k ++ ": ".toList ++ indented (depth + 1) v
      ++ indentedMembers depth ms)

/-- The items after the first and the closing bracket on its own line. -/
def indentedItems (depth : Nat) : List Json → Text
  | [] => newLine depth ++ [']']
  | v :: vs => ',' :: (newLine (depth + 1) ++ indented (depth + 1) v ++ indentedItems depth vs)

/-- The members after the first and the closing brace on its own line. -/
def indentedMembers (depth : Nat) : List (String × Json) → Text
  | [] => newLine depth ++ ['\x7d']
  | (k, v) :: ms =>
    ',' :: (newLine (depth + 1) ++ quoted k ++ ": ".toList ++ indented (depth + 1) v
      ++ indentedMembers depth ms)

end

/-! ## 4. Building values -/

/-- A list of strings. -/
def strs (ss : List String) : Json := .arr (ss.map .str)

/-- A value that may be absent; absence is written as null. -/
def ofOption {α : Type} (f : α → Json) : Option α → Json
  | none => .null
  | some a => f a

/-- A text as a string value. -/
def text (t : Text) : Json := .str (String.ofList t)

end Json
end RecordExport

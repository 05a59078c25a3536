import RecordExport.Template.NameExpr
import RecordExport.Text.Letter
/-!
# Flags of written expressions

What is written in an expression has its meaning under FLAGS, which can be set in the middle of it:
whether case counts, where lines end, whether a class goes beyond ASCII. What is a letter or a digit
beyond ASCII, and which characters differ in case only, is told by tables.

* `ExprFlags`: the flags, and `ExprFlags.set`: what a written list of them changes;
* `ExprTables`: what the tables of Unicode say, and how large an expression may get;
* `ExprTables.char?`, `any?`, `perl?`, `property?`: what is meant by a character for itself, by any
  character, by a class of a letter and by a property, where the flags allow it.
-/

namespace RecordExport

/-! ## 1. Flags -/

inductive ExprFlag where
  | ignoreCase
  /-- `^` and `$` stand for the ends of lines -/
  | multiLine
  /-- a dot stands for a line feed too -/
  | dotAll
  /-- a repetition is reluctant unless it is marked -/
  | swapGreed
  | unicode
  /-- a line may end with a carriage return -/
  | returns
  /-- blanks and comments count for nothing -/
  | verbose
  deriving DecidableEq, Repr

/-- The flag of a letter. -/
def ExprFlag.ofChar? : Char → Option ExprFlag
  | 'i' => some .ignoreCase
  | 'm' => some .multiLine
  | 's' => some .dotAll
  | 'U' => some .swapGreed
  | 'u' => some .unicode
  | 'R' => some .returns
  | 'x' => some .verbose
  | _ => none

/-- An item of a written list of flags: a flag, or the sign that takes back all behind it. -/
inductive FlagItem where
  | flag (f : ExprFlag)
  | takesBack
  deriving DecidableEq, Repr

/-- The flags in force. -/
abbrev ExprFlags := ExprFlag → Bool

namespace ExprFlags

/-- The flags an expression begins with. -/
def initial : ExprFlags := fun f => f = .unicode

/-- What a list of items says of a flag. -/
def saidOf (f : ExprFlag) (items : List FlagItem) : Option Bool :=
  if .flag f ∈ items then some (.flag f ∈ items.takeWhile (· ≠ .takesBack)) else none

/-- The flags as a list of items changes them. -/
def set (flags : ExprFlags) (items : List FlagItem) : ExprFlags :=
  fun f => (saidOf f items).getD (flags f)

end ExprFlags

/-! ## 2. Tables -/

/-- A property of characters, asked for by name. -/
inductive PropertyQuery where
  | letter (c : Char)
  | named (name : Text)
  | value (name value : Text)
  deriving DecidableEq, Repr

/-- **What the tables of Unicode say**, and whether an expression is small enough. -/
structure ExprTables where
  /-- the characters of words -/
  word : CharSet
  digit : CharSet
  space : CharSet
  /-- the characters with a numeric value, decimal or not -/
  isNumeric : Char → Bool
  /-- characters that differ in case only, together -/
  cases : List (List Char)
  property : PropertyQuery → Option CharSet
  fits : NameExpr → Bool

namespace CharSet

/-- The set with all that differs in case only from what it holds. -/
def closedUnder (cases : List (List Char)) (s : CharSet) : CharSet :=
  unionAll (s :: (cases.filter (·.any s.contains)).map ofChars)

def asciiDigit : CharSet := ofRange '0' '9'

def asciiLower : CharSet := ofRange 'a' 'z'

def asciiUpper : CharSet := ofRange 'A' 'Z'

def asciiLetter : CharSet := asciiLower.union asciiUpper

def asciiWord : CharSet := unionAll [asciiLetter, asciiDigit, only '_']

/-- Tabulator to carriage return, and the space. -/
def asciiSpace : CharSet := (ofRange '\t' '\r').union (only ' ')

end CharSet

/-- The letters of ASCII with their capitals. -/
def asciiCases : List (List Char) :=
  "abcdefghijklmnopqrstuvwxyz".toList.map fun c => [c, c.toUpper]

/-- The tables of a language written in ASCII, which has no properties. -/
def ExprTables.ascii : ExprTables where
  word := .asciiWord
  digit := .asciiDigit
  space := .asciiSpace
  isNumeric := CharSet.asciiDigit.contains
  cases := asciiCases
  property _ := none
  fits _ := true

/-! ## 3. What is meant -/

/-- A test of a place as it is written. -/
inductive WrittenTest where
  | lineStart
  | lineStop
  | textStart
  | textStop
  | word (place : WordPlace)
  deriving DecidableEq, Repr

/-- A class of characters that is written as a letter. -/
inductive PerlClass where
  | digit
  | space
  | word
  deriving DecidableEq, Repr

namespace ExprTables

variable (tables : ExprTables) (flags : ExprFlags)

/-- The characters of a class. -/
def perlSet (k : PerlClass) : CharSet :=
  match k with
  | .digit => if flags .unicode then tables.digit else .asciiDigit
  | .space => if flags .unicode then tables.space else .asciiSpace
  | .word => if flags .unicode then tables.word else .asciiWord

/-- The test that is meant. -/
def test : WrittenTest → PlaceTest
  | .lineStart => if flags .multiLine then .lineStart (flags .returns) else .start
  | .lineStop => if flags .multiLine then .lineStop (flags .returns) else .stop
  | .textStart => .start
  | .textStop => .stop
  | .word place => .word place (tables.perlSet flags .word)

/-- The set, with all that differs in case only if case does not count. -/
def closed (s : CharSet) : CharSet :=
  if flags .ignoreCase then s.closedUnder (if flags .unicode then tables.cases else asciiCases)
  else s

/-- The set or all other characters; within ASCII nothing can be left out. -/
def negated? (negated : Bool) (s : CharSet) : Option CharSet :=
  if negated then if flags .unicode then some s.compl else none else some s

/-- A character that is written by its byte stands for it within ASCII only. -/
def allows (c : Char) (asByte : Bool) : Bool :=
  flags .unicode || !asByte || c.toNat ≤ 0x7F

/-- A character for itself. -/
def char? (c : Char) (asByte : Bool) : Option CharSet :=
  if allows flags c asByte then some (tables.closed flags (.only c)) else none

/-- Any character. -/
def any? : Option CharSet :=
  if flags .unicode then
    some (if flags .dotAll then CharSet.none.compl
      else if flags .returns then (CharSet.ofChars ['\n', '\r']).compl else .inLine)
  else none

/-- A class that is written as a letter. -/
def perl? (k : PerlClass) (negated : Bool) : Option CharSet :=
  negated? flags negated (tables.perlSet flags k)

/-- The characters with a property. -/
def property? (q : PropertyQuery) (negated : Bool) : Option CharSet :=
  if flags .unicode then (tables.property q).bind fun s => negated? flags negated (tables.closed flags s)
  else none

/-- The set of a character in a class. -/
def charSet? (c : Char) : Option CharSet :=
  if flags .unicode || c.toNat ≤ 0x7F then some (.only c) else none

/-- The characters from one to another in a class. -/
def range? (lo hi : Char) : Option CharSet :=
  if (flags .unicode || (lo.toNat ≤ 0x7F && hi.toNat ≤ 0x7F)) && lo ≤ hi then some (.ofRange lo hi)
  else none

end ExprTables
end RecordExport

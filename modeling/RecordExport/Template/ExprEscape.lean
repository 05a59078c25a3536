import RecordExport.Template.ExprFlag
/-!
# Escapes

A backslash begins an escape. It takes its meaning from a sign that has one, and gives a meaning to a
letter: a character that cannot be seen, a character by its code, a class, a property, or a place. An
escape is read character by character; what is begun and not complete is its MODE.

* `EscapeMode.next`: what one more character makes of an escape, another mode or what was written;
* `escapeExpr`: a text written so that every character of it stands for itself.
-/

namespace RecordExport

/-! ## 1. Signs -/

/-- Characters with a meaning of their own, in an expression or in a class. -/
def isSign (c : Char) : Bool := "\\.+*?()|[]\x7b\x7d^$#&-~".toList.contains c

/-- Characters that stand for themselves behind a backslash: all of ASCII that neither are letters or
    digits nor open or close an angle. -/
def isEscapable (c : Char) : Bool :=
  c.toNat ≤ 0x7F && !c.isAlphanum && c ≠ '<' && c ≠ '>'

/-- A text written so that every character of it stands for itself. -/
def escapeExpr (t : Text) : Text := t.flatMap fun c => if isSign c then ['\\', c] else [c]

/-! ## 2. What an escape writes -/

/-- What an escape writes. -/
inductive Escaped where
  /-- a character, which may be written by its byte -/
  | char (c : Char) (asByte : Bool)
  | place (t : WrittenTest)
  | perl (k : PerlClass) (negated : Bool)
  | property (q : PropertyQuery) (negated : Bool)
  deriving DecidableEq, Repr

/-- What one letter or sign behind a backslash writes. -/
def Escaped.ofChar? (c : Char) : Option Escaped :=
  match c with
  | 'd' => some (.perl .digit false)
  | 'D' => some (.perl .digit true)
  | 's' => some (.perl .space false)
  | 'S' => some (.perl .space true)
  | 'w' => some (.perl .word false)
  | 'W' => some (.perl .word true)
  | 'a' => some (.char '\x07' false)
  | 'f' => some (.char '\x0c' false)
  | 't' => some (.char '\t' false)
  | 'n' => some (.char '\n' false)
  | 'r' => some (.char '\r' false)
  | 'v' => some (.char '\x0b' false)
  | 'A' => some (.place .textStart)
  | 'z' => some (.place .textStop)
  | 'b' => some (.place (.word .edge))
  | 'B' => some (.place (.word .noEdge))
  | '<' => some (.place (.word .start))
  | '>' => some (.place (.word .stop))
  | c => if isEscapable c then some (.char c false) else none

/-- The place of a word that a name in braces behind `\b` asks for. -/
def WordPlace.ofName? (name : Text) : Option WordPlace :=
  if name = "start".toList then some .start
  else if name = "end".toList then some .stop
  else if name = "start-half".toList then some .startHalf
  else if name = "end-half".toList then some .stopHalf
  else none

/-! ## 3. Properties -/

/-- Cut a text around the first place where something stands. -/
def cutAround? (sep : Text) : Text → Option (Text × Text)
  | [] => none
  | c :: t =>
    match Text.afterLeading? sep (c :: t) with
    | some rest => some ([], rest)
    | none => (cutAround? sep t).map fun (front, rest) => (c :: front, rest)

/-- What stands in the braces of a property: its name, or a name and a value, which may be excluded. -/
def Escaped.ofProperty (t : Text) (negated : Bool) : Escaped :=
  match cutAround? "!=".toList t with
  | some (name, value) => .property (.value name value) !negated
  | none =>
    match (cutAround? [':'] t).orElse fun _ => cutAround? ['='] t with
    | some (name, value) => .property (.value name value) negated
    | none => .property (.named t) negated

/-! ## 4. Reading -/

/-- The value of a hexadecimal digit. -/
def hexValue? (c : Char) : Option Nat :=
  if '0' ≤ c ∧ c ≤ '9' then some (c.toNat - '0'.toNat)
  else if 'a' ≤ c ∧ c ≤ 'f' then some (c.toNat - 'a'.toNat + 10)
  else if 'A' ≤ c ∧ c ≤ 'F' then some (c.toNat - 'A'.toNat + 10)
  else none

/-- The character of a code, if there is one. -/
def charOfCode? (code : Nat) : Option Char :=
  if code.isValidChar then some (Char.ofNat code) else none

/-- What of an escape was read. -/
inductive EscapeMode where
  /-- the backslash -/
  | begun
  /-- that a code follows, of so many digits or in braces -/
  | code (digits : Nat)
  /-- some digits of a code, and behind the next so many are missing -/
  | fixed (missing value : Nat) (asByte : Bool)
  /-- a brace and some digits of a code behind it -/
  | braced (value : Option Nat)
  /-- that a property follows, of one letter or in braces -/
  | property (negated : Bool)
  | propertyBraced (negated : Bool) (name : Text)
  deriving DecidableEq, Repr

/-- One more digit of a code, behind which so many are missing. -/
def EscapeMode.digit? (missing value : Nat) (asByte : Bool) (c : Char) :
    Option (EscapeMode ⊕ Escaped) :=
  (hexValue? c).bind fun d =>
    let value := 16 * value + d
    match missing with
    | 0 => (charOfCode? value).map fun c => .inr (.char c asByte)
    | missing + 1 => some (.inl (.fixed missing value asByte))

/-- **What one more character makes of an escape**: another mode, or what was written. -/
def EscapeMode.next (m : EscapeMode) (c : Char) : Option (EscapeMode ⊕ Escaped) :=
  match m with
  | .begun =>
    match c with
    | 'x' => some (.inl (.code 2))
    | 'u' => some (.inl (.code 4))
    | 'U' => some (.inl (.code 8))
    | 'p' => some (.inl (.property false))
    | 'P' => some (.inl (.property true))
    | c => (Escaped.ofChar? c).map .inr
  | .code digits =>
    if c = '\x7b' then some (.inl (.braced none))
    else EscapeMode.digit? (digits - 1) 0 (digits = 2) c
  | .fixed missing value asByte => EscapeMode.digit? missing value asByte c
  | .braced value =>
    if c = '\x7d' then value.bind fun v => (charOfCode? v).map fun c => .inr (.char c false)
    else (hexValue? c).map fun d => .inl (.braced (some (16 * value.getD 0 + d)))
  | .property negated =>
    if c = '\x7b' then some (.inl (.propertyBraced negated []))
    else if c = '\\' then none
    else some (.inr (.property (.letter c) negated))
  | .propertyBraced negated name =>
    if c = '\x7d' then some (.inr (.ofProperty name negated))
    else some (.inl (.propertyBraced negated (name ++ [c])))

/-- Blanks and comments in the middle of an escape count for nothing, except behind the backslash. -/
def EscapeMode.skips : EscapeMode → Bool
  | .begun => false
  | _ => true

end RecordExport

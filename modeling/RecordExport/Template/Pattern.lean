import RecordExport.Template.Machine
/-!
# Patterns of placeholder names

A pattern describes the names of a placeholder family and what it captures of each. Most families
are told by their parts: fixed texts with open places between, and each open place takes as much as
the rest of the name allows, the first before the second. Other families are told by an expression.

Names are compared with case.
-/

namespace RecordExport

/-! ## 1. Names with parts left open -/

/-- A part of a name. -/
inductive NamePart where
  /-- this text -/
  | fixed (t : Text)
  /-- any text in one line, captured -/
  | captured
  /-- any text in one line but the empty one -/
  | filled
  deriving DecidableEq, Repr

/-- Cut a text where an answer for the rest is there, with as much in front as possible, though no
    line feed: what is in front, and the answer. -/
def cutLongest {β : Type} (answer : Text → Option β) : Text → Option (Text × β)
  | [] => (answer []).map ([], ·)
  | c :: t =>
    let here := (answer (c :: t)).map ([], ·)
    if c = '\n' then here
    else
      match cutLongest answer t with
      | some (front, b) => some (c :: front, b)
      | none => here

/-- The captures of a name made of these parts, if it is. -/
def partCaptures : List NamePart → Text → Option (List Text)
  | [], t => if t = [] then some [] else none
  | .fixed s :: ps, t => (Text.afterLeading? s t).bind (partCaptures ps)
  | .captured :: ps, t =>
    (cutLongest (partCaptures ps) t).map fun (front, captures) => front :: captures
  | .filled :: _, [] => none
  | .filled :: ps, c :: t =>
    if c = '\n' then none else (cutLongest (partCaptures ps) t).map (·.2)

/-! ## 2. Patterns -/

/-- A pattern of names. -/
inductive Pattern where
  | parts (ps : List NamePart)
  | expression (m : Machine)
  deriving DecidableEq, Repr

namespace Pattern

/-- The captures of a name, if it matches. -/
def captures : Pattern → Text → Option (List Text)
  | .parts ps, name => partCaptures ps name
  | .expression m, name => m.captures name

/-- The name matches. -/
def isMatch (p : Pattern) (name : Text) : Bool := (p.captures name).isSome

/-- The names made of these parts from the first character to the last. -/
def ofParts (ps : List NamePart) : Pattern := .parts ps

/-- This name alone. -/
def literal (name : Text) : Pattern := .parts [.fixed name]

/-- The names of a namespace with these parts behind its underscore. -/
def within (space : Text) (ps : List NamePart) : Pattern := .parts (.fixed (space ++ ['_']) :: ps)

end Pattern
end RecordExport

import RecordExport.Template.CharSet
/-!
# Expressions over names

An expression describes names: words, sets of characters, sequence, choice, optional and repeated
parts, groups that capture, and places that are tested for what stands around them. Of the ways in
which a name can be of an expression the preferred one counts: the left side of a choice before the
right, another round of a greedy repetition before leaving it, the other way round for a reluctant
one.

Expressions are put together so that those that say the same are often equal: neighbouring words are
one word, rows and choices are flat, a choice between single characters is a set, and what takes no
character is not repeated. It counts what is equal, since the sides of a choice share what they all
begin with: those parts are gone through once, and only then is a side preferred.
-/

namespace RecordExport

/-! ## 1. Places -/

/-- Where a place stands to a word, given the characters of words. -/
inductive WordPlace where
  /-- at the start or the end of one -/
  | edge
  | noEdge
  | start
  | stop
  /-- behind no character of a word -/
  | startHalf
  /-- before no character of a word -/
  | stopHalf
  deriving DecidableEq, Repr

/-- What a place of a name can be tested for. -/
inductive PlaceTest where
  /-- the start of the name -/
  | start
  /-- the end of the name -/
  | stop
  /-- the start of a line, which may also end with a carriage return -/
  | lineStart (returns : Bool)
  | lineStop (returns : Bool)
  | word (place : WordPlace) (chars : CharSet)
  deriving DecidableEq, Repr

/-- Whether a word stands on either side makes such a place. -/
def WordPlace.holds (p : WordPlace) (behind ahead : Bool) : Bool :=
  match p with
  | .edge => behind != ahead
  | .noEdge => behind == ahead
  | .start => !behind && ahead
  | .stop => behind && !ahead
  | .startHalf => !behind
  | .stopHalf => !ahead

namespace PlaceTest

/-- The test holds between two characters, of which there is none at an end of the name. -/
def holds (t : PlaceTest) (before after : Option Char) : Bool :=
  match t with
  | .start => before.isNone
  | .stop => after.isNone
  | .lineStart false => before.isNone || before = some '\n'
  | .lineStart true =>
    before.isNone || before = some '\n' || (before = some '\r' && after ≠ some '\n')
  | .lineStop false => after.isNone || after = some '\n'
  | .lineStop true =>
    after.isNone || after = some '\r' || (after = some '\n' && before ≠ some '\r')
  | .word place chars => place.holds (before.any chars.contains) (after.any chars.contains)

/-- The test looks at what stands before the place. -/
def looksBack : PlaceTest → Bool
  | .stop | .lineStop false | .word .stopHalf _ => false
  | .start | .lineStart _ | .lineStop true | .word _ _ => true

theorem holds_of_not_looksBack {t : PlaceTest} (h : t.looksBack = false) (before before' after : Option Char) :
    t.holds before after = t.holds before' after := by
  cases t with
  | start => cases h
  | stop => rfl
  | lineStart returns => cases h
  | lineStop returns =>
    cases returns with
    | false => rfl
    | true => cases h
  | word place chars => cases place <;> first | rfl | cases h

end PlaceTest

/-! ## 2. Expressions -/

/-- An expression over names. -/
inductive NameExpr where
  /-- these characters, or nothing if there are none -/
  | word (cs : List Char)
  /-- a character of a set of several -/
  | oneOf (s : CharSet)
  /-- nothing, at a place that passes a test -/
  | place (t : PlaceTest)
  | seq (a b : NameExpr)
  | alt (a b : NameExpr)
  | optional (greedy : Bool) (a : NameExpr)
  /-- one round or more -/
  | many (greedy : Bool) (a : NameExpr)
  /-- no round or more -/
  | anyMany (greedy : Bool) (a : NameExpr)
  /-- an expression that is one part whatever it is made of -/
  | whole (a : NameExpr)
  | group (index : Nat) (a : NameExpr)
  deriving DecidableEq, Repr

namespace NameExpr

/-- A character of a set. -/
def ofSet (s : CharSet) : NameExpr :=
  match s.single? with
  | some c => .word [c]
  | none => .oneOf s

/-! ## 3. Rows -/

/-- The parts that stand one after the other in an expression. -/
def parts : NameExpr → List NameExpr
  | .word [] => []
  | .seq a b => a.parts ++ b.parts
  | e => [e]

/-- A part in front of others; neighbouring words are one word. -/
def consPart : NameExpr → List NameExpr → List NameExpr
  | .word cs, .word ds :: es => .word (cs ++ ds) :: es
  | e, es => e :: es

/-- Parts one after the other, as they are. -/
def ofParts : List NameExpr → NameExpr
  | [] => .word []
  | [e] => e
  | e :: es => .seq e (ofParts es)

/-- Expressions one after the other. -/
def row (es : List NameExpr) : NameExpr := ofParts ((es.flatMap parts).foldr consPart [])

/-! ## 4. Choices -/

/-- The sides of an expression that is a choice. -/
def sides : NameExpr → List NameExpr
  | .alt a b => a.sides ++ b.sides
  | e => [e]

/-- A choice between sides, as they are, the first the most preferred. -/
def ofSides : List NameExpr → NameExpr
  | [] => .word []
  | [e] => e
  | e :: es => .alt e (ofSides es)

/-- The character of a word of one. -/
def char? : NameExpr → Option Char
  | .word [c] => some c
  | _ => none

/-- The set of a part that is one. -/
def set? : NameExpr → Option CharSet
  | .oneOf s => some s
  | _ => none

/-- The set that a choice comes to if its sides are all single characters, or all sets of
    several. -/
def joinedSet? (es : List NameExpr) : Option CharSet :=
  match es.mapM char? with
  | some (c :: cs) => some ((cs.map CharSet.only).foldl CharSet.union (.only c))
  | _ =>
    match es.mapM set? with
    | some (s :: ss) => some (ss.foldl CharSet.union s)
    | _ => none

/-- A choice between sides none of which is a choice. -/
def joinSides (es : List NameExpr) : NameExpr :=
  match joinedSet? es with
  | some s => ofSet s
  | none => ofSides es

/-- What two lists both begin with. -/
def sharedStart : List NameExpr → List NameExpr → List NameExpr
  | a :: as, b :: bs => if a = b then a :: sharedStart as bs else []
  | _, _ => []

/-- What all of several rows begin with, if each is more than one part. -/
def sharedParts : List (List NameExpr) → List NameExpr
  | r :: rs => if (r :: rs).all (2 ≤ ·.length) then rs.foldl sharedStart r else []
  | [] => []

/-- A choice between expressions, with what they all begin with in front of it. -/
def choice (es : List NameExpr) : NameExpr :=
  let sides := es.flatMap sides
  let rows := sides.map parts
  match sides, sharedParts rows with
  | [e], _ => e
  | _, [] => joinSides sides
  | _, shared =>
    let rests := rows.map fun r => ofParts (r.drop shared.length)
    row (shared ++ [joinSides (rests.flatMap NameExpr.sides)])

/-! ## 5. Repetitions -/

/-- The expression takes no character of any name. -/
def takesNone : NameExpr → Bool
  | .word cs => cs.isEmpty
  | .oneOf _ => false
  | .place _ => true
  | .seq a b | .alt a b => a.takesNone && b.takesNone
  | .optional _ a | .many _ a | .anyMany _ a | .whole a | .group _ a => a.takesNone

/-- The expression takes a character of every name it begins. -/
def takesSome : NameExpr → Bool
  | .word cs => !cs.isEmpty
  | .oneOf _ => true
  | .place _ | .optional _ _ | .anyMany _ _ => false
  | .seq a b => a.takesSome || b.takesSome
  | .alt a b => a.takesSome && b.takesSome
  | .many _ a | .whole a | .group _ a => a.takesSome

/-- So many copies one after the other. -/
def times (a : NameExpr) : Nat → NameExpr
  | 0 => .word []
  | 1 => a
  | n + 2 => .seq a (times a (n + 1))

/-- At most so many copies, each behind the one before it. -/
def upTo (a : NameExpr) (greedy : Bool) : Nat → NameExpr
  | 0 => .word []
  | 1 => .optional greedy a
  | n + 2 => .optional greedy (.seq a (upTo a greedy (n + 1)))

/-- From so many rounds on to so many, or without end. -/
def rounds (a : NameExpr) (least : Nat) (most : Option Nat) (greedy : Bool) : NameExpr :=
  match least, most with
  | 0, some 1 => .optional greedy a
  | 0, none => .anyMany greedy a
  | 1, none => .many greedy a
  | n + 2, none => .whole (.seq (a.times (n + 1)) (.many greedy a))
  | n, some m => .whole (.seq (a.times n) (a.upTo greedy (m - n)))

/-- Rounds between bounds: none at all are nothing, and just one is the expression itself. -/
def bounded (a : NameExpr) (least : Nat) (most : Option Nat) (greedy : Bool) : NameExpr :=
  if most = some 0 then .word []
  else if least = 1 ∧ most = some 1 then a
  else a.rounds least most greedy

/-- **An expression repeated.** A round that takes no character is enough once. -/
def repeated (a : NameExpr) (least : Nat) (most : Option Nat) (greedy : Bool) : NameExpr :=
  if a.takesNone then a.bounded (min least 1) (some (most.elim 1 (min · 1))) greedy
  else a.bounded least most greedy

/-! ## 6. Groups -/

/-- The greatest number of a group, zero without any. -/
def lastGroup : NameExpr → Nat
  | .word _ | .oneOf _ | .place _ => 0
  | .seq a b | .alt a b => max a.lastGroup b.lastGroup
  | .optional _ a | .many _ a | .anyMany _ a | .whole a => a.lastGroup
  | .group i a => max i a.lastGroup

end NameExpr
end RecordExport

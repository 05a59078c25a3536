import RecordExport.Template.NameExpr
/-!
# Matching names

An expression is laid out as a MACHINE: numbered states, each of which takes a character, or moves
on without one, or accepts. A match is a way through the machine, and of several ways the most
preferred counts. All of them are followed at once:

* a THREAD is a way so far: the state it has come to, and where its groups began and ended;
* before each character the threads, in the order of preference, move on until they wait for it. A
  state is entered once at each place of the name: a less preferred thread that comes to it ends
  there, and so does one that would go in a circle;
* a thread that accepts ends all less preferred ones. The more preferred ones go on, and if one of
  them accepts later, it counts.

So matching takes a number of steps bounded by the length of the name times the size of the machine,
whatever the expression.
-/

namespace RecordExport

/-! ## 1. Machines -/

/-- What a state does. -/
inductive MachineStep where
  /-- take a character of this set -/
  | takes (s : CharSet) (next : Nat)
  | pass (next : Nat)
  /-- go on in two ways, the first preferred -/
  | either (first second : Nat)
  /-- go on at a place that passes a test only -/
  | place (t : PlaceTest) (next : Nat)
  /-- a group begins -/
  | opens (group next : Nat)
  /-- a group ends -/
  | closes (group next : Nat)
  | accept
  deriving DecidableEq, Repr

/-- The number of states an expression is laid out in. -/
def NameExpr.size : NameExpr → Nat
  | .word cs => cs.length + 1
  | .oneOf _ | .place _ => 1
  | .seq a b => a.size + b.size
  | .alt a b => a.size + b.size + 1
  | .optional _ a | .many _ a => a.size + 1
  | .anyMany _ a => if a.takesSome then a.size + 1 else a.size + 2
  | .whole a => a.size
  | .group _ a => a.size + 2

/-- Two ways to go on, the first preferred if `greedy`. -/
def MachineStep.fork (greedy : Bool) (first second : Nat) : MachineStep :=
  if greedy then .either first second else .either second first

/-- The states of a word laid out from number `here` on, with `next` behind it. -/
def wordSteps : List Char → (here next : Nat) → List MachineStep
  | [], _, next => [.pass next]
  | c :: cs, here, next => .takes (.only c) (here + 1) :: wordSteps cs (here + 1) next

theorem length_wordSteps (cs : List Char) (here next : Nat) :
    (wordSteps cs here next).length = cs.length + 1 := by
  induction cs generalizing here with
  | nil => rfl
  | cons c cs ih => simp [wordSteps, ih]

/-- The states of an expression laid out from number `here` on, with `next` behind it. The first of
    them is where the expression begins. -/
def NameExpr.layout : NameExpr → (here next : Nat) → List MachineStep
  | .word cs, here, next => wordSteps cs here next
  | .oneOf s, _, next => [.takes s next]
  | .place t, _, next => [.place t next]
  | .seq a b, here, next => a.layout here (here + a.size) ++ b.layout (here + a.size) next
  | .alt a b, here, next =>
    .either (here + 1) (here + 1 + a.size) ::
      (a.layout (here + 1) next ++ b.layout (here + 1 + a.size) next)
  | .optional greedy a, here, next => .fork greedy (here + 1) next :: a.layout (here + 1) next
  | .many greedy a, here, next => a.layout here (here + a.size) ++ [.fork greedy here next]
  | .anyMany greedy a, here, next =>
    .fork greedy (here + 1) next ::
      if a.takesSome then a.layout (here + 1) here
      else
        a.layout (here + 1) (here + 1 + a.size) ++ [.fork greedy (here + 1) next]
  | .whole a, here, next => a.layout here next
  | .group i a, here, next =>
    .opens i (here + 1) :: (a.layout (here + 1) (here + 1 + a.size) ++ [.closes i next])

theorem NameExpr.length_layout (e : NameExpr) (here next : Nat) :
    (e.layout here next).length = e.size := by
  induction e generalizing here next with
  | word cs => exact length_wordSteps cs here next
  | oneOf s => rfl
  | place t => rfl
  | seq a b iha ihb => simp [layout, size, iha, ihb]
  | alt a b iha ihb => simp [layout, size, iha, ihb]
  | optional greedy a ih => simp [layout, size, ih]
  | many greedy a ih => simp [layout, size, ih]
  | anyMany greedy a ih =>
    by_cases h : a.takesSome <;> simp [layout, size, h, ih]
  | whole a ih => exact ih here next
  | group i a ih => simp [layout, size, ih]

/-- States by their numbers, the first being the start, and the number of groups. -/
structure Machine where
  steps : Array MachineStep
  groups : Nat
  deriving DecidableEq, Repr

/-- The machine of an expression. It has the groups up to the last one in it. -/
def NameExpr.machine (e : NameExpr) : Machine :=
  ⟨(e.layout 0 e.size ++ [MachineStep.accept]).toArray, e.lastGroup⟩

/-! ## 2. Threads -/

/-- A way so far: the state it has come to, and the places at which groups began and ended, the
    latest first. -/
structure Thread where
  state : Nat
  starts : List (Nat × Nat)
  ends : List (Nat × Nat)
  deriving DecidableEq, Repr

/-- A way that has not gone anywhere yet. -/
def Thread.start : Thread := ⟨0, [], []⟩

/-- The way gone on to a state. -/
def Thread.moved (th : Thread) (state : Nat) : Thread := { th with state }

/-- A place of a name: how many characters are before it, and those around it. -/
structure NamePlace where
  index : Nat
  before : Option Char
  after : Option Char

/-- The ways that lead on from a state without a character, the preferred first. -/
def MachineStep.follow (s : MachineStep) (place : NamePlace) (th : Thread) : List Thread :=
  match s with
  | .pass next => [th.moved next]
  | .either first second => [th.moved first, th.moved second]
  | .place t next => if t.holds place.before place.after then [th.moved next] else []
  | .opens i next => [{ th with state := next, starts := (i, place.index) :: th.starts }]
  | .closes i next => [{ th with state := next, ends := (i, place.index) :: th.ends }]
  | .takes _ _ | .accept => []

/-- The state waits for a character. -/
def MachineStep.waits : MachineStep → Bool
  | .takes _ _ => true
  | _ => false

/-- The way that leads on with a character. -/
def MachineStep.take (s : MachineStep) (c : Char) (th : Thread) : Option Thread :=
  match s with
  | .takes set next => if set.contains c then some (th.moved next) else none
  | _ => none

/-! ## 3. Entering states -/

/-- The number of states not entered yet. -/
def unentered (entered : Array Bool) : Nat := entered.countP (!·)

/-- Entering a state leaves fewer that are not entered. -/
theorem unentered_set {entered : Array Bool} {state : Nat} (h : entered[state]? = some false) :
    unentered (entered.setIfInBounds state true) < unentered entered := by
  obtain ⟨hs, hf⟩ := Array.getElem?_eq_some_iff.1 h
  have hl : state < entered.toList.length := by simpa using hs
  have hf' : entered.toList[state] = false := by simpa using hf
  have hpos : 0 < entered.toList.countP (!·) :=
    List.countP_pos_iff.2 ⟨entered.toList[state], List.getElem_mem hl, by simp [hf']⟩
  unfold unentered
  rw [← Array.countP_toList, ← Array.countP_toList, Array.toList_setIfInBounds,
    List.countP_set hl, hf']
  simp only [Bool.not_false, Bool.not_true, Bool.false_eq_true, if_true, if_false]
  omega

namespace Machine

/-- Move threads on, the most preferred first, until each of them waits for a character or has come
    to a state that is entered already; one that accepts ends the less preferred ones. -/
def settle (m : Machine) (place : NamePlace) :
    (entered : Array Bool) → List Thread → List Thread
  | _, [] => []
  | entered, th :: ths =>
    if _h : entered[th.state]? = some false then
      match m.steps[th.state]? with
      | none => settle m place (entered.setIfInBounds th.state true) ths
      | some .accept => [th]
      | some s =>
        if s.waits then th :: settle m place (entered.setIfInBounds th.state true) ths
        else
          settle m place (entered.setIfInBounds th.state true) (s.follow place th ++ ths)
    else settle m place entered ths
  termination_by entered ths => (unentered entered, ths.length)
  decreasing_by
    · exact Prod.Lex.left _ _ (unentered_set _h)
    · exact Prod.Lex.left _ _ (unentered_set _h)
    · exact Prod.Lex.left _ _ (unentered_set _h)
    · exact Prod.Lex.right _ (Nat.lt_succ_self _)

/-- No state entered. -/
def untouched (m : Machine) : Array Bool := Array.replicate m.steps.size false

/-- The thread accepts. -/
def accepts (m : Machine) (th : Thread) : Bool := m.steps[th.state]? = some .accept

/-- The thread gone on with a character. -/
def take (m : Machine) (c : Char) (th : Thread) : Option Thread :=
  (m.steps[th.state]?).bind fun s => s.take c th

/-! ## 4. Matching -/

/-- Search on from a place of the name, with the character before it, the match found so far and the
    threads in hand. Until there is a match, each place begins a thread of its own, the least
    preferred. -/
def search (m : Machine) : (place : Nat) → (before : Option Char) → (found : Option Thread) →
    List Thread → Text → Option Thread
  | place, before, found, ths, [] =>
    let ths := if found.isSome then ths else ths ++ [Thread.start]
    ((m.settle ⟨place, before, none⟩ m.untouched ths).find? m.accepts).or found
  | place, before, found, ths, c :: t =>
    let ths := if found.isSome then ths else ths ++ [Thread.start]
    let ths := m.settle ⟨place, before, some c⟩ m.untouched ths
    search m (place + 1) (some c) ((ths.find? m.accepts).or found) (ths.filterMap (m.take c)) t

/-- What a group holds in a match; one that took no part holds nothing. -/
def held (name : Text) (th : Thread) (group : Nat) : Text :=
  match th.starts.lookup group, th.ends.lookup group with
  | some a, some b => (name.drop a).take (b - a)
  | _, _ => []

/-- **The captures of a name**, if it matches: what each group holds, groups counting from one. -/
def captures (m : Machine) (name : Text) : Option (List Text) :=
  (m.search 0 none none [] name).map fun th =>
    (List.range m.groups).map fun i => held name th (i + 1)

end Machine
end RecordExport

import RecordExport.Proofs.Patterns.Groups
import RecordExport.Template.Expression
/-!
# Written expressions

The signs of an expression are those of a choice of rows of pieces, and a piece may be repeated or hold another choice.
What is written so says what it takes without being put together: `WrittenExpr.expr` is the expression, part for part,
its groups counted from where they begin, and a repetition says how many rounds there are.

* `WrittenExpr`: what can be written, and `WrittenExpr.signs`: its signs;
* `reads`: among other signs, what is written is put together as what it says, only simpler;
* `exists_signs_of_readSigns?`: just the signs of what can be written are put together.
-/

namespace RecordExport

/-! ## 1. What can be written -/

/-- How a group begins. -/
inductive GroupHead where
  /-- it captures, perhaps with a name -/
  | captures (name : Option Text)
  /-- it only holds together, and may set flags -/
  | holds (items : List FlagItem)

namespace GroupHead

def sign : GroupHead → ExprSign
  | captures name => .captures name
  | holds items => .holds items

/-- How many groups it counts for. -/
def count : GroupHead → Nat
  | captures _ => 1
  | holds _ => 0

/-- The group with something in it, when so many were counted before. -/
def expr (before : Nat) : GroupHead → NameExpr → NameExpr
  | captures _, e => .group (before + 1) e
  | holds _, e => e

end GroupHead

/-- The rank of what is written. A piece can be repeated unless it sets flags. -/
inductive ExprRank where
  | piece (repeatable : Bool)
  | row
  | choice

/-- **What can be written.** -/
inductive WrittenExpr : ExprRank → Type where
  | set (s : CharSet) (depth : Nat) : WrittenExpr (.piece true)
  | place (t : PlaceTest) : WrittenExpr (.piece true)
  | group (head : GroupHead) (inside : WrittenExpr .choice) : WrittenExpr (.piece true)
  | repeated (p : WrittenExpr (.piece true)) (r : Repetition) (greedy : Bool) : WrittenExpr (.piece true)
  | flags (items : List FlagItem) : WrittenExpr (.piece false)
  | empty : WrittenExpr .row
  | more {repeatable : Bool} (r : WrittenExpr .row) (p : WrittenExpr (.piece repeatable)) : WrittenExpr .row
  | only (r : WrittenExpr .row) : WrittenExpr .choice
  | other (c : WrittenExpr .choice) (r : WrittenExpr .row) : WrittenExpr .choice

namespace WrittenExpr

/-- The signs that are written. -/
def signs : {k : ExprRank} → WrittenExpr k → List ExprSign
  | _, set s depth => [.set s depth]
  | _, place t => [.place t]
  | _, group head i => head.sign :: (i.signs ++ [.closes])
  | _, repeated p r greedy => p.signs ++ [.repeat r greedy]
  | _, flags items => [.sets items]
  | _, empty => []
  | _, more r p => r.signs ++ p.signs
  | _, only r => r.signs
  | _, other c r => c.signs ++ .choice :: r.signs

/-- How many groups it has. -/
def groups : {k : ExprRank} → WrittenExpr k → Nat
  | _, set _ _ | _, place _ | _, flags _ | _, empty => 0
  | _, group head i => head.count + i.groups
  | _, repeated p _ _ => p.groups
  | _, more r p => r.groups + p.groups
  | _, only r => r.groups
  | _, other c r => c.groups + r.groups

/-- **The expression that is written**, part for part, with so many groups before it. -/
def expr : {k : ExprRank} → (before : Nat) → WrittenExpr k → NameExpr
  | _, _, set s _ => .oneOf s
  | _, _, place t => .place t
  | _, n, group head i => head.expr n (i.expr (n + head.count))
  | _, n, repeated p r greedy => (p.expr n).rounds r.least r.most greedy
  | _, _, flags _ => .word []
  | _, _, empty => .word []
  | _, n, more r p => .seq (r.expr n) (p.expr (n + r.groups))
  | _, n, only r => r.expr n
  | _, n, other c r => .alt (c.expr n) (r.expr (n + c.groups))

/-- How many parts stand next to each other: pieces of a row, or rows of a choice. -/
def width : {k : ExprRank} → WrittenExpr k → Nat
  | .piece _, _ => 1
  | _, empty => 0
  | _, more r _ => r.width + 1
  | _, only _ => 1
  | _, other c _ => c.width + 1

/-- How many levels the deepest of its parts nests. -/
def deepest : {k : ExprRank} → WrittenExpr k → Nat
  | _, set _ depth => depth
  | _, place _ | _, flags _ | _, empty => 0
  | _, group _ i => (if i.width < 2 then i.deepest else i.deepest + 1) + 1
  | _, repeated p _ _ => p.deepest + 1
  | _, more r p => max r.deepest p.deepest
  | _, only r => if r.width < 2 then r.deepest else r.deepest + 1
  | _, other c r => max c.deepest (if r.width < 2 then r.deepest else r.deepest + 1)

/-- How many levels it nests: parts next to each other are a level of their own. -/
def levels {k : ExprRank} (w : WrittenExpr k) : Nat := if w.width < 2 then w.deepest else w.deepest + 1

end WrittenExpr

/-! ## 2. Levels -/

/-- So many parts, the deepest of which nests so many levels. -/
def Measures (ps : List ExprPart) (width deepest : Nat) : Prop :=
  ps.length = width ∧ (ps.map (·.depth)).foldl max 0 = deepest

theorem Measures.append {ps : List ExprPart} {width deepest : Nat} (h : Measures ps width deepest) (p : ExprPart) :
    Measures (ps ++ [p]) (width + 1) (max deepest p.depth) := by
  obtain ⟨rfl, rfl⟩ := h
  refine ⟨List.length_append, ?_⟩
  rw [List.map_append, List.foldl_append]
  rfl

theorem Measures.joinedDepth {ps : List ExprPart} {width deepest : Nat} (h : Measures ps width deepest) :
    joinedDepth (ps.map (·.depth)) = if width < 2 then deepest else deepest + 1 := by
  obtain ⟨rfl, rfl⟩ := h
  unfold RecordExport.joinedDepth
  rw [List.length_map]

/-! ## 3. Reading -/

namespace ExprStack

theorem takeAll_cons (s : ExprStack) (sign : ExprSign) (signs : List ExprSign) :
    s.takeAll (sign :: signs) = (s.take sign).bind fun s => s.takeAll signs := List.foldlM_cons ..

theorem takeAll_append (s : ExprStack) (signs more : List ExprSign) :
    s.takeAll (signs ++ more) = (s.takeAll signs).bind fun s => s.takeAll more := List.foldlM_append ..

theorem takeAll_singleton (s : ExprStack) (sign : ExprSign) : s.takeAll [sign] = s.take sign := by
  rw [takeAll_cons]
  exact Option.bind_fun_some (s.take sign)

end ExprStack

/-- **An expression says what is written**, only simpler, with the same groups. -/
structure Expresses (e : NameExpr) {k : ExprRank} (before : Nat) (w : WrittenExpr k) : Prop where
  simplifies : Simplifies e (w.expr before)
  nests : NestsIn before (before + w.groups) e
  lastGroup_eq : e.lastGroup = (w.expr before).lastGroup

namespace Expresses

variable {n : Nat} {e : NameExpr}

theorem of_iff {k : ExprRank} {w : WrittenExpr k} (h : ∀ {u x v hs}, Takes u e x v hs ↔ Takes u (w.expr n) x v hs)
    (hnests : NestsIn n (n + w.groups) e) (hlast : e.lastGroup = (w.expr n).lastGroup) : Expresses e n w :=
  ⟨.of_iff h, hnests, hlast⟩

theorem group {i : WrittenExpr .choice} {head : GroupHead} (h : Expresses e (n + head.count) i) :
    Expresses (head.expr n e) n (.group head i) := by
  have hmono : NestsIn (n + head.count) (n + (head.count + i.groups)) e := by
    have hnests := h.nests
    rwa [Nat.add_assoc] at hnests
  cases head with
  | captures name =>
    refine ⟨h.simplifies.group (n + 1), ⟨Nat.lt_succ_self n, ?_, hmono⟩, congrArg (max (n + 1)) h.lastGroup_eq⟩
    show n + 1 ≤ n + (1 + i.groups)
    omega
  | holds items => exact ⟨h.simplifies, hmono, h.lastGroup_eq⟩

theorem repeated {p : WrittenExpr (.piece true)} (h : Expresses e n p) (r : Repetition) (greedy : Bool) :
    Expresses (e.repeated r.least r.most greedy) n (.repeated p r greedy) where
  simplifies := NameExpr.simplifies_repeated r.least_le h.simplifies greedy
  nests := ((byParts_nestsIn _ _).repeated_iff r.least_le greedy).2 (.inr h.nests)
  lastGroup_eq := NameExpr.lastGroup_repeated r.least_le h.lastGroup_eq greedy

variable {es : List NameExpr} {repeatable : Bool} {r : WrittenExpr .row} {c : WrittenExpr .choice}
  {p : WrittenExpr (.piece repeatable)}

theorem more (h : Expresses (.row es) n r) (h' : Expresses e (n + r.groups) p) :
    Expresses (.row (es ++ [e])) n (.more r p) where
  simplifies := h.simplifies.row_append h'.simplifies
  nests := by
    refine (byParts_nestsIn _ _).row_append_iff.2 ⟨?_, ?_⟩
    · exact h.nests.mono (Nat.le_refl n) (Nat.add_le_add_left (Nat.le_add_right _ _) n)
    · exact h'.nests.mono (Nat.le_add_right n _) (Nat.le_of_eq (Nat.add_assoc ..))
  lastGroup_eq := by
    rw [NameExpr.lastGroup_row_append, h.lastGroup_eq, h'.lastGroup_eq]
    rfl

theorem only (h : Expresses e n r) : Expresses (.choice [e]) n (.only r) where
  simplifies := h.simplifies.choice_singleton
  nests := (byParts_nestsIn _ _).choice_singleton_iff.2 h.nests
  lastGroup_eq := NameExpr.lastGroup_choice_singleton.trans h.lastGroup_eq

theorem other (hne : es ≠ []) (h : Expresses (.choice es) n c) (h' : Expresses e (n + c.groups) r) :
    Expresses (.choice (es ++ [e])) n (.other c r) where
  simplifies := h.simplifies.choice_append hne h'.simplifies
  nests := by
    refine (byParts_nestsIn _ _).choice_append_iff.2 ⟨?_, ?_⟩
    · exact h.nests.mono (Nat.le_refl n) (Nat.add_le_add_left (Nat.le_add_right _ _) n)
    · exact h'.nests.mono (Nat.le_add_right n _) (Nat.le_of_eq (Nat.add_assoc ..))
  lastGroup_eq := by
    rw [NameExpr.lastGroup_choice_append, h.lastGroup_eq, h'.lastGroup_eq]
    rfl

end Expresses

/-- **What is written is read as what it says**: a piece as a part, a row as parts, a choice as the rows of a level.
    They nest as deep. -/
def Reads : {k : ExprRank} → (before : Nat) → WrittenExpr k → Prop
  | .piece repeatable, n, p => ∃ part : ExprPart,
      (∀ level outer, ExprStack.takeAll ⟨level, outer, n⟩ p.signs =
        some ⟨level.push part, outer, n + p.groups⟩) ∧
      part.setsFlags = !repeatable ∧ Expresses part.expr n p ∧ part.depth = p.deepest
  | .row, n, r => ∃ parts : List ExprPart,
      (∀ index rows outer, ExprStack.takeAll ⟨⟨index, rows, []⟩, outer, n⟩ r.signs =
        some ⟨⟨index, rows, parts.reverse⟩, outer, n + r.groups⟩) ∧
      Expresses (ExprPart.row parts).expr n r ∧ Measures parts r.width r.deepest
  | .choice, n, c => ∃ (rows : List (List ExprPart)) (row : List ExprPart),
      (∀ index outer, ExprStack.takeAll ⟨.opened index, outer, n⟩ c.signs =
        some ⟨⟨index, rows, row⟩, outer, n + c.groups⟩) ∧
      Expresses (ExprLevel.contents ⟨none, rows, row⟩).expr n c ∧
      Measures (ExprLevel.sides ⟨none, rows, row⟩) c.width c.deepest

namespace Reads

variable {n : Nat} {repeatable : Bool}

theorem group {i : WrittenExpr .choice} {head : GroupHead} (h : Reads (n + head.count) i) :
    Reads n (.group head i) := by
  obtain ⟨rows, row, hread, hexpresses, hmeasures⟩ := h
  have hclose : ∀ index, (ExprLevel.close ⟨index, rows, row⟩).depth = (WrittenExpr.group head i).deepest :=
    fun index => congrArg (· + 1) hmeasures.joinedDepth
  have hread : ∀ index level outer, ExprStack.takeAll ⟨.opened index, level :: outer, n + head.count⟩
      (i.signs ++ [.closes]) =
        some ⟨level.push (ExprLevel.close ⟨index, rows, row⟩), outer, n + (head.count + i.groups)⟩ := by
    intro index level outer
    rw [ExprStack.takeAll_append, hread, Option.bind_some, ExprStack.takeAll_singleton, Nat.add_assoc]
    rfl
  cases head with
  | captures name => exact ⟨_, fun level outer => hread (some (n + 1)) level outer, rfl, hexpresses.group, hclose _⟩
  | holds items => exact ⟨_, fun level outer => hread none level outer, rfl, hexpresses.group, hclose _⟩

theorem repeated {p : WrittenExpr (.piece true)} (h : Reads n p) (r : Repetition) (greedy : Bool) :
    Reads n (.repeated p r greedy) := by
  obtain ⟨part, hread, hflags, hexpresses, hdepth⟩ := h
  refine ⟨part.inside fun e => e.repeated r.least r.most greedy, fun level outer => ?_, rfl,
    hexpresses.repeated r greedy, congrArg (· + 1) hdepth⟩
  show ExprStack.takeAll _ (p.signs ++ [.repeat r greedy]) = _
  rw [ExprStack.takeAll_append, hread, Option.bind_some, ExprStack.takeAll_singleton]
  simp only [ExprStack.take, ExprLevel.onLast?, ExprLevel.push, hflags]
  rfl

theorem more {r : WrittenExpr .row} {p : WrittenExpr (.piece repeatable)} (hr : Reads n r)
    (hp : Reads (n + r.groups) p) : Reads n (.more r p) := by
  obtain ⟨parts, hread, hexpresses, hmeasures⟩ := hr
  obtain ⟨part, hreadp, -, hexpressesp, hdepth⟩ := hp
  refine ⟨parts ++ [part], fun index rows outer => ?_, ?_, ?_⟩
  · show ExprStack.takeAll _ (r.signs ++ p.signs) = _
    rw [ExprStack.takeAll_append, hread, Option.bind_some, hreadp, List.reverse_append, Nat.add_assoc]
    rfl
  · have hmore := Expresses.more hexpresses hexpressesp
    rw [← List.map_singleton, ← List.map_append] at hmore
    exact hmore
  · have hmore := hmeasures.append part
    rw [hdepth] at hmore
    exact hmore

theorem only {r : WrittenExpr .row} (h : Reads n r) : Reads n (.only r) := by
  obtain ⟨parts, hread, hexpresses, hmeasures⟩ := h
  have hsides : ExprLevel.sides ⟨none, [], parts.reverse⟩ = [.row parts] := by
    unfold ExprLevel.sides
    simp
  refine ⟨[], parts.reverse, fun index outer => hread index [] outer, ?_, ?_⟩
  · unfold ExprLevel.contents
    rw [hsides]
    exact hexpresses.only
  · rw [hsides]
    exact ⟨rfl, (Nat.zero_max _).trans hmeasures.joinedDepth⟩

theorem other {c : WrittenExpr .choice} {r : WrittenExpr .row} (hc : Reads n c) (hr : Reads (n + c.groups) r) :
    Reads n (.other c r) := by
  obtain ⟨rows, row, hread, hexpresses, hmeasures⟩ := hc
  obtain ⟨parts, hreadr, hexpressesr, hmeasuresr⟩ := hr
  have hsides : ExprLevel.sides ⟨none, row :: rows, parts.reverse⟩ =
      ExprLevel.sides ⟨none, rows, row⟩ ++ [.row parts] := by
    unfold ExprLevel.sides
    simp
  refine ⟨row :: rows, parts.reverse, fun index outer => ?_, ?_, ?_⟩
  · show ExprStack.takeAll _ (c.signs ++ .choice :: r.signs) = _
    rw [ExprStack.takeAll_append, hread, Option.bind_some, ExprStack.takeAll_cons]
    refine (hreadr index (row :: rows) outer).trans ?_
    rw [Nat.add_assoc]
    rfl
  · have hne : (ExprLevel.sides ⟨none, rows, row⟩).map (·.expr) ≠ [] := by simp [ExprLevel.sides]
    have hother := Expresses.other hne hexpresses hexpressesr
    rw [← List.map_singleton, ← List.map_append, ← hsides] at hother
    exact hother
  · have hother := hmeasures.append (.row parts)
    have hdepth : (ExprPart.row parts).depth = if r.width < 2 then r.deepest else r.deepest + 1 :=
      hmeasuresr.joinedDepth
    rw [hdepth, ← hsides] at hother
    exact hother

end Reads

/-- **Everything that is written is read so.** -/
theorem reads {k : ExprRank} (w : WrittenExpr k) (n : Nat) : Reads n w := by
  induction w generalizing n with
  | set s depth =>
    refine ⟨.of (.ofSet s) depth, fun level outer => rfl, rfl, .of_iff ?_ ?_ ?_, rfl⟩
    · exact NameExpr.takes_ofSet.trans takes_oneOf_iff.symm
    · exact (byParts_nestsIn _ _).ofSet s
    · exact Nat.le_zero.1 ((byParts_lastGroup_le 0).ofSet s)
  | place t => exact ⟨.of (.place t) 0, fun level outer => rfl, rfl, .of_iff .rfl trivial rfl, rfl⟩
  | group head i ih => exact (ih (n + head.count)).group
  | repeated p r greedy ih => exact (ih n).repeated r greedy
  | flags items => exact ⟨.flags, fun level outer => rfl, rfl, .of_iff .rfl trivial rfl, rfl⟩
  | empty => exact ⟨[], fun index rows outer => rfl, .of_iff .rfl trivial rfl, rfl, rfl⟩
  | more r p ihr ihp => exact (ihr n).more (ihp (n + r.groups))
  | only r ih => exact (ih n).only
  | other c r ihc ihr => exact (ihc n).other (ihr (n + c.groups))

/-! ## 4. What is read can be written -/

/-- An open choice as it is written: the choice before the row in hand, if there is any, and that row. -/
structure OpenChoice where
  before : Option (WrittenExpr .choice)
  row : WrittenExpr .row

/-- Which pieces of a row can be repeated, the last piece first. -/
def WrittenExpr.repeatables : {k : ExprRank} → WrittenExpr k → List Bool
  | _, @more repeatable r _ => repeatable :: r.repeatables
  | _, _ => []

namespace OpenChoice

/-- Nothing is written. -/
def opened : OpenChoice := ⟨none, .empty⟩

/-- Everything that is written. -/
def contents (l : OpenChoice) : WrittenExpr .choice :=
  match l.before with
  | none => .only l.row
  | some c => .other c l.row

/-- One more piece at the end of the row in hand. -/
def push {repeatable : Bool} (l : OpenChoice) (p : WrittenExpr (.piece repeatable)) : OpenChoice :=
  { l with row := .more l.row p }

/-- The row in hand is complete. -/
def choose (l : OpenChoice) : OpenChoice := ⟨some l.contents, .empty⟩

/-- The signs that are written in a choice and in those around it, each of which has opened the one before it. -/
def soFar : OpenChoice → List (OpenChoice × GroupHead) → List ExprSign
  | l, [] => l.contents.signs
  | l, (l', head) :: ls => soFar l' ls ++ head.sign :: l.contents.signs

variable {l l' : OpenChoice} {ls : List (OpenChoice × GroupHead)} {signs : List ExprSign}

/-- What is written at the end of the choice in hand is written at the end of all. -/
theorem soFar_of_signs (h : l'.contents.signs = l.contents.signs ++ signs) : soFar l' ls = soFar l ls ++ signs := by
  cases ls with
  | nil => exact h
  | cons l₀ ls =>
    show soFar l₀.1 ls ++ l₀.2.sign :: l'.contents.signs = _
    rw [h]
    simp only [soFar, List.append_assoc, List.cons_append]

theorem signs_contents_push {repeatable : Bool} (l : OpenChoice) (p : WrittenExpr (.piece repeatable)) :
    (l.push p).contents.signs = l.contents.signs ++ p.signs := by
  obtain ⟨before, row⟩ := l
  cases before with
  | none => rfl
  | some c =>
    show c.signs ++ .choice :: (row.signs ++ p.signs) = c.signs ++ .choice :: row.signs ++ p.signs
    rw [List.append_assoc, List.cons_append]

theorem soFar_push {repeatable : Bool} (p : WrittenExpr (.piece repeatable)) :
    soFar (l.push p) ls = soFar l ls ++ p.signs := soFar_of_signs (l.signs_contents_push p)

/-- A choice is written as a level is read: as many pieces are in hand, and the same of them can be repeated. -/
def Writes (l : OpenChoice) (level : ExprLevel) : Prop := l.row.repeatables = level.row.map fun p => !p.setsFlags

end OpenChoice

/-- Open choices are written as a stack is read. -/
def WritesStack (l : OpenChoice) (ls : List (OpenChoice × GroupHead)) (s : ExprStack) : Prop :=
  l.Writes s.level ∧ List.Forall₂ (fun l level => l.1.Writes level) ls s.outer

namespace WritesStack

open OpenChoice

variable {l : OpenChoice} {ls : List (OpenChoice × GroupHead)} {s s' : ExprStack} {signs : List ExprSign}

theorem push {repeatable : Bool} (h : WritesStack l ls s) (p : WrittenExpr (.piece repeatable)) {part : ExprPart}
    (hpart : part.setsFlags = !repeatable) : WritesStack (l.push p) ls { s with level := s.level.push part } := by
  refine ⟨?_, h.2⟩
  show repeatable :: l.row.repeatables = (!part.setsFlags) :: _
  rw [h.1, hpart, Bool.not_not]

/-- A repetition is written behind a piece that can be repeated, which there is if it is read. -/
theorem repeated (h : WritesStack l ls s) {f : NameExpr → NameExpr} {level : ExprLevel}
    (hread : s.level.onLast? f = some level) (r : Repetition) (greedy : Bool) :
    ∃ l', WritesStack l' ls { s with level } ∧ soFar l' ls = soFar l ls ++ [.repeat r greedy] := by
  unfold ExprLevel.onLast? at hread
  split at hread
  · cases hread
  · next part parts hrow =>
    split at hread
    · cases hread
    · next hflags =>
      obtain rfl := Option.some.inj hread
      have hwrites := h.1
      unfold Writes at hwrites
      rw [hrow, List.map_cons, Bool.eq_false_iff.2 hflags] at hwrites
      obtain ⟨before, row⟩ := l
      cases row with
      | empty => cases hwrites
      | @more repeatable row p =>
        obtain ⟨rfl, hrest⟩ := List.cons.inj hwrites
        have hpush : ∀ p' : WrittenExpr (.piece true),
            soFar ⟨before, .more row p'⟩ ls = soFar ⟨before, row⟩ ls ++ p'.signs := fun p' =>
          soFar_push (l := ⟨before, row⟩) p'
        refine ⟨⟨before, .more row (.repeated p r greedy)⟩, ⟨congrArg (true :: ·) hrest, h.2⟩, ?_⟩
        rw [hpush, hpush, List.append_assoc]
        rfl

/-- **One more sign is written** as it is read. -/
theorem exists_of_take (h : WritesStack l ls s) {sign : ExprSign} (hread : s.take sign = some s') :
    ∃ l' ls', WritesStack l' ls' s' ∧ soFar l' ls' = soFar l ls ++ [sign] := by
  have hopens : ∀ {level groups} (head : GroupHead), level.row = [] →
      ∃ l' ls', WritesStack l' ls' ⟨level, s.level :: s.outer, groups⟩ ∧
        soFar l' ls' = soFar l ls ++ [head.sign] := by
    intro level groups head hrow
    refine ⟨.opened, (l, head) :: ls, ⟨?_, .cons h.1 h.2⟩, rfl⟩
    show [] = level.row.map _
    rw [hrow]
    rfl
  cases sign with
  | set cs depth =>
    obtain rfl := Option.some.inj hread
    exact ⟨l.push (.set cs depth), ls, h.push _ rfl, soFar_push _⟩
  | place t =>
    obtain rfl := Option.some.inj hread
    exact ⟨l.push (.place t), ls, h.push _ rfl, soFar_push _⟩
  | «repeat» r greedy =>
    obtain ⟨level, hlevel, rfl⟩ := Option.map_eq_some_iff.1 hread
    obtain ⟨l', hwrites, hsoFar⟩ := h.repeated hlevel r greedy
    exact ⟨l', ls, hwrites, hsoFar⟩
  | choice =>
    obtain rfl := Option.some.inj hread
    exact ⟨l.choose, ls, ⟨rfl, h.2⟩, soFar_of_signs rfl⟩
  | captures name =>
    obtain rfl := Option.some.inj hread
    exact hopens (.captures name) rfl
  | holds items =>
    obtain rfl := Option.some.inj hread
    exact hopens (.holds items) rfl
  | closes =>
    obtain ⟨level, outer, groups⟩ := s
    cases outer with
    | nil => cases hread
    | cons level' outer =>
      obtain rfl := Option.some.inj hread
      obtain ⟨hwrites, houter⟩ := h
      cases houter with
      | @cons l' _ ls _ hwrites' houter =>
        have hbelow : WritesStack l'.1 ls ⟨level', outer, groups⟩ := ⟨hwrites', houter⟩
        refine ⟨l'.1.push (.group l'.2 l.contents), ls, hbelow.push _ rfl, ?_⟩
        rw [soFar_push]
        simp [soFar, WrittenExpr.signs]
  | sets items =>
    obtain rfl := Option.some.inj hread
    exact ⟨l.push (.flags items), ls, h.push _ rfl, soFar_push _⟩

theorem exists_of_takeAll (h : WritesStack l ls s) (hread : s.takeAll signs = some s') :
    ∃ l' ls', WritesStack l' ls' s' ∧ soFar l' ls' = soFar l ls ++ signs := by
  induction signs generalizing l ls s with
  | nil =>
    obtain rfl := Option.some.inj hread
    exact ⟨l, ls, h, (List.append_nil _).symm⟩
  | cons sign signs ih =>
    rw [ExprStack.takeAll_cons] at hread
    obtain ⟨s₁, hfirst, hrest⟩ := Option.bind_eq_some_iff.1 hread
    obtain ⟨l₁, ls₁, hwrites, hsoFar⟩ := h.exists_of_take hfirst
    obtain ⟨l', ls', hwrites, hsoFar'⟩ := ih hwrites hrest
    refine ⟨l', ls', hwrites, ?_⟩
    rw [hsoFar', hsoFar, List.append_assoc, List.singleton_append]

end WritesStack

/-- **A choice that is written is read on its own**, as what it says and as deep. -/
theorem WrittenExpr.exists_readSigns? (w : WrittenExpr .choice) :
    ∃ part, readSigns? w.signs = some part ∧ part.depth = w.levels ∧ Expresses part.expr 0 w := by
  obtain ⟨rows, row, hread, hexpresses, hmeasures⟩ := reads w 0
  refine ⟨ExprLevel.contents ⟨none, rows, row⟩, ?_, hmeasures.joinedDepth, hexpresses⟩
  unfold readSigns? ExprStack.start
  rw [hread]
  rfl

/-- **Just the signs of what can be written are read.** -/
theorem isSome_readSigns?_iff {signs : List ExprSign} :
    (readSigns? signs).isSome = true ↔ ∃ w : WrittenExpr .choice, w.signs = signs := by
  constructor
  · intro h
    obtain ⟨part, hpart⟩ := Option.isSome_iff_exists.1 h
    obtain ⟨s, hs, hpart⟩ := Option.bind_eq_some_iff.1 hpart
    have hstart : WritesStack .opened [] ExprStack.start := ⟨rfl, .nil⟩
    obtain ⟨l, ls, hwrites, hsoFar⟩ := hstart.exists_of_takeAll hs
    split at hpart
    · next houter =>
      have hls := hwrites.2
      rw [List.isEmpty_iff.1 houter, List.forall₂_nil_right_iff] at hls
      subst hls
      exact ⟨l.contents, hsoFar⟩
    · cases hpart
  · rintro ⟨w, rfl⟩
    obtain ⟨part, hpart, -⟩ := w.exists_readSigns?
    rw [hpart]
    rfl

end RecordExport

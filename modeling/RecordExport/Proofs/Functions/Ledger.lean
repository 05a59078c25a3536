import RecordExport.Proofs.Render.Course
/-!
# The ledger of derived functions

Whoever asks for the functions of a dialog, an event or a snippet gets those that are kept, or else they are
derived and kept then, or else they cannot be had. An observer who keeps a LEDGER enters each of these events,
with all that is kept right after it.

* `LedgerEntry.Enters`: what can be entered while some functions are kept, and what is kept then;
* `Ledger.Kept`: a ledger that was written entry by entry since nothing was kept;
* `Ledger.Kept.consistent`: in such a ledger functions are stored once under a key and never again, and
  whoever asks for them later gets what was stored;
* `Observer.clerk`: the observer who keeps the ledger of a render, which changes nothing
  (`Engine.renderEntered_fst`).
-/

namespace RecordExport

variable {ω : Type}

/-! ## 1. Ledgers -/

/-- What became of the functions of a key when they were asked for. -/
inductive FunctionEvent where
  /-- those kept were given, and nobody was asked -/
  | known (fs : List ScriptFunction)
  /-- they were derived and kept -/
  | derived (fs : List ScriptFunction)
  /-- they could not be had -/
  | failed (e : ServiceError)
  deriving DecidableEq, Repr

/-- An event under a scope and an id, and what is kept right after it. -/
structure LedgerEntry where
  scope : MemoScope
  id : String
  event : FunctionEvent
  memo : FunctionMemo
  deriving DecidableEq, Repr

/-- The events so far, the latest last. -/
abbrev Ledger := List LedgerEntry

/-- What an entry stores under a scope and an id. -/
def LedgerEntry.stores? (scope : MemoScope) (id : String) (x : LedgerEntry) :
    Option (List ScriptFunction) :=
  match x.event with
  | .derived fs => if (x.scope, x.id) = (scope, id) then some fs else none
  | _ => none

/-- All that was ever stored under a scope and an id. -/
def Ledger.stored (scope : MemoScope) (id : String) (L : Ledger) : List (List ScriptFunction) :=
  L.filterMap (·.stores? scope id)

/-- **What can be entered while some functions are kept.** -/
inductive LedgerEntry.Enters (m : FunctionMemo) : LedgerEntry → Prop where
  | known {scope id fs} (h : m.get? scope id = some fs) : Enters m ⟨scope, id, .known fs, m⟩
  | derived {scope id} (fs) (h : m.get? scope id = none) :
      Enters m ⟨scope, id, .derived fs, m.insert scope id fs⟩
  | failed {scope id} (e) (h : m.get? scope id = none) : Enters m ⟨scope, id, .failed e, m⟩

/-- A ledger that was written entry by entry, and what is kept in the end. -/
inductive Ledger.Kept : Ledger → FunctionMemo → Prop where
  | start : Kept [] .empty
  | entry {L m x} (h : Kept L m) (hx : x.Enters m) : Kept (L ++ [x]) x.memo

/-- **Functions are derived once.** -/
structure Ledger.Consistent (L : Ledger) : Prop where
  /-- at most one list is ever stored under a key -/
  once : ∀ scope id, (L.stored scope id).length ≤ 1
  /-- at any time what is kept under a key is what was stored there, from the first entry on -/
  memo : ∀ before x after, L = before ++ x :: after → ∀ scope id,
    Ledger.stored scope id (before ++ [x]) = (x.memo.get? scope id).toList
  /-- once something was stored, whoever asks for it gets it and nothing is derived any more -/
  settled : ∀ before x after fs, L = before ++ x :: after → fs ∈ Ledger.stored x.scope x.id before →
    x.event = .known fs
  /-- nothing else is given as known -/
  known : ∀ before x after fs, L = before ++ x :: after → x.event = .known fs →
    fs ∈ Ledger.stored x.scope x.id before
  /-- where a derivation fails nothing is stored, before or after it -/
  failed : ∀ before x after e, L = before ++ x :: after → x.event = .failed e →
    Ledger.stored x.scope x.id (before ++ [x]) = []

namespace Ledger

theorem stored_concat (scope : MemoScope) (id : String) (L : Ledger) (x : LedgerEntry) :
    Ledger.stored scope id (L ++ [x]) = L.stored scope id ++ (x.stores? scope id).toList :=
  filterMap_concat _ L x

/-- What an entry stores is kept then, and all else as before. -/
theorem get?_of_enters {m : FunctionMemo} {x : LedgerEntry} (hx : x.Enters m) (scope : MemoScope)
    (id : String) :
    (x.memo.get? scope id).toList = (m.get? scope id).toList ++ (x.stores? scope id).toList := by
  cases hx with
  | known h => exact (List.append_nil _).symm
  | failed e h => exact (List.append_nil _).symm
  | @derived scope' id' fs h =>
    rw [FunctionMemo.get?_insert]
    show _ = _ ++ Option.toList (if (scope', id') = (scope, id) then some fs else none)
    by_cases hkey : (scope, id) = (scope', id')
    · obtain ⟨rfl, rfl⟩ := Prod.mk.inj hkey
      rw [if_pos rfl, if_pos rfl, h]
      rfl
    · rw [if_neg hkey, if_neg fun h => hkey h.symm]
      exact (List.append_nil _).symm

/-- **What is kept is what was stored.** -/
theorem Kept.stored_eq {L : Ledger} {m : FunctionMemo} (h : Kept L m) (scope : MemoScope) (id : String) :
    L.stored scope id = (m.get? scope id).toList := by
  induction h with
  | start => rfl
  | entry h hx ih => rw [stored_concat, ih, get?_of_enters hx]

/-- Every entry was entered while something was kept. -/
theorem Kept.split {L : Ledger} {m : FunctionMemo} (h : Kept L m) {before after : Ledger} {x : LedgerEntry}
    (hL : L = before ++ x :: after) : ∃ m₁, Kept before m₁ ∧ x.Enters m₁ := by
  induction h generalizing before x after with
  | start => cases before <;> cases hL
  | @entry L m y h hy ih =>
    obtain rfl | ⟨after, z, rfl⟩ := List.eq_nil_or_concat after
    · obtain ⟨rfl, hxy⟩ := List.append_inj' hL rfl
      obtain rfl : y = x := List.singleton_inj.1 hxy
      exact ⟨m, h, hy⟩
    · rw [List.concat_eq_append, ← List.cons_append, ← List.append_assoc] at hL
      obtain ⟨rfl, -⟩ := List.append_inj' hL rfl
      exact ih rfl

/-- **In a ledger that was written entry by entry functions are derived once.** -/
theorem Kept.consistent {L : Ledger} {m : FunctionMemo} (h : Kept L m) : L.Consistent where
  once scope id := by
    rw [h.stored_eq]
    cases m.get? scope id <;> simp
  memo before x after hL scope id := by
    obtain ⟨m₁, hbefore, hx⟩ := h.split hL
    exact (hbefore.entry hx).stored_eq scope id
  settled before x after fs hL hfs := by
    obtain ⟨m₁, hbefore, hx⟩ := h.split hL
    rw [hbefore.stored_eq, Option.mem_toList] at hfs
    cases hx with
    | known h =>
      obtain rfl := Option.some.inj (h.symm.trans hfs)
      rfl
    | derived fs' h => cases h.symm.trans hfs
    | failed e h => cases h.symm.trans hfs
  known before x after fs hL hevent := by
    obtain ⟨m₁, hbefore, hx⟩ := h.split hL
    rw [hbefore.stored_eq, Option.mem_toList]
    cases hx with
    | known h =>
      cases hevent
      exact h
    | derived fs' h => cases hevent
    | failed e h => cases hevent
  failed before x after e hL hevent := by
    obtain ⟨m₁, hbefore, hx⟩ := h.split hL
    rw [(hbefore.entry hx).stored_eq]
    cases hx with
    | known h => cases hevent
    | derived fs' h => cases hevent
    | failed e' h => exact congrArg Option.toList h

end Ledger

/-! ## 2. Renders with a ledger -/

/-- What is at hand of the observer who keeps a ledger. -/
structure OpenLedger where
  /-- what was given for functions that were called for and are not answered yet -/
  given : Option (Except ServiceError (List ScriptFunction))
  ledger : Ledger

namespace OpenLedger

/-- A ledger nothing was entered in. -/
def empty : OpenLedger := ⟨none, []⟩

/-- What became of functions that are answered: they were kept, unless they were called for. -/
def event (fs : List ScriptFunction) (a : OpenLedger) : FunctionEvent :=
  match a.given with
  | none => .known fs
  | some (.ok fs) => .derived fs
  | some (.error e) => .failed e

/-- An event is entered. -/
def enter (x : LedgerEntry) (a : OpenLedger) : OpenLedger := ⟨none, a.ledger ++ [x]⟩

end OpenLedger

/-- A world with a ledger beside it. -/
abbrev WithLedger (ω : Type) := ω × OpenLedger

/-- **The observer who keeps the ledger.** A call is not told under which key its functions are kept, so what
    became of them is entered as they are answered. -/
def Observer.clerk : Observer OpenLedger where
  called
    | .functions _ _ result, _, a => { a with given := some result }
    | _, _, a => a
  happens
    | _, memo, .answered (.functions scope id _ _) fs, a => a.enter ⟨scope, id, a.event fs, memo⟩
    | _, memo, .answered (.recall scope id) (some fs), a => a.enter ⟨scope, id, .known fs, memo⟩
    | _, memo, .answered (.keep scope id fs) _, a => a.enter ⟨scope, id, .derived fs, memo⟩
    | _, _, _, a => a

namespace Engine

/-- The engine in a world beside which a ledger is kept. -/
abbrev withLedger (e : Engine ω) : Engine (WithLedger ω) := e.journaling .clerk

/-- An answer of it, once it was seen. -/
abbrev answerEntered (e : Engine ω) (nested : NestedRender (WithLedger ω)) (depth : Nat) (o : RenderOp) :
    SessionM (WithLedger ω) o.Answer := e.withLedger.answerSeen Observer.clerk.beside nested depth o

/-- Its nested renders. -/
abbrev nestedEntered (e : Engine ω) (left : Nat) : NestedRender (WithLedger ω) :=
  e.withLedger.nestedSeen Observer.clerk.beside left

/-- **Render a template with a ledger**, which is empty in the beginning. -/
def renderEntered (e : Engine ω) (kind : ArtifactKind) (c : RenderContext) (t : Text) (w : ω)
    (cancelled : Bool) : Except RenderError RenderOutput × (ω × Ledger) :=
  let seen := e.journal .clerk .empty kind c t w cancelled
  (seen.1, seen.2.1, seen.2.2.ledger)

/-- **A render with a ledger is the render itself.** -/
theorem renderEntered_fst (e : Engine ω) (kind : ArtifactKind) (c : RenderContext) (t : Text) (w : ω)
    (cancelled : Bool) :
    ((e.renderEntered kind c t w cancelled).1, (e.renderEntered kind c t w cancelled).2.1) =
      e.render kind c t w cancelled := e.journal_fst .clerk .empty kind c t w cancelled

end Engine
end RecordExport

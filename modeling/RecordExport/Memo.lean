import RecordExport.Record.Object
/-!
# Functions derived in a render

Splitting a dialog or a script gives functions that several placeholders name. Within one render
they are derived once and kept under what they were derived from, so all placeholders agree.
-/

namespace RecordExport

/-- Entries of one key left out of a list of keys and values. -/
theorem lookup_filter_ne {α β : Type} [BEq α] [LawfulBEq α] [DecidableEq α] (l : List (α × β))
    (k k' : α) :
    (l.filter (·.1 ≠ k)).lookup k' = if k' = k then none else l.lookup k' := by
  induction l with
  | nil => simp
  | cons entry l ih =>
    obtain ⟨a, b⟩ := entry
    by_cases ha : a = k
    · subst ha
      rw [List.filter_cons_of_neg (by simp), ih]
      by_cases h : k' = a
      · rw [if_pos h, if_pos h]
      · rw [if_neg h, if_neg h, List.lookup_cons, beq_false_of_ne h]
    · rw [List.filter_cons_of_pos (by simp [ha]), List.lookup_cons, List.lookup_cons, ih]
      by_cases h : k' = a
      · subst h
        simp [ha]
      · rw [beq_false_of_ne h]

/-- What functions were derived from. -/
inductive MemoScope where
  | dialog
  | event
  | snippet
  deriving DecidableEq, Repr

/-- The functions derived so far. -/
structure FunctionMemo where
  entries : List ((MemoScope × String) × List ScriptFunction)
  deriving DecidableEq, Repr

namespace FunctionMemo

/-- Nothing derived yet. -/
def empty : FunctionMemo := ⟨[]⟩

/-- What was derived under a scope and an id. -/
def get? (m : FunctionMemo) (scope : MemoScope) (id : String) : Option (List ScriptFunction) :=
  m.entries.lookup (scope, id)

/-- Keep functions under a scope and an id, in the place of what was kept there. -/
def insert (m : FunctionMemo) (scope : MemoScope) (id : String) (fs : List ScriptFunction) :
    FunctionMemo :=
  ⟨m.entries.filter (·.1 ≠ (scope, id)) ++ [((scope, id), fs)]⟩

/-- How many derivations are kept. -/
def size (m : FunctionMemo) : Nat := m.entries.length

/-- What is kept is found under its scope and id, and all else as before. -/
theorem get?_insert (m : FunctionMemo) (scope scope' : MemoScope) (id id' : String)
    (fs : List ScriptFunction) :
    (m.insert scope id fs).get? scope' id' =
      if (scope', id') = (scope, id) then some fs else m.get? scope' id' := by
  unfold insert get?
  rw [List.lookup_append, lookup_filter_ne]
  generalize (scope', id') = k'
  by_cases h : k' = (scope, id)
  · rw [if_pos h, if_pos h, h, List.lookup_cons, beq_self_eq_true]
    rfl
  · rw [if_neg h, if_neg h, List.lookup_cons, beq_false_of_ne h]
    exact Option.or_none

end FunctionMemo
end RecordExport

/-!
# Diagnostics

A render does not stop at a missing attribute or an unused snippet. Each problem becomes an entry of
a log, together with the labels of the renders it happened in, outermost first; the caller decides
what to do with the entries once the text is there.

* entries are only ever appended;
* `enter` goes under a label and answers a scope, `leave` goes back to where the scope was taken,
  whatever was entered in between;
* `merge` appends the entries of a nested log under the labels active here.
-/

namespace RecordExport

/-! ## 1. Entries -/

/-- What kind of problem an entry reports. -/
inductive DiagnosticKind where
  /-- a name or id that nothing answers to -/
  | missingReference
  /-- something supplied that no placeholder used -/
  | unusedInput
  /-- unpaired markers, a placeholder cut short, a render that cannot go on -/
  | malformedTemplate
  /-- a collaborator that failed -/
  | serviceFailure
  deriving DecidableEq, Repr

namespace DiagnosticKind

/-- Every kind, in the order counts are given in. -/
def all : List DiagnosticKind :=
  [.missingReference, .unusedInput, .malformedTemplate, .serviceFailure]

/-- The kind in words. -/
def words : DiagnosticKind → String
  | .missingReference => "missing reference"
  | .unusedInput => "unused input"
  | .malformedTemplate => "malformed template"
  | .serviceFailure => "upstream failure"

/-- The kind as a tag. -/
def tag : DiagnosticKind → String
  | .missingReference => "missing-reference"
  | .unusedInput => "unused-input"
  | .malformedTemplate => "malformed-template"
  | .serviceFailure => "upstream-failure"

end DiagnosticKind

/-- One problem. -/
structure Diagnostic where
  breadcrumb : List String
  kind : DiagnosticKind
  detail : String
  deriving DecidableEq, Repr

/-- The entry as one line of words. -/
def Diagnostic.message (d : Diagnostic) : String :=
  let body := d.kind.words ++ ": " ++ d.detail
  if d.breadcrumb.isEmpty then body
  else "[" ++ String.intercalate " > " d.breadcrumb ++ "] " ++ body

/-- The entry with further labels outside its own. -/
def Diagnostic.under (labels : List String) (d : Diagnostic) : Diagnostic :=
  { d with breadcrumb := labels ++ d.breadcrumb }

/-! ## 2. The log -/

/-- Entries so far, and the labels active now. -/
structure DiagnosticLog where
  entries : List Diagnostic
  breadcrumb : List String
  deriving DecidableEq, Repr

/-- How many labels were active when a label was entered. -/
structure LogScope where
  depth : Nat
  deriving DecidableEq, Repr

/-- What is written in the text for a reference that could not be resolved. -/
def missingMarker (subject field : String) : String :=
  "<<" ++ subject ++ "[" ++ field ++ "] MISSING>>"

namespace DiagnosticLog

/-- No entries, no labels. -/
def empty : DiagnosticLog := ⟨[], []⟩

/-- Go under a label. -/
def enter (label : String) (l : DiagnosticLog) : LogScope × DiagnosticLog :=
  (⟨l.breadcrumb.length⟩, { l with breadcrumb := l.breadcrumb ++ [label] })

/-- Go back to where a scope was taken. -/
def leave (s : LogScope) (l : DiagnosticLog) : DiagnosticLog :=
  { l with breadcrumb := l.breadcrumb.take s.depth }

/-- Append an entry under the active labels. -/
def record (kind : DiagnosticKind) (detail : String) (l : DiagnosticLog) : DiagnosticLog :=
  { l with entries := l.entries ++ [⟨l.breadcrumb, kind, detail⟩] }

/-- What the log says about a subject that lacks a field. -/
def missingDetail (subject field : String) : String :=
  subject ++ " has no field '" ++ field ++ "'"

/-- Append the entry of a field that a subject lacks. -/
def missing (subject field : String) (l : DiagnosticLog) : DiagnosticLog :=
  l.record .missingReference (missingDetail subject field)

/-- Append the entries of a nested log under the active labels. -/
def merge (l nested : DiagnosticLog) : DiagnosticLog :=
  { l with entries := l.entries ++ nested.entries.map (·.under l.breadcrumb) }

/-- Append the entries of a nested log under the active labels and one more, if it has one. -/
def mergeUnder (l : DiagnosticLog) (label : Option String) (nested : DiagnosticLog) :
    DiagnosticLog :=
  match label with
  | some label =>
    let (scope, l) := l.enter label
    (l.merge nested).leave scope
  | none => l.merge nested

/-- How many entries are of a kind. -/
def count (kind : DiagnosticKind) (l : DiagnosticLog) : Nat :=
  l.entries.countP (·.kind = kind)

/-! ## 3. What the operations leave alone -/

/-- Leaving a scope just taken restores the labels, whatever was entered below it. -/
theorem breadcrumb_leave_enter (label : String) (l m : DiagnosticLog) (below : List String)
    (h : m.breadcrumb = (l.enter label).2.breadcrumb ++ below) :
    (m.leave (l.enter label).1).breadcrumb = l.breadcrumb := by
  simp [leave, h, enter]

@[simp] theorem breadcrumb_mergeUnder (label : Option String) (nested l : DiagnosticLog) :
    (l.mergeUnder label nested).breadcrumb = l.breadcrumb := by
  cases label <;> simp [mergeUnder, enter, leave, merge]

end DiagnosticLog
end RecordExport

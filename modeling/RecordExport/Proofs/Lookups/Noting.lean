import RecordExport.Proofs.Render.Course
/-!
# Lookups that fail

A render LOOKS UP language keys and the functions of scripts. Where a lookup fails the render goes on
without what it asked for and reports the failure. An observer NOTES every lookup that failed, together
with the labels it failed under: those of the render itself and those of all renders it is nested in.

* `FailedLookup`: a lookup that failed, and the entry that stands in the log for it;
* `Observer.noter`: the observer who notes the lookups that fail, of keys and of some scripts;
* `Engine.renderNoting`: a render with the notes that were made of it. It is the render itself
  (`Engine.renderNoting_fst`), so the notes tell what failed in that one.
-/

namespace RecordExport

variable {ω : Type}

/-! ## 1. Notes -/

/-- A lookup that failed, and the labels it failed under. -/
structure FailedLookup where
  breadcrumb : List String
  error : ServiceError
  deriving DecidableEq, Repr

namespace FailedLookup

/-- The entry that reports it. -/
def diagnostic (f : FailedLookup) : Diagnostic :=
  ⟨f.breadcrumb, (RenderError.service f.error).diagnosticKind, (RenderError.service f.error).message⟩

/-- The lookup with further labels outside its own. -/
def under (labels : List String) (f : FailedLookup) : FailedLookup :=
  { f with breadcrumb := labels ++ f.breadcrumb }

theorem under_under (labels inner : List String) (f : FailedLookup) :
    (f.under inner).under labels = f.under (labels ++ inner) := by
  unfold under
  dsimp only
  rw [List.append_assoc]

end FailedLookup

/-- What is at hand of the observer who notes failed lookups. -/
structure Notebook where
  /-- the labels active in each nested render that goes on, the innermost first -/
  inside : List (List String)
  /-- a lookup that failed and was not answered yet -/
  failed : Option ServiceError
  /-- the lookups that failed, the latest last -/
  notes : List FailedLookup

namespace Notebook

/-- A notebook nothing was written in. -/
def empty : Notebook := ⟨[], none, []⟩

/-- The labels outside the log of the present render. -/
def outer (inside : List (List String)) : List String := inside.headD []

/-- A lookup that failed under labels of the present render is noted. -/
def add (labels : List String) (e : ServiceError) (n : Notebook) : Notebook :=
  { n with failed := none, notes := n.notes ++ [⟨outer n.inside ++ labels, e⟩] }

/-- What failed is noted, if something did. -/
def settle (labels : List String) (n : Notebook) : Notebook :=
  match n.failed with
  | none => n
  | some e => n.add labels e

theorem settle_of_none {n : Notebook} (h : n.failed = none) (labels : List String) :
    n.settle labels = n := by
  unfold settle
  rw [h]

end Notebook

/-- A world with a notebook beside it. -/
abbrev WithNotes (ω : Type) := ω × Notebook

/-! ## 2. Noting -/

/-- **The observer who notes the lookups that fail**: those of keys, and those of the scripts that are said
    to. A call is not told the labels it is made under, so a failure is noted as it is answered. -/
def Observer.noter (fails : String → Script → Bool) : Observer Notebook where
  called
    | .languageKey _ (.error e), _, n => { n with failed := some e }
    | .functions owner script (.error e), _, n =>
      if fails owner script then { n with failed := some e } else n
    | _, _, n => n
  happens
    | labels, _, .begins r, n =>
      { n with inside := (Notebook.outer n.inside ++ labels ++ r.label.toList) :: n.inside }
    | _, _, .ends, n => { n with inside := n.inside.tail }
    | labels, _, .answered _ _, n => n.settle labels
    | _, _, _, n => n

namespace Engine

/-- The engine in a world beside which failed lookups are noted. -/
abbrev noting (e : Engine ω) (fails : String → Script → Bool) : Engine (WithNotes ω) :=
  e.journaling (.noter fails)

/-- **Render a template and note the lookups that fail.** -/
def renderNoting (e : Engine ω) (fails : String → Script → Bool) (kind : ArtifactKind)
    (c : RenderContext) (t : Text) (w : ω) (cancelled : Bool) :
    Except RenderError RenderOutput × (ω × List FailedLookup) :=
  let seen := e.journal (.noter fails) .empty kind c t w cancelled
  (seen.1, seen.2.1, seen.2.2.notes)

theorem renderNoting_eq (e : Engine ω) (fails : String → Script → Bool) (kind : ArtifactKind)
    (c : RenderContext) (t : Text) (w : ω) (cancelled : Bool) :
    e.renderNoting fails kind c t w cancelled =
      let see : Observer (WithNotes ω) := (Observer.noter fails).beside
      let answer := (e.noting fails).answerSeen see ((e.noting fails).nestedSeen see e.maxDepth) 0
      let s := (e.noting fails).passWith answer kind c t (Session.start (w, .empty) cancelled)
      (s.1.map fun t => ⟨t, s.2.log.entries⟩, s.2.world.1, s.2.world.2.notes) := by
  unfold renderNoting journal
  rw [renderSeen_eq, passSeen_of_skips fun _ _ _ _ _ _ => rfl]
  rfl

/-- **A noting render is the render itself.** -/
theorem renderNoting_fst (e : Engine ω) (fails : String → Script → Bool) (kind : ArtifactKind)
    (c : RenderContext) (t : Text) (w : ω) (cancelled : Bool) :
    ((e.renderNoting fails kind c t w cancelled).1, (e.renderNoting fails kind c t w cancelled).2.1)
      = e.render kind c t w cancelled := e.journal_fst (.noter fails) .empty kind c t w cancelled

/-! ## 3. What is noted -/

open SessionM

section Answers

variable {e : Engine ω} {fails : String → Script → Bool} {s : Session (WithNotes ω)}

/-- What was answered leaves the notebook alone where nothing failed. -/
theorem seen_of_settled (hs : s.world.2.failed = none) (o : RenderOp) (a : o.Answer) :
    s.seen (Observer.noter fails).beside (.answered o a) = s := by
  show { s with world := (s.world.1, s.world.2.settle _) } = s
  rw [Notebook.settle_of_none hs]

section Keys

variable {nested : NestedRender (WithNotes ω)} {depth : Nat} {r : KeyRequest}

theorem key_of_cancelled (hs : s.cancelled = true) :
    (e.noting fails).answerSeen (Observer.noter fails).beside nested depth (.languageKey r) s =
      (.error .cancelled, s) := by
  have hcall : callOrReport ((e.noting fails).services.languageKey r) s = (.error .cancelled, s) :=
    callOrReport_of_cancelled hs
  have hanswer : (e.noting fails).answer nested depth (.languageKey r) s = (.error .cancelled, s) := by
    show (callOrReport _ >>= _) s = _
    rw [bind_apply, hcall]
    rfl
  unfold answerSeen
  rw [bind_apply, hanswer]
  rfl

theorem key_of_call {found : Option String} {s' : Session (WithNotes ω)}
    (hcall : callOrReport ((e.noting fails).services.languageKey r) s = (.ok found, s')) :
    (e.noting fails).answerSeen (Observer.noter fails).beside nested depth (.languageKey r) s =
      (.ok (found.getD ""),
        s'.seen (Observer.noter fails).beside (.answered (.languageKey r) (found.getD ""))) := by
  refine answered_apply (o := .languageKey r) ?_
  show (callOrReport _ >>= _) s = _
  rw [bind_apply, hcall]
  rfl

theorem key_of_ok (hs : s.cancelled = false) (hsettled : s.world.2.failed = none) {key : String}
    (hr : (e.services.languageKey r s.world.1).result = .ok key) :
    (e.noting fails).answerSeen (Observer.noter fails).beside nested depth (.languageKey r) s =
      (.ok key, ⟨((e.services.languageKey r s.world.1).world, s.world.2), s.log, s.memo,
        s.cancelled || (e.services.languageKey r s.world.1).cancels⟩) := by
  have hworld : ((e.noting fails).services.languageKey r s.world).world =
      ((e.services.languageKey r s.world.1).world, s.world.2) := by
    show (_, (Observer.noter fails).called (.languageKey r
      (e.services.languageKey r s.world.1).result) _ _) = _
    rw [hr]
    rfl
  rw [key_of_call (callOrReport_of_ok hs hr), hworld]
  refine congrArg (Prod.mk (Except.ok key)) (seen_of_settled ?_ _ _)
  exact hsettled

/-- A key that cannot be had is noted. -/
theorem key_of_error (hs : s.cancelled = false) {err : ServiceError}
    (hr : (e.services.languageKey r s.world.1).result = .error err) :
    (e.noting fails).answerSeen (Observer.noter fails).beside nested depth (.languageKey r) s =
      (.ok "", ⟨((e.services.languageKey r s.world.1).world, s.world.2.add s.log.breadcrumb err),
        s.log.record (RenderError.service err).diagnosticKind err.message, s.memo,
        s.cancelled || (e.services.languageKey r s.world.1).cancels⟩) := by
  have hworld : ((e.noting fails).services.languageKey r s.world).world =
      ((e.services.languageKey r s.world.1).world, { s.world.2 with failed := some err }) := by
    show (_, (Observer.noter fails).called (.languageKey r
      (e.services.languageKey r s.world.1).result) _ _) = _
    rw [hr]
    rfl
  rw [key_of_call (callOrReport_of_error hs hr), hworld]
  rfl

end Keys

/-- Functions that cannot be had are noted, if their script is said to fail. -/
theorem functions_of_error {scope : MemoScope} {id owner : String} {script : Script}
    (hs : s.cancelled = false) (hm : s.memo.get? scope id = none) (hf : fails owner script = true)
    {err : ServiceError} (hr : (e.services.functions owner script s.world.1).result = .error err) :
    (e.noting fails).functionsSeen (Observer.noter fails).beside scope id owner script s =
      (.ok [], ⟨((e.services.functions owner script s.world.1).world,
        s.world.2.add s.log.breadcrumb err),
        s.log.record (RenderError.service err).diagnosticKind err.message, s.memo,
        s.cancelled || (e.services.functions owner script s.world.1).cancels⟩) := by
  have hworld : ((e.noting fails).services.functions owner script s.world).world =
      ((e.services.functions owner script s.world.1).world, { s.world.2 with failed := some err }) := by
    show (_, (Observer.noter fails).called (.functions owner script
      (e.services.functions owner script s.world.1).result) _ _) = _
    rw [hr]
    show (_, if fails owner script = true then _ else _) = _
    rw [if_pos hf]
    rfl
  rw [functionsSeen_of_none hm (callOrReport_of_error hs hr), hworld]
  rfl

end Answers

end Engine
end RecordExport

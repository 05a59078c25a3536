import RecordExport.Context
import RecordExport.Memo
import RecordExport.RenderError
import RecordExport.Service.LanguageKeys
import RecordExport.Settings
/-!
# What a resolver does

A resolver changes a text and needs others for it: records, language keys, functions, renders of
other artefacts. It does not call them. It is a PROGRAM: a tree whose nodes ask the render it takes
part in for one thing and go on with whatever is answered. Who answers, what a failed call stands
for and when a render is cancelled is settled by the render alone, once for all resolvers.

* an operation has a type of answers of its own; most of them always have an answer, because what
  fails is reported and stands empty;
* a program ends with a result or fails with an error, and nothing in a program catches an error;
* a part of a program can stand under a label, which it leaves however it ends.
-/

namespace RecordExport

/-! ## 1. Operations -/

/-- A render inside a render. -/
structure RenderRequest where
  kind : ArtifactKind
  text : Text
  context : RenderContext
  /-- the label its diagnostics stand under -/
  label : Option String
  deriving DecidableEq, Repr

/-- What a program can ask of the render it takes part in. -/
inductive RenderOp where
  /-- an object, unless it cannot be had -/
  | object (id : String)
  /-- the dialog of an object, if it has one that can be had -/
  | dialog (objectId : String)
  /-- a language key, empty if it cannot be had -/
  | languageKey (request : KeyRequest)
  /-- the functions of a script, derived once; none if they cannot be had -/
  | functions (scope : MemoScope) (id owner : String) (script : Script)
  /-- functions derived before -/
  | recall (scope : MemoScope) (id : String)
  /-- keep derived functions -/
  | keep (scope : MemoScope) (id : String) (fs : List ScriptFunction)
  /-- an artefact from the default template of its kind, empty if it cannot be had -/
  | artifact (kind : ArtifactKind) (context : RenderContext) (label : String)
  /-- a nested render, or why there is none -/
  | nested (request : RenderRequest)
  /-- report a problem -/
  | record (kind : DiagnosticKind) (detail : String)
  /-- go under a label -/
  | enter (label : String)
  /-- go back to where a label was entered -/
  | leave (scope : LogScope)
  /-- how text is escaped -/
  | settings
  /-- how many renders the program is nested in -/
  | depth
  /-- cancel the render -/
  | cancel
  deriving DecidableEq, Repr

/-- What an operation answers. -/
@[reducible] def RenderOp.Answer : RenderOp → Type
  | .object _ => Option GameObject
  | .dialog _ => Option Dialog
  | .languageKey _ => String
  | .functions _ _ _ _ => List ScriptFunction
  | .recall _ _ => Option (List ScriptFunction)
  | .keep _ _ _ => Unit
  | .artifact _ _ _ => Text
  | .nested _ => Except RenderError Text
  | .record _ _ => Unit
  | .enter _ => LogScope
  | .leave _ => Unit
  | .settings => EscapeSettings
  | .depth => Nat
  | .cancel => Unit

/-! ## 2. Programs -/

/-- A program with results of a type. -/
inductive RenderProgram : Type → Type 1 where
  /-- the result is there -/
  | done {α : Type} (a : α) : RenderProgram α
  /-- there will be no result -/
  | fail {α : Type} (e : RenderError) : RenderProgram α
  /-- ask for something and go on with the answer -/
  | ask {α : Type} (o : RenderOp) (go : o.Answer → RenderProgram α) : RenderProgram α
  /-- run a part under a label and go on with its result -/
  | under {α : Type} (label : String) (inner : RenderProgram Text)
      (go : Text → RenderProgram α) : RenderProgram α

namespace RenderProgram

/-- Go on with the result of a program. -/
def bind {α β : Type} : RenderProgram α → (α → RenderProgram β) → RenderProgram β
  | .done a, f => f a
  | .fail e, _ => .fail e
  | .ask o go, f => .ask o fun x => (go x).bind f
  | .under label inner go, f => .under label inner fun t => (go t).bind f

instance : Monad RenderProgram where
  pure := .done
  bind := bind

theorem bind_done {α : Type} (p : RenderProgram α) : p.bind .done = p := by
  induction p with
  | done a => rfl
  | fail e => rfl
  | ask o go ih => exact congrArg (RenderProgram.ask o) (funext ih)
  | under label inner go _ ih => exact congrArg (RenderProgram.under label inner) (funext ih)

theorem bind_bind {α β γ : Type} (p : RenderProgram α) (f : α → RenderProgram β)
    (g : β → RenderProgram γ) : (p.bind f).bind g = p.bind fun a => (f a).bind g := by
  induction p with
  | done a => rfl
  | fail e => rfl
  | ask o go ih => exact congrArg (RenderProgram.ask o) (funext fun x => ih x f)
  | under label inner go _ ih =>
    exact congrArg (RenderProgram.under label inner) (funext fun t => ih t f)

instance : LawfulMonad RenderProgram :=
  LawfulMonad.mk' RenderProgram (fun p => bind_done p) (fun _ _ => rfl)
    (fun p f g => bind_bind p f g)

/-! ## 3. Asking -/

/-- Ask for one thing. -/
def request (o : RenderOp) : RenderProgram o.Answer := .ask o .done

/-- An object, unless it cannot be had. -/
def object (id : String) : RenderProgram (Option GameObject) := request (.object id)

/-- The dialog of an object. -/
def dialog (objectId : String) : RenderProgram (Option Dialog) := request (.dialog objectId)

/-- A language key. -/
def languageKey (r : KeyRequest) : RenderProgram Text := do
  let key ← request (.languageKey r)
  pure key.toList

/-- The functions of a script, derived once for a scope and an id. -/
def functions (scope : MemoScope) (id owner : String) (script : Script) :
    RenderProgram (List ScriptFunction) :=
  request (.functions scope id owner script)

/-- Functions kept under a scope and an id, or else those of a program, which are kept then. -/
def derivedOnce (scope : MemoScope) (id : String) (derive_ : RenderProgram (List ScriptFunction)) :
    RenderProgram (List ScriptFunction) := do
  match ← request (.recall scope id) with
  | some fs => pure fs
  | none =>
    let fs ← derive_
    request (.keep scope id fs)
    pure fs

/-- An artefact from the default template of its kind. -/
def artifact (kind : ArtifactKind) (context : RenderContext) (label : String) :
    RenderProgram Text :=
  request (.artifact kind context label)

/-- Report a problem. -/
def record (kind : DiagnosticKind) (detail : String) : RenderProgram Unit :=
  request (.record kind detail)

/-- Report a field that a subject lacks; what stands in the text for it. -/
def missing (subject : String) (field : Text) : RenderProgram Text := do
  record .missingReference (DiagnosticLog.missingDetail subject (String.ofList field))
  pure (missingMarker subject (String.ofList field)).toList

/-- A value as it is written into a string literal. -/
def escaped (value : Text) : RenderProgram Text := do
  let s ← request .settings
  pure (s.escape value)

/-- Run a part under a label. -/
def within (label : String) (inner : RenderProgram Text) : RenderProgram Text :=
  .under label inner .done

end RenderProgram
end RecordExport

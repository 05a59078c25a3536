import RecordExport.Record.Project
import RecordExport.RenderError
import RecordExport.Service.LanguageKeys
import RecordExport.Service.ScriptSections
import RecordExport.Template.Registry
/-!
# Collaborators

A render asks others for objects, dialogs, language keys, functions of scripts and default
templates. What they answer may change from call to call, so a call takes the state of their world
and gives it back; the type of that state is left open. A call may also cancel the render it is made
for.

* `Services.inMemory` answers from a project and a table of keys;
* `Services.cached` keeps templates once they were found, whatever answers below it.
-/

namespace RecordExport

/-! ## 1. Calls -/

/-- What a call gives back. -/
structure Reply (ω α : Type) where
  result : Except ServiceError α
  /-- the call cancelled the render it was made for -/
  cancels : Bool
  world : ω

/-- A call to a collaborator. -/
abbrev Call (ω α : Type) := ω → Reply ω α

namespace Call

/-- A call that always answers the same and changes nothing. -/
def pure {ω α : Type} (r : Except ServiceError α) : Call ω α := fun w => ⟨r, false, w⟩

/-- The call in a world that has something beside the collaborator's. -/
def onLeft {ω σ α : Type} (c : Call ω α) : Call (ω × σ) α := fun w =>
  let r := c w.1
  ⟨r.result, r.cancels, (r.world, w.2)⟩

end Call

/-- The collaborators of a render and the settings they share. -/
structure Services (ω : Type) where
  object : (id : String) → Call ω GameObject
  /-- the dialog of an object, if it has one -/
  dialog : (objectId : String) → Call ω (Option Dialog)
  languageKey : KeyRequest → Call ω String
  functions : (owner : String) → Script → Call ω (List ScriptFunction)
  template : (projectId : String) → ArtifactKind → Call ω DefaultTemplate
  projectId : String
  escape : EscapeSettings

/-! ## 2. In memory -/

/-- An object of a project. -/
def Project.find (p : Project) (id : String) : Except ServiceError GameObject :=
  match p.object? id with
  | some o => .ok o
  | none => .error (.notFound "object" id)

/-- Collaborators over a project, a registry and a table of keys. -/
def Services.inMemory (p : Project) (r : TemplateRegistry) (c : Config) : Services KeyTable where
  object id := .pure (p.find id)
  dialog objectId := .pure (.ok (p.dialogOf? objectId))
  languageKey request := fun table =>
    let (key, table) := table.request request
    ⟨.ok key, false, table⟩
  functions owner script := .pure (.ok (scriptFunctions owner script))
  template _ kind := .pure (.ok (r.get kind))
  projectId := c.exporting.projectId
  escape := c.escape

/-! ## 3. Keeping templates -/

/-- The templates found so far, by project and kind. -/
structure TemplateCache where
  entries : List ((String × ArtifactKind) × DefaultTemplate)
  deriving DecidableEq, Repr

namespace TemplateCache

/-- No templates. -/
def empty : TemplateCache := ⟨[]⟩

/-- The template kept for a project and a kind. -/
def get? (c : TemplateCache) (projectId : String) (k : ArtifactKind) : Option DefaultTemplate :=
  c.entries.lookup (projectId, k)

/-- Keep a template. -/
def insert (c : TemplateCache) (projectId : String) (k : ArtifactKind) (t : DefaultTemplate) :
    TemplateCache :=
  ⟨((projectId, k), t) :: c.entries⟩

end TemplateCache

/-- Ask for a template unless it is kept; keep what is found. A failure is not kept. -/
def cachedTemplate {ω : Type} (template : String → ArtifactKind → Call ω DefaultTemplate)
    (projectId : String) (k : ArtifactKind) : Call (ω × TemplateCache) DefaultTemplate := fun w =>
  match w.2.get? projectId k with
  | some t => ⟨.ok t, false, w⟩
  | none =>
    let r := template projectId k w.1
    let cache := match r.result with
      | .ok t => w.2.insert projectId k t
      | .error _ => w.2
    ⟨r.result, r.cancels, (r.world, cache)⟩

/-- The same collaborators in a world that has something beside theirs. -/
def Services.onLeft {ω σ : Type} (s : Services ω) : Services (ω × σ) where
  object id := (s.object id).onLeft
  dialog objectId := (s.dialog objectId).onLeft
  languageKey request := (s.languageKey request).onLeft
  functions owner script := (s.functions owner script).onLeft
  template projectId kind := (s.template projectId kind).onLeft
  projectId := s.projectId
  escape := s.escape

/-- The same collaborators with a cache in front of the templates. -/
def Services.cached {ω : Type} (s : Services ω) : Services (ω × TemplateCache) :=
  { s.onLeft with template := cachedTemplate s.template }

end RecordExport

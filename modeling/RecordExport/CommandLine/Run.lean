import RecordExport.CommandLine.Arguments
import RecordExport.CommandLine.Directory
import RecordExport.Record.Codec
import RecordExport.Resolver.Standard
/-!
# Running a command

A command reads its configuration first, then what it needs besides, and stops at the first thing
that is wrong; nothing is written to the output then. A render that comes to its end writes its text
and, beside it, its diagnostics; it only fails for diagnostics if the configuration says so.
-/

namespace RecordExport

/-! ## 1. Outcomes -/

/-- What a command leaves: its exit code and what it wrote. -/
structure Outcome where
  exit : Nat
  stdout : Text
  stderr : Text
  deriving DecidableEq, Repr

/-- Why a command stopped. -/
inductive CommandError where
  | configUnreadable (path : String) (fault : FileFault)
  | configInvalid (path : String)
  | fileUnreadable (path : String) (fault : FileFault)
  | projectInvalid (path : String)
  | templateUnreadable (path : String) (fault : FileFault)
  | objectMissing (id : String)
  | notOneObject (kind : ArtifactKind)
  | unavailable (e : ServiceError)
  | render (e : RenderError)
  | templateInvalid (path : String) (issues : List Issue)
  deriving DecidableEq, Repr

namespace CommandError

/-- The lines that say why. -/
def message : CommandError → String
  | .configUnreadable path fault =>
    "Error loading config '" ++ path ++ "': Failed to read config file: " ++ fault.message
  | .configInvalid path => "Error loading config '" ++ path ++ "': Failed to parse config TOML"
  | .fileUnreadable path fault => "Error reading file '" ++ path ++ "': " ++ fault.message
  | .projectInvalid path => "Error loading project '" ++ path ++ "'"
  | .templateUnreadable path fault =>
    "Error loading template '" ++ path ++ "': "
      ++ (ServiceError.inputOutput fault.message).message
  | .objectMissing id => "Error: object not found: " ++ id
  | .notOneObject kind => "Error: kind '" ++ kind.tag ++ "' renders exactly one --object"
  | .unavailable e => "Error: " ++ e.message
  | .render e => "Error: " ++ e.message
  | .templateInvalid path issues =>
    String.intercalate "\n" (issues.map fun i => path ++ ": " ++ Engine.issueDetail i)

/-- A command that stopped writes why and fails. -/
def outcome (e : CommandError) : Outcome := ⟨1, [], e.message.toList ++ ['\n']⟩

end CommandError

/-- A step of a command. -/
abbrev CommandM := Except CommandError

/-! ## 2. Reading -/

/-- Read a file, or say why it cannot be read. -/
def readOr (read : FileReader) (error : String → FileFault → CommandError) (path : String) :
    CommandM Text :=
  match read path with
  | .ok t => .ok t
  | .error fault => .error (error path fault)

/-- The configuration of a command. -/
def loadConfig (read : FileReader) : Option String → CommandM Config
  | none => pure .standard
  | some path => do
    let t ← readOr read .configUnreadable path
    match Config.ofToml? t with
    | some c => pure c
    | none => throw (.configInvalid path)

/-- The project of a render. -/
def loadProject (read : FileReader) (path : String) : CommandM Project := do
  let t ← readOr read .fileUnreadable path
  match Project.ofText t with
  | .ok p => pure p
  | .error _ => throw (.projectInvalid path)

/-- The templates of a configuration with those of files in their place. -/
def loadDefaults (read : FileReader) (c : Config) (defaults : List (ArtifactKind × String)) :
    CommandM TemplateRegistry :=
  defaults.foldlM
    (fun r d => do
      let t ← readOr read .templateUnreadable d.2
      pure (r.set d.1 t))
    (.ofConfig c)

/-! ## 3. Commands -/

/-- The world of a command's collaborators. -/
abbrev CommandWorld := KeyTable × TemplateCache

/-- The engine of a command. -/
def commandEngine (p : Project) (r : TemplateRegistry) (c : Config) : Engine CommandWorld :=
  .standard (Services.inMemory p r c).cached c.exporting.maxRenderDepth

/-- The first object with an id. -/
def firstObject (p : Project) (id : String) : CommandM GameObject :=
  match p.objects.find? (·.id = id) with
  | some o => .ok o
  | none => .error (.objectMissing id)

/-- What a render is about. A language file is about any number of objects, none given meaning
    all. -/
def renderSubject (p : Project) (kind : ArtifactKind) (ids : List String) :
    CommandM RenderContext := do
  let named ← ids.mapM (firstObject p)
  let objects := if named.isEmpty && kind = .languageFile then p.objects else named
  match objects with
  | [o] => pure (.ofObject o)
  | os => if kind = .languageFile then pure (.of (.objects os) .npc) else throw (.notOneObject kind)

/-- The template of a render, with the world after asking for it. -/
def renderTemplate (read : FileReader) (e : Engine CommandWorld) (kind : ArtifactKind)
    (w : CommandWorld) : Option String → CommandM (Text × CommandWorld)
  | some path => do
    let t ← readOr read .fileUnreadable path
    pure (t, w)
  | none =>
    let reply := e.services.template e.services.projectId kind w
    match reply.result with
    | .ok t => pure (t.text, reply.world)
    | .error err => throw (.unavailable err)

/-- Lines of diagnostics. -/
def diagnosticLines (ds : List Diagnostic) : Text :=
  ds.flatMap fun d => d.message.toList ++ ['\n']

/-- Render objects of a project. -/
def runRender (read : FileReader) (c : Config) (kind : ArtifactKind) (data : String)
    (ids : List String) (template : Option String) (defaults : List (ArtifactKind × String)) :
    CommandM Outcome := do
  let p ← loadProject read data
  let context ← renderSubject p kind ids
  let r ← loadDefaults read c defaults
  let e := commandEngine p r c
  let (t, w) ← renderTemplate read e kind (.empty, .empty) template
  match (e.render kind context t w false).1 with
  | .error err => throw (.render err)
  | .ok out =>
    let fails := c.exporting.failOnDiagnostics && !out.diagnostics.isEmpty
    pure ⟨if fails then 2 else 0, out.text, diagnosticLines out.diagnostics⟩

/-- Check a template. -/
def runValidate (read : FileReader) (c : Config) (file : String) : CommandM Outcome := do
  let t ← readOr read .fileUnreadable file
  let report := (commandEngine .empty (.ofConfig c) c).validationReport t
  if report.valid then pure ⟨0, file.toList ++ ": ok\n".toList, []⟩
  else throw (.templateInvalid file report.issues)

/-- A text filled up with spaces to a width. -/
def padded (width : Nat) (t : Text) : Text := t ++ List.replicate (width - t.length) ' '

/-- The entry as it is written. -/
def CatalogEntry.toJson (c : CatalogEntry) : Json :=
  .obj [("name", .str c.name), ("description", .str c.description)]

/-- List what templates of a kind can use. -/
def runCatalog (c : Config) (kind : ArtifactKind) (json : Bool) : Outcome :=
  let entries := (commandEngine .empty (.ofConfig c) c).catalog kind
  let line (e : CatalogEntry) : Text :=
    padded 48 e.name.toList ++ ' ' :: e.description.toList ++ ['\n']
  let written :=
    if json then Json.indented 0 (.arr (entries.map CatalogEntry.toJson)) ++ ['\n']
    else entries.flatMap line
  ⟨0, written, []⟩

/-- Run a command. -/
def Invocation.run (i : Invocation) (read : FileReader) : CommandM Outcome := do
  let c ← loadConfig read i.config
  match i.command with
  | .render kind data ids template defaults => runRender read c kind data ids template defaults
  | .validate file => runValidate read c file
  | .catalog kind json => pure (runCatalog c kind json)

/-- What is said about words that make no command. -/
def usageError : Outcome :=
  ⟨2, [], "Error: usage: render | validate | catalog\n".toList⟩

/-- **Run a command line**, reading files where they are. -/
def runCommandLine (words : List String) (read : FileReader) : Outcome :=
  match Invocation.ofWords? words with
  | none => usageError
  | some i =>
    match i.run read with
    | .ok o => o
    | .error e => e.outcome

/-! ## 4. What a command reads -/

/-- Every path a command line may read. -/
def Invocation.paths (i : Invocation) : List String :=
  i.config.toList ++ match i.command with
    | .render _ data _ template defaults => data :: template.toList ++ defaults.map (·.2)
    | .validate file => [file]
    | .catalog _ _ => []

/-- Every path that words may read. -/
def mentionedPaths (words : List String) : List String :=
  ((Invocation.ofWords? words).map (·.paths)).getD []

end RecordExport

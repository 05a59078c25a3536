import RecordExport.Json.Decoder
import RecordExport.Toml.Reader
import RecordExport.Kind
/-!
# Settings

Every setting has a default and every section may be left out. A configuration is a TOML file or a
JSON record of the same shape; keys nobody knows are left alone, but a template can only be given
for a kind there is.

Escaping makes a value fit for a string literal of the target language: carriage returns go, a line
feed becomes what the settings say, and listed characters get the escape character in front.
-/

namespace RecordExport

/-! ## 1. The settings -/

/-- Settings of an export. -/
structure ExportSettings where
  projectId : String
  /-- any diagnostic makes the export fail -/
  failOnDiagnostics : Bool
  /-- how deep renders may nest -/
  maxRenderDepth : Nat
  deriving DecidableEq, Repr

/-- The default settings of an export. -/
def ExportSettings.standard : ExportSettings := ⟨"default", false, 16⟩

/-- How text is written into string literals. -/
structure EscapeSettings where
  escapeCharacter : String
  escapedCharacters : String
  /-- what stands for a line feed -/
  lineFeed : String
  deriving DecidableEq, Repr

/-- The default way of escaping: a backslash before quotes and backslashes, and before an n for a
    line feed. -/
def EscapeSettings.standard : EscapeSettings := ⟨"\\", "\"\\", "\\n"⟩

/-- A configuration. -/
structure Config where
  exporting : ExportSettings
  escape : EscapeSettings
  /-- templates in the place of the built-in ones, a later one counting -/
  templates : List (ArtifactKind × String)
  deriving DecidableEq, Repr

/-- The configuration with every default. -/
def Config.standard : Config := ⟨.standard, .standard, []⟩

/-! ## 2. Escaping -/

namespace EscapeSettings

/-- One character in a string literal. -/
def escapeChar (s : EscapeSettings) (c : Char) : Text :=
  if c = '\r' then []
  else if c = '\n' then s.lineFeed.toList
  else if s.escapedCharacters.toList.contains c then s.escapeCharacter.toList ++ [c]
  else [c]

/-- A value in a string literal. -/
def escape (s : EscapeSettings) (value : Text) : Text := value.flatMap s.escapeChar

end EscapeSettings

/-! ## 3. From JSON -/

section
open Json Json.Decoder

/-- Reads export settings. -/
def ExportSettings.decoder : Decoder ExportSettings :=
  record
    (.cons (.defaulted "project_id" str standard.projectId) <|
      .cons (.defaulted "fail_on_diagnostics" bool standard.failOnDiagnostics) <|
      .cons (.defaulted "max_render_depth" (natBelow (Nat.pow 2 64)) standard.maxRenderDepth) .nil)
    fun (id, fails, depth, _) => ⟨id, fails, depth⟩

/-- Reads escape settings. -/
def EscapeSettings.decoder : Decoder EscapeSettings :=
  record
    (.cons (.defaulted "escape_character" str standard.escapeCharacter) <|
      .cons (.defaulted "characters_needing_escaping" str standard.escapedCharacters) <|
      .cons (.defaulted "newline_character" str standard.lineFeed) .nil)
    fun (character, escaped, lineFeed, _) => ⟨character, escaped, lineFeed⟩

/-- Reads templates by the tags of their kinds. -/
def templateMembers : List (Except Trouble String × Reading) →
    Except Fault (List (ArtifactKind × String))
  | [] => .ok []
  | (.error t, _) :: _ => .error t.read
  | (.ok key, r) :: ms =>
    match ArtifactKind.ofTag? key with
    | none => .error .mismatch
    | some k =>
      match str r with
      | .error f => .error f
      | .ok s => (templateMembers ms).map ((k, s) :: ·)

/-- Reads templates. -/
def templatesDecoder : Decoder (List (ArtifactKind × String))
  | .object ms tail =>
    match templateMembers ms, tail with
    | .error f, _ => .error f
    | .ok _, some f => .error f
    | .ok ts, none => .ok ts
  | .str (.error t) | .num (.error t) => .error t.read
  | .cutWord f | .missing f => .error f
  | _ => .error .mismatch

/-- Reads a configuration. -/
def Config.decoder : Decoder Config :=
  record
    (.cons (.defaulted "export" ExportSettings.decoder .standard) <|
      .cons (.defaulted "escape" EscapeSettings.decoder .standard) <|
      .cons (.defaulted "templates" templatesDecoder []) .nil)
    fun (exporting, escape, templates, _) => ⟨exporting, escape, templates⟩

end

/-! ## 4. From TOML -/

namespace Toml

/-- A string. -/
def string? : Toml → Option String
  | .string s => some s
  | _ => none

/-- A truth value. -/
def boolean? : Toml → Option Bool
  | .boolean b => some b
  | _ => none

/-- A natural number. -/
def nat? : Toml → Option Nat
  | .integer n => if 0 ≤ n then some n.toNat else none
  | _ => none

/-- What a section gives: values under keys, or values in the order of the section's keys. A date
    is a section that gives nothing. -/
inductive Section where
  | keyed (entries : List (String × Toml))
  | listed (items : List Toml)

/-- The value as a section. -/
def section? : Toml → Option Section
  | .table _ entries | .written entries => some (.keyed entries)
  | .array items => some (.listed items)
  | .tables ts => some (.listed (ts.map (.table .named)))
  | .dateTime => some (.keyed [])
  | _ => none

/-- The value of a section's key, which stands at a place in the order of its keys. -/
def Section.value? (s : Section) (key : String) (place : Nat) : Option Toml :=
  match s with
  | .keyed entries => entries.lookup key
  | .listed items => items[place]?

/-- The value of a section's key, read as it must be, or its default. -/
def Section.read {α : Type} (s : Section) (key : String) (place : Nat) (f : Toml → Option α)
    (standard : α) : Option α :=
  match s.value? key place with
  | none => some standard
  | some v => f v

end Toml

/-- Export settings from a section. -/
def ExportSettings.ofToml? (v : Toml) : Option ExportSettings := do
  let s ← v.section?
  let id ← s.read "project_id" 0 Toml.string? standard.projectId
  let fails ← s.read "fail_on_diagnostics" 1 Toml.boolean? standard.failOnDiagnostics
  let depth ← s.read "max_render_depth" 2 Toml.nat? standard.maxRenderDepth
  some ⟨id, fails, depth⟩

/-- Escape settings from a section. -/
def EscapeSettings.ofToml? (v : Toml) : Option EscapeSettings := do
  let s ← v.section?
  let character ← s.read "escape_character" 0 Toml.string? standard.escapeCharacter
  let escaped ← s.read "characters_needing_escaping" 1 Toml.string? standard.escapedCharacters
  let lineFeed ← s.read "newline_character" 2 Toml.string? standard.lineFeed
  some ⟨character, escaped, lineFeed⟩

/-- Templates from a section, by the tags of their kinds. -/
def templatesOfToml? : Toml → Option (List (ArtifactKind × String))
  | .table _ entries | .written entries =>
    entries.mapM fun e => do
      let k ← ArtifactKind.ofTag? e.1
      let s ← e.2.string?
      some (k, s)
  | _ => none

/-- The configuration a TOML text holds. -/
def Config.ofToml? (t : Text) : Option Config := do
  let root ← TomlText.file? t
  let s := Toml.Section.keyed root.entries
  let exporting ← s.read "export" 0 ExportSettings.ofToml? .standard
  let escape ← s.read "escape" 1 EscapeSettings.ofToml? .standard
  let templates ← s.read "templates" 2 templatesOfToml? []
  some ⟨exporting, escape, templates⟩

end RecordExport

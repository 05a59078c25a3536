import RecordExport.Kind
import RecordExport.Text.Basic
/-!
# Arguments of the command line

A command line is a list of words: options, then the name of a command, then the command's options
and operands in any order. The option for the configuration may stand on either side of the command;
the one behind it counts.

An option is written with two dashes and its name, or with one dash and its letter. Its value is the
next word, or stands behind an equals sign, or behind the letter itself. A word that begins with a
dash is never the value of the option before it, unless it is a dash alone. Behind a word of two
dashes every word is an operand.
-/

namespace RecordExport

/-! ## 1. Options -/

/-- The options there are. -/
inductive OptionName where
  | config
  | kind
  | data
  | object
  | template
  | default
  | json
  deriving DecidableEq, Repr

/-- How an option is written. -/
structure OptionSpec where
  option : OptionName
  long : String
  short : Option Char
  takesValue : Bool
  deriving DecidableEq, Repr

namespace OptionSpec

/-- Options of every command, which may also stand before it. -/
def common : List OptionSpec := [⟨.config, "config", some 'c', true⟩]

/-- The kind a command is about. -/
def ofKind : OptionSpec := ⟨.kind, "kind", some 'k', true⟩

/-- Options of the command that renders. -/
def render : List OptionSpec :=
  common ++ [ofKind, ⟨.data, "data", some 'd', true⟩, ⟨.object, "object", some 'o', true⟩,
    ⟨.template, "template", some 't', true⟩, ⟨.default, "default", none, true⟩]

/-- Options of the command that lists placeholders. -/
def catalog : List OptionSpec := common ++ [ofKind, ⟨.json, "json", none, false⟩]

end OptionSpec

/-! ## 2. Words -/

/-- What a word looks like. -/
inductive ArgumentWord where
  | long (name : Text) (attached : Option Text)
  | short (letter : Char) (attached : Option Text)
  | separator
  | operand
  deriving DecidableEq, Repr

namespace ArgumentWord

/-- A name and what stands behind its equals sign. -/
def cutValue : Text → Text × Option Text
  | [] => ([], none)
  | '=' :: t => ([], some t)
  | c :: t => let (name, value) := cutValue t; (c :: name, value)

/-- What stands behind an option's letter. -/
def attachedTo : Text → Option Text
  | [] => none
  | '=' :: t => some t
  | t => some t

/-- The shape of a word. -/
def of : Text → ArgumentWord
  | ['-', '-'] => .separator
  | '-' :: '-' :: t => let (name, value) := cutValue t; .long name value
  | '-' :: c :: t => .short c (attachedTo t)
  | _ => .operand

/-- The option a word gives, and its value if it is attached. -/
def option? (specs : List OptionSpec) : ArgumentWord → Option (OptionSpec × Option Text)
  | .long name attached => (specs.find? (·.long.toList = name)).map (·, attached)
  | .short letter attached => (specs.find? (·.short = some letter)).map (·, attached)
  | _ => none

end ArgumentWord

/-! ## 3. Arguments -/

/-- One argument; an option that takes no value has an empty one. -/
inductive Argument where
  | option (o : OptionName) (value : Text)
  | operand (value : Text)
  deriving DecidableEq, Repr

/-- What an option and its attached value say: an argument, or that the value is the next word, or
    nothing that can be meant. -/
def OptionSpec.argument? (s : OptionSpec) (attached : Option Text) :
    Option (Argument ⊕ OptionName) :=
  match s.takesValue, attached with
  | true, some v => some (.inl (.option s.option v))
  | true, none => some (.inr s.option)
  | false, none => some (.inl (.option s.option []))
  | false, some _ => none

/-- The arguments that words make, an option waiting for its value or not. -/
def readArguments (specs : List OptionSpec) :
    (waiting : Option OptionName) → List Text → Option (List Argument)
  | none, [] => some []
  | some _, [] => none
  | some o, w :: ws =>
    if ArgumentWord.of w = .operand then
      (readArguments specs none ws).map (.option o w :: ·)
    else none
  | none, w :: ws =>
    match ArgumentWord.of w with
    | .operand => (readArguments specs none ws).map (.operand w :: ·)
    | .separator => some (ws.map .operand)
    | word =>
      match (word.option? specs).bind fun s => s.1.argument? s.2 with
      | none => none
      | some (.inl a) => (readArguments specs none ws).map (a :: ·)
      | some (.inr o) => readArguments specs (some o) ws

/-- A command line cut at the name of its command. -/
structure CommandWords where
  before : List Argument
  command : Text
  rest : List Text
  deriving DecidableEq, Repr

/-- Cut a command line at the name of its command. -/
def cutCommand : (waiting : Option OptionName) → List Text → Option CommandWords
  | _, [] => none
  | some o, w :: ws =>
    if ArgumentWord.of w = .operand then
      (cutCommand none ws).map fun c => { c with before := .option o w :: c.before }
    else none
  | none, w :: ws =>
    match ArgumentWord.of w with
    | .operand => some ⟨[], w, ws⟩
    | .separator => none
    | word =>
      match (word.option? OptionSpec.common).bind fun s => s.1.argument? s.2 with
      | none => none
      | some (.inl a) => (cutCommand none ws).map fun c => { c with before := a :: c.before }
      | some (.inr o) => cutCommand (some o) ws

/-! ## 4. Commands -/

/-- What is to be done. -/
inductive Command where
  /-- render objects of a project file -/
  | render (kind : ArtifactKind) (data : String) (objects : List String)
      (template : Option String) (defaults : List (ArtifactKind × String))
  /-- check a template -/
  | validate (file : String)
  /-- list what templates of a kind can use -/
  | catalog (kind : ArtifactKind) (json : Bool)
  deriving DecidableEq, Repr

/-- A command and the file of its configuration. -/
structure Invocation where
  config : Option String
  command : Command
  deriving DecidableEq, Repr

namespace Argument

/-- The values given for an option. -/
def values (o : OptionName) (as : List Argument) : List Text :=
  as.filterMap fun
    | .option o' v => if o' = o then some v else none
    | .operand _ => none

/-- The operands. -/
def operands (as : List Argument) : List Text :=
  as.filterMap fun
    | .operand v => some v
    | .option _ _ => none

/-- The value of an option that may be given once. -/
def atMostOne (o : OptionName) (as : List Argument) : Option (Option Text) :=
  match values o as with
  | [] => some none
  | [v] => some (some v)
  | _ => none

/-- A path, which is never empty. -/
def path? (v : Text) : Option String := if v = [] then none else some (String.ofList v)

/-- The path of an option that may be given once. -/
def pathOf (o : OptionName) (as : List Argument) : Option (Option String) :=
  match atMostOne o as with
  | none => none
  | some none => some none
  | some (some v) => (path? v).map some

/-- The kind that must be given. -/
def kindOf (as : List Argument) : Option ArtifactKind :=
  match atMostOne .kind as with
  | some (some v) => ArtifactKind.ofTag? (String.ofList v)
  | _ => none

/-- A kind and the file of its default template. -/
def default? (v : Text) : Option (ArtifactKind × String) :=
  match ArgumentWord.cutValue v with
  | (_, none) => none
  | (kind, some file) => (ArtifactKind.ofTag? (String.ofList kind)).map (·, String.ofList file)

end Argument

namespace Command

open Argument

/-- The command that renders, from its arguments. -/
def renderOf (as : List Argument) : Option Command := do
  guard (operands as).isEmpty
  let kind ← kindOf as
  let data ← (← pathOf .data as)
  let template ← pathOf .template as
  let defaults ← (values .default as).mapM default?
  some (.render kind data ((values .object as).map String.ofList) template defaults)

/-- The command that checks a template, from its arguments. -/
def validateOf (as : List Argument) : Option Command :=
  match operands as with
  | [v] => (path? v).map .validate
  | _ => none

/-- The command that lists placeholders, from its arguments. -/
def catalogOf (as : List Argument) : Option Command := do
  guard (operands as).isEmpty
  let kind ← kindOf as
  let json ← atMostOne .json as
  some (.catalog kind json.isSome)

end Command

/-- The options and the meaning of a command. -/
def commandForm? : String → Option (List OptionSpec × (List Argument → Option Command))
  | "render" => some (OptionSpec.render, Command.renderOf)
  | "validate" => some (OptionSpec.common, Command.validateOf)
  | "catalog" => some (OptionSpec.catalog, Command.catalogOf)
  | _ => none

/-- What a command line asks for, if it is well formed. -/
def Invocation.ofWords? (words : List String) : Option Invocation := do
  let cut ← cutCommand none (words.map (·.toList))
  let (specs, read) ← commandForm? (String.ofList cut.command)
  let as ← readArguments specs none cut.rest
  let outer ← Argument.pathOf .config cut.before
  let inner ← Argument.pathOf .config as
  let command ← read as
  some ⟨inner.or outer, command⟩

end RecordExport

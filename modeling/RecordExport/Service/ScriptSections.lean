import RecordExport.Record.Object
import RecordExport.Text.Identifier
import RecordExport.Text.Lines
/-!
# Functions of a script

A script is cut at the lines that begin, after white space, with the function mark. What stands
before the first mark is the primary function, named after the owner and the script; each mark
begins a further function, with the mark's name behind that. No code line is lost; blank lines at
the ends of a function are.
-/

namespace RecordExport

/-- What marks the line that begins a function. -/
def functionMark : Text := "@function ".toList

/-- The name a line gives to the function it begins, if it begins one. -/
def markedName? (line : Text) : Option Text :=
  Text.afterLeading? functionMark (Text.trimStart line)

/-- The lines before the first mark, and each marked name with the lines up to the next. -/
def sections : List Text → List Text × List (Text × List Text)
  | [] => ([], [])
  | l :: ls =>
    let below := sections ls
    match markedName? l with
    | some name => ([], (name, below.1) :: below.2)
    | none => (l :: below.1, below.2)

/-- Lines of code as a function's code. -/
def sectionCode (ls : List Text) : Text := trimBlankLines (ls.flatMap fun l => l ++ ['\n'])

/-- The functions of a script, the primary one first. -/
def scriptFunctions (owner : String) (script : Script) : List ScriptFunction :=
  let base := identifierOf owner ++ "_" ++ identifierOf script.name
  let cut := sections (terminatedLines script.code.toList)
  ⟨base, String.ofList (sectionCode cut.1), script.name⟩ ::
    cut.2.map fun s =>
      ⟨base ++ "_" ++ String.ofList (identifier s.1), String.ofList (sectionCode s.2), script.name⟩

end RecordExport

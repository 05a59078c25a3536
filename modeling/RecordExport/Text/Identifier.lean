import RecordExport.Text.Blank
/-!
# Identifiers

Names of records end up in generated code, as parts of function names and language keys. An
identifier has ASCII letters, digits and underscores only, at least one of them, and no digit first.
-/

namespace RecordExport

/-- A character kept in an identifier. -/
def isIdentifierChar (c : Char) : Bool :=
  ('0' ≤ c && c ≤ '9') || ('a' ≤ c && c ≤ 'z') || ('A' ≤ c && c ≤ 'Z')

/-- A name as an identifier: every other character becomes an underscore, and one more goes in front
    where the name is empty or begins with a digit. -/
def identifier (name : Text) : Text :=
  let body := (Text.trim name).map fun c => if isIdentifierChar c then c else '_'
  match body with
  | [] => ['_']
  | c :: t => if '0' ≤ c ∧ c ≤ '9' then '_' :: c :: t else c :: t

/-- A name as an identifier. -/
def identifierOf (name : String) : String := String.ofList (identifier name.toList)

end RecordExport

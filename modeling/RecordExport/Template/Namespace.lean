import RecordExport.Template.Token
/-!
# Namespaces of placeholders

The placeholders of a namespace have its name, alone or followed by an underscore and the rest of
theirs. Moving a template from one namespace to another renames these placeholders and leaves every
other character as it is.
-/

namespace RecordExport

/-- What a name of the namespace has behind the namespace: nothing, or an underscore and more. -/
def afterNamespace? (space name : Text) : Option Text :=
  match Text.afterLeading? space name with
  | some [] => some []
  | some ('_' :: t) => some ('_' :: t)
  | _ => none

/-- A token moved from one namespace to another, as it is written. -/
def moveToken (space target : Text) (t : Token) : Text :=
  match t with
  | .literal l => l
  | .placeholder _ =>
    match afterNamespace? space t.name with
    | some r => braced (target ++ r)
    | none => t.source

/-- A template with the placeholders of one namespace moved to another. -/
def moveNamespace (space target t : Text) : Text := (tokenize t).flatMap (moveToken space target)

end RecordExport

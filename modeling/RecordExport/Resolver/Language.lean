import RecordExport.Resolver.Fields
/-!
# Language files

A language file lists the texts of one or more objects that differ between languages: each object's
name and then its text fields, under the keys the rest of the export uses for them. It can also list
keys of texts that other objects own; those are given and not asked for.
-/

namespace RecordExport

/-! ## 1. The texts of objects -/

/-- The requests for the keys of an object's texts, in the order they are listed. -/
def languageEntries (o : GameObject) : List KeyRequest :=
  nameKey o o.type :: (o.fields.filter (·.isLocalizable)).map (fieldKey o o.type)

/-- One text of the objects. -/
def renderLanguageEntry (r : KeyRequest) (p : ListPosition) (inner : Text) :
    RenderProgram Text := do
  let value ← RenderProgram.escaped r.value.toList
  let t := fillPosition "LangKey" p inner
  fillKey "LangKey_Key" r (fill "LangKey_Value" .inline value t)

/-- One text that another object owns. -/
def renderReferencedKey (k : LanguageKey) (p : ListPosition) (inner : Text) :
    RenderProgram Text := do
  let value ← RenderProgram.escaped k.value.toList
  let t := fillPosition "LangKey" p inner
  pure (fill "LangKey_Key" .inline k.key.toList (fill "LangKey_Value" .inline value t))

/-- Resolve a language file of objects. -/
def resolveLanguageFile (os : List GameObject) (referenced : List LanguageKey) (t : Text) :
    RenderProgram Text := do
  let t ← expandBlocksM (.ofStem "LangKeys".toList) t (os.flatMap languageEntries)
    renderLanguageEntry
  let t := gate "LangKeys_HasReferenced" (!referenced.isEmpty) t
  expandBlocksM (.ofStem "LangKeys_Referenced".toList) t referenced renderReferencedKey

/-! ## 2. The resolver -/

/-- Resolves language files. -/
def Resolver.language : Resolver where
  name := "language"
  applies k := k = .languageFile
  resolve _ c t :=
    match c.subject with
    | .object o => resolveLanguageFile [o] c.referencedKeys t
    | .objects os => resolveLanguageFile os c.referencedKeys t
    | s => wrongSubject "language" s
  catalog _ :=
    [⟨"LangKeys_Start/LangKeys_End", "Repeated once per localizable text"⟩,
      ⟨"LangKey_Key", "Language key of the text"⟩,
      ⟨"LangKey_Value", "The text itself"⟩,
      ⟨"LangKeys_HasReferenced_Start/LangKeys_HasReferenced_End",
        "Kept if the export references language keys of other objects"⟩,
      ⟨"LangKeys_Referenced_Start/LangKeys_Referenced_End",
        "Repeated once per referenced language key"⟩]
      ++ positionCatalog "LangKey" "text"
  families := []

end RecordExport

import RecordExport.Resolver.Filling
/-!
# Snippets

An object offers code under names, and a template picks the snippets it wants. The functions of a
snippet are derived from its code once in a render: ids of snippets only differ within an object, so
they are kept under the object's id and the snippet's.

The placeholders are resolved in three passes, the longer names first. A snippet named by any of
them is used, whether its functions could be had or not; in the end each snippet that was not used
is reported.
-/

namespace RecordExport

/-! ## 1. Names -/

namespace SnippetPlaceholder

/-- The blocks kept if there is a snippet. -/
def hasSnippet : BlockFamily :=
  ⟨.ofParts [.fixed "HasSnippet_".toList, .captured, .fixed startTrail],
    .literal "HasSnippet_End".toList⟩

/-- The blocks kept if there is no such snippet. -/
def hasNotSnippet : BlockFamily :=
  ⟨.ofParts [.fixed "HasNotSnippet_".toList, .captured, .fixed startTrail],
    .literal "HasNotSnippet_End".toList⟩

/-- The functions of a snippet but for the primary one. -/
def additionalFunctions : Pattern :=
  .ofParts [.fixed "Snippet_".toList, .captured, .fixed "_AdditionalFunctions".toList]

/-- The name of a snippet's primary function. -/
def functionName : Pattern :=
  .ofParts [.fixed "Snippet_".toList, .captured, .fixed "_FunctionName".toList]

/-- The code of a snippet's primary function. -/
def code : Pattern := .ofParts [.fixed "Snippet_".toList, .captured]

end SnippetPlaceholder

/-! ## 2. Snippets of an object -/

/-- A program that keeps the ids of the snippets it used. -/
abbrev SnippetProgram := StateT (List String) RenderProgram

/-- The functions of a snippet. -/
def snippetFunctions (o : GameObject) (s : Snippet) : RenderProgram (List ScriptFunction) :=
  .functions .snippet (o.id ++ "/" ++ s.id) o.name s.script

/-- What the functions of a snippet give, which is used then; a name without a snippet is
    reported. -/
def useSnippet (o : GameObject) (give : List ScriptFunction → RenderProgram Text)
    (captures : List Text) : SnippetProgram Text :=
  let name := captures.getD 0 []
  match o.snippet? name with
  | some s => do
    modify (s.id :: ·)
    let fs ← snippetFunctions o s
    give fs
  | none => do
    RenderProgram.record .missingReference
      (o.name ++ " has no export snippet '" ++ String.ofList name ++ "'")
    pure (missingMarker o.name (String.ofList name)).toList

/-- Fill the placeholders of an object's snippets. -/
def fillSnippets (o : GameObject) (type : ObjectType) (t : Text) : SnippetProgram Text := do
  let others (fs : List ScriptFunction) : RenderProgram Text :=
    renderFunctions .snippetFunction type .snippetFunction fs.tail
  let name (fs : List ScriptFunction) : RenderProgram Text :=
    pure ((fs.head?.map (·.name.toList)).getD [])
  let code (fs : List ScriptFunction) : RenderProgram Text :=
    pure ((fs.head?.map (·.code.toList)).getD [])
  let t ← replaceScalarsM SnippetPlaceholder.additionalFunctions .fitted t (useSnippet o others)
  let t ← replaceScalarsM SnippetPlaceholder.functionName .inline t (useSnippet o name)
  replaceScalarsM SnippetPlaceholder.code .fitted t (useSnippet o code)

/-- Report the snippets that were not used. -/
def reportUnused (used : List String) (ss : List Snippet) : RenderProgram Unit :=
  (ss.filter fun s => !used.contains s.id).forM fun s =>
    .record .unusedInput ("export snippet '" ++ s.name ++ "' is not used by the template")

/-- Resolve the snippets of an object. -/
def resolveSnippets (o : GameObject) (type : ObjectType) (t : Text) : RenderProgram Text := do
  let t := keepBlocks SnippetPlaceholder.hasSnippet t fun cs => (o.snippet? (cs.getD 0 [])).isSome
  let t := keepBlocks SnippetPlaceholder.hasNotSnippet t fun cs =>
    (o.snippet? (cs.getD 0 [])).isNone
  let (t, used) ← (fillSnippets o type t).run []
  reportUnused used o.snippets
  pure t

/-- Resolve a function of a snippet. -/
def resolveSnippetFunction (f : ScriptFunction) (t : Text) : Text :=
  let t := fill "SnippetFunction_Name" .inline f.name.toList t
  let t := fill "SnippetFunction_ParentPreview" .inline f.parentPreview.toList t
  fill "SnippetFunction_Content" .fitted f.code.toList t

/-! ## 3. The resolver -/

/-- The families whose starts name a snippet and share an end marker. -/
def snippetFamilies : List BlockFamily :=
  [⟨.ofParts [.fixed "HasSnippet_".toList, .filled, .fixed startTrail],
      .literal "HasSnippet_End".toList⟩,
    ⟨.ofParts [.fixed "HasNotSnippet_".toList, .filled, .fixed startTrail],
      .literal "HasNotSnippet_End".toList⟩]

/-- Resolves snippets and their functions. -/
def Resolver.snippets : Resolver where
  name := "snippets"
  applies k := k.objectType?.isSome || k = .snippetFunction
  resolve k c t :=
    if k = .snippetFunction then
      match c.subject with
      | .snippetFunction f => pure (resolveSnippetFunction f t)
      | s => wrongSubject "snippets" s
    else do
      let o ← singleObject "snippets" c
      .within "Snippets" (resolveSnippets o c.objectType t)
  catalog k :=
    if k = .snippetFunction then
      [⟨"SnippetFunction_Name", "Name of the function"⟩,
        ⟨"SnippetFunction_Content", "Code of the function"⟩,
        ⟨"SnippetFunction_ParentPreview", "Name of the snippet the function belongs to"⟩]
    else
      [⟨"Snippet_<Name>", "Code of the snippet's primary function"⟩,
        ⟨"Snippet_<Name>_FunctionName", "Name of the snippet's primary function"⟩,
        ⟨"Snippet_<Name>_AdditionalFunctions",
          "Every other function of the snippet, rendered with the snippet function template"⟩,
        ⟨"HasSnippet_<Name>_Start/HasSnippet_End", "Kept if the object defines the snippet"⟩,
        ⟨"HasNotSnippet_<Name>_Start/HasNotSnippet_End",
          "Kept if the object does not define the snippet"⟩]
  families := snippetFamilies

end RecordExport

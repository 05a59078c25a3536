import RecordExport.Resolver.Basic
/-!
# Filling placeholders

What the resolvers have in common: filling a placeholder with a value, keeping or dropping a block,
telling an item where it stands in its list, asking for language keys and for artefacts of functions
and objects. A collaborator is only asked for what the text at that moment mentions.
-/

namespace RecordExport

/-! ## 1. Values and blocks -/

/-- Some placeholder's name begins so. -/
def mentions (beginning : String) (t : Text) : Bool :=
  (tokenize t).any fun k => k.isPlaceholder && Text.beginsWith k.name beginning.toList

/-- A value in the place of every placeholder with a name. -/
def fill (name : String) (placement : Placement) (value : Text) (t : Text) : Text :=
  replaceScalars (.literal name.toList) placement t fun _ => value

/-- Keep or drop every block with a stem. -/
def gate (stem : String) (kept : Bool) (t : Text) : Text :=
  keepBlocks (.ofStem stem.toList) t fun _ => kept

/-- Put a text in the place of every placeholder with a name. It is made for the first of them and
    then used again. -/
def fillOnce (name : String) (make : RenderProgram Text) (t : Text) : RenderProgram Text := do
  let value (_ : List Text) : StateT (Option Text) RenderProgram Text := do
    match ← get with
    | some made => pure made
    | none =>
      let made ← make
      set (some made)
      pure made
  let (t, _) ← (replaceScalarsM (.literal name.toList) .fitted t value).run none
  pure t

/-! ## 2. Items of a list -/

/-- Tell an item where it stands. -/
def fillPosition (space : String) (p : ListPosition) (t : Text) : Text :=
  let t := gate (space ++ "_IsFirst") p.isFirst t
  let t := gate (space ++ "_IsNotFirst") (!p.isFirst) t
  let t := gate (space ++ "_IsLast") p.isLast t
  let t := gate (space ++ "_IsNotLast") (!p.isLast) t
  fill (space ++ "_Index") .inline (Json.decimal p.index) t

/-- What an item can say about where it stands. -/
def positionCatalog (space item : String) : List CatalogEntry :=
  let block (stem : String) : String :=
    space ++ "_" ++ stem ++ "_Start/" ++ space ++ "_" ++ stem ++ "_End"
  [⟨space ++ "_Index", "Zero-based index of the " ++ item⟩,
    ⟨block "IsFirst", "Kept for the first " ++ item⟩,
    ⟨block "IsNotFirst", "Kept for every " ++ item ++ " but the first"⟩,
    ⟨block "IsLast", "Kept for the last " ++ item⟩,
    ⟨block "IsNotLast", "Kept for every " ++ item ++ " but the last"⟩]

/-! ## 3. What others answer -/

/-- A language key in the place of every placeholder with a name, asked for each time. -/
def fillKey (name : String) (r : KeyRequest) (t : Text) : RenderProgram Text :=
  replaceScalarsM (.literal name.toList) .inline t fun _ => .languageKey r

/-- Texts that are not empty, with a blank line between. -/
def paragraphs (ts : List Text) : Text := ['\n', '\n'].intercalate (ts.filter (· ≠ []))

/-- Functions, each rendered as an artefact. -/
def renderFunctions (kind : ArtifactKind) (type : ObjectType) (subject : ScriptFunction → Subject)
    (fs : List ScriptFunction) : RenderProgram Text := do
  let parts ← fs.mapM fun f => do
    let t ← RenderProgram.artifact kind (.of (subject f) type) ("Function " ++ f.name)
    pure (trimBlankLines t)
  pure (paragraphs parts)

/-- The label of what is rendered for an object. -/
def objectLabel (type : ObjectType) (o : GameObject) : String := type.space ++ " " ++ o.name

/-- An object rendered as an artefact of its own. -/
def renderDetails (kind : ArtifactKind) (type : ObjectType) (o : GameObject) :
    RenderProgram Text :=
  .artifact kind (.of (.object o) type) (objectLabel type o)

/-- The objects that can be had, each with what names it. -/
def fetchObjects {α : Type} (id : α → String) : List α → RenderProgram (List (α × GameObject))
  | [] => pure []
  | a :: as => do
    let found ← RenderProgram.object (id a)
    let others ← fetchObjects id as
    pure (found.toList.map (a, ·) ++ others)

end RecordExport

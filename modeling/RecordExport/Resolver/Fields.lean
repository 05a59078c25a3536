import RecordExport.Decimal
import RecordExport.Resolver.Filling
/-!
# Fields of an object

The placeholders of an object in a namespace: its id and name, the values of its fields and their
language keys, and listings of its fields. An object is resolved in three passes, each over the text
the pass before it left:

1. conditions on fields. What a condition drops is gone before anything in it is looked at;
2. single values. A field that is read here is USED;
3. listings, which see the finished set of used fields wherever they stand in the text.

A field is looked up by its name or an alias. A value or a comparison that names no field is
reported; asking whether there is a field is not.
-/

namespace RecordExport

namespace FieldPlaceholder

/-! ## 1. Names -/

/-- The markers of a condition on a field, whose name is captured. -/
def condition (space stem closing : String) : BlockFamily :=
  ⟨.within space.toList [.fixed (stem ++ "_").toList, .captured, .fixed startTrail],
    .within space.toList [.fixed closing.toList]⟩

/-- The markers of a comparison of a field, whose name and the value are captured. -/
def comparison (space relation closing : String) : BlockFamily :=
  ⟨.within space.toList
      [.fixed "Value_".toList, .captured, .fixed ("_" ++ relation ++ "_").toList, .captured,
        .fixed startTrail],
    .within space.toList [.fixed closing.toList]⟩

/-- The blocks kept if there is a field. -/
def hasField (space : String) : BlockFamily := condition space "HasField" "HasField_End"

/-- The blocks kept if there is no such field. -/
def hasNotField (space : String) : BlockFamily := condition space "HasNotField" "HasNotField_End"

/-- The blocks kept if a field has another value. -/
def notEquals (space : String) : BlockFamily := comparison space "NotEquals" "Value_NotEquals_End"

/-- The blocks kept if a field has a value. -/
def equals (space : String) : BlockFamily := comparison space "Equals" "Value_Equals_End"

/-- The language key of a field's value. -/
def valueKey (space : String) : Pattern :=
  .within space.toList [.fixed "Value_".toList, .captured, .fixed "_LangKey".toList]

/-- The value of a field. It would also claim the names of `valueKey`, which is why keys come
    first. -/
def value (space : String) : Pattern := .within space.toList [.fixed "Value_".toList, .captured]

end FieldPlaceholder

/-! ## 2. Conditions -/

/-- The first capture of a name. -/
def firstCapture (captures : List Text) : Text := captures.getD 0 []

/-- The second capture of a name. -/
def secondCapture (captures : List Text) : Text := captures.getD 1 []

/-- Decide a comparison: on an unknown field it is reported and dropped. -/
def compareField (o : GameObject) (expected : Bool) (captures : List Text) : RenderProgram Bool :=
  match o.field? (firstCapture captures) with
  | some f => pure (sameValue f.value.toList (secondCapture captures) == expected)
  | none => do
    let _ ← RenderProgram.missing o.name (firstCapture captures)
    pure false

/-- Settle the conditions on an object's fields. -/
def resolveConditions (o : GameObject) (space : String) (t : Text) : RenderProgram Text := do
  let t := keepBlocks (FieldPlaceholder.hasField space) t fun cs =>
    (o.field? (firstCapture cs)).isSome
  let t := keepBlocks (FieldPlaceholder.hasNotField space) t fun cs =>
    (o.field? (firstCapture cs)).isNone
  let t ← keepBlocksM (FieldPlaceholder.notEquals space) t (compareField o false)
  keepBlocksM (FieldPlaceholder.equals space) t (compareField o true)

/-! ## 3. Single values -/

/-- A program that keeps the ids of the fields it used. -/
abbrev FieldProgram := StateT (List String) RenderProgram

/-- A field's value as it is written: numbers without blanks, all else escaped. -/
def fieldValue (f : Field) : RenderProgram Text :=
  if f.isNumber then pure (Text.trim f.value.toList) else .escaped f.value.toList

/-- What a field gives, which is used then; a name without a field is reported. -/
def useField (o : GameObject) (give : Field → RenderProgram Text) (captures : List Text) :
    FieldProgram Text :=
  match o.field? (firstCapture captures) with
  | some f => do
    modify (f.id :: ·)
    give f
  | none => RenderProgram.missing o.name (firstCapture captures)

/-- The request for the key of an object's name. -/
def nameKey (o : GameObject) (type : ObjectType) : KeyRequest := .forName o.id o.name type

/-- The request for the key of a field's value. -/
def fieldKey (o : GameObject) (type : ObjectType) (f : Field) : KeyRequest :=
  (nameKey o type).withField f.id f.name f.value

/-- Fill the single values of an object. -/
def resolveValues (o : GameObject) (type : ObjectType) (space : String) (t : Text) :
    FieldProgram Text := do
  let name ← RenderProgram.escaped o.name.toList
  let t := fill (space ++ "_Id") .inline o.id.toList t
  let t := fill (space ++ "_Name") .inline name t
  let t ← fillKey (space ++ "_Name_LangKey") (nameKey o type) t
  let key (f : Field) : RenderProgram Text := .languageKey (fieldKey o type f)
  let t ← replaceScalarsM (FieldPlaceholder.valueKey space) .inline t (useField o key)
  replaceScalarsM (FieldPlaceholder.value space) .fitted t (useField o fieldValue)

/-! ## 4. Listings -/

/-- The fields whose ids are not among the used ones, in the object's order. -/
def unusedFields (used : List String) (fs : List Field) : List Field :=
  fs.filter fun f => !used.contains f.id

/-- Put a listing of fields in the place of every placeholder with a name. -/
def fillListing (name : String) (o : GameObject) (type : ObjectType) (fs : List Field) (t : Text) :
    RenderProgram Text :=
  let context := (RenderContext.of (.object o) type).withFields fs
  fillOnce name (.artifact .fieldList context name) t

/-- Fill the listings of an object's fields. -/
def resolveListings (o : GameObject) (type : ObjectType) (space : String) (used : List String)
    (t : Text) : RenderProgram Text := do
  let unused := unusedFields used o.fields
  let t := gate (space ++ "_HasUnusedFields") (!unused.isEmpty) t
  let t ← fillListing (space ++ "_UnusedFields") o type unused t
  fillListing (space ++ "_AllFields") o type o.fields t

/-! ## 5. Objects -/

/-- **Resolve the placeholders of an object in a namespace.** -/
def resolveObject (o : GameObject) (type : ObjectType) (space : String) (t : Text) :
    RenderProgram Text := do
  let t ← resolveConditions o space t
  let (t, used) ← (resolveValues o type space t).run []
  resolveListings o type space used t

/-- Resolve the placeholders of an object inside the render of another. -/
def resolveNestedObject (o : GameObject) (type : ObjectType) (space : String) (t : Text) :
    RenderProgram Text :=
  .within (objectLabel type o) (resolveObject o type space t)

/-! ## 6. The resolver -/

/-- What an object offers in a namespace. -/
def fieldCatalog (space : String) : List CatalogEntry :=
  let p (rest : String) : String := space ++ "_" ++ rest
  let block (opens closes : String) : String := p opens ++ "/" ++ p closes
  [⟨p "Id", "Id of the object"⟩,
    ⟨p "Name", "Name of the object"⟩,
    ⟨p "Name_LangKey", "Language key of the object's name"⟩,
    ⟨p "Value_<Field>", "Value of a field, looked up by name or alias"⟩,
    ⟨p "Value_<Field>_LangKey", "Language key of a field's value"⟩,
    ⟨block "HasField_<Field>_Start" "HasField_End", "Kept if the object has the field"⟩,
    ⟨block "HasNotField_<Field>_Start" "HasNotField_End", "Kept if the object lacks the field"⟩,
    ⟨block "Value_<Field>_Equals_<Value>_Start" "Value_Equals_End",
      "Kept if the field has the given value"⟩,
    ⟨block "Value_<Field>_NotEquals_<Value>_Start" "Value_NotEquals_End",
      "Kept if the field does not have the given value"⟩,
    ⟨block "HasUnusedFields_Start" "HasUnusedFields_End",
      "Kept if some fields are not referenced by a value placeholder"⟩,
    ⟨p "UnusedFields", "Field list of the fields not referenced elsewhere"⟩,
    ⟨p "AllFields", "Field list of all fields"⟩]

/-- The families whose starts name a field and share an end marker, whatever the namespace. -/
def fieldFamilies : List BlockFamily :=
  let starts (parts : List NamePart) : Pattern := .ofParts (.filled :: parts)
  let ends (t : String) : Pattern := .ofParts [.filled, .fixed t.toList]
  [⟨starts [.fixed "_HasField_".toList, .filled, .fixed startTrail], ends "_HasField_End"⟩,
    ⟨starts [.fixed "_HasNotField_".toList, .filled, .fixed startTrail], ends "_HasNotField_End"⟩,
    ⟨starts [.fixed "_Value_".toList, .filled, .fixed "_NotEquals_".toList, .filled,
        .fixed startTrail], ends "_Value_NotEquals_End"⟩,
    ⟨starts [.fixed "_Value_".toList, .filled, .fixed "_Equals_".toList, .filled,
        .fixed startTrail], ends "_Value_Equals_End"⟩]

/-- Resolves an object's own placeholders. -/
def Resolver.fields : Resolver where
  name := "flex-field"
  applies k := k.space?.isSome
  resolve k c t :=
    match k.space? with
    | none => pure t
    | some space => do
      let o ← singleObject "flex-field" c
      resolveObject o c.objectType space t
  catalog k := (k.space?.map fieldCatalog).getD []
  families := fieldFamilies

end RecordExport

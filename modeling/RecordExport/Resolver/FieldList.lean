import RecordExport.Resolver.Fields
/-!
# Listings of fields

A listing repeats its block once for every field of its object. The object comes with the fields
that are to be listed, so a listing of unused fields is one of an object that has no others.
-/

namespace RecordExport

/-- One field of a listing. -/
def renderListedField (o : GameObject) (type : ObjectType) (f : Field) (p : ListPosition)
    (inner : Text) : RenderProgram Text := do
  let value ← fieldValue f
  let t := fillPosition "Field" p inner
  let t := gate "Field_IsNumber" f.isNumber t
  let t := gate "Field_IsText" (!f.isNumber) t
  let t := fill "Field_Id" .inline f.id.toList t
  let t := fill "Field_Name" .inline f.name.toList t
  let t := fill "Field_Type" .inline f.type.tag.toList t
  let t := fill "Field_Value" .fitted value t
  fillKey "Field_LangKey" (fieldKey o type f) t

/-- Resolves a listing of fields. -/
def Resolver.fieldList : Resolver where
  name := "field-list"
  applies k := k = .fieldList
  resolve _ c t := do
    let o ← singleObject "field-list" c
    expandBlocksM (.ofStem "Fields".toList) t o.fields (renderListedField o c.objectType)
  catalog _ :=
    [⟨"Fields_Start/Fields_End", "Repeated once per listed field"⟩,
      ⟨"Field_Id", "Id of the field"⟩,
      ⟨"Field_Name", "Name of the field"⟩,
      ⟨"Field_Value", "Value of the field, escaped unless numeric"⟩,
      ⟨"Field_Type", "Type of the field"⟩,
      ⟨"Field_LangKey", "Language key of the field's value"⟩,
      ⟨"Field_IsNumber_Start/Field_IsNumber_End", "Kept for numeric fields"⟩,
      ⟨"Field_IsText_Start/Field_IsText_End", "Kept for non-numeric fields"⟩]
      ++ positionCatalog "Field" "field"
  families := []

end RecordExport

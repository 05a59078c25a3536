import RecordExport.Proofs.Conditions.Inert
import RecordExport.Proofs.Fields.Export
import RecordExport.Proofs.Template.Laid
import RecordExport.Proofs.Template.ListBlocks
import RecordExport.Resolver.FieldList
/-!
# The built-in listing of fields

In the built-in template every field has a line: its name in quotes, then its value, which is quoted as well unless it
is a number, and a comma where another field follows.

* `insertion_beside`: a value that shares its line with other text never takes the line away;
* `Field.listed`: the line of a field;
* `fetches_renderListedField`: the block of the template gives way to it;
* `fieldListing`, `fetches_fieldListing`: **the listing is these lines**, and it asks for nothing but the settings.
-/

namespace RecordExport

open RenderProgram

variable {name v : Text}

/-! ## 1. Values beside other text -/

/-- **A value that shares its line with other text** loses its blank edge lines and stays where it is, whatever is
    left of it. -/
theorem insertion_beside {written : Text} (h : (Text.lastLine written).all isPadding = false) (rest v : Text) :
    insertion .fitted written rest v =
      ⟨written ++ applyIndent (leadingIndent written) (trimBlankLines v), false⟩ := by
  unfold insertion
  dsimp only
  split
  · rename_i hempty
    have halone : standsAlone written rest = false := by
      unfold standsAlone
      rw [h, Bool.false_and]
    rw [hempty, halone, if_neg Bool.false_ne_true, show applyIndent (leadingIndent written) [] = [] from rfl,
      List.append_nil]
  · rfl

/-! ## 2. The line of a field -/

/-- The quote around a value that is no number. -/
def valueQuote (number : Bool) : Text := if number then [] else ['"']

/-- A line up to the value of its field. -/
def listedFront (number : Bool) (name : Text) : Text :=
  "[\"".toList ++ (name ++ ("\"] = ".toList ++ valueQuote number))

/-- A line behind the value. -/
def listedBack (number last : Bool) : Text := valueQuote number ++ ((if last then [] else [',']) ++ ['\n'])

/-- **The line of a field in a listing**, which is more than one line if the name of the field is. -/
def Field.listed (s : EscapeSettings) (last : Bool) (f : Field) : Text :=
  let front := listedFront f.isNumber f.name.toList
  front ++ (applyIndent (leadingIndent front) (trimBlankLines (f.written s)) ++ listedBack f.isNumber last)

/-- A line begins with a bracket and so finds no indentation. -/
theorem leadingIndent_listedFront (number : Bool) (h : '\n' ∉ name) :
    leadingIndent (listedFront number name) = [] := by
  have hfixed : ∀ number, '\n' ∉ "\"] = ".toList ++ valueQuote number := by decide
  have hfeed : '\n' ∉ listedFront number name := by
    unfold listedFront
    simp only [List.mem_append, not_or] at hfixed ⊢
    exact ⟨by decide, h, hfixed number⟩
  unfold leadingIndent
  rw [Text.lastLine_of_not_mem hfeed]
  rfl

theorem Field.listed_of_not_mem {f : Field} (h : '\n' ∉ f.name.toList) (s : EscapeSettings) (last : Bool) :
    f.listed s last =
      listedFront f.isNumber f.name.toList ++ (trimBlankLines (f.written s) ++ listedBack f.isNumber last) := by
  unfold listed
  dsimp only
  rw [leadingIndent_listedFront _ h, applyIndent_nil]

/-- The line laid out, its value still to come. -/
def lineTokens (number last : Bool) (name : Token) : List Token :=
  [.literal "[\"".toList, name, .literal ("\"] = ".toList ++ valueQuote number)] ++
    .placeholder "Field_Value".toList :: [.literal (listedBack number last)]

theorem laid_lineTokens (number last : Bool) {k : Token} (hk : k.IsLaid) : Laid (lineTokens number last k) := by
  have hfront : ∀ number, Token.IsLaid (.literal ("\"] = ".toList ++ valueQuote number)) := by decide
  have hback : ∀ number last, Token.IsLaid (.literal (listedBack number last)) := by decide
  refine laid_append.2 ⟨laid_cons.2 ⟨by decide, laid_cons.2 ⟨hk, laid_cons.2 ⟨hfront number, ?_⟩⟩⟩, ?_⟩
  · decide
  exact laid_cons.2 ⟨by decide, laid_cons.2 ⟨hback number last, by decide⟩⟩

/-- In front of the value stands at least an equals sign, so the value is beside other text. -/
theorem fill_value (number last : Bool) (hname : '{' ∉ name) (v : Text) :
    fill "Field_Value" .fitted v (sourceOf (lineTokens number last (.literal name))) =
      listedFront number name ++
        (applyIndent (leadingIndent (listedFront number name)) (trimBlankLines v) ++ listedBack number last) := by
  have hsource : sourceOf [.literal "[\"".toList, .literal name, .literal ("\"] = ".toList ++ valueQuote number)] =
      listedFront number name := by
    simp only [sourceOf_cons, sourceOf_nil, Token.source, List.append_nil]
    rfl
  have hbeside : (Text.lastLine (listedFront number name)).all isPadding = false := by
    have hfixed : ∀ number, '\n' ∉ "\"] = ".toList ++ valueQuote number := by decide
    have hinked : ∀ number, ("\"] = ".toList ++ valueQuote number).all isPadding = false := by decide
    unfold listedFront
    rw [← List.append_assoc, Text.lastLine_append_of_not_mem (hfixed number), List.all_append, hinked, Bool.and_false]
  unfold lineTokens
  rw [(laid_lineTokens number last (Token.isLaid_literal hname)).fill_fitted ?_ (by decide) ?_ v]
  · rw [hsource, insertion_beside hbeside]
    simp [Token.source]
  · rintro k hk
    simp only [List.mem_cons, List.not_mem_nil, or_false] at hk
    rcases hk with rfl | rfl | rfl <;> rfl
  · rintro k hk
    rw [List.mem_singleton.1 hk]
    rfl

/-! ## 3. The block of the template -/

/-- The blocks that are repeated for every field. -/
def fieldBlocks : BlockFamily := .ofStem "Fields".toList

/-- What stands between the markers of the template. -/
def fieldLine : Text := (((BuiltIn.fieldList.drop 2).dropLast).dropLast).flatMap TemplatePiece.source

/-- **The template is one block**, whose markers take their lines with them. -/
theorem exists_fieldBlock : ∃ found, findBlock fieldBlocks (tokenize (BuiltIn.template .fieldList)) = some found ∧
    (Block.ofMatch [] found).head = [] ∧ (Block.ofMatch [] found).inner = fieldLine ∧
      (Block.ofMatch [] found).tail = [] := by
  have hparts : ((findBlock fieldBlocks (tokenize (BuiltIn.template .fieldList))).map (Block.ofMatch [])).map
      (fun b => (b.head, b.inner, b.tail)) = some ([], fieldLine, []) := by decide +kernel
  obtain ⟨b, hb, heq⟩ := Option.map_eq_some_iff.1 hparts
  obtain ⟨found, hfound, rfl⟩ := Option.map_eq_some_iff.1 hb
  obtain ⟨hhead, hrest⟩ := Prod.mk.inj heq
  obtain ⟨hinner, htail⟩ := Prod.mk.inj hrest
  exact ⟨found, hfound, hhead, hinner, htail⟩

/-- The conditions of the line, settled: it is quoted unless the value is a number, and ends with a comma unless the
    field is the last. -/
theorem settle_fieldLine (number : Bool) (p : ListPosition) :
    gate "Field_IsText" (!number) (gate "Field_IsNumber" number (fillPosition "Field" p fieldLine)) =
      sourceOf (lineTokens number p.isLast (.placeholder "Field_Name".toList)) := by
  let settled (first last : Bool) : Text :=
    gate "Field_IsNotLast" (!last) (gate "Field_IsLast" last
      (gate "Field_IsNotFirst" (!first) (gate "Field_IsFirst" first fieldLine)))
  have hindex : ∀ first last, mentions "Field_Index" (settled first last) = false := by decide +kernel
  have hsettled : ∀ first last number, gate "Field_IsText" (!number) (gate "Field_IsNumber" number
      (settled first last)) = sourceOf (lineTokens number last (.placeholder "Field_Name".toList)) := by
    decide +kernel
  have hposition : fillPosition "Field" p fieldLine = settled p.isFirst p.isLast :=
    fill_of_avoids (avoids_iff.2 (hindex p.isFirst p.isLast)) (List.prefix_refl _) .inline _
  rw [hposition]
  exact hsettled p.isFirst p.isLast number

/-! ## 4. The listing -/

/-- A field whose name and value make no placeholder. -/
structure Field.Listable (s : EscapeSettings) (f : Field) : Prop where
  name : '{' ∉ f.name.toList
  value : '{' ∉ f.written s

theorem Field.brace_not_mem_listed {s : EscapeSettings} {f : Field} (h : f.Listable s) (last : Bool) :
    '{' ∉ f.listed s last := by
  have hfixed : ∀ number, '{' ∉ "\"] = ".toList ++ valueQuote number := by decide
  have hback : ∀ number last, '{' ∉ listedBack number last := by decide
  unfold listed listedFront
  simp only [List.mem_append, not_or] at hfixed ⊢
  exact ⟨⟨by decide, h.name, hfixed _⟩, not_mem_fitted rfl h.value, hback _ _⟩

/-- **A field is rendered as its line.** -/
theorem fetches_renderListedField {s : EscapeSettings} {f : Field} (h : f.Listable s) (o : GameObject)
    (type : ObjectType) (p : ListPosition) (t : KeyTable) :
    (renderListedField o type f p fieldLine).Fetches s t [] (f.listed s p.isLast) := by
  have hid : ∀ number last, mentions "Field_Id"
      (sourceOf (lineTokens number last (.placeholder "Field_Name".toList))) = false := by decide +kernel
  have hnamed : ∀ number last, (lineTokens number last (.placeholder "Field_Name".toList)).map
      (Token.filled "Field_Name" f.name.toList) = lineTokens number last (.literal f.name.toList) := by
    intro number last
    rfl
  have htype : (sourceOf (lineTokens f.isNumber p.isLast (.literal f.name.toList))).Avoids "Field_Type".toList := by
    refine (laid_lineTokens _ _ (Token.isLaid_literal h.name)).avoids fun b hb => ?_
    obtain rfl : b = "Field_Value".toList := by simpa [lineTokens] using hb
    decide
  have hkey : (f.listed s p.isLast).Avoids "Field_LangKey".toList :=
    (Plain.of_unbraced (Field.brace_not_mem_listed h p.isLast)).avoids _
  unfold renderListedField
  refine (fetches_fieldValue s t f).then ?_
  dsimp only
  rw [settle_fieldLine, fill_of_avoids (avoids_iff.2 (hid _ _)) (List.prefix_refl _),
    (laid_lineTokens _ _ (by decide)).fill_inline, hnamed, fill_of_avoids htype (List.prefix_refl _),
    fill_value _ _ h.name]
  exact (fillKey_of_avoids hkey (List.prefix_refl _) _).symm ▸ fetches_pure _

/-- The lines of fields, joined as the items of a list. -/
def fieldListing (s : EscapeSettings) (fs : List Field) : Text :=
  joinItems ((positioned fs).map fun a => a.1.listed s a.2.isLast)

/-- **The built-in listing of fields is their lines.** -/
theorem fetches_fieldListing {s : EscapeSettings} {c : RenderContext} {o : GameObject} (hc : c.subject = .object o)
    (h : ∀ f ∈ o.fields, f.Listable s) (kind : ArtifactKind) (t : KeyTable) :
    (Resolver.fieldList.resolve kind c (BuiltIn.template .fieldList)).Fetches s t []
      (fieldListing s o.fields) := by
  obtain ⟨found, hfound, hhead, hinner, htail⟩ := exists_fieldBlock
  have honly : findBlock fieldBlocks (tokenize (Block.ofMatch [] found).tail) = none := by
    rw [htail, tokenize]
    rfl
  have hexpanded := expandBlocksM_of_only hfound honly o.fields (renderListedField o c.objectType)
  dsimp only at hexpanded
  rw [hhead, hinner, htail] at hexpanded
  have hlines : ∀ a ∈ positioned o.fields, ∀ t,
      (renderListedField o c.objectType a.1 a.2 fieldLine).Fetches s t [] (a.1.listed s a.2.isLast) := by
    intro a ha t
    have hmem : a.1 ∈ (positioned o.fields).map (·.1) := List.mem_map_of_mem ha
    rw [map_positioned] at hmem
    exact fetches_renderListedField (h _ hmem) o c.objectType a.2 t
  have hlisted := (fetches_items (t := t) hlines).then (f := fun listed => pure ([] ++ listed ++ [])) (fetches_pure _)
  unfold Resolver.fieldList fieldListing
  dsimp only
  rw [singleObject_eq hc, pure_bind, show BlockFamily.ofStem "Fields".toList = fieldBlocks from rfl, hexpanded]
  simpa only [List.nil_append, List.append_nil] using hlisted

end RecordExport

import RecordExport.Proofs.Fields.Shape
import RecordExport.Proofs.LanguageKeys.ObjectKeys
import RecordExport.Resolver.Standard
import RecordExport.Service.Rehearsal
/-!
# Fields exported by name

A field's name is free text. It goes into the marker of a condition and into the placeholder of a value, and
both have to read it back, each from between other fixed parts of a name.

* `IsFieldName`, `IsSpace`: what a name and a namespace may be made of. A name must not end like a marker, nor
  like a language key: the placeholder of its value would be one then;
* `fetches_fieldTemplate`: the program of an object in the text that exports a field, pass by pass;
* `Engine.run_fieldTemplate`: **a field that answers to such a name is exported under it**, and nothing else
  happens in the render.
-/

namespace RecordExport

open RenderProgram

/-! ## 1. Names of fields -/

/-- **A name under which a field can be exported.** It fits between the delimiters of a placeholder, and behind
    `Value_` it ends neither like a marker nor like a language key. -/
structure IsFieldName (n : Text) : Prop where
  chars : ∀ c ∈ n, isBodyChar c = true
  trimmed : Text.trim n = n
  not_start : ¬ startTrail <:+ '_' :: n
  not_end : ¬ endTrail <:+ '_' :: n
  not_key : ¬ "_LangKey".toList <:+ n

/-- A namespace whose placeholders can be written. -/
structure IsSpace (space : String) : Prop where
  chars : ∀ c ∈ space.toList, isBodyChar c = true
  trimmed : Text.trimStart space.toList = space.toList

/-- A name in a namespace. -/
def nameIn (space : String) (rest : Text) : Text := (space ++ "_").toList ++ rest

section Names

variable {space : String} {n rest : Text}

theorem isBody_nameIn (hspace : IsSpace space) (h : ∀ c ∈ rest, isBodyChar c = true) :
    IsBody (nameIn space rest) := by
  have hline : (space ++ "_").toList = space.toList ++ ['_'] := String.toList_append
  unfold nameIn
  rw [hline]
  refine ⟨by simp, fun c hc => ?_⟩
  simp only [List.mem_append, List.mem_singleton] at hc
  rcases hc with (hc | rfl) | hc
  · exact hspace.chars c hc
  · rfl
  · exact h c hc

theorem trim_nameIn (hspace : IsSpace space) (hne : rest ≠ []) (h : Text.trimEnd rest = rest) :
    Text.trim (nameIn space rest) = nameIn space rest := by
  have hline : (space ++ "_").toList = space.toList ++ ['_'] := String.toList_append
  have hstart : Text.trimStart (space ++ "_").toList = (space ++ "_").toList := by
    rw [hline]
    by_cases hempty : space.toList = []
    · rw [hempty]
      rfl
    · exact Text.trimStart_append hempty hspace.trimmed _
  unfold Text.trim nameIn
  rw [Text.trimStart_append (by rw [hline]; simp) hstart, Text.trimEnd_append hne h]

theorem trimEnd_value (h : IsFieldName n) : Text.trimEnd ("Value_".toList ++ n) = "Value_".toList ++ n := by
  by_cases hn : n = []
  · rw [hn]
    rfl
  · exact Text.trimEnd_append hn (Text.trimEnd_of_trim h.trimmed) _

/-- The placeholder of a value stands for a value. -/
theorem shape_value (h : IsFieldName n) (space : String) :
    Token.shapeOfName (nameIn space ("Value_".toList ++ n)) = .scalar := by
  have hsplit : nameIn space ("Value_".toList ++ n) = ((space ++ "_").toList ++ "Value".toList) ++ '_' :: n := by
    unfold nameIn
    rw [List.append_assoc]
    rfl
  have hstart : (nameIn space ("Value_".toList ++ n)).endsIn startTrail = false := by
    refine Bool.eq_false_iff.2 fun hends => h.not_start ?_
    rw [hsplit] at hends
    exact suffix_of_underscore (by decide) (List.isSuffixOf_iff_suffix.1 hends)
  have hend : (nameIn space ("Value_".toList ++ n)).endsIn endTrail = false := by
    refine Bool.eq_false_iff.2 fun hends => h.not_end ?_
    rw [hsplit] at hends
    exact suffix_of_underscore (by decide) (List.isSuffixOf_iff_suffix.1 hends)
  unfold Token.shapeOfName
  rw [hstart, hend]
  rfl

/-- Parts within a namespace are told by what stands behind its underscore. -/
theorem captures_nameIn (space : String) (ps : List NamePart) (rest : Text) :
    (Pattern.within space.toList ps).captures (nameIn space rest) = partCaptures ps rest := by
  have hline : (space ++ "_").toList = space.toList ++ ['_'] := String.toList_append
  unfold nameIn
  rw [hline]
  exact partCaptures_fixed _ _ _

theorem captures_value (hn : '\n' ∉ n) :
    (FieldPlaceholder.value space).captures (nameIn space ("Value_".toList ++ n)) = some [n] := by
  have hall : cutLongest (partCaptures []) n = some (n, []) := by
    have hcut := cutLongest_fixed hn []
    rwa [List.append_nil] at hcut
  refine (captures_nameIn space _ _).trans ?_
  rw [partCaptures_fixed, partCaptures.eq_def]
  dsimp only
  rw [hall]
  rfl

theorem captures_valueKey_eq_none (h : IsFieldName n) :
    (FieldPlaceholder.valueKey space).captures (nameIn space ("Value_".toList ++ n)) = none := by
  refine (captures_nameIn space _ _).trans ?_
  rw [partCaptures_fixed]
  refine Option.not_isSome_iff_eq_none.1 fun hsome => h.not_key ?_
  have hspelled : Spelled ([.captured] ++ [.fixed "_LangKey".toList]) n := isMatch_parts_iff.1 hsome
  exact suffix_of_spelled hspelled

theorem captures_hasField (hn : '\n' ∉ n) :
    (FieldPlaceholder.hasField space).opens.captures (nameIn space ("HasField_".toList ++ (n ++ startTrail))) =
      some [n] := by
  refine (captures_nameIn space _ _).trans ?_
  rw [show ("HasField" ++ "_").toList = "HasField_".toList from rfl, partCaptures_fixed, partCaptures.eq_def]
  dsimp only
  rw [cutLongest_fixed hn]
  rfl

end Names

/-! ## 2. The condition on the field -/

/-- What opens the block of a field. -/
def openingName (space : String) (n : Text) : Text := nameIn space ("HasField_".toList ++ (n ++ startTrail))

/-- What stands for the value of a field. -/
def valueName (space : String) (n : Text) : Text := nameIn space ("Value_".toList ++ n)

/-- What closes the block of a field. -/
def closingName (space : String) : Text := nameIn space "HasField_End".toList

/-- The text that exports a field: its value, in a block that asks for the field. -/
def fieldTemplate (space : String) (n : Text) : Text :=
  braced (openingName space n) ++ (braced (valueName space n) ++ braced (closingName space))

section Markers

variable {space : String} {n : Text} (hspace : IsSpace space) (hn : IsFieldName n)

include hn in
theorem feed_not_mem : '\n' ∉ n := fun hm => by cases hn.chars _ hm

include hspace hn in
theorem isBody_openingName : IsBody (openingName space n) := by
  refine isBody_nameIn hspace ?_
  rw [List.forall_mem_append, List.forall_mem_append]
  exact ⟨List.all_eq_true.1 (by decide), hn.chars, List.all_eq_true.1 (by decide)⟩

include hspace hn in
theorem isBody_valueName : IsBody (valueName space n) := by
  refine isBody_nameIn hspace ?_
  rw [List.forall_mem_append]
  exact ⟨List.all_eq_true.1 (by decide), hn.chars⟩

include hspace in
theorem isBody_closingName : IsBody (closingName space) := 
  isBody_nameIn hspace (List.all_eq_true.1 (by decide))

include hspace hn in
theorem tokenize_fieldTemplate :
    tokenize (fieldTemplate space n) = [.placeholder (openingName space n), .placeholder (valueName space n),
      .placeholder (closingName space)] := by
  have hlast := tokenize_braced (isBody_closingName hspace) []
  rw [List.append_nil] at hlast
  unfold fieldTemplate
  rw [tokenize_braced (isBody_openingName hspace hn), tokenize_braced (isBody_valueName hspace hn), hlast, tokenize]

include hspace in
theorem trim_openingName : Text.trim (openingName space n) = openingName space n := by
  refine trim_nameIn hspace (by simp) ?_
  rw [← List.append_assoc]
  exact Text.trimEnd_append (by decide) (by decide) _

include hspace hn in
theorem isOpening_openingName :
    (FieldPlaceholder.hasField space).isOpening (.placeholder (openingName space n)) = true := by
  have hends : (openingName space n).endsIn startTrail = true := by
    refine List.isSuffixOf_iff_suffix.2 ⟨nameIn space ("HasField_".toList ++ n), ?_⟩
    unfold openingName nameIn
    rw [List.append_assoc, List.append_assoc]
  have hshape : (Token.placeholder (openingName space n)).shape = .blockStart := by
    show Token.shapeOfName (Text.trim _) = _
    rw [trim_openingName hspace]
    exact if_pos hends
  have hmatch : (FieldPlaceholder.hasField space).opens.isMatch (Text.trim (openingName space n)) = true := by
    unfold Pattern.isMatch
    rw [trim_openingName hspace, openingName, captures_hasField (feed_not_mem hn)]
    rfl
  exact Bool.and_eq_true_iff.2 ⟨decide_eq_true hshape, hmatch⟩

include hspace in
theorem isClosing_closingName :
    (FieldPlaceholder.hasField space).isClosing (.placeholder (closingName space)) = true := by
  have htrim : Text.trim (closingName space) = closingName space := trim_nameIn hspace (by decide) (by decide)
  have hsplit : closingName space = nameIn space "HasField".toList ++ '_' :: "End".toList := by
    unfold closingName nameIn
    rw [List.append_assoc]
    rfl
  have hend : (closingName space).endsIn endTrail = true :=
    List.isSuffixOf_iff_suffix.2 ⟨_, hsplit.symm⟩
  have hstart : (closingName space).endsIn startTrail = false := by
    refine Bool.eq_false_iff.2 fun hends => ?_
    rw [hsplit] at hends
    have hshort := suffix_of_underscore (r := "Start".toList) (by decide) (List.isSuffixOf_iff_suffix.1 hends)
    exact absurd hshort (by decide)
  have hshape : (Token.placeholder (closingName space)).shape = .blockEnd := by
    show Token.shapeOfName (Text.trim _) = _
    unfold Token.shapeOfName
    rw [htrim, hstart, hend]
    rfl
  have hmatch : (FieldPlaceholder.hasField space).closes.isMatch (Text.trim (closingName space)) = true := by
    have hcaptures := captures_nameIn space [.fixed "HasField_End".toList] "HasField_End".toList
    rw [htrim]
    exact (congrArg Option.isSome hcaptures).trans rfl
  exact Bool.and_eq_true_iff.2 ⟨decide_eq_true hshape, hmatch⟩

/-- The place of the value, by itself. -/
def valuePlace : LonePlace where
  before := []
  body := valueName space n
  behind := []
  plain_before := List.not_mem_nil
  plain_behind := List.not_mem_nil
  isBody := isBody_valueName hspace hn

theorem name_valuePlace : (valuePlace hspace hn).name = valueName space n :=
  trim_nameIn hspace (by simp) (trimEnd_value hn)

theorem shape_valuePlace : Token.shapeOfName (valuePlace hspace hn).name = .scalar := by
  rw [name_valuePlace]
  exact shape_value hn space

include hspace hn in
/-- The markers enclose the value, and nothing else. -/
theorem findBlock_fieldTemplate :
    findBlock (FieldPlaceholder.hasField space) (tokenize (fieldTemplate space n)) =
      some ⟨[n], [], .placeholder (openingName space n), [.placeholder (valueName space n)],
        .placeholder (closingName space), []⟩ := by
  have hshape : (Token.placeholder (valueName space n)).shape = .scalar := shape_valuePlace hspace hn
  have hopens : (FieldPlaceholder.hasField space).isOpening (.placeholder (valueName space n)) = false := by
    unfold BlockFamily.isOpening
    rw [hshape]
    rfl
  have hcloses : (FieldPlaceholder.hasField space).isClosing (.placeholder (valueName space n)) = false := by
    unfold BlockFamily.isClosing
    rw [hshape]
    rfl
  have hclose : findClose (FieldPlaceholder.hasField space) 0
      [.placeholder (valueName space n), .placeholder (closingName space)] =
        some ⟨[.placeholder (valueName space n)], .placeholder (closingName space), []⟩ := by
    rw [findClose_of_other hopens hcloses, findClose_of_closing (isClosing_closingName hspace)]
    rfl
  obtain ⟨cs, hcs, hfound⟩ := findBlock_cons_of_closed (isOpening_openingName hspace hn) hclose
  have hcaptures : (FieldPlaceholder.hasField space).opens.captures (Text.trim (openingName space n)) =
      some [n] := by
    rw [trim_openingName hspace]
    exact captures_hasField (feed_not_mem hn)
  obtain rfl := Option.some.inj (hcs.symm.trans hcaptures)
  rw [tokenize_fieldTemplate hspace hn]
  exact hfound

end Markers

section Passes

variable {space : String} {n : Text} {o : GameObject} {f : Field}

/-- In the middle of a line a marker takes nothing with it. -/
theorem edges_braced {b : Text} (hb : IsBody b) :
    Text.opensBlank (braced b) = false ∧ Text.closesBlank (braced b) = false := by
  have hfeed : '\n' ∉ braced b := by
    intro hm
    simp only [braced, List.mem_cons, List.mem_append, List.not_mem_nil, or_false] at hm
    rcases hm with h | h | h | h | h
    · cases h
    · cases h
    · cases hb.chars _ h
    · cases h
    · cases h
  unfold Text.opensBlank Text.closesBlank
  rw [decide_eq_false hfeed, Bool.false_and, Bool.false_and]
  exact ⟨rfl, rfl⟩

/-- **The condition is met**: the value stays, and the markers go. -/
theorem settle_fieldTemplate (hspace : IsSpace space) (hn : IsFieldName n) (hf : o.field? n = some f) :
    FieldCondition.settle o space (fieldTemplate space n) .has = pure (valuePlace hspace hn).text := by
  have hwalk := walksBy_keepFrom (FieldPlaceholder.hasField space) (FieldCondition.decision o .has)
  have hmet : FieldCondition.decision o .has [n] = pure true := by
    show pure (o.field? n).isSome = _
    rw [hf]
    rfl
  obtain ⟨hopens, hcloses⟩ := edges_braced (isBody_valueName hspace hn)
  have hbraced : sourceOf [.placeholder (valueName space n)] = braced (valueName space n) := List.append_nil _
  obtain ⟨hcaptures, hhead, hinner, htail⟩ := Block.ofMatch_eq []
    (m := ⟨[n], [], .placeholder (openingName space n), [.placeholder (valueName space n)],
      .placeholder (closingName space), []⟩) rfl rfl
  simp only [hbraced, innerLines, opensLine, closesLine, hopens, hcloses, Bool.and_false, Bool.false_and,
    Bool.false_eq_true, if_false] at hhead hinner htail
  have hgoes : keepFrom (FieldPlaceholder.hasField space) (FieldCondition.decision o .has) []
      (fieldTemplate space n) = _ := hwalk.goes (findBlock_fieldTemplate hspace hn)
  have hends : keepFrom (FieldPlaceholder.hasField space) (FieldCondition.decision o .has) []
      (valuePlace hspace hn).text = _ := hwalk.ends (LonePlace.findBlock_eq_none (shape_valuePlace hspace hn) _)
  unfold keepStep at hgoes
  rw [hcaptures, hhead, hinner, htail, hmet, pure_bind, pure_bind] at hgoes
  exact hgoes.trans hends

/-- The other conditions find nothing in what is left. -/
theorem settleAll_fieldTemplate (hspace : IsSpace space) (hn : IsFieldName n) (hf : o.field? n = some f) :
    FieldCondition.all.foldlM (FieldCondition.settle o space) (fieldTemplate space n) =
      pure (valuePlace hspace hn).text := by
  have hrest : ∀ c, FieldCondition.settle o space (valuePlace hspace hn).text c = pure (valuePlace hspace hn).text :=
    fun c => (walksBy_keepFrom _ _).ends (LonePlace.findBlock_eq_none (shape_valuePlace hspace hn) _)
  unfold FieldCondition.all
  simp only [List.foldlM_cons, List.foldlM_nil, settle_fieldTemplate hspace hn hf, hrest, pure_bind]

/-! ## 3. The value -/

theorem Plain.of_infix {l m : Text} (h : Plain l) (hs : m <:+: l) : Plain m := by
  obtain ⟨x, y, rfl⟩ := hs
  intro a b r hb heq
  refine h (x ++ a) b (r ++ y) hb ?_
  rw [heq]
  simp only [List.append_assoc]

theorem Plain.of_unbraced {l : Text} (h : '{' ∉ l) : Plain l := by
  rintro a b r - rfl
  exact h (List.mem_append_right _ (List.mem_append_left _ List.mem_cons_self))

/-- In a plain text no name is looked for in vain or found. -/
theorem Plain.avoids {l : Text} (h : Plain l) (start : Text) : l.Avoids start := by
  intro b hb
  obtain ⟨pre, post, hsplit⟩ := List.append_of_mem hb
  have hsource := source_tokenize l
  rw [hsplit, sourceOf_append, sourceOf_cons] at hsource
  exact absurd hsource.symm (h _ b _ (isBody_of_mem_tokenize hb))

/-- The value alone in the text is all of it. -/
theorem placeValues_valuePlace (hspace : IsSpace space) (hn : IsFieldName n) (v : Text) :
    placeValues (FieldPlaceholder.value space) .fitted [v] (valuePlace hspace hn).text = trimBlankLines v := by
  let u := valuePlace hspace hn
  have hvalue : (FieldPlaceholder.value space).captures u.name = some [n] := by
    rw [name_valuePlace]
    exact captures_value (feed_not_mem hn)
  have hasked := LonePlace.scalarsIn_of_captures (shape_valuePlace hspace hn) hvalue
  have hplaced := replaceScalars_eq (FieldPlaceholder.value space) .fitted u.text fun _ => v
  have hpass : replaceScalars (FieldPlaceholder.value space) .fitted u.text (fun _ => v) =
      onePass (m := Id) (FieldPlaceholder.value space) .fitted (fun _ => v) [] false (tokenize u.text) :=
    replaceAllM_eq_onePass _ (ScalarWalk.start (FieldPlaceholder.value space) .fitted u.text)
  have htokens : tokenize u.text = [.placeholder u.body] := by
    rw [u.tokenize_text]
    show tokenize [] ++ .placeholder u.body :: tokenize [] = _
    rw [tokenize]
    rfl
  rw [hasked] at hplaced
  rw [htokens, onePass_of_some ((LonePlace.scalarCaptures_of_scalar (shape_valuePlace hspace hn) _).trans hvalue)]
    at hpass
  refine (hplaced.symm.trans hpass).trans ?_
  show (insertion .fitted [] (sourceOf []) v).written = _
  unfold insertion
  dsimp only
  split
  · rename_i hempty
    rw [hempty]
    rfl
  · exact applyIndent_nil _

/-- A field's value, as it is written, is all that is asked for. -/
theorem fetches_fieldValue (settings : EscapeSettings) (t : KeyTable) (f : Field) :
    (fieldValue f).Fetches settings t [] (f.written settings) := by
  unfold fieldValue Field.written
  cases f.isNumber with
  | true => exact fetches_pure _
  | false => exact fetches_escaped _

/-- **The program of an object exports the field**: it asks for nothing but the settings. -/
theorem fetches_fieldTemplate (hspace : IsSpace space) (hn : IsFieldName n) (hf : o.field? n = some f)
    (type : ObjectType) {settings : EscapeSettings} (hplain : Plain (f.written settings)) (t : KeyTable) :
    (resolveObject o type space (fieldTemplate space n)).Fetches settings t []
      (trimBlankLines (f.written settings)) := by
  let u := valuePlace hspace hn
  have hname := name_valuePlace hspace hn
  have hne : ∀ rest : String, ¬ "_Value_".toList <+: rest.toList → u.name ≠ (space ++ rest).toList := by
    intro rest hrest heq
    have hbegins : space.toList ++ ("_Value_".toList ++ n) = space.toList ++ rest.toList := by
      rw [← String.toList_append, ← heq, hname]
      unfold valueName nameIn
      rw [String.toList_append, List.append_assoc]
      rfl
    exact hrest ⟨n, List.append_cancel_left hbegins⟩
  have hidentity : (fillIdentity o type space u.text).Fetches settings t [] u.text := by
    have hkept : fillKey (space ++ "_Name_LangKey") (nameKey o type) u.text = pure u.text := by
      unfold fillKey
      rw [replaceScalarsM_eq, u.scalarsIn_literal_of_ne (hne "_Name_LangKey" (by decide))]
      rfl
    unfold fillIdentity
    refine (fetches_escaped _).then ?_
    rw [u.fill_of_ne (hne "_Id" (by decide)), u.fill_of_ne (hne "_Name" (by decide)), hkept]
    exact fetches_pure _
  have hkeys : scalarsIn (FieldPlaceholder.valueKey space) u.text = [] := by
    rw [u.scalarsIn_text, LonePlace.scalarCaptures_of_scalar (shape_valuePlace hspace hn), hname]
    exact congrArg Option.toList (captures_valueKey_eq_none hn)
  have hvalues : scalarsIn (FieldPlaceholder.value space) u.text = [[n]] := by
    refine LonePlace.scalarsIn_of_captures (shape_valuePlace hspace hn) ?_
    rw [hname]
    exact captures_value (feed_not_mem hn)
  have hgiven : giveField o fieldValue [n] = fieldValue f := by
    unfold giveField
    rw [show o.field? (firstCapture [n]) = some f from hf]
  have hunkeyed : placeValues (FieldPlaceholder.valueKey space) .inline [] u.text = u.text := rfl
  have hleft := (hplain.of_infix (infix_trimBlankLines _)).avoids (space ++ "_").toList
  rw [resolveObject_eq, settleAll_fieldTemplate hspace hn hf, pure_bind]
  refine hidentity.then ?_
  simp only [hkeys, List.mapM_nil, pure_bind, hunkeyed, hvalues, List.mapM_cons, hgiven, bind_assoc]
  refine (fetches_fieldValue settings t f).then ?_
  rw [placeValues_valuePlace, fillListings_of_avoids hleft]
  exact fetches_pure _

/-- A program that asks for no key and nobody else leaves the session of its render as it is. -/
theorem Engine.run_of_fetches_nothing {ω α : Type} {e : Engine ω} {nested : NestedRender ω} {depth : Nat}
    {p : RenderProgram α} {t : KeyTable} {a : α} (h : p.Fetches e.services.escape t [] a) (s : Session ω) :
    run (e.answer nested depth) p s = (.ok a, s) := by
  generalize hrs : ([] : List KeyRequest) = rs at h
  generalize hsettings : e.services.escape = settings at h
  induction h with
  | done a t => rfl
  | settings h ih =>
    rw [run, SessionM.bind_apply]
    subst hsettings
    exact ih hrs
  | key h ih => cases hrs

/-- **Every field can be exported by name.** For a field that answers to a name and whose value, as it is
    written, holds no placeholder, the text with the field's value in a block for the field is resolved to
    that value without its blank edge lines. Nobody is called, nothing is reported and nothing is kept. -/
theorem Engine.run_fieldTemplate {ω : Type} (e : Engine ω) (nested : NestedRender ω) (depth : Nat)
    (s : Session ω) {o : GameObject} {f : Field} {space : String} {n : Text} (type : ObjectType)
    (hspace : IsSpace space) (hn : IsFieldName n) (hf : o.field? n = some f)
    (hplain : Plain (f.written e.services.escape)) :
    run (e.answer nested depth) (resolveObject o type space (fieldTemplate space n)) s =
      (.ok (trimBlankLines (f.written e.services.escape)), s) :=
  run_of_fetches_nothing (fetches_fieldTemplate hspace hn hf type hplain .empty) s

end Passes

/-- A character with one number. -/
def runner (name other : String) : GameObject :=
  ⟨"a", "Goblin", .npc, [⟨"1", name, .number, " 12 ", [other]⟩], [], [], [], []⟩

theorem Engine.run_fieldTemplate_alias :
    let e := Engine.standard (Services.inMemory ⟨[], []⟩ .builtIn .standard) 16
    let s : Session KeyTable := .start .empty false
    run (e.answer (e.nested 16) 0)
        (resolveObject (runner "Pace" "Speed_Equals_") .npc "Npc" (fieldTemplate "Npc" "speed_equals_".toList)) s =
      (.ok "12".toList, s) := by
  intro e s
  have hplain : Plain "12".toList := .of_unbraced (by decide)
  exact run_fieldTemplate e (e.nested 16) 0 s .npc (f := ⟨"1", "Pace", .number, " 12 ", ["Speed_Equals_"]⟩)
    ⟨List.all_eq_true.1 (by decide), by decide⟩
    ⟨List.all_eq_true.1 (by decide), by decide, by decide, by decide, by decide⟩ (by decide) hplain

/-- A name that ends like a language key is read as that of another field's key, and one that ends like a marker
    leaves the placeholder of its value in the text. -/
theorem Engine.run_fieldTemplate_misread :
    let e := Engine.standard (Services.inMemory ⟨[], []⟩ .builtIn .standard) 16
    let s : Session KeyTable := .start .empty false
    let exported (n : String) : Except RenderError Text × List Diagnostic :=
      let (r, s) := run (e.answer (e.nested 16) 0)
        (resolveObject (runner n n) .npc "Npc" (fieldTemplate "Npc" n.toList)) s
      (r, s.log.entries)
    ((runner "Speed_LangKey" "Speed_LangKey").field? "Speed_LangKey".toList).isSome = true ∧
      exported "Speed_LangKey" = (.ok "<<Goblin[Speed] MISSING>>".toList,
        [⟨[], .missingReference, "Goblin has no field 'Speed'"⟩]) ∧
      ((runner "Speed_Start" "Speed_Start").field? "Speed_Start".toList).isSome = true ∧
      exported "Speed_Start" = (.ok (braced "Npc_Value_Speed_Start".toList), []) := by
  decide +kernel

end RecordExport

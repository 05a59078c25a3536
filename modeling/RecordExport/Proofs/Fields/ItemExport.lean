import RecordExport.Proofs.Fields.Listing
import RecordExport.Proofs.Render.Additions
import RecordExport.Proofs.Render.Course
import RecordExport.Proofs.Snippets.Texts
/-!
# The built-in export of an item

The built-in template of an item names its id, its name and the key of its name, and lists its fields. Two
collaborators are asked for it: for the key, and for the template of the listing.

* `itemText`: the text with everything in its place;
* `Engine.nested_fieldListing`: the listing, as a render of its own;
* `Engine.run_resolveObject_item`: the program of an item fills the template with these;
* `Engine.exportsItem`: **so does a render**, which ends with this text.
-/

namespace RecordExport

open RenderProgram

variable {ω α β : Type}

/-! ## 1. The text -/

/-- The row of the template up to the listing. -/
def itemFront (id name key : Token) : List Token :=
  [.literal "\x7b\n".toList, .literal "    id = \"".toList, id, .literal "\",\n".toList,
    .literal "    name = \"".toList, name, .literal "\",\n".toList, .literal "    name_key = \"".toList, key,
    .literal "\",\n".toList, .literal "    ".toList]

/-- The row behind the listing. -/
def itemBack : List Token := [.literal "\n".toList, .literal "\x7d".toList]

/-- The row of the template. -/
def itemRow (id name key : Token) : List Token :=
  itemFront id name key ++ .placeholder "Item_AllFields".toList :: itemBack

/-- **The text of an item**: its id, its name, the key of its name and the listing of its fields, which takes its line
    away if there is nothing of it. -/
def itemText (id name key listing : Text) : Text :=
  let front := sourceOf (itemFront (.literal id) (.literal name) (.literal key))
  let i := insertion .fitted front (sourceOf itemBack) listing
  i.written ++ if i.dropsLine then (sourceOf itemBack).behindLine else sourceOf itemBack

theorem template_item : BuiltIn.template .item = sourceOf (itemRow (.placeholder "Item_Id".toList)
    (.placeholder "Item_Name".toList) (.placeholder "Item_Name_LangKey".toList)) :=
  BuiltIn.template_eq .item

section Row

variable {id name key listing : Text}

theorem laid_itemRow {id name key : Token} (hid : id.IsLaid) (hname : name.IsLaid) (hkey : key.IsLaid) :
    Laid (itemRow id name key) := by
  simp only [itemRow, itemFront, itemBack, List.cons_append, List.nil_append, laid_cons, hid, hname, hkey, true_and]
  decide

/-- The listing in its place. -/
theorem fill_listing (hid : '{' ∉ id) (hname : '{' ∉ name) (hkey : '{' ∉ key) (listing : Text) :
    fill "Item_AllFields" .fitted listing (sourceOf (itemRow (.literal id) (.literal name) (.literal key))) =
      itemText id name key listing := by
  have hlaid : Laid (itemRow (.literal id) (.literal name) (.literal key)) :=
    laid_itemRow (Token.isLaid_literal hid) (Token.isLaid_literal hname) (Token.isLaid_literal hkey)
  refine hlaid.fill_fitted ?_ (by decide) ?_ listing
  · intro k hk
    have hliteral : ∃ l, k = .literal l := by
      simp only [itemFront, List.mem_cons, List.not_mem_nil, or_false] at hk
      rcases hk with rfl | rfl | rfl | rfl | rfl | rfl | rfl | rfl | rfl | rfl | rfl <;> exact ⟨_, rfl⟩
    obtain ⟨l, rfl⟩ := hliteral
    rfl
  · decide

end Row

/-! ## 2. Programs, one after the other -/

namespace Engine

variable {answer : (o : RenderOp) → SessionM ω o.Answer} {s s' : Session ω}

theorem run_bind_of_ok {p : RenderProgram α} {a : α} (hp : run answer p s = (.ok a, s'))
    (f : α → RenderProgram β) :
    run answer (p >>= f) s = run answer (f a) s' := by
  rw [run_bind, SessionM.bind_apply, hp]

variable {e : Engine ω} {nested : NestedRender ω} {depth : Nat} {w : ω}

/-- A key that is had. -/
theorem run_languageKey (hs : s.cancelled = false) {r : KeyRequest} {key : String}
    (hkey : e.services.languageKey r s.world = ⟨.ok key, false, w⟩) :
    run (e.answer nested depth) (languageKey r) s = (.ok key.toList, { s with world := w }) := by
  have hcall := SessionM.callOrReport_of_ok hs (congrArg Reply.result hkey)
  have hanswer : e.answer nested depth (.languageKey r) s = (.ok key, { s with world := w }) := by
    rw [answer, SessionM.bind_apply, hcall, hkey, hs]
    obtain ⟨_, _, _, _⟩ := s
    obtain rfl := hs
    rfl
  have hrequest : run (e.answer nested depth) (request (.languageKey r)) s = (.ok key, { s with world := w }) := by
    rw [run_request, hanswer]
  exact run_bind_of_ok hrequest fun key => pure key.toList

/-- An artefact in the template that is had for it. -/
theorem run_artifact {kind : ArtifactKind} {c : RenderContext} {label : String} {t out : Text}
    (hs : s.cancelled = false)
    (htemplate : e.services.template e.services.projectId kind s.world = ⟨.ok (.placeholder t), false, w⟩)
    (hnested : nested ⟨kind, t, c, some label⟩ { s with world := w } = (.ok (.ok out), s')) :
    run (e.answer nested depth) (RenderProgram.artifact kind c label) s = (.ok out, s') := by
  have hcall := SessionM.callOrReport_of_ok hs (congrArg Reply.result htemplate)
  have hstate : (⟨w, s.log, s.memo, s.cancelled || false⟩ : Session ω) = { s with world := w } := by
    rw [Bool.or_false]
  rw [RenderProgram.artifact, run_request]
  show e.artifact nested kind c label s = _
  unfold Engine.artifact
  rw [SessionM.bind_apply, hcall, htemplate]
  dsimp only [DefaultTemplate.placeholder]
  rw [if_pos rfl, SessionM.bind_apply, hstate, hnested]
  rfl

/-! ## 3. The listing -/

section Standard

variable {services : Services ω} {maxDepth left : Nat} {o : GameObject} {type : ObjectType}

/-- The built-in listing has no issues. -/
theorem validate_fieldListing (services : Services ω) (maxDepth : Nat) :
    (Engine.standard services maxDepth).validate (BuiltIn.template .fieldList) = [] := by
  refine validate_eq_nil_iff.2 ?_
  rw [Engine.families_standard]
  decide +kernel

/-- **A render of the built-in listing** gives the lines of the fields and leaves the session as it was. -/
theorem pass_fieldListing {c : RenderContext} (hc : c.subject = .object o)
    (h : ∀ f ∈ o.fields, f.Listable services.escape) (hs : s.cancelled = false) :
    (Engine.standard services maxDepth).pass left .fieldList c (BuiltIn.template .fieldList) s =
      (.ok (fieldListing services.escape o.fields), s) := by
  have hreported : (Engine.standard services maxDepth).reported (BuiltIn.template .fieldList) s = s := by
    unfold reported
    rw [validate_fieldListing]
    rfl
  have happlicable : (Engine.standard services maxDepth).applicable .fieldList = [.fieldList] :=
    applicable_standard services maxDepth .fieldList
  have hfetched : (Resolver.fieldList.resolve .fieldList c (BuiltIn.template .fieldList)).Fetches
      (Engine.standard services maxDepth).services.escape .empty [] (fieldListing services.escape o.fields) :=
    fetches_fieldListing hc h .fieldList .empty
  rw [pass_apply, hreported, happlicable, List.foldlM_cons, SessionM.bind_apply, attempt_apply,
    if_neg (Bool.eq_false_iff.1 hs), run_of_fetches_nothing hfetched]
  rfl

/-- So does a nested one, above the limit. -/
theorem nested_fieldListing {c : RenderContext} (hc : c.subject = .object o)
    (h : ∀ f ∈ o.fields, f.Listable services.escape) (label : Option String) (hs : s.cancelled = false) :
    (Engine.standard services maxDepth).nested (left + 1) ⟨.fieldList, BuiltIn.template .fieldList, c, label⟩ s =
      (.ok (.ok (fieldListing services.escape o.fields)), s) := by
  have hown : ({ s with log := .empty } : Session ω).cancelled = false := hs
  rw [nested_apply, if_neg (Bool.eq_false_iff.1 hs)]
  dsimp only
  rw [pass_fieldListing hc h hown]
  dsimp only
  rw [DiagnosticLog.mergeUnder_empty]
  rfl

/-- The listing of an object's fields, its template had from a collaborator. -/
theorem run_listing (h : ∀ f ∈ o.fields, f.Listable services.escape) (name : String) (depth : Nat)
    (hs : s.cancelled = false) (htemplate : services.template services.projectId .fieldList s.world =
      ⟨.ok (.placeholder (BuiltIn.template .fieldList)), false, w⟩) :
    let e := Engine.standard services maxDepth
    run (e.answer (e.nested (left + 1)) depth) (listing name o type o.fields) s =
      (.ok (fieldListing services.escape o.fields), { s with world := w }) := by
  intro e
  have hsubject : ((RenderContext.of (.object o) type).withFields o.fields).subject = .object o := rfl
  exact run_artifact (e := e) hs htemplate (nested_fieldListing hsubject h (some name) hs)

end Standard

/-! ## 4. The program of an item -/

/-- One placeholder for a key is one request. -/
theorem fillKey_of_one {name : String} {t : Text} {cs : List Text} (h : scalarsIn (.literal name.toList) t = [cs])
    (r : KeyRequest) : fillKey name r t = (do let key ← languageKey r; pure (fill name .inline key t)) := by
  unfold fillKey fill
  rw [replaceScalarsM_eq, h, List.mapM_cons]
  simp only [List.mapM_nil, pure_bind, bind_assoc]
  refine bind_congr fun key => ?_
  rw [replaceScalars_eq, h]
  rfl

/-- The id of an item, its name and the key of its name in their places. -/
theorem run_fillIdentity_item {o : GameObject} {type : ObjectType} (hid : '{' ∉ o.id.toList)
    (hname : '{' ∉ e.services.escape.escape o.name.toList) (hs : s.cancelled = false) {key : String}
    (hkey : e.services.languageKey (nameKey o type) s.world = ⟨.ok key, false, w⟩) :
    run (e.answer nested depth) (fillIdentity o type "Item" (BuiltIn.template .item)) s =
      (.ok (sourceOf (itemRow (.literal o.id.toList) (.literal (e.services.escape.escape o.name.toList))
        (.literal key.toList))), { s with world := w }) := by
  let name := e.services.escape.escape o.name.toList
  have hescaped : run (e.answer nested depth) (escaped o.name.toList) s = (.ok name, s) := rfl
  have hrow : ∀ id name : Token, id.IsLaid → name.IsLaid →
      Laid (itemRow id name (.placeholder "Item_Name_LangKey".toList)) :=
    fun _ _ hid hname => laid_itemRow hid hname (by decide)
  have hidentified : fill ("Item" ++ "_Id") .inline o.id.toList (BuiltIn.template .item) =
      sourceOf (itemRow (.literal o.id.toList) (.placeholder "Item_Name".toList)
        (.placeholder "Item_Name_LangKey".toList)) := by
    rw [template_item, (hrow _ _ (by decide) (by decide)).fill_inline]
    rfl
  have hnamed : fill ("Item" ++ "_Name") .inline name (sourceOf (itemRow (.literal o.id.toList)
      (.placeholder "Item_Name".toList) (.placeholder "Item_Name_LangKey".toList))) =
      sourceOf (itemRow (.literal o.id.toList) (.literal name) (.placeholder "Item_Name_LangKey".toList)) := by
    rw [(hrow _ _ (Token.isLaid_literal hid) (by decide)).fill_inline]
    rfl
  have hlaid := hrow _ _ (Token.isLaid_literal hid) (Token.isLaid_literal hname)
  have hasked : scalarsIn (.literal ("Item" ++ "_Name_LangKey").toList) (sourceOf (itemRow (.literal o.id.toList)
      (.literal name) (.placeholder "Item_Name_LangKey".toList))) = [[]] := by
    rw [hlaid.scalarsIn]
    rfl
  unfold fillIdentity
  rw [run_bind_of_ok hescaped, hidentified, hnamed, fillKey_of_one hasked, run_bind_of_ok (run_languageKey hs hkey),
    hlaid.fill_inline]
  rfl

/-- No condition on fields stands in the template. -/
theorem settle_item (o : GameObject) : FieldCondition.all.foldlM (FieldCondition.settle o "Item")
    (BuiltIn.template .item) = pure (BuiltIn.template .item) := by
  refine settle_of_no_block (fun c => ?_) o
  cases c <;> decide +kernel

/-- **The program of an item fills the template**: its id, its name and the key of its name, and the listing of its
    fields. -/
theorem run_resolveObject_item {o : GameObject} {type : ObjectType} (hid : '{' ∉ o.id.toList)
    (hname : '{' ∉ e.services.escape.escape o.name.toList) (hs : s.cancelled = false) {key : String}
    (hkey : e.services.languageKey (nameKey o type) s.world = ⟨.ok key, false, w⟩) (hbrace : '{' ∉ key.toList)
    {listed : Text} (hlisted : run (e.answer nested depth) (listing "Item_AllFields" o type o.fields)
      { s with world := w } = (.ok listed, s')) :
    run (e.answer nested depth) (resolveObject o type "Item" (BuiltIn.template .item)) s =
      (.ok (itemText o.id.toList (e.services.escape.escape o.name.toList) key.toList listed), s') := by
  let name := e.services.escape.escape o.name.toList
  let row := itemRow (.literal o.id.toList) (.literal name) (.literal key.toList)
  have hlaid : Laid row :=
    laid_itemRow (Token.isLaid_literal hid) (Token.isLaid_literal hname) (Token.isLaid_literal hbrace)
  have hkeyed : scalarsIn (FieldPlaceholder.valueKey "Item") (sourceOf row) = [] := by
    rw [hlaid.scalarsIn]
    rfl
  have hnamed : scalarsIn (FieldPlaceholder.value "Item") (sourceOf row) = [] := by
    rw [hlaid.scalarsIn]
    rfl
  have hall : scalarsIn (.literal ("Item" ++ "_AllFields").toList) (sourceOf row) = [[]] := by
    rw [hlaid.scalarsIn]
    rfl
  have havoids : ∀ start : Text, ¬ start <+: "Item_AllFields".toList → (sourceOf row).Avoids start := by
    intro start hstart
    refine hlaid.avoids fun b hb => ?_
    obtain rfl : b = "Item_AllFields".toList := by simpa [row, itemRow, itemFront, itemBack] using hb
    exact hstart
  have hgate : ∀ kept, gate ("Item" ++ "_HasUnusedFields") kept (sourceOf row) = sourceOf row :=
    gate_of_avoids (havoids "Item_HasUnusedFields".toList (by decide)) (List.prefix_refl _)
  have hunused : ∀ make, fillAll ("Item" ++ "_UnusedFields") make (sourceOf row) = pure (sourceOf row) :=
    fillAll_of_avoids (havoids "Item_UnusedFields".toList (by decide)) (List.prefix_refl _)
  have hunplaced : ∀ p placement, placeValues p placement [] (sourceOf row) = sourceOf row := fun _ _ => rfl
  rw [resolveObject_eq, settle_item, pure_bind, run_bind_of_ok (run_fillIdentity_item hid hname hs hkey)]
  dsimp only
  rw [hkeyed, List.mapM_nil, pure_bind, hunplaced, hnamed, List.mapM_nil, pure_bind, hunplaced]
  unfold fillListings
  dsimp only
  rw [hgate, hunused, pure_bind, fillAll, hall, if_neg (List.cons_ne_nil _ _),
    show "Item" ++ "_AllFields" = "Item_AllFields" from rfl, run_bind_of_ok hlisted,
    fill_listing hid hname hbrace listed]
  rfl

/-! ## 5. A render of an item -/

/-- The snippets of an item have no place in the template; they are only reported. -/
theorem attempt_snippets_item {left : Nat} {c : RenderContext} {o : GameObject} (hc : c.subject = .object o)
    (hs : s.cancelled = false) :
    ∃ log, attempt (e.answer (e.nested left) depth) .item c (BuiltIn.template .item) .snippets s =
      (.ok (BuiltIn.template .item), { s with log }) := by
  have hforeign : Topic.snippets.IsForeign (BuiltIn.template .item) := by
    have hmentions : ∀ space ∈ Topic.snippets.namespaces, mentions space (BuiltIn.template .item) = false := by
      decide +kernel
    exact fun space hspace => avoids_iff.2 (hmentions space hspace)
  have hresolve : ∀ s : Session ω, ∃ log, run (e.answer (e.nested left) depth)
      (resolveSnippets o c.objectType (BuiltIn.template .item)) s = (.ok (BuiltIn.template .item), { s with log }) := by
    intro s
    rw [resolveSnippets_of_isForeign hforeign]
    exact ⟨_, run_bind_of_ok (run_forM_record e left depth _ _ _ s) _⟩
  obtain ⟨log, hrun⟩ := hresolve { s with log := (s.log.enter "Snippets").2 }
  have hturn : run (e.answer (e.nested left) depth) (Resolver.snippets.resolve .item c (BuiltIn.template .item)) s =
      (.ok (BuiltIn.template .item), { s with log := log.leave (s.log.enter "Snippets").1 }) := by
    rw [resolve_snippets hc (by decide), run_within]
    show (let out := run _ _ { s with log := (s.log.enter "Snippets").2 }
      (out.1, { out.2 with log := out.2.log.leave (s.log.enter "Snippets").1 })) = _
    rw [hrun]
  rw [attempt_apply, if_neg (Bool.eq_false_iff.1 hs), hturn]
  exact ⟨_, rfl⟩

/-- **What the collaborators of an export answer**: a key for the name, and then the built-in template of the
    listing. Neither call cancels the render. -/
structure AnswersItem (services : Services ω) (r : KeyRequest) (key : String) (w w' w'' : ω) : Prop where
  languageKey : services.languageKey r w = ⟨.ok key, false, w'⟩
  template : services.template services.projectId .fieldList w' =
    ⟨.ok (.placeholder (BuiltIn.template .fieldList)), false, w''⟩

/-- In memory they always do. -/
theorem answersItem_inMemory (p : Project) (config : Config) (r : KeyRequest) (table : KeyTable) :
    AnswersItem (Services.inMemory p .builtIn config) r (table.request r).1 table (table.request r).2
      (table.request r).2 := ⟨rfl, rfl⟩

/-- **A render of an item in the built-in templates ends with its text.** -/
theorem exportsItem {services : Services ω} {o : GameObject} {c : RenderContext} (hc : c.subject = .object o)
    (hid : '{' ∉ o.id.toList) (hname : '{' ∉ services.escape.escape o.name.toList)
    (hfields : ∀ f ∈ o.fields, f.Listable services.escape) {key : String} (hbrace : '{' ∉ key.toList)
    {w w' w'' : ω}
    (h : AnswersItem services (nameKey o c.objectType) key w w' w'') (maxDepth : Nat) :
    ∃ diagnostics, (Engine.standard services (maxDepth + 1)).render .item c (BuiltIn.template .item) w false =
      (.ok ⟨itemText o.id.toList (services.escape.escape o.name.toList) key.toList
        (fieldListing services.escape o.fields), diagnostics⟩, w'') := by
  let e := Engine.standard services (maxDepth + 1)
  let begun : Session ω := e.reported (BuiltIn.template .item) (.start w false)
  have happlicable : e.applicable .item = [.snippets, .fields] := applicable_standard services (maxDepth + 1) .item
  have hreported : ∃ log, attempt (e.answer (e.nested (maxDepth + 1)) 0) .item c (BuiltIn.template .item) .snippets
      begun = (.ok (BuiltIn.template .item), { begun with log }) := attempt_snippets_item hc rfl
  obtain ⟨log, hsnippets⟩ := hreported
  let text := itemText o.id.toList (services.escape.escape o.name.toList) key.toList
    (fieldListing services.escape o.fields)
  have hresolved : run (e.answer (e.nested (maxDepth + 1)) 0) (Resolver.fields.resolve .item c (BuiltIn.template .item))
      { begun with log } = (.ok text, { begun with world := w'', log }) := by
    rw [resolve_fields hc rfl]
    exact run_resolveObject_item (e := e) (s := { begun with log }) hid hname rfl h.languageKey hbrace
      (run_listing hfields "Item_AllFields" 0 rfl h.template)
  have hfilled : attempt (e.answer (e.nested (maxDepth + 1)) 0) .item c (BuiltIn.template .item) .fields
      { begun with log } = (.ok text, { begun with world := w'', log }) := by
    rw [attempt_apply, if_neg (by exact Bool.false_ne_true), hresolved]
  have hdepth : e.maxDepth - (maxDepth + 1) = 0 := Nat.sub_self _
  have hpass : e.pass (maxDepth + 1) .item c (BuiltIn.template .item) (.start w false) =
      (.ok text, { begun with world := w'', log }) := by
    rw [pass_apply, happlicable, hdepth, List.foldlM_cons, SessionM.bind_apply, hsnippets]
    show ([Resolver.fields].foldlM (attempt (e.answer (e.nested (maxDepth + 1)) 0) .item c) (BuiltIn.template .item) :
      SessionM ω Text) { begun with log } = _
    rw [List.foldlM_cons, SessionM.bind_apply, hfilled]
    rfl
  refine ⟨log.entries, ?_⟩
  show (let out := e.pass (maxDepth + 1) .item c (BuiltIn.template .item) (.start w false)
    (out.1.map fun t => (⟨t, out.2.log.entries⟩ : RenderOutput), out.2.world)) = _
  rw [hpass]
  rfl

end Engine

end RecordExport

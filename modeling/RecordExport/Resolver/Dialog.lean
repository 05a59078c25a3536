import RecordExport.Record.DialogPlan
import RecordExport.Resolver.Filling
/-!
# Dialogs

A character's dialog is split into functions. Each step of a function is rendered as an artefact of
its own kind and the rendered steps, one under the other, are the function's code; the functions are
rendered as artefacts in turn. They are derived once in a render and kept under the dialog's id.
Links that lead nowhere are reported when the functions are derived.
-/

namespace RecordExport

/-! ## 1. The functions of a dialog -/

/-- A rendered step, without blanks around it. -/
def renderStep (s : PlannedStep) : RenderProgram Text := do
  let t ← RenderProgram.artifact s.kind (.of (.dialogStep s.step) .npc) ("Node " ++ s.step.node.id)
  pure (Text.trim t)

/-- A function of a dialog with its steps rendered. -/
def renderPlanned (f : PlannedFunction) : RenderProgram ScriptFunction := do
  let parts ← f.steps.mapM renderStep
  pure ⟨f.name, String.ofList (['\n'].intercalate (parts.filter (· ≠ []))), f.preview⟩

/-- What is said about a link that leads nowhere. -/
def danglingDetail (source target : String) : String :=
  "node '" ++ source ++ "' links to missing node '" ++ target ++ "'"

/-- The functions of a dialog. -/
def dialogFunctions (npc : GameObject) (d : Dialog) : RenderProgram (List ScriptFunction) :=
  .derivedOnce .dialog d.id do
    d.dangling.forM fun l => .record .missingReference (danglingDetail l.1 l.2)
    (planDialog npc d).mapM renderPlanned

/-! ## 2. Characters -/

/-- Functions of a dialog, each rendered. -/
def renderDialogFunctions (fs : List ScriptFunction) : RenderProgram Text :=
  renderFunctions .dialogFunction .npc .dialogFunction fs

/-- Put rendered functions in the place of every placeholder with a name, if the text mentions
    it. -/
def fillFunctions (name : String) (fs : List ScriptFunction) (t : Text) : RenderProgram Text := do
  if mentions name t then do
    let rendered ← renderDialogFunctions fs
    pure (fill name .fitted rendered t)
  else pure t

/-- Resolve the dialog of a character. -/
def resolveDialog (npc : GameObject) (t : Text) : RenderProgram Text := do
  let found ← RenderProgram.dialog npc.id
  let dialog := found.filter fun d => !d.nodes.isEmpty
  let t := gate "Tale_HasDialog" dialog.isSome t
  let t := gate "Tale_HasNoDialog" dialog.isNone t
  match dialog with
  | none =>
    let t := fill "Tale_Initial_Function_Name" .inline [] t
    let t := fill "Tale_Initial_Function" .fitted [] t
    pure (fill "Tale_Additional_Functions" .fitted [] t)
  | some d =>
    if mentions "Tale_Initial_Function" t || mentions "Tale_Additional_Functions" t then do
      let fs ← dialogFunctions npc d
      let name := (fs.head?.map (·.name.toList)).getD []
      let t := fill "Tale_Initial_Function_Name" .inline name t
      let t ← fillFunctions "Tale_Initial_Function" (fs.take 1) t
      fillFunctions "Tale_Additional_Functions" (fs.drop 1) t
    else pure t

/-! ## 3. Functions and steps -/

/-- Resolve a function of a dialog. -/
def resolveDialogFunction (f : ScriptFunction) (t : Text) : Text :=
  let t := fill "Tale_Function_Name" .inline f.name.toList t
  let t := fill "Tale_Function_ParentPreview" .inline f.parentPreview.toList t
  fill "Tale_Function_Content" .fitted f.code.toList t

/-- The request for the key of a text in a dialog. -/
def dialogTextKey (s : DialogStep) (id label text : String) : KeyRequest :=
  (KeyRequest.forName s.ownerId s.ownerName .npc).withField id (label ++ " " ++ id) text

/-- Resolve a line that someone speaks. -/
def resolveLine (s : DialogStep) (speaker line : String) (t : Text) : RenderProgram Text := do
  let text ← RenderProgram.escaped line.toList
  let t := fill "Tale_Speaker" .inline speaker.toList t
  let t := fill "Tale_TextLine" .inline text t
  fillKey "Tale_TextLine_LangKey" (dialogTextKey s s.node.id "Line" line) t

/-- One option of a choice. -/
def renderOption (s : DialogStep) (o : ChoiceOption) (p : ListPosition) (inner : Text) :
    RenderProgram Text := do
  let text ← RenderProgram.escaped o.text.toList
  let function := (s.optionFunctions[p.index]?).join
  let t := fillPosition "Tale_Choice" p inner
  let t := gate "Tale_Choice_HasFunction" function.isSome t
  let t := gate "Tale_Choice_HasNoFunction" function.isNone t
  let t := fill "Tale_Choice_Function" .inline (function.getD "").toList t
  let t := fill "Tale_Choice_Text" .inline text t
  fillKey "Tale_Choice_LangKey" (dialogTextKey s o.id "Choice" o.text) t

/-- Resolve a step. A step of another kind than its node's leaves the text alone. -/
def resolveStep (kind : ArtifactKind) (s : DialogStep) (t : Text) : RenderProgram Text :=
  match kind, s.node.content with
  | .functionCall, _ =>
    pure (fill "Tale_Call_Function" .inline (s.nextFunction.getD "").toList t)
  | .npcLine, .npcText line _ => resolveLine s s.ownerName line t
  | .playerLine, .playerText line _ => resolveLine s "Player" line t
  | .action, .action name value _ => do
    let name ← RenderProgram.escaped name.toList
    let value ← RenderProgram.escaped value.toList
    let t := fill "Tale_Action_Name" .inline name t
    pure (fill "Tale_Action_Value" .inline value t)
  | .choice, .choice options =>
    expandBlocksM (.ofStem "Tale_Choices".toList) t options (renderOption s)
  | _, _ => pure t

/-! ## 4. The resolver -/

/-- What each kind offers of a dialog. -/
def dialogCatalog : ArtifactKind → List CatalogEntry
  | .npc =>
    [⟨"Tale_HasDialog_Start/Tale_HasDialog_End", "Kept if the NPC has a dialog"⟩,
      ⟨"Tale_HasNoDialog_Start/Tale_HasNoDialog_End", "Kept if the NPC has no dialog"⟩,
      ⟨"Tale_Initial_Function_Name", "Name of the dialog's entry function"⟩,
      ⟨"Tale_Initial_Function", "The dialog's entry function"⟩,
      ⟨"Tale_Additional_Functions", "Every other function of the dialog"⟩]
  | .dialogFunction =>
    [⟨"Tale_Function_Name", "Name of the function"⟩,
      ⟨"Tale_Function_Content", "Rendered steps of the function"⟩,
      ⟨"Tale_Function_ParentPreview", "Preview of the node leading into the function"⟩]
  | .npcLine | .playerLine =>
    [⟨"Tale_TextLine", "Text of the line"⟩,
      ⟨"Tale_TextLine_LangKey", "Language key of the line"⟩,
      ⟨"Tale_Speaker", "Name of the speaker"⟩]
  | .choice =>
    [⟨"Tale_Choices_Start/Tale_Choices_End", "Repeated once per option"⟩,
      ⟨"Tale_Choice_Text", "Text of the option"⟩,
      ⟨"Tale_Choice_LangKey", "Language key of the option text"⟩,
      ⟨"Tale_Choice_Function", "Function the option leads to"⟩,
      ⟨"Tale_Choice_HasFunction_Start/Tale_Choice_HasFunction_End",
        "Kept if the option leads somewhere"⟩,
      ⟨"Tale_Choice_HasNoFunction_Start/Tale_Choice_HasNoFunction_End",
        "Kept if the option ends the dialog"⟩]
      ++ positionCatalog "Tale_Choice" "option"
  | .action =>
    [⟨"Tale_Action_Name", "Name of the action"⟩,
      ⟨"Tale_Action_Value", "Parameter of the action"⟩]
  | .functionCall => [⟨"Tale_Call_Function", "Name of the function to continue with"⟩]
  | _ => []

/-- Resolves dialogs, their functions and the steps of those. -/
def Resolver.dialog : Resolver where
  name := "dialog"
  applies k := k = .npc || k = .dialogFunction || k.isDialogStep
  resolve k c t :=
    match k with
    | .npc =>
      if mentions "Tale_" t then do
        let npc ← singleObject "dialog" c
        .within "Dialog" (resolveDialog npc t)
      else pure t
    | .dialogFunction =>
      match c.subject with
      | .dialogFunction f => pure (resolveDialogFunction f t)
      | s => wrongSubject "dialog" s
    | _ =>
      match c.subject with
      | .dialogStep s => resolveStep k s t
      | s => wrongSubject "dialog" s
  catalog := dialogCatalog
  families := []

end RecordExport

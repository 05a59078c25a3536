import RecordExport.Proofs.LanguageKeys.Sources
import RecordExport.Proofs.Render.Alike
import RecordExport.Resolver.Standard
/-!
# The cast of a render

Whatever a render of the standard resolvers prints comes from records: the subjects it was given and
the objects and dialogs it found. These are its CAST. A cast says which they are and which of their texts
have keys.

* `Cast.contract`: a render asks for keys of its cast's texts and for functions of its cast's scripts,
  and for no others; it is not cancelled from within and only fails at subjects of a wrong type;
* `keeps_standard`: every standard resolver keeps to that contract. Subjects that are passed on may have
  lost fields and stand under another type, which is why a `Cast.View` of an object will do.
-/

namespace RecordExport

/-! ## 1. Casts -/

/-- **The records a render is about**, and what may be printed of them. -/
structure Cast where
  /-- an object that is rendered or can be found -/
  shows : GameObject → Prop
  /-- an object that can be found under an id -/
  object : String → GameObject → Prop
  /-- a dialog that can be found for an object's id -/
  dialog : String → Dialog → Prop
  /-- a text of an object that has a key -/
  source : GameObject → KeySource → Prop
  shows_of_object : ∀ {id o}, object id o → shows o
  source_name : ∀ o, source o .name
  source_field : ∀ {o f}, f ∈ o.fields → source o (.field f)
  source_node : ∀ {o d n s}, dialog o.id d → n ∈ d.nodes → s ∈ n.keySources → source o s

namespace Cast

/-- An object of the cast, with some of its fields perhaps left out. -/
def View (C : Cast) (v : GameObject) : Prop :=
  ∃ o fs, C.shows o ∧ fs ⊆ o.fields ∧ v = { o with fields := fs }

/-- A step of the dialog of an object of the cast. -/
def ShowsStep (C : Cast) (s : DialogStep) : Prop :=
  ∃ o d, C.shows o ∧ s.ownerId = o.id ∧ s.ownerName = o.name ∧ C.dialog o.id d ∧ s.node ∈ d.nodes

/-- A subject that is of the cast. -/
def Renders (C : Cast) : Subject → Prop
  | .object v => C.View v
  | .objects vs => ∀ v ∈ vs, C.View v
  | .dialogStep s => C.ShowsStep s
  | _ => True

/-- A script of the cast, as its functions are asked for: a snippet's under its owner's id and its own,
    an event's under its own id. -/
def Scripted (C : Cast) : MemoScope → String → String → Script → Prop
  | .snippet, id, owner, script =>
    ∃ o, C.shows o ∧ owner = o.name ∧ ∃ s ∈ o.snippets, id = o.id ++ "/" ++ s.id ∧ script = s.script
  | .event, id, owner, script =>
    ∃ o, C.shows o ∧ owner = o.name ∧ ∃ e ∈ o.dailyRoutine, id = e.id ∧ e.script = some script
  | .dialog, _, _, _ => False

/-- **What a render asks for is its cast's.** -/
def contract (C : Cast) : Contract where
  key r := ∃ o s type, C.shows o ∧ C.source o s ∧ r = s.request o type
  context c := C.Renders c.subject
  object := C.object
  dialog := C.dialog
  script := C.Scripted
  «recall» scope _ := scope = .dialog
  keep scope _ _ := scope = .dialog
  cancel := False
  fails err := ∃ resolver found, err = .wrongSubject resolver found

variable {C : Cast} {v : GameObject} {s : DialogStep}

theorem view_of_shows (hv : C.shows v) : C.View v := ⟨v, v.fields, hv, fun _ hf => hf, rfl⟩

theorem view_of_object {id : String} (hv : C.object id v) : C.View v :=
  view_of_shows (C.shows_of_object hv)

theorem View.withFields (hv : C.View v) {fs : List Field} (hfs : fs ⊆ v.fields) :
    C.View { v with fields := fs } := by
  obtain ⟨o, fs', ho, hf, rfl⟩ := hv
  exact ⟨o, fs, ho, fun f h => hf (hfs h), rfl⟩

theorem View.nameKey (hv : C.View v) (type : ObjectType) : C.contract.key (nameKey v type) := by
  obtain ⟨o, fs, ho, -, rfl⟩ := hv
  exact ⟨o, .name, type, ho, C.source_name o, rfl⟩

theorem View.fieldKey (hv : C.View v) (type : ObjectType) {f : Field} (hf : f ∈ v.fields) :
    C.contract.key (fieldKey v type f) := by
  obtain ⟨o, fs, ho, hfs, rfl⟩ := hv
  exact ⟨o, .field f, type, ho, C.source_field (hfs hf), rfl⟩

theorem View.snippet (hv : C.View v) {s : Snippet} (hs : s ∈ v.snippets) :
    C.Scripted .snippet (v.id ++ "/" ++ s.id) v.name s.script := by
  obtain ⟨o, fs, ho, -, rfl⟩ := hv
  exact ⟨o, ho, rfl, s, hs, rfl, rfl⟩

theorem View.event (hv : C.View v) {e : ScheduleEvent} (he : e ∈ v.dailyRoutine) {script : Script}
    (hs : e.script = some script) : C.Scripted .event e.id v.name script := by
  obtain ⟨o, fs, ho, -, rfl⟩ := hv
  exact ⟨o, ho, rfl, e, he, rfl, hs⟩

theorem ShowsStep.lineKey (hs : C.ShowsStep s) {text : String}
    (ht : .line s.node text ∈ s.node.keySources) :
    C.contract.key (dialogTextKey s s.node.id "Line" text) := by
  obtain ⟨o, d, ho, hid, hname, hd, hn⟩ := hs
  refine ⟨o, .line s.node text, .npc, ho, C.source_node hd hn ht, ?_⟩
  unfold KeySource.request dialogTextKey RecordExport.nameKey
  rw [hid, hname]
  rfl

theorem ShowsStep.optionKey (hs : C.ShowsStep s) {c : ChoiceOption}
    (hc : .option s.node c ∈ s.node.keySources) :
    C.contract.key (dialogTextKey s c.id "Choice" c.text) := by
  obtain ⟨o, d, ho, hid, hname, hd, hn⟩ := hs
  refine ⟨o, .option s.node c, .npc, ho, C.source_node hd hn hc, ?_⟩
  unfold KeySource.request dialogTextKey RecordExport.nameKey
  rw [hid, hname]
  rfl

/-- The cast everything is of. -/
def everything : Cast where
  shows _ := True
  object _ _ := True
  dialog _ _ := True
  source _ _ := True
  shows_of_object _ := trivial
  source_name _ := trivial
  source_field _ := trivial
  source_node _ _ _ := trivial

theorem renders_everything (s : Subject) : everything.Renders s := by
  cases s with
  | object v => exact view_of_shows trivial
  | objects vs => exact fun v _ => view_of_shows trivial
  | dialogStep s =>
    let owner : GameObject := ⟨s.ownerId, s.ownerName, .npc, [], [], [], [], []⟩
    let d : Dialog := ⟨s.dialogId, s.ownerId, [s.node]⟩
    exact ⟨owner, d, trivial, rfl, rfl, trivial, List.mem_singleton_self _⟩
  | _ => trivial

end Cast

/-! ## 2. Objects and their fields -/

section Resolvers

open RenderProgram

variable {C : Cast}

theorem keeps_compareField {K : Contract} (o : GameObject) (expected : Bool)
    (captures : List Text) : (compareField o expected captures).Keeps K := by
  unfold compareField
  split
  · exact keeps_pure _
  · exact (keeps_missing _ _).bind fun _ => keeps_pure _

theorem keeps_resolveConditions {K : Contract} (o : GameObject) (space : String) (t : Text) :
    (resolveConditions o space t).Keeps K := by
  refine (sequencedBy_keeps.keepBlocksM (keeps_compareField o false) _ _).bind fun t => ?_
  exact sequencedBy_keeps.keepBlocksM (keeps_compareField o true) _ t

theorem keeps_fieldValue {K : Contract} (f : Field) : (fieldValue f).Keeps K := by
  unfold fieldValue
  split
  · exact keeps_pure _
  · exact keeps_escaped _

theorem stateKeeps_useField {K : Contract} {o : GameObject} {give : Field → RenderProgram Text}
    (hg : ∀ f ∈ o.fields, (give f).Keeps K) (captures : List Text) :
    StateKeeps K (useField o give captures) := by
  unfold useField
  cases hf : o.field? (firstCapture captures) with
  | none => exact stateKeeps_lift (keeps_missing _ _)
  | some f =>
    refine (stateKeeps_modifyGet fun used => (PUnit.unit, f.id :: used)).bind fun _ => ?_
    exact stateKeeps_lift (hg f (List.mem_of_find?_eq_some hf))

theorem stateKeeps_resolveValues {o : GameObject} (ho : C.View o) (type : ObjectType)
    (space : String) (t : Text) :
    StateKeeps C.contract.scriptless (resolveValues o type space t) := by
  refine (stateKeeps_lift (keeps_escaped _)).bind fun name => ?_
  refine (stateKeeps_lift (keeps_fillKey (K := C.contract.scriptless) (ho.nameKey type) _ _)).bind fun t => ?_
  refine StateKeeps.bind ?_ fun t => ?_
  · refine sequencedBy_stateKeeps.replaceScalarsM (stateKeeps_useField fun f hf => ?_) _ _ _
    exact keeps_languageKey (ho.fieldKey type hf)
  · exact sequencedBy_stateKeeps.replaceScalarsM
      (stateKeeps_useField fun f _ => keeps_fieldValue f) _ _ _

theorem keeps_fillListing {o : GameObject} (ho : C.View o) {fs : List Field}
    (hfs : fs ⊆ o.fields) (name : String) (type : ObjectType) (t : Text) :
    (fillListing name o type fs t).Keeps C.contract.scriptless :=
  keeps_fillOnce (keeps_artifact (ho.withFields hfs) _ _) name t

theorem keeps_resolveObject {o : GameObject} (ho : C.View o) (type : ObjectType)
    (space : String) (t : Text) :
    (resolveObject o type space t).Keeps C.contract.scriptless := by
  refine (keeps_resolveConditions o space t).bind fun t => ?_
  refine (stateKeeps_resolveValues ho type space t []).bind fun r => ?_
  refine (keeps_fillListing ho ?_ _ type _).bind fun t => ?_
  · exact List.filter_subset_self _
  · exact keeps_fillListing ho (List.Subset.refl _) _ type t

theorem keepsTo_wrongSubject {α : Type} {Q : α → Prop} (resolver : String) (s : Subject) :
    (wrongSubject resolver s).KeepsTo C.contract.scriptless Q := ⟨resolver, s.typeName, rfl⟩

theorem keepsTo_singleObject {c : RenderContext} (hc : C.Renders c.subject) (resolver : String) :
    (singleObject resolver c).KeepsTo C.contract.scriptless C.View := by
  unfold singleObject
  cases hs : c.subject with
  | object o =>
    rw [hs] at hc
    exact hc
  | _ => exact keepsTo_wrongSubject resolver _

theorem keeps_resolver_fields : Resolver.fields.Keeps C.contract.scriptless := by
  intro kind c t hc
  unfold Resolver.fields
  dsimp only
  cases kind.space? with
  | none => exact keeps_pure t
  | some space =>
    exact (keepsTo_singleObject hc _).bind fun o ho => keeps_resolveObject ho c.objectType space t

theorem keeps_resolver_fieldList : Resolver.fieldList.Keeps C.contract.scriptless := by
  intro kind c t hc
  refine (keepsTo_singleObject hc _).bind fun o ho => ?_
  refine sequencedBy_keeps.expandBlocksM (fun f hf position inner => ?_) _ t
  have hk : C.contract.scriptless.key (fieldKey o c.objectType f) := ho.fieldKey c.objectType hf
  exact (keeps_fieldValue f).bind fun value => keeps_fillKey hk _ _

/-! ## 3. Language files -/

theorem keeps_languageEntries {o : GameObject} (ho : C.View o) {r : KeyRequest}
    (hr : r ∈ languageEntries o) : C.contract.key r := by
  unfold languageEntries at hr
  rcases List.mem_cons.1 hr with rfl | hr
  · exact ho.nameKey o.type
  · obtain ⟨f, hf, rfl⟩ := List.mem_map.1 hr
    exact ho.fieldKey o.type (List.mem_filter.1 hf).1

theorem keeps_resolveLanguageFile {os : List GameObject} (hos : ∀ o ∈ os, C.View o)
    (referenced : List LanguageKey) (t : Text) :
    (resolveLanguageFile os referenced t).Keeps C.contract.scriptless := by
  refine (sequencedBy_keeps.expandBlocksM (fun r hr position inner => ?_) _ t).bind fun t => ?_
  · obtain ⟨o, ho, hro⟩ := List.mem_flatMap.1 hr
    have hk : C.contract.scriptless.key r := keeps_languageEntries (hos o ho) hro
    exact (keeps_escaped _).bind fun value => keeps_fillKey hk _ _
  · exact sequencedBy_keeps.expandBlocksM
      (fun k _ position inner => (keeps_escaped _).bind fun value => keeps_pure _) _ _

theorem keeps_resolver_language : Resolver.language.Keeps C.contract.scriptless := by
  intro kind c t hc
  have hc : C.Renders c.subject := hc
  unfold Resolver.language
  dsimp only
  cases hs : c.subject with
  | object o =>
    rw [hs] at hc
    refine keeps_resolveLanguageFile (fun v hv => ?_) c.referencedKeys t
    obtain rfl := List.mem_singleton.1 hv
    exact hc
  | objects os =>
    rw [hs] at hc
    exact keeps_resolveLanguageFile hc c.referencedKeys t
  | _ => exact keepsTo_wrongSubject _ _

/-! ## 4. Possessions, routines and snippets -/

theorem keeps_fillDetails {o : GameObject} (ho : C.View o) (name : String)
    (kind : ArtifactKind) (type : ObjectType) (t : Text) :
    (fillDetails name kind type o t).Keeps C.contract :=
  (keeps_artifact (show C.contract.context (.of (.object o) type) from ho) kind _).bind
    fun _ => keeps_pure _

theorem keeps_renderSkill {o : GameObject} (ho : C.View o) (position : ListPosition)
    (inner : Text) : (renderSkill o position inner).Keeps C.contract := by
  refine ((keeps_resolveObject ho _ _ _).of_scriptless.within _).bind fun t => ?_
  split
  · exact keeps_fillDetails ho _ _ _ t
  · exact keeps_pure t

theorem keeps_renderInventoryEntry {e : InventoryEntry × GameObject} (ho : C.View e.2)
    (position : ListPosition) (inner : Text) :
    (renderInventoryEntry e position inner).Keeps C.contract := by
  refine ((keeps_resolveObject ho _ _ _).of_scriptless.within _).bind fun t => ?_
  split
  · exact keeps_fillDetails ho _ _ _ t
  · exact keeps_pure t

theorem keeps_resolver_skills : Resolver.skills.Keeps C.contract := by
  intro kind c t hc
  unfold Resolver.skills
  dsimp only
  split
  · refine (keepsTo_singleObject hc _).of_scriptless.bind fun npc _ => Keeps.within ?_ _
    refine (keepsTo_fetchObjects _ npc.skills).bind fun found hfound => ?_
    refine sequencedBy_keeps.expandBlocksM (fun o ho => keeps_renderSkill ?_) _ _
    obtain ⟨e, he, rfl⟩ := List.mem_map.1 ho
    exact Cast.view_of_object (hfound e he)
  · exact keeps_pure t

theorem keeps_resolver_inventory : Resolver.inventory.Keeps C.contract := by
  intro kind c t hc
  unfold Resolver.inventory
  dsimp only
  split
  · refine (keepsTo_singleObject hc _).of_scriptless.bind fun npc _ => Keeps.within ?_ _
    refine (keepsTo_fetchObjects _ npc.inventory).bind fun found hfound => ?_
    exact sequencedBy_keeps.expandBlocksM
      (fun e he => keeps_renderInventoryEntry (Cast.view_of_object (hfound e he))) _ _
  · exact keeps_pure t

theorem keeps_eventFunctions {npc : GameObject} (hnpc : C.View npc) {e : ScheduleEvent}
    (he : e ∈ npc.dailyRoutine) : (eventFunctions npc e).Keeps C.contract := by
  unfold eventFunctions
  cases hs : e.script with
  | none => exact keeps_pure _
  | some script => exact keeps_functions (hnpc.event he hs)

theorem keeps_resolveRoutine {npc : GameObject} (hnpc : C.View npc) (type : ObjectType) (t : Text) :
    (resolveRoutine npc type t).Keeps C.contract := by
  refine (sequencedBy_keeps.expandBlocksM (fun e he position inner => ?_) _ _).bind fun t =>
    keeps_fillOnce ?_ _ t
  · refine (keeps_request .settings trivial).bind fun s => ?_
    dsimp only
    split
    · exact (keeps_eventFunctions hnpc he).bind fun fs => keeps_pure _
    · exact keeps_pure _
  · refine (sequencedBy_keeps.mapM fun e he => ?_).bind fun parts => keeps_pure _
    exact (keeps_eventFunctions hnpc he).bind fun fs => keeps_renderFunctions (fun f _ => trivial) _

theorem keeps_resolver_dailyRoutine : Resolver.dailyRoutine.Keeps C.contract := by
  intro kind c t hc
  unfold Resolver.dailyRoutine
  dsimp only
  split
  · split
    · exact keeps_pure _
    · exact (keepsTo_wrongSubject _ _).of_scriptless
  · split
    · exact (keepsTo_singleObject hc _).of_scriptless.bind fun npc hnpc =>
        (keeps_resolveRoutine hnpc c.objectType t).within _
    · exact keeps_pure t

theorem stateKeeps_useSnippet {o : GameObject} (ho : C.View o)
    {give : List ScriptFunction → RenderProgram Text} (hg : ∀ fs, (give fs).Keeps C.contract)
    (captures : List Text) : StateKeeps C.contract (useSnippet o give captures) := by
  unfold useSnippet
  dsimp only
  cases hs : o.snippet? (captures.getD 0 []) with
  | none => exact (stateKeeps_lift (keeps_record _ _)).bind fun _ => sequencedBy_stateKeeps.result _
  | some s =>
    have hscript := ho.snippet (List.mem_of_find?_eq_some hs)
    refine (stateKeeps_modifyGet fun used => (PUnit.unit, s.id :: used)).bind fun _ => ?_
    exact (stateKeeps_lift (keeps_functions hscript)).bind fun fs => stateKeeps_lift (hg fs)

theorem keeps_resolveSnippets {o : GameObject} (ho : C.View o) (type : ObjectType) (t : Text) :
    (resolveSnippets o type t).Keeps C.contract := by
  refine KeepsTo.bind (P := fun _ => True) ?_ fun r _ => ?_
  · refine StateKeeps.bind (sequencedBy_stateKeeps.replaceScalarsM
      (stateKeeps_useSnippet ho fun fs => keeps_renderFunctions (fun f _ => trivial) _) _ _ _) ?_ []
    intro t
    refine (sequencedBy_stateKeeps.replaceScalarsM
      (stateKeeps_useSnippet ho fun fs => keeps_pure _) _ _ t).bind fun t => ?_
    exact sequencedBy_stateKeeps.replaceScalarsM
      (stateKeeps_useSnippet ho fun fs => keeps_pure _) _ _ t
  · exact (sequencedBy_keeps.forM fun s _ => keeps_record _ _).bind fun _ => keeps_pure _

theorem keeps_resolver_snippets : Resolver.snippets.Keeps C.contract := by
  intro kind c t hc
  unfold Resolver.snippets
  dsimp only
  split
  · split
    · exact keeps_pure _
    · exact (keepsTo_wrongSubject _ _).of_scriptless
  · exact (keepsTo_singleObject hc _).of_scriptless.bind fun o ho =>
      (keeps_resolveSnippets ho c.objectType t).within _

/-! ## 5. Dialogs -/

/-- The steps of a function are steps of its owner at nodes of the dialog. -/
theorem showsStep_of_mem_flow {npc : GameObject} {d : Dialog} {starts : List FunctionStart}
    (hnpc : C.View npc) (hd : C.dialog npc.id d) (visited : List String) (id : String) :
    ∀ s ∈ flow npc d starts visited id, C.ShowsStep s.step := by
  obtain ⟨o, fields, ho, -, rfl⟩ := hnpc
  have hstep : ∀ id n, d.target? id = some n → ∀ fs f, C.ShowsStep (dialogStep { o with fields } d n fs f) :=
    fun _ _ hn _ _ => ⟨o, d, ho, rfl, rfl, hd, (Dialog.mem_of_target? hn).1⟩
  exact forall_mem_flow (fun id n hn => hstep id n hn _ _) fun id n hn _ => hstep id n hn _ _

theorem keeps_dialogFunctions {npc : GameObject} (hnpc : C.View npc) {d : Dialog}
    (hd : C.dialog npc.id d) : (dialogFunctions npc d).Keeps C.contract.scriptless := by
  refine Keeps.derivedOnce ?_ rfl fun _ => rfl
  refine (sequencedBy_keeps.forM fun l _ => keeps_record _ _).bind fun _ => ?_
  refine sequencedBy_keeps.mapM fun f hf => ?_
  obtain ⟨start, -, rfl⟩ := List.mem_map.1 hf
  refine (sequencedBy_keeps.mapM fun s hs => ?_).bind fun parts => keeps_pure _
  have hc : C.contract.scriptless.context (.of (.dialogStep s.step) .npc) :=
    showsStep_of_mem_flow hnpc hd _ _ s hs
  exact (keeps_artifact hc _ _).bind fun t => keeps_pure _

theorem keeps_fillFunctions (name : String) (fs : List ScriptFunction) (t : Text) :
    (fillFunctions name fs t).Keeps C.contract.scriptless := by
  unfold fillFunctions
  split
  · exact (keeps_renderFunctions (fun f _ => trivial) _).bind fun _ => keeps_pure _
  · exact keeps_pure t

theorem keeps_resolveDialog {npc : GameObject} (hnpc : C.View npc) (t : Text) :
    (resolveDialog npc t).Keeps C.contract.scriptless := by
  refine (keepsTo_request (.dialog npc.id) trivial).bind fun found hfound => ?_
  dsimp only
  cases hd : found.filter fun d => !d.nodes.isEmpty with
  | none => exact keeps_pure _
  | some d =>
    have hfd : C.dialog npc.id d := hfound d (Option.filter_eq_some_iff.1 hd).1
    dsimp only
    split
    · refine (keeps_dialogFunctions hnpc hfd).bind fun fs => ?_
      exact (keeps_fillFunctions _ _ _).bind fun t => keeps_fillFunctions _ _ t
    · exact keeps_pure _

theorem keeps_resolveLine {s : DialogStep} (hs : C.ShowsStep s) {line : String}
    (hl : .line s.node line ∈ s.node.keySources) (speaker : String) (t : Text) :
    (resolveLine s speaker line t).Keeps C.contract.scriptless :=
  (keeps_escaped _).bind fun _ => keeps_fillKey (K := C.contract.scriptless) (hs.lineKey hl) _ _

theorem keeps_resolveStep {s : DialogStep} (hs : C.ShowsStep s) (kind : ArtifactKind)
    (t : Text) : (resolveStep kind s t).Keeps C.contract.scriptless := by
  unfold resolveStep
  split
  · exact keeps_pure _
  · rename_i line next hn
    have hl : .line s.node line ∈ s.node.keySources := by simp [DialogNode.keySources, hn]
    exact keeps_resolveLine hs hl _ t
  · rename_i line next hn
    have hl : .line s.node line ∈ s.node.keySources := by simp [DialogNode.keySources, hn]
    exact keeps_resolveLine hs hl _ t
  · exact (keeps_escaped _).bind fun _ => (keeps_escaped _).bind fun _ => keeps_pure _
  · rename_i options hn
    refine sequencedBy_keeps.expandBlocksM (fun o ho position inner => ?_) _ t
    have hc : .option s.node o ∈ s.node.keySources := by simp [DialogNode.keySources, hn, ho]
    exact (keeps_escaped _).bind fun _ => keeps_fillKey (K := C.contract.scriptless) (hs.optionKey hc) _ _
  · exact keeps_pure t

theorem keeps_resolver_dialog : Resolver.dialog.Keeps C.contract.scriptless := by
  intro kind c t hc
  unfold Resolver.dialog
  dsimp only
  split
  · split
    · exact (keepsTo_singleObject hc _).bind fun npc hnpc => (keeps_resolveDialog hnpc t).within _
    · exact keeps_pure t
  · split
    · exact keeps_pure _
    · exact (keepsTo_wrongSubject _ _)
  · have hc : C.Renders c.subject := hc
    cases hs : c.subject with
    | dialogStep s =>
      rw [hs] at hc
      exact keeps_resolveStep hc kind t
    | _ => exact (keepsTo_wrongSubject _ _)

/-! ## 6. All of them -/

/-- **The standard resolvers ask for keys of texts that are shown, and for no others.** -/
theorem keeps_standard {ω : Type} (services : Services ω) (maxDepth : Nat) :
    ∀ r ∈ (Engine.standard services maxDepth).resolvers, r.Keeps C.contract := by
  intro r hr
  obtain ⟨⟨order, r⟩, hreg, rfl⟩ := List.mem_map.1 hr
  obtain ⟨topic, -, htopic⟩ := List.mem_map.1 (List.mem_mergeSort.1 hreg)
  obtain ⟨-, rfl⟩ := Registration.mk.inj htopic
  cases topic with
  | snippets => exact keeps_resolver_snippets
  | dialog => exact fun kind c t hc => (keeps_resolver_dialog kind c t hc).of_scriptless
  | dailyRoutine => exact keeps_resolver_dailyRoutine
  | inventory => exact keeps_resolver_inventory
  | skills => exact keeps_resolver_skills
  | fields => exact fun kind c t hc => (keeps_resolver_fields kind c t hc).of_scriptless
  | fieldList => exact fun kind c t hc => (keeps_resolver_fieldList kind c t hc).of_scriptless
  | language => exact fun kind c t hc => (keeps_resolver_language kind c t hc).of_scriptless

theorem Engine.resolvers_standard {ω : Type} (services : Services ω) (maxDepth : Nat) :
    (Engine.standard services maxDepth).resolvers = Topic.all.map (·.resolver) := by
  have hsorted : standardResolvers.mergeSort (fun a b => a.order ≤ b.order) = standardResolvers :=
    List.mergeSort_of_pairwise (by simp [standardResolvers, Topic.all, Topic.order])
  show (standardResolvers.mergeSort fun a b => a.order ≤ b.order).map (·.resolver) = _
  rw [hsorted]
  exact List.map_map

theorem Engine.families_standard {ω : Type} (services : Services ω) (maxDepth : Nat) :
    (Engine.standard services maxDepth).families =
      (Topic.all.map (·.resolver)).flatMap (·.families) := by
  unfold Engine.families
  rw [resolvers_standard]

theorem Engine.applicable_standard {ω : Type} (services : Services ω) (maxDepth : Nat)
    (kind : ArtifactKind) :
    (Engine.standard services maxDepth).applicable kind =
      (Topic.all.map (·.resolver)).filter (·.applies kind) := by
  unfold Engine.applicable
  rw [resolvers_standard]

/-- Of the standard resolvers that take part in a kind the last asks for no scripts. -/
theorem scriptless_getLast_standard {ω : Type} (services : Services ω) (maxDepth : Nat)
    (kind : ArtifactKind) :
    ∃ rs r, (Engine.standard services maxDepth).applicable kind = rs ++ [r] ∧
      ∀ c t, C.Renders c.subject → (r.resolve kind c t).Keeps C.contract.scriptless := by
  rw [Engine.applicable_standard]
  cases kind with
  | npc =>
    exact ⟨[.snippets, .dialog, .dailyRoutine, .inventory, .skills], .fields, rfl,
      fun c t => keeps_resolver_fields _ c t⟩
  | item => exact ⟨[.snippets], .fields, rfl, fun c t => keeps_resolver_fields _ c t⟩
  | skill => exact ⟨[.snippets], .fields, rfl, fun c t => keeps_resolver_fields _ c t⟩
  | fieldList => exact ⟨[], .fieldList, rfl, fun c t => keeps_resolver_fieldList _ c t⟩
  | routineFunction =>
    refine ⟨[], .dailyRoutine, rfl, fun c t hc => ?_⟩
    unfold Resolver.dailyRoutine
    dsimp only
    rw [if_pos rfl]
    split
    · exact keeps_pure _
    · exact keepsTo_wrongSubject _ _
  | snippetFunction =>
    refine ⟨[], .snippets, rfl, fun c t hc => ?_⟩
    unfold Resolver.snippets
    dsimp only
    rw [if_pos rfl]
    split
    · exact keeps_pure _
    · exact keepsTo_wrongSubject _ _
  | languageFile => exact ⟨[], .language, rfl, fun c t => keeps_resolver_language _ c t⟩
  | _ => exact ⟨[], .dialog, rfl, fun c t => keeps_resolver_dialog _ c t⟩
end Resolvers

end RecordExport

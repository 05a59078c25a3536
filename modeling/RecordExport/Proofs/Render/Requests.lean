import RecordExport.Proofs.Render.Contract
import RecordExport.Resolver.Standard
/-!
# What the standard resolvers are put together from

A standard resolver puts its program together from a few requests: one part after the other, or a part
under a label. So whatever holds of the requests and is kept where programs are put together holds of the
whole program, and a property of all resolvers is shown by its few rules (`Composed`) and no walk through
their code.

* `Topic.inside`: the artefacts the resolver of a topic may ask for, `Topic.scope?`: the functions;
* `Topic.composed_resolve`: **a property of its requests is one of its program**;
* `ArtifactKind.height`: an artefact is asked for by artefacts of a greater height only
  (`Topic.height_lt_of_inside`), and no height exceeds two.
-/

namespace RecordExport

universe v

/-! ## 1. Properties of programs -/

/-- What is said where a field, a snippet or a record is missing. -/
inductive MissingDetail : String → Prop
  | field (subject field : String) : MissingDetail (DiagnosticLog.missingDetail subject field)
  | snippet (owner name : String) : MissingDetail (owner ++ " has no export snippet '" ++ name ++ "'")
  | record (what id : String) : MissingDetail (ServiceError.notFound what id).message

/-- If something is missing it is a field, a snippet or a record: no link of a dialog. -/
def SaysMissing (kind : DiagnosticKind) (detail : String) : Prop :=
  kind = .missingReference → MissingDetail detail

/-- What is said of a record may have something in front. -/
theorem missingDetail_record (before what id : String) :
    MissingDetail (before ++ (ServiceError.notFound what id).message) := by
  have h := MissingDetail.record (before ++ what) id
  unfold ServiceError.message at h ⊢
  simpa only [String.append_assoc] using h

/-- So it is where a step fails, whatever is said in front of the failure. -/
theorem saysMissing_failure (before : String) (err : RenderError) :
    SaysMissing err.diagnosticKind (before ++ err.message) := by
  intro h
  cases err with
  | service e =>
    cases e with
    | notFound what id => exact missingDetail_record before what id
    | _ => cases h
  | _ => cases h

theorem saysMissing_error (err : RenderError) : SaysMissing err.diagnosticKind err.message := by
  have h := saysMissing_failure "" err
  rwa [String.empty_append] at h

/-- The operation concerns no artefact, no functions and no labels, and reports no more than something that was
    not used or a field, a snippet or a record that is missing. -/
def RenderOp.IsPlain : RenderOp → Prop
  | .object _ | .dialog _ | .languageKey _ | .settings => True
  | .record kind detail => kind = .unusedInput ∨ kind = .missingReference ∧ MissingDetail detail
  | _ => False

theorem RenderOp.IsPlain.saysMissing {kind : DiagnosticKind} {detail : String}
    (h : (RenderOp.record kind detail).IsPlain) : SaysMissing kind detail := by
  intro hkind
  rcases h with rfl | ⟨-, h⟩
  · cases hkind
  · exact h

/-- A property of plain requests that is kept where one step is put after the other. -/
structure Requested (P : (α : Type) → RenderProgram α → Prop) : Prop extends SequencedBy P where
  plain : ∀ o : RenderOp, o.IsPlain → P o.Answer (.request o)

/-- A property of plain requests that is kept where a resolver puts its program together. -/
structure Composed (P : (α : Type) → RenderProgram α → Prop) : Prop extends Requested P where
  within : ∀ {p : RenderProgram Text}, P Text p → ∀ label, P Text (.within label p)

/-- A property of steps is one of the steps with a state of their own: it holds from every state. -/
theorem SequencedBy.stateT {m : Type → Type v} [Monad m] {P : (α : Type) → m α → Prop}
    (h : SequencedBy P) {σ : Type} :
    SequencedBy fun α (x : StateT σ m α) => ∀ s, P (α × σ) (x.run s) where
  result a s := h.result (a, s)
  sequence hx hf s := h.sequence (hx s) fun r => hf r.1 r.2

variable {P : (α : Type) → RenderProgram α → Prop} {α σ : Type}

/-! ## 2. What the resolvers share -/

namespace SequencedBy

theorem lift (h : SequencedBy P) {p : RenderProgram α} (hp : P α p) (s : σ) :
    P (α × σ) ((liftM p : StateT σ RenderProgram α).run s) := h.sequence hp fun a => h.result (a, s)

theorem modifyGet (h : SequencedBy P) (f : σ → α × σ) (s : σ) :
    P (α × σ) ((MonadState.modifyGet f : StateT σ RenderProgram α).run s) := h.result (f s)

theorem singleObject (h : SequencedBy P) (resolver : String) (c : RenderContext)
    (hw : ∀ s, P GameObject (wrongSubject resolver s)) : P GameObject (singleObject resolver c) := by
  unfold RecordExport.singleObject
  split
  · exact h.result _
  · exact hw _

theorem fillOnce (h : SequencedBy P) {make : RenderProgram Text} (hm : P Text make) (name : String)
    (t : Text) : P Text (fillOnce name make t) := by
  refine h.sequence (h.stateT.replaceScalarsM (fun captures => ?_) _ _ t none) fun r => h.result r.1
  refine h.stateT.sequence (h.modifyGet fun made => (made, made)) fun made => ?_
  cases made with
  | some made => exact h.stateT.result made
  | none =>
    refine h.stateT.sequence (h.lift hm) fun made => ?_
    exact h.stateT.sequence (h.modifyGet fun _ => (PUnit.unit, some made)) fun _ =>
      h.stateT.result made

theorem renderFunctions (h : SequencedBy P) {kind : ArtifactKind}
    (ha : ∀ c label, P Text (.artifact kind c label)) (type : ObjectType)
    (subject : ScriptFunction → Subject) (fs : List ScriptFunction) :
    P Text (renderFunctions kind type subject fs) := by
  refine h.sequence (h.mapM fun f _ => ?_) fun parts => h.result _
  exact h.sequence (ha _ _) fun t => h.result _

theorem fillDetails (h : SequencedBy P) {kind : ArtifactKind}
    (ha : ∀ c label, P Text (.artifact kind c label)) (name : String) (type : ObjectType)
    (o : GameObject) (t : Text) : P Text (fillDetails name kind type o t) :=
  h.sequence (ha _ _) fun _ => h.result _

end SequencedBy

namespace Requested

theorem languageKey (h : Requested P) (r : KeyRequest) : P Text (.languageKey r) :=
  h.sequence (h.plain (.languageKey r) trivial) fun key => h.result key.toList

theorem escaped (h : Requested P) (value : Text) : P Text (.escaped value) :=
  h.sequence (h.plain .settings trivial) fun s => h.result (s.escape value)

theorem missing (h : Requested P) (subject : String) (field : Text) : P Text (.missing subject field) :=
  h.sequence (h.plain (.record _ _) (.inr ⟨rfl, .field _ _⟩)) fun _ => h.result _

theorem fillKey (h : Requested P) (name : String) (r : KeyRequest) (t : Text) :
    P Text (fillKey name r t) := h.replaceScalarsM (fun _ => h.languageKey r) _ _ t

theorem fetchObjects (h : Requested P) (id : α → String) (l : List α) :
    P (List (α × GameObject)) (fetchObjects id l) := by
  induction l with
  | nil => exact h.result []
  | cons a l ih =>
    exact h.sequence (h.plain (.object (id a)) trivial) fun found =>
      h.sequence ih fun others => h.result _

/-! ## 3. Objects and their fields -/

theorem compareField (h : Requested P) (o : GameObject) (expected : Bool) (captures : List Text) :
    P Bool (compareField o expected captures) := by
  unfold RecordExport.compareField
  split
  · exact h.result _
  · exact h.sequence (h.missing _ _) fun _ => h.result _

theorem fieldValue (h : Requested P) (f : Field) : P Text (fieldValue f) := by
  unfold RecordExport.fieldValue
  split
  · exact h.result _
  · exact h.escaped _

theorem useField (h : Requested P) {give : Field → RenderProgram Text} (hg : ∀ f, P Text (give f))
    (o : GameObject) (captures : List Text) (used : List String) :
    P (Text × List String) ((useField o give captures).run used) := by
  unfold RecordExport.useField
  split
  · exact h.stateT.sequence (h.modifyGet _) (fun _ => h.lift (hg _)) used
  · exact h.lift (h.missing _ _) used

/-- The listings of an object's fields have labels that begin with its namespace. -/
theorem resolveObject (h : Requested P) (o : GameObject) (type : ObjectType) {space : String}
    (ha : ∀ c name, P Text (.artifact .fieldList c (space ++ name))) (t : Text) :
    P Text (resolveObject o type space t) := by
  have hconditions : P Text (resolveConditions o space t) :=
    h.sequence (h.keepBlocksM (h.compareField o false) _ _) fun t =>
      h.keepBlocksM (h.compareField o true) _ t
  have hvalues : ∀ t used, P (Text × List String) ((resolveValues o type space t).run used) := by
    intro t
    refine h.stateT.sequence (h.lift (h.escaped _)) fun name => ?_
    refine h.stateT.sequence (h.lift (h.fillKey _ _ _)) fun t => ?_
    refine h.stateT.sequence (h.stateT.replaceScalarsM (h.useField (fun f => ?_) o) _ _ t) fun t => ?_
    · exact h.languageKey _
    · exact h.stateT.replaceScalarsM (h.useField h.fieldValue o) _ _ t
  refine h.sequence hconditions fun t => h.sequence (hvalues t []) fun r => ?_
  exact h.sequence (h.fillOnce (ha _ _) _ _) fun t => h.fillOnce (ha _ _) _ t

end Requested

namespace Composed

theorem resolveNestedObject (h : Composed P) (ha : ∀ c label, P Text (.artifact .fieldList c label))
    (o : GameObject) (type : ObjectType) (space : String) (t : Text) :
    P Text (resolveNestedObject o type space t) :=
  h.within (h.resolveObject o type (fun c _ => ha c _) t) _

/-! ## 4. Snippets -/

theorem useSnippet (h : Composed P)
    (hf : ∀ id owner script, P (List ScriptFunction) (.functions .snippet id owner script))
    {give : List ScriptFunction → RenderProgram Text} (hg : ∀ fs, P Text (give fs)) (o : GameObject)
    (captures : List Text) (used : List String) :
    P (Text × List String) ((useSnippet o give captures).run used) := by
  unfold RecordExport.useSnippet
  dsimp only
  split
  · refine h.stateT.sequence (h.modifyGet _) (fun _ => ?_) used
    exact h.stateT.sequence (h.lift (hf _ _ _)) fun fs => h.lift (hg fs)
  · exact h.stateT.sequence (h.lift (h.plain (.record _ _) (.inr ⟨rfl, .snippet _ _⟩)))
      (fun _ => h.stateT.result _) used

theorem resolveSnippets (h : Composed P)
    (hf : ∀ id owner script, P (List ScriptFunction) (.functions .snippet id owner script))
    (ha : ∀ c label, P Text (.artifact .snippetFunction c label)) (o : GameObject) (type : ObjectType)
    (t : Text) : P Text (resolveSnippets o type t) := by
  have hfill : ∀ t used, P (Text × List String) ((fillSnippets o type t).run used) := by
    intro t
    refine h.stateT.sequence (h.stateT.replaceScalarsM (h.useSnippet hf (fun fs => ?_) o) _ _ t)
      fun t => ?_
    · exact h.renderFunctions ha _ _ _
    · exact h.stateT.sequence
        (h.stateT.replaceScalarsM (h.useSnippet hf (fun _ => h.result _) o) _ _ t)
        fun t => h.stateT.replaceScalarsM (h.useSnippet hf (fun _ => h.result _) o) _ _ t
  refine h.sequence (hfill _ []) fun r => ?_
  refine h.sequence (h.forM fun s _ => ?_) fun _ => h.result _
  exact h.plain (.record _ _) (.inl rfl)

/-! ## 5. Dialogs -/

end Composed

namespace SequencedBy

/-- The steps of a function are rendered as steps of a dialog. -/
theorem isDialogStep_of_mem_flow {npc : GameObject} {d : Dialog} {starts : List FunctionStart}
    (visited : List String) (id : String) :
    ∀ s ∈ flow npc d starts visited id, s.kind.isDialogStep = true := by
  have hown : ∀ n, (ownStep npc d starts n).kind.isDialogStep = true := by
    intro n
    show n.content.kind.isDialogStep = true
    cases n.content <;> rfl
  exact forall_mem_flow (fun _ n _ => hown n) fun _ _ _ _ => rfl

/-- **The functions of a dialog are rendered as artefacts of their steps.** -/
theorem planned (h : SequencedBy P)
    (ha : ∀ kind c label, kind.isDialogStep = true → P Text (.artifact kind c label)) (npc : GameObject)
    (d : Dialog) : P (List ScriptFunction) ((planDialog npc d).mapM renderPlanned) := by
  refine h.mapM fun f hf => ?_
  refine h.sequence (h.mapM fun s hs => ?_) fun parts => h.result _
  obtain ⟨start, -, rfl⟩ := List.mem_map.1 hf
  exact h.sequence (ha s.kind _ _ (isDialogStep_of_mem_flow _ _ s hs)) fun t => h.result _

theorem fillFunctions (h : SequencedBy P) (ha : ∀ c label, P Text (.artifact .dialogFunction c label))
    (name : String) (fs : List ScriptFunction) (t : Text) : P Text (fillFunctions name fs t) := by
  unfold RecordExport.fillFunctions
  split
  · exact h.sequence (h.renderFunctions ha _ _ _) fun _ => h.result _
  · exact h.result t

end SequencedBy

namespace Composed

/-- They are derived so once the links that lead nowhere are reported. -/
theorem derivation (h : Composed P)
    (ha : ∀ kind c label, kind.isDialogStep = true → P Text (.artifact kind c label))
    (hl : ∀ source target, P Unit (.record .missingReference (danglingDetail source target)))
    (npc : GameObject) (d : Dialog) :
    P (List ScriptFunction) (do
      d.dangling.forM fun l => .record .missingReference (danglingDetail l.1 l.2)
      (planDialog npc d).mapM renderPlanned) :=
  h.sequence (h.forM fun _ _ => hl _ _) fun _ => h.planned ha npc d

/-- They are kept where they are derived. -/
theorem dialogFunctions (h : Composed P)
    (ha : ∀ kind c label, kind.isDialogStep = true → P Text (.artifact kind c label))
    (hl : ∀ source target, P Unit (.record .missingReference (danglingDetail source target)))
    (hr : ∀ id, P (Option (List ScriptFunction)) (.request (.recall .dialog id)))
    (hk : ∀ id fs, P Unit (.request (.keep .dialog id fs))) (npc : GameObject) (d : Dialog) :
    P (List ScriptFunction) (dialogFunctions npc d) := by
  refine h.sequence (hr d.id) fun known => ?_
  cases known with
  | some fs => exact h.result fs
  | none => exact h.sequence (h.derivation ha hl npc d) fun fs => h.sequence (hk d.id fs) fun _ => h.result fs

theorem resolveDialog (h : Composed P) (ha : ∀ c label, P Text (.artifact .dialogFunction c label))
    {npc : GameObject} (hd : ∀ d, P (List ScriptFunction) (RecordExport.dialogFunctions npc d)) (t : Text) :
    P Text (resolveDialog npc t) := by
  refine h.sequence (h.plain (.dialog npc.id) trivial) fun found => ?_
  dsimp only
  split
  · exact h.result _
  · split
    · exact h.sequence (hd _) fun fs =>
        h.sequence (h.fillFunctions ha _ _ _) fun t => h.fillFunctions ha _ _ t
    · exact h.result _

theorem resolveStep (h : Composed P) (kind : ArtifactKind) (s : DialogStep) (t : Text) :
    P Text (resolveStep kind s t) := by
  have hline : ∀ speaker line, P Text (resolveLine s speaker line t) := fun speaker line =>
    h.sequence (h.escaped _) fun _ => h.fillKey _ _ _
  unfold RecordExport.resolveStep
  split
  · exact h.result _
  · exact hline _ _
  · exact hline _ _
  · exact h.sequence (h.escaped _) fun _ => h.sequence (h.escaped _) fun _ => h.result _
  · exact h.expandBlocksM (fun o _ p inner => h.sequence (h.escaped _) fun _ => h.fillKey _ _ _) _ t
  · exact h.result t

/-! ## 6. Routines, possessions and language files -/

theorem eventFunctions (h : Composed P)
    (hf : ∀ id owner script, P (List ScriptFunction) (.functions .event id owner script))
    (npc : GameObject) (e : ScheduleEvent) : P (List ScriptFunction) (eventFunctions npc e) := by
  unfold RecordExport.eventFunctions
  split
  · exact h.result []
  · exact hf _ _ _

theorem renderEvent (h : Composed P) {npc : GameObject} {e : ScheduleEvent}
    (hf : P (List ScriptFunction) (RecordExport.eventFunctions npc e)) (p : ListPosition) (inner : Text) :
    P Text (renderEvent npc e p inner) := by
  refine h.sequence (h.plain .settings trivial) fun s => ?_
  dsimp only
  split
  · exact h.sequence hf fun fs => h.result _
  · exact h.result _

theorem resolveRoutine (h : Composed P)
    (hf : ∀ id owner script, P (List ScriptFunction) (.functions .event id owner script))
    (ha : ∀ c label, P Text (.artifact .routineFunction c label)) (npc : GameObject)
    (type : ObjectType) (t : Text) : P Text (resolveRoutine npc type t) := by
  have hall : P Text (renderRoutineFunctions npc type) := by
    refine h.sequence (h.mapM fun e _ => ?_) fun parts => h.result _
    exact h.sequence (h.eventFunctions hf npc e) fun fs => h.renderFunctions ha _ _ _
  refine h.sequence (h.expandBlocksM (fun e _ p inner => ?_) _ _) fun t => h.fillOnce hall _ t
  exact h.renderEvent (h.eventFunctions hf npc e) p inner

theorem resolveSkills (h : Composed P) (ha : ∀ c label, P Text (.artifact .skill c label))
    (hl : ∀ c label, P Text (.artifact .fieldList c label)) (npc : GameObject) (t : Text) :
    P Text (resolveSkills npc t) := by
  refine h.sequence (h.fetchObjects _ _) fun found => h.expandBlocksM (fun o _ p inner => ?_) _ _
  refine h.sequence (h.resolveNestedObject hl o _ _ _) fun t => ?_
  split
  · exact h.fillDetails ha _ _ o t
  · exact h.result t

theorem resolveInventory (h : Composed P) (ha : ∀ c label, P Text (.artifact .item c label))
    (hl : ∀ c label, P Text (.artifact .fieldList c label)) (npc : GameObject) (t : Text) :
    P Text (resolveInventory npc t) := by
  refine h.sequence (h.fetchObjects _ _) fun found => h.expandBlocksM (fun e _ p inner => ?_) _ _
  refine h.sequence (h.resolveNestedObject hl e.2 _ _ _) fun t => ?_
  split
  · exact h.fillDetails ha _ _ e.2 t
  · exact h.result t

theorem resolveLanguageFile (h : Composed P) (os : List GameObject) (referenced : List LanguageKey)
    (t : Text) : P Text (resolveLanguageFile os referenced t) := by
  refine h.sequence (h.expandBlocksM (fun r _ p inner => ?_) _ t) fun t =>
    h.expandBlocksM (fun k _ p inner => ?_) _ _
  · exact h.sequence (h.escaped _) fun _ => h.fillKey _ _ _
  · exact h.sequence (h.escaped _) fun _ => h.result _

theorem renderListedField (h : Composed P) (o : GameObject) (type : ObjectType) (f : Field)
    (p : ListPosition) (inner : Text) : P Text (renderListedField o type f p inner) :=
  h.sequence (h.fieldValue f) fun _ => h.fillKey _ _ _

/-! ## 7. Resolvers -/

section Resolvers

variable (h : Composed P) (hw : ∀ {α : Type} (resolver : String) (s : Subject), P α (wrongSubject resolver s))
  {kind : ArtifactKind} (c : RenderContext) (t : Text)

include h hw

/-- What is made of the one object a text is about is made under a label. -/
theorem ofSingleObject (resolver label : String) {make : GameObject → RenderProgram Text}
    (hm : ∀ o, P Text (make o)) :
    P Text (do let o ← RecordExport.singleObject resolver c; .within label (make o)) :=
  h.sequence (h.singleObject resolver c (hw resolver)) fun o => h.within (hm o) label

/-- A function of a script is put into its own text; every other kind is filled with the functions. -/
theorem snippets_resolve
    (hf : kind ≠ .snippetFunction → ∀ id owner script,
      P (List ScriptFunction) (.functions .snippet id owner script))
    (ha : kind ≠ .snippetFunction → ∀ c label, P Text (.artifact .snippetFunction c label)) :
    P Text (Resolver.snippets.resolve kind c t) := by
  show P Text (ite _ _ _)
  by_cases hk : kind = .snippetFunction
  · rw [if_pos hk]
    split
    · exact h.result _
    · exact hw _ _
  · rw [if_neg hk]
    exact h.ofSingleObject hw c _ _ fun o => h.resolveSnippets (hf hk) (ha hk) o _ t

theorem dialog_resolve (ha : kind = .npc → ∀ c label, P Text (.artifact .dialogFunction c label))
    (hd : kind = .npc → ∀ npc d, P (List ScriptFunction) (RecordExport.dialogFunctions npc d)) :
    P Text (Resolver.dialog.resolve kind c t) := by
  unfold Resolver.dialog
  dsimp only
  split
  · split
    · exact h.ofSingleObject hw c _ _ fun npc => h.resolveDialog (ha rfl) (hd rfl npc) t
    · exact h.result t
  · split
    · exact h.result _
    · exact hw _ _
  · split
    · exact h.resolveStep kind _ t
    · exact hw _ _

theorem dailyRoutine_resolve
    (hf : kind ≠ .routineFunction → ∀ id owner script,
      P (List ScriptFunction) (.functions .event id owner script))
    (ha : kind ≠ .routineFunction → ∀ c label, P Text (.artifact .routineFunction c label)) :
    P Text (Resolver.dailyRoutine.resolve kind c t) := by
  show P Text (ite _ _ _)
  by_cases hk : kind = .routineFunction
  · rw [if_pos hk]
    split
    · exact h.result _
    · exact hw _ _
  · rw [if_neg hk]
    split
    · exact h.ofSingleObject hw c _ _ fun npc => h.resolveRoutine (hf hk) (ha hk) npc _ t
    · exact h.result t

theorem inventory_resolve (ha : ∀ c label, P Text (.artifact .item c label))
    (hl : ∀ c label, P Text (.artifact .fieldList c label)) :
    P Text (Resolver.inventory.resolve kind c t) := by
  show P Text (ite _ _ _)
  split
  · exact h.ofSingleObject hw c _ _ fun npc => h.resolveInventory ha hl npc t
  · exact h.result t

theorem skills_resolve (ha : ∀ c label, P Text (.artifact .skill c label))
    (hl : ∀ c label, P Text (.artifact .fieldList c label)) :
    P Text (Resolver.skills.resolve kind c t) := by
  show P Text (ite _ _ _)
  split
  · exact h.ofSingleObject hw c _ _ fun npc => h.resolveSkills ha hl npc t
  · exact h.result t

theorem fields_resolve (hl : kind.space?.isSome → ∀ c label, P Text (.artifact .fieldList c label)) :
    P Text (Resolver.fields.resolve kind c t) := by
  unfold Resolver.fields
  dsimp only
  cases hk : kind.space? with
  | none => exact h.result t
  | some space =>
    refine h.sequence (h.singleObject _ c (hw _)) fun o => h.resolveObject o _ (fun c _ => ?_) t
    exact hl (by rw [hk]; rfl) c _

theorem fieldList_resolve : P Text (Resolver.fieldList.resolve kind c t) :=
  h.sequence (h.singleObject _ c (hw _)) fun o =>
    h.expandBlocksM (fun f _ => h.renderListedField o _ f) _ t

theorem language_resolve : P Text (Resolver.language.resolve kind c t) := by
  unfold Resolver.language
  dsimp only
  split
  · exact h.resolveLanguageFile _ _ t
  · exact h.resolveLanguageFile _ _ t
  · exact hw _ _

end Resolvers

end Composed

/-! ## 8. Topics -/

namespace Topic

/-- The artefacts the resolver of a topic may ask for in a text of a kind. -/
def inside : Topic → ArtifactKind → List ArtifactKind
  | .snippets, k => if k = .snippetFunction then [] else [.snippetFunction]
  | .dialog, k =>
    if k = .npc then [.dialogFunction, .npcLine, .playerLine, .choice, .action, .functionCall] else []
  | .dailyRoutine, k => if k = .routineFunction then [] else [.routineFunction]
  | .inventory, _ => [.item, .fieldList]
  | .skills, _ => [.skill, .fieldList]
  | .fields, k => if k.space?.isSome then [.fieldList] else []
  | .fieldList, _ => []
  | .language, _ => []

/-- What the functions are derived from that the resolver of a topic may ask for in a text of a kind. -/
def scope? : Topic → ArtifactKind → Option MemoScope
  | .snippets, k => if k = .snippetFunction then none else some .snippet
  | .dailyRoutine, k => if k = .routineFunction then none else some .event
  | _, _ => none

/-- The functions of a dialog are not asked for as those of a script. -/
theorem ne_dialog_of_scope? {topic : Topic} {kind : ArtifactKind} :
    ∀ scope ∈ topic.scope? kind, scope ≠ .dialog := by
  cases topic <;> cases kind <;> decide

variable {P : (α : Type) → RenderProgram α → Prop}

/-- **A property of what a standard resolver may ask for is one of its program**, if it is one of what it
    does with a subject of a wrong type. -/
theorem composed_resolve (h : Composed P)
    (hw : ∀ {α : Type} (resolver : String) (s : Subject), P α (wrongSubject resolver s)) (topic : Topic)
    (kind : ArtifactKind) (c : RenderContext) (t : Text)
    (ha : ∀ inner ∈ topic.inside kind, ∀ c label, P Text (.artifact inner c label))
    (hf : ∀ scope ∈ topic.scope? kind, ∀ id owner script,
      P (List ScriptFunction) (.functions scope id owner script))
    (hd : topic = .dialog → kind = .npc → ∀ npc d, P (List ScriptFunction) (dialogFunctions npc d)) :
    P Text (topic.resolver.resolve kind c t) := by
  cases topic with
  | snippets =>
    refine h.snippets_resolve hw c t (fun hk => ?_) (fun hk => ?_)
    · exact hf .snippet (by simp [scope?, hk])
    · exact ha .snippetFunction (by simp [inside, hk])
  | dialog => exact h.dialog_resolve hw c t (fun hk => ha .dialogFunction (by simp [inside, hk])) (hd rfl)
  | dailyRoutine =>
    refine h.dailyRoutine_resolve hw c t (fun hk => ?_) (fun hk => ?_)
    · exact hf .event (by simp [scope?, hk])
    · exact ha .routineFunction (by simp [inside, hk])
  | inventory =>
    exact h.inventory_resolve hw c t (ha .item (by simp [inside])) (ha .fieldList (by simp [inside]))
  | skills => exact h.skills_resolve hw c t (ha .skill (by simp [inside])) (ha .fieldList (by simp [inside]))
  | fields => exact h.fields_resolve hw c t fun hk => ha .fieldList (by simp [inside, hk])
  | fieldList => exact h.fieldList_resolve hw c t
  | language => exact h.language_resolve hw c t

end Topic

/-! ## 9. Heights -/

/-- How deep what is asked for inside an artefact can nest. -/
def ArtifactKind.height : ArtifactKind → Nat
  | .npc => 2
  | .item | .skill => 1
  | _ => 0

theorem ArtifactKind.height_le (k : ArtifactKind) : k.height ≤ 2 := by
  cases k <;> decide

theorem ArtifactKind.height_of_isDialogStep {k : ArtifactKind} (h : k.isDialogStep = true) :
    k.height < 2 := by
  revert h
  cases k <;> decide

/-- **An artefact only asks for artefacts of less height.** -/
theorem Topic.height_lt_of_inside {topic : Topic} {kind : ArtifactKind}
    (happlies : topic.resolver.applies kind = true) :
    ∀ inner ∈ topic.inside kind, inner.height < kind.height := by
  cases topic <;> cases kind <;> revert happlies <;> decide

end RecordExport

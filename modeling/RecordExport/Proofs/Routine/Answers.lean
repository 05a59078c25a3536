import RecordExport.Proofs.Fields.Usage
import RecordExport.Proofs.Render.Depth
import RecordExport.Proofs.Routine.Names
/-!
# What is answered for a routine

The functions of an event are kept under its id and those of snippets and dialogs elsewhere, so where events
are told apart by their ids each of them gets the functions of its own script.

* `EventAnswer`: functions of an event as they were answered, and the name that stands for them;
* `Shared.Told`: all that was kept or answered for events is what their own scripts give;
* `Engine.quiet_nestedSeen`: what is rendered inside a character keeps it so and prints no functions of the
  routine;
* `Engine.told_eventFunctions`: **who asks for the functions of an event gets those of its own script.**
-/

namespace RecordExport

variable {ω α : Type}

open SessionM

/-! ## 1. What was answered and printed -/

/-- Functions of an event, as they were answered. -/
structure EventAnswer where
  id : String
  functions : List ScriptFunction

/-- The name that stands for them: that of the first. -/
def EventAnswer.name (a : EventAnswer) : String := (a.functions.head?.map (·.name)).getD ""

/-- An event's functions were answered. -/
def RenderEvent.event? : RenderEvent → Option EventAnswer
  | .answered (.functions .event id _ _) fs => some ⟨id, fs⟩
  | _ => none

/-- A function of an event was printed. -/
def RenderEvent.printed? : RenderEvent → Option (String × ScriptFunction)
  | .answered (.artifact .routineFunction c _) _ =>
    match c.subject with
    | .scheduleEvent id f => some (id, f)
    | _ => none
  | _ => none

namespace Transcript

/-- The answers for events, in the order they were given. -/
def eventAnswers (T : Transcript) : List EventAnswer := T.filterMap (·.event?)

/-- The functions that were printed, in their order, each with the id of its event. -/
def printedFunctions (T : Transcript) : List (String × ScriptFunction) := T.filterMap (·.printed?)

end Transcript

/-- The text of an event before its function is named. -/
def filledEvent (e : ScheduleEvent) (p : ListPosition) (inner : Text) (s : EscapeSettings) : Text :=
  fillValues eventSpace (eventValues s e) (gate "DailyRoutine_Event_HasScript" e.script.isSome
    (gate "DailyRoutine_Event_HasMovementTarget" e.movementTarget.isSome (fillPosition eventSpace p inner)))

/-- **The placeholder of an event's function is filled with the name that stands for its functions.** -/
theorem renderEvent_eq (npc : GameObject) (e : ScheduleEvent) (p : ListPosition) (inner : Text) :
    renderEvent npc e p inner = (do
      let s ← .request .settings
      if mentions "DailyRoutine_Event_ScriptFunction" (filledEvent e p inner s) then do
        let fs ← eventFunctions npc e
        pure (fill "DailyRoutine_Event_ScriptFunction" .inline (EventAnswer.mk e.id fs).name.toList
          (filledEvent e p inner s))
      else pure (filledEvent e p inner s)) := by
  unfold renderEvent
  refine bind_congr fun s => ?_
  refine congrArg (ite _ · _) (bind_congr fun fs => ?_)
  cases fs <;> rfl

/-! ## 2. What is told of a routine -/

section Told

variable {npc : GameObject}

/-- **What is told of a character's routine**: functions of an event that are kept, or were answered, are those
    of its own script. -/
structure Shared.Told (npc : GameObject) (a : Shared (ω × Transcript)) : Prop where
  kept : ∀ e ∈ npc.dailyRoutine, ∀ script, e.script = some script → ∀ fs,
    a.memo.get? .event e.id = some fs → fs = scriptFunctions npc.name script
  answers : ∀ x ∈ a.world.2.eventAnswers, ∃ e ∈ npc.dailyRoutine, ∃ script, e.script = some script ∧
    x = ⟨e.id, scriptFunctions npc.name script⟩

/-- Events are told apart by their ids, and functions are those that marks in the scripts begin. -/
structure Services.CutsRoutine (services : Services ω) (npc : GameObject) : Prop where
  ids : (npc.dailyRoutine.map (·.id)).Nodup
  functions : ∀ owner script w, (services.functions owner script w).result =
    .ok (scriptFunctions owner script)

/-- A step that keeps it so and prints none of the functions. -/
def Quiet (npc : GameObject) (s s' : Session (ω × Transcript)) : Prop :=
  (s.shared.Told npc → s'.shared.Told npc) ∧
    s'.world.2.printedFunctions = s.world.2.printedFunctions

theorem stepRelation_quiet : StepRelation (Quiet (ω := ω) npc) :=
  .shared (Q := fun a b => (a.Told npc → b.Told npc) ∧
    b.world.2.printedFunctions = a.world.2.printedFunctions) (fun _ => ⟨fun h => h, rfl⟩)
    fun h₁ h₂ => ⟨fun h => h₂.1 (h₁.1 h), h₂.2.trans h₁.2⟩

/-- It stays right where nothing is kept for events and nothing is seen to be answered for them. -/
theorem Shared.Told.seen {a b : Shared (ω × Transcript)} (h : a.Told npc) {ev : RenderEvent}
    (hmemo : ∀ id, b.memo.get? .event id = a.memo.get? .event id)
    (hworld : b.world.2 = a.world.2 ++ [ev]) (hevent : ev.event? = none) : b.Told npc := by
  have hanswers : b.world.2.eventAnswers = a.world.2.eventAnswers := by
    rw [hworld]
    exact filterMap_concat_of_none _ hevent
  refine ⟨fun e he script hs fs hfs => ?_, fun x hx => h.answers x (hanswers ▸ hx)⟩
  exact h.kept e he script hs fs ((hmemo e.id).symm.trans hfs)

theorem quiet_of_seen {s s' : Session (ω × Transcript)} {ev : RenderEvent}
    (hmemo : ∀ id, s'.memo.get? .event id = s.memo.get? .event id)
    (hworld : s'.world.2 = s.world.2 ++ [ev]) (hevent : ev.event? = none) (hprinted : ev.printed? = none) :
    Quiet npc s s' := by
  refine ⟨fun h => h.seen hmemo hworld hevent, ?_⟩
  rw [hworld]
  exact filterMap_concat_of_none _ hprinted

theorem quiet_see {ev : RenderEvent} (hevent : ev.event? = none) (hprinted : ev.printed? = none) :
    Leads (Quiet (ω := ω) npc) (see .scribe ev) :=
  fun _ => quiet_of_seen (fun _ => rfl) rfl hevent hprinted

/-- Keeping other functions than an event's is quiet. -/
theorem quiet_keep {scope : MemoScope} (hscope : scope ≠ .event) (id : String) (fs : List ScriptFunction)
    (s : Session (ω × Transcript)) : Quiet npc s { s with memo := s.memo.insert scope id fs } := by
  refine ⟨fun h => ⟨fun e he script hs fs' hfs => h.kept e he script hs fs' ?_, h.answers⟩, rfl⟩
  have hne : (MemoScope.event, e.id) ≠ (scope, id) := fun h => hscope (Prod.mk.inj h).1.symm
  have hfs : (s.memo.insert scope id fs).get? .event e.id = some fs' := hfs
  rw [FunctionMemo.get?_insert, if_neg hne] at hfs
  exact hfs

theorem quiet_called (npc : GameObject) (c : Call ω α) (made : Except ServiceError α → CallMade)
    (s : Session (ω × Transcript)) :
    Quiet npc s { s with
      world := (c.onLeft.seen .scribe made s.world).world
      cancelled := s.cancelled || (c.onLeft.seen .scribe made s.world).cancels } :=
  let call := made (c s.world.1).result
  have hevent : (RenderEvent.called call.site call.id (c s.world.1).cancels).event? = none := rfl
  quiet_of_seen (fun _ => rfl) rfl hevent rfl

theorem lead_quiet (npc : GameObject) (services : Services ω) :
    (services.onLeft.seen .scribe).Lead (Quiet npc) where
  object _ := leads_call stepRelation_quiet (quiet_called npc _ _)
  dialog _ := leads_call stepRelation_quiet (quiet_called npc _ _)
  languageKey _ := leads_call stepRelation_quiet (quiet_called npc _ _)
  template _ _ := leads_call stepRelation_quiet (quiet_called npc _ _)
  report _ := stepRelation_quiet.refl

end Told

/-! ## 3. Steps that are quiet -/

/-- Only the daily routine of a character asks for its functions. -/
theorem Topic.leaves_routine {topic : Topic} {kind : ArtifactKind}
    (happlies : topic.resolver.applies kind = true) (h : topic ≠ .dailyRoutine ∨ kind ≠ .npc) :
    (∀ inner ∈ topic.inside kind, inner ≠ .routineFunction) ∧
      ∀ scope ∈ topic.scope? kind, scope = .snippet := by
  cases topic <;> cases kind <;> revert happlies h <;> decide

namespace Engine

section Standard

variable {services : Services ω} {n left d : Nat} {nested : NestedRender (ω × Transcript)}
  {npc : GameObject} {kind : ArtifactKind} {c : RenderContext} {t : Text}

/-- The engine that writes transcripts is one of the standard resolvers. -/
abbrev written (services : Services ω) (n : Nat) : Engine (ω × Transcript) :=
  (Engine.standard services n).transcribing

/-- An answer of it, once it was seen. -/
abbrev writtenAnswer (services : Services ω) (n : Nat) (nested : NestedRender (ω × Transcript))
    (d : Nat) (o : RenderOp) : SessionM (ω × Transcript) o.Answer :=
  (written services n).answerSeen .scribe nested d o

theorem quiet_plain {o : RenderOp} (ho : o.IsPlain) :
    Leads (Quiet npc) (writtenAnswer services n nested d o) := by
  have hanswer := leads_answer_plain (written services n) nested d stepRelation_quiet
    (lead_quiet npc services) (fun _ _ _ => stepRelation_quiet.refl) o ho
  refine leads_answerSeen stepRelation_quiet hanswer fun x => ?_
  cases o with
  | object | dialog | languageKey | settings | record => exact quiet_see rfl rfl
  | _ => exact ho.elim

/-- An artefact that is no function of a routine. -/
theorem quiet_artifact (hn : ∀ r : RenderRequest, r.kind = kind → Leads (Quiet npc) (nested r))
    (hkind : kind ≠ .routineFunction) (label : String) :
    Leads (Quiet npc) (writtenAnswer services n nested d (.artifact kind c label)) := by
  have hanswer : Leads (Quiet npc) ((written services n).answer nested d (.artifact kind c label)) :=
    leads_artifact stepRelation_quiet (lead_quiet npc services) hn
      (fun _ _ _ _ _ => stepRelation_quiet.refl) label
  refine leads_answerSeen stepRelation_quiet hanswer fun x => ?_
  cases kind with
  | routineFunction => exact absurd rfl hkind
  | _ => exact quiet_see rfl rfl

/-- Functions of a snippet. -/
theorem quiet_snippet (id owner : String) (script : Script) :
    Leads (Quiet npc) (writtenAnswer services n nested d (.functions .snippet id owner script)) := by
  have hcalled := quiet_called npc (services.functions owner script) (.functions owner script)
  refine leads_answerSeen stepRelation_quiet (leads_functionsOnce stepRelation_quiet
    (leads_call stepRelation_quiet hcalled) (fun _ => stepRelation_quiet.refl) fun s fs _ _ => ?_)
    fun _ => quiet_see rfl rfl
  exact stepRelation_quiet.trans (hcalled s) (quiet_keep (by decide) id fs _)

/-- The functions of a dialog. -/
theorem quiet_dialogFunctions (hn : LeadsInside (Quiet npc) nested) (owner : GameObject)
    (dialog : Dialog) :
    Leads (Quiet npc) (run (writtenAnswer services n nested d) (dialogFunctions owner dialog)) := by
  refine (composed_leads stepRelation_quiet fun o ho => quiet_plain ho).dialogFunctions
    (fun step c label hstep => leads_request (quiet_artifact (fun r hr => hn r ?_) ?_ label))
    (fun _ _ => leads_request ?_) (fun id => leads_request ?_) (fun id fs => leads_request ?_) owner dialog
  · exact hr ▸ ArtifactKind.height_of_isDialogStep hstep
  · rintro rfl
    cases hstep
  · exact leads_answerSeen stepRelation_quiet stepRelation_quiet.refl fun _ => quiet_see rfl rfl
  · exact leads_answerSeen stepRelation_quiet stepRelation_quiet.refl fun _ => quiet_see rfl rfl
  · exact leads_answerSeen stepRelation_quiet (fun s => quiet_keep (by decide) id fs s)
      fun _ => quiet_see rfl rfl

theorem quiet_passSeen (hkind : kind.height < 2) (hn : LeadsInside (Quiet npc) nested) :
    Leads (Quiet npc) ((written services n).passSeen .scribe (writtenAnswer services n nested d) kind c t) := by
  have hR : StepRelation (Quiet (ω := ω) npc) := stepRelation_quiet
  have hnpc : kind ≠ .npc := fun h => absurd hkind (by rw [h]; decide)
  refine leads_standard (services.onLeft.seen .scribe) n hR (fun o ho => quiet_plain ho)
    (fun _ _ _ => hR.refl) (fun _ _ => quiet_see rfl rfl) (fun topic happlies inner hinner c label => ?_)
    (fun topic happlies scope hscope => ?_) fun h => absurd h hnpc
  · have hheight := (Topic.height_lt_of_inside happlies inner hinner).trans hkind
    exact quiet_artifact (fun r hr => hn r (hr ▸ hheight))
      ((Topic.leaves_routine happlies (.inr hnpc)).1 inner hinner) label
  · rw [(Topic.leaves_routine happlies (.inr hnpc)).2 scope hscope]
    exact quiet_snippet

/-- **A render that is not of a character is quiet**, by induction on the levels left. -/
theorem quiet_nestedSeen (left : Nat) :
    LeadsInside (Quiet npc) ((written services n).nestedSeen .scribe left) := by
  have hR : StepRelation (Quiet (ω := ω) npc) := stepRelation_quiet
  induction left with
  | zero => exact fun r hr => leads_checkpoint_bind hR fun s _ => hR.refl s
  | succ left ih =>
    intro r hr
    refine leads_checkpoint_bind hR fun s _ => ?_
    have hpass : Leads (Quiet npc) ((written services n).passSeen .scribe
        (writtenAnswer services n _ (n - left)) r.kind r.context r.text) := quiet_passSeen hr ih
    have hnested := (hpass.isolated hR r.label).nesting hR (r := r) (quiet_see rfl rfl) (quiet_see rfl rfl)
    exact hnested.bind hR (fun _ => leads_pure hR _) s

/-! ## 4. The functions of an event -/

/-- One more answer is told of an event's own script. -/
theorem told_answered {a b : Shared (ω × Transcript)} (h : a.Told npc) {e : ScheduleEvent}
    (he : e ∈ npc.dailyRoutine) {script : Script} (hs : e.script = some script)
    (hkept : ∀ e' ∈ npc.dailyRoutine, ∀ script', e'.script = some script' → ∀ fs,
      b.memo.get? .event e'.id = some fs → fs = scriptFunctions npc.name script')
    (hanswers : b.world.2.eventAnswers =
      a.world.2.eventAnswers ++ [⟨e.id, scriptFunctions npc.name script⟩]) : b.Told npc := by
  refine ⟨hkept, fun x hx => ?_⟩
  rw [hanswers] at hx
  rcases List.mem_append.1 hx with hx | hx
  · exact h.answers x hx
  · exact ⟨e, he, script, hs, List.mem_singleton.1 hx⟩

/-- What is kept for an event is not kept for another one. -/
theorem kept_insert {a : Shared (ω × Transcript)} (h : a.Told npc)
    (hids : (npc.dailyRoutine.map (·.id)).Nodup) {e : ScheduleEvent} (he : e ∈ npc.dailyRoutine)
    {script : Script} (hs : e.script = some script) :
    ∀ e' ∈ npc.dailyRoutine, ∀ script', e'.script = some script' → ∀ fs,
      (a.memo.insert .event e.id (scriptFunctions npc.name script)).get? .event e'.id = some fs →
        fs = scriptFunctions npc.name script' := by
  intro e' he' script' hs' fs hfs
  rw [FunctionMemo.get?_insert] at hfs
  by_cases hid : e'.id = e.id
  · obtain rfl := List.inj_on_of_nodup_map hids he' he hid
    obtain rfl := Option.some.inj (hs.symm.trans hs')
    rw [if_pos rfl] at hfs
    exact (Option.some.inj hfs).symm
  · rw [if_neg fun h => hid (Prod.mk.inj h).2] at hfs
    exact h.kept e' he' script' hs' fs hfs

/-- **Who asks for the functions of an event gets those of its own script.** -/
theorem told_functions (hcuts : services.CutsRoutine npc) {e : ScheduleEvent}
    (he : e ∈ npc.dailyRoutine) {script : Script} (hs : e.script = some script)
    (s : Session (ω × Transcript)) :
    let asked := writtenAnswer services n nested d (.functions .event e.id npc.name script) s
    Quiet npc s asked.2 ∧
      (s.shared.Told npc → ∀ fs, asked.1 = .ok fs → fs = scriptFunctions npc.name script) := by
  intro asked
  have hasked : asked = (written services n).functionsSeen .scribe .event e.id npc.name script s := rfl
  cases hm : s.memo.get? .event e.id with
  | some fs =>
    rw [hasked, functionsSeen_of_kept hm]
    refine ⟨⟨fun h => ?_, ?_⟩, fun h fs' hfs' => ?_⟩
    · obtain rfl := h.kept e he script hs fs hm
      exact told_answered h he hs h.kept (filterMap_concat _ _ _)
    · exact filterMap_concat_of_none _ rfl
    · obtain rfl := Except.ok.inj hfs'
      exact h.kept e he script hs fs hm
  | none =>
    cases hc : s.cancelled with
    | true =>
      rw [hasked, functionsSeen_of_error hm (callOrReport_of_cancelled hc)]
      exact ⟨stepRelation_quiet.refl s, fun _ fs hfs => by cases hfs⟩
    | false =>
      have hr : ((written services n).services.functions npc.name script s.world).result =
          .ok (scriptFunctions npc.name script) := hcuts.functions _ _ _
      rw [hasked, functionsSeen_of_some hm (callOrReport_of_ok hc hr)]
      -- the call is seen first, and then the answer
      refine ⟨⟨fun h => told_answered h he hs (kept_insert h hcuts.ids he hs) ?_, ?_⟩, fun _ fs hfs => ?_⟩
      · exact (filterMap_concat _ (_ ++ [_]) _).trans
          (congrArg (· ++ _) (filterMap_concat_of_none _ rfl))
      · exact (filterMap_concat_of_none (_ ++ [_]) rfl).trans (filterMap_concat_of_none _ rfl)
      · exact (Except.ok.inj hfs).symm

theorem told_eventFunctions (hcuts : services.CutsRoutine npc) {e : ScheduleEvent}
    (he : e ∈ npc.dailyRoutine) (n d : Nat) (nested : NestedRender (ω × Transcript))
    (s : Session (ω × Transcript)) :
    let asked := run (writtenAnswer services n nested d) (eventFunctions npc e) s
    Quiet npc s asked.2 ∧
      (s.shared.Told npc → ∀ fs, asked.1 = .ok fs → fs = e.functions npc.name) := by
  unfold eventFunctions ScheduleEvent.functions
  cases hs : e.script with
  | none => exact ⟨stepRelation_quiet.refl s, fun _ fs hfs => (Except.ok.inj hfs).symm⟩
  | some script =>
    have hrequest : run (writtenAnswer services n nested d) (.functions .event e.id npc.name script) =
        writtenAnswer services n nested d (.functions .event e.id npc.name script) := run_request _
    rw [hrequest]
    exact told_functions hcuts he hs s

end Standard

end Engine

end RecordExport

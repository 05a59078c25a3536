import RecordExport.Proofs.Routine.Answers
import RecordExport.Service.Rehearsal
/-!
# The functions of a routine

A character's template has two places for the functions of its routine: one lists all of them, one gives the
name of a function to call for each event. So a name had better be that of one of them only, and of the
event's own.

* `Prints`: a step and the functions it prints on the way, `Exactly`, `AllOrNone`: how many of them if the
  step ends well, and a first part of them if not;
* `Engine.prints_pass`: a render of a character prints the functions of its routine in their order;
* `Engine.routineNamed_render`: **the names differ exactly if no two functions of the routine have the same
  name**, and then a name that is printed for an event is that of one function, the event's own.
-/

namespace RecordExport

variable {ω α β : Type}

open SessionM

/-! ## 1. Steps that print functions -/

section Prints

variable {npc : GameObject} {D D₁ : Except RenderError α → List (String × ScriptFunction) → Prop}
  {L L' : List (String × ScriptFunction)} {Q : α → Prop} {Q' : β → Prop}
  {x : SessionM (ω × Transcript) α} {f : α → SessionM (ω × Transcript) β}

/-- **A step prints functions** as its end demands, and what is told of the routine stays right. -/
def Prints (npc : GameObject) (D : Except RenderError α → List (String × ScriptFunction) → Prop)
    (x : SessionM (ω × Transcript) α) : Prop :=
  ∀ s, s.shared.Told npc → (x s).2.shared.Told npc ∧
    ∃ L, (x s).2.world.2.printedFunctions = s.world.2.printedFunctions ++ L ∧ D (x s).1 L

/-- All of these functions in their order and a right result, or a first part of them and a failure. -/
def Exactly (L : List (String × ScriptFunction)) (Q : α → Prop) :
    Except RenderError α → List (String × ScriptFunction) → Prop
  | .ok a, L' => L' = L ∧ Q a
  | .error _, L' => L' <+: L

/-- All of these functions or none, or a first part of them and a failure. -/
def AllOrNone (L : List (String × ScriptFunction)) :
    Except RenderError α → List (String × ScriptFunction) → Prop
  | .ok _, L' => L' = [] ∨ L' = L
  | .error _, L' => L' <+: L

theorem Prints.mono (h : Prints npc D₁ x) (hD : ∀ r L, D₁ r L → D r L) : Prints npc D x := by
  intro s hs
  obtain ⟨hto, L, hL, hend⟩ := h s hs
  exact ⟨hto, L, hL, hD _ L hend⟩

theorem Prints.bind {D : Except RenderError β → List (String × ScriptFunction) → Prop}
    (hx : Prints npc D₁ x) (herror : ∀ e L, D₁ (.error e) L → D (.error e) L)
    (hf : ∀ a L, D₁ (.ok a) L → Prints npc (fun r L' => D r (L ++ L')) (f a)) :
    Prints npc D (x >>= f) := by
  intro s hs
  obtain ⟨hto, L, hL, hend⟩ := hx s hs
  rw [bind_apply]
  cases hxs : (x s).1 with
  | error e =>
    rw [hxs] at hend
    exact ⟨hto, L, hL, herror e L hend⟩
  | ok a =>
    rw [hxs] at hend
    obtain ⟨hto', L', hL', hend'⟩ := hf a L hend _ hto
    exact ⟨hto', L ++ L', by rw [hL', hL, List.append_assoc], hend'⟩

/-- A quiet step prints nothing. -/
theorem prints_of_quiet (hx : Leads (Quiet npc) x) (hD : ∀ r, D r []) : Prints npc D x := fun s hs =>
  ⟨(hx s).1 hs, [], (hx s).2.trans (List.append_nil _).symm, hD _⟩

theorem Prints.within (hx : Prints npc D x) (label : String) : Prints npc D (within label x) :=
  fun s hs => hx { s with log := (s.log.enter label).2 } hs

theorem prints_checkpoint_bind (hnone : D (.error .cancelled) []) (hx : Prints npc D x) :
    Prints npc D (checkpoint >>= fun _ => x) := by
  intro s hs
  rw [checkpoint_bind_apply]
  split
  · exact ⟨hs, [], (List.append_nil _).symm, hnone⟩
  · exact hx s hs

theorem exactly_pure {a : α} (ha : Q a) :
    Prints npc (Exactly [] Q) (pure a : SessionM (ω × Transcript) α) :=
  fun _ hs => ⟨hs, [], (List.append_nil _).symm, rfl, ha⟩

theorem exactly_bind (hx : Prints npc (Exactly L Q) x)
    (hf : ∀ a, Q a → Prints npc (Exactly L' Q') (f a)) : Prints npc (Exactly (L ++ L') Q') (x >>= f) := by
  refine hx.bind (fun e L₁ h => h.trans (List.prefix_append L L')) fun a L₁ h => ?_
  obtain ⟨rfl, ha⟩ := h
  refine (hf a ha).mono fun r L₂ h => ?_
  cases r with
  | ok b => exact ⟨congrArg _ h.1, h.2⟩
  | error e => exact (List.prefix_append_right_inj _).2 h

/-- A result that comes of it prints nothing more. -/
theorem exactly_bind_pure (hx : Prints npc (Exactly L Q) x) (g : α → β) :
    Prints npc (Exactly L fun _ => True) (x >>= fun a => pure (g a)) := by
  rw [← List.append_nil L]
  exact exactly_bind hx fun a _ => exactly_pure trivial

/-- **A loop prints what its turns print**, by induction on the list it goes through. -/
theorem exactly_mapM {f : α → SessionM (ω × Transcript) β} {g : α → List (String × ScriptFunction)}
    {l : List α} (h : ∀ a ∈ l, Prints npc (Exactly (g a) fun _ => True) (f a)) :
    Prints npc (Exactly (l.flatMap g) fun _ => True) (l.mapM f) := by
  induction l with
  | nil => exact exactly_pure trivial
  | cons a l ih =>
    rw [List.mapM_cons, List.flatMap_cons]
    refine exactly_bind (h a List.mem_cons_self) fun b _ => ?_
    exact exactly_bind_pure (ih fun a ha => h a (List.mem_cons_of_mem _ ha)) _

theorem allOrNone_of_exactly (hx : Prints npc (Exactly L Q) x) : Prints npc (AllOrNone L) x :=
  hx.mono fun r L' h => by
    cases r with
    | ok a => exact .inr h.1
    | error e => exact h

/-- What becomes of a result does not matter. -/
theorem AllOrNone.map {r : Except RenderError α} (h : AllOrNone L r L') (g : α → β) :
    AllOrNone L (r.map g) L' := by
  cases r <;> exact h

theorem allOrNone_nil (r : Except RenderError α) : AllOrNone L r [] := by
  cases r with
  | ok a => exact .inl rfl
  | error e => exact List.nil_prefix

/-- After a quiet step. -/
theorem allOrNone_quiet_bind (hx : Leads (Quiet npc) x) (hf : ∀ a, Prints npc (AllOrNone L) (f a)) :
    Prints npc (AllOrNone L) (x >>= f) := by
  refine (prints_of_quiet (D := fun _ L => L = []) hx fun _ => rfl).bind (fun e L₁ h => ?_) fun a L₁ h => ?_
  · exact h ▸ allOrNone_nil _
  · obtain rfl := h
    exact hf a

/-- Before quiet steps. -/
theorem allOrNone_bind_quiet (hx : Prints npc (AllOrNone L) x) (hf : ∀ a, Leads (Quiet npc) (f a)) :
    Prints npc (AllOrNone L) (x >>= f) := by
  refine hx.bind (fun e L₁ h => h) fun a L₁ h => prints_of_quiet (hf a) fun r => ?_
  rw [List.append_nil]
  cases r with
  | ok b => exact h
  | error e =>
    rcases h with rfl | rfl
    · exact List.nil_prefix
    · exact List.prefix_rfl

end Prints

/-! ## 2. The resolver of routines -/

namespace Engine

/-- A loop of programs is run as a loop. -/
theorem run_mapM {answer : (o : RenderOp) → SessionM ω o.Answer} (f : α → RenderProgram β)
    (l : List α) : run answer (l.mapM f) = l.mapM fun a => run answer (f a) := by
  induction l with
  | nil => rfl
  | cons a l ih =>
    rw [List.mapM_cons, List.mapM_cons, run_bind]
    refine bind_congr fun b => ?_
    rw [run_bind, ih]
    rfl

section Standard

variable {services : Services ω} {n left d : Nat} {nested : NestedRender (ω × Transcript)}
  {npc : GameObject} {type : ObjectType} {c : RenderContext} {t : Text}

/-- A function of a routine is printed when its artefact was answered. -/
theorem exactly_artifact (hn : LeadsInside (Quiet npc) nested) (id : String) (f : ScriptFunction)
    (type : ObjectType) (label : String) :
    Prints npc (Exactly [(id, f)] fun _ => True) (writtenAnswer services n nested d
      (.artifact .routineFunction (.of (.scheduleEvent id f) type) label)) := by
  have hanswer : Leads (Quiet npc) ((written services n).answer nested d
      (.artifact .routineFunction (.of (.scheduleEvent id f) type) label)) :=
    leads_artifact stepRelation_quiet (lead_quiet npc services) (fun r hr => hn r (hr ▸ by decide))
      (fun _ _ _ _ _ => stepRelation_quiet.refl) label
  refine (prints_of_quiet (D := fun _ L => L = []) hanswer fun _ => rfl).bind (fun e L h => ?_)
    fun x L h s hs => ?_
  · exact h ▸ List.nil_prefix
  · obtain rfl := h
    exact ⟨hs.seen (fun _ => rfl) rfl rfl, [(id, f)], filterMap_concat _ _ _, rfl, trivial⟩

/-- The functions of an event. -/
theorem exactly_renderFunctions (hn : LeadsInside (Quiet npc) nested) (id : String)
    (fs : List ScriptFunction) :
    Prints npc (Exactly (fs.map (id, ·)) fun _ => True) (run (writtenAnswer services n nested d)
      (renderFunctions .routineFunction type (.scheduleEvent id) fs)) := by
  unfold renderFunctions
  rw [run_bind, run_mapM, List.map_eq_flatMap]
  refine exactly_bind_pure (exactly_mapM fun f _ => ?_) paragraphs
  rw [run_bind]
  refine exactly_bind_pure (Q := fun _ => True) ?_ trimBlankLines
  show Prints npc _ (run _ (.request _))
  rw [run_request]
  exact exactly_artifact hn id f type ("Function " ++ f.name)

/-- The functions of an event are got without printing any. -/
theorem exactly_eventFunctions (hcuts : services.CutsRoutine npc) {e : ScheduleEvent}
    (he : e ∈ npc.dailyRoutine) :
    Prints npc (Exactly [] fun fs => fs = e.functions npc.name)
      (run (writtenAnswer services n nested d) (eventFunctions npc e)) := by
  intro s htold
  obtain ⟨hquiet, hgiven⟩ := told_eventFunctions hcuts he n d nested s
  refine ⟨hquiet.1 htold, [], hquiet.2.trans (List.append_nil _).symm, ?_⟩
  cases hend : (run (writtenAnswer services n nested d) (eventFunctions npc e) s).1 with
  | ok fs => exact ⟨rfl, hgiven htold fs hend⟩
  | error err => exact List.prefix_rfl

/-- **The listing prints the functions of the routine**, each once and in their order. -/
theorem exactly_renderRoutineFunctions (hcuts : services.CutsRoutine npc)
    (hn : LeadsInside (Quiet npc) nested) :
    Prints npc (Exactly npc.routineFunctions fun _ => True) (run (writtenAnswer services n nested d)
      (renderRoutineFunctions npc type)) := by
  unfold renderRoutineFunctions
  rw [run_bind, run_mapM]
  refine exactly_bind_pure (exactly_mapM fun e he => ?_) paragraphs
  rw [run_bind, ← List.nil_append (List.map _ _)]
  refine exactly_bind (exactly_eventFunctions hcuts he) fun fs hfs => ?_
  exact hfs ▸ exactly_renderFunctions hn e.id fs

/-- **The resolver of routines prints the functions of a routine** if the text has a place for them. -/
theorem allOrNone_resolveRoutine (hcuts : services.CutsRoutine npc)
    (hn : LeadsInside (Quiet npc) nested) (t : Text) :
    Prints npc (AllOrNone npc.routineFunctions) (run (writtenAnswer services n nested d)
      (resolveRoutine npc type t)) := by
  have hcomposed : Composed fun α p =>
      Leads (Quiet npc) (run (α := α) (writtenAnswer services n nested d) p) :=
    composed_leads stepRelation_quiet fun o ho => quiet_plain ho
  unfold resolveRoutine
  dsimp only
  rw [run_bind]
  refine allOrNone_quiet_bind (hcomposed.expandBlocksM (fun e he p inner => ?_) _ _) fun t => ?_
  · exact hcomposed.renderEvent (fun s => (told_eventFunctions hcuts he n d nested s).1) p inner
  · rw [fillOnce_eq]
    unfold fillAll
    split
    · exact prints_of_quiet (leads_pure stepRelation_quiet _) allOrNone_nil
    · rw [run_bind]
      exact allOrNone_of_exactly (exactly_bind_pure (exactly_renderRoutineFunctions hcuts hn) _)

/-- A resolver that fails by cancellation alone prints in an attempt what its program does. -/
theorem prints_attempt {kind : ArtifactKind} {r : Resolver}
    {answer : (o : RenderOp) → SessionM (ω × Transcript) o.Answer}
    {D : Except RenderError Text → List (String × ScriptFunction) → Prop} (hnone : D (.error .cancelled) [])
    (hlasts : Lasts (run answer (r.resolve kind c t)))
    (h : Prints npc D (run answer (r.resolve kind c t))) : Prints npc D (attempt answer kind c t r) := by
  intro s hs
  have hlast := hlasts s
  have hprints := h s hs
  rw [attempt_apply]
  split
  · exact ⟨hs, [], (List.append_nil _).symm, hnone⟩
  · generalize run answer (r.resolve kind c t) s = out at hlast hprints
    obtain ⟨result, s'⟩ := out
    cases result with
    | ok t' => exact hprints
    | error err =>
      obtain rfl : err = .cancelled := hlast err rfl
      exact hprints

/-! ## 3. Renders of a character -/

/-- The other resolvers of a character print none of the functions. -/
theorem quiet_attemptSeen (hn : LeadsInside (Quiet npc) nested) {topic : Topic}
    (happlies : topic.resolver.applies .npc = true) (htopic : topic ≠ .dailyRoutine) (c : RenderContext)
    (t : Text) :
    Leads (Quiet npc) (attemptSeen .scribe (writtenAnswer services n nested d) .npc c t topic.resolver) := by
  have hR : StepRelation (Quiet (ω := ω) npc) := stepRelation_quiet
  obtain ⟨hinside, hscope⟩ := Topic.leaves_routine happlies (.inl htopic)
  have hresolve : Leads (Quiet npc) (run (writtenAnswer services n nested d)
      (topic.resolver.resolve .npc c t)) := by
    refine leads_resolve hR (fun o ho => quiet_plain ho) topic (fun inner hinner c label => ?_)
      (fun scope hmem => hscope scope hmem ▸ quiet_snippet) fun _ _ => quiet_dialogFunctions hn
    refine quiet_artifact (fun r hr => hn r ?_) (hinside inner hinner) label
    exact hr ▸ Topic.height_lt_of_inside happlies inner hinner
  refine leads_checkpoint_bind hR fun s _ => ?_
  exact (quiet_see rfl rfl : Leads (Quiet npc) (see .scribe _)).bind hR
    (fun _ => leads_attempt hR hresolve fun _ _ _ _ => hR.refl) s

/-- The resolver of routines fails by cancellation alone. -/
theorem lasts_resolveRoutine (e : Engine ω) (see : Observer ω) (t : Text) :
    Lasts (run (e.answerSeen see (e.nestedSeen see left) d)
      (.within "Daily routine" (resolveRoutine npc type t))) := by
  have hrequest : ∀ o, Lasts (run (e.answerSeen see (e.nestedSeen see left) d) (.request o)) := by
    intro o
    rw [run_request]
    exact e.lasts_answerSeen see left d o
  have hcomposed := composed_fails (F := fun err => err = .cancelled) (e.lasts_answerSeen see left d)
  exact hcomposed.within (hcomposed.resolveRoutine (fun _ _ _ => hrequest _) (fun _ _ => hrequest _)
    npc type t) _

variable {referenced : List LanguageKey}

theorem allOrNone_dailyRoutine (hcuts : services.CutsRoutine npc) (t : Text) :
    Prints npc (AllOrNone npc.routineFunctions) (attemptSeen .scribe
      (writtenAnswer services n ((written services n).nestedSeen .scribe left) d) .npc
      ⟨.object npc, type, referenced⟩ t .dailyRoutine) := by
  have hresolve : Resolver.dailyRoutine.resolve .npc ⟨.object npc, type, referenced⟩ t =
      if mentions "DailyRoutine_" t then .within "Daily routine" (resolveRoutine npc type t)
      else pure t := rfl
  refine prints_checkpoint_bind (allOrNone_nil _) (allOrNone_quiet_bind (quiet_see rfl rfl) fun _ => ?_)
  refine prints_attempt (allOrNone_nil _) ?_ ?_
  · rw [hresolve]
    split
    · exact lasts_resolveRoutine (written services n) .scribe t
    · exact sequencedBy_lasts.result t
  · rw [hresolve]
    split
    · rw [run_within]
      exact (allOrNone_resolveRoutine hcuts (quiet_nestedSeen left) t).within _
    · exact prints_of_quiet (leads_pure stepRelation_quiet _) allOrNone_nil

/-- **A render of a character prints the functions of its routine**, all of them in their order or none, and
    no more than a first part of them if it fails. -/
theorem prints_pass (hcuts : services.CutsRoutine npc) (n left d : Nat) (type : ObjectType)
    (referenced : List LanguageKey) (t : Text) :
    Prints npc (AllOrNone npc.routineFunctions) ((written services n).passSeen .scribe
      (writtenAnswer services n ((written services n).nestedSeen .scribe left) d) .npc
      ⟨.object npc, type, referenced⟩ t) := by
  have hR : StepRelation (Quiet (ω := ω) npc) := stepRelation_quiet
  have happlicable : (written services n).applicable .npc = [Topic.snippets, .dialog].map (·.resolver) ++
      .dailyRoutine :: [Topic.inventory, .skills, .fields].map (·.resolver) :=
    applicable_standard (services.onLeft.seen .scribe) n .npc
  have hothers : ∀ topics : List Topic, (∀ topic ∈ topics, topic.resolver.applies .npc = true ∧
      topic ≠ .dailyRoutine) → ∀ t, Leads (Quiet npc) ((topics.map (·.resolver)).foldlM (attemptSeen .scribe
        (writtenAnswer services n ((written services n).nestedSeen .scribe left) d) .npc
        ⟨.object npc, type, referenced⟩) t) := by
    intro topics htopics t
    refine (sequencedBy_leads hR).foldlM (fun t r hr => ?_) t
    obtain ⟨topic, hmem, rfl⟩ := List.mem_map.1 hr
    obtain ⟨happlies, htopic⟩ := htopics topic hmem
    exact quiet_attemptSeen (quiet_nestedSeen left) happlies htopic _ t
  unfold passSeen
  rw [happlicable]
  refine allOrNone_quiet_bind ((sequencedBy_leads hR).forM fun _ _ => hR.refl) fun _ => ?_
  rw [List.foldlM_append]
  refine allOrNone_quiet_bind (hothers _ (by decide) t) fun t => ?_
  rw [List.foldlM_cons]
  exact allOrNone_bind_quiet (allOrNone_dailyRoutine hcuts t) (hothers _ (by decide))

end Standard
end Engine

/-! ## 4. Names -/

/-- **What a render prints of a routine.** -/
structure RoutineNamed (npc : GameObject) (result : Except RenderError Engine.RenderOutput)
    (T : Transcript) : Prop where
  /-- what is printed for an event is the name that stands for its functions -/
  filled : ∀ e p inner, renderEvent npc e p inner = (do
    let s ← .request .settings
    if mentions "DailyRoutine_Event_ScriptFunction" (filledEvent e p inner s) then do
      let fs ← eventFunctions npc e
      pure (fill "DailyRoutine_Event_ScriptFunction" .inline (EventAnswer.mk e.id fs).name.toList
        (filledEvent e p inner s))
    else pure (filledEvent e p inner s))
  /-- and these are the functions of its own script -/
  answers : ∀ x ∈ T.eventAnswers, ∃ e ∈ npc.dailyRoutine, ∃ script, e.script = some script ∧
    x = ⟨e.id, scriptFunctions npc.name script⟩
  /-- the listing prints the functions of the routine in their order -/
  listed : T.printedFunctions <+: npc.routineFunctions
  /-- and if the render ends well all of them or, without a place for them, none -/
  complete : ∀ out, result = .ok out →
    T.printedFunctions = [] ∨ T.printedFunctions = npc.routineFunctions
  /-- where no two functions of the routine have the same name those printed have different names -/
  distinct : npc.routineNames.Nodup → (T.printedFunctions.map (·.2.name)).Nodup
  /-- and only there, if all are printed -/
  distinct_iff : T.printedFunctions = npc.routineFunctions →
    ((T.printedFunctions.map (·.2.name)).Nodup ↔ npc.routineNames.Nodup)
  /-- an event's name is that of the primary function of its own script, which is one of the routine -/
  own : ∀ x ∈ T.eventAnswers, ∃ f, x.functions.head? = some f ∧ x.name = f.name ∧
    (x.id, f) ∈ npc.routineFunctions
  /-- and where names differ it is that of no other function of the routine -/
  unambiguous : npc.routineNames.Nodup → ∀ x ∈ T.eventAnswers, ∃ f, x.functions.head? = some f ∧
    npc.routineFunctions.filter (·.2.name = x.name) = [(x.id, f)]

section Names

variable {npc : GameObject} {T : Transcript}

theorem mem_routineFunctions {e : ScheduleEvent} (he : e ∈ npc.dailyRoutine) {script : Script}
    (hs : e.script = some script) {f : ScriptFunction} (hf : f ∈ scriptFunctions npc.name script) :
    (e.id, f) ∈ npc.routineFunctions := by
  refine List.mem_flatMap.2 ⟨e, he, List.mem_map.2 ⟨f, ?_, rfl⟩⟩
  unfold ScheduleEvent.functions
  rw [hs]
  exact hf

/-- Of a list in which they differ a key picks one element. -/
theorem filter_eq_singleton {κ : Type} [DecidableEq κ] {key : α → κ} {l : List α} (h : (l.map key).Nodup)
    {a : α} (ha : a ∈ l) : l.filter (fun b => key b = key a) = [a] := by
  induction l with
  | nil => exact absurd ha List.not_mem_nil
  | cons b l ih =>
    obtain ⟨hb, hl⟩ := List.nodup_cons.1 h
    rcases List.mem_cons.1 ha with rfl | ha
    · rw [List.filter_cons_of_pos (by simp), List.filter_eq_nil_iff.2 fun b' hb' => ?_]
      have hne : key b' ≠ key a := fun h => hb (h ▸ List.mem_map_of_mem hb')
      simpa using hne
    · have hne : key b ≠ key a := fun h => hb (h ▸ List.mem_map_of_mem ha)
      rw [List.filter_cons_of_neg (by simpa using hne), ih hl ha]

theorem routineNamed_of_told {result : Except RenderError Engine.RenderOutput}
    (hanswers : ∀ x ∈ T.eventAnswers, ∃ e ∈ npc.dailyRoutine, ∃ script, e.script = some script ∧
      x = ⟨e.id, scriptFunctions npc.name script⟩)
    (hlisted : AllOrNone npc.routineFunctions result T.printedFunctions) : RoutineNamed npc result T := by
  have hown : ∀ x ∈ T.eventAnswers, ∃ f, x.functions.head? = some f ∧ x.name = f.name ∧
      (x.id, f) ∈ npc.routineFunctions := by
    intro x hx
    obtain ⟨e, he, script, hs, rfl⟩ := hanswers x hx
    -- the primary function comes first
    exact ⟨_, rfl, rfl, mem_routineFunctions he hs List.mem_cons_self⟩
  have hbegins : T.printedFunctions <+: npc.routineFunctions := by
    cases result with
    | ok out =>
      rcases hlisted with h | h
      · exact h ▸ List.nil_prefix
      · exact h ▸ List.prefix_rfl
    | error err => exact hlisted
  constructor
  case filled => exact renderEvent_eq npc
  case answers => exact hanswers
  case listed => exact hbegins
  case complete =>
    rintro out rfl
    exact hlisted
  case distinct =>
    intro hnames
    exact ((nodup_routineFunctions_iff npc).2 hnames).sublist (hbegins.sublist.map _)
  case distinct_iff =>
    intro hall
    rw [hall]
    exact nodup_routineFunctions_iff npc
  case own => exact hown
  case unambiguous =>
    intro hnames x hx
    obtain ⟨f, hhead, hname, hmem⟩ := hown x hx
    refine ⟨f, hhead, ?_⟩
    rw [hname]
    exact filter_eq_singleton ((nodup_routineFunctions_iff npc).2 hnames) hmem

/-- **The names of a routine.** Where events are told apart by their ids and functions are those that marks in
    the scripts begin, a render of a character prints for each event the name of the primary function of its
    own script, and lists the functions of all scripts. So the names are right exactly if no two functions of
    the routine have the same name: each is that of one printed function. -/
theorem Engine.routineNamed_render (services : Services ω)
    (hgen : ∀ owner script w, (services.functions owner script w).result =
      .ok (scriptFunctions owner script))
    (maxDepth : Nat) (npc : GameObject) (hids : (npc.dailyRoutine.map (·.id)).Nodup) (type : ObjectType)
    (referenced : List LanguageKey) (text : Text) (w : ω) (cancelled : Bool) :
    let e := Engine.standard services maxDepth
    let plain := e.render .npc ⟨.object npc, type, referenced⟩ text w cancelled
    let seen := e.transcribed .npc ⟨.object npc, type, referenced⟩ text w cancelled
    (seen.1, seen.2.1) = plain ∧ RoutineNamed npc seen.1 seen.2.2 := by
  intro e plain seen
  refine ⟨(e.level_le_limit .npc _ text w cancelled).1, ?_⟩
  have hstart : (Session.start (w, ([] : Transcript)) cancelled).shared.Told npc := by
    refine ⟨fun e _ script _ fs hfs => ?_, fun x hx => absurd hx List.not_mem_nil⟩
    cases hfs
  obtain ⟨htold, L, hL, hend⟩ := prints_pass ⟨hids, hgen⟩ maxDepth maxDepth 0 type referenced text
    _ hstart
  refine routineNamed_of_told htold.answers ?_
  have hprinted : seen.2.2.printedFunctions = L := hL
  rw [hprinted]
  exact hend.map _

end Names

/-- A guard that opens and closes a gate. -/
def gatekeeper : GameObject :=
  ⟨"gatekeeper", "Guard", .npc, [], [], [], [
    ⟨"dawn", ⟨6, 0⟩, ⟨7, 0⟩, none, some ⟨"Open", "unlock()\n@function bolt\nslide()"⟩, true⟩,
    ⟨"dusk", ⟨20, 0⟩, ⟨21, 0⟩, none, some ⟨"Close", "lock()"⟩, true⟩], []⟩

theorem tellsScriptsApart_gatekeeper : gatekeeper.TellsScriptsApart where
  marks := by
    have h : ∀ e ∈ gatekeeper.dailyRoutine, ∀ s ∈ e.script, s.markIdentifiers.Nodup := by decide +kernel
    exact fun e he s hs => h e he s (Option.mem_def.2 hs)
  scripts := by
    have h : gatekeeper.dailyRoutine.Pairwise fun e e' => ∀ s ∈ e.script, ∀ s' ∈ e'.script,
        ¬ (identifierOf s.name).toList <+: (identifierOf s'.name).toList ∧
          ¬ (identifierOf s'.name).toList <+: (identifierOf s.name).toList := by decide +kernel
    exact h.imp fun h s s' hs hs' => h s (Option.mem_def.2 hs) s' (Option.mem_def.2 hs')

/-- A place for the guard's functions, and before it one for each event. -/
def gateTemplate : Text :=
  braced "DailyRoutine_Events_Start".toList ++ braced "DailyRoutine_Event_ScriptFunction".toList ++
    braced "DailyRoutine_Events_End".toList ++ braced "DailyRoutine_Functions".toList

theorem Engine.routineNamed_gatekeeper :
    let services := Services.inMemory ⟨[gatekeeper], []⟩ .builtIn .standard
    let T := ((Engine.standard services 16).transcribed .npc (.ofObject gatekeeper) gateTemplate .empty
      false).2.2
    (∀ owner script w, (services.functions owner script w).result = .ok (scriptFunctions owner script)) ∧
      (gatekeeper.dailyRoutine.map (·.id)).Nodup ∧ T.printedFunctions = gatekeeper.routineFunctions ∧
      (T.printedFunctions.map (·.2.name)).Nodup ∧
      T.eventAnswers.map (·.name) = ["Guard_Open", "Guard_Close", "Guard_Open", "Guard_Close"] ∧
      ∀ x ∈ T.eventAnswers, ∃ f, x.functions.head? = some f ∧
        T.printedFunctions.filter (·.2.name = x.name) = [(x.id, f)] := by
  intro services T
  have hrun : ∀ e : Engine KeyTable, e = ⟨Topic.all.map (·.resolver), services, 16⟩ →
      let T := (e.transcribed .npc (.ofObject gatekeeper) gateTemplate .empty false).2.2
      T.printedFunctions = gatekeeper.routineFunctions ∧
        T.eventAnswers.map (·.name) = ["Guard_Open", "Guard_Close", "Guard_Open", "Guard_Close"] := by
    rintro _ rfl
    decide +kernel
  -- the order of registrations does not compute
  obtain ⟨hall, hasked⟩ := hrun (Engine.standard services 16)
    (congrArg (Engine.mk · services 16) (resolvers_standard services 16))
  have hnames := nodup_routineNames tellsScriptsApart_gatekeeper
  have h := routineNamed_render services (fun _ _ _ => rfl) 16 gatekeeper (by decide) gatekeeper.type []
    gateTemplate .empty false
  exact ⟨fun _ _ _ => rfl, by decide, hall, h.2.distinct hnames, hasked, hall ▸ h.2.unambiguous hnames⟩

-- two events with scripts of the same name
example :
    let event (id code : String) : ScheduleEvent :=
      ⟨id, ⟨6, 0⟩, ⟨7, 0⟩, none, some ⟨"Walk", code⟩, true⟩
    let npc : GameObject :=
      ⟨"g", "Goblin", .npc, [], [], [], [event "e1" "a()", event "e2" "b()"], []⟩
    npc.routineFunctions.map (·.2.name) = ["Goblin_Walk", "Goblin_Walk"] := by decide +kernel

end RecordExport

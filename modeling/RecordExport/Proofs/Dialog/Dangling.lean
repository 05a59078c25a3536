import RecordExport.Proofs.Dialog.Flow
import RecordExport.Proofs.Render.Ahead
import RecordExport.Proofs.Render.Foreign
/-!
# Links that lead to no node

A link names the id of a node, which need not exist. What happens to a link that leads nowhere happens in three
places: the walk through the dialog passes it by, the step of its node goes on without it, and it is reported
when the functions of the dialog are derived, which several placeholders ask for.

* `Dialog.strayLinks`: these links, in the order of the document (`dangling_eq_strayLinks`);
* `passesStraysBy_planDialog`: an option with such a link leads to no function, and a flow ends there;
* `Engine.memo_ahead`: no functions of a dialog are kept before the resolver of dialogs has its turn, so it
  derives them;
* `Engine.reportsLinks_standard`: **each of these links is reported once in a render**, before any step of the
  dialog is rendered.
-/

namespace RecordExport

variable {ω α : Type}

open SessionM

/-! ## 1. Links -/

namespace Dialog

/-- The ids of the nodes. -/
def ids (d : Dialog) : List String := d.nodes.map (·.id)

/-- **The links that lead to no node**: node by node, whether or not anything leads there, and option by
    option. -/
def strayLinks (d : Dialog) : List (String × String) :=
  d.nodes.flatMap fun n => (n.successors.filter fun id => id ∉ d.ids).map (n.id, ·)

theorem isNone_target? (d : Dialog) (id : String) : (d.target? id).isNone = decide (id ∉ d.ids) := by
  rw [Bool.eq_iff_iff, decide_eq_true_eq, Option.isNone_iff_eq_none]
  unfold target? ids
  rw [List.find?_eq_none]
  simp

theorem dangling_eq_strayLinks (d : Dialog) : d.dangling = d.strayLinks := by
  unfold dangling links strayLinks
  rw [List.filter_flatMap, List.map_flatMap]
  refine List.flatMap_congr fun n _ => ?_
  rw [List.filter_map, List.map_map]
  simp only [Function.comp_def, isNone_target?]

end Dialog

/-! ## 2. Steps -/

/-- **What functions make of links that lead to no node**: the option leads to no function, and the flow ends
    with the step of the node. -/
structure Dialog.PassesStraysBy (d : Dialog) (fs : List PlannedFunction) : Prop where
  options : ∀ f ∈ fs, ∀ s ∈ f.steps, ∀ options, s.step.node.content = .choice options →
    ∀ (i : Nat) (o : ChoiceOption) (id : String), options[i]? = some o → o.next = some id → id ∉ d.ids →
      s.step.optionFunctions[i]? = some none
  flows : ∀ f ∈ fs, ∀ before s after id, f.steps = before ++ s :: after →
    s.step.node.content.next? = some id → id ∉ d.ids → s.isOwn = true ∧ after = []

section Steps

variable {npc : GameObject} {d : Dialog} {n : DialogNode} {steps : List PlannedStep} {id : String}

/-- No function starts where there is no node. -/
theorem functionAt_eq_none (h : d.DistinctIds) (hid : id ∉ d.ids) :
    functionAt (functionStarts npc d) id = none := by
  refine Option.eq_none_iff_forall_ne_some.2 fun f hf => hid ?_
  obtain ⟨n, hn, rfl⟩ := exists_startNode_of_functionAt h hf
  exact List.mem_map_of_mem (d.reachable_of_mem_startNodes h hn).mem

namespace Flow

theorem eq_nil_of_stray (h : d.DistinctIds) (hf : Flow npc d n steps) {before after : List PlannedStep}
    {s : PlannedStep} (hs : steps = before ++ s :: after) (hnext : s.step.node.content.next? = some id)
    (hid : id ∉ d.ids) : s.isOwn = true ∧ after = [] := by
  -- where a link leads to a node the flow does not end for want of one
  have hgoes : ∀ {n m : DialogNode}, n.content.next? = some m.id → m ∈ d.nodes →
      n.content.next? ≠ some id := by
    intro n m hl hm hid'
    obtain rfl := Option.some.inj (hl.symm.trans hid')
    exact hid (List.mem_map_of_mem hm)
  induction hf generalizing before with
  | ends _ =>
    cases before with
    | nil =>
      obtain ⟨rfl, rfl⟩ := List.cons.inj hs
      exact ⟨isOwn_ownStep _ _, rfl⟩
    | cons _ before => exact absurd (List.cons.inj hs).2 (by simp)
  | calls hl hm _ =>
    have hmem := (d.reachable_of_mem_startNodes h hm).mem
    cases before with
    | nil =>
      obtain ⟨rfl, -⟩ := List.cons.inj hs
      exact absurd hnext (hgoes hl hmem)
    | cons _ before =>
      obtain ⟨-, hs⟩ := List.cons.inj hs
      cases before with
      | nil =>
        obtain ⟨rfl, -⟩ := List.cons.inj hs
        exact absurd hnext (hgoes hl hmem)
      | cons _ before => exact absurd (List.cons.inj hs).2 (by simp)
  | goesOn hl hm _ _ ih =>
    cases before with
    | nil =>
      obtain ⟨rfl, -⟩ := List.cons.inj hs
      exact absurd hnext (hgoes hl hm)
    | cons _ before => exact ih (List.cons.inj hs).2

/-- The step of a choice knows the functions of its options. -/
theorem optionFunctions_eq (hf : Flow npc d n steps) {s : PlannedStep} (hs : s ∈ steps)
    {options : List ChoiceOption} (hc : s.step.node.content = .choice options) :
    s.step.optionFunctions = options.map fun o => o.next.bind (functionAt (functionStarts npc d)) := by
  have hown : ∀ {n : DialogNode}, n.content = .choice options →
      n.content.optionFunctions (functionStarts npc d) =
        options.map fun o => o.next.bind (functionAt (functionStarts npc d)) := by
    intro n hn
    rw [hn]
    rfl
  induction hf with
  | ends _ =>
    obtain rfl := List.mem_singleton.1 hs
    exact hown hc
  | calls hl _ _ =>
    rcases List.mem_cons.1 hs with rfl | hs
    · exact hown hc
    · obtain rfl := List.mem_singleton.1 hs
      -- a choice goes on with no link of its own
      have hnone : (NodeContent.choice options).next? = _ := hc ▸ hl
      cases hnone
  | goesOn _ _ _ _ ih =>
    rcases List.mem_cons.1 hs with rfl | hs
    · exact hown hc
    · exact ih hs

end Flow

/-- **Functions pass stray links by.** -/
theorem passesStraysBy_planDialog (npc : GameObject) (h : d.DistinctIds) :
    d.PassesStraysBy (planDialog npc d) := by
  have hflow : ∀ f ∈ planDialog npc d, ∃ n, Flow npc d n f.steps := by
    intro f hf
    obtain ⟨n, hn, hsteps⟩ := exists_startNode_of_mem_planDialog hf
    exact ⟨n, hsteps ▸ flow_functionSteps npc h hn⟩
  constructor
  case options =>
    intro f hf s hs options hc i o id ho hnext hid
    obtain ⟨n, hn⟩ := hflow f hf
    rw [hn.optionFunctions_eq hs hc, List.getElem?_map, ho, Option.map_some, hnext, Option.bind_some,
      functionAt_eq_none h hid]
  case flows =>
    intro f hf before s after id hsteps hnext hid
    obtain ⟨n, hn⟩ := hflow f hf
    exact hn.eq_nil_of_stray h hsteps hnext hid

end Steps

/-! ## 3. What is kept -/

/-- A step that keeps no functions of a dialog. -/
def KeepsNoDialog (s s' : Session ω) : Prop := ∀ id, s'.memo.get? .dialog id = s.memo.get? .dialog id

theorem stepRelation_keepsNoDialog : StepRelation (KeepsNoDialog (ω := ω)) :=
  .shared (Q := fun a b => ∀ id, b.memo.get? .dialog id = a.memo.get? .dialog id) (fun _ _ => rfl)
    fun h₁ h₂ id => (h₂ id).trans (h₁ id)

theorem keepsNoDialog_record (kind : DiagnosticKind) (detail : String) :
    Leads KeepsNoDialog (record kind detail : SessionM ω Unit) := fun _ _ => rfl

theorem lead_keepsNoDialog (services : Services ω) : services.Lead KeepsNoDialog where
  object _ := leads_call stepRelation_keepsNoDialog fun _ _ => rfl
  dialog _ := leads_call stepRelation_keepsNoDialog fun _ _ => rfl
  languageKey _ := leads_call stepRelation_keepsNoDialog fun _ _ => rfl
  template _ _ := leads_call stepRelation_keepsNoDialog fun _ _ => rfl
  report _ := keepsNoDialog_record _ _

theorem keepsNoDialog_functions (services : Services ω) {scope : MemoScope} (hscope : scope ≠ .dialog)
    (id owner : String) (script : Script) :
    Leads KeepsNoDialog (functionsOnce scope id (services.functions owner script)) := by
  refine leads_functionsOnce stepRelation_keepsNoDialog
    (leads_call stepRelation_keepsNoDialog fun _ _ => rfl) (fun _ => keepsNoDialog_record _ _)
    fun s fs _ _ id' => ?_
  have hne : (MemoScope.dialog, id') ≠ (scope, id) := fun h => hscope (Prod.mk.inj h).1.symm
  show (s.memo.insert scope id fs).get? .dialog id' = _
  rw [FunctionMemo.get?_insert, if_neg hne]

namespace Engine

/-- **No functions of a dialog are kept before the resolver of dialogs has its turn.** -/
theorem memo_ahead (services : Services ω) (n : Nat) (kind : ArtifactKind) (c : RenderContext) (t : Text)
    (w : ω) (cancelled : Bool) (id : String) :
    ((Engine.standard services n).ahead kind c t .dialog w cancelled).2.memo.get? .dialog id = none := by
  have hR := stepRelation_keepsNoDialog (ω := ω)
  have hservices := lead_keepsNoDialog services
  have hrecord : ∀ kind detail, SaysMissing kind detail →
      Leads KeepsNoDialog (record kind detail : SessionM ω Unit) := fun _ _ _ => keepsNoDialog_record _ _
  have hinside := leadsInside_nested hR hservices hrecord (fun _ hscope => keepsNoDialog_functions services hscope) n n
  refine (sequencedBy_leads hR).foldlM (fun t r hr => ?_) t
    ((Engine.standard services n).reported t (.start w cancelled)) id
  obtain ⟨τ, hτ, rfl⟩ := List.mem_map.1 hr
  obtain ⟨hτ, happlies⟩ := List.mem_filter.1 hτ
  have hne : τ ≠ .dialog := fun h => Nat.lt_irrefl _ (h ▸ Topic.order_lt_of_mem_ahead hτ)
  exact leads_attempt_inside hR hservices hrecord (fun _ hscope => keepsNoDialog_functions services hscope) hinside
    happlies fun h => absurd h hne

end Engine

/-! ## 4. The turn of the resolver -/

/-- The report of a link that leads to no node, under some labels. -/
def linkReport (labels : List String) (l : String × String) : Diagnostic :=
  ⟨labels, .missingReference, danglingDetail l.1 l.2⟩

/-- The log with the links reported under some labels. -/
def DiagnosticLog.withLinks (labels : List String) (d : Dialog) (l : DiagnosticLog) : DiagnosticLog :=
  { l with entries := l.entries ++ d.strayLinks.map (linkReport labels) }

/-- What the gates that ask for a dialog leave of a text. -/
def Dialog.gated (d : Dialog) (t : Text) : Text :=
  gate "Tale_HasNoDialog" d.nodes.isEmpty (gate "Tale_HasDialog" (!d.nodes.isEmpty) t)

/-- A text asks for functions of the dialog. -/
def asksForFunctions (t : Text) : Bool :=
  mentions "Tale_Initial_Function" t || mentions "Tale_Additional_Functions" t

/-- Something missing that is no link: a field, a snippet or a record, and under these labels and no more it is
    a template. -/
def Services.MissesNoLink (services : Services ω) (under labels : List String) (kind : DiagnosticKind)
    (detail : String) : Prop :=
  SaysMissing kind detail ∧ (labels = under → kind = .missingReference → services.LacksTemplate detail)

namespace Engine

section Inside

variable (services : Services ω) (n : Nat)

/-- The log of the session afterwards has got no reports of links. -/
abbrev NoLinks (s s' : Session ω) : Prop := s.log.Grew SaysMissing s'.log

theorem lead_noLinks : services.Lead NoLinks := services.lead_grew fun e => saysMissing_error (.service e)

theorem noLinks_functions (scope : MemoScope) (id owner : String) (script : Script) :
    Leads NoLinks (functionsOnce scope id (services.functions owner script)) :=
  leads_functions services (fun e => saysMissing_error (.service e)) scope id owner script

/-- **Renders in a render report no links**: only that of a character has a dialog. -/
theorem noLinks_nested (left : Nat) : LeadsInside NoLinks ((Engine.standard services n).nested left) :=
  leadsInside_nested stepRelation_grew (lead_noLinks services) (fun _ _ h => leads_record h)
    (fun scope _ => noLinks_functions services scope) n left

/-- Nor do the other resolvers of a character, one after the other. -/
theorem noLinks_attempts {kind : ArtifactKind} {c : RenderContext} {τs : List Topic}
    (hτs : ∀ τ ∈ τs, τ.resolver.applies kind = true ∧ τ ≠ .dialog) (t : Text) :
    let e := Engine.standard services n
    Leads NoLinks ((τs.map (·.resolver)).foldlM (attempt (e.answer (e.nested n) 0) kind c) t) := by
  intro e
  refine (sequencedBy_leads stepRelation_grew).foldlM (fun t r hr => ?_) t
  obtain ⟨τ, hτ, rfl⟩ := List.mem_map.1 hr
  obtain ⟨happlies, hdialog⟩ := hτs τ hτ
  exact leads_attempt_inside stepRelation_grew (lead_noLinks services) (fun _ _ h => leads_record h)
    (fun scope _ => noLinks_functions services scope) (noLinks_nested services n n) happlies
    fun h => absurd h hdialog

end Inside

section Turn

variable (services : Services ω) (n left depth : Nat)

/-- An answer of the engine. -/
abbrev dialogAnswer (o : RenderOp) : SessionM ω o.Answer :=
  (Engine.standard services n).answer ((Engine.standard services n).nested left) depth o

/-- An artefact of a dialog reports of its own no more than its template. -/
theorem adds_dialogArtifact {kind : ArtifactKind} (hkind : kind.height < 2) (c : RenderContext) (label : String) :
    Adds (services.MissesNoLink []) (run (dialogAnswer services n left depth) (.artifact kind c label)) := by
  show Adds _ (run _ (.request (.artifact kind c label)))
  rw [run_request]
  refine Adds.and ?_ ?_
  · exact (Engine.standard services n).adds_artifact left (fun _ _ _ h => by cases h) (fun _ _ h _ => h) c
  · exact leads_artifact_inside stepRelation_grew (lead_noLinks services) (fun _ _ h => leads_record h)
      (noLinks_nested services n left) hkind label

/-- **The functions of a dialog are derived behind the reports of its links**, if they are not kept yet. -/
theorem added_dialogFunctions (npc : GameObject) (d : Dialog) {s : Session ω}
    (hm : s.memo.get? .dialog d.id = none) :
    (s.log.withLinks s.log.breadcrumb d).Added (services.MissesNoLink [])
      (run (dialogAnswer services n left depth) (dialogFunctions npc d) s).2.log := by
  have hplanned : Adds (services.MissesNoLink [])
      (run (dialogAnswer services n left depth) ((planDialog npc d).mapM renderPlanned)) :=
    sequencedBy_run_adds.planned (fun _ c label hstep => adds_dialogArtifact services n left depth
      (ArtifactKind.height_of_isDialogStep hstep) c label) npc d
  have hkeep : ∀ fs, Adds (services.MissesNoLink []) (do
      let _ ← dialogAnswer services n left depth (.keep .dialog d.id fs)
      pure fs) := fun fs s => .refl s.log
  have hlinks : d.dangling.map (fun l => Diagnostic.mk s.log.breadcrumb .missingReference
      (danglingDetail l.1 l.2)) = d.strayLinks.map (linkReport s.log.breadcrumb) := by
    rw [d.dangling_eq_strayLinks]
    rfl
  have hrecall : dialogAnswer services n left depth (.recall .dialog d.id) s = (.ok none, s) :=
    congrArg (fun known => (Except.ok known, s)) hm
  unfold dialogFunctions
  rw [run_derivedOnce, bind_apply, hrecall]
  dsimp only
  rw [run_bind]
  refine added_bind (added_bind ?_ fun _ => hplanned) hkeep
  rw [(Engine.standard services n).run_forM_record, hlinks]
  exact .refl _

/-- **A character's dialog is resolved behind the reports of its links**, where the text asks for functions. -/
theorem added_resolveDialog (npc : GameObject) (d : Dialog) {t : Text} {s : Session ω}
    (hs : s.cancelled = false) (hd : (services.dialog npc.id s.world).result = .ok (some d))
    (hm : s.memo.get? .dialog d.id = none)
    (hasks : asksForFunctions (d.gated t) = true) :
    (s.log.withLinks s.log.breadcrumb d).Added (services.MissesNoLink [])
      (run (dialogAnswer services n left depth) (resolveDialog npc t) s).2.log := by
  let asked : Session ω := ⟨(services.dialog npc.id s.world).world, s.log, s.memo,
    s.cancelled || (services.dialog npc.id s.world).cancels⟩
  have hfound : dialogAnswer services n left depth (.dialog npc.id) s = (.ok (some d), asked) := by
    show (callOrReport (services.dialog npc.id) >>= fun found => pure found.join) s = _
    rw [bind_apply, callOrReport_of_ok hs hd]
    rfl
  unfold resolveDialog
  show DiagnosticLog.Added _ _ (run (dialogAnswer services n left depth)
    (.request (.dialog npc.id) >>= _) s).2.log
  rw [run_bind, run_request, bind_apply, hfound]
  dsimp only
  cases hnodes : d.nodes.isEmpty with
  | true =>
    -- nothing links anywhere
    have hlinks : s.log.withLinks s.log.breadcrumb d = s.log := by
      unfold DiagnosticLog.withLinks Dialog.strayLinks
      rw [List.isEmpty_iff.1 hnodes]
      simp
    have hnone : (some d).filter (fun d => !d.nodes.isEmpty) = none := by
      rw [Option.filter_some, hnodes]
      rfl
    rw [hlinks, hnone]
    exact .refl s.log
  | false =>
    have hsome : (some d).filter (fun d => !d.nodes.isEmpty) = some d := by
      rw [Option.filter_some, hnodes]
      rfl
    unfold Dialog.gated asksForFunctions at hasks
    rw [hnodes] at hasks
    rw [hsome]
    dsimp only
    rw [if_pos (by exact hasks), run_bind]
    refine added_bind (added_dialogFunctions services n left depth npc d (s := asked) hm) fun fs => ?_
    have hdialog : SequencedBy fun α p => Adds (services.MissesNoLink [])
        (run (α := α) (dialogAnswer services n left depth) p) := sequencedBy_run_adds
    have hfunction : ∀ c label, Adds (services.MissesNoLink [])
        (run (dialogAnswer services n left depth) (.artifact .dialogFunction c label)) :=
      adds_dialogArtifact services n left depth (by decide)
    exact hdialog.sequence (hdialog.fillFunctions hfunction _ _ _) fun t => hdialog.fillFunctions hfunction _ _ t

end Turn

/-! ## 5. Renders -/

/-- The resolver of dialogs among those of a character. -/
theorem applicable_npc_dialog (services : Services ω) (n : Nat) :
    (Engine.standard services n).applicable .npc = Topic.dialog.resolversAhead .npc ++ Topic.dialog.resolver ::
      [Topic.dailyRoutine, .inventory, .skills, .fields].map (·.resolver) :=
  Engine.applicable_standard services n .npc

/-- A text that asks for functions calls for the resolver of dialogs. -/
theorem mentions_of_asksForFunctions {d : Dialog} {t : Text} (h : asksForFunctions (d.gated t) = true) :
    mentions "Tale_" t = true := by
  by_contra hnot
  have havoids : t.Avoids "Tale_".toList := avoids_iff.2 (Bool.eq_false_iff.2 hnot)
  have hgated : d.gated t = t := by
    unfold Dialog.gated
    rw [gate_of_avoids havoids (by decide), gate_of_avoids havoids (by decide)]
  have hnone : ∀ beginning : String, "Tale_".toList <+: beginning.toList → mentions beginning t = false :=
    fun beginning hbeginning => avoids_iff.1 fun b hb hbegins => havoids b hb (hbeginning.trans hbegins)
  unfold asksForFunctions at h
  rw [hgated, hnone _ (by decide), hnone _ (by decide)] at h
  cases h

/-- **What a render says of links that lead to no node**, where this was said before the resolver of dialogs had
    its turn. -/
structure LinksReported (services : Services ω) (d : Dialog) (before ds : List Diagnostic) : Prop where
  /-- nothing of the dialog was rendered before -/
  earlier : ∀ x ∈ before, x.breadcrumb.head? ≠ some "Dialog"
  /-- the reports come next, in the order of the document -/
  inOrder : ∃ after, ds = before ++ d.strayLinks.map (linkReport ["Dialog"]) ++ after
  /-- and there are no others, under whatever labels: what else is missing is a field, a snippet or a record, and
      right under the label it is a template -/
  once : ∀ x : Diagnostic, x.kind = .missingReference →
    ¬ MissingDetail x.detail ∨ x.breadcrumb = ["Dialog"] ∧ ¬ services.LacksTemplate x.detail →
    ds.count x = (d.strayLinks.map (linkReport ["Dialog"])).count x

/-- How a render ends that reports these links. -/
inductive RendersLinks (services : Services ω) (d : Dialog) (before : List Diagnostic) :
    Except RenderError RenderOutput → Prop
  | rendered (out : RenderOutput) (links : LinksReported services d before out.diagnostics) :
      RendersLinks services d before (.ok out)
  | cancelled : RendersLinks services d before (.error .cancelled)

section Render

variable {services : Services ω} {npc : GameObject} {c : RenderContext} (hc : c.subject = .object npc) {d : Dialog}

/-- Entries that stand elsewhere, or are of templates, are no reports of links. -/
theorem linksReported_of_added {before : List Diagnostic} {l : DiagnosticLog}
    (hbefore : DiagnosticLog.Added
      (fun labels kind detail => SaysMissing kind detail ∧ labels.head? ≠ some "Dialog") .empty ⟨before, []⟩)
    (hafter : (DiagnosticLog.withLinks ["Dialog"] d ⟨before, []⟩).Added (services.MissesNoLink ["Dialog"]) l) :
    LinksReported services d before l.entries := by
  obtain ⟨added, hadded, hlabels⟩ := hbefore.entries
  obtain rfl : before = added := hadded
  have hearlier : ∀ x ∈ before, SaysMissing x.kind x.detail ∧ x.breadcrumb.head? ≠ some "Dialog" := by
    intro x hx
    obtain ⟨labels, heq, hmissing, hne⟩ := hlabels x hx
    have heq : x.breadcrumb = labels := heq
    exact ⟨hmissing, heq ▸ hne⟩
  obtain ⟨after, hentries, hafter⟩ := hafter.entries
  have hentries : l.entries = before ++ d.strayLinks.map (linkReport ["Dialog"]) ++ after := hentries
  refine ⟨fun x hx => (hearlier x hx).2, ⟨after, hentries⟩, fun x hkind hlink => ?_⟩
  have hno : x ∉ before := by
    intro hmem
    obtain ⟨hmissing, hne⟩ := hearlier x hmem
    rcases hlink with hother | ⟨hx, -⟩
    · exact hother (hmissing hkind)
    · exact hne (by rw [hx]; rfl)
  have hno' : x ∉ after := by
    intro hmem
    obtain ⟨labels, heq, hmissing, htemplate⟩ := hafter x hmem
    have heq : x.breadcrumb = labels := heq
    rcases hlink with hother | ⟨hx, hlacks⟩
    · exact hother (hmissing hkind)
    · exact hlacks (htemplate (heq.symm.trans hx) hkind)
  rw [hentries, List.count_append, List.count_append, List.count_eq_zero.2 hno, List.count_eq_zero.2 hno',
    Nat.zero_add, Nat.add_zero]

include hc

/-- **The turn of the resolver of dialogs and those behind it.** -/
theorem added_turn (n : Nat) {given : Text} (hasks : asksForFunctions (d.gated given) = true) {s : Session ω}
    (hs : s.cancelled = false) (hlabels : s.log.breadcrumb = [])
    (hm : s.memo.get? .dialog d.id = none)
    (hd : (services.dialog npc.id s.world).result = .ok (some d)) :
    let e := Engine.standard services n
    let answer := e.answer (e.nested e.maxDepth) 0
    (s.log.withLinks ["Dialog"] d).Added (services.MissesNoLink ["Dialog"])
      ((Topic.dialog.resolver :: [Topic.dailyRoutine, .inventory, .skills, .fields].map (·.resolver)).foldlM
        (attempt answer .npc c) given s).2.log := by
  intro e answer
  rw [List.foldlM_cons]
  refine added_bind (added_attempt hs ?_ fun err => ⟨saysMissing_failure _ err, fun h => by cases h⟩) fun t => ?_
  · let entered : Session ω := { s with log := (s.log.enter "Dialog").2 }
    have hunder : entered.log.breadcrumb = ["Dialog"] := congrArg (· ++ ["Dialog"]) hlabels
    have hinner := added_resolveDialog services n n 0 npc d (t := given) (s := entered) hs hd hm hasks
    rw [hunder] at hinner
    show DiagnosticLog.Added _ _ (run answer (Resolver.dialog.resolve .npc c given) s).2.log
    rw [resolve_dialog hc, if_pos (mentions_of_asksForFunctions hasks), run_within]
    exact DiagnosticLog.Added.leave (l := s.log.withLinks ["Dialog"] d) hinner
      fun labels kind detail h => ⟨h.1, fun hunder => h.2 (List.cons.inj hunder).2⟩
  · refine ((e.adds_attempts_object e.maxDepth 0 rfl hc "Dialog" (by decide) t).and
      (noLinks_attempts services n (by decide) t)).mono fun labels kind detail h => ?_
    exact ⟨h.1, fun hunder => absurd (congrArg List.head? hunder) h.2⟩

/-- **Links of a dialog that lead to no node are reported once in a render.** -/
theorem reportsLinks_standard (services : Services ω) (maxDepth : Nat) (t : Text) (w : ω) (cancelled : Bool)
    (hids : d.DistinctIds) {given : Text}
    (hgiven : ((Engine.standard services maxDepth).ahead .npc c t .dialog w cancelled).1 = .ok given)
    (hd : (services.dialog npc.id
      ((Engine.standard services maxDepth).ahead .npc c t .dialog w cancelled).2.world).result = .ok (some d))
    (hasks : asksForFunctions (d.gated given) = true) :
    let e := Engine.standard services maxDepth
    let begun := (e.ahead .npc c t .dialog w cancelled).2
    RendersLinks services d begun.log.entries (e.render .npc c t w cancelled).1 ∧
      d.PassesStraysBy (planDialog npc d) := by
  intro e begun
  let answer := e.answer (e.nested e.maxDepth) 0
  let behind : List Resolver := [Topic.dailyRoutine, .inventory, .skills, .fields].map (·.resolver)
  refine ⟨?_, passesStraysBy_planDialog npc hids⟩
  have hahead : e.ahead .npc c t .dialog w cancelled = (.ok given, begun) := Prod.ext hgiven rfl
  rw [e.render_of_ahead .npc c t (applicable_npc_dialog services maxDepth) hahead]
  dsimp only
  have hlabels : begun.log.breadcrumb = [] := e.breadcrumb_ahead .npc c t .dialog w cancelled
  cases hgo : begun.cancelled with
  | true =>
    rw [List.foldlM_cons, bind_apply, attempt_apply, if_pos hgo]
    exact .cancelled
  | false =>
    have hbefore : DiagnosticLog.Added
        (fun labels kind detail => SaysMissing kind detail ∧ labels.head? ≠ some "Dialog") .empty begun.log :=
      (e.added_reported (fun _ => ⟨nofun, by simp⟩) t (.start w cancelled)).trans
        (((e.adds_attempts_object e.maxDepth 0 rfl hc "Dialog" (by decide) t).and
          (noLinks_attempts services maxDepth (by decide) t)) _)
    have hafter : (begun.log.withLinks ["Dialog"] d).Added (services.MissesNoLink ["Dialog"])
        ((Topic.dialog.resolver :: behind).foldlM (attempt answer .npc c) given begun).2.log :=
      added_turn hc maxDepth hasks hgo hlabels (memo_ahead services maxDepth .npc c t w cancelled d.id) hd
    have hlog : begun.log = ⟨begun.log.entries, []⟩ := by rw [← hlabels]
    rw [hlog] at hbefore
    generalize hout : (Topic.dialog.resolver :: behind).foldlM (attempt answer .npc c) given begun = out
      at hafter ⊢
    cases hx : out.1 with
    | ok text => exact .rendered ⟨text, _⟩ (linksReported_of_added hbefore (hlog ▸ hafter))
    | error err =>
      obtain ⟨us, hus⟩ := exists_pipeline answer .npc c (Topic.dialog.resolver :: behind) given begun
      rw [hout] at hus
      obtain rfl := hus.eq_cancelled hx
      exact .cancelled

end Render

/-- Both options lead to the same missing node, and so does a line that nothing leads to. -/
def detour : Dialog where
  id := "detour"
  objectId := "guide"
  nodes := [⟨"a", .npcText "Hi" (some "b")⟩,
    ⟨"b", .choice [⟨"1", "X", some "c"⟩, ⟨"2", "Y", some "c"⟩]⟩,
    ⟨"d", .npcText "Psst" (some "c")⟩]

/-- What is asked for twice. -/
def taleText : Text :=
  braced "Tale_Initial_Function_Name".toList ++ braced "Tale_Additional_Functions".toList

theorem reportsLinks_detour :
    let services := Services.inMemory ⟨[guide], [detour]⟩ .builtIn .standard
    let e := Engine.standard services 16
    let c : RenderContext := .ofObject guide
    let begun := (e.ahead .npc c taleText .dialog .empty false).2
    detour.DistinctIds ∧ (e.ahead .npc c taleText .dialog .empty false).1 = .ok taleText ∧
      (services.dialog guide.id begun.world).result = .ok (some detour) ∧
      asksForFunctions (detour.gated taleText) = true ∧
      (RendersLinks services detour begun.log.entries (e.render .npc c taleText .empty false).1 ∧
        detour.PassesStraysBy (planDialog guide detour)) := by
  intro services e c begun
  have hvalid : e.validate taleText = [] := by
    refine validate_eq_nil_iff.2 ?_
    rw [show e.families = _ from families_standard _ _]
    decide +kernel
  have hgiven : (e.ahead .npc c taleText .dialog .empty false).1 = .ok taleText := by
    unfold ahead reported
    rw [hvalid]
    decide +kernel
  have hdialog : (services.dialog guide.id begun.world).result = .ok (some detour) := by
    show Except.ok (Project.dialogOf? ⟨[guide], [detour]⟩ "guide") = _
    decide +kernel
  have hasks : asksForFunctions (detour.gated taleText) = true := by decide +kernel
  have hids : detour.DistinctIds := by
    unfold Dialog.DistinctIds
    decide
  have hc : c.subject = .object guide := rfl
  have h := reportsLinks_standard hc services 16 taleText .empty false hids hgiven hdialog hasks
  exact ⟨hids, hgiven, hdialog, hasks, h⟩

/-- Three links, each of which counts. -/
example : detour.strayLinks = [("b", "c"), ("b", "c"), ("d", "c")] := by decide

end Engine
end RecordExport

import RecordExport.Proofs.Conditions.Inert
import RecordExport.Proofs.Render.Depth
import RecordExport.Proofs.Render.Labels
/-!
# What a step adds to the log

Every render inside another has a label, and most resolvers work under one of their own. So the labels of an
entry tell where it comes from, and what a step may add is described by the labels that its entries have below
those that are active. Other than a relation that labels do no harm to (`StepRelation`), such a description
changes with every label that is entered.

* `DiagnosticLog.Added`, `SessionM.Adds`: what logs and steps add, and the rule for each way steps are put
  together;
* `Engine.adds_artifact`: what an artefact adds of its own is that there is no template for it, or no render;
* `Engine.adds_resolve_object`: **each resolver of an object adds entries under its own label** or none.
-/

namespace RecordExport

variable {ω α β : Type} {Q Q' : List String → DiagnosticKind → String → Prop}

/-! ## 1. Logs -/

/-- **The log with entries added.** Its labels are as they were, and each entry that was added is as it should
    be: by the labels it has below the active ones, its kind and what it says. -/
structure DiagnosticLog.Added (Q : List String → DiagnosticKind → String → Prop) (l l' : DiagnosticLog) :
    Prop where
  breadcrumb : l'.breadcrumb = l.breadcrumb
  entries : ∃ added, l'.entries = l.entries ++ added ∧
    ∀ x ∈ added, ∃ labels, x.breadcrumb = l.breadcrumb ++ labels ∧ Q labels x.kind x.detail

namespace DiagnosticLog

variable {l l₁ l₂ : DiagnosticLog}

theorem Added.refl (l : DiagnosticLog) : l.Added Q l :=
  ⟨rfl, [], (List.append_nil _).symm, fun _ hx => absurd hx List.not_mem_nil⟩

theorem Added.trans (h₁ : l.Added Q l₁) (h₂ : l₁.Added Q l₂) : l.Added Q l₂ := by
  obtain ⟨added₁, he₁, ha₁⟩ := h₁.entries
  obtain ⟨added₂, he₂, ha₂⟩ := h₂.entries
  refine ⟨h₂.breadcrumb.trans h₁.breadcrumb, added₁ ++ added₂, ?_, fun x hx => ?_⟩
  · rw [he₂, he₁, List.append_assoc]
  · rcases List.mem_append.1 hx with hx | hx
    · exact ha₁ x hx
    · exact h₁.breadcrumb ▸ ha₂ x hx

theorem Added.mono (h : l.Added Q l₁) (hQ : ∀ labels kind detail, Q labels kind detail → Q' labels kind detail) :
    l.Added Q' l₁ := by
  obtain ⟨added, he, ha⟩ := h.entries
  refine ⟨h.breadcrumb, added, he, fun x hx => ?_⟩
  obtain ⟨labels, hlabels, hx⟩ := ha x hx
  exact ⟨labels, hlabels, hQ _ _ _ hx⟩

theorem Grew.added (h : l.Grew (fun _ _ => True) l₁) (hQ : ∀ labels kind detail, Q labels kind detail) :
    l.Added Q l₁ := by
  obtain ⟨added, he, ha⟩ := h.entries
  refine ⟨h.breadcrumb, added, he, fun x hx => ?_⟩
  obtain ⟨labels, hlabels⟩ := (ha x hx).1
  exact ⟨labels, hlabels.symm, hQ _ _ _⟩

/-- What was added is all that by which the log grew. -/
theorem Added.and {P : DiagnosticKind → String → Prop} (h : l.Added Q l₁) (hgrew : l.Grew P l₁) :
    l.Added (fun labels kind detail => P kind detail ∧ Q labels kind detail) l₁ := by
  obtain ⟨added, he, ha⟩ := h.entries
  obtain ⟨grown, hg, hgrown⟩ := hgrew.entries
  obtain rfl : added = grown := List.append_cancel_left (he.symm.trans hg)
  refine ⟨h.breadcrumb, added, he, fun x hx => ?_⟩
  obtain ⟨labels, hlabels, hq⟩ := ha x hx
  exact ⟨labels, hlabels, (hgrown x hx).2, hq⟩

theorem added_record {kind : DiagnosticKind} {detail : String} (h : Q [] kind detail) (l : DiagnosticLog) :
    l.Added Q (l.record kind detail) := by
  refine ⟨rfl, [⟨l.breadcrumb, kind, detail⟩], rfl, fun x hx => ?_⟩
  obtain rfl := List.mem_singleton.1 hx
  exact ⟨[], (List.append_nil _).symm, h⟩

/-- What was added under a label has that label in front. -/
theorem Added.leave {label : String} (h : (l.enter label).2.Added Q l₁)
    (hQ : ∀ labels kind detail, Q labels kind detail → Q' (label :: labels) kind detail) :
    l.Added Q' (l₁.leave (l.enter label).1) := by
  obtain ⟨added, he, ha⟩ := h.entries
  have hbreadcrumb : l₁.breadcrumb = l.breadcrumb ++ [label] := h.breadcrumb
  refine ⟨?_, added, he, fun x hx => ?_⟩
  · exact breadcrumb_leave_enter label l l₁ [] (hbreadcrumb.trans (List.append_nil _).symm)
  · obtain ⟨labels, hlabels, hx⟩ := ha x hx
    refine ⟨label :: labels, ?_, hQ _ _ _ hx⟩
    rw [hlabels]
    exact List.append_assoc l.breadcrumb [label] labels

/-- So has what a nested render adds. -/
theorem added_mergeUnder {label : String} (hQ : ∀ labels kind detail, Q (label :: labels) kind detail)
    (nested l : DiagnosticLog) : l.Added Q (l.mergeUnder (some label) nested) := by
  refine ⟨breadcrumb_mergeUnder _ _ _, _, entries_mergeUnder (some label) l nested, fun x hx => ?_⟩
  obtain ⟨inner, -, rfl⟩ := List.mem_map.1 hx
  exact ⟨label :: inner.breadcrumb, List.append_assoc l.breadcrumb [label] inner.breadcrumb, hQ _ _ _⟩

end DiagnosticLog

/-! ## 2. Steps -/

namespace SessionM

/-- **What a step adds**, from whatever session and however it ends. -/
def Adds (Q : List String → DiagnosticKind → String → Prop) (x : SessionM ω α) : Prop :=
  ∀ s : Session ω, s.log.Added Q (x s).2.log

variable {x : SessionM ω α}

/-- What comes after a step adds to what the step did. -/
theorem added_bind {f : α → SessionM ω β} {l : DiagnosticLog} {s : Session ω} (hx : l.Added Q (x s).2.log)
    (hf : ∀ a, Adds Q (f a)) : l.Added Q ((x >>= f) s).2.log := by
  rw [bind_apply]
  cases (x s).1 with
  | ok a => exact hx.trans (hf a _)
  | error e => exact hx

theorem sequencedBy_adds : SequencedBy fun α (x : SessionM ω α) => Adds Q x where
  result _ s := .refl s.log
  sequence hx hf s := added_bind (hx s) hf

theorem adds_pure (a : α) : Adds Q (pure a : SessionM ω α) := fun s => .refl s.log

theorem adds_record {kind : DiagnosticKind} {detail : String} (h : Q [] kind detail) :
    Adds Q (record kind detail : SessionM ω Unit) := fun s => DiagnosticLog.added_record h s.log

theorem Adds.mono (hx : Adds Q x) (hQ : ∀ labels kind detail, Q labels kind detail → Q' labels kind detail) :
    Adds Q' x := fun s => (hx s).mono hQ

theorem Adds.and {P : DiagnosticKind → String → Prop} (hx : Adds Q x)
    (hgrew : Leads (fun s s' => s.log.Grew P s'.log) x) :
    Adds (fun labels kind detail => P kind detail ∧ Q labels kind detail) x := fun s => (hx s).and (hgrew s)

theorem Adds.within (hx : Adds Q x) {label : String}
    (hQ : ∀ labels kind detail, Q labels kind detail → Q' (label :: labels) kind detail) :
    Adds Q' (within label x) := fun s => (hx { s with log := (s.log.enter label).2 }).leave hQ

theorem adds_callOrReport {c : Call ω α} (h : ∀ w err, (c w).result = .error err →
    Q [] (RenderError.service err).diagnosticKind err.message) : Adds Q (callOrReport c) := by
  intro s
  cases hs : s.cancelled with
  | true =>
    rw [callOrReport_of_cancelled hs]
    exact .refl s.log
  | false =>
    cases hr : (c s.world).result with
    | ok a =>
      rw [callOrReport_of_ok hs hr]
      exact .refl s.log
    | error err =>
      rw [callOrReport_of_error hs hr]
      exact DiagnosticLog.added_record (h _ _ hr) s.log

end SessionM

open SessionM

/-! ## 3. Answers -/

/-- What is said where a default template is not found. -/
def Services.LacksTemplate (s : Services ω) (detail : String) : Prop :=
  ∃ kind w what id, (s.template s.projectId kind w).result = .error (.notFound what id) ∧
    detail = (ServiceError.notFound what id).message

namespace Engine

variable (e : Engine ω) (left depth : Nat)

/-- What a nested render adds has its label in front. -/
theorem adds_nested {label : String} (hQ : ∀ labels kind detail, Q (label :: labels) kind detail)
    (kind : ArtifactKind) (t : Text) (c : RenderContext) :
    Adds Q (e.nested left ⟨kind, t, c, some label⟩) := by
  intro s
  cases left with
  | zero =>
    rw [nested_limit]
    split <;> exact .refl s.log
  | succ left =>
    rw [nested_apply]
    split
    · exact .refl s.log
    · exact DiagnosticLog.added_mergeUnder hQ _ s.log

/-- A missing reference that an artefact adds of its own is its template. -/
theorem adds_artifact {kind : ArtifactKind} {label : String}
    (hinner : ∀ labels kind detail, Q (label :: labels) kind detail)
    (hown : ∀ kind detail,
      (kind = .missingReference → e.services.LacksTemplate detail) → Q [] kind detail)
    (c : RenderContext) : Adds Q (e.artifact (e.nested left) kind c label) := by
  have hreport : ∀ err : RenderError, err.diagnosticKind ≠ .missingReference →
      Adds Q (report err : SessionM ω Unit) := fun err herr =>
    adds_record (hown _ _ fun h => absurd h herr)
  refine sequencedBy_adds.sequence (adds_callOrReport fun w err herr => ?_) fun found => ?_
  · refine hown _ _ fun hkind => ?_
    cases err with
    | notFound what id => exact ⟨kind, w, what, id, herr, rfl⟩
    | _ => cases hkind
  · cases found with
    | none => exact adds_pure []
    | some t =>
      dsimp only
      split
      · intro s
        have hrun := e.adds_nested left hinner kind t.text c s
        rw [bind_apply]
        cases hr : (e.nested left ⟨kind, t.text, c, some label⟩ s).1 with
        | error err => exact hrun
        | ok rendered =>
          cases rendered with
          | ok rendered => exact hrun
          | error err =>
            -- there is none at the limit only
            have hlimit : err.diagnosticKind ≠ .missingReference := by
              cases left with
              | zero =>
                rw [nested_limit] at hr
                split at hr
                · cases hr
                · obtain rfl := Except.error.inj (Except.ok.inj hr)
                  nofun
              | succ left => exact absurd hr (e.nested_ne_error left.succ_pos _ s err)
            exact hrun.trans (sequencedBy_adds.sequence (hreport err hlimit) (fun _ => adds_pure []) _)
      · exact sequencedBy_adds.sequence (hreport _ nofun) fun _ => adds_pure []

/-- Reports one after the other. -/
theorem run_forM_record (kind : DiagnosticKind) (detail : α → String) (as : List α) (s : Session ω) :
    run (e.answer (e.nested left) depth) (as.forM fun a => .record kind (detail a)) s =
      (.ok (), { s with log := { s.log with
        entries := s.log.entries ++ as.map fun a => ⟨s.log.breadcrumb, kind, detail a⟩ } }) := by
  induction as generalizing s with
  | nil =>
    show (Except.ok PUnit.unit, s) = _
    simp
  | cons a as ih =>
    show run _ (RenderProgram.record kind (detail a) >>= fun _ => as.forM _) s = _
    rw [run_bind, bind_apply]
    show run _ (as.forM _) { s with log := s.log.record kind (detail a) } = _
    rw [ih]
    simp [DiagnosticLog.record]

theorem sequencedBy_run_adds {answer : (o : RenderOp) → SessionM ω o.Answer} :
    SequencedBy fun α p => Adds Q (run (α := α) answer p) where
  result := adds_pure
  sequence hp hf := by
    rw [run_bind]
    exact sequencedBy_adds.sequence hp hf

/-- Programs whose own entries may be whatever they are. -/
theorem requested_adds (hQ : ∀ kind detail, Q [] kind detail) :
    Requested fun α p => Adds Q (run (α := α) (e.answer (e.nested left) depth) p) where
  toSequencedBy := sequencedBy_run_adds
  plain o ho := by
    have hcall : ∀ {β} (c : Call ω β), Adds Q (callOrReport c) := fun c =>
      adds_callOrReport fun _ _ _ => hQ _ _
    rw [run_request]
    cases o with
    | object id => exact hcall _
    | dialog id => exact sequencedBy_adds.sequence (hcall _) fun _ => adds_pure _
    | languageKey r => exact sequencedBy_adds.sequence (hcall _) fun _ => adds_pure _
    | settings => exact adds_pure _
    | record kind detail => exact adds_record (hQ _ _)
    | _ => exact ho.elim

/-- What a resolver adds its turn adds, and that it failed. -/
theorem added_attempt {kind : ArtifactKind} {c : RenderContext} {t : Text} {r : Resolver}
    {answer : (o : RenderOp) → SessionM ω o.Answer} {l : DiagnosticLog} {s : Session ω} (hs : s.cancelled = false)
    (hrun : l.Added Q (run answer (r.resolve kind c t) s).2.log)
    (hQ : ∀ err : RenderError, Q [] err.diagnosticKind (r.name ++ ": " ++ err.message)) :
    l.Added Q (attempt answer kind c t r s).2.log := by
  rw [attempt_apply, if_neg (Bool.eq_false_iff.1 hs)]
  rcases hrs : run answer (r.resolve kind c t) s with ⟨result, s'⟩
  rw [hrs] at hrun
  cases result with
  | ok t' => exact hrun
  | error err =>
    cases err with
    | cancelled => exact hrun
    | _ => exact hrun.trans (DiagnosticLog.added_record (hQ _) s'.log)

/-- What resolvers add attempts one after the other add. -/
theorem adds_attempts {kind : ArtifactKind} {c : RenderContext} {rs : List Resolver}
    {answer : (o : RenderOp) → SessionM ω o.Answer}
    (hruns : ∀ r ∈ rs, ∀ t, Adds Q (run answer (r.resolve kind c t))) (hQ : ∀ kind detail, Q [] kind detail)
    (t : Text) : Adds Q (rs.foldlM (attempt answer kind c) t) := by
  refine sequencedBy_adds.foldlM (fun t r hr s => ?_) t
  cases hs : s.cancelled with
  | true =>
    rw [attempt_apply, if_pos hs]
    exact .refl s.log
  | false => exact added_attempt hs (hruns r hr t s) fun _ => hQ _ _

theorem added_reported (hQ : ∀ detail, Q [] .malformedTemplate detail) (t : Text) (s : Session ω) :
    s.log.Added Q (e.reported t s).log := by
  have hissues : ∀ (is : List Issue) (l : DiagnosticLog),
      l.Added Q (is.foldl (fun l i => l.record .malformedTemplate (issueDetail i)) l) := by
    intro is
    induction is with
    | nil => exact fun l => .refl l
    | cons i is ih => exact fun l => (DiagnosticLog.added_record (hQ _) l).trans (ih _)
  exact hissues _ _

end Engine

/-! ## 4. The resolvers of an object -/

/-- The labels right under which a resolver of an object reports. -/
def Topic.IsLabel (space label : String) : Topic → Prop
  | .snippets => label = "Snippets"
  | .dialog => label = "Dialog"
  | .dailyRoutine => label = "Daily routine"
  | .inventory => label = "Inventory"
  | .skills => label = "Skills"
  | .fields => space.toList <+: label.toList
  | .fieldList | .language => False

instance (space label : String) : (τ : Topic) → Decidable (τ.IsLabel space label)
  | .snippets | .dialog | .dailyRoutine | .inventory | .skills => inferInstanceAs (Decidable (_ = _))
  | .fields => inferInstanceAs (Decidable (_ <+: _))
  | .fieldList | .language => inferInstanceAs (Decidable False)

namespace Engine

variable (e : Engine ω) (left depth : Nat)

/-- A program under a label adds what stands under it. -/
theorem adds_under {p : RenderProgram Text} {label : String}
    (hp : Leads (fun s s' : Session ω => s.log.Grew (fun _ _ => True) s'.log)
      (run (e.answer (e.nested left) depth) p))
    (hQ : ∀ labels kind detail, Q (label :: labels) kind detail) :
    Adds Q (run (e.answer (e.nested left) depth) (.within label p)) := by
  rw [run_within]
  have hinner : Adds (fun _ _ _ => True) (run (e.answer (e.nested left) depth) p) := fun s =>
    (hp s).added fun _ _ _ => trivial
  exact hinner.within fun _ _ _ _ => hQ _ _ _

/-- **The resolvers of an object keep to their own labels**: none of them adds an entry under that of another. -/
theorem adds_resolve_object {kind : ArtifactKind} {space : String} (hspace : kind.space? = some space)
    {o : GameObject} {c : RenderContext} (hc : c.subject = .object o) {τ : Topic}
    (happlies : τ.resolver.applies kind = true) (t : Text) :
    Adds (fun labels _ _ => ∀ label ∈ labels.head?, τ.IsLabel space label)
      (run (e.answer (e.nested left) depth) (τ.resolver.resolve kind c t)) := by
  have hgrew := composed_leads stepRelation_grew fun _ ho => e.grew_plain left depth ho
  have hartifact := fun kind c label => leads_request (e.grew_artifact left depth kind c label)
  have hfunctions := fun scope id owner script => leads_request (e.grew_functions left depth scope id owner script)
  -- what stands under the resolver's own label may be whatever it is
  have hunder : ∀ {p : RenderProgram Text} {label : String}, τ.IsLabel space label →
      Leads (fun s s' : Session ω => s.log.Grew (fun _ _ => True) s'.log) (run (e.answer (e.nested left) depth) p) →
      Adds (fun labels _ _ => ∀ label ∈ labels.head?, τ.IsLabel space label)
        (run (e.answer (e.nested left) depth) (.within label p)) := fun hlabel hp =>
    e.adds_under left depth hp fun _ _ _ _ hl => Option.some.inj hl ▸ hlabel
  have hwhere : ∀ {p : RenderProgram Text} {mentioned : Bool} {label : String}, τ.IsLabel space label →
      Leads (fun s s' : Session ω => s.log.Grew (fun _ _ => True) s'.log) (run (e.answer (e.nested left) depth) p) →
      Adds (fun labels _ _ => ∀ label ∈ labels.head?, τ.IsLabel space label)
        (run (e.answer (e.nested left) depth) (if mentioned then .within label p else pure t)) := by
    intro p mentioned label hlabel hp
    split
    · exact hunder hlabel hp
    · exact adds_pure t
  cases τ with
  | snippets =>
    show Adds _ (run _ (Resolver.snippets.resolve kind c t))
    rw [resolve_snippets hc (Topic.ne_function_of_space hspace).1]
    exact hunder rfl (hgrew.resolveSnippets (hfunctions _) (hartifact _) o _ t)
  | dialog =>
    obtain rfl := Topic.eq_npc_of_applies hspace happlies
    show Adds _ (run _ (Resolver.dialog.resolve .npc c t))
    rw [resolve_dialog hc]
    exact hwhere rfl (hgrew.resolveDialog (hartifact _) (e.grew_dialogFunctions left depth o) t)
  | dailyRoutine =>
    show Adds _ (run _ (Resolver.dailyRoutine.resolve kind c t))
    rw [resolve_dailyRoutine hc (Topic.ne_function_of_space hspace).2]
    exact hwhere rfl (hgrew.resolveRoutine (hfunctions _) (hartifact _) o _ t)
  | inventory =>
    show Adds _ (run _ (Resolver.inventory.resolve kind c t))
    rw [resolve_inventory hc]
    exact hwhere rfl (hgrew.resolveInventory (hartifact _) (hartifact _) o t)
  | skills =>
    show Adds _ (run _ (Resolver.skills.resolve kind c t))
    rw [resolve_skills hc]
    exact hwhere rfl (hgrew.resolveSkills (hartifact _) (hartifact _) o t)
  | fields =>
    show Adds _ (run _ (Resolver.fields.resolve kind c t))
    rw [resolve_fields hc hspace]
    refine (e.requested_adds left depth fun _ _ _ hl => by cases hl).resolveObject o _ (fun c name => ?_) t
    -- a listing's label begins with the namespace
    show Adds _ (run _ (.request (.artifact .fieldList c (space ++ name))))
    rw [run_request]
    refine e.adds_artifact left (fun _ _ _ _ hl => ?_) (fun _ _ _ _ hl => by cases hl) c
    obtain rfl := Option.some.inj hl
    show _ <+: (space ++ name).toList
    rw [String.toList_append]
    exact List.prefix_append _ _
  | fieldList => exact absurd (Topic.order_le_of_applies hspace happlies) (by decide)
  | language => exact absurd (Topic.order_le_of_applies hspace happlies) (by decide)

/-- **So do their attempts**: no entry stands under a label that is none of theirs. -/
theorem adds_attempts_object {kind : ArtifactKind} {space : String} (hspace : kind.space? = some space)
    {o : GameObject} {c : RenderContext} (hc : c.subject = .object o) (label : String) {τs : List Topic}
    (hτs : ∀ τ ∈ τs, τ.resolver.applies kind = true ∧ ¬ τ.IsLabel space label) (t : Text) :
    Adds (fun labels _ _ => labels.head? ≠ some label)
      ((τs.map (·.resolver)).foldlM (attempt (e.answer (e.nested left) depth) kind c) t) := by
  refine adds_attempts (fun r hr t => ?_) (fun _ _ => by simp) t
  obtain ⟨τ, hτ, rfl⟩ := List.mem_map.1 hr
  obtain ⟨happlies, hlabel⟩ := hτs τ hτ
  exact (e.adds_resolve_object left depth hspace hc happlies t).mono fun labels _ _ h hl => hlabel (h label hl)

end Engine
end RecordExport

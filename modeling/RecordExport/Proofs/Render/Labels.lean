import RecordExport.Proofs.Render.Nesting
import RecordExport.Proofs.Render.Steps
/-!
# Labels are left again

A resolver goes under labels: its own, that of an object inside another, those of nested renders. It fails
or is cancelled in the middle of them, and yet the labels are the same afterwards as before.

* `DiagnosticLog.Grew`: the labels are the same, earlier entries are still there, and each entry that was
  added stands under the labels and is as it should be;
* `Engine.grew_resolve`: **so does every standard resolver leave the log**, however it ends.
-/

namespace RecordExport

variable {ω : Type}

open SessionM

/-! ## 1. Logs -/

/-- **The log afterwards.** Its labels are as they were, its entries are still there in their order, and each
    of those added has the labels in front of its own. -/
structure DiagnosticLog.Grew (P : DiagnosticKind → String → Prop) (l l' : DiagnosticLog) : Prop where
  breadcrumb : l'.breadcrumb = l.breadcrumb
  entries : ∃ added, l'.entries = l.entries ++ added ∧
    ∀ d ∈ added, l.breadcrumb <+: d.breadcrumb ∧ P d.kind d.detail

namespace DiagnosticLog

variable {P : DiagnosticKind → String → Prop} {l l₁ l₂ : DiagnosticLog}

theorem Grew.refl (l : DiagnosticLog) : l.Grew P l :=
  ⟨rfl, [], (List.append_nil _).symm, fun _ hd => absurd hd List.not_mem_nil⟩

theorem Grew.trans (h₁ : l.Grew P l₁) (h₂ : l₁.Grew P l₂) : l.Grew P l₂ := by
  obtain ⟨added₁, he₁, ha₁⟩ := h₁.entries
  obtain ⟨added₂, he₂, ha₂⟩ := h₂.entries
  refine ⟨h₂.breadcrumb.trans h₁.breadcrumb, added₁ ++ added₂, ?_, fun d hd => ?_⟩
  · rw [he₂, he₁, List.append_assoc]
  · rcases List.mem_append.1 hd with hd | hd
    · exact ha₁ d hd
    · exact h₁.breadcrumb ▸ ha₂ d hd

theorem grew_record {kind : DiagnosticKind} {detail : String} (h : P kind detail) (l : DiagnosticLog) :
    l.Grew P (l.record kind detail) := by
  refine ⟨rfl, [⟨l.breadcrumb, kind, detail⟩], rfl, fun d hd => ?_⟩
  obtain rfl := List.mem_singleton.1 hd
  exact ⟨List.prefix_rfl, h⟩

/-- What was added under a label stands under the labels outside it. -/
theorem Grew.leave {label : String} (h : (l.enter label).2.Grew P l₁) :
    l.Grew P (l₁.leave (l.enter label).1) := by
  obtain ⟨added, he, ha⟩ := h.entries
  have hlabels : l₁.breadcrumb = l.breadcrumb ++ [label] := h.breadcrumb
  refine ⟨?_, added, he, fun d hd => ⟨?_, (ha d hd).2⟩⟩
  · exact breadcrumb_leave_enter label l l₁ [] (hlabels.trans (List.append_nil _).symm)
  · exact (List.prefix_append l.breadcrumb [label]).trans (ha d hd).1

/-- The entries of a nested log are added under the labels. -/
theorem grew_mergeUnder {nested : DiagnosticLog} (h : ∀ d ∈ nested.entries, P d.kind d.detail)
    (label : Option String) (l : DiagnosticLog) : l.Grew P (l.mergeUnder label nested) := by
  refine ⟨breadcrumb_mergeUnder _ _ _, _, entries_mergeUnder label l nested, fun d hd => ?_⟩
  obtain ⟨inner, hinner, rfl⟩ := List.mem_map.1 hd
  refine ⟨?_, h inner hinner⟩
  show l.breadcrumb <+: l.breadcrumb ++ label.toList ++ inner.breadcrumb
  rw [List.append_assoc]
  exact List.prefix_append _ _

end DiagnosticLog

section Steps

variable {P : DiagnosticKind → String → Prop}

/-- What a step does to the log relates sessions. -/
theorem stepRelation_grew : StepRelation fun s s' : Session ω => s.log.Grew P s'.log where
  refl s := .refl s.log
  trans h₁ h₂ := h₁.trans h₂
  within _ h := h.leave
  isolated label h := by
    obtain ⟨added, he, ha⟩ := h.entries
    refine DiagnosticLog.grew_mergeUnder (fun d hd => ?_) label _
    rw [he] at hd
    exact (ha d hd).2

theorem leads_record {kind : DiagnosticKind} {detail : String} (h : P kind detail) :
    Leads (fun s s' : Session ω => s.log.Grew P s'.log) (record kind detail) :=
  leads_modify fun s => DiagnosticLog.grew_record h s.log

/-- A call does nothing to the log; its report does. -/
theorem Services.lead_grew (services : Services ω)
    (h : ∀ e, P (RenderError.service e).diagnosticKind (RenderError.service e).message) :
    services.Lead fun s s' => s.log.Grew P s'.log where
  object _ := leads_call stepRelation_grew fun s => .refl s.log
  dialog _ := leads_call stepRelation_grew fun s => .refl s.log
  languageKey _ := leads_call stepRelation_grew fun s => .refl s.log
  template _ _ := leads_call stepRelation_grew fun s => .refl s.log
  report e := leads_record (h e)

theorem leads_functions (services : Services ω)
    (h : ∀ e, P (RenderError.service e).diagnosticKind (RenderError.service e).message)
    (scope : MemoScope) (id owner : String) (script : Script) :
    Leads (fun s s' : Session ω => s.log.Grew P s'.log)
      (functionsOnce scope id (services.functions owner script)) :=
  leads_functionsOnce stepRelation_grew (leads_call stepRelation_grew fun s => .refl s.log)
    (fun e => leads_record (h e)) fun s _ _ _ => .refl s.log

end Steps

/-! ## 2. Resolvers -/

namespace Engine

/-- A nested render of whatever engine adds its entries under the labels. -/
theorem grew_nested (e : Engine ω) (left : Nat) (r : RenderRequest) (s : Session ω) :
    s.log.Grew (fun _ _ => True) (e.nested left r s).2.log := by
  cases left with
  | zero =>
    rw [nested_limit]
    split <;> exact .refl s.log
  | succ left =>
    rw [nested_apply]
    split
    · exact .refl s.log
    · exact DiagnosticLog.grew_mergeUnder (fun _ _ => trivial) r.label s.log

section Answers

variable (e : Engine ω) (left depth : Nat)

theorem grew_plain {o : RenderOp} (ho : o.IsPlain) :
    Leads (fun s s' : Session ω => s.log.Grew (fun _ _ => True) s'.log) (e.answer (e.nested left) depth o) :=
  leads_answer_plain e (e.nested left) depth stepRelation_grew (e.services.lead_grew fun _ => trivial)
    (fun _ _ _ => leads_record trivial) o ho

theorem grew_artifact (kind : ArtifactKind) (c : RenderContext) (label : String) :
    Leads (fun s s' : Session ω => s.log.Grew (fun _ _ => True) s'.log)
      (e.answer (e.nested left) depth (.artifact kind c label)) :=
  leads_artifact stepRelation_grew (e.services.lead_grew fun _ => trivial) (fun r _ => e.grew_nested left r)
    (fun _ _ _ _ _ => leads_record trivial) label

theorem grew_functions (scope : MemoScope) (id owner : String) (script : Script) :
    Leads (fun s s' : Session ω => s.log.Grew (fun _ _ => True) s'.log)
      (e.answer (e.nested left) depth (.functions scope id owner script)) :=
  leads_functions e.services (fun _ => trivial) scope id owner script

/-- What a dialog's functions are derived from leaves the log so, and what is kept is not in it. -/
theorem grew_dialogFunctions (npc : GameObject) (d : Dialog) :
    Leads (fun s s' : Session ω => s.log.Grew (fun _ _ => True) s'.log)
      (run (e.answer (e.nested left) depth) (dialogFunctions npc d)) :=
  (composed_leads stepRelation_grew fun _ ho => e.grew_plain left depth ho).dialogFunctions
    (fun kind c label _ => leads_request (e.grew_artifact left depth kind c label))
    (fun _ _ => leads_request (leads_record trivial)) (fun _ => leads_request fun s => .refl s.log)
    (fun _ _ => leads_request fun s => .refl s.log) npc d

end Answers

/-- **Every standard resolver leaves its labels again**: whatever text of whatever kind it is given in
    whatever state, and whatever collaborators and nested renders do, the active labels are the same
    afterwards, all earlier entries are still there in their order, and each entry that was added stands under
    the labels that were active before. -/
theorem grew_resolve (topic : Topic) (e : Engine ω) (left : Nat) (kind : ArtifactKind)
    (c : RenderContext) (t : Text) (s : Session ω) :
    s.log.Grew (fun _ _ => True) (e.runs left kind c topic.resolver t s).2.log :=
  leads_resolve stepRelation_grew (fun _ ho => e.grew_plain left _ ho) topic
    (fun inner _ c label => e.grew_artifact left _ inner c label)
    (fun scope _ => e.grew_functions left _ scope)
    (fun _ _ npc d => e.grew_dialogFunctions left _ npc d) s

end Engine
end RecordExport

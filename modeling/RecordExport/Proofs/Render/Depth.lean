import RecordExport.Proofs.Render.Labels
/-!
# How deep the standard resolvers nest

An engine has a limit to how deep renders nest, and templates may mention any placeholder. But a resolver
only asks for artefacts of less height than the one it works on, and the height of a character is two. So
whatever the templates say, no render nests more than two deep, and a limit of two is as good as any other.

* `Engine.nestedSeen_of_height`: a nested render is the same for all limits that leave it enough levels;
* `Engine.unlimited_nested`: it never reports that there are no levels left;
* `Engine.shallow_standard`: **so renders nest two deep at most, and a limit of at least two is never met.**
-/

namespace RecordExport

variable {ω : Type}

open SessionM

/-! ## 1. Limits that do not matter -/

namespace Engine

section Answers

variable {answer₁ answer₂ : (o : RenderOp) → SessionM ω o.Answer} {e e' : Engine ω} {see : Observer ω}
  {nested₁ nested₂ : NestedRender ω} {kind : ArtifactKind} {c : RenderContext} {t : Text}

/-- A program runs the same where all it asks for is answered the same. -/
theorem composed_run_eq (h : ∀ o : RenderOp, o.IsPlain → answer₁ o = answer₂ o) :
    Composed fun α p => run (α := α) answer₁ p = run answer₂ p where
  result _ := rfl
  sequence hp hf := by
    rw [run_bind, run_bind, hp]
    exact congrArg _ (funext hf)
  within hp label := by rw [run_within, run_within, hp]
  plain o ho := by rw [run_request, run_request, h o ho]

theorem attemptSeen_congr {r : Resolver}
    (h : run answer₁ (r.resolve kind c t) = run answer₂ (r.resolve kind c t)) :
    attemptSeen see answer₁ kind c t r = attemptSeen see answer₂ kind c t r := by
  unfold attemptSeen attempt
  rw [h]

theorem foldlM_attemptSeen_congr {rs : List Resolver} (h : ∀ r ∈ rs, ∀ t,
    run answer₁ (r.resolve kind c t) = run answer₂ (r.resolve kind c t)) (t : Text) :
    rs.foldlM (attemptSeen see answer₁ kind c) t = rs.foldlM (attemptSeen see answer₂ kind c) t := by
  induction rs generalizing t with
  | nil => rfl
  | cons r rs ih =>
    rw [List.foldlM_cons, List.foldlM_cons, attemptSeen_congr (h r List.mem_cons_self t)]
    exact congrArg _ (funext fun t => ih (fun r hr => h r (List.mem_cons_of_mem _ hr)) t)

/-- A pass is the same for engines with the same resolvers if their programs are. -/
theorem passSeen_congr (hresolvers : e.resolvers = e'.resolvers) (h : ∀ r ∈ e.applicable kind, ∀ t,
    run answer₁ (r.resolve kind c t) = run answer₂ (r.resolve kind c t)) :
    e.passSeen see answer₁ kind c t = e'.passSeen see answer₂ kind c t := by
  have hissues : e.validate t = e'.validate t := by
    unfold validate families
    rw [hresolvers]
  have happlicable : e.applicable kind = e'.applicable kind := by
    unfold applicable
    rw [hresolvers]
  unfold passSeen
  rw [hissues, ← happlicable, foldlM_attemptSeen_congr h]

theorem artifact_congr (hservices : e.services = e'.services)
    (h : ∀ r : RenderRequest, r.kind = kind → nested₁ r = nested₂ r) (label : String) :
    e.artifact nested₁ kind c label = e'.artifact nested₂ kind c label := by
  have hn : ∀ text, nested₁ ⟨kind, text, c, some label⟩ = nested₂ ⟨kind, text, c, some label⟩ :=
    fun text => h _ rfl
  unfold artifact
  simp only [hservices, hn]

end Answers

section Standard

variable {services : Services ω} {see : Observer ω} {m n : Nat} {nested₁ nested₂ : NestedRender ω}
  {kind : ArtifactKind} {c : RenderContext} {t : Text}

/-- **A pass of the standard resolvers goes by its nested renders of less height**, and neither by the limit
    nor by how deep it is nested itself. -/
theorem passSeen_of_height (services : Services ω) (see : Observer ω) (m n d d' : Nat)
    (h : ∀ r : RenderRequest, r.kind.height < kind.height → nested₁ r = nested₂ r) :
    let e₁ := Engine.standard services m
    let e₂ := Engine.standard services n
    e₁.passSeen see (e₁.answerSeen see nested₁ d) kind c t =
      e₂.passSeen see (e₂.answerSeen see nested₂ d') kind c t := by
  intro e₁ e₂
  have hplain : ∀ o : RenderOp, o.IsPlain →
      e₁.answerSeen see nested₁ d o = e₂.answerSeen see nested₂ d' o := by
    intro o ho
    cases o with
    | object | dialog | languageKey | settings | record => rfl
    | _ => exact ho.elim
  have hartifact : ∀ inner : ArtifactKind, inner.height < kind.height → ∀ c label,
      e₁.answerSeen see nested₁ d (.artifact inner c label) =
        e₂.answerSeen see nested₂ d' (.artifact inner c label) := by
    intro inner hinner c label
    have hr : ∀ r : RenderRequest, r.kind = inner → nested₁ r = nested₂ r := fun r hr =>
      h r (hr ▸ hinner)
    show (e₁.artifact nested₁ inner c label >>= _) = (e₂.artifact nested₂ inner c label >>= _)
    have hsame : e₁.artifact nested₁ inner c label = e₂.artifact nested₂ inner c label :=
      artifact_congr rfl hr label
    rw [hsame]
  have hcomposed := composed_run_eq hplain
  refine passSeen_congr rfl fun r hr t => ?_
  obtain ⟨topic, rfl, happlies⟩ := exists_topic_of_mem_applicable hr
  have hinside : ∀ inner ∈ topic.inside kind, ∀ c label, _ := fun inner hinner =>
    hartifact inner (Topic.height_lt_of_inside happlies inner hinner)
  refine topic.composed_resolve hcomposed (fun _ _ => rfl) kind c t (fun inner hinner c label => ?_)
    (fun scope _ id owner script => rfl) fun htopic hkind npc dialog => ?_
  · exact (run_request _).trans ((hinside inner hinner c label).trans (run_request _).symm)
  · refine hcomposed.dialogFunctions (fun step c label hstep => ?_) (fun _ _ => rfl) (fun _ => rfl) (fun _ _ => rfl)
      npc dialog
    have hlt : step.height < kind.height := hkind ▸ ArtifactKind.height_of_isDialogStep hstep
    exact (run_request _).trans ((hartifact step hlt c label).trans (run_request _).symm)

/-- **A nested render is the same for all limits that leave it levels enough**, by induction on them. -/
theorem nestedSeen_of_height {left₁ left₂ : Nat} {r : RenderRequest} (h₁ : r.kind.height < left₁)
    (h₂ : r.kind.height < left₂) :
    (Engine.standard services m).nestedSeen see left₁ r =
      (Engine.standard services n).nestedSeen see left₂ r := by
  induction left₁ generalizing left₂ r with
  | zero => exact absurd h₁ (Nat.not_lt_zero _)
  | succ left₁ ih =>
    obtain ⟨left₂, rfl⟩ := Nat.exists_eq_succ_of_ne_zero (Nat.ne_of_gt (Nat.zero_lt_of_lt h₂))
    unfold nestedSeen
    dsimp only
    have hinner : ∀ r' : RenderRequest, r'.kind.height < r.kind.height →
        (Engine.standard services m).nestedSeen see left₁ r' =
          (Engine.standard services n).nestedSeen see left₂ r' :=
      fun r' hr' => ih (by omega) (by omega)
    have hpass := passSeen_of_height services see m n (m - left₁) (n - left₂) (c := r.context)
      (t := r.text) hinner
    exact congrArg _ (funext fun _ => congrArg (· >>= _) (congrArg (nesting see r)
      (congrArg (isolated r.label) hpass)))

/-- **So is a whole render**, under whatever observer. -/
theorem renderSeen_of_height (services : Services ω) (see : Observer ω) (h₁ : kind.height ≤ m)
    (h₂ : kind.height ≤ n) :
    (Engine.standard services m).renderSeen see kind =
      (Engine.standard services n).renderSeen see kind := by
  funext c t w cancelled
  rw [renderSeen_eq, renderSeen_eq]
  have hinner : ∀ r : RenderRequest, r.kind.height < kind.height →
      (Engine.standard services m).nestedSeen see m r = (Engine.standard services n).nestedSeen see n r :=
    fun r hr => nestedSeen_of_height (by omega) (by omega)
  have hpass := passSeen_of_height services see m n 0 0 (c := c) (t := t) hinner
  exact congrArg (fun x : SessionM ω Text =>
    let s := x (Session.start w cancelled)
    (s.1.map fun t => (⟨t, s.2.log.entries⟩ : RenderOutput), s.2.world)) hpass

theorem transcribed_of_height (h₁ : kind.height ≤ m) (h₂ : kind.height ≤ n) :
    (Engine.standard services m).transcribed kind = (Engine.standard services n).transcribed kind := by
  funext c t w cancelled
  have hsame := renderSeen_of_height (services.onLeft.seen .scribe) .scribe h₁ h₂
  exact congrFun (congrFun (congrFun (congrFun hsame c) t) (w, [])) cancelled

end Standard

end Engine

/-! ## 2. Limits that are not met -/

/-- The entry reports that there were no levels left to nest in. -/
def ReportsLimit (kind : DiagnosticKind) (detail : String) : Prop :=
  kind = .malformedTemplate ∧ ∃ before limit, detail = before ++ (RenderError.depthExceeded limit).message

section Reports

variable {kind : DiagnosticKind} {detail : String}

theorem getLast?_toList_append {s t : String} {c : Char} (h : t.toList.getLast? = some c) :
    (s ++ t).toList.getLast? = some c := by
  rw [String.toList_append, List.getLast?_append, h]
  rfl

/-- Such a report ends with a digit of the limit. -/
theorem not_reportsLimit_of_getLast? {c : Char} (h : detail.toList.getLast? = some c)
    (hc : c.isDigit = false) : ¬ ReportsLimit kind detail := by
  rintro ⟨-, before, limit, rfl⟩
  obtain ⟨digits, digit, hdigits⟩ :=
    (List.eq_nil_or_concat' (Nat.toDigits 10 limit)).resolve_left Nat.toDigits_ne_nil
  have hlimit : (toString limit).toList.getLast? = some digit := by
    show (Nat.repr limit).toList.getLast? = some digit
    rw [Nat.toList_repr, hdigits, List.getLast?_concat]
  have hdigit : digit.isDigit = true := by
    refine Nat.isDigit_of_mem_toDigits (n := limit) (by decide) (Nat.le_refl 10) ?_
    rw [hdigits]
    exact List.mem_concat_self
  have hlast := getLast?_toList_append (s := before)
    (getLast?_toList_append (s := "nested render depth exceeded ") hlimit)
  obtain rfl : c = digit := Option.some.inj (h.symm.trans hlast)
  rw [hc] at hdigit
  cases hdigit

theorem not_reportsLimit_issue (i : Issue) : ¬ ReportsLimit .malformedTemplate (Engine.issueDetail i) :=
  not_reportsLimit_of_getLast? (c := ')') (getLast?_toList_append rfl) rfl

theorem not_reportsLimit_wrongSubject (before resolver found : String) :
    ¬ ReportsLimit kind (before ++ (RenderError.wrongSubject resolver found).message) :=
  not_reportsLimit_of_getLast? (c := 't') (getLast?_toList_append (getLast?_toList_append rfl)) rfl

theorem not_reportsLimit_of_ne (h : kind ≠ .malformedTemplate) : ¬ ReportsLimit kind detail :=
  fun hreports => h hreports.1

theorem not_reportsLimit_service (e : ServiceError) :
    ¬ ReportsLimit (RenderError.service e).diagnosticKind detail :=
  not_reportsLimit_of_ne (by cases e <;> nofun)

theorem not_reportsLimit_plain (h : (RenderOp.record kind detail).IsPlain) : ¬ ReportsLimit kind detail := by
  rcases h with rfl | ⟨rfl, -⟩ <;> exact not_reportsLimit_of_ne (by decide)

end Reports

namespace Engine

section Unlimited

variable {services : Services ω} {n left d : Nat} {kind : ArtifactKind} {c : RenderContext} {t : Text}

/-- The log of the session afterwards has got no reports of a limit. -/
def Unlimited (s s' : Session ω) : Prop := s.log.Grew (fun kind detail => ¬ ReportsLimit kind detail) s'.log

theorem stepRelation_unlimited : StepRelation (Unlimited (ω := ω)) := stepRelation_grew

/-- With levels left there is a nested render, unless it is cancelled. -/
theorem nested_ne_error (e : Engine ω) (h : 0 < left) (r : RenderRequest) (s : Session ω)
    (err : RenderError) : (e.nested left r s).1 ≠ .ok (.error err) := by
  obtain ⟨left, rfl⟩ := Nat.exists_eq_succ_of_ne_zero (Nat.ne_of_gt h)
  rw [Nat.succ_eq_add_one, nested_apply]
  split
  · exact fun h => by cases h
  · intro h
    have hmap : (e.pass left r.kind r.context r.text { s with log := .empty }).1.map Except.ok =
        .ok (.error err) := h
    cases hown : (e.pass left r.kind r.context r.text { s with log := .empty }).1 with
    | ok t =>
      rw [hown] at hmap
      cases hmap
    | error err' =>
      rw [hown] at hmap
      cases hmap

theorem unlimited_passWith (h : ∀ r : RenderRequest, r.kind.height < kind.height →
      0 < left ∧ Leads Unlimited ((Engine.standard services n).nested left r)) :
    let e := Engine.standard services n
    Leads Unlimited (e.passWith (e.answer (e.nested left) d) kind c t) := by
  intro e
  have hR := stepRelation_unlimited (ω := ω)
  have hservices : e.services.Lead Unlimited := e.services.lead_grew fun e => not_reportsLimit_service e
  have hplain := leads_answer_plain e (e.nested left) d hR hservices
    fun kind detail hkind => leads_record (not_reportsLimit_plain hkind)
  have hartifact : ∀ inner : ArtifactKind, inner.height < kind.height → ∀ c label,
      Leads Unlimited (e.answer (e.nested left) d (.artifact inner c label)) := by
    intro inner hinner c label
    have hr : ∀ r : RenderRequest, r.kind = inner → 0 < left ∧ Leads Unlimited (e.nested left r) :=
      fun r hr => h r (hr ▸ hinner)
    refine leads_artifact hR hservices (fun r hkind => (hr r hkind).2) (fun r hkind s err he => ?_) label
    exact absurd he (e.nested_ne_error (hr r hkind).1 r s err)
  have hcomposed := composed_leads hR hplain
  refine leads_passWith hR (fun i => leads_record (not_reportsLimit_issue i)) fun r hr t => ?_
  obtain ⟨topic, rfl, happlies⟩ := exists_topic_of_mem_applicable hr
  refine leads_attempt hR ?_ fun s err he hne => ?_
  · refine leads_resolve hR hplain topic (fun inner hinner c label => ?_) (fun scope _ => ?_)
      fun htopic hkind npc dialog => ?_
    · exact hartifact inner (Topic.height_lt_of_inside happlies inner hinner) c label
    · exact leads_functions e.services (fun e => not_reportsLimit_service e) scope
    · refine hcomposed.dialogFunctions (fun step c label hstep => leads_request (hartifact step ?_ c label))
        (fun _ _ => leads_request (leads_record (not_reportsLimit_of_ne (by decide)))) (fun _ => leads_request hR.refl)
        (fun _ _ => leads_request fun s => .refl s.log) npc dialog
      exact hkind ▸ ArtifactKind.height_of_isDialogStep hstep
  · have herr := fails_resolve (F := fun err => err = .cancelled ∨ ∃ resolver found, err =
      .wrongSubject resolver found) (fun o s err he => .inl (e.lasts_answer left d o s err he))
      (fun resolver found => .inr ⟨resolver, found, rfl⟩) topic kind c t s err he
    obtain hc | ⟨resolver, found, rfl⟩ := herr
    · exact absurd hc hne
    · exact leads_record (not_reportsLimit_wrongSubject _ resolver found)

/-- **A nested render with levels enough never reports that there are none**, by induction on them. -/
theorem unlimited_nested {r : RenderRequest} (h : r.kind.height < left) :
    Leads Unlimited ((Engine.standard services n).nested left r) := by
  have hR := stepRelation_unlimited (ω := ω)
  induction left generalizing r with
  | zero => exact absurd h (Nat.not_lt_zero _)
  | succ left ih =>
    unfold nested
    refine leads_checkpoint_bind hR fun s _ => ?_
    refine Leads.bind hR (Leads.isolated hR ?_ r.label) (fun _ => leads_pure hR _) s
    exact unlimited_passWith fun r' hr' => ⟨by omega, ih (by omega)⟩

end Unlimited

/-! ## 3. Renders -/

/-- **Renders of the standard resolvers are shallow.** -/
structure Shallow (services : Services ω) : Prop where
  /-- whatever the limit, there are never more than two renders inside one another below the first -/
  depth : ∀ limit kind c t w cancelled,
    let e := Engine.standard services limit
    let seen := e.transcribed kind c t w cancelled
    (seen.1, seen.2.1) = e.render kind c t w cancelled ∧
      ∀ T, T <+: seen.2.2 → Transcript.level T ≤ 2
  /-- limits of at least two are all the same -/
  limits : ∀ m n, 2 ≤ m → 2 ≤ n → (Engine.standard services m).render = (Engine.standard services n).render
  /-- and none of them is ever reported -/
  unreported : ∀ n, 2 ≤ n → ∀ kind c t w cancelled out,
    ((Engine.standard services n).render kind c t w cancelled).1 = .ok out →
      ∀ d ∈ out.diagnostics, ¬ ReportsLimit d.kind d.detail

/-- A transcript of a render is no deeper than the limit. -/
theorem level_le_limit (e : Engine ω) (kind : ArtifactKind) (c : RenderContext) (t : Text) (w : ω)
    (cancelled : Bool) :
    let seen := e.transcribed kind c t w cancelled
    (seen.1, seen.2.1) = e.render kind c t w cancelled ∧
      ∀ T, T <+: seen.2.2 → Transcript.level T ≤ e.maxDepth := by
  have hpromises : e.services.KeepPromises .any := ⟨fun _ _ _ _ => trivial, fun _ _ _ _ => trivial⟩
  have hkeeps : ∀ r ∈ e.resolvers, r.Keeps .any := fun r _ kind c t _ =>
    (r.resolve kind c t).keepsTo_any
  obtain ⟨hseen, memo, hcourse⟩ := transcribed_course hkeeps hpromises kind (c := c) trivial t w cancelled
  refine ⟨hseen, fun T hT => ?_⟩
  have hwithin := (hcourse.levelled.within T hT).2
  omega

/-- **The standard resolvers nest renders two deep at most**, whatever templates there are. So any two limits
    of at least two give the same text and the same diagnostics, and none of these reports a limit. -/
theorem shallow_standard (services : Services ω) : Shallow services where
  depth limit kind c t w cancelled := by
    intro e seen
    have hheight := kind.height_le
    have hseen := e.level_le_limit kind c t w cancelled
    refine ⟨hseen.1, fun T hT => ?_⟩
    by_cases hlimit : limit ≤ 2
    · have hle : Transcript.level T ≤ limit := hseen.2 T hT
      omega
    · have hsame : seen = (Engine.standard services 2).transcribed kind c t w cancelled :=
        congrFun (congrFun (congrFun (congrFun (transcribed_of_height (by omega) hheight) c) t) w) cancelled
      rw [hsame] at hT
      exact ((Engine.standard services 2).level_le_limit kind c t w cancelled).2 T hT
  limits m n hm hn := by
    funext kind
    have hheight := kind.height_le
    rw [← renderSeen_blind, ← renderSeen_blind]
    exact renderSeen_of_height services .blind (by omega) (by omega)
  unreported n hn kind c t w cancelled out hout := by
    have hheight := kind.height_le
    let e := Engine.standard services n
    let s := e.passWith (e.answer (e.nested n) 0) kind c t (Session.start w cancelled)
    have hpass : Unlimited (Session.start w cancelled) s.2 := unlimited_passWith
      (fun r (hr : r.kind.height < kind.height) => ⟨by omega, unlimited_nested (by omega)⟩) _
    obtain ⟨added, hentries, hadded⟩ := hpass.entries
    have hentries : s.2.log.entries = added := hentries
    have hmap : s.1.map (fun t => (⟨t, s.2.log.entries⟩ : RenderOutput)) = .ok out := by
      rw [render_eq] at hout
      exact hout
    cases hs : s.1 with
    | error err =>
      rw [hs] at hmap
      cases hmap
    | ok t' =>
      rw [hs] at hmap
      obtain rfl := Except.ok.inj hmap
      intro d hd
      exact (hadded d (hentries ▸ hd)).2

end Engine
end RecordExport

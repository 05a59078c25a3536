import RecordExport.Proofs.Render.Likeness
/-!
# Renders that go alike

Two engines with the same resolvers render alike if every call is answered alike and every event is
seen alike. This is one simulation for all renders, and the likeness is left open: worlds that stay
related, a transcript beside a render without one, or a render that is cancelled beside one that is
not.

* `Engine.Agree`: what two engines have to agree on;
* `Engine.renderSeen_alike`: then whole renders go alike, under whatever observers;
* `Engine.render_alike`: so do renders without observers, as long as the worlds stay related;
* `Engine.journal_fst`: **a journal changes nothing**, whatever an observer writes into it.
-/

namespace RecordExport

variable {ω ω₁ ω₂ σ α : Type}

open SessionM

/-! ## 1. Agreement -/

/-- A resolver keeps to a contract wherever it may render. -/
def Resolver.Keeps (K : Contract) (r : Resolver) : Prop :=
  ∀ kind c t, K.context c → (r.resolve kind c t).Keeps K

/-- An answer is right about how many renders the program is nested in. -/
def RenderOp.Tells (d : Nat) : (o : RenderOp) → o.Answer → Prop
  | .depth, n => n = d
  | _, _ => True

/-- The operation asks for something else than the functions of a script. -/
def RenderOp.AsksElse : RenderOp → Prop
  | .functions _ _ _ _ => False
  | _ => True

/-- Functions of a script, and the answer is seen. -/
def Engine.functionsSeen {ω : Type} (e : Engine ω) (see : Observer ω) (scope : MemoScope)
    (id owner : String) (script : Script) : SessionM ω (List ScriptFunction) := do
  let fs ← functionsOnce scope id (e.services.functions owner script)
  SessionM.see see (.answered (.functions scope id owner script) fs)
  pure fs

/-- **What two engines agree on**: their resolvers, which keep to a contract, what they are answered
    and what is seen. -/
structure Engine.Agree (L : Likeness ω₁ ω₂) (K : Contract) (see₁ : Observer ω₁)
    (see₂ : Observer ω₂) (e₁ : Engine ω₁) (e₂ : Engine ω₂) : Prop where
  resolvers : e₁.resolvers = e₂.resolvers
  maxDepth : e₁.maxDepth = e₂.maxDepth
  projectId : e₁.services.projectId = e₂.services.projectId
  escape : e₁.services.escape = e₂.services.escape
  keeps : ∀ r ∈ e₁.resolvers, r.Keeps K
  fails : ∀ err, K.fails err → L.fails err
  cancel : K.cancel → ∀ {d a b}, L.same d a b → L.same d a.cancel b.cancel
  keep : ∀ {d a b scope id fs}, K.keep scope id fs → L.same d a b →
    L.same d (a.keep scope id fs) (b.keep scope id fs)
  object : ∀ d id, L.AnswersAlike d (fun found => ∀ o, found = some o → K.object id o)
    (e₁.services.object id) (e₂.services.object id)
  dialog : ∀ d id, L.AnswersAlike d (fun found => ∀ x, found.join = some x → K.dialog id x)
    (e₁.services.dialog id) (e₂.services.dialog id)
  languageKey : ∀ d r, K.key r → L.AnswersAlike d (fun _ => True) (e₁.services.languageKey r)
    (e₂.services.languageKey r)
  functions : ∀ d scope id owner script, K.script scope id owner script →
    SessionM.Alike L d (fun _ => True) (e₁.functionsSeen see₁ scope id owner script)
      (e₂.functionsSeen see₂ scope id owner script)
  template : ∀ d projectId kind, L.AnswersAlike d (fun _ => True)
    (e₁.services.template projectId kind) (e₂.services.template projectId kind)
  resolver : ∀ {d labels a b kind name given}, L.same d a b → a.cancelled = false →
    b.cancelled = false → L.same d (a.seen see₁ labels (.resolver kind name given))
      (b.seen see₂ labels (.resolver kind name given))
  begins : ∀ {d labels a b r}, d < e₁.maxDepth → L.same d a b → a.cancelled = false →
    b.cancelled = false →
      L.same (d + 1) (a.seen see₁ labels (.begins r)) (b.seen see₂ labels (.begins r))
  ends : ∀ {d labels a₀ b₀ a b}, L.same d a₀ b₀ → L.same (d + 1) a b →
    L.same d (a.seen see₁ labels .ends) (b.seen see₂ labels .ends)
  stopped : ∀ {labels a}, L.stopped a → L.stopped (a.seen see₁ labels .ends)
  answered : ∀ {d labels a b o x}, o.AsksElse → K.allows o → K.promises o x → o.Tells d x →
    L.same d a b → L.same d (a.seen see₁ labels (.answered o x)) (b.seen see₂ labels (.answered o x))

namespace Engine

/-! ## 2. Answers -/

section Agreement

variable {L : Likeness ω₁ ω₂} {K : Contract} {see₁ : Observer ω₁} {see₂ : Observer ω₂}
  {e₁ : Engine ω₁} {e₂ : Engine ω₂} {nested₁ : NestedRender ω₁} {nested₂ : NestedRender ω₂}
  {d : Nat}

theorem artifact_alike (h : e₁.Agree L K see₁ see₂ e₂)
    (hn : ∀ r, K.context r.context → SessionM.Alike L d (fun _ => True) (nested₁ r) (nested₂ r))
    (kind : ArtifactKind) {c : RenderContext} (hc : K.context c) (label : String) :
    SessionM.Alike L d (fun _ => True) (e₁.artifact nested₁ kind c label)
      (e₂.artifact nested₂ kind c label) := by
  unfold artifact
  rw [h.projectId]
  refine (alike_callOrReport (h.template d _ kind)).bind fun found _ => ?_
  cases found with
  | none => exact alike_pure trivial
  | some t =>
    by_cases he : t.engine = placeholderEngine
    · simp only [if_pos he]
      refine (hn ⟨kind, t.text, c, some label⟩ hc).bind fun r _ => ?_
      cases r with
      | ok rendered => exact alike_pure trivial
      | error err => exact (alike_report err).bind fun _ _ => alike_pure trivial
    · simp only [if_neg he]
      exact (alike_report _).bind fun _ _ => alike_pure trivial

/-- Functions go alike where they are kept alike, called for alike and seen alike. -/
theorem functionsSeen_alike {scope : MemoScope} {id owner : String} {script : Script}
    (hkeep : ∀ a b fs, L.same d a b → L.same d (a.keep scope id fs) (b.keep scope id fs))
    (hcall : L.AnswersAlike d (fun _ => True) (e₁.services.functions owner script)
      (e₂.services.functions owner script))
    (hseen : ∀ labels a b fs, L.same d a b →
      L.same d (a.seen see₁ labels (.answered (.functions scope id owner script) fs))
        (b.seen see₂ labels (.answered (.functions scope id owner script) fs))) :
    SessionM.Alike L d (fun _ => True) (e₁.functionsSeen see₁ scope id owner script)
      (e₂.functionsSeen see₂ scope id owner script) := by
  refine (alike_functionsOnce hkeep hcall).bind fun fs _ => ?_
  exact (alike_see fun labels a b => hseen labels a b fs).bind fun _ _ => alike_pure trivial

/-- An answer that is seen. -/
theorem seen_alike (h : e₁.Agree L K see₁ see₂ e₂) {o : RenderOp} (ho : K.allows o)
    (helse : o.AsksElse) {x : SessionM ω₁ o.Answer} {y : SessionM ω₂ o.Answer}
    (hxy : SessionM.Alike L d (fun a => K.promises o a ∧ o.Tells d a) x y) :
    SessionM.Alike L d (K.promises o)
      (do let a ← x; SessionM.see see₁ (.answered o a); pure a)
      (do let a ← y; SessionM.see see₂ (.answered o a); pure a) := by
  refine hxy.bind fun a ha => ?_
  refine (alike_see fun _ _ _ hs => h.answered helse ho ha.1 ha.2 hs).bind fun _ _ => ?_
  exact alike_pure ha.1

/-- Every operation is answered alike: as it is promised, and right about the depth. -/
theorem answerSeen_alike (h : e₁.Agree L K see₁ see₂ e₂)
    (hn : ∀ r, K.context r.context → SessionM.Alike L d (fun _ => True) (nested₁ r) (nested₂ r))
    (o : RenderOp) (ho : K.allows o) :
    SessionM.Alike L d (K.promises o) (e₁.answerSeen see₁ nested₁ d o)
      (e₂.answerSeen see₂ nested₂ d o) := by
  cases o with
  | functions scope id owner script => exact h.functions d scope id owner script ho
  | object id =>
    refine seen_alike h ho trivial ((alike_callOrReport (h.object d id)).mono fun _ hfound => ?_)
    exact ⟨hfound, trivial⟩
  | dialog objectId =>
    refine seen_alike h ho trivial ?_
    exact (alike_callOrReport (h.dialog d objectId)).bind fun _ hfound =>
      alike_pure ⟨hfound, trivial⟩
  | languageKey r =>
    refine seen_alike h ho trivial ?_
    exact (alike_callOrReport (h.languageKey d r ho)).bind fun _ _ => alike_pure ⟨trivial, trivial⟩
  | «recall» scope id =>
    refine seen_alike h ho trivial (alike_get_bind fun s₁ s₂ hl hs => ?_)
    have hm : s₁.memo = s₂.memo := L.memo hs
    rw [← hm]
    exact alike_pure ⟨trivial, trivial⟩ s₁ s₂ hl hs
  | keep scope id fs =>
    refine seen_alike h ho trivial (Alike.mono (P := fun _ => True) ?_ fun _ _ => ⟨trivial, trivial⟩)
    refine alike_modify fun s₁ s₂ hl hs => ⟨hl, ?_⟩
    exact h.keep ho hs
  | artifact kind c label =>
    refine seen_alike h ho trivial ?_
    exact (artifact_alike h hn kind ho label).mono fun _ _ => ⟨trivial, trivial⟩
  | nested r => exact seen_alike h ho trivial ((hn r ho).mono fun _ _ => ⟨trivial, trivial⟩)
  | record kind detail =>
    exact seen_alike h ho trivial ((alike_record kind detail).mono fun _ _ => ⟨trivial, trivial⟩)
  | enter label =>
    exact seen_alike h ho trivial ((alike_enter label).mono fun _ _ => ⟨trivial, trivial⟩)
  | leave scope =>
    exact seen_alike h ho trivial ((alike_leave scope).mono fun _ _ => ⟨trivial, trivial⟩)
  | settings =>
    refine seen_alike h ho trivial ?_
    show SessionM.Alike L d _ (pure e₁.services.escape) (pure e₂.services.escape)
    rw [h.escape]
    exact alike_pure ⟨trivial, trivial⟩
  | depth => exact seen_alike h ho trivial (alike_pure ⟨trivial, rfl⟩)
  | cancel =>
    refine seen_alike h ho trivial ?_
    exact (alike_cancel fun a b => h.cancel ho).mono fun _ _ => ⟨trivial, trivial⟩

/-! ## 3. Renders -/

theorem attemptSeen_alike (h : e₁.Agree L K see₁ see₂ e₂)
    {answer₁ : (o : RenderOp) → SessionM ω₁ o.Answer}
    {answer₂ : (o : RenderOp) → SessionM ω₂ o.Answer}
    (ha : ∀ o, K.allows o → SessionM.Alike L d (K.promises o) (answer₁ o) (answer₂ o))
    (kind : ArtifactKind) {c : RenderContext} (t : Text) {r : Resolver}
    (hr : (r.resolve kind c t).Keeps K) :
    SessionM.Alike L d (fun _ => True) (attemptSeen see₁ answer₁ kind c t r)
      (attemptSeen see₂ answer₂ kind c t r) := by
  refine alike_checkpoint_bind fun s₁ s₂ hl hs h₁ h₂ => ?_
  have hsee : EndAlike L d (fun _ => True) (see see₁ (.resolver kind r.name t) s₁)
      (see see₂ (.resolver kind r.name t) s₂) :=
    .goesOn rfl (fun _ _ => trivial) (fun _ he => by cases he) hl
      (same_seen hl fun _ => h.resolver hs h₁ h₂)
  refine hsee.bind fun _ _ => ?_
  -- the checkpoint of the attempt itself, and then what the resolver does
  refine alike_checkpoint_bind fun s₁ s₂ hl hs _ _ => ?_
  refine ((run_alike ha h.fails hr).tryCatch (fun err herr => ?_) ?_) s₁ s₂ hl hs
  · cases err with
    | cancelled => exact alike_throw herr
    | _ => exact (alike_record _ _).bind fun _ _ => alike_pure trivial
  · rfl

theorem passSeen_alike (h : e₁.Agree L K see₁ see₂ e₂)
    {answer₁ : (o : RenderOp) → SessionM ω₁ o.Answer}
    {answer₂ : (o : RenderOp) → SessionM ω₂ o.Answer}
    (ha : ∀ o, K.allows o → SessionM.Alike L d (K.promises o) (answer₁ o) (answer₂ o))
    (kind : ArtifactKind) {c : RenderContext} (hc : K.context c) (t : Text) :
    SessionM.Alike L d (fun _ => True) (e₁.passSeen see₁ answer₁ kind c t)
      (e₂.passSeen see₂ answer₂ kind c t) := by
  have hv : e₁.validate t = e₂.validate t := by
    unfold validate families
    rw [h.resolvers]
  have hr : e₁.applicable kind = e₂.applicable kind := by
    unfold applicable
    rw [h.resolvers]
  unfold passSeen
  rw [hv, ← hr]
  refine (alike_forM fun i _ => alike_record _ _).bind fun _ _ => alike_foldlM (fun t r hr => ?_) t
  exact attemptSeen_alike h ha kind t (h.keeps r (List.mem_filter.1 hr).1 kind c t hc)

/-- Nested renders, by induction on the levels left. -/
theorem nestedSeen_alike (h : e₁.Agree L K see₁ see₂ e₂) (left : Nat) (hd : left = e₁.maxDepth - d)
    (r : RenderRequest) (hr : K.context r.context) :
    SessionM.Alike L d (fun _ => True) (e₁.nestedSeen see₁ left r) (e₂.nestedSeen see₂ left r) := by
  induction left generalizing d r with
  | zero =>
    unfold nestedSeen
    rw [h.maxDepth]
    exact alike_checkpoint_bind fun s₁ s₂ hl hs _ _ => alike_pure trivial s₁ s₂ hl hs
  | succ left ih =>
    have hdepth : e₁.maxDepth - left = d + 1 := by omega
    have hlt : d < e₁.maxDepth := by omega
    unfold nestedSeen
    rw [← h.maxDepth, hdepth]
    refine alike_checkpoint_bind fun s₁ s₂ hl hs h₁ h₂ => ?_
    have hd' : left = e₁.maxDepth - (d + 1) := by omega
    have hinner := passSeen_alike h (answerSeen_alike h (ih hd')) r.kind hr r.text
    have hbegins : L.same (d + 1) (s₁.seen see₁ (.begins r)).shared (s₂.seen see₂ (.begins r)).shared :=
      same_seen hl fun _ => h.begins hlt hs h₁ h₂
    have hnest := (hinner.isolated r.label).nesting (fun _ _ _ => h.ends hs) (fun _ _ => h.stopped)
      hl hbegins
    exact hnest.bind fun t _ => alike_pure trivial

/-- How two renders end: alike, or the first was stopped. -/
inductive Ending (L : Likeness ω₁ ω₂) (x : Except RenderError RenderOutput × ω₁)
    (y : Except RenderError RenderOutput × ω₂) : Prop where
  | goesOn (result : x.1 = y.1) (failed : ∀ e, x.1 = .error e → L.fails e)
      (same : ∃ a b, L.same 0 a b ∧ a.world = x.2 ∧ b.world = y.2)
  | stops (result : x.1 = .error .cancelled) (stopped : ∃ a, L.stopped a ∧ a.world = x.2)

theorem renderSeen_eq {ω : Type} (e : Engine ω) (see : Observer ω) (kind : ArtifactKind)
    (c : RenderContext) (t : Text) (w : ω) (cancelled : Bool) :
    e.renderSeen see kind c t w cancelled =
      let s := e.passSeen see (e.answerSeen see (e.nestedSeen see e.maxDepth) 0) kind c t
        (Session.start w cancelled)
      (s.1.map fun t => ⟨t, s.2.log.entries⟩, s.2.world) := rfl

theorem render_eq {ω : Type} (e : Engine ω) (kind : ArtifactKind) (c : RenderContext) (t : Text) (w : ω)
    (cancelled : Bool) :
    e.render kind c t w cancelled =
      let s := e.passWith (e.answer (e.nested e.maxDepth) 0) kind c t (Session.start w cancelled)
      (s.1.map fun t => ⟨t, s.2.log.entries⟩, s.2.world) := by
  unfold render pass
  rw [Nat.sub_self]
  rfl

/-- **Whole renders go alike**: the same text and the same diagnostics, or the first was stopped. -/
theorem renderSeen_alike (h : e₁.Agree L K see₁ see₂ e₂) (kind : ArtifactKind) {c : RenderContext}
    (hc : K.context c) (t : Text) {w₁ : ω₁} {w₂ : ω₂} {cancelled₁ cancelled₂ : Bool}
    (hw : L.same 0 ⟨w₁, .empty, cancelled₁⟩ ⟨w₂, .empty, cancelled₂⟩) :
    Ending L (e₁.renderSeen see₁ kind c t w₁ cancelled₁)
      (e₂.renderSeen see₂ kind c t w₂ cancelled₂) := by
  have hn := nestedSeen_alike h e₁.maxDepth (Nat.sub_zero _).symm
  have hpass := passSeen_alike h (answerSeen_alike h hn) kind hc t
    (Session.start w₁ cancelled₁) (Session.start w₂ cancelled₂) rfl hw
  rw [renderSeen_eq, renderSeen_eq, ← h.maxDepth]
  cases hpass with
  | goesOn result given failed log same =>
    refine .goesOn ?_ (fun e he => ?_) ⟨_, _, same, rfl, rfl⟩
    · dsimp only
      rw [result, log]
    · exact failed e (eq_error_of_map he)
  | stops result stopped =>
    refine .stops ?_ ⟨_, stopped, rfl⟩
    dsimp only
    rw [result]
    rfl

end Agreement
end Engine

/-! ## 4. Worlds that stay related -/

/-- Renders that differ in their worlds only, and those stay related. -/
def Likeness.worlds (R : Nat → FunctionMemo → ω₁ → ω₂ → Prop) : Likeness ω₁ ω₂ where
  same d a b := a.memo = b.memo ∧ a.cancelled = b.cancelled ∧ R d a.memo a.world b.world
  stopped _ := False
  fails _ := True
  checkpoint h := .inl ⟨h.2.1, fun _ => trivial⟩
  memo h := h.1

/-- Two replies that say the same, and what they give is as it should be. -/
structure Reply.Alike (R : ω₁ → ω₂ → Prop) (Q : α → Prop) (r₁ : Reply ω₁ α) (r₂ : Reply ω₂ α) :
    Prop where
  result : r₁.result = r₂.result
  given : ∀ a, r₁.result = .ok a → Q a
  cancels : r₁.cancels = r₂.cancels
  world : R r₁.world r₂.world

/-- Two calls that answer alike. -/
def Call.Alike (R : ω₁ → ω₂ → Prop) (Q : α → Prop) (c₁ : Call ω₁ α) (c₂ : Call ω₂ α) : Prop :=
  ∀ w₁ w₂, R w₁ w₂ → Reply.Alike R Q (c₁ w₁) (c₂ w₂)

/-- Collaborators that answer alike and as a contract promises. -/
structure Services.Alike (R : ω₁ → ω₂ → Prop) (K : Contract) (s₁ : Services ω₁)
    (s₂ : Services ω₂) : Prop where
  object : ∀ id, Call.Alike R (K.object id) (s₁.object id) (s₂.object id)
  dialog : ∀ id, Call.Alike R (fun found => ∀ d, found = some d → K.dialog id d) (s₁.dialog id)
    (s₂.dialog id)
  languageKey : ∀ r, K.key r → Call.Alike R (fun _ => True) (s₁.languageKey r) (s₂.languageKey r)
  functions : ∀ owner script,
    Call.Alike R (fun _ => True) (s₁.functions owner script) (s₂.functions owner script)
  template : ∀ projectId kind,
    Call.Alike R (fun _ => True) (s₁.template projectId kind) (s₂.template projectId kind)
  projectId : s₁.projectId = s₂.projectId
  escape : s₁.escape = s₂.escape

/-- Engines with the same resolvers, which keep to a contract, and collaborators that answer
    alike. -/
structure Engine.Alike (R : ω₁ → ω₂ → Prop) (K : Contract) (e₁ : Engine ω₁) (e₂ : Engine ω₂) :
    Prop where
  resolvers : e₁.resolvers = e₂.resolvers
  maxDepth : e₁.maxDepth = e₂.maxDepth
  services : e₁.services.Alike R K e₂.services
  keeps : ∀ r ∈ e₁.resolvers, r.Keeps K

variable {R : ω₁ → ω₂ → Prop} {K : Contract} {e₁ : Engine ω₁} {e₂ : Engine ω₂}

theorem Call.Alike.answersAlike {Q : α → Prop} {c₁ : Call ω₁ α} {c₂ : Call ω₂ α}
    (h : Call.Alike R Q c₁ c₂) (d : Nat) {P : Option α → Prop} (hsome : ∀ a, Q a → P (some a))
    (hnone : P none) : (Likeness.worlds fun _ _ => R).AnswersAlike d P c₁ c₂ := by
  rintro a b ⟨hmemo, hcancelled, hw⟩ - -
  obtain ⟨result, given, cancels, world⟩ := h a.world b.world hw
  refine ⟨result, ?_, hmemo, ?_, world⟩
  · cases hr : (c₁ a.world).result with
    | ok x => exact hsome x (given x hr)
    | error e => exact hnone
  · show (a.cancelled || (c₁ a.world).cancels) = (b.cancelled || (c₂ b.world).cancels)
    rw [hcancelled, cancels]

namespace Engine

theorem Alike.agree (h : e₁.Alike R K e₂) :
    e₁.Agree (.worlds fun _ _ => R) K .blind .blind e₂ where
  resolvers := h.resolvers
  maxDepth := h.maxDepth
  projectId := h.services.projectId
  escape := h.services.escape
  keeps := h.keeps
  fails _ _ := trivial
  cancel _ _ _ _ hs := ⟨hs.1, rfl, hs.2.2⟩
  keep _ hs := ⟨congrArg (FunctionMemo.insert · _ _ _) hs.1, hs.2⟩
  object d id := (h.services.object id).answersAlike d
    (fun a ha o ho => by cases ho; exact ha) (fun o ho => by cases ho)
  dialog d id := (h.services.dialog id).answersAlike d (fun _ ha => ha) (fun x hx => by cases hx)
  languageKey d r hr := (h.services.languageKey r hr).answersAlike d (fun _ _ => trivial) trivial
  functions d scope id owner script _ :=
    functionsSeen_alike (fun _ _ _ hs => ⟨congrArg (FunctionMemo.insert · _ _ _) hs.1, hs.2⟩)
      ((h.services.functions owner script).answersAlike d (fun _ _ => trivial) trivial)
      fun _ _ _ _ hs => hs
  template d projectId kind := (h.services.template projectId kind).answersAlike d
    (fun _ _ => trivial) trivial
  resolver hs _ _ := hs
  begins _ hs _ _ := hs
  ends _ hs := hs
  stopped hs := hs
  answered _ _ _ _ hs := hs

/-- **Renders go alike whose worlds are related**: the same text and the same diagnostics, and the
    worlds afterwards are related. -/
theorem render_alike (h : e₁.Alike R K e₂) (kind : ArtifactKind) {c : RenderContext}
    (hc : K.context c) (t : Text) {w₁ : ω₁} {w₂ : ω₂} (hw : R w₁ w₂) (cancelled : Bool) :
    (e₁.render kind c t w₁ cancelled).1 = (e₂.render kind c t w₂ cancelled).1 ∧
      R (e₁.render kind c t w₁ cancelled).2 (e₂.render kind c t w₂ cancelled).2 := by
  rw [← renderSeen_blind, ← renderSeen_blind]
  have hstart : (Likeness.worlds fun _ _ => R).same 0 ⟨w₁, .empty, cancelled⟩
      ⟨w₂, .empty, cancelled⟩ := ⟨rfl, rfl, hw⟩
  cases renderSeen_alike h.agree kind hc t hstart with
  | goesOn result _ same =>
    obtain ⟨a, b, ⟨-, -, hw'⟩, ha, hb⟩ := same
    rw [ha, hb] at hw'
    exact ⟨result, hw'⟩
  | stops _ stopped => exact stopped.elim fun _ hs => hs.1.elim

end Engine

/-! ## 5. Journals -/

/-- A world with a journal beside it, and the same world. -/
def Likeness.journaling (ω σ : Type) : Likeness (ω × σ) ω := .worlds fun _ _ v w => v.1 = w

/-- Calls that are seen beside the world answer as those that are not. -/
theorem answersAlike_journaling {d : Nat} (see : Observer σ) (made : Except ServiceError α → CallMade)
    (c : Call ω α) {P : Option α → Prop} (hP : ∀ r, P r) :
    (Likeness.journaling ω σ).AnswersAlike d P (c.onLeft.seen see.beside made) c := by
  rintro ⟨⟨w, a⟩, memo, cancelled⟩ ⟨_, _, _⟩ ⟨rfl, rfl, rfl⟩ - -
  exact ⟨rfl, hP _, rfl, rfl, rfl⟩

namespace Engine

theorem agree_journaling (e : Engine ω) (see : Observer σ) :
    (e.journaling see).Agree (.journaling ω σ) .any see.beside .blind e where
  resolvers := rfl
  maxDepth := rfl
  projectId := rfl
  escape := rfl
  keeps r _ kind c t _ := (r.resolve kind c t).keepsTo_any
  fails _ _ := trivial
  cancel _ _ _ _ hs := ⟨hs.1, rfl, hs.2.2⟩
  keep _ hs := ⟨congrArg (FunctionMemo.insert · _ _ _) hs.1, hs.2⟩
  object _ _ := answersAlike_journaling see _ _ fun _ _ _ => trivial
  dialog _ _ := answersAlike_journaling see _ _ fun _ _ _ => trivial
  languageKey _ _ _ := answersAlike_journaling see _ _ fun _ => trivial
  functions _ _ _ _ _ _ :=
    functionsSeen_alike (fun _ _ _ hs => ⟨congrArg (FunctionMemo.insert · _ _ _) hs.1, hs.2⟩)
      (answersAlike_journaling see _ _ fun _ => trivial) fun _ _ _ _ hs => hs
  template _ _ _ := answersAlike_journaling see _ _ fun _ => trivial
  resolver hs _ _ := hs
  begins _ hs _ _ := hs
  ends _ hs := hs
  stopped hs := hs
  answered _ _ _ _ hs := hs

/-- **A render with a journal is the render itself**, whatever is written into the journal. -/
theorem journal_fst (e : Engine ω) (see : Observer σ) (a : σ) (kind : ArtifactKind) (c : RenderContext)
    (t : Text) (w : ω) (cancelled : Bool) :
    ((e.journal see a kind c t w cancelled).1, (e.journal see a kind c t w cancelled).2.1) =
      e.render kind c t w cancelled := by
  have hstart : (Likeness.journaling ω σ).same 0 ⟨(w, a), .empty, cancelled⟩ ⟨w, .empty, cancelled⟩ :=
    ⟨rfl, rfl, rfl⟩
  have hend := renderSeen_alike (e.agree_journaling see) kind (c := c) trivial t hstart
  rw [renderSeen_blind] at hend
  cases hend with
  | goesOn result _ same =>
    obtain ⟨v, w', ⟨-, -, hw⟩, hv, hw'⟩ := same
    rw [hv, hw'] at hw
    exact Prod.ext result hw
  | stops _ stopped => exact stopped.elim fun _ hs => hs.1.elim

/-- A transcript changes nothing. -/
theorem transcribed_fst (e : Engine ω) (kind : ArtifactKind) (c : RenderContext) (t : Text) (w : ω)
    (cancelled : Bool) :
    ((e.transcribed kind c t w cancelled).1, (e.transcribed kind c t w cancelled).2.1) =
      e.render kind c t w cancelled := e.journal_fst .writer [] kind c t w cancelled

end Engine
end RecordExport

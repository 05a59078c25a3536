import RecordExport.Proofs.Lookups.Sparing
import RecordExport.Proofs.Snippets.Functions
/-!
# Renders whose lookups fail

A language key or a script that cannot be had leaves its own placeholder blank and nothing else. So a
render of the standard resolvers comes to the same text as with blank answers, and it reports one entry
more for each lookup that failed.

* `Engine.failedLookups_standard`: that is so for every set of keys that cannot be had and every set of
  scripts that always fail, as long as scripts whose functions are kept under one id fail all or not at
  all. What is kept for a blank answer is kept for the other scripts with this id too, and a failure keeps
  nothing;
* `failsTogether_of_apart`: that holds where the ids of snippets, joined to their objects', and the ids
  of events tell scripts apart.
-/

namespace RecordExport

variable {ω : Type}

/-! ## 1. The cast of a subject -/

/-- The objects a subject shows; of a step of a dialog its owner. -/
def Subject.shown : Subject → List GameObject
  | .object o => [o]
  | .objects os => os
  | .dialogStep s => [⟨s.ownerId, s.ownerName, .npc, [], [], [], [], []⟩]
  | _ => []

/-- The cast of a render of a subject over collaborators: what it shows and all objects that can be
    found. -/
def Services.castOf (s : Services ω) (subject : Subject) : Cast where
  shows v := v ∈ subject.shown ∨ ∃ id w, (s.object id w).result = .ok v
  object id v := ∃ w, (s.object id w).result = .ok v
  dialog _ _ := True
  source _ _ := True
  shows_of_object h := .inr ⟨_, h⟩
  source_name _ := trivial
  source_field _ := trivial
  source_node _ _ _ := trivial

theorem Services.renders_castOf (s : Services ω) (subject : Subject) :
    (s.castOf subject).Renders subject := by
  cases subject with
  | object v => exact Cast.view_of_shows (.inl (List.mem_singleton_self v))
  | objects vs => exact fun v hv => Cast.view_of_shows (.inl hv)
  | dialogStep step =>
    let d : Dialog := ⟨step.dialogId, step.ownerId, [step.node]⟩
    exact ⟨_, d, .inl (List.mem_singleton_self _), rfl, rfl, trivial, List.mem_singleton_self _⟩
  | _ => trivial

/-- Collaborators answer as the cast of a subject promises. -/
theorem Services.FailsAt.castOf {R : ω → ω → Prop} {fails : String → Script → Bool}
    {s : Services ω} (h : s.FailsAt R .any fails) (subject : Subject) :
    s.FailsAt R (s.castOf subject).contract fails where
  alike :=
    { object := fun id w₁ w₂ hw =>
        { h.alike.object id w₁ w₂ hw with given := fun _ ho => ⟨w₁, ho⟩ }
      dialog := h.alike.dialog
      languageKey := fun r _ => h.alike.languageKey r trivial
      functions := h.alike.functions
      template := h.alike.template
      projectId := rfl
      escape := rfl }
  error := h.error
  goesOn := h.goesOn
  world := h.world

/-- Calls in one world answer alike. -/
theorem Services.alike_eq (s : Services ω) : s.Alike Eq .any s where
  object _ _ _ h := ⟨by rw [h], fun _ _ => trivial, by rw [h], by rw [h]⟩
  dialog _ _ _ h := ⟨by rw [h], fun _ _ _ _ => trivial, by rw [h], by rw [h]⟩
  languageKey _ _ _ _ h := ⟨by rw [h], fun _ _ => trivial, by rw [h], by rw [h]⟩
  functions _ _ _ _ h := ⟨by rw [h], fun _ _ => trivial, by rw [h], by rw [h]⟩
  template _ _ _ _ h := ⟨by rw [h], fun _ _ => trivial, by rw [h], by rw [h]⟩
  projectId := rfl
  escape := rfl

/-! ## 2. Scripts with one id -/

/-- Scripts whose functions are kept under one scope and id fail all or not at all. -/
def Cast.FailsTogether (C : Cast) (fails : String → Script → Bool) : Prop :=
  ∀ scope id owner script owner' script', C.Scripted scope id owner script →
    C.Scripted scope id owner' script' → fails owner script = fails owner' script'

theorem Cast.FailsTogether.contract {C : Cast} {fails : String → Script → Bool}
    (h : C.FailsTogether fails) : C.contract.FailsTogether fails where
  «recall» := by
    rintro _ id owner script rfl hs
    exact hs
  script := h _ _ _ _ _ _

/-- Ids tell scripts apart: snippets under their objects' ids, events under their own. -/
structure TellsScriptsApart (shows : GameObject → Prop) : Prop extends
    TellsSnippetsApart shows where
  events : ∀ o o' e e', shows o → shows o' → e ∈ o.dailyRoutine → e' ∈ o'.dailyRoutine →
    e.id = e'.id → o.name = o'.name ∧ e.script = e'.script

/-- **Scripts that are told apart fail as they like.** -/
theorem failsTogether_of_apart {C : Cast} (h : TellsScriptsApart C.shows)
    (fails : String → Script → Bool) : C.FailsTogether fails := by
  intro scope id owner script owner' script' hs hs'
  cases scope with
  | dialog => exact hs.elim
  | snippet =>
    obtain ⟨o, ho, rfl, s, hs, rfl, rfl⟩ := hs
    obtain ⟨o', ho', rfl, s', hs', hid, rfl⟩ := hs'
    obtain ⟨hobject, hsnippet⟩ := joined_inj (h.slashless o ho) (h.slashless o' ho') hid
    obtain rfl := h.objects o o' ho ho' hobject
    obtain rfl := List.inj_on_of_nodup_map (h.snippets o ho) hs hs' hsnippet
    rfl
  | event =>
    obtain ⟨o, ho, rfl, e, he, rfl, hscript⟩ := hs
    obtain ⟨o', ho', rfl, e', he', hid, hscript'⟩ := hs'
    obtain ⟨hname, hevent⟩ := h.events o o' e e' ho ho' he he' hid
    rw [hscript, hscript'] at hevent
    rw [hname, Option.some.inj hevent]

/-! ## 3. Renders -/

theorem Engine.endsScriptless_standard (C : Cast) (services : Services ω) (maxDepth : Nat) :
    (Engine.standard services maxDepth).EndsScriptless C.contract where
  keeps := keeps_standard services maxDepth
  last := scriptless_getLast_standard services maxDepth

/-- **How a render whose lookups fail ends beside the one with blank answers**: with the same text, and
    its diagnostics are those of the other with one entry put in for each failure; or both are
    cancelled. -/
inductive SparesRender (notes : List FailedLookup) :
    Except RenderError Engine.RenderOutput → Except RenderError Engine.RenderOutput → Prop where
  | rendered (text : Text) {ds blank : List Diagnostic}
      (h : Interleaved (notes.map (·.diagnostic)) blank ds) :
      SparesRender notes (.ok ⟨text, ds⟩) (.ok ⟨text, blank⟩)
  | cancelled : SparesRender notes (.error .cancelled) (.error .cancelled)

namespace Engine

/-- Only cancellation leaves a render without a text. -/
theorem eq_cancelled_of_passWith {e : Engine ω} {answer : (o : RenderOp) → SessionM ω o.Answer}
    {kind : ArtifactKind} {c : RenderContext} {t : Text} {s : Session ω} {err : RenderError}
    (h : (e.passWith answer kind c t s).1 = .error err) : err = .cancelled := by
  unfold passWith at h
  rw [SessionM.bind_apply, forM_record] at h
  obtain ⟨us, hus⟩ := exists_pipeline answer kind c (e.applicable kind) t (e.reported t s)
  exact hus.eq_cancelled h

/-- **A render whose lookups fail beside the one with blank answers.** -/
theorem render_spares {B : Blanks ω} {e : Engine ω} (he : e.EndsScriptless B.contract)
    (hs : e.services.FailsAt B.worlds B.contract B.fails) (hB : B.contract.FailsTogether B.fails)
    (kind : ArtifactKind) {c : RenderContext} (hc : B.contract.context c) (t : Text) {w : ω}
    (hw : B.worlds w w) (cancelled : Bool) :
    SparesRender (e.renderNoting B.fails kind c t w cancelled).2.2
      (e.renderNoting B.fails kind c t w cancelled).1
      ((e.blanked B.fails).render kind c t w cancelled).1 := by
  have hstart : B.Twins [] [] (Session.start (w, .empty) cancelled) (Session.start w cancelled) :=
    ⟨hw, rfl, rfl, .refl _, [], rfl, .nil⟩
  have hpass := passWith_spares 0 he hs hB (nested_spares he hs hB e.maxDepth []) kind hc
    t [] _ _ hstart
  have hmax : (e.blanked B.fails).maxDepth = e.maxDepth := rfl
  rw [render_eq, renderNoting_eq, hmax]
  dsimp only
  cases hpass with
  | stops result stopped =>
    rw [result, stopped.resolve_right fun h => h.1]
    exact .cancelled
  | goesOn result given twins =>
    obtain ⟨fs, hfs, hlogs⟩ := twins.notes
    have hunder : [] ++ fs.map (·.under (Notebook.outer [])) = fs := List.map_id fs
    rw [hunder] at hfs
    rw [hfs, ← result]
    cases hx : ((e.noting B.fails).passWith ((e.noting B.fails).answerSeen B.noter
        ((e.noting B.fails).nestedSeen B.noter e.maxDepth) 0) kind c t
          (Session.start (w, .empty) cancelled)).1 with
    | ok text => exact .rendered text hlogs
    | error err =>
      obtain rfl := eq_cancelled_of_passWith hx
      exact .cancelled

/-- **A lookup that fails only blanks its own placeholder.** Whatever keys cannot be had, and whatever
    scripts always fail, those with one id together: a render of the standard resolvers has the text it
    has with empty keys and without functions in their places, and one entry more for each lookup that
    failed, under the labels active there. -/
theorem failedLookups_standard {R : ω → ω → Prop} {fails : String → Script → Bool}
    {services : Services ω} (hfails : services.FailsAt R .any fails) (maxDepth : Nat)
    (kind : ArtifactKind) (c : RenderContext) (t : Text)
    (htogether : (services.castOf c.subject).FailsTogether fails) {w : ω} (hw : R w w)
    (cancelled : Bool) :
    let e := Engine.standard services maxDepth
    let noting := e.renderNoting fails kind c t w cancelled
    let blank := (Engine.standard (services.blanked fails) maxDepth).render kind c t w cancelled
    (noting.1, noting.2.1) = e.render kind c t w cancelled ∧
      SparesRender noting.2.2 noting.1 blank.1 := by
  intro e noting blank
  let B : Blanks ω := ⟨R, (services.castOf c.subject).contract, fails⟩
  have he : e.EndsScriptless B.contract := endsScriptless_standard _ services maxDepth
  exact ⟨e.renderNoting_fst fails kind c t w cancelled,
    render_spares he (hfails.castOf c.subject) htogether.contract kind
      (services.renders_castOf c.subject) t hw cancelled⟩

/-- Collaborators over the talker and its sword, without keys and without functions for the talker's
    scripts. -/
def muteServices : Services KeyTable :=
  { Services.inMemory ⟨[talker, sword], []⟩ .builtIn .standard with
    languageKey := fun _ => .pure (.error (.notFound "language key" "any"))
    functions := fun owner script =>
      if owner = talker.name then .pure (.error (.unavailable "no generator"))
      else .pure (.ok (scriptFunctions owner script)) }

/-- The scripts that fail there. -/
def muteScripts (owner : String) (_ : Script) : Bool := owner = talker.name

theorem functions_mute {owner : String} {script : Script} (h : muteScripts owner script = true) :
    muteServices.functions owner script = .pure (.error (.unavailable "no generator")) :=
  if_pos (of_decide_eq_true h)

theorem failsAt_mute : muteServices.FailsAt Eq .any muteScripts where
  alike := muteServices.alike_eq
  error h w := ⟨.unavailable "no generator", by rw [functions_mute h]; rfl⟩
  goesOn h w := by
    rw [functions_mute h]
    rfl
  world h w₁ w₂ hw := by
    rw [functions_mute h]
    exact hw

theorem tellsScriptsApart_mute :
    TellsScriptsApart (muteServices.castOf (.object talker)).shows := by
  have hshows : (muteServices.castOf (.object talker)).shows = fun o => o = talker ∨
      ∃ id w, ((Services.inMemory ⟨[talker, sword], []⟩ .builtIn .standard).object id w).result =
        .ok o := by
    funext o
    exact congrArg (· ∨ _) (propext List.mem_singleton)
  rw [hshows]
  refine ⟨tellsSnippetsApart_talker, fun o o' e e' ho ho' he _ _ => ?_⟩
  rcases ho with rfl | ⟨id, w, ho⟩
  · exact absurd he List.not_mem_nil
  · have hfound : o ∈ [talker, sword] := Project.mem_of_find ho
    rcases List.mem_cons.1 hfound with rfl | hsword
    · exact absurd he List.not_mem_nil
    · obtain rfl := List.mem_singleton.1 hsword
      exact absurd he List.not_mem_nil

theorem failedLookups_mute :
    let text := braced "Npc_Name_LangKey".toList ++ braced "Snippet_OnTalk_FunctionName".toList
    let noting := (Engine.standard muteServices 16).renderNoting muteScripts .npc (.ofObject talker)
      text .empty false
    let blank := (Engine.standard (muteServices.blanked muteScripts) 16).render .npc
      (.ofObject talker) text .empty false
    muteServices.FailsAt Eq .any muteScripts ∧
      (muteServices.castOf (.object talker)).FailsTogether muteScripts ∧
      SparesRender noting.2.2 noting.1 blank.1 := by
  intro text noting blank
  have htogether := failsTogether_of_apart tellsScriptsApart_mute muteScripts
  exact ⟨failsAt_mute, htogether,
    (failedLookups_standard failsAt_mute 16 .npc (.ofObject talker) text htogether rfl false).2⟩

-- snippets of two objects with one joined id, of which one fails
example :
    let o : GameObject := ⟨"a", "Goblin", .npc, [], [], [], [], [⟨"b/c", "OnTalk", "greet()"⟩]⟩
    let o' : GameObject := ⟨"a/b", "Sword", .item, [], [], [], [], [⟨"c", "OnSwing", "swing()"⟩]⟩
    let fails (owner : String) (_ : Script) : Bool := owner = "Goblin"
    o.snippets.map (o.id ++ "/" ++ ·.id) = o'.snippets.map (o'.id ++ "/" ++ ·.id) ∧
      o.snippets.map (fun s => fails o.name s.script) ≠
        o'.snippets.map (fun s => fails o'.name s.script) := by decide

end Engine
end RecordExport

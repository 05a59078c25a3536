import RecordExport.Proofs.LanguageKeys.Table
import RecordExport.Proofs.Render.Foreign
import RecordExport.Proofs.Render.Steps
/-!
# Programs that fetch keys

Where a text has places for language keys its resolver asks for them one after the other, and all the rest
it needs are the settings. What such a program comes to is told by the table alone: the keys of its requests,
and the table once they were answered.

* `KeyTable.Precedes`: tables on the way from one to another by requests; a key once given stays;
* `RenderProgram.Fetches`: the requests of a program and its result, with one rule for each way programs are
  put together;
* `Engine.render_of_fetches`: a render whose last resolver fetches keys, in a text that is foreign to the
  others;
* `Engine.precedes_render`: whatever is rendered, a table is only ever left by requests.
-/

namespace RecordExport

/-! ## 1. From table to table -/

namespace KeyTable

variable {t t' t'' : KeyTable} {i : String × Option String} {k : String} {r r' : KeyRequest}

/-- The table once requests were answered, one after the other. -/
def after (t : KeyTable) (rs : List KeyRequest) : KeyTable := (t.answered rs).2

theorem after_nil (t : KeyTable) : t.after [] = t := rfl

theorem after_append (t : KeyTable) (rs rs' : List KeyRequest) :
    t.after (rs ++ rs') = (t.after rs).after rs' := by
  induction rs' using List.reverseRecOn with
  | nil => rw [List.append_nil, after_nil]
  | append_singleton rs' r ih =>
    rw [← List.append_assoc]
    unfold after at ih ⊢
    rw [answered_concat, answered_concat, ih]

theorem after_cons (t : KeyTable) (r : KeyRequest) (rs : List KeyRequest) :
    t.after (r :: rs) = (t.request r).2.after rs := t.after_append [r] rs

/-- Requests lead from the one table to the other. -/
def Precedes (t t' : KeyTable) : Prop := ∃ rs, t' = t.after rs

theorem precedes_refl (t : KeyTable) : t.Precedes t := ⟨[], rfl⟩

theorem precedes_after (t : KeyTable) (rs : List KeyRequest) : t.Precedes (t.after rs) := ⟨rs, rfl⟩

theorem precedes_request (t : KeyTable) (r : KeyRequest) : t.Precedes (t.request r).2 := ⟨[r], rfl⟩

theorem Precedes.trans (h : t.Precedes t') (h' : t'.Precedes t'') : t.Precedes t'' := by
  obtain ⟨rs, rfl⟩ := h
  obtain ⟨rs', rfl⟩ := h'
  exact ⟨rs ++ rs', (t.after_append rs rs').symm⟩

theorem Precedes.consistent (h : t.Precedes t') (ht : t.Consistent) : t'.Consistent := by
  obtain ⟨rs, rfl⟩ := h
  exact (answers_answered ht rs).consistent

/-- A key once given stays. -/
theorem Precedes.keyOf (h : t.Precedes t') (hk : t.keyOf i = some k) : t'.keyOf i = some k := by
  obtain ⟨rs, rfl⟩ := h
  induction rs generalizing t with
  | nil => exact hk
  | cons r rs ih =>
    rw [after_cons]
    exact ih (keyOf_request_of_keyOf hk r)

/-- **Whoever asks for an identity later gets the same key.** -/
theorem Precedes.request_eq (h : (t.request r).2.Precedes t') (hid : r'.identity = r.identity) :
    (t'.request r').1 = (t.request r).1 := by
  have hk : (t.request r).2.keyOf r'.identity = some (t.request r).1 := by
    rw [keyOf_request, if_pos hid]
  rw [request_of_keyOf_eq_some (h.keyOf hk)]

end KeyTable

/-! ## 2. Programs -/

namespace RenderProgram

variable {settings : EscapeSettings} {α β : Type} {t T : KeyTable} {rs rs' : List KeyRequest}

/-- **A program fetches keys**: it asks for the settings and for the keys of these requests, one after the
    other, and comes to this result. -/
inductive Fetches (settings : EscapeSettings) :
    {α : Type} → RenderProgram α → KeyTable → List KeyRequest → α → Prop
  | done {α : Type} (a : α) (t : KeyTable) : Fetches settings (.done a) t [] a
  | settings {α : Type} {go : EscapeSettings → RenderProgram α} {t : KeyTable} {rs : List KeyRequest} {a : α}
      (h : Fetches settings (go settings) t rs a) : Fetches settings (.ask .settings go) t rs a
  | key {α : Type} {r : KeyRequest} {go : String → RenderProgram α} {t : KeyTable} {rs : List KeyRequest}
      {a : α} (h : Fetches settings (go (t.request r).1) (t.request r).2 rs a) :
      Fetches settings (.ask (.languageKey r) go) t (r :: rs) a

theorem Fetches.bind {p : RenderProgram α} {f : α → RenderProgram β} {a : α} {b : β}
    (hp : p.Fetches settings t rs a) (hf : (f a).Fetches settings (t.after rs) rs' b) :
    (p >>= f).Fetches settings t (rs ++ rs') b := by
  show (p.bind f).Fetches settings t (rs ++ rs') b
  induction hp with
  | done a t => exact hf
  | settings h ih => exact .settings (ih hf)
  | key h ih =>
    rw [KeyTable.after_cons] at hf
    exact .key (ih hf)

/-- What comes before asks for no key. -/
theorem Fetches.then {p : RenderProgram α} {f : α → RenderProgram β} {a : α} {b : β}
    (hp : p.Fetches settings t [] a) (hf : (f a).Fetches settings t rs b) :
    (p >>= f).Fetches settings t rs b := hp.bind hf

theorem fetches_pure (a : α) : (pure a : RenderProgram α).Fetches settings t [] a := .done a t

theorem fetches_escaped (value : Text) : (escaped value).Fetches settings t [] (settings.escape value) :=
  .settings (.done _ t)

theorem fetches_languageKey (r : KeyRequest) :
    (languageKey r).Fetches settings t [r] (t.request r).1.toList := .key (.done _ _)

/-- **A loop fetches what its turns fetch**, one after the other. What a turn comes to may depend on any table
    that is reached from where it ends, as the one the whole loop ends with. -/
theorem fetches_mapM {f : α → RenderProgram β} {asked : α → List KeyRequest} {g : α → β} {l : List α}
    (h : ∀ a ∈ l, ∀ t, (t.after (asked a)).Precedes T → (f a).Fetches settings t (asked a) (g a))
    (hT : (t.after (l.flatMap asked)).Precedes T) :
    (l.mapM f).Fetches settings t (l.flatMap asked) (l.map g) := by
  induction l generalizing t with
  | nil => exact fetches_pure []
  | cons a l ih =>
    rw [List.flatMap_cons, KeyTable.after_append] at hT
    rw [List.mapM_cons, List.flatMap_cons, List.map_cons, ← List.append_nil (l.flatMap asked)]
    have hhead := h a List.mem_cons_self t ((KeyTable.precedes_after _ _).trans hT)
    refine hhead.bind ((ih (fun a ha => h a (List.mem_cons_of_mem _ ha)) hT).bind ?_)
    exact fetches_pure _

/-- A key in the places of a text is asked for once for each of them. -/
theorem fetches_fillKey {name : String} {r : KeyRequest} {u : Text}
    (hT : (t.after ((scalarsIn (.literal name.toList) u).map fun _ => r)).Precedes T) :
    (fillKey name r u).Fetches settings t ((scalarsIn (.literal name.toList) u).map fun _ => r)
      (fill name .inline (T.request r).1.toList u) := by
  have hkey : ∀ t : KeyTable, (t.after [r]).Precedes T →
      (languageKey r).Fetches settings t [r] (T.request r).1.toList := by
    intro t ht
    rw [ht.request_eq rfl]
    exact fetches_languageKey r
  unfold fillKey fill
  rw [replaceScalarsM_eq, replaceScalars_eq, ← List.append_nil (List.map _ _)]
  rw [List.map_eq_flatMap] at hT ⊢
  exact (fetches_mapM (fun _ _ t ht => hkey t ht) hT).bind (fetches_pure _)

/-- Items that ask for no key are rendered without asking for one. -/
theorem fetches_items {items : List α} {render : α → RenderProgram Text} {given : α → Text}
    (h : ∀ a ∈ items, ∀ t, (render a).Fetches settings t [] (given a)) :
    (do let rendered ← items.mapM render; pure (joinItems rendered)).Fetches settings t []
      (joinItems (items.map given)) := by
  have hasked : (items.flatMap fun _ => ([] : List KeyRequest)) = [] := by simp
  have hloop : (items.mapM render).Fetches settings t (items.flatMap fun _ => []) (items.map given) :=
    fetches_mapM (fun a ha t _ => h a ha t) (by rw [hasked]; exact t.precedes_refl)
  rw [hasked] at hloop
  exact hloop.then (fetches_pure _)

/-- So are the lists of a text, by induction on what is left of it. -/
theorem fetches_expandBlocksM {items : List α} {f : BlockFamily}
    {render : α → ListPosition → Text → RenderProgram Text} {given : α → ListPosition → Text → Text}
    (h : ∀ a p inner t, (render a p inner).Fetches settings t [] (given a p inner)) (u : Text) :
    (expandBlocksM f u items render).Fetches settings t [] (expandBlocks f u items given) := by
  let renderAll (inner : Text) : RenderProgram Text := do
    let rendered ← (positioned items).mapM fun a => render a.1 a.2 inner
    pure (joinItems rendered)
  let givenAll (inner : Text) : Text := joinItems ((positioned items).map fun a => given a.1 a.2 inner)
  have hgiven : expandBlocks f u items given = expandFrom (m := Id) f givenAll [] u :=
    congrArg (fun g => expandFrom (m := Id) f g [] u)
      (funext fun inner => congrArg joinItems List.mapM_pure)
  have hitems : ∀ inner, (renderAll inner).Fetches settings t [] (givenAll inner) :=
    fun inner => fetches_items fun a _ t => h a.1 a.2 inner t
  have hwalk := walksBy_expandFrom f renderAll
  have hwalk' := walksBy_expandFrom (m := Id) f givenAll
  have hgo : ∀ n before (u : Text), u.length ≤ n →
      (expandFrom f renderAll before u).Fetches settings t [] (expandFrom (m := Id) f givenAll before u) := by
    intro n
    induction n using Nat.strong_induction_on with
    | _ n ih =>
      intro before u hn
      cases hfound : findBlock f (tokenize u) with
      | none =>
        rw [hwalk.ends hfound, hwalk'.ends hfound]
        exact fetches_pure _
      | some found =>
        have hlength := Block.length_ofMatch before hfound
        rw [source_tokenize] at hlength
        rw [hwalk.goes hfound, hwalk'.goes hfound]
        generalize Block.ofMatch before found = b at hlength ⊢
        have hstep : (expandStep renderAll b).Fetches settings t [] (b.head ++ givenAll b.inner, b.tail) :=
          (hitems b.inner).then (fetches_pure _)
        exact hstep.then (ih _ (by omega) (b.head ++ givenAll b.inner) b.tail (Nat.le_refl _))
  rw [hgiven]
  exact hgo u.length [] u (Nat.le_refl _)

end RenderProgram

/-! ## 3. Renders -/

namespace Engine

open SessionM

variable {σ α : Type} {settings : EscapeSettings}
  {answer : (o : RenderOp) → SessionM (KeyTable × σ) o.Answer} {t : KeyTable} {rs : List KeyRequest}

/-- Keys are answered from the table in the world, and these are the settings. -/
structure AnswersKeys (settings : EscapeSettings)
    (answer : (o : RenderOp) → SessionM (KeyTable × σ) o.Answer) : Prop where
  key : ∀ r s, s.cancelled = false → ∃ s', answer (.languageKey r) s = (.ok (s.world.1.request r).1, s') ∧
    s'.world.1 = (s.world.1.request r).2 ∧ s'.cancelled = false
  settings : ∀ s, s.cancelled = false → ∃ s', answer .settings s = (.ok settings, s') ∧
    s'.world.1 = s.world.1 ∧ s'.cancelled = false

/-- **A program that fetches keys runs to its result**, and leaves the table its requests leave. -/
theorem run_of_fetches (ha : AnswersKeys settings answer) {p : RenderProgram α} {a : α}
    (hp : p.Fetches settings t rs a) {s : Session (KeyTable × σ)} (hs : s.cancelled = false)
    (ht : s.world.1 = t) :
    ∃ s', run answer p s = (.ok a, s') ∧ s'.world.1 = t.after rs ∧ s'.cancelled = false := by
  induction hp generalizing s with
  | done a t => exact ⟨s, rfl, ht, hs⟩
  | settings h ih =>
    obtain ⟨s', hanswer, hworld, hs'⟩ := ha.settings s hs
    obtain ⟨s'', hrun, hend⟩ := ih hs' (hworld.trans ht)
    refine ⟨s'', ?_, hend⟩
    rw [run, bind_apply, hanswer]
    exact hrun
  | key h ih =>
    rename_i r go t rs a
    rw [KeyTable.after_cons]
    obtain ⟨s', hanswer, hworld, hs'⟩ := ha.key r s hs
    rw [ht] at hanswer hworld
    obtain ⟨s'', hrun, hend⟩ := ih hs' hworld
    refine ⟨s'', ?_, hend⟩
    rw [run, bind_apply, hanswer]
    exact hrun

variable {p : Project} {registry : TemplateRegistry} {config : Config} {n : Nat} {kind : ArtifactKind}
  {c : RenderContext} {text : Text}

theorem answersKeys_inMemory (nested : NestedRender (KeyTable × Transcript)) (depth : Nat) :
    AnswersKeys config.escape
      ((Engine.standard (Services.inMemory p registry config) n).transcribing.answerSeen .scribe nested
        depth) where
  key r s hs := by
    let e := (Engine.standard (Services.inMemory p registry config) n).transcribing
    let key := (s.world.1.request r).1
    let called : Session (KeyTable × Transcript) := { s with world := (e.services.languageKey r s.world).world }
    have hcall : callOrReport (e.services.languageKey r) s = (.ok (some key), { called with
        cancelled := s.cancelled || false }) := callOrReport_of_ok hs rfl
    have hanswer : e.answer nested depth (.languageKey r) s = (.ok key, called) := by
      show (callOrReport (e.services.languageKey r) >>= fun key => pure (key.getD "")) s = _
      rw [bind_apply, hcall, Bool.or_false]
      rfl
    exact ⟨_, answered_apply hanswer, rfl, hs⟩
  settings s hs := ⟨_, rfl, rfl, hs⟩

/-- A turn of a resolver whose program fetches keys. -/
theorem attemptSeen_of_fetches {answer : (o : RenderOp) → SessionM (KeyTable × Transcript) o.Answer}
    (ha : AnswersKeys settings answer) {r : Resolver} {a : Text}
    (hr : (r.resolve kind c text).Fetches settings t rs a) {s : Session (KeyTable × Transcript)}
    (hs : s.cancelled = false) (ht : s.world.1 = t) :
    ∃ s', attemptSeen .scribe answer kind c text r s = (.ok a, s') ∧ s'.world.1 = t.after rs := by
  obtain ⟨s', hrun, hworld, -⟩ := run_of_fetches ha hr
    (s := s.seen .scribe (.resolver kind r.name text)) hs ht
  refine ⟨s', ?_, hworld⟩
  have hseen : (s.seen .scribe (.resolver kind r.name text)).cancelled = false := hs
  rw [attemptSeen_apply hs, attempt_apply, if_neg (Bool.eq_false_iff.1 hseen), hrun]

/-- **A render ends with what its last resolver fetches the keys for**, if the others leave its text alone. -/
theorem render_of_fetches {others : List Resolver} {r : Resolver} {a : Text}
    (happlicable : (Engine.standard (Services.inMemory p registry config) n).applicable kind = others ++ [r])
    (hothers : ∀ r ∈ others, (r.resolve kind c text).LeavesAlone text)
    (hr : (r.resolve kind c text).Fetches config.escape t rs a) :
    ∃ diagnostics, (Engine.standard (Services.inMemory p registry config) n).render kind c text t false =
      (.ok ⟨a, diagnostics⟩, t.after rs) := by
  let e := Engine.standard (Services.inMemory p registry config) n
  let answer := e.transcribing.answerSeen .scribe (e.transcribing.nestedSeen .scribe n) 0
  let s := reported e.transcribing text (Session.start (t, []) false)
  let out := (e.applicable kind).foldlM (attemptSeen .scribe answer kind c) text s
  have hs : s.cancelled = false := rfl
  have ha : AnswersKeys config.escape answer := answersKeys_inMemory _ _
  have hown : AnswersOwn answer := answersOwn_answerSeen _ _ _
  obtain ⟨hgiven, T, -, -, hsees⟩ := foldlM_attemptSeen hown hothers hs
  obtain ⟨s', hlast, hworld⟩ := attemptSeen_of_fetches ha hr (hsees.cancelled.trans hs)
    (congrArg Prod.fst hsees.world)
  have hout : out = (.ok a, s') := by
    have hone : ∀ u, [r].foldlM (attemptSeen .scribe answer kind c) u = attemptSeen .scribe answer kind c u r :=
      fun u => bind_pure _
    show (e.applicable kind).foldlM (attemptSeen .scribe answer kind c) text s = _
    rw [show e.applicable kind = others ++ [r] from happlicable, List.foldlM_append, bind_apply, hgiven]
    exact (congrFun (hone text) _).trans hlast
  have hrender : e.transcribed kind c text t false =
      (out.1.map fun t => ⟨t, out.2.log.entries⟩, out.2.world) := transcribed_apply e kind c text t
  have htranscript := e.transcribed_fst kind c text t false
  refine ⟨s'.log.entries, ?_⟩
  rw [← htranscript, hrender, hout, hworld]
  rfl

/-! ## 4. Whatever is rendered -/

/-- A step leaves the table by requests alone. -/
abbrev Asks {α : Type} (x : SessionM KeyTable α) : Prop :=
  Leads (fun s s' : Session KeyTable => s.world.Precedes s'.world) x

theorem stepRelation_precedes : StepRelation fun s s' : Session KeyTable => s.world.Precedes s'.world where
  refl s := s.world.precedes_refl
  trans := KeyTable.Precedes.trans
  within _ h := h
  isolated _ h := h

theorem lead_inMemory : (Services.inMemory p registry config).Lead fun s s' => s.world.Precedes s'.world where
  object _ := leads_call stepRelation_precedes fun s => s.world.precedes_refl
  dialog _ := leads_call stepRelation_precedes fun s => s.world.precedes_refl
  languageKey r := leads_call stepRelation_precedes fun s => s.world.precedes_request r
  template _ _ := leads_call stepRelation_precedes fun s => s.world.precedes_refl
  report _ := leads_modify fun s => s.world.precedes_refl

section Standard

variable {nested : NestedRender KeyTable} {depth : Nat}

/-- A pass leaves the table by requests alone, if the renders in it do. -/
theorem asks_passWith (hn : ∀ r, Asks (nested r)) :
    let e := Engine.standard (Services.inMemory p registry config) n
    Asks (e.passWith (e.answer nested depth) kind c text) := by
  intro e
  have hR := stepRelation_precedes
  have hrecord : ∀ kind detail, Asks (record kind detail) :=
    fun _ _ => leads_modify fun s => s.world.precedes_refl
  have hplain := leads_answer_plain e nested depth hR lead_inMemory fun _ _ _ => hrecord _ _
  have hartifact : ∀ kind c label, Asks (e.answer nested depth (.artifact kind c label)) :=
    fun kind c label => leads_artifact hR lead_inMemory (fun r _ => hn r) (fun _ _ _ _ _ => hrecord _ _) label
  have hcall : ∀ owner script, Asks (call (e.services.functions owner script)) :=
    fun _ _ => leads_call hR fun s => s.world.precedes_refl
  rw [← passSeen_blind]
  refine leads_standard _ n hR hplain (fun _ _ _ => hrecord _ _) (fun _ _ => leads_pure hR ())
    (fun _ _ inner _ => hartifact inner) (fun _ _ scope _ id owner script => ?_) fun _ npc d => ?_
  · exact leads_functionsOnce hR (hcall owner script) (fun _ => hrecord _ _)
      fun s _ _ _ => s.world.precedes_refl
  · exact (composed_leads hR hplain).dialogFunctions (fun kind c label _ => leads_request (hartifact kind c label))
      (fun _ _ => leads_request (hrecord _ _))
      (fun _ => leads_request fun s => s.world.precedes_refl)
      (fun _ _ => leads_request fun s => s.world.precedes_refl) npc d

/-- So do nested renders, by induction on the levels left. -/
theorem asks_nested (left : Nat) (r : RenderRequest) :
    Asks ((Engine.standard (Services.inMemory p registry config) n).nested left r) := by
  have hR := stepRelation_precedes
  induction left generalizing r with
  | zero => exact leads_checkpoint_bind hR fun s _ => s.world.precedes_refl
  | succ left ih =>
    refine leads_checkpoint_bind hR fun s _ => ?_
    exact ((asks_passWith ih).isolated hR r.label).bind hR (fun _ => leads_pure hR _) s

end Standard

/-- **A render leaves a table by requests alone**, whatever it is about and however it ends. -/
theorem precedes_render (p : Project) (registry : TemplateRegistry) (config : Config) (n : Nat)
    (kind : ArtifactKind) (c : RenderContext) (text : Text) (t : KeyTable) (cancelled : Bool) :
    t.Precedes ((Engine.standard (Services.inMemory p registry config) n).render kind c text t cancelled).2 :=
  asks_passWith (asks_nested n) (Session.start t cancelled)

end Engine
end RecordExport

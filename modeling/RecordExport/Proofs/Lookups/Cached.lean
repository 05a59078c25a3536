import RecordExport.Proofs.Render.Alike
import RecordExport.Proofs.Snippets.Functions
/-!
# Templates that are kept

A cache stands before whoever provides templates. It is a memory of what was provided, and this file says of
what: of the first template found for a project and a kind since it was last cleared. What was found later is
never asked for, and what could not be found is asked for again.

* `TemplateEvent`, `firstFound`: what a provider behind a cache was asked, and what a log of that remembers;
* `Remembers`: the cache holds what the log remembers, before and after every lookup and clearing;
* `LooksUp`: what a lookup answers, what it asks and what it leaves behind, all by the log;
* `Services.FixedTemplates`: collaborators whose templates never change, and whose other answers do not depend
  on how often they were asked for a template;
* `Engine.cacheTransparent`: **a cache answers with what was found first, and over templates that never change
  no sequence of renders tells that it is there.**
-/

namespace RecordExport

variable {ω : Type}

/-! ## 1. What is asked behind a cache -/

/-- Something that happened to a provider of templates and to the cache before it. -/
inductive TemplateEvent where
  /-- the provider was asked for a template and gave this -/
  | asked (projectId : String) (kind : ArtifactKind) (result : Except ServiceError DefaultTemplate)
  /-- the cache was cleared -/
  | cleared

namespace TemplateEvent

/-- The cache was cleared. -/
def isClear : TemplateEvent → Bool
  | .cleared => true
  | .asked _ _ _ => false

/-- The template found, if one was asked for of this project and kind. -/
def found? (projectId : String) (kind : ArtifactKind) : TemplateEvent → Option DefaultTemplate
  | .asked p k (.ok t) => if (projectId, kind) = (p, k) then some t else none
  | _ => none

end TemplateEvent

/-- What happened since the cache was last cleared. -/
def sinceClear (log : List TemplateEvent) : List TemplateEvent :=
  (log.reverse.takeWhile fun ev => !ev.isClear).reverse

/-- **The first template found** for a project and a kind since the cache was last cleared. -/
def firstFound (projectId : String) (kind : ArtifactKind) (log : List TemplateEvent) : Option DefaultTemplate :=
  (sinceClear log).findSome? (·.found? projectId kind)

theorem firstFound_nil (projectId : String) (kind : ArtifactKind) : firstFound projectId kind [] = none := rfl

theorem firstFound_cleared (projectId : String) (kind : ArtifactKind) (log : List TemplateEvent) :
    firstFound projectId kind (log ++ [.cleared]) = none := by
  have hsince : sinceClear (log ++ [.cleared]) = [] := by
    unfold sinceClear
    rw [List.reverse_concat]
    rfl
  rw [firstFound, hsince]
  rfl

/-- What is found later does not count. -/
theorem firstFound_asked (projectId p : String) (kind k : ArtifactKind)
    (r : Except ServiceError DefaultTemplate) (log : List TemplateEvent) :
    firstFound projectId kind (log ++ [.asked p k r]) =
      (firstFound projectId kind log).or ((TemplateEvent.asked p k r).found? projectId kind) := by
  have hsince : sinceClear (log ++ [.asked p k r]) = sinceClear log ++ [.asked p k r] := by
    unfold sinceClear
    rw [List.reverse_concat, List.takeWhile_cons_of_pos rfl, List.reverse_cons]
  rw [firstFound, hsince, List.findSome?_append]
  congr 1
  rw [List.findSome?_cons]
  cases (TemplateEvent.asked p k r).found? projectId kind <;> rfl

/-! ## 2. A cache and the log behind it -/

/-- A provider that writes down what it is asked and what it gives. -/
def logged (template : String → ArtifactKind → Call ω DefaultTemplate) (projectId : String)
    (k : ArtifactKind) : Call (ω × List TemplateEvent) DefaultTemplate := fun w =>
  let r := template projectId k w.1
  ⟨r.result, r.cancels, (r.world, w.2 ++ [.asked projectId k r.result])⟩

/-- The world of a logged provider with the cache before it. -/
abbrev LoggedCache (ω : Type) := (ω × List TemplateEvent) × TemplateCache

/-- Clear the cache of a world. -/
def TemplateCache.clear (w : ω × TemplateCache) : ω × TemplateCache := (w.1, .empty)

/-- What is done with a provider and the cache before it. -/
inductive CacheStep where
  | look (projectId : String) (kind : ArtifactKind)
  | clear

/-- A world after a step. -/
def CacheStep.after (template : String → ArtifactKind → Call ω DefaultTemplate) (w : LoggedCache ω) :
    CacheStep → LoggedCache ω
  | .look projectId k => (cachedTemplate (logged template) projectId k w).world
  | .clear => TemplateCache.clear ((w.1.1, w.1.2 ++ [.cleared]), w.2)

/-- **The cache holds what the log remembers.** -/
def Remembers (w : LoggedCache ω) : Prop := ∀ projectId k, w.2.get? projectId k = firstFound projectId k w.1.2

theorem TemplateCache.get?_insert (c : TemplateCache) (projectId p : String) (kind k : ArtifactKind)
    (t : DefaultTemplate) :
    (c.insert p k t).get? projectId kind =
      if (projectId, kind) = (p, k) then some t else c.get? projectId kind := by
  unfold TemplateCache.get? TemplateCache.insert
  rw [List.lookup_cons]
  by_cases h : (projectId, kind) = (p, k)
  · rw [if_pos h, beq_iff_eq.2 h]
  · rw [if_neg h, beq_false_of_ne h]

section Lookup

variable {template : String → ArtifactKind → Call ω DefaultTemplate} {projectId : String} {k : ArtifactKind}

theorem cachedTemplate_of_kept {w : ω × TemplateCache} {t : DefaultTemplate}
    (h : w.2.get? projectId k = some t) : cachedTemplate template projectId k w = ⟨.ok t, false, w⟩ := by
  rw [cachedTemplate, h]

theorem cachedTemplate_of_found {w : ω × TemplateCache} {t : DefaultTemplate}
    (h : w.2.get? projectId k = none) (ht : (template projectId k w.1).result = .ok t) :
    cachedTemplate template projectId k w =
      ⟨.ok t, (template projectId k w.1).cancels,
        ((template projectId k w.1).world, w.2.insert projectId k t)⟩ := by
  simp only [cachedTemplate, h, ht]

theorem cachedTemplate_of_failed {w : ω × TemplateCache} {e : ServiceError}
    (h : w.2.get? projectId k = none) (he : (template projectId k w.1).result = .error e) :
    cachedTemplate template projectId k w =
      ⟨.error e, (template projectId k w.1).cancels, ((template projectId k w.1).world, w.2)⟩ := by
  simp only [cachedTemplate, h, he]

/-- **A step leaves the cache with what the log remembers then.** -/
theorem Remembers.after {w : LoggedCache ω} (h : Remembers w) (s : CacheStep) :
    Remembers (s.after template w) := by
  cases s with
  | clear => exact fun projectId k => (firstFound_cleared projectId k w.1.2).symm
  | look p k =>
    have hafter : (CacheStep.look p k).after template w = (cachedTemplate (logged template) p k w).world := rfl
    rw [hafter]
    cases hkept : w.2.get? p k with
    | some t =>
      rw [cachedTemplate_of_kept hkept]
      exact h
    | none =>
      have hnone : firstFound p k w.1.2 = none := (h p k).symm.trans hkept
      intro projectId kind
      cases hr : (template p k w.1.1).result with
      | error e =>
        have hlogged : (logged template p k w.1).result = .error e := hr
        rw [cachedTemplate_of_failed hkept hlogged]
        show w.2.get? projectId kind = firstFound projectId kind (w.1.2 ++ [.asked p k (template p k w.1.1).result])
        rw [hr, firstFound_asked, h projectId kind]
        exact Option.or_none.symm
      | ok t =>
        have hlogged : (logged template p k w.1).result = .ok t := hr
        rw [cachedTemplate_of_found hkept hlogged]
        show (w.2.insert p k t).get? projectId kind =
          firstFound projectId kind (w.1.2 ++ [.asked p k (template p k w.1.1).result])
        rw [hr, firstFound_asked, TemplateCache.get?_insert, TemplateEvent.found?]
        by_cases hkey : (projectId, kind) = (p, k)
        · obtain ⟨rfl, rfl⟩ := Prod.mk.inj hkey
          rw [if_pos rfl, hnone, if_pos rfl]
          rfl
        · rw [if_neg hkey, if_neg hkey, h projectId kind, Option.or_none]

/-- **So does a sequence of steps.** -/
theorem Remembers.afterAll {w : LoggedCache ω} (h : Remembers w) (steps : List CacheStep) :
    Remembers (steps.foldl (CacheStep.after template) w) := by
  induction steps generalizing w with
  | nil => exact h
  | cons s steps ih => exact ih (h.after s)

/-- **What a lookup through a cache does**, by the log behind it. -/
structure LooksUp (template : String → ArtifactKind → Call ω DefaultTemplate) (projectId : String)
    (k : ArtifactKind) (w : LoggedCache ω) : Prop where
  /-- what was found since the cache was last cleared is answered, and nobody is asked -/
  found : ∀ t, firstFound projectId k w.1.2 = some t →
    cachedTemplate (logged template) projectId k w = ⟨.ok t, false, w⟩
  /-- else the provider is asked once and its answer passed on, be it a template or a failure -/
  asks : firstFound projectId k w.1.2 = none →
    let given := template projectId k w.1.1
    let answered := cachedTemplate (logged template) projectId k w
    answered.result = given.result ∧ answered.cancels = given.cancels ∧
      answered.world.1 = (given.world, w.1.2 ++ [.asked projectId k given.result])
  /-- and a failure is not kept -/
  failure : firstFound projectId k w.1.2 = none → ∀ e, (template projectId k w.1.1).result = .error e →
    (cachedTemplate (logged template) projectId k w).world.2 = w.2
  /-- without the log all is the same -/
  unlogged : cachedTemplate template projectId k (w.1.1, w.2) =
    let answered := cachedTemplate (logged template) projectId k w
    ⟨answered.result, answered.cancels, (answered.world.1.1, answered.world.2)⟩

theorem Remembers.looksUp {w : LoggedCache ω} (h : Remembers w) :
    LooksUp template projectId k w where
  found t ht := cachedTemplate_of_kept ((h projectId k).trans ht)
  asks hnone := by
    have hkept := (h projectId k).trans hnone
    cases hr : (template projectId k w.1.1).result with
    | ok t =>
      have hlogged : (logged template projectId k w.1).result = .ok t := hr
      dsimp only
      rw [cachedTemplate_of_found hkept hlogged, hr.symm]
      exact ⟨rfl, rfl, rfl⟩
    | error e =>
      have hlogged : (logged template projectId k w.1).result = .error e := hr
      dsimp only
      rw [cachedTemplate_of_failed hkept hlogged, hr.symm]
      exact ⟨rfl, rfl, rfl⟩
  failure hnone e he := by
    have hlogged : (logged template projectId k w.1).result = .error e := he
    rw [cachedTemplate_of_failed ((h projectId k).trans hnone) hlogged]
  unlogged := by
    cases hkept : w.2.get? projectId k with
    | some t =>
      rw [cachedTemplate_of_kept (w := w) hkept]
      exact cachedTemplate_of_kept hkept
    | none =>
      cases hr : (template projectId k w.1.1).result with
      | ok t =>
        have hlogged : (logged template projectId k w.1).result = .ok t := hr
        rw [cachedTemplate_of_found (w := w) hkept hlogged]
        exact cachedTemplate_of_found hkept hr
      | error e =>
        have hlogged : (logged template projectId k w.1).result = .error e := hr
        rw [cachedTemplate_of_failed (w := w) hkept hlogged]
        exact cachedTemplate_of_failed hkept hr

end Lookup

/-! ## 3. Templates that never change -/

/-- **Collaborators whose templates never change**: a project and a kind always have the same answer, which
    does not cancel the render, and whose other calls answer alike however often that was asked for: `R` relates
    the worlds they cannot tell apart. -/
structure Services.FixedTemplates (R : ω → ω → Prop) (s : Services ω) : Prop where
  alike : s.Alike R .any s
  fixed : ∀ projectId k w w', (s.template projectId k w).result = (s.template projectId k w').result
  goesOn : ∀ projectId k w, (s.template projectId k w).cancels = false
  world : ∀ projectId k {w₁ w₂}, R w₁ w₂ → R (s.template projectId k w₁).world w₂

/-- A world beside the same with a cache before it: they cannot be told apart, and what is kept is what would
    be answered. -/
def Services.Keeps (s : Services ω) (R : ω → ω → Prop) (w : ω) (v : ω × TemplateCache) : Prop :=
  R w v.1 ∧ ∀ projectId k t, v.2.get? projectId k = some t → (s.template projectId k w).result = .ok t

namespace Services.FixedTemplates

variable {R : ω → ω → Prop} {s : Services ω}

/-- What is kept stays what would be answered. -/
theorem keeps_of (h : s.FixedTemplates R) {w w' : ω} {v : ω × TemplateCache} (hv : s.Keeps R w v) {w₁ : ω}
    (hw : R w' w₁) : s.Keeps R w' (w₁, v.2) :=
  ⟨hw, fun projectId k t ht => (h.fixed projectId k w' w).trans (hv.2 projectId k t ht)⟩

/-- A call that does not go to the provider. -/
theorem onLeft {α : Type} (h : s.FixedTemplates R) {Q : α → Prop} {c : Call ω α} (hc : Call.Alike R Q c c) :
    Call.Alike (s.Keeps R) Q c c.onLeft := by
  intro w v hv
  obtain ⟨result, given, cancels, world⟩ := hc w v.1 hv.1
  exact ⟨result, given, cancels, h.keeps_of hv world⟩

/-- **A call that does answers the same, whether it comes from the cache or from the provider.** -/
theorem template (h : s.FixedTemplates R) (projectId : String) (k : ArtifactKind) :
    Call.Alike (s.Keeps R) (fun _ => True) (s.template projectId k) (cachedTemplate s.template projectId k) := by
  intro w v hv
  cases hkept : v.2.get? projectId k with
  | some t =>
    rw [cachedTemplate_of_kept hkept]
    exact ⟨hv.2 projectId k t hkept, fun _ _ => trivial, h.goesOn projectId k w,
      h.keeps_of hv (h.world projectId k hv.1)⟩
  | none =>
    obtain ⟨result, -, cancels, world⟩ := h.alike.template projectId k w v.1 hv.1
    cases hr : (s.template projectId k v.1).result with
    | error e =>
      rw [cachedTemplate_of_failed hkept hr]
      exact ⟨result.trans hr, fun _ _ => trivial, cancels, h.keeps_of hv world⟩
    | ok t =>
      rw [cachedTemplate_of_found hkept hr]
      refine ⟨result.trans hr, fun _ _ => trivial, cancels, world, fun p kind t' ht' => ?_⟩
      rw [TemplateCache.get?_insert] at ht'
      split at ht'
      · rename_i hkey
        obtain ⟨rfl, rfl⟩ := Prod.mk.inj hkey
        exact (h.fixed p kind _ v.1).trans (hr.trans (congrArg Except.ok (Option.some.inj ht')))
      · exact (h.fixed p kind _ w).trans (hv.2 p kind t' ht')

theorem cached (h : s.FixedTemplates R) : s.Alike (s.Keeps R) .any s.cached where
  object id := h.onLeft (h.alike.object id)
  dialog id := h.onLeft (h.alike.dialog id)
  languageKey r _ := h.onLeft (h.alike.languageKey r trivial)
  functions owner script := h.onLeft (h.alike.functions owner script)
  template := h.template
  projectId := rfl
  escape := rfl

end Services.FixedTemplates

/-! ## 4. Renders with a cache and without -/

/-- What is done with an engine. -/
inductive EngineStep where
  | render (kind : ArtifactKind) (c : RenderContext) (t : Text) (cancelled : Bool)
  /-- ask for the template of a kind -/
  | template (projectId : String) (kind : ArtifactKind)
  /-- clear the cache, if there is one -/
  | clear

/-- What came of it. -/
inductive EngineStep.Outcome where
  | rendered (r : Except RenderError Engine.RenderOutput)
  | template (r : Except ServiceError DefaultTemplate)
  | cleared

namespace Engine

/-- Take a step. -/
def perform (e : Engine ω) (clear : ω → ω) : EngineStep → ω → EngineStep.Outcome × ω
  | .render kind c t cancelled, w => ((e.render kind c t w cancelled).map .rendered id)
  | .template projectId k, w =>
    let r := e.services.template projectId k w
    (.template r.result, r.world)
  | .clear, w => (.cleared, clear w)

/-- Take steps in turn. -/
def performAll (e : Engine ω) (clear : ω → ω) : List EngineStep → ω → List EngineStep.Outcome × ω
  | [], w => ([], w)
  | s :: steps, w =>
    let r := e.perform clear s w
    let rs := e.performAll clear steps r.2
    (r.1 :: rs.1, rs.2)

/-- The engine with a cache before its templates. -/
def cached (e : Engine ω) : Engine (ω × TemplateCache) := ⟨e.resolvers, e.services.cached, e.maxDepth⟩

variable {e : Engine ω} {R : ω → ω → Prop}

/-- **A step has the same outcome with a cache and without.** -/
theorem perform_cached (h : e.services.FixedTemplates R) (s : EngineStep) {w : ω} {v : ω × TemplateCache}
    (hv : e.services.Keeps R w v) :
    (e.perform id s w).1 = (e.cached.perform TemplateCache.clear s v).1 ∧
      e.services.Keeps R (e.perform id s w).2 (e.cached.perform TemplateCache.clear s v).2 := by
  cases s with
  | render kind c t cancelled =>
    have halike : e.Alike (e.services.Keeps R) .any e.cached :=
      ⟨rfl, rfl, h.cached, fun _ _ _ _ _ _ => RenderProgram.keepsTo_any _⟩
    obtain ⟨hresult, hworld⟩ := render_alike halike kind trivial t hv cancelled
    exact ⟨congrArg _ hresult, hworld⟩
  | template projectId k =>
    obtain ⟨result, -, -, world⟩ := h.template projectId k w v hv
    exact ⟨congrArg _ result, world⟩
  | clear => exact ⟨rfl, hv.1, fun _ _ _ ht => by cases ht⟩

/-- **So have all steps of a sequence.** -/
theorem performAll_cached (h : e.services.FixedTemplates R) (steps : List EngineStep) {w : ω}
    {v : ω × TemplateCache} (hv : e.services.Keeps R w v) :
    (e.performAll id steps w).1 = (e.cached.performAll TemplateCache.clear steps v).1 := by
  induction steps generalizing w v with
  | nil => rfl
  | cons s steps ih =>
    obtain ⟨houtcome, hworld⟩ := perform_cached h s hv
    exact List.cons_eq_cons.2 ⟨houtcome, ih hworld⟩

/-- **A cache is transparent.** After any lookups and clearings it answers a lookup with the first template
    found since it was last cleared, and asks the provider just where there is none. Over templates that never
    change every sequence of renders, lookups and clearings has the outcomes it has without the cache. -/
theorem cacheTransparent (e : Engine ω) :
    (∀ (w : ω) (before : List CacheStep) (projectId : String) (k : ArtifactKind),
      LooksUp e.services.template projectId k
        (before.foldl (CacheStep.after e.services.template) ((w, []), .empty))) ∧
    ∀ R : ω → ω → Prop, e.services.FixedTemplates R → ∀ (steps : List EngineStep) (w : ω), R w w →
      (e.performAll id steps w).1 = (e.cached.performAll TemplateCache.clear steps (w, .empty)).1 := by
  constructor
  · intro w before projectId k
    have hempty : Remembers ((w, []), TemplateCache.empty) := fun p k => (firstFound_nil p k).symm
    exact (hempty.afterAll before).looksUp
  · intro R h steps w hw
    exact performAll_cached h steps ⟨hw, fun _ _ _ ht => by cases ht⟩

/-- Collaborators over the talker and its sword whose templates are counted and never change. -/
def countingServices : Services (KeyTable × Nat) :=
  { (Services.inMemory ⟨[talker, sword], []⟩ .builtIn .standard).onLeft with
    template := fun _ k w => ⟨.ok (TemplateRegistry.builtIn.get k), false, (w.1, w.2 + 1)⟩ }

/-- Nobody looks at the count. -/
theorem fixedTemplates_counting : countingServices.FixedTemplates fun w w' => w.1 = w'.1 where
  alike :=
    { object := fun _ _ _ h => ⟨rfl, fun _ _ => trivial, rfl, h⟩
      dialog := fun _ _ _ h => ⟨rfl, fun _ _ _ _ => trivial, rfl, h⟩
      languageKey := fun r _ w w' h => by
        obtain ⟨table, n⟩ := w
        obtain ⟨_, n'⟩ := w'
        cases h
        exact ⟨rfl, fun _ _ => trivial, rfl, rfl⟩
      functions := fun _ _ _ _ h => ⟨rfl, fun _ _ => trivial, rfl, h⟩
      template := fun _ _ _ _ h => ⟨rfl, fun _ _ => trivial, rfl, h⟩
      projectId := rfl
      escape := rfl }
  fixed _ _ _ _ := rfl
  goesOn _ _ _ := rfl
  world _ _ _ _ h := h

/-- Two renders that use the template of items, a lookup between them and a clearing. -/
def countedSteps : List EngineStep :=
  let text := braced "Inventory_Start".toList ++ braced "Inventory_ItemDetails".toList ++
    braced "Inventory_End".toList
  [.render .npc (.ofObject talker) text false, .template "default" .item, .clear,
    .render .npc (.ofObject talker) text false]

theorem cacheTransparent_counted :
    let e := Engine.standard countingServices 16
    countingServices.FixedTemplates (fun w w' => w.1 = w'.1) ∧
      (e.performAll id countedSteps (.empty, 0)).1 =
        (e.cached.performAll TemplateCache.clear countedSteps ((.empty, 0), .empty)).1 :=
  ⟨fixedTemplates_counting,
    (cacheTransparent (Engine.standard countingServices 16)).2 _ fixedTemplates_counting countedSteps (.empty, 0)
      rfl⟩

end Engine
end RecordExport

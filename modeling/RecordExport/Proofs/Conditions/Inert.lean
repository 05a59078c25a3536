import RecordExport.Proofs.Conditions.Dropped
import RecordExport.Proofs.Validation.Issues
import RecordExport.Template.BuiltIn
/-!
# Dropped contents in the render of an object

The resolvers of an object's text come one after the other, and each settles the conditions it knows. A
condition that drops a block shields its contents from everything that comes later, but not from what came
before: a name in it that an earlier resolver looks for was resolved by then.

* `ObjectBlock`: the conditions in the text of an object, who settles them and what is known before;
* `ObjectBlock.run_resolve`: where a block is dropped, the resolver that settles it does the same whatever
  is in it;
* `Engine.inertContents_standard`: **so does the whole render**, if no earlier resolver knows a name in the
  block. In the text of an item it is the same with the item's own gates.
-/

namespace RecordExport

open RenderProgram

/-! ## 1. Programs of an object -/

section Lasting

theorem lasting_request (o : RenderOp) : (request o).Keeps .lasting :=
  keeps_request o (Contract.allows_lasting o)

theorem lasting_resolveObject (o : GameObject) (type : ObjectType) (space : String) (t : Text) :
    (resolveObject o type space t).Keeps .lasting := by
  have hlisting : ∀ name fs t, (fillListing name o type fs t).Keeps .lasting := fun name fs t =>
    keeps_fillOnce (lasting_request _) name t
  have hvalues : ∀ t, StateKeeps .lasting (resolveValues o type space t) := by
    intro t
    refine (stateKeeps_lift (keeps_escaped _)).bind fun name => ?_
    refine (stateKeeps_lift (keeps_fillKey (K := .lasting) trivial _ _)).bind fun t => ?_
    refine (sequencedBy_stateKeeps.replaceScalarsM
      (stateKeeps_useField fun f _ => keeps_languageKey trivial) _ _ _).bind fun t => ?_
    exact sequencedBy_stateKeeps.replaceScalarsM (stateKeeps_useField fun f _ => keeps_fieldValue f) _ _ _
  refine (keeps_resolveConditions o space t).bind fun t => ?_
  exact (hvalues t []).bind fun r => (hlisting _ _ _).bind fun t => hlisting _ _ t

theorem lasting_resolveSnippets (o : GameObject) (type : ObjectType) (t : Text) :
    (resolveSnippets o type t).Keeps .lasting := by
  have huse : ∀ {give : List ScriptFunction → RenderProgram Text}, (∀ fs, (give fs).Keeps .lasting) →
      ∀ cs, StateKeeps .lasting (useSnippet o give cs) := by
    intro give hgive cs
    unfold useSnippet
    dsimp only
    cases o.snippet? (cs.getD 0 []) with
    | none => exact (stateKeeps_lift (keeps_record _ _)).bind fun _ => sequencedBy_stateKeeps.result _
    | some s =>
      refine (stateKeeps_modifyGet fun used => (PUnit.unit, s.id :: used)).bind fun _ => ?_
      exact (stateKeeps_lift (lasting_request _)).bind fun fs => stateKeeps_lift (hgive fs)
  have hfill : ∀ t, StateKeeps .lasting (fillSnippets o type t) := by
    intro t
    refine (sequencedBy_stateKeeps.replaceScalarsM
      (huse fun fs => keeps_renderFunctions (fun f _ => trivial) _) _ _ t).bind fun t => ?_
    refine (sequencedBy_stateKeeps.replaceScalarsM (huse fun fs => keeps_pure _) _ _ t).bind fun t => ?_
    exact sequencedBy_stateKeeps.replaceScalarsM (huse fun fs => keeps_pure _) _ _ t
  refine Keeps.bind (hfill _ []) fun r => ?_
  exact (sequencedBy_keeps.forM fun s _ => keeps_record _ _).bind fun _ => keeps_pure _

theorem lasting_resolveRoutine (npc : GameObject) (type : ObjectType) (t : Text) :
    (resolveRoutine npc type t).Keeps .lasting := by
  have hfunctions : ∀ e, (eventFunctions npc e).Keeps .lasting := by
    intro e
    unfold eventFunctions
    split
    · exact keeps_pure _
    · exact lasting_request _
  refine (sequencedBy_keeps.expandBlocksM (fun e _ position inner => ?_) _ _).bind fun t =>
    keeps_fillOnce ?_ _ t
  · refine (lasting_request .settings).bind fun s => ?_
    dsimp only
    split
    · exact (hfunctions e).bind fun fs => keeps_pure _
    · exact keeps_pure _
  · refine (sequencedBy_keeps.mapM fun e _ => ?_).bind fun parts => keeps_pure _
    exact (hfunctions e).bind fun fs => keeps_renderFunctions (fun f _ => trivial) _

theorem lasting_resolveInventory (npc : GameObject) (t : Text) :
    (resolveInventory npc t).Keeps .lasting := by
  refine KeepsTo.bind (keepsTo_fetchObjects _ npc.inventory) fun entries _ => ?_
  refine sequencedBy_keeps.expandBlocksM (fun e _ position inner => ?_) _ _
  refine ((lasting_resolveObject _ _ _ _).within _).bind fun t => ?_
  split
  · exact (lasting_request _).bind fun details => keeps_pure _
  · exact keeps_pure t

theorem lasting_resolveSkills (npc : GameObject) (t : Text) : (resolveSkills npc t).Keeps .lasting := by
  refine KeepsTo.bind (keepsTo_fetchObjects _ npc.skills) fun found _ => ?_
  refine sequencedBy_keeps.expandBlocksM (fun o _ position inner => ?_) _ _
  refine ((lasting_resolveObject _ _ _ _).within _).bind fun t => ?_
  split
  · exact (lasting_request _).bind fun details => keeps_pure _
  · exact keeps_pure t

end Lasting

/-! ## 2. Topics -/

namespace Topic

/-- How the names begin that the resolver of a topic looks for. -/
def names : Topic → List String
  | .snippets => ["Snippet_", "HasSnippet_", "HasNotSnippet_"]
  | .dialog => ["Tale_"]
  | .dailyRoutine => ["DailyRoutine_"]
  | .inventory => ["Inventory_"]
  | .skills => ["Skills_", "Skill_"]
  | .fields => ["Npc_", "Item_", "Skill_"]
  | .fieldList => ["Fields_", "Field_"]
  | .language => ["LangKeys_", "LangKey_"]

/-- The topics whose resolvers come before that of a topic. -/
def ahead (τ : Topic) : List Topic := all.takeWhile (· ≠ τ)

theorem exists_all_eq (τ : Topic) : ∃ behind, all = τ.ahead ++ τ :: behind := by
  cases τ <;> exact ⟨_, rfl⟩

/-- The resolvers that come before that of a topic in the render of a kind. -/
def resolversAhead (kind : ArtifactKind) (τ : Topic) : List Resolver :=
  (τ.ahead.filter (·.resolver.applies kind)).map (·.resolver)

theorem exists_applicable_standard {ω : Type} (services : Services ω) (maxDepth : Nat)
    {kind : ArtifactKind} {τ : Topic} (h : τ.resolver.applies kind = true) :
    ∃ rs, (Engine.standard services maxDepth).applicable kind =
      τ.resolversAhead kind ++ τ.resolver :: rs := by
  obtain ⟨behind, hall⟩ := τ.exists_all_eq
  refine ⟨(behind.filter (·.resolver.applies kind)).map (·.resolver), ?_⟩
  unfold resolversAhead
  rw [Engine.applicable_standard, hall, List.filter_map, List.filter_append,
    List.filter_cons_of_pos (by exact h), List.map_append, List.map_cons]
  rfl

section Spaces

variable {kind : ArtifactKind} {space : String} (hspace : kind.space? = some space)
include hspace

/-- A text of an object whose fields have a namespace is no function of a script. -/
theorem ne_function_of_space : kind ≠ .snippetFunction ∧ kind ≠ .routineFunction := by
  constructor <;> rintro rfl <;> cases hspace

/-- Of such texts the resolver of dialogs applies to those of an NPC alone. -/
theorem eq_npc_of_applies (happlies : Topic.dialog.resolver.applies kind = true) : kind = .npc := by
  cases kind <;> first | rfl | exact absurd happlies (by decide) | cases hspace

/-- No resolver behind that of the fields applies to them. -/
theorem order_le_of_applies {τ : Topic} (happlies : τ.resolver.applies kind = true) :
    τ.order ≤ Topic.fields.order := by
  cases τ with
  | fieldList | language => cases kind <;> first | exact absurd happlies (by decide) | cases hspace
  | _ => decide

end Spaces

end Topic

/-- The resolver's program for an object. -/
theorem singleObject_eq {c : RenderContext} {o : GameObject} (hc : c.subject = .object o)
    (resolver : String) : singleObject resolver c = pure o := by
  unfold singleObject
  rw [hc]

section Resolvers

variable {ω : Type} {answer : (o : RenderOp) → SessionM ω o.Answer} {kind : ArtifactKind}
  {c : RenderContext} {o : GameObject} (hc : c.subject = .object o) {H : Exchange} {t t' : Text}
include hc

theorem resolve_snippets (hkind : kind ≠ .snippetFunction) (t : Text) :
    Resolver.snippets.resolve kind c t = within "Snippets" (resolveSnippets o c.objectType t) := by
  unfold Resolver.snippets
  dsimp only
  rw [if_neg hkind, singleObject_eq hc, pure_bind]

theorem resolve_dialog (t : Text) :
    Resolver.dialog.resolve .npc c t =
      if mentions "Tale_" t then within "Dialog" (resolveDialog o t) else pure t := by
  unfold Resolver.dialog
  dsimp only
  rw [singleObject_eq hc, pure_bind]

theorem resolve_dailyRoutine (hkind : kind ≠ .routineFunction) (t : Text) :
    Resolver.dailyRoutine.resolve kind c t =
      if mentions "DailyRoutine_" t then within "Daily routine" (resolveRoutine o c.objectType t)
      else pure t := by
  unfold Resolver.dailyRoutine
  dsimp only
  rw [if_neg hkind, singleObject_eq hc, pure_bind]

theorem resolve_inventory (t : Text) :
    Resolver.inventory.resolve kind c t =
      if mentions "Inventory_" t then within "Inventory" (resolveInventory o t) else pure t := by
  unfold Resolver.inventory
  dsimp only
  rw [singleObject_eq hc, pure_bind]

theorem resolve_skills (t : Text) :
    Resolver.skills.resolve kind c t =
      if mentions "Skills_" t then within "Skills" (resolveSkills o t) else pure t := by
  unfold Resolver.skills
  dsimp only
  rw [singleObject_eq hc, pure_bind]

theorem resolve_fields {space : String} (hspace : kind.space? = some space) (t : Text) :
    Resolver.fields.resolve kind c t = resolveObject o c.objectType space t := by
  unfold Resolver.fields
  dsimp only
  rw [hspace]
  dsimp only
  rw [singleObject_eq hc, pure_bind]

/-- **A resolver passes contents by** in which it knows no name, if it comes before that of the fields. -/
theorem Topic.alongside_resolve {τ : Topic} (hτ : τ.order < Topic.fields.order)
    (happlies : τ.resolver.applies kind = true) {space : String} (hspace : kind.space? = some space)
    (hE : H.Edged) (hH : ∀ beginning ∈ τ.names, H.Avoids beginning.toList) (h : Exchanged H t t') :
    Alongside answer (Exchanged H) (τ.resolver.resolve kind c t) (τ.resolver.resolve kind c t') := by
  have hwhere : ∀ {beginning label : String} {p q : RenderProgram Text}, H.Avoids beginning.toList →
      Alongside answer (Exchanged H) p q →
      Alongside answer (Exchanged H) (if mentions beginning t then within label p else pure t)
        (if mentions beginning t' then within label q else pure t') := by
    intro beginning label p q hb hpq
    rw [mentions_shielded _ hb h]
    split
    · exact hpq.within label
    · exact alongside_pure h
  cases τ with
  | snippets =>
    have hkind := (Topic.ne_function_of_space hspace).1
    show Alongside answer _ (Resolver.snippets.resolve kind c t) (Resolver.snippets.resolve kind c t')
    rw [resolve_snippets hc hkind, resolve_snippets hc hkind]
    exact (alongside_resolveSnippets hE (hH _ (.head _)) (hH _ (.tail _ (.head _)))
      (hH _ (.tail _ (.tail _ (.head _)))) o c.objectType h).within _
  | dialog =>
    obtain rfl := Topic.eq_npc_of_applies hspace happlies
    show Alongside answer _ (Resolver.dialog.resolve .npc c t) (Resolver.dialog.resolve .npc c t')
    rw [resolve_dialog hc, resolve_dialog hc]
    have htale : H.Avoids "Tale_".toList := hH _ (.head _)
    exact hwhere htale (alongside_resolveDialog hE htale o h)
  | dailyRoutine =>
    have hkind := (Topic.ne_function_of_space hspace).2
    show Alongside answer _ (Resolver.dailyRoutine.resolve kind c t)
      (Resolver.dailyRoutine.resolve kind c t')
    rw [resolve_dailyRoutine hc hkind, resolve_dailyRoutine hc hkind]
    have hroutine : H.Avoids "DailyRoutine_".toList := hH _ (.head _)
    exact hwhere hroutine (alongside_resolveRoutine hE hroutine o c.objectType h)
  | inventory =>
    show Alongside answer _ (Resolver.inventory.resolve kind c t) (Resolver.inventory.resolve kind c t')
    rw [resolve_inventory hc, resolve_inventory hc]
    have hinventory : H.Avoids "Inventory_".toList := hH _ (.head _)
    exact hwhere hinventory (alongside_resolveInventory hE hinventory o h)
  | skills =>
    show Alongside answer _ (Resolver.skills.resolve kind c t) (Resolver.skills.resolve kind c t')
    rw [resolve_skills hc, resolve_skills hc]
    have hlist : H.Avoids "Skills_".toList := hH _ (.head _)
    exact hwhere hlist (alongside_resolveSkills hE hlist (hH _ (.tail _ (.head _))) o h)
  | fields => exact absurd hτ (by decide)
  | fieldList => exact absurd hτ (by decide)
  | language => exact absurd hτ (by decide)

end Resolvers

/-! ## 3. Conditions -/

/-- None of the objects can be had that are asked for under a label. -/
def NoneHad {ω α : Type} (answer : (o : RenderOp) → SessionM ω o.Answer) (label : String)
    (id : α → String) (l : List α) (s : Session ω) : Prop :=
  ∀ found, (Engine.run answer (fetchObjects id l) { s with log := (s.log.enter label).2 }).1 = .ok found →
    found = []

/-- A condition in the text of an object. -/
inductive ObjectBlock where
  | hasSnippet
  | hasNotSnippet
  | hasEvents
  | hasItems
  | hasSkills
  | field (c : FieldCondition)

namespace ObjectBlock

/-- The topic whose resolver settles it. -/
def topic : ObjectBlock → Topic
  | .hasSnippet | .hasNotSnippet => .snippets
  | .hasEvents => .dailyRoutine
  | .hasItems => .inventory
  | .hasSkills => .skills
  | .field _ => .fields

/-- Its blocks. -/
def family (space : String) : ObjectBlock → BlockFamily
  | .hasSnippet => SnippetPlaceholder.hasSnippet
  | .hasNotSnippet => SnippetPlaceholder.hasNotSnippet
  | .hasEvents => .ofStem "DailyRoutine_HasEvents".toList
  | .hasItems => .ofStem "Inventory_HasItems".toList
  | .hasSkills => .ofStem "Skills_HasSkills".toList
  | .field c => c.family space

/-- The conditions the same resolver settles before it. -/
def sooner : ObjectBlock → List ObjectBlock
  | .hasNotSnippet => [.hasSnippet]
  | .field c => c.sooner.map .field
  | _ => []

/-- A block of this condition is dropped whose start marker captures such texts, when its resolver begins
    in this session. -/
def Drops {ω : Type} (answer : (o : RenderOp) → SessionM ω o.Answer) (o : GameObject) (s : Session ω)
    (cs : List Text) : ObjectBlock → Prop
  | .hasSnippet => (o.snippet? (cs.getD 0 [])).isSome = false
  | .hasNotSnippet => (o.snippet? (cs.getD 0 [])).isNone = false
  | .hasEvents => o.dailyRoutine = []
  | .hasItems => NoneHad answer "Inventory" (·.itemId) o.inventory s
  | .hasSkills => NoneHad answer "Skills" (fun id => id) o.skills s
  | .field c => c.holds o cs = false

/-- **The names that are known before the condition is settled**: to the resolvers that come before, and
    those of the conditions settled sooner. -/
def Known (kind : ArtifactKind) (space : String) (b : ObjectBlock) (name : Text) : Prop :=
  (∃ τ ∈ b.topic.ahead, τ.resolver.applies kind = true ∧ ∃ beginning ∈ τ.names,
    beginning.toList <+: name) ∨
  ∃ b' ∈ b.sooner, (b'.family space).marks name

section Settled

variable {ω : Type} {answer : (o : RenderOp) → SessionM ω o.Answer} {kind : ArtifactKind}
  {space : String} {c : RenderContext} {o : GameObject} {s : Session ω} {t t' : Text}

theorem begins_dropped {f : BlockFamily} {drops : List Text → Prop} {k : Markers} {content start : Text}
    (h : Dropped f drops k content) (hf : f.Begins start) : start <+: Text.trim k.opening :=
  hf.1 _ (Bool.and_eq_true_iff.1 h.opens).2

/-- A resolver that runs where its names are mentioned does the same if its program does. -/
theorem run_mentioned {beginning label : String} (stem : String) {drops : List Text → Prop}
    {known : Text → Prop} (hstem : beginning.toList <+: stem.toList)
    (h : Exchanged (Inert (.ofStem stem.toList) drops known) t t') {p : Text → RenderProgram Text}
    (hp : Engine.run answer (p t) { s with log := (s.log.enter label).2 } =
      Engine.run answer (p t') { s with log := (s.log.enter label).2 }) :
    Engine.run answer (if mentions beginning t then within label (p t) else pure t) s =
      Engine.run answer (if mentions beginning t' then within label (p t') else pure t') s := by
  have hbegins := begins_ofStem (hstem.trans (List.prefix_append _ ['_']))
  rcases mentions_swapped (fun hc => begins_dropped hc.1.1 hbegins) h with rfl | ⟨hm, hm'⟩
  · rfl
  · rw [if_pos hm, if_pos hm', Engine.run_within, Engine.run_within]
    exact SessionM.within_congr hp

/-- A gate for what can be had, which drops its blocks where there is nothing. -/
theorem run_fetched {α : Type} {id : α → String} {l : List α} {label : String} {known : Text → Prop}
    (stem : String) (kept : List (α × GameObject) → Bool)
    (h : Exchanged (Inert (.ofStem stem.toList) (fun _ => NoneHad answer label id l s) known) t t')
    (hkept : kept [] = false)
    (rest : List (α × GameObject) → Text → RenderProgram Text) :
    Engine.run answer (fetchObjects id l >>= fun found => rest found (gate stem (kept found) t))
        { s with log := (s.log.enter label).2 } =
      Engine.run answer (fetchObjects id l >>= fun found => rest found (gate stem (kept found) t'))
        { s with log := (s.log.enter label).2 } := by
  rw [Engine.run_bind, Engine.run_bind, SessionM.bind_apply, SessionM.bind_apply]
  cases hfound : (Engine.run answer (fetchObjects id l) { s with log := (s.log.enter label).2 }).1 with
  | error e => rfl
  | ok found =>
    have hgate : gate stem (kept found) t = gate stem (kept found) t' := by
      refine gate_dropped stem _ (fun _ hnone => ?_) h
      rw [hnone found hfound, hkept]
    dsimp only
    rw [hgate]

/-- **The resolver that settles a condition does the same** whatever is in the blocks it drops. -/
theorem run_resolve (b : ObjectBlock) (hspace : kind.space? = some space) (hc : c.subject = .object o)
    (h : Exchanged (Inert (b.family space) (fun cs => b.Drops answer o s cs) (b.Known kind space)) t t') :
    Engine.run answer (b.topic.resolver.resolve kind c t) s =
      Engine.run answer (b.topic.resolver.resolve kind c t') s := by
  have hkind := Topic.ne_function_of_space hspace
  cases b with
  | hasSnippet =>
    show Engine.run answer (Resolver.snippets.resolve kind c t) s =
      Engine.run answer (Resolver.snippets.resolve kind c t') s
    rw [resolve_snippets hc hkind.1, resolve_snippets hc hkind.1]
    unfold resolveSnippets
    rw [keepBlocks_dropped (f := SnippetPlaceholder.hasSnippet) h.dropped]
  | hasNotSnippet =>
    show Engine.run answer (Resolver.snippets.resolve kind c t) s =
      Engine.run answer (Resolver.snippets.resolve kind c t') s
    rw [resolve_snippets hc hkind.1, resolve_snippets hc hkind.1]
    have hsooner := keepBlocks_shielded (f := SnippetPlaceholder.hasSnippet)
      (fun cs => (o.snippet? (cs.getD 0 [])).isSome)
      (lacks_inert fun name hname => .inr ⟨.hasSnippet, List.mem_singleton_self _, hname⟩) h
    unfold resolveSnippets
    dsimp only
    rw [keepBlocks_dropped (f := SnippetPlaceholder.hasNotSnippet) hsooner.dropped]
  | hasEvents =>
    show Engine.run answer (Resolver.dailyRoutine.resolve kind c t) s =
      Engine.run answer (Resolver.dailyRoutine.resolve kind c t') s
    rw [resolve_dailyRoutine hc hkind.2, resolve_dailyRoutine hc hkind.2]
    refine run_mentioned "DailyRoutine_HasEvents" ⟨_, rfl⟩ h
      (p := fun t => resolveRoutine o c.objectType t) ?_
    have hgate := gate_dropped "DailyRoutine_HasEvents" (!o.dailyRoutine.isEmpty)
      (fun cs (hnone : o.dailyRoutine = []) => by rw [hnone]; rfl) h
    unfold resolveRoutine
    dsimp only
    rw [hgate]
  | hasItems =>
    show Engine.run answer (Resolver.inventory.resolve kind c t) s =
      Engine.run answer (Resolver.inventory.resolve kind c t') s
    rw [resolve_inventory hc, resolve_inventory hc]
    refine run_mentioned "Inventory_HasItems" ⟨_, rfl⟩ h (p := fun t => resolveInventory o t) ?_
    exact run_fetched "Inventory_HasItems" _ h rfl
      fun entries t => expandBlocksM (.ofStem "Inventory".toList) t entries renderInventoryEntry
  | hasSkills =>
    show Engine.run answer (Resolver.skills.resolve kind c t) s =
      Engine.run answer (Resolver.skills.resolve kind c t') s
    rw [resolve_skills hc, resolve_skills hc]
    refine run_mentioned "Skills_HasSkills" ⟨_, rfl⟩ h (p := fun t => resolveSkills o t) ?_
    exact run_fetched "Skills_HasSkills" (fun found => !(found.map (·.2)).isEmpty) h rfl
      fun found t => expandBlocksM (.ofStem "Skills".toList) t (found.map (·.2)) renderSkill
  | field condition =>
    show Engine.run answer (Resolver.fields.resolve kind c t) s =
      Engine.run answer (Resolver.fields.resolve kind c t') s
    rw [resolve_fields hc hspace, resolve_fields hc hspace]
    rw [resolveObject_inert c.objectType condition (fun c' hc' name hname => ?_) h]
    exact .inr ⟨.field c', List.mem_map_of_mem hc', hname⟩

/-- Such a resolver fails by no error of its own. -/
theorem lasting_resolve (b : ObjectBlock) (hspace : kind.space? = some space)
    (hc : c.subject = .object o) (t : Text) : (b.topic.resolver.resolve kind c t).Keeps .lasting := by
  have hkind := Topic.ne_function_of_space hspace
  have hsnippets : (Resolver.snippets.resolve kind c t).Keeps .lasting := by
    rw [resolve_snippets hc hkind.1]
    exact (lasting_resolveSnippets o c.objectType t).within _
  have hwhere : ∀ {p : RenderProgram Text} {beginning label : String}, p.Keeps .lasting →
      (if mentions beginning t then within label p else pure t).Keeps .lasting := by
    intro p beginning label hp
    split
    · exact hp.within label
    · exact keeps_pure t
  cases b with
  | hasSnippet => exact hsnippets
  | hasNotSnippet => exact hsnippets
  | hasEvents =>
    show (Resolver.dailyRoutine.resolve kind c t).Keeps .lasting
    rw [resolve_dailyRoutine hc hkind.2]
    exact hwhere (lasting_resolveRoutine o c.objectType t)
  | hasItems =>
    show (Resolver.inventory.resolve kind c t).Keeps .lasting
    rw [resolve_inventory hc]
    exact hwhere (lasting_resolveInventory o t)
  | hasSkills =>
    show (Resolver.skills.resolve kind c t).Keeps .lasting
    rw [resolve_skills hc]
    exact hwhere (lasting_resolveSkills o t)
  | field condition =>
    show (Resolver.fields.resolve kind c t).Keeps .lasting
    rw [resolve_fields hc hspace]
    exact lasting_resolveObject o c.objectType space t

end Settled

end ObjectBlock

/-! ## 4. Renders -/

theorem Topic.order_lt_of_mem_ahead {τ : Topic} (h : τ ∈ Topic.ahead τ') : τ.order < τ'.order := by
  revert h
  cases τ' <;> cases τ <;> decide

namespace Engine

variable {ω : Type} {answer : (o : RenderOp) → SessionM ω o.Answer} {kind : ArtifactKind}
  {space : String} {c : RenderContext} {o : GameObject} {s : Session ω} {t t' : Text}

/-- Attempts that come to the same text, where only cancellation leaves a text as it was. -/
theorem attempt_congr {r : Resolver} (hlasts : SessionM.Lasts (run answer (r.resolve kind c t)))
    (h : run answer (r.resolve kind c t) s = run answer (r.resolve kind c t') s) :
    attempt answer kind c t r s = attempt answer kind c t' r s := by
  have hend := hlasts s
  rw [attempt_apply, attempt_apply, ← h]
  split
  · rfl
  · generalize run answer (r.resolve kind c t) s = out at hend
    obtain ⟨result, s'⟩ := out
    cases result with
    | ok t₁ => rfl
    | error err =>
      obtain rfl : err = .cancelled := hend err rfl
      rfl

/-- **The resolvers of an object come to the same** whatever is in the blocks that a condition drops, if no
    name in there is known before. -/
theorem foldlM_attempt_inert (services : Services ω) (maxDepth : Nat)
    (ha : ∀ o, SessionM.Lasts (answer o)) (b : ObjectBlock)
    (happlies : b.topic.resolver.applies kind = true) (hspace : kind.space? = some space)
    (hc : c.subject = .object o) {begun : Session ω}
    (hbegun : ((b.topic.resolversAhead kind).foldlM (attempt answer kind c) t s).2 = begun)
    (h : Exchanged (Inert (b.family space) (fun cs => b.Drops answer o begun cs) (b.Known kind space))
      t t') :
    ((standard services maxDepth).applicable kind).foldlM (attempt answer kind c) t s =
      ((standard services maxDepth).applicable kind).foldlM (attempt answer kind c) t' s := by
  obtain ⟨rs, hrs⟩ := b.topic.exists_applicable_standard services maxDepth happlies
  have hahead : SessionM.Alongside
      (Exchanged (Inert (b.family space) (fun cs => b.Drops answer o begun cs) (b.Known kind space)))
      ((b.topic.resolversAhead kind).foldlM (attempt answer kind c) t)
      ((b.topic.resolversAhead kind).foldlM (attempt answer kind c) t') := by
    refine SessionM.pairedBy_alongside.foldlM (f := attempt answer kind c) (g := attempt answer kind c)
      (fun r hr t t' ht => alongside_attempt ht ?_) h
    obtain ⟨τ, hτ, rfl⟩ := List.mem_map.1 hr
    obtain ⟨hτ, hin⟩ := List.mem_filter.1 hτ
    have horder : b.topic.order ≤ Topic.fields.order := by
      cases b <;> simp [ObjectBlock.topic, Topic.order]
    refine Topic.alongside_resolve hc ((Topic.order_lt_of_mem_ahead hτ).trans_le horder) hin hspace
      edged_inert (fun beginning hb => ?_) ht
    exact lacks_inert fun name hname => .inl ⟨τ, hτ, hin, beginning, hb, hname⟩
  obtain ⟨hend, hlast⟩ := hahead s s rfl
  rw [hrs, List.foldlM_append, List.foldlM_append, SessionM.bind_apply, SessionM.bind_apply, ← hlast,
    hbegun]
  generalize ((b.topic.resolversAhead kind).foldlM (attempt answer kind c) t s).1 = result,
    ((b.topic.resolversAhead kind).foldlM (attempt answer kind c) t' s).1 = result' at hend
  cases hend with
  | error fails => rfl
  | @ok t₁ t₁' hexchanged =>
    have hattempt := attempt_congr (lasts_run ha (b.lasting_resolve hspace hc t₁))
      (b.run_resolve hspace hc hexchanged)
    dsimp only
    rw [List.foldlM_cons, List.foldlM_cons, SessionM.bind_apply, SessionM.bind_apply, hattempt]

/-- **What a condition drops is inert** for all that comes after it is settled. -/
structure ShieldsContents (e : Engine ω) : Prop where
  /-- A pass over conditions leaves nothing of what it drops, whatever that is. -/
  pass : ∀ (f : BlockFamily) (decision : List Text → RenderProgram Bool) (t t' : Text),
    Exchanged (DroppedContents f (Denies decision)) t t' →
      keepBlocksM f t decision = keepBlocksM f t' decision
  /-- The render of an object reports the issues of its text and goes on as if something else stood in the
      blocks that a condition drops, if no name in or around them is known before. -/
  render : ∀ (left : Nat) (kind : ArtifactKind) (space : String) (c : RenderContext) (o : GameObject)
    (b : ObjectBlock) (s : Session ω) (t t' : Text),
    kind.space? = some space → c.subject = .object o → b.topic.resolver.applies kind = true →
    let answer := e.answer (e.nested left) (e.maxDepth - left)
    let begun := ((b.topic.resolversAhead kind).foldlM (attempt answer kind c) t (e.reported t s)).2
    Exchanged (Inert (b.family space) (fun cs => b.Drops answer o begun cs) (b.Known kind space)) t t' →
      e.pass left kind c t s = (e.applicable kind).foldlM (attempt answer kind c) t' (e.reported t s)
  /-- The text of an item goes as if something else stood in the blocks that a gate of the item drops, if no
      name in or around them is known to the passes before it. -/
  gate : ∀ (x : ListedItem) (p : ListPosition) (inner inner' : Text) (before after : List TextPass)
    (stem : String), x.asksDetails inner = x.asksDetails inner' →
    x.passes p = before ++ .gate stem false :: after →
    Exchanged (Inert (.ofStem stem.toList) (fun _ => True) fun name => ∃ q ∈ before, q.knows name)
      inner inner' → x.render p inner = x.render p inner'
  /-- And so it is with the conditions on the fields of the item's object. -/
  condition : ∀ (x : ListedItem) (p : ListPosition) (inner inner' : Text) (o : GameObject)
    (space : String) (c : FieldCondition), x.asksDetails inner = x.asksDetails inner' →
    x.object? = some (o, space) →
    Exchanged (Inert (c.family space) (fun cs => c.holds o cs = false) fun name =>
      (∃ q ∈ x.passes p, q.knows name) ∨ ∃ c' ∈ c.sooner, (c'.family space).marks name) inner inner' →
    x.render p inner = x.render p inner'
  /-- What stands there instead may be free of placeholders. -/
  hollow : ∀ (f : BlockFamily) (drops : List Text → Prop) (known : Text → Prop) (k : Markers)
    (content : Text), Dropped f drops k content →
    (∀ b, .placeholder b ∈ k.tokens content → ¬ known (Text.trim b)) →
    Inert f drops known k content (hollow content) ∧
      ∀ b, .placeholder b ∉ tokenize (RecordExport.hollow content)

theorem inertContents_standard (services : Services ω) (maxDepth : Nat) :
    (standard services maxDepth).ShieldsContents where
  pass f decision t t' h := keepBlocksM_dropped (fun hc => hc) h
  render left kind space c o b s t t' hspace hc happlies := by
    intro answer begun h
    rw [pass_apply]
    exact foldlM_attempt_inert services maxDepth (fun o => lasts_answer _ left _ o) b happlies hspace hc
      rfl h
  gate x p inner inner' before after stem hdetails hpasses h :=
    (x.render_inert hdetails).1 before stem after hpasses h
  condition x p inner inner' o space c hdetails ho h := (x.render_inert hdetails).2 o space c ho h
  hollow f drops known k content h hknown :=
    ⟨inert_hollow h hknown, not_mem_tokenize_hollow content⟩

/-- A character without anything. -/
def pauper : GameObject := ⟨"a", "Goblin", .npc, [], [], [], [], []⟩

/-- A block for a field. -/
def fieldBlock : Markers where
  opening := "Npc_HasField_X_Start".toList
  closing := "Npc_HasField_End".toList
  isBody_opening := by decide
  isBody_closing := by decide

theorem dropped_fieldBlock (content : Text)
    (h : ∀ t ∈ tokenize content, (FieldPlaceholder.hasField "Npc").isOpening t = false ∧
      (FieldPlaceholder.hasField "Npc").isClosing t = false) :
    Dropped (FieldPlaceholder.hasField "Npc") (fun cs => FieldCondition.has.holds pauper cs = false)
      fieldBlock content where
  opens := by decide
  closes := by decide
  inside := balanced_of_not_marker h
  denied _ _ := rfl

theorem inertContents_pauper :
    let e := standard (Services.inMemory ⟨[pauper], []⟩ .builtIn .standard) 16
    let s : Session KeyTable := .start .empty false
    let text := fieldBlock.around (braced "Npc_Name_LangKey".toList)
    let answer := e.answer (e.nested 16) 0
    e.pass 16 .npc (.ofObject pauper) text s =
      (e.applicable .npc).foldlM (attempt answer .npc (.ofObject pauper))
        (fieldBlock.around (hollow (braced "Npc_Name_LangKey".toList))) (e.reported text s) := by
  intro e s text answer
  have h := inertContents_standard (Services.inMemory ⟨[pauper], []⟩ .builtIn .standard) 16
  have hdropped := dropped_fieldBlock (braced "Npc_Name_LangKey".toList) (by decide +kernel)
  have hknown : ∀ b, .placeholder b ∈ fieldBlock.tokens (braced "Npc_Name_LangKey".toList) →
      ¬ ObjectBlock.Known .npc "Npc" (.field .has) (Text.trim b) := by
    intro b hb
    have htokens : fieldBlock.tokens (braced "Npc_Name_LangKey".toList) =
        [.placeholder "Npc_HasField_X_Start".toList, .placeholder "Npc_Name_LangKey".toList,
          .placeholder "Npc_HasField_End".toList] := by decide +kernel
    rw [htokens] at hb
    simp only [List.mem_cons, Token.placeholder.injEq, List.not_mem_nil, or_false] at hb
    rintro (⟨τ, hτ, -, beginning, hbeginning, hpre⟩ | ⟨b', hb', -⟩)
    · have hnone : ∀ τ ∈ (ObjectBlock.field .has).topic.ahead, ∀ beginning ∈ τ.names,
          ∀ b ∈ fieldBlock.tokens (braced "Npc_Name_LangKey".toList),
            ¬ beginning.toList <+: b.name := by
        rw [htokens]
        decide
      refine hnone τ hτ beginning hbeginning (.placeholder b) ?_ hpre
      rw [htokens]
      simpa using hb
    · cases hb'
  refine h.render 16 .npc "Npc" (.ofObject pauper) pauper (.field .has) s _ _ rfl rfl rfl ?_
  have hswap := Exchanged.swap [] (h.hollow _ _ _ fieldBlock _ hdropped hknown).1 (.same [])
  rwa [List.nil_append, List.nil_append, List.append_nil, List.append_nil] at hswap

/-- A skill without anything. -/
def trick : GameObject := ⟨"s", "Trick", .skill, [], [], [], [], []⟩

/-- A character with the skill. -/
def juggler : GameObject := ⟨"a", "Juggler", .npc, [], [], ["s"], [], []⟩

/-- A list of skills whose details stand in a block for a field. -/
def skillList : Text :=
  braced "Skills_Start".toList ++ (braced "Skill_HasField_X_Start".toList ++
    (braced "Skill_Details".toList ++ (braced "Skill_HasField_End".toList ++ braced "Skills_End".toList)))

/-- What snippets look for is resolved before a condition on fields, though the block that holds it goes and
    its text has nothing wrong with it; and the details of a skill are asked for, because the text of the list
    has a place for them, though the block with that place goes. -/
theorem reported_from_dropped :
    let e := standard (Services.inMemory ⟨[pauper], []⟩ .builtIn .standard) 16
    let e' := standard { Services.inMemory ⟨[trick, juggler], []⟩ .builtIn .standard with
      template := fun _ _ => .pure (.error (.notFound "template" "skill")) } 16
    let text := fieldBlock.around (braced "Snippet_Gone".toList)
    (FieldCondition.has.holds pauper ["X".toList] = false ∧ e.validate text = [] ∧
      (e.render .npc (.ofObject pauper) text .empty false).1 =
        .ok ⟨[], [⟨["Snippets"], .missingReference, "Goblin has no export snippet 'Gone'"⟩]⟩) ∧
    FieldCondition.has.holds trick ["X".toList] = false ∧ e'.validate skillList = [] ∧
      (e'.render .npc (.ofObject juggler) skillList .empty false).1 =
        .ok ⟨[], [⟨["Skills"], .missingReference, "template not found: skill"⟩]⟩ := by
  intro e e' text
  have hvalid : e.validate text = [] := by
    refine validate_eq_nil_iff.2 ?_
    rw [show e.families = _ from families_standard _ _]
    decide +kernel
  have hvalid' : e'.validate skillList = [] := by
    refine validate_eq_nil_iff.2 ?_
    rw [show e'.families = _ from families_standard _ _]
    decide +kernel
  refine ⟨⟨rfl, hvalid, ?_⟩, rfl, hvalid', ?_⟩
  · unfold render pass passWith
    rw [hvalid, show e.applicable .npc = _ from applicable_standard _ _ _]
    decide +kernel
  · unfold render pass passWith
    rw [hvalid', show e'.applicable .npc = _ from applicable_standard _ _ _]
    decide +kernel

end Engine

end RecordExport

import RecordExport.Proofs.Conditions.Passing
import RecordExport.Proofs.Render.Cancellation
/-!
# Foreign text

A text is FOREIGN to the standard resolvers if none of its placeholders has a name in a namespace of theirs.
Whatever else it holds, it is somebody else's: braces of a script, placeholders of another program, markers
that nothing closes. A render of any kind hands it from resolver to resolver as it is.

* `Text.Avoids`: a text without names that begin so, in which no pass finds anything;
* `RenderProgram.AsksNobody`: a program that only asks for what its render answers itself;
* `Topic.leavesAlone_resolve`: in foreign text every standard resolver runs such a program, and unless it
  fails it gives the text back;
* `Engine.leavesAlone_standard`: **so a render ends with the text it was given and nobody was called.**
-/

namespace RecordExport

universe v

open RenderProgram

variable {ω α β : Type} {start t : Text}

/-! ## 1. Texts without certain names -/

/-- No placeholder of the text has a name that begins so. -/
def Text.Avoids (t start : Text) : Prop :=
  ∀ b, Token.placeholder b ∈ tokenize t → ¬ start <+: Text.trim b

theorem avoids_iff {beginning : String} : t.Avoids beginning.toList ↔ mentions beginning t = false := by
  unfold mentions Text.Avoids
  rw [List.any_eq_false]
  constructor
  · intro h k hk hm
    cases k with
    | literal l => cases hm
    | placeholder b => exact h b hk (Text.beginsWith_iff.1 (Bool.and_eq_true_iff.1 hm).2)
  · exact fun h b hb hbegins => h _ hb (Bool.and_eq_true_iff.2 ⟨rfl, Text.beginsWith_iff.2 hbegins⟩)

/-! ## 2. Passes that find nothing -/

section Passes

variable {m : Type → Type v} [Monad m] [LawfulMonad m]

theorem scalarsIn_of_avoids {p : Pattern} (h : t.Avoids start) (hp : p.Begins start) :
    scalarsIn p t = [] :=
  List.filterMap_eq_nil_iff.2 (scalarCaptures_of_lacks fun b hb hm => h b hb (hp _ hm))

theorem replaceScalarsM_of_avoids {p : Pattern} (h : t.Avoids start) (hp : p.Begins start)
    (placement : Placement) (value : List Text → m Text) :
    replaceScalarsM p placement t value = pure t := by
  rw [replaceScalarsM_eq, scalarsIn_of_avoids h hp, List.mapM_nil, pure_bind]
  rfl

variable {f : BlockFamily}

theorem findBlock_of_avoids (h : t.Avoids start) (hf : f.Begins start) :
    findBlock f (tokenize t) = none := by
  have hopen : ∀ k ∈ tokenize t, f.isOpening k = false := by
    intro k hk
    cases k with
    | literal l => rfl
    | placeholder b =>
      refine Bool.eq_false_iff.2 fun hm => h b hk (hf.1 _ ?_)
      unfold BlockFamily.isOpening at hm
      exact (Bool.and_eq_true_iff.1 hm).2
  have hfind := findBlock_of_not_opening hopen []
  rwa [List.append_nil] at hfind

theorem keepBlocksM_of_avoids (h : t.Avoids start) (hf : f.Begins start) (decision : List Text → m Bool) :
    keepBlocksM f t decision = pure t :=
  (walksBy_keepFrom f decision).ends (findBlock_of_avoids h hf)

theorem keepBlocks_of_avoids (h : t.Avoids start) (hf : f.Begins start) (decision : List Text → Bool) :
    keepBlocks f t decision = t := keepBlocksM_of_avoids (m := Id) h hf decision

theorem expandBlocksM_of_avoids (h : t.Avoids start) (hf : f.Begins start) (items : List α)
    (render : α → ListPosition → Text → m Text) : expandBlocksM f t items render = pure t :=
  (walksBy_expandFrom f _).ends (findBlock_of_avoids h hf)

end Passes

section Filling

variable {name : String}

theorem fill_of_avoids (h : t.Avoids start) (hname : start <+: name.toList) (placement : Placement)
    (value : Text) : fill name placement value t = t :=
  replaceScalarsM_of_avoids (m := Id) h (begins_parts hname []) placement fun _ => value

theorem gate_of_avoids (h : t.Avoids start) {stem : String} (hstem : start <+: stem.toList) (kept : Bool) :
    gate stem kept t = t :=
  keepBlocks_of_avoids h (begins_ofStem (hstem.trans (List.prefix_append _ _))) _

theorem fillKey_of_avoids (h : t.Avoids start) (hname : start <+: name.toList) (r : KeyRequest) :
    fillKey name r t = pure t := replaceScalarsM_of_avoids h (begins_parts hname []) .inline _

theorem fillAll_of_avoids (h : t.Avoids start) (hname : start <+: name.toList)
    (make : RenderProgram Text) : fillAll name make t = pure t :=
  if_pos (scalarsIn_of_avoids h (begins_parts hname []))

end Filling

/-! ## 3. Programs that ask nobody -/

/-- The render answers the operation itself, and nothing changes but what it reports. -/
def RenderOp.IsOwn : RenderOp → Prop
  | .record _ _ | .settings => True
  | _ => False

namespace RenderProgram

/-- **A program that asks nobody** but its render; its result is as it should be, and if it fails the render
    was not cancelled. -/
def AsksNobody : {α : Type} → RenderProgram α → (α → Prop) → Prop
  | _, .done a, Q => Q a
  | _, .fail err, _ => err ≠ .cancelled
  | _, .ask o go, Q => o.IsOwn ∧ ∀ x, (go x).AsksNobody Q
  | _, .under _ inner go, Q => inner.AsksNobody fun t => (go t).AsksNobody Q

variable {p : RenderProgram α} {P : α → Prop} {Q : β → Prop}

theorem AsksNobody.mono {P' : α → Prop} (hp : p.AsksNobody P) (h : ∀ a, P a → P' a) : p.AsksNobody P' := by
  induction p with
  | done a => exact h a hp
  | fail err => exact hp
  | ask o go ih => exact ⟨hp.1, fun x => ih x (hp.2 x) h⟩
  | under label inner go ihi ihg => exact ihi hp fun t ht => ihg t ht h

theorem AsksNobody.bind {f : α → RenderProgram β} (hp : p.AsksNobody P)
    (hf : ∀ a, P a → (f a).AsksNobody Q) : (p >>= f).AsksNobody Q := by
  show (p.bind f).AsksNobody Q
  induction p with
  | done a => exact hf a hp
  | fail err => exact hp
  | ask o go ih => exact ⟨hp.1, fun x => ih x (hp.2 x) hf⟩
  | under label inner go _ ih =>
    show inner.AsksNobody fun t => ((go t).bind f).AsksNobody Q
    exact AsksNobody.mono (P := fun t => (go t).AsksNobody P) hp fun t ht => ih t ht hf

theorem AsksNobody.within {p : RenderProgram Text} {P : Text → Prop} (hp : p.AsksNobody P)
    (label : String) : (within label p).AsksNobody P := hp

theorem asksNobody_escaped (value : Text) : (escaped value).AsksNobody fun _ => True :=
  ⟨trivial, fun _ => trivial⟩

theorem asksNobody_record (kind : DiagnosticKind) (detail : String) :
    (record kind detail).AsksNobody fun _ => True := ⟨trivial, fun _ => trivial⟩

theorem sequencedBy_asksNobody :
    SequencedBy fun α (p : RenderProgram α) => p.AsksNobody fun _ => True where
  result _ := trivial
  sequence hp hf := hp.bind fun a _ => hf a

end RenderProgram

theorem asksNobody_wrongSubject (resolver : String) (s : Subject) {P : α → Prop} :
    (wrongSubject resolver s : RenderProgram α).AsksNobody P := fun h => by cases h

theorem asksNobody_singleObject (resolver : String) (c : RenderContext) :
    (singleObject resolver c).AsksNobody fun _ => True := by
  unfold singleObject
  split
  · exact trivial
  · exact asksNobody_wrongSubject _ _

/-! ## 4. The standard resolvers -/

/-- How the names begin that the standard resolvers know. -/
def namespaces : List String :=
  ["Npc_", "Item_", "Skill_", "Skills_", "Inventory_", "DailyRoutine_", "Tale_", "Snippet_", "HasSnippet_",
    "HasNotSnippet_", "SnippetFunction_", "Fields_", "LangKeys_"]

/-- **A text that is foreign to the standard resolvers.** -/
def Foreign (t : Text) : Prop := ∀ space ∈ namespaces, t.Avoids space.toList

instance (t : Text) : Decidable (Foreign t) :=
  decidable_of_iff (∀ space ∈ namespaces, mentions space t = false)
    (forall_congr' fun _ => imp_congr_right fun _ => avoids_iff.symm)

/-- How the names begin that a topic's resolver knows. -/
def Topic.namespaces : Topic → List String
  | .snippets => ["Snippet_", "HasSnippet_", "HasNotSnippet_", "SnippetFunction_"]
  | .dialog => ["Tale_"]
  | .dailyRoutine => ["DailyRoutine_"]
  | .inventory => ["Inventory_"]
  | .skills => ["Skills_"]
  | .fields => ["Npc_", "Item_", "Skill_"]
  | .fieldList => ["Fields_"]
  | .language => ["LangKeys_"]

/-- A text that is foreign to a topic's resolver. -/
def Topic.IsForeign (topic : Topic) (t : Text) : Prop := ∀ space ∈ topic.namespaces, t.Avoids space.toList

theorem Foreign.isForeign (h : Foreign t) (topic : Topic) : topic.IsForeign t := by
  have hsub : topic.namespaces ⊆ RecordExport.namespaces := by cases topic <;> decide
  exact fun space hspace => h space (hsub hspace)

/-- The program leaves the text alone, and asks nobody. -/
abbrev RenderProgram.LeavesAlone (t : Text) (p : RenderProgram Text) : Prop := p.AsksNobody (· = t)

section Resolvers

variable {c : RenderContext} {kind : ArtifactKind}

/-- Without their blocks there are no conditions to settle. -/
theorem settle_of_no_block {space : String}
    (h : ∀ c : FieldCondition, findBlock (c.family space) (tokenize t) = none) (o : GameObject) :
    FieldCondition.all.foldlM (FieldCondition.settle o space) t = pure t := by
  have hone : ∀ c, FieldCondition.settle o space t c = pure t :=
    fun c => (walksBy_keepFrom _ _).ends (h c)
  unfold FieldCondition.all
  simp only [List.foldlM_cons, List.foldlM_nil, hone, pure_bind]

theorem fillListings_of_avoids {space : String} (h : t.Avoids (space ++ "_").toList) (o : GameObject)
    (type : ObjectType) (used : List String) : fillListings o type space used t = pure t := by
  have hname := begins_name (List.prefix_refl (space ++ "_").toList)
  have hgate : gate (space ++ "_HasUnusedFields") (decide (∃ f ∈ o.fields, f.id ∉ used)) t = t :=
    gate_of_avoids h (hname "HasUnusedFields") _
  have hunused : ∀ make, fillAll (space ++ "_UnusedFields") make t = pure t :=
    fillAll_of_avoids h (hname "UnusedFields")
  have hall : ∀ make, fillAll (space ++ "_AllFields") make t = pure t :=
    fillAll_of_avoids h (hname "AllFields")
  unfold fillListings
  dsimp only
  rw [hgate, hunused, pure_bind, hall]

/-- **The placeholders of an object** are not found in a text without names of its namespace. -/
theorem leavesAlone_resolveObject {space : String} (h : t.Avoids (space ++ "_").toList) (o : GameObject)
    (type : ObjectType) : (resolveObject o type space t).LeavesAlone t := by
  have hspace := List.prefix_refl (space ++ "_").toList
  have hname := begins_name hspace
  have hparts : ∀ ps, (Pattern.within space.toList ps).Begins (space ++ "_").toList := by
    rw [String.toList_append]
    exact begins_parts (List.prefix_refl _)
  have hconditions : FieldCondition.all.foldlM (FieldCondition.settle o space) t = pure t :=
    settle_of_no_block (fun c => findBlock_of_avoids h (begins_condition hspace c)) o
  have hidentity : (fillIdentity o type space t).LeavesAlone t := by
    refine (asksNobody_escaped _).bind fun name _ => ?_
    have hid : fill (space ++ "_Id") .inline o.id.toList t = t := fill_of_avoids h (hname "Id") _ _
    have hfilled : fill (space ++ "_Name") .inline name t = t := fill_of_avoids h (hname "Name") _ _
    have hkey : fillKey (space ++ "_Name_LangKey") (nameKey o type) t = pure t :=
      fillKey_of_avoids h (hname "Name_LangKey") _
    rw [hid, hfilled, hkey]
    rfl
  have hkeys : scalarsIn (FieldPlaceholder.valueKey space) t = [] := scalarsIn_of_avoids h (hparts _)
  have hvalues : scalarsIn (FieldPlaceholder.value space) t = [] := scalarsIn_of_avoids h (hparts _)
  have hplaced : ∀ p placement, placeValues p placement [] t = t := fun _ _ => rfl
  have hlistings : ∀ used, fillListings o type space used t = pure t :=
    fun used => fillListings_of_avoids h o type used
  rw [resolveObject_eq, hconditions, pure_bind]
  refine hidentity.bind ?_
  rintro _ rfl
  simp only [hkeys, List.mapM_nil, pure_bind, hplaced, hvalues, hlistings]
  rfl

theorem leavesAlone_fields (h : Topic.fields.IsForeign t) (kind : ArtifactKind) (c : RenderContext) :
    (Resolver.fields.resolve kind c t).LeavesAlone t := by
  unfold Resolver.fields
  dsimp only
  cases hspace : kind.space? with
  | none => rfl
  | some space =>
    have havoids : t.Avoids (space ++ "_").toList := by
      refine h (space ++ "_") ?_
      obtain ⟨type, -, rfl⟩ := Option.map_eq_some_iff.1 hspace
      cases type <;> decide
    exact (asksNobody_singleObject _ c).bind fun o _ => leavesAlone_resolveObject havoids o _

theorem leavesAlone_fieldList (h : Topic.fieldList.IsForeign t) (kind : ArtifactKind) (c : RenderContext) :
    (Resolver.fieldList.resolve kind c t).LeavesAlone t := by
  refine (asksNobody_singleObject _ c).bind fun o _ => ?_
  have hfields : t.Avoids "Fields_".toList := h "Fields_" (by decide)
  rw [expandBlocksM_of_avoids hfields (begins_ofStem (List.prefix_refl _))]
  rfl

theorem leavesAlone_language (h : Topic.language.IsForeign t) (kind : ArtifactKind) (c : RenderContext) :
    (Resolver.language.resolve kind c t).LeavesAlone t := by
  have hkeys : t.Avoids "LangKeys_".toList := h "LangKeys_" (by decide)
  have hlisted : (BlockFamily.ofStem "LangKeys".toList).Begins "LangKeys_".toList :=
    begins_ofStem (List.prefix_refl _)
  have hreferenced : (BlockFamily.ofStem "LangKeys_Referenced".toList).Begins "LangKeys_".toList :=
    begins_ofStem ⟨"Referenced_".toList, rfl⟩
  have hfile : ∀ os referenced, resolveLanguageFile os referenced t = pure t := by
    intro os referenced
    unfold resolveLanguageFile
    rw [expandBlocksM_of_avoids hkeys hlisted, pure_bind]
    dsimp only
    rw [gate_of_avoids hkeys ⟨_, rfl⟩, expandBlocksM_of_avoids hkeys hreferenced]
  unfold Resolver.language
  dsimp only
  split
  · rw [hfile]
    rfl
  · rw [hfile]
    rfl
  · exact asksNobody_wrongSubject _ _

/-- Lists and routines are only looked at where one of their names is mentioned. -/
theorem leavesAlone_unless_mentioned {beginning : String} (h : t.Avoids beginning.toList)
    (p : RenderProgram Text) : (if mentions beginning t then p else pure t).LeavesAlone t := by
  rw [avoids_iff.1 h, if_neg Bool.false_ne_true]
  rfl

theorem leavesAlone_skills (h : Topic.skills.IsForeign t) (kind : ArtifactKind) (c : RenderContext) :
    (Resolver.skills.resolve kind c t).LeavesAlone t :=
  leavesAlone_unless_mentioned (h "Skills_" (by decide)) _

theorem leavesAlone_inventory (h : Topic.inventory.IsForeign t) (kind : ArtifactKind) (c : RenderContext) :
    (Resolver.inventory.resolve kind c t).LeavesAlone t :=
  leavesAlone_unless_mentioned (h "Inventory_" (by decide)) _

theorem leavesAlone_dailyRoutine (h : Topic.dailyRoutine.IsForeign t) (kind : ArtifactKind) (c : RenderContext) :
    (Resolver.dailyRoutine.resolve kind c t).LeavesAlone t := by
  have hroutine : t.Avoids "DailyRoutine_".toList := h "DailyRoutine_" (by decide)
  have hfunction : ∀ eventId f, resolveRoutineFunction eventId f t = t := by
    intro eventId f
    unfold resolveRoutineFunction
    dsimp only
    rw [fill_of_avoids hroutine ⟨_, rfl⟩, fill_of_avoids hroutine ⟨_, rfl⟩,
      fill_of_avoids hroutine ⟨_, rfl⟩, fill_of_avoids hroutine ⟨_, rfl⟩]
  unfold Resolver.dailyRoutine
  dsimp only
  split
  · split
    · exact hfunction _ _
    · exact asksNobody_wrongSubject _ _
  · exact leavesAlone_unless_mentioned hroutine _

/-- Without their placeholders there is nothing to do but to report the snippets, none of which was used. -/
theorem resolveSnippets_of_isForeign (h : Topic.snippets.IsForeign t) (o : GameObject) (type : ObjectType) :
    resolveSnippets o type t = (do reportUnused [] o.snippets; pure t) := by
  have hcode : t.Avoids "Snippet_".toList := h "Snippet_" (by decide)
  have hhas : t.Avoids "HasSnippet_".toList := h "HasSnippet_" (by decide)
  have hhasNot : t.Avoids "HasNotSnippet_".toList := h "HasNotSnippet_" (by decide)
  have hkept : ∀ decision, keepBlocks SnippetPlaceholder.hasSnippet t decision = t :=
    keepBlocks_of_avoids hhas ⟨begins_parts (List.prefix_refl _) _, begins_parts ⟨_, rfl⟩ _⟩
  have hkeptNot : ∀ decision, keepBlocks SnippetPlaceholder.hasNotSnippet t decision = t :=
    keepBlocks_of_avoids hhasNot ⟨begins_parts (List.prefix_refl _) _, begins_parts ⟨_, rfl⟩ _⟩
  have hcaptured : ∀ ps placement value,
      replaceScalarsM (.ofParts (.fixed "Snippet_".toList :: ps)) placement t value =
        (pure t : SnippetProgram Text) :=
    fun ps => replaceScalarsM_of_avoids hcode (begins_parts (List.prefix_refl _) ps)
  have hfill : fillSnippets o type t = pure t := by
    unfold fillSnippets SnippetPlaceholder.additionalFunctions SnippetPlaceholder.functionName
      SnippetPlaceholder.code
    simp only [hcaptured, pure_bind]
  unfold resolveSnippets
  dsimp only
  rw [hkept, hkeptNot, hfill, StateT.run_pure, pure_bind]

theorem leavesAlone_resolveSnippets (h : Topic.snippets.IsForeign t) (o : GameObject) (type : ObjectType) :
    (resolveSnippets o type t).LeavesAlone t := by
  rw [resolveSnippets_of_isForeign h]
  have hreport : (reportUnused [] o.snippets).AsksNobody fun _ => True :=
    sequencedBy_asksNobody.forM fun s _ => asksNobody_record _ _
  exact hreport.bind fun _ _ => rfl

theorem leavesAlone_snippets (h : Topic.snippets.IsForeign t) (kind : ArtifactKind) (c : RenderContext) :
    (Resolver.snippets.resolve kind c t).LeavesAlone t := by
  have hfunctions : t.Avoids "SnippetFunction_".toList := h "SnippetFunction_" (by decide)
  have hfunction : ∀ f, resolveSnippetFunction f t = t := by
    intro f
    unfold resolveSnippetFunction
    dsimp only
    rw [fill_of_avoids hfunctions ⟨_, rfl⟩, fill_of_avoids hfunctions ⟨_, rfl⟩,
      fill_of_avoids hfunctions ⟨_, rfl⟩]
  unfold Resolver.snippets
  dsimp only
  split
  · split
    · exact hfunction _
    · exact asksNobody_wrongSubject _ _
  · exact (asksNobody_singleObject _ c).bind fun o _ => (leavesAlone_resolveSnippets h o _).within _

theorem leavesAlone_resolveStep (h : t.Avoids "Tale_".toList) (kind : ArtifactKind) (s : DialogStep) :
    (resolveStep kind s t).LeavesAlone t := by
  have hline : ∀ speaker line, (resolveLine s speaker line t).LeavesAlone t := by
    intro speaker line
    refine (asksNobody_escaped _).bind fun text _ => ?_
    dsimp only
    rw [fill_of_avoids h ⟨_, rfl⟩, fill_of_avoids h ⟨_, rfl⟩, fillKey_of_avoids h ⟨_, rfl⟩]
    rfl
  unfold resolveStep
  split
  · exact fill_of_avoids h ⟨_, rfl⟩ _ _
  · exact hline _ _
  · exact hline _ _
  · refine (asksNobody_escaped _).bind fun name _ => (asksNobody_escaped _).bind fun value _ => ?_
    dsimp only
    rw [fill_of_avoids h ⟨_, rfl⟩, fill_of_avoids h ⟨_, rfl⟩]
    rfl
  · have hchoices : (BlockFamily.ofStem "Tale_Choices".toList).Begins "Tale_".toList :=
      begins_ofStem ⟨"Choices_".toList, rfl⟩
    rw [expandBlocksM_of_avoids h hchoices]
    rfl
  · rfl

theorem leavesAlone_dialog (h : Topic.dialog.IsForeign t) (kind : ArtifactKind) (c : RenderContext) :
    (Resolver.dialog.resolve kind c t).LeavesAlone t := by
  have htale : t.Avoids "Tale_".toList := h "Tale_" (by decide)
  have hfunction : ∀ f, resolveDialogFunction f t = t := by
    intro f
    unfold resolveDialogFunction
    dsimp only
    rw [fill_of_avoids htale ⟨_, rfl⟩, fill_of_avoids htale ⟨_, rfl⟩, fill_of_avoids htale ⟨_, rfl⟩]
  unfold Resolver.dialog
  dsimp only
  split
  · exact leavesAlone_unless_mentioned htale _
  · split
    · exact hfunction _
    · exact asksNobody_wrongSubject _ _
  · split
    · exact leavesAlone_resolveStep htale kind _
    · exact asksNobody_wrongSubject _ _

/-- **Every standard resolver leaves text alone that is foreign to it**, whatever it is to render. -/
theorem Topic.leavesAlone_resolve (topic : Topic) (h : topic.IsForeign t) (kind : ArtifactKind)
    (c : RenderContext) : (topic.resolver.resolve kind c t).LeavesAlone t := by
  cases topic with
  | snippets => exact leavesAlone_snippets h kind c
  | dialog => exact leavesAlone_dialog h kind c
  | dailyRoutine => exact leavesAlone_dailyRoutine h kind c
  | inventory => exact leavesAlone_inventory h kind c
  | skills => exact leavesAlone_skills h kind c
  | fields => exact leavesAlone_fields h kind c
  | fieldList => exact leavesAlone_fieldList h kind c
  | language => exact leavesAlone_language h kind c

end Resolvers

/-! ## 5. Stretches of a render -/

/-- The render answered itself. -/
def RenderEvent.IsOwn : RenderEvent → Prop
  | .answered o _ => o.IsOwn
  | _ => False

/-- A stretch of a render in which these events were seen, and nothing else changed but the log. -/
structure Session.Sees (U : Transcript) (s s' : Session (ω × Transcript)) : Prop where
  world : s'.world = (s.world.1, s.world.2 ++ U)
  memo : s'.memo = s.memo
  cancelled : s'.cancelled = s.cancelled

namespace Session.Sees

variable {U U' : Transcript} {s s' s'' : Session (ω × Transcript)}

/-- Only the log changed. -/
theorem of_log (s : Session (ω × Transcript)) (log : DiagnosticLog) : Sees [] s { s with log } :=
  ⟨Prod.ext rfl (List.append_nil _).symm, rfl, rfl⟩

theorem trans (h : Sees U s s') (h' : Sees U' s' s'') : Sees (U ++ U') s s'' := by
  refine ⟨?_, h'.memo.trans h.memo, h'.cancelled.trans h.cancelled⟩
  rw [h'.world, h.world, List.append_assoc]

end Session.Sees

/-- How a step ends that asks nobody. -/
structure SessionM.EndsAlone (Q : α → Prop) (s : Session (ω × Transcript))
    (out : Except RenderError α × Session (ω × Transcript)) : Prop where
  given : ∀ a, out.1 = .ok a → Q a
  failed : ∀ err, out.1 = .error err → err ≠ .cancelled
  sees : ∃ U, (∀ ev ∈ U, ev.IsOwn) ∧ s.Sees U out.2

/-- A step that asks nobody, behind a stretch in which the render was asked alone. -/
theorem SessionM.EndsAlone.behind {Q : α → Prop} {U : Transcript} {s s' : Session (ω × Transcript)}
    {out : Except RenderError α × Session (ω × Transcript)} (h : EndsAlone Q s' out)
    (hU : ∀ ev ∈ U, ev.IsOwn) (hs : s.Sees U s') : EndsAlone Q s out := by
  obtain ⟨V, hV, hsees⟩ := h.sees
  refine ⟨h.given, h.failed, U ++ V, fun ev hev => ?_, hs.trans hsees⟩
  exact (List.mem_append.1 hev).elim (hU ev) (hV ev)

/-- Answers that a render gives itself. -/
def AnswersOwn (answer : (o : RenderOp) → SessionM (ω × Transcript) o.Answer) : Prop :=
  ∀ o s, o.IsOwn → ∃ x s', answer o s = (.ok x, s') ∧ s.Sees [.answered o x] s'

namespace Engine

variable {answer : (o : RenderOp) → SessionM (ω × Transcript) o.Answer}

theorem answersOwn_answerSeen (e : Engine (ω × Transcript)) (nested : NestedRender (ω × Transcript))
    (depth : Nat) : AnswersOwn (e.answerSeen .scribe nested depth) := by
  intro o s ho
  cases o with
  | record kind detail => exact ⟨(), _, rfl, rfl, rfl, rfl⟩
  | settings => exact ⟨e.services.escape, _, rfl, rfl, rfl, rfl⟩
  | _ => exact ho.elim

/-- **A program that asks nobody runs alone.** -/
theorem endsAlone_run (ha : AnswersOwn answer) {p : RenderProgram α} {Q : α → Prop} (hp : p.AsksNobody Q)
    (s : Session (ω × Transcript)) : SessionM.EndsAlone Q s (run answer p s) := by
  have hhere : ∀ s : Session (ω × Transcript), ∃ U, (∀ ev ∈ U, RenderEvent.IsOwn ev) ∧ s.Sees U s :=
    fun s => ⟨[], fun _ h => absurd h List.not_mem_nil, .of_log s s.log⟩
  induction p generalizing s with
  | done a =>
    refine ⟨fun b hb => ?_, fun err herr => (by cases herr), hhere s⟩
    obtain rfl : a = b := Except.ok.inj hb
    exact hp
  | fail err =>
    refine ⟨fun a ha => (by cases ha), fun err' herr => ?_, hhere s⟩
    obtain rfl : err = err' := Except.error.inj herr
    exact hp
  | ask o go ih =>
    obtain ⟨x, s', hanswer, hsees⟩ := ha o s hp.1
    have hrun : run answer (.ask o go) s = run answer (go x) s' := by
      rw [run, SessionM.bind_apply, hanswer]
    rw [hrun]
    refine (ih x (hp.2 x) s').behind (fun ev hev => ?_) hsees
    rw [List.mem_singleton.1 hev]
    exact hp.1
  | under label inner go ihi ihg =>
    -- the part under the label ends alone, and so does what is done with its text
    have hinner := ihi hp { s with log := (s.log.enter label).2 }
    obtain ⟨U, hU, hsees⟩ := hinner.sees
    have hleft : s.Sees U (SessionM.within label (run answer inner) s).2 :=
      ⟨hsees.world, hsees.memo, hsees.cancelled⟩
    rw [run, SessionM.bind_apply]
    cases hend : (SessionM.within label (run answer inner) s).1 with
    | ok t => exact (ihg t (hinner.given t hend) _).behind hU hleft
    | error err =>
      refine ⟨fun a ha => (by cases ha), fun err' herr => ?_, U, hU, hleft⟩
      obtain rfl : err = err' := Except.error.inj herr
      exact hinner.failed err hend

/-- A turn is written down, and then it is a turn. -/
theorem attemptSeen_apply {kind : ArtifactKind} {c : RenderContext} {t : Text} {r : Resolver}
    {s : Session (ω × Transcript)} (hs : s.cancelled = false) :
    attemptSeen .scribe answer kind c t r s =
      attempt answer kind c t r (s.seen .scribe (.resolver kind r.name t)) := by
  show (SessionM.checkpoint >>= fun _ => _) s = _
  rw [SessionM.checkpoint_bind_apply, if_neg (Bool.eq_false_iff.1 hs)]
  rfl

/-- **A resolver that leaves a text alone gives it back**, whether it fails or not. -/
theorem attemptSeen_of_leavesAlone (ha : AnswersOwn answer) {kind : ArtifactKind} {c : RenderContext}
    {t : Text} {r : Resolver} (hr : (r.resolve kind c t).LeavesAlone t) {s : Session (ω × Transcript)}
    (hs : s.cancelled = false) :
    let out := attemptSeen .scribe answer kind c t r s
    out.1 = .ok t ∧ ∃ U, (∀ ev ∈ U, ev.IsOwn) ∧ s.Sees (.resolver kind r.name t :: U) out.2 := by
  intro out
  let s₁ := s.seen .scribe (.resolver kind r.name t)
  have hseen : s.Sees [.resolver kind r.name t] s₁ := ⟨rfl, rfl, rfl⟩
  have hs₁ : s₁.cancelled = false := hs
  have hout : out = attempt answer kind c t r s₁ := attemptSeen_apply hs
  have hrun := endsAlone_run ha hr s₁
  obtain ⟨U, hU, hsees⟩ := hrun.sees
  rw [hout, attempt_apply, if_neg (Bool.eq_false_iff.1 hs₁)]
  rcases hresult : run answer (r.resolve kind c t) s₁ with ⟨result, s'⟩
  rw [hresult] at hrun hsees
  cases result with
  | ok t' =>
    obtain rfl : t' = t := hrun.given t' rfl
    exact ⟨rfl, U, hU, hseen.trans hsees⟩
  | error err =>
    have hne := hrun.failed err rfl
    cases err with
    | cancelled => exact absurd rfl hne
    | _ => exact ⟨rfl, U, hU, hseen.trans ⟨hsees.world, hsees.memo, hsees.cancelled⟩⟩

end Engine

/-! ## 6. Renders -/

namespace RenderEvent

/-- A resolver got the text, or the render answered itself. -/
def Hands (kind : ArtifactKind) (t : Text) : RenderEvent → Prop
  | .resolver k _ given => k = kind ∧ given = t
  | ev => ev.IsOwn

/-- The resolver whose turn it is. -/
def turn? : RenderEvent → Option String
  | .resolver _ name _ => some name
  | _ => none

theorem IsOwn.hands {ev : RenderEvent} (h : ev.IsOwn) (kind : ArtifactKind) (t : Text) :
    ev.Hands kind t := by
  cases ev with
  | answered o x => exact h
  | _ => exact h.elim

theorem IsOwn.turn?_eq {ev : RenderEvent} (h : ev.IsOwn) : ev.turn? = none := by
  cases ev with
  | answered o x => rfl
  | _ => exact h.elim

end RenderEvent

namespace Engine

/-- **A render that leaves its text alone** and calls nobody. -/
structure LeavesAlone (e : Engine ω) (kind : ArtifactKind) (c : RenderContext) (t : Text) (w : ω) :
    Prop where
  /-- it ends with the text it was given, in the world it began in -/
  result : ∃ diagnostics, e.render kind c t w false = (.ok ⟨t, diagnostics⟩, w)
  /-- writing the transcript changes nothing -/
  transcript : ((e.transcribed kind c t w false).1, (e.transcribed kind c t w false).2.1) =
    e.render kind c t w false
  /-- all resolvers that take part have their turn -/
  turns : (e.transcribed kind c t w false).2.2.filterMap RenderEvent.turn? = e.pipeline kind
  /-- each gets the text as it was given, and besides that the render answers itself: there is no call
      to a collaborator and no nested render -/
  hands : ∀ ev ∈ (e.transcribed kind c t w false).2.2, ev.Hands kind t

variable {answer : (o : RenderOp) → SessionM (ω × Transcript) o.Answer} {kind : ArtifactKind}
  {c : RenderContext}

/-- Resolvers that leave a text alone hand it on to each other. -/
theorem foldlM_attemptSeen (ha : AnswersOwn answer) {rs : List Resolver}
    (hrs : ∀ r ∈ rs, (r.resolve kind c t).LeavesAlone t) {s : Session (ω × Transcript)}
    (hs : s.cancelled = false) :
    let out := rs.foldlM (attemptSeen .scribe answer kind c) t s
    out.1 = .ok t ∧ ∃ T : Transcript, (∀ ev ∈ T, ev.Hands kind t) ∧
      T.filterMap RenderEvent.turn? = rs.map (·.name) ∧ s.Sees T out.2 := by
  induction rs generalizing s with
  | nil => exact ⟨rfl, [], fun _ h => absurd h List.not_mem_nil, rfl, .of_log s s.log⟩
  | cons r rs ih =>
    obtain ⟨hgiven, U, hU, hsees⟩ := attemptSeen_of_leavesAlone ha (hrs r List.mem_cons_self) hs
    have hcancelled := hsees.cancelled.trans hs
    obtain ⟨hrest, T, hT, hturns, hsees'⟩ := ih (fun r hr => hrs r (List.mem_cons_of_mem _ hr)) hcancelled
    rw [List.foldlM_cons, SessionM.bind_apply, hgiven]
    refine ⟨hrest, _, fun ev hev => ?_, ?_, hsees.trans hsees'⟩
    · rcases List.mem_append.1 hev with hev | hev
      · rcases List.mem_cons.1 hev with rfl | hev
        · exact ⟨rfl, rfl⟩
        · exact (hU ev hev).hands kind t
      · exact hT ev hev
    · have hown : U.filterMap RenderEvent.turn? = [] :=
        List.filterMap_eq_nil_iff.2 fun ev hev => (hU ev hev).turn?_eq
      rw [List.filterMap_append, List.filterMap_cons, hown, hturns]
      rfl

/-- The transcript of a render is that of the resolvers' turns. -/
theorem transcribed_apply (e : Engine ω) (kind : ArtifactKind) (c : RenderContext) (t : Text) (w : ω) :
    let answer := e.transcribing.answerSeen .scribe (e.transcribing.nestedSeen .scribe e.maxDepth) 0
    let out := (e.applicable kind).foldlM (attemptSeen .scribe answer kind c) t
      (reported e.transcribing t (Session.start (w, []) false))
    e.transcribed kind c t w false = (out.1.map fun t => ⟨t, out.2.log.entries⟩, out.2.world) := by
  intro answer out
  have hpass : e.transcribing.passSeen .scribe answer kind c t (Session.start (w, []) false) = out := by
    unfold passSeen
    rw [SessionM.bind_apply, forM_record]
    rfl
  rw [← hpass]
  exact renderSeen_eq _ _ _ _ _ _ _

/-- A render by such resolvers, with its transcript. -/
theorem transcribed_of_leavesAlone {e : Engine ω}
    (hrs : ∀ r ∈ e.applicable kind, (r.resolve kind c t).LeavesAlone t) (w : ω) :
    ∃ diagnostics T, e.transcribed kind c t w false = (.ok ⟨t, diagnostics⟩, (w, T)) ∧
      (∀ ev ∈ T, ev.Hands kind t) ∧ T.filterMap RenderEvent.turn? = e.pipeline kind := by
  let answer := e.transcribing.answerSeen .scribe (e.transcribing.nestedSeen .scribe e.maxDepth) 0
  let s := reported e.transcribing t (Session.start (w, []) false)
  let out := (e.applicable kind).foldlM (attemptSeen .scribe answer kind c) t s
  have hs : s.cancelled = false := rfl
  obtain ⟨hgiven, T, hT, hturns, hsees⟩ := foldlM_attemptSeen (answersOwn_answerSeen _ _ _) hrs hs
  have hrender : e.transcribed kind c t w false =
      (out.1.map fun t => ⟨t, out.2.log.entries⟩, out.2.world) := transcribed_apply e kind c t w
  have hworld : out.2.world = (w, T) := hsees.world
  refine ⟨out.2.log.entries, T, ?_, hT, hturns⟩
  rw [hrender, hworld, show out.1 = .ok t from hgiven]
  rfl

/-- **Foreign text passes through the standard resolvers as it is**: a render of whatever kind and whatever
    subject, with whatever collaborators, ends with the text it was given, and it calls none of them. -/
theorem leavesAlone_standard (services : Services ω) (maxDepth : Nat) (kind : ArtifactKind)
    (c : RenderContext) {t : Text} (h : Foreign t) (w : ω) :
    (Engine.standard services maxDepth).LeavesAlone kind c t w := by
  have hrs : ∀ r ∈ (Engine.standard services maxDepth).applicable kind,
      (r.resolve kind c t).LeavesAlone t := by
    intro r hr
    rw [applicable_standard] at hr
    obtain ⟨topic, -, rfl⟩ := List.mem_map.1 (List.mem_filter.1 hr).1
    exact topic.leavesAlone_resolve (h.isForeign topic) kind c
  obtain ⟨diagnostics, T, hseen, hT, hturns⟩ := transcribed_of_leavesAlone hrs w
  have htranscript := (Engine.standard services maxDepth).transcribed_fst kind c t w false
  refine ⟨⟨diagnostics, ?_⟩, htranscript, ?_, ?_⟩
  · rw [← htranscript, hseen]
  · rw [hseen]
    exact hturns
  · rw [hseen]
    exact hT

/-- A script of another program, with braces of its own, a name with blanks inside, a marker that nothing
    closes and line ends of both kinds. -/
def script : Text :=
  "local grid = \x7b\x7b1, 2\x7d, \x7b3\x7d\x7d\r\n".toList ++ (braced " unknown  name ".toList ++
    (braced "Quest_Start".toList ++ "\r\n\x7b\x7b\x7b\n".toList))

theorem leavesAlone_script :
    Foreign script ∧
      (Engine.standard (Services.inMemory ⟨[], []⟩ .builtIn .standard) 16).LeavesAlone .npc
        (.ofObject ⟨"a", "Goblin", .npc, [], [], [], [], []⟩) script KeyTable.empty :=
  have h : Foreign script := by decide +kernel
  ⟨h, leavesAlone_standard _ _ _ _ h _⟩

end Engine

end RecordExport

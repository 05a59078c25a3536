import RecordExport.Proofs.Fields.Usage
import RecordExport.Proofs.Render.Alongside
import RecordExport.Proofs.Template.Shielded
import RecordExport.Resolver.Standard
/-!
# Resolvers that pass contents by

A resolver that knows no name in or around exchanged contents does the same for both texts: it asks for the
same, reports the same and leaves the contents where they are.

* `alongside_resolveObject`: so do the placeholders of an object in a namespace of their own;
* `Topic.names`: how the names begin that the resolver of a topic looks for;
* `Topic.alongside_resolve`: so does each resolver that takes part in the render of an object, but for the
  one of its fields.
-/

namespace RecordExport

open RenderProgram

variable {ω : Type} {answer : (o : RenderOp) → SessionM ω o.Answer} {H : Exchange} {start t t' : Text}

/-! ## 1. What the resolvers share -/

theorem alongside_fillKey (hE : H.Edged) (hH : H.Avoids start) (name : String)
    (hname : start <+: name.toList) (r : KeyRequest) (h : Exchanged H t t') :
    Alongside answer (Exchanged H) (fillKey name r t) (fillKey name r t') :=
  replaceScalarsM_shielded pairedBy_alongside hE (hH.lacks (begins_parts hname []))
    (fun _ => alongside_self _) .inline h

theorem alongside_fillAll (hE : H.Edged) (hH : H.Avoids start) (name : String)
    (hname : start <+: name.toList) (make : RenderProgram Text) (h : Exchanged H t t') :
    Alongside answer (Exchanged H) (fillAll name make t) (fillAll name make t') := by
  unfold fillAll
  rw [scalarsIn_shielded (p := .literal name.toList) (hH.lacks (begins_parts hname [])) h]
  split
  · exact alongside_pure h
  · exact alongside_bind _ fun made => alongside_pure (fill_shielded hE hH _ hname .fitted made h)

/-! ## 2. Objects -/

section Objects

variable {space : String}

theorem begins_condition (hspace : start <+: (space ++ "_").toList) (c : FieldCondition) :
    (c.family space).Begins start := by
  rw [String.toList_append] at hspace
  cases c <;> exact ⟨begins_parts hspace _, begins_parts hspace _⟩

theorem alongside_settle (hH : H.Avoids start) (hspace : start <+: (space ++ "_").toList) (o : GameObject)
    (c : FieldCondition) (h : Exchanged H t t') :
    Alongside answer (Exchanged H) (c.settle o space t) (c.settle o space t') :=
  keepBlocksM_shielded pairedBy_alongside _ (fun _ => alongside_self _)
    (hH.marks (begins_condition hspace c)) h

theorem alongside_fillIdentity (hE : H.Edged) (hH : H.Avoids start)
    (hspace : start <+: (space ++ "_").toList) (o : GameObject) (type : ObjectType)
    (h : Exchanged H t t') :
    Alongside answer (Exchanged H) (fillIdentity o type space t) (fillIdentity o type space t') := by
  have hname := begins_name hspace
  refine alongside_bind _ fun name => alongside_fillKey hE hH _ (hname "Name_LangKey") _ ?_
  exact fill_shielded hE hH _ (hname "Name") .inline _ (fill_shielded hE hH _ (hname "Id") .inline _ h)

theorem alongside_fillListings (hE : H.Edged) (hH : H.Avoids start)
    (hspace : start <+: (space ++ "_").toList) (o : GameObject) (type : ObjectType) (used : List String)
    (h : Exchanged H t t') :
    Alongside answer (Exchanged H) (fillListings o type space used t)
      (fillListings o type space used t') := by
  have hname := begins_name hspace
  refine Alongside.bind ?_ fun t t' ht => alongside_fillAll hE hH _ (hname "AllFields") _ ht
  exact alongside_fillAll hE hH _ (hname "UnusedFields") _ (gate_shielded hH _ (hname "HasUnusedFields") _ h)

/-- **The placeholders of an object** are resolved around contents that have no name of its namespace. -/
theorem alongside_resolveObject (hE : H.Edged) (hH : H.Avoids start) (space : String)
    (hspace : start <+: (space ++ "_").toList) (o : GameObject) (type : ObjectType)
    (h : Exchanged H t t') :
    Alongside answer (Exchanged H) (resolveObject o type space t) (resolveObject o type space t') := by
  have hparts : ∀ ps, H.Lacks fun name => (Pattern.within space.toList ps).isMatch name = true := by
    rw [String.toList_append] at hspace
    exact fun ps => hH.lacks (begins_parts hspace ps)
  rw [resolveObject_eq, resolveObject_eq]
  refine (pairedBy_alongside.foldlM (fun c _ _ _ ht => alongside_settle hH hspace o c ht) h).bind
    fun t t' ht => ?_
  refine (alongside_fillIdentity hE hH hspace o type ht).bind fun t t' ht => ?_
  dsimp only
  rw [scalarsIn_shielded (p := FieldPlaceholder.valueKey space) (hparts _) ht]
  refine alongside_bind _ fun keys => ?_
  have ht := placeValues_shielded (p := FieldPlaceholder.valueKey space) hE (hparts _) .inline keys ht
  rw [scalarsIn_shielded (p := FieldPlaceholder.value space) (hparts _) ht]
  refine alongside_bind _ fun values => alongside_fillListings hE hH hspace o type _ ?_
  exact placeValues_shielded hE (hparts _) .fitted values ht

end Objects

/-! ## 3. Snippets and dialogs -/

theorem alongside_resolveSnippets (hE : H.Edged) (hcode : H.Avoids "Snippet_".toList)
    (hhas : H.Avoids "HasSnippet_".toList) (hhasNot : H.Avoids "HasNotSnippet_".toList) (o : GameObject)
    (type : ObjectType) (h : Exchanged H t t') :
    Alongside answer (Exchanged H) (resolveSnippets o type t) (resolveSnippets o type t') := by
  have huse : ∀ (ps : List NamePart) (placement : Placement) (give) {t t' : Text}, Exchanged H t t' →
      StateAlongside answer (Exchanged H)
        (replaceScalarsM (.ofParts (.fixed "Snippet_".toList :: ps)) placement t (useSnippet o give))
        (replaceScalarsM (.ofParts (.fixed "Snippet_".toList :: ps)) placement t' (useSnippet o give)) :=
    fun ps placement give t t' ht => replaceScalarsM_shielded pairedBy_stateAlongside hE
      (hcode.lacks (begins_parts (List.prefix_refl _) ps)) (fun _ => stateAlongside_self _) placement ht
  have hkeep : Exchanged H
      (keepBlocks SnippetPlaceholder.hasNotSnippet
        (keepBlocks SnippetPlaceholder.hasSnippet t fun cs => (o.snippet? (cs.getD 0 [])).isSome)
        fun cs => (o.snippet? (cs.getD 0 [])).isNone)
      (keepBlocks SnippetPlaceholder.hasNotSnippet
        (keepBlocks SnippetPlaceholder.hasSnippet t' fun cs => (o.snippet? (cs.getD 0 [])).isSome)
        fun cs => (o.snippet? (cs.getD 0 [])).isNone) := by
    refine keepBlocks_shielded _ (hhasNot.marks ?_) (keepBlocks_shielded _ (hhas.marks ?_) h)
    · exact ⟨begins_parts (List.prefix_refl _) _, begins_parts ⟨_, rfl⟩ _⟩
    · exact ⟨begins_parts (List.prefix_refl _) _, begins_parts ⟨_, rfl⟩ _⟩
  have hfill : StateAlongside answer (Exchanged H)
      (fillSnippets o type (keepBlocks SnippetPlaceholder.hasNotSnippet
        (keepBlocks SnippetPlaceholder.hasSnippet t fun cs => (o.snippet? (cs.getD 0 [])).isSome)
        fun cs => (o.snippet? (cs.getD 0 [])).isNone))
      (fillSnippets o type (keepBlocks SnippetPlaceholder.hasNotSnippet
        (keepBlocks SnippetPlaceholder.hasSnippet t' fun cs => (o.snippet? (cs.getD 0 [])).isSome)
        fun cs => (o.snippet? (cs.getD 0 [])).isNone)) :=
    pairedBy_stateAlongside.sequence (huse _ _ _ hkeep) fun _ _ ht =>
      pairedBy_stateAlongside.sequence (huse _ _ _ ht) fun _ _ ht => huse _ _ _ ht
  refine (hfill []).bind ?_
  rintro ⟨t, used⟩ ⟨t', _⟩ ⟨ht, rfl⟩
  exact alongside_bind _ fun _ => alongside_pure ht

section Dialog

variable (hE : H.Edged) (hH : H.Avoids "Tale_".toList)
include hE hH

theorem alongside_fillFunctions (name : String) (hname : "Tale_".toList <+: name.toList)
    (fs : List ScriptFunction) (h : Exchanged H t t') :
    Alongside answer (Exchanged H) (fillFunctions name fs t) (fillFunctions name fs t') := by
  unfold fillFunctions
  rw [mentions_shielded _ (hH.mono hname) h]
  split
  · exact alongside_bind _ fun rendered => alongside_pure (fill_shielded hE hH _ hname .fitted rendered h)
  · exact alongside_pure h

theorem alongside_resolveDialog (npc : GameObject) (h : Exchanged H t t') :
    Alongside answer (Exchanged H) (resolveDialog npc t) (resolveDialog npc t') := by
  refine alongside_bind _ fun found => ?_
  dsimp only
  cases found.filter fun d => !d.nodes.isEmpty with
  | none =>
    have ht := gate_shielded hH "Tale_HasNoDialog" ⟨_, rfl⟩ true
      (gate_shielded hH "Tale_HasDialog" ⟨_, rfl⟩ false h)
    refine alongside_pure ?_
    refine fill_shielded hE hH "Tale_Additional_Functions" ⟨_, rfl⟩ .fitted [] ?_
    refine fill_shielded hE hH "Tale_Initial_Function" ⟨_, rfl⟩ .fitted [] ?_
    exact fill_shielded hE hH "Tale_Initial_Function_Name" ⟨_, rfl⟩ .inline [] ht
  | some d =>
    have ht := gate_shielded hH "Tale_HasNoDialog" ⟨_, rfl⟩ (some d).isNone
      (gate_shielded hH "Tale_HasDialog" ⟨_, rfl⟩ (some d).isSome h)
    dsimp only
    rw [mentions_shielded "Tale_Initial_Function" (hH.mono ⟨_, rfl⟩) ht,
      mentions_shielded "Tale_Additional_Functions" (hH.mono ⟨_, rfl⟩) ht]
    split
    · refine alongside_bind _ fun fs => ?_
      refine (alongside_fillFunctions hE hH "Tale_Initial_Function" ⟨_, rfl⟩ _ ?_).bind
        fun t t' ht => alongside_fillFunctions hE hH "Tale_Additional_Functions" ⟨_, rfl⟩ _ ht
      exact fill_shielded hE hH "Tale_Initial_Function_Name" ⟨_, rfl⟩ .inline _ ht
    · exact alongside_pure ht

end Dialog

/-! ## 4. Routines -/

section Routines

variable (hE : H.Edged) (hH : H.Avoids "DailyRoutine_".toList)
include hE hH

theorem fillValues_shielded (space : String) (hspace : "DailyRoutine_".toList <+: (space ++ "_").toList)
    (values : List (String × Text)) (h : Exchanged H t t') :
    Exchanged H (fillValues space values t) (fillValues space values t') := by
  induction values generalizing t t' with
  | nil => exact h
  | cons v values ih =>
    refine ih (fill_shielded hE hH _ ?_ .inline v.2 h)
    rw [String.toList_append]
    exact hspace.trans (List.prefix_append _ _)

theorem alongside_renderEvent (npc : GameObject) (e : ScheduleEvent) (position : ListPosition)
    (h : Exchanged H t t') :
    Alongside answer (Exchanged H) (renderEvent npc e position t) (renderEvent npc e position t') := by
  refine alongside_bind _ fun s => ?_
  dsimp only
  have ht := fillPosition_shielded hE hH eventSpace ⟨_, rfl⟩ position h
  have ht := gate_shielded hH "DailyRoutine_Event_HasMovementTarget" ⟨_, rfl⟩
    e.movementTarget.isSome ht
  have ht := gate_shielded hH "DailyRoutine_Event_HasScript" ⟨_, rfl⟩ e.script.isSome ht
  have ht := fillValues_shielded hE hH eventSpace ⟨_, rfl⟩ (eventValues s e) ht
  rw [mentions_shielded "DailyRoutine_Event_ScriptFunction" (hH.mono ⟨_, rfl⟩) ht]
  split
  · exact alongside_bind _ fun fs => alongside_pure
      (fill_shielded hE hH "DailyRoutine_Event_ScriptFunction" ⟨_, rfl⟩ .inline _ ht)
  · exact alongside_pure ht

theorem alongside_resolveRoutine (npc : GameObject) (type : ObjectType) (h : Exchanged H t t') :
    Alongside answer (Exchanged H) (resolveRoutine npc type t) (resolveRoutine npc type t') := by
  have hgate := gate_shielded hH "DailyRoutine_HasEvents" ⟨_, rfl⟩ (!npc.dailyRoutine.isEmpty) h
  have hevents : (BlockFamily.ofStem "DailyRoutine_Events".toList).Begins "DailyRoutine_".toList :=
    begins_ofStem ⟨_, rfl⟩
  refine (expandBlocksM_shielded pairedBy_alongside (hH.marks hevents)
    (fun e _ position inner inner' hinner => alongside_renderEvent hE hH npc e position hinner)
    hgate).bind fun t t' ht => ?_
  rw [fillOnce_eq, fillOnce_eq]
  exact alongside_fillAll hE hH "DailyRoutine_Functions" ⟨_, rfl⟩ _ ht

end Routines

/-! ## 5. Inventory and skills -/

section Possessions

variable (hE : H.Edged)
include hE

theorem alongside_fillDetails (hH : H.Avoids start) (name : String) (hname : start <+: name.toList)
    (kind : ArtifactKind) (type : ObjectType) (o : GameObject) (h : Exchanged H t t') :
    Alongside answer (Exchanged H) (fillDetails name kind type o t) (fillDetails name kind type o t') :=
  alongside_bind _ fun details => alongside_pure (fill_shielded hE hH _ hname .fitted details h)

theorem alongside_renderInventoryEntry (hH : H.Avoids "Inventory_".toList) (e : InventoryEntry × GameObject)
    (position : ListPosition) (h : Exchanged H t t') :
    Alongside answer (Exchanged H) (renderInventoryEntry e position t)
      (renderInventoryEntry e position t') := by
  have ht := fillPosition_shielded hE hH "Inventory" ⟨_, rfl⟩ position h
  have ht := gate_shielded hH "Inventory_IsEquipped" ⟨_, rfl⟩ e.1.isEquipped ht
  have ht := gate_shielded hH "Inventory_IsNotEquipped" ⟨_, rfl⟩ (!e.1.isEquipped) ht
  have ht := fill_shielded hE hH "Inventory_Quantity" ⟨_, rfl⟩ .inline
    (Json.decimal e.1.quantity.toNat) ht
  refine ((alongside_resolveObject hE hH inventoryItemSpace ⟨_, rfl⟩ e.2 .item ht).within _).bind
    fun t t' ht => ?_
  rw [mentions_shielded "Inventory_ItemDetails" (hH.mono ⟨_, rfl⟩) h]
  split
  · exact alongside_fillDetails hE hH "Inventory_ItemDetails" ⟨_, rfl⟩ _ _ _ ht
  · exact alongside_pure ht

theorem alongside_resolveInventory (hH : H.Avoids "Inventory_".toList) (npc : GameObject)
    (h : Exchanged H t t') :
    Alongside answer (Exchanged H) (resolveInventory npc t) (resolveInventory npc t') := by
  refine alongside_bind _ fun entries => ?_
  have hgate := gate_shielded hH "Inventory_HasItems" ⟨_, rfl⟩ (!entries.isEmpty) h
  have hentries : (BlockFamily.ofStem "Inventory".toList).Begins "Inventory_".toList :=
    begins_ofStem (List.prefix_refl _)
  exact expandBlocksM_shielded pairedBy_alongside (hH.marks hentries)
    (fun e _ position inner inner' hinner => alongside_renderInventoryEntry hE hH e position hinner) hgate

theorem alongside_renderSkill (hH : H.Avoids "Skill_".toList) (o : GameObject) (position : ListPosition)
    (h : Exchanged H t t') :
    Alongside answer (Exchanged H) (renderSkill o position t) (renderSkill o position t') := by
  have ht := fillPosition_shielded hE hH "Skill" ⟨_, rfl⟩ position h
  refine ((alongside_resolveObject hE hH "Skill" ⟨_, rfl⟩ o .skill ht).within _).bind
    fun t t' ht => ?_
  rw [mentions_shielded "Skill_Details" (hH.mono ⟨_, rfl⟩) h]
  split
  · exact alongside_fillDetails hE hH "Skill_Details" ⟨_, rfl⟩ _ _ _ ht
  · exact alongside_pure ht

theorem alongside_resolveSkills (hlist : H.Avoids "Skills_".toList) (hitem : H.Avoids "Skill_".toList)
    (npc : GameObject) (h : Exchanged H t t') :
    Alongside answer (Exchanged H) (resolveSkills npc t) (resolveSkills npc t') := by
  refine alongside_bind _ fun found => ?_
  have hgate := gate_shielded hlist "Skills_HasSkills" ⟨_, rfl⟩ (!(found.map (·.2)).isEmpty) h
  have hskills : (BlockFamily.ofStem "Skills".toList).Begins "Skills_".toList :=
    begins_ofStem (List.prefix_refl _)
  exact expandBlocksM_shielded pairedBy_alongside (hlist.marks hskills)
    (fun o _ position inner inner' hinner => alongside_renderSkill hE hitem o position hinner) hgate

end Possessions

end RecordExport

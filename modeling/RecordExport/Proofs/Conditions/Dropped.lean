import RecordExport.Proofs.Conditions.Passing
/-!
# Contents of dropped blocks

What a condition drops is INERT if nothing that comes before the condition knows a name in it: whatever
else stood there, the same would be asked for and the same would come of it.

* `resolveConditions_inert`: so it is in the text of an object;
* `ListedItem.render_inert`: and so it is in the text of an item of a list, where what is dropped depends on
  the item. Its gates come one after the other, and then the conditions on the fields of its object.
-/

namespace RecordExport

open RenderProgram

variable {H : Exchange} {f : BlockFamily} {drops : List Text → Prop} {known : Text → Prop} {t t' : Text}

/-! ## 1. Contents that nothing knows -/

/-- **Contents of dropped blocks** in which and around which no placeholder has a name that is known. -/
def Inert (f : BlockFamily) (drops : List Text → Prop) (known : Text → Prop) : Exchange := fun k c c' =>
  DroppedContents f drops k c c' ∧
    ∀ b, (.placeholder b ∈ k.tokens c ∨ .placeholder b ∈ k.tokens c') → ¬ known (Text.trim b)

theorem edged_inert : (Inert f drops known).Edged := fun h => h.1.2.2

theorem lacks_inert {P : Text → Prop} (h : ∀ name, P name → known name) :
    (Inert f drops known).Lacks P :=
  fun hc b hb hP => hc.2 b hb (h _ hP)

theorem Exchanged.mono {H' : Exchange} (hH : ∀ {k c c'}, H k c c' → H' k c c') (h : Exchanged H t t') :
    Exchanged H' t t' := by
  induction h with
  | same a => exact .same a
  | swap a content _ ih => exact .swap a (hH content) ih

theorem Exchanged.dropped (h : Exchanged (Inert f drops known) t t') :
    Exchanged (DroppedContents f drops) t t' :=
  h.mono fun hc => hc.1

/-- Conditions that are decided without asking leave nothing of what they drop. -/
theorem keepBlocks_dropped {decision : List Text → Bool}
    (h : Exchanged (DroppedContents f fun cs => decision cs = false) t t') :
    keepBlocks f t decision = keepBlocks f t' decision :=
  keepBlocksM_dropped (m := Id) (fun hc => hc) h

theorem gate_dropped (stem : String) (kept : Bool) (hkept : ∀ cs, drops cs → kept = false)
    (h : Exchanged (Inert (.ofStem stem.toList) drops known) t t') :
    gate stem kept t = gate stem kept t' :=
  keepBlocks_dropped (h.dropped.mono fun hc => ⟨hc.1.mono hkept, hc.2.1.mono hkept, hc.2.2⟩)

/-! ## 2. Hollow contents -/

/-- Another brace stands for one that can open a placeholder. -/
def unbraced (c : Char) : Char := if c = '{' then '(' else c

/-- The text without placeholders. -/
def hollow (t : Text) : Text := t.map unbraced

theorem comp_unbraced {q : Char → Bool} (h : q '(' = q '{') : q ∘ unbraced = q := by
  funext c
  unfold unbraced
  dsimp only [Function.comp]
  split
  · rename_i hc
    rw [hc, h]
  · rfl

theorem not_mem_hollow (t : Text) : '{' ∉ hollow t := by
  intro hm
  obtain ⟨c, -, hc⟩ := List.mem_map.1 hm
  unfold unbraced at hc
  split at hc
  · cases hc
  · rename_i hne
    exact hne hc

theorem not_mem_tokenize_hollow (t b : Text) : Token.placeholder b ∉ tokenize (hollow t) := by
  intro hb
  have hm : '{' ∈ sourceOf (tokenize (hollow t)) :=
    List.mem_flatMap.2 ⟨.placeholder b, hb, List.mem_cons_self⟩
  rw [source_tokenize] at hm
  exact not_mem_hollow t hm

theorem firstLine_hollow (t : Text) : Text.firstLine (hollow t) = hollow (Text.firstLine t) := by
  unfold Text.firstLine hollow
  rw [List.takeWhile_map, comp_unbraced rfl]

theorem lastLine_hollow (t : Text) : Text.lastLine (hollow t) = hollow (Text.lastLine t) := by
  have hreverse : ∀ t, (hollow t).reverse = hollow t.reverse := fun t => List.map_reverse.symm
  rw [Text.lastLine_eq_reverse, Text.lastLine_eq_reverse, hreverse, firstLine_hollow, hreverse]

theorem sameEdges_hollow (t : Text) : SameEdges t (hollow t) := by
  have hfeed : '\n' ∈ t ↔ '\n' ∈ hollow t := by
    have hany : (hollow t).any (· == '\n') = t.any (· == '\n') := by
      unfold hollow
      rw [List.any_map, comp_unbraced rfl]
    simpa [List.any_eq_true] using (Bool.eq_iff_iff.1 hany).symm
  have hpadding : ∀ l, (hollow l).all isPadding = l.all isPadding := by
    intro l
    unfold hollow
    rw [List.all_map, comp_unbraced rfl]
  refine ⟨?_, ?_, hfeed, fun _ => ?_⟩
  · unfold Text.opensBlank
    rw [firstLine_hollow, hpadding, decide_eq_decide.2 hfeed]
  · unfold Text.closesBlank
    rw [lastLine_hollow, hpadding, decide_eq_decide.2 hfeed]
  · unfold leadingIndent
    rw [lastLine_hollow]
    unfold hollow
    rw [List.takeWhile_map, comp_unbraced rfl]
    refine ((List.map_congr_left fun c hc => ?_).trans (List.map_id _)).symm
    have hblank := List.mem_takeWhile_imp hc
    unfold unbraced
    split
    · rename_i hbrace
      rw [hbrace] at hblank
      cases hblank
    · rfl

/-- **Contents that nothing knows may be exchanged for hollow ones.** -/
theorem inert_hollow {k : Markers} {c : Text} (h : Dropped f drops k c)
    (hknown : ∀ b, .placeholder b ∈ k.tokens c → ¬ known (Text.trim b)) :
    Inert f drops known k c (hollow c) := by
  have hplain : ∀ t ∈ tokenize (hollow c), f.isOpening t = false ∧ f.isClosing t = false := by
    intro t ht
    refine not_marker_of_not_marks fun b hb => ?_
    rw [hb] at ht
    exact absurd ht (not_mem_tokenize_hollow c b)
  refine ⟨⟨h, { h with inside := balanced_of_not_marker hplain }, sameEdges_hollow c⟩, fun b hb => ?_⟩
  rcases hb with hb | hb
  · exact hknown b hb
  · have hmarker : b = k.opening ∨ b = k.closing := by
      rcases List.mem_cons.1 hb with heq | hb
      · exact .inl (Token.placeholder.inj heq)
      · rcases List.mem_append.1 hb with hb | hb
        · exact absurd hb (not_mem_tokenize_hollow c b)
        · exact .inr (Token.placeholder.inj (List.mem_singleton.1 hb))
    refine hknown b ?_
    rcases hmarker with rfl | rfl
    · exact List.mem_cons_self
    · exact List.mem_cons_of_mem _ (List.mem_append_right _ (List.mem_singleton_self _))

/-! ## 3. Conditions on fields -/

/-- The conditions that are settled before one. -/
def FieldCondition.sooner (c : FieldCondition) : List FieldCondition := all.takeWhile (· ≠ c)

theorem FieldCondition.exists_all_eq (c : FieldCondition) :
    ∃ later, all = c.sooner ++ c :: later := by
  cases c <;> exact ⟨_, rfl⟩

/-- **A condition on fields that is dropped** shields what the conditions before it do not know. -/
theorem resolveConditions_inert {o : GameObject} {space : String} (c : FieldCondition)
    (hknown : ∀ c' ∈ c.sooner, ∀ name, (c'.family space).marks name → known name)
    (h : Exchanged (Inert (c.family space) (fun cs => c.holds o cs = false) known) t t') :
    resolveConditions o space t = resolveConditions o space t' := by
  obtain ⟨later, hall⟩ := c.exists_all_eq
  rw [resolveConditions_eq, resolveConditions_eq, hall, List.foldlM_append, List.foldlM_append]
  have hsooner := pairedBy_indistinct.foldlM (m := RenderProgram)
    (f := FieldCondition.settle o space) (g := FieldCondition.settle o space) (l := c.sooner)
    (fun c' hc' t t' ht => keepBlocksM_shielded pairedBy_indistinct (c'.decision o)
      (fun cs => indistinct_self _) (lacks_inert (hknown c' hc')) ht) h
  refine hsooner _ _ fun t t' ht => ?_
  rw [List.foldlM_cons, List.foldlM_cons, c.settle_dropped ht.dropped]

theorem resolveObject_inert {o : GameObject} {space : String} (type : ObjectType) (c : FieldCondition)
    (hknown : ∀ c' ∈ c.sooner, ∀ name, (c'.family space).marks name → known name)
    (h : Exchanged (Inert (c.family space) (fun cs => c.holds o cs = false) known) t t') :
    resolveObject o type space t = resolveObject o type space t' := by
  unfold resolveObject
  rw [resolveConditions_inert c hknown h]

/-! ## 4. Passes over the text of an item -/

/-- What is done to the text of an item without asking for anything. -/
inductive TextPass where
  /-- keep or drop the blocks with a stem -/
  | gate (stem : String) (kept : Bool)
  /-- put a value in the place of every placeholder with a name -/
  | fill (name : String) (value : Text)

namespace TextPass

/-- Do it. -/
def apply (t : Text) : TextPass → Text
  | .gate stem kept => RecordExport.gate stem kept t
  | .fill name value => RecordExport.fill name .inline value t

/-- The names that are looked for. -/
def knows (name : Text) : TextPass → Prop
  | .gate stem _ => (BlockFamily.ofStem stem.toList).marks name
  | .fill other _ => (Pattern.literal other.toList).isMatch name = true

theorem foldl_shielded (hE : H.Edged) (passes : List TextPass)
    (hH : ∀ q ∈ passes, H.Lacks fun name => q.knows name) (h : Exchanged H t t') :
    Exchanged H (passes.foldl apply t) (passes.foldl apply t') := by
  induction passes generalizing t t' with
  | nil => exact h
  | cons q passes ih =>
    refine ih (fun q hq => hH q (List.mem_cons_of_mem _ hq)) ?_
    have hq : H.Lacks fun name => q.knows name := hH q List.mem_cons_self
    cases q with
    | gate stem kept => exact keepBlocks_shielded _ hq h
    | fill name value =>
      exact replaceScalarsM_shielded pairedBy_id hE hq (fun _ => rfl) .inline h

/-- **A gate that is dropped** shields what the passes before it do not know. -/
theorem foldl_inert {before after : List TextPass} {stem : String}
    (h : Exchanged (Inert (.ofStem stem.toList) drops fun name => ∃ q ∈ before, q.knows name) t t') :
    (before ++ .gate stem false :: after).foldl apply t =
      (before ++ .gate stem false :: after).foldl apply t' := by
  rw [List.foldl_append, List.foldl_append, List.foldl_cons, List.foldl_cons]
  have hbefore := foldl_shielded edged_inert before
    (fun q hq => lacks_inert (P := fun name => q.knows name) fun _ hname => ⟨q, hq, hname⟩) h
  exact congrArg (after.foldl apply) (gate_dropped stem false (fun _ _ => rfl) hbefore)

end TextPass

/-- The passes that tell an item where it stands. -/
def positionPasses (space : String) (p : ListPosition) : List TextPass :=
  [.gate (space ++ "_IsFirst") p.isFirst, .gate (space ++ "_IsNotFirst") (!p.isFirst),
    .gate (space ++ "_IsLast") p.isLast, .gate (space ++ "_IsNotLast") (!p.isLast),
    .fill (space ++ "_Index") (Json.decimal p.index)]

/-! ## 5. Items -/

/-- An item of a list in the text of an object. -/
inductive ListedItem where
  | entry (e : InventoryEntry × GameObject)
  | skill (o : GameObject)
  | event (npc : GameObject) (e : ScheduleEvent)

namespace ListedItem

/-- The item's text. -/
def render (p : ListPosition) (inner : Text) : ListedItem → RenderProgram Text
  | .entry e => renderInventoryEntry e p inner
  | .skill o => renderSkill o p inner
  | .event npc e => renderEvent npc e p inner

/-- The passes that come first. -/
def passes (p : ListPosition) : ListedItem → List TextPass
  | .entry e =>
    positionPasses "Inventory" p ++
      [.gate "Inventory_IsEquipped" e.1.isEquipped, .gate "Inventory_IsNotEquipped" (!e.1.isEquipped),
        .fill "Inventory_Quantity" (Json.decimal e.1.quantity.toNat)]
  | .skill _ => positionPasses "Skill" p
  | .event _ e =>
    positionPasses eventSpace p ++
      [.gate "DailyRoutine_Event_HasMovementTarget" e.movementTarget.isSome,
        .gate "DailyRoutine_Event_HasScript" e.script.isSome]

/-- The object whose placeholders come after them, and their namespace. -/
def object? : ListedItem → Option (GameObject × String)
  | .entry e => some (e.2, inventoryItemSpace)
  | .skill o => some (o, "Skill")
  | .event _ _ => none

/-- The text of the block asks for the details of the item. -/
def asksDetails (inner : Text) : ListedItem → Bool
  | .entry _ => mentions "Inventory_ItemDetails" inner
  | .skill _ => mentions "Skill_Details" inner
  | .event _ _ => false

/-- What is done after the passes. -/
def finish (details : Bool) (t : Text) : ListedItem → RenderProgram Text
  | .entry e => do
    let t ← resolveNestedObject e.2 .item inventoryItemSpace t
    if details then fillDetails "Inventory_ItemDetails" .item .item e.2 t else pure t
  | .skill o => do
    let t ← resolveNestedObject o .skill "Skill" t
    if details then fillDetails "Skill_Details" .skill .skill o t else pure t
  | .event npc e => do
    let s ← RenderProgram.request .settings
    let t := fillValues eventSpace (eventValues s e) t
    if mentions "DailyRoutine_Event_ScriptFunction" t then do
      let fs ← eventFunctions npc e
      pure (fill "DailyRoutine_Event_ScriptFunction" .inline ((fs.head?.map (·.name.toList)).getD []) t)
    else pure t

theorem render_eq (x : ListedItem) (p : ListPosition) (inner : Text) :
    x.render p inner = x.finish (x.asksDetails inner) ((x.passes p).foldl TextPass.apply inner) := by
  cases x <;> rfl

variable {x : ListedItem} {p : ListPosition} {inner inner' : Text}

theorem finish_inert {o : GameObject} {space : String} (ho : x.object? = some (o, space)) (details : Bool)
    (c : FieldCondition) (hknown : ∀ c' ∈ c.sooner, ∀ name, (c'.family space).marks name → known name)
    (h : Exchanged (Inert (c.family space) (fun cs => c.holds o cs = false) known) t t') :
    x.finish details t = x.finish details t' := by
  cases x with
  | entry e =>
    cases ho
    unfold finish resolveNestedObject
    dsimp only
    rw [resolveObject_inert .item c hknown h]
  | skill o =>
    cases ho
    unfold finish resolveNestedObject
    dsimp only
    rw [resolveObject_inert .skill c hknown h]
  | event npc e => cases ho

/-- **What is dropped from an item's text is inert**, be it by a gate of the item or by a condition on the
    fields of its object. Whether the item's details are made is told by the block as it is written. -/
theorem render_inert (hdetails : x.asksDetails inner = x.asksDetails inner') :
    (∀ before stem after, x.passes p = before ++ .gate stem false :: after →
      Exchanged (Inert (.ofStem stem.toList) (fun _ => True) fun name => ∃ q ∈ before, q.knows name)
        inner inner' → x.render p inner = x.render p inner') ∧
    ∀ o space c, x.object? = some (o, space) →
      Exchanged (Inert (FieldCondition.family space c) (fun cs => c.holds o cs = false) fun name =>
        (∃ q ∈ x.passes p, q.knows name) ∨ ∃ c' ∈ c.sooner, (c'.family space).marks name) inner inner' →
      x.render p inner = x.render p inner' := by
  rw [render_eq, render_eq, hdetails]
  constructor
  · intro before stem after hpasses h
    rw [hpasses, TextPass.foldl_inert h]
  · intro o space c ho h
    refine finish_inert ho _ c (fun c' hc' _ hname => Or.inr ⟨c', hc', hname⟩)
      (TextPass.foldl_shielded edged_inert _ (fun q hq => ?_) h)
    exact lacks_inert (P := fun name => q.knows name) fun _ hname => .inl ⟨q, hq, hname⟩

end ListedItem

end RecordExport

import RecordExport.Resolver.Fields
/-!
# Skills and inventory

A character lists the ids of its skills and, with a quantity, of the items it carries. An object
that cannot be had is reported and left out, as if the character did not have it. Each of the others
is resolved in the block of its list under its own namespace; where the block mentions its details,
it is also rendered as an artefact of its own.
-/

namespace RecordExport

/-- Put an object's details in the place of every placeholder with a name. -/
def fillDetails (name : String) (kind : ArtifactKind) (type : ObjectType) (o : GameObject)
    (t : Text) : RenderProgram Text := do
  let details ← renderDetails kind type o
  pure (fill name .fitted details t)

/-! ## 1. Skills -/

/-- One skill of a character. -/
def renderSkill (o : GameObject) (p : ListPosition) (inner : Text) : RenderProgram Text := do
  let t := fillPosition "Skill" p inner
  let t ← resolveNestedObject o .skill "Skill" t
  if mentions "Skill_Details" inner then fillDetails "Skill_Details" .skill .skill o t
  else pure t

/-- Resolve the skills of a character. -/
def resolveSkills (npc : GameObject) (t : Text) : RenderProgram Text := do
  let found ← fetchObjects (fun id => id) npc.skills
  let skills := found.map (·.2)
  let t := gate "Skills_HasSkills" (!skills.isEmpty) t
  expandBlocksM (.ofStem "Skills".toList) t skills renderSkill

/-- Resolves the skills of a character. -/
def Resolver.skills : Resolver where
  name := "skills"
  applies k := k = .npc
  resolve _ c t :=
    if mentions "Skills_" t then do
      let npc ← singleObject "skills" c
      .within "Skills" (resolveSkills npc t)
    else pure t
  catalog _ :=
    [⟨"Skills_HasSkills_Start/Skills_HasSkills_End", "Kept if the NPC has at least one skill"⟩,
      ⟨"Skills_Start/Skills_End", "Repeated once per skill"⟩,
      ⟨"Skill_Details", "The skill rendered with its default template"⟩,
      ⟨"Skill_<Placeholder>", "Any skill placeholder, resolved against the skill"⟩]
      ++ positionCatalog "Skill" "skill"
  families := []

/-! ## 2. Inventory -/

/-- The namespace of an item inside the inventory. -/
def inventoryItemSpace : String := "Inventory_Item"

/-- One entry of an inventory with its item. -/
def renderInventoryEntry (e : InventoryEntry × GameObject) (p : ListPosition) (inner : Text) :
    RenderProgram Text := do
  let t := fillPosition "Inventory" p inner
  let t := gate "Inventory_IsEquipped" e.1.isEquipped t
  let t := gate "Inventory_IsNotEquipped" (!e.1.isEquipped) t
  let t := fill "Inventory_Quantity" .inline (Json.decimal e.1.quantity.toNat) t
  let t ← resolveNestedObject e.2 .item inventoryItemSpace t
  if mentions "Inventory_ItemDetails" inner then
    fillDetails "Inventory_ItemDetails" .item .item e.2 t
  else pure t

/-- Resolve the inventory of a character. -/
def resolveInventory (npc : GameObject) (t : Text) : RenderProgram Text := do
  let entries ← fetchObjects (·.itemId) npc.inventory
  let t := gate "Inventory_HasItems" (!entries.isEmpty) t
  expandBlocksM (.ofStem "Inventory".toList) t entries renderInventoryEntry

/-- Resolves the inventory of a character. -/
def Resolver.inventory : Resolver where
  name := "inventory"
  applies k := k = .npc
  resolve _ c t :=
    if mentions "Inventory_" t then do
      let npc ← singleObject "inventory" c
      .within "Inventory" (resolveInventory npc t)
    else pure t
  catalog _ :=
    [⟨"Inventory_HasItems_Start/Inventory_HasItems_End",
        "Kept if the NPC carries at least one item"⟩,
      ⟨"Inventory_Start/Inventory_End", "Repeated once per inventory entry"⟩,
      ⟨"Inventory_Quantity", "Number of items in the entry"⟩,
      ⟨"Inventory_IsEquipped_Start/Inventory_IsEquipped_End", "Kept if the item is equipped"⟩,
      ⟨"Inventory_IsNotEquipped_Start/Inventory_IsNotEquipped_End",
        "Kept if the item is not equipped"⟩,
      ⟨"Inventory_ItemDetails", "The item rendered with its default template"⟩,
      ⟨"Inventory_Item_<Placeholder>", "Any item placeholder, resolved against the entry's item"⟩]
      ++ positionCatalog "Inventory" "entry"
  families := []

end RecordExport

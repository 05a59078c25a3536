import RecordExport.Kind
import RecordExport.Template.Token
/-!
# Built-in templates

One template for every kind of artefact, written for a Lua runtime. A template is put together from
pieces, target-language text and the names of placeholders, so the names stay readable beside the
braces of the target language.
-/

namespace RecordExport

/-- A piece of a template. -/
inductive TemplatePiece where
  /-- target-language text -/
  | text (s : String)
  /-- a placeholder, by its name -/
  | slot (name : String)
  deriving DecidableEq, Repr

/-- The piece as it is written. -/
def TemplatePiece.source : TemplatePiece → Text
  | .text s => s.toList
  | .slot n => braced n.toList

namespace BuiltIn

/-- The template of a character. -/
def npc : List TemplatePiece :=
  [.text "local npc = \x7b\n",
   .text "    id = \"", .slot "Npc_Id", .text "\",\n",
   .text "    name = \"", .slot "Npc_Name", .text "\",\n",
   .text "    name_key = \"", .slot "Npc_Name_LangKey", .text "\",\n",
   .text "    ", .slot "Npc_AllFields", .text "\n",
   .text "\x7d\n",
   .slot "Inventory_HasItems_Start", .text "\n",
   .text "\n",
   .text "npc.inventory = \x7b\n",
   .text "    ", .slot "Inventory_Start", .text "\n",
   .text "    \x7b\n",
   .text "        quantity = ", .slot "Inventory_Quantity", .text ",\n",
   .text "        equipped = ", .slot "Inventory_IsEquipped_Start", .text "true",
    .slot "Inventory_IsEquipped_End", .slot "Inventory_IsNotEquipped_Start", .text "false",
    .slot "Inventory_IsNotEquipped_End", .text ",\n",
   .text "        item = ", .slot "Inventory_ItemDetails", .text "\n",
   .text "    \x7d", .slot "Inventory_IsNotLast_Start", .text ",",
    .slot "Inventory_IsNotLast_End", .text "\n",
   .text "    ", .slot "Inventory_End", .text "\n",
   .text "\x7d\n",
   .slot "Inventory_HasItems_End", .text "\n",
   .slot "Skills_HasSkills_Start", .text "\n",
   .text "\n",
   .text "npc.skills = \x7b\n",
   .text "    ", .slot "Skills_Start", .text "\n",
   .text "    ", .slot "Skill_Details", .slot "Skill_IsNotLast_Start", .text ",",
    .slot "Skill_IsNotLast_End", .text "\n",
   .text "    ", .slot "Skills_End", .text "\n",
   .text "\x7d\n",
   .slot "Skills_HasSkills_End", .text "\n",
   .slot "DailyRoutine_HasEvents_Start", .text "\n",
   .text "\n",
   .text "npc.daily_routine = \x7b\n",
   .text "    ", .slot "DailyRoutine_Events_Start", .text "\n",
   .text "    \x7b earliest = \"", .slot "DailyRoutine_Event_EarliestTime",
    .text "\", latest = \"", .slot "DailyRoutine_Event_LatestTime", .text "\"",
    .slot "DailyRoutine_Event_HasMovementTarget_Start", .text ", target = \"",
    .slot "DailyRoutine_Event_MovementTarget", .text "\"",
    .slot "DailyRoutine_Event_HasMovementTarget_End", .slot "DailyRoutine_Event_HasScript_Start",
    .text ", script = \"", .slot "DailyRoutine_Event_ScriptFunction", .text "\"",
    .slot "DailyRoutine_Event_HasScript_End", .text ", enabled = ",
    .slot "DailyRoutine_Event_IsEnabledByDefault", .text " \x7d",
    .slot "DailyRoutine_Event_IsNotLast_Start", .text ",",
    .slot "DailyRoutine_Event_IsNotLast_End", .text "\n",
   .text "    ", .slot "DailyRoutine_Events_End", .text "\n",
   .text "\x7d\n",
   .text "\n",
   .slot "DailyRoutine_Functions", .text "\n",
   .slot "DailyRoutine_HasEvents_End", .text "\n",
   .slot "Tale_HasDialog_Start", .text "\n",
   .text "\n",
   .text "npc.dialog = \"", .slot "Tale_Initial_Function_Name", .text "\"\n",
   .text "\n",
   .slot "Tale_Initial_Function", .text "\n",
   .text "\n",
   .slot "Tale_Additional_Functions", .text "\n",
   .slot "Tale_HasDialog_End", .text "\n",
   .text "\n",
   .text "return npc\n"]

/-- The template of an item. -/
def item : List TemplatePiece :=
  [.text "\x7b\n",
   .text "    id = \"", .slot "Item_Id", .text "\",\n",
   .text "    name = \"", .slot "Item_Name", .text "\",\n",
   .text "    name_key = \"", .slot "Item_Name_LangKey", .text "\",\n",
   .text "    ", .slot "Item_AllFields", .text "\n",
   .text "\x7d"]

/-- The template of a skill. -/
def skill : List TemplatePiece :=
  [.text "\x7b\n",
   .text "    id = \"", .slot "Skill_Id", .text "\",\n",
   .text "    name = \"", .slot "Skill_Name", .text "\",\n",
   .text "    name_key = \"", .slot "Skill_Name_LangKey", .text "\",\n",
   .text "    ", .slot "Skill_AllFields", .text "\n",
   .text "\x7d"]

/-- The template of a listing of fields. -/
def fieldList : List TemplatePiece :=
  [.slot "Fields_Start", .text "\n",
   .text "[\"", .slot "Field_Name", .text "\"] = ", .slot "Field_IsNumber_Start",
    .slot "Field_Value", .slot "Field_IsNumber_End", .slot "Field_IsText_Start", .text "\"",
    .slot "Field_Value", .text "\"", .slot "Field_IsText_End", .slot "Field_IsNotLast_Start",
    .text ",", .slot "Field_IsNotLast_End", .text "\n",
   .slot "Fields_End", .text "\n"]

/-- The template of a function of a dialog. -/
def dialogFunction : List TemplatePiece :=
  [.text "-- ", .slot "Tale_Function_ParentPreview", .text "\n",
   .text "function ", .slot "Tale_Function_Name", .text "()\n",
   .text "    ", .slot "Tale_Function_Content", .text "\n",
   .text "end\n"]

/-- The template of a line a character speaks. -/
def npcLine : List TemplatePiece :=
  [.text "dialog.npc_says(\"", .slot "Tale_TextLine_LangKey", .text "\") -- ",
    .slot "Tale_Speaker", .text ": ", .slot "Tale_TextLine"]

/-- The template of a line the player speaks. -/
def playerLine : List TemplatePiece :=
  [.text "dialog.player_says(\"", .slot "Tale_TextLine_LangKey", .text "\") -- ",
    .slot "Tale_Speaker", .text ": ", .slot "Tale_TextLine"]

/-- The template of a choice. -/
def choice : List TemplatePiece :=
  [.text "return dialog.choose(\x7b\n",
   .text "    ", .slot "Tale_Choices_Start", .text "\n",
   .text "    \x7b text = \"", .slot "Tale_Choice_LangKey", .text "\", next = ",
    .slot "Tale_Choice_HasFunction_Start", .slot "Tale_Choice_Function",
    .slot "Tale_Choice_HasFunction_End", .slot "Tale_Choice_HasNoFunction_Start", .text "nil",
    .slot "Tale_Choice_HasNoFunction_End", .text " \x7d", .slot "Tale_Choice_IsNotLast_Start",
    .text ",", .slot "Tale_Choice_IsNotLast_End", .text "\n",
   .text "    ", .slot "Tale_Choices_End", .text "\n",
   .text "\x7d)"]

/-- The template of an action. -/
def action : List TemplatePiece :=
  [.text "dialog.action(\"", .slot "Tale_Action_Name", .text "\", \"", .slot "Tale_Action_Value",
    .text "\")"]

/-- The template of a call of another function. -/
def functionCall : List TemplatePiece :=
  [.text "return ", .slot "Tale_Call_Function", .text "()"]

/-- The template of a function of a routine. -/
def routineFunction : List TemplatePiece :=
  [.text "-- ", .slot "DailyRoutine_Function_ParentPreview", .text "\n",
   .text "function ", .slot "DailyRoutine_Function_Name", .text "()\n",
   .text "    ", .slot "DailyRoutine_Function_Content", .text "\n",
   .text "end\n"]

/-- The template of a function of a snippet. -/
def snippetFunction : List TemplatePiece :=
  [.text "-- ", .slot "SnippetFunction_ParentPreview", .text "\n",
   .text "function ", .slot "SnippetFunction_Name", .text "()\n",
   .text "    ", .slot "SnippetFunction_Content", .text "\n",
   .text "end\n"]

/-- The template of a language file. -/
def languageFile : List TemplatePiece :=
  [.text "return \x7b\n",
   .text "    ", .slot "LangKeys_Start", .text "\n",
   .text "    ", .slot "LangKey_Key", .text " = \"", .slot "LangKey_Value", .text "\",\n",
   .text "    ", .slot "LangKeys_End", .text "\n",
   .text "    ", .slot "LangKeys_HasReferenced_Start", .text "\n",
   .text "    -- referenced\n",
   .text "    ", .slot "LangKeys_Referenced_Start", .text "\n",
   .text "    ", .slot "LangKey_Key", .text " = \"", .slot "LangKey_Value", .text "\",\n",
   .text "    ", .slot "LangKeys_Referenced_End", .text "\n",
   .text "    ", .slot "LangKeys_HasReferenced_End", .text "\n",
   .text "\x7d\n"]

/-- The pieces of a kind's template. -/
def pieces : ArtifactKind → List TemplatePiece
  | .npc => npc
  | .item => item
  | .skill => skill
  | .fieldList => fieldList
  | .dialogFunction => dialogFunction
  | .npcLine => npcLine
  | .playerLine => playerLine
  | .choice => choice
  | .action => action
  | .functionCall => functionCall
  | .routineFunction => routineFunction
  | .snippetFunction => snippetFunction
  | .languageFile => languageFile

/-- The template of a kind. -/
def template (k : ArtifactKind) : Text := (pieces k).flatMap TemplatePiece.source

end BuiltIn
end RecordExport

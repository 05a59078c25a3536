import RecordExport.Resolver.Filling
/-!
# Daily routines

A character's daily routine is a list of events, each with the times it may begin at and, if it has
them, a place to go to and a script to run. The functions of an event's script are derived once in a
render and kept under the event's id, so an event names the function that the list of all functions
shows.
-/

namespace RecordExport

/-- The namespace of an event. -/
def eventSpace : String := "DailyRoutine_Event"

/-- The functions of an event's script; none without a script. -/
def eventFunctions (npc : GameObject) (e : ScheduleEvent) :
    RenderProgram (List ScriptFunction) :=
  match e.script with
  | none => pure []
  | some script => .functions .event e.id npc.name script

/-! ## 1. Events -/

/-- The values of an event, with the names they fill. -/
def eventValues (s : EscapeSettings) (e : ScheduleEvent) : List (String × Text) :=
  let optional (v : Option String) : Text := (v.map fun v => s.escape v.toList).getD []
  [("Id", e.id.toList),
    ("EarliestTime", e.earliest.clock.toList),
    ("LatestTime", e.latest.clock.toList),
    ("EarliestHours", Json.decimal e.earliest.hours.toNat),
    ("EarliestMinutes", Json.decimal e.earliest.minutes.toNat),
    ("LatestHours", Json.decimal e.latest.hours.toNat),
    ("LatestMinutes", Json.decimal e.latest.minutes.toNat),
    ("MovementTarget", optional e.movementTarget),
    ("ScriptName", optional (e.script.map (·.name))),
    ("IsEnabledByDefault", if e.enabledByDefault then "true".toList else "false".toList)]

/-- Fill a list of values, one after the other. -/
def fillValues (space : String) (values : List (String × Text)) (t : Text) : Text :=
  values.foldl (fun t v => fill (space ++ "_" ++ v.1) .inline v.2 t) t

/-- One event of a routine. -/
def renderEvent (npc : GameObject) (e : ScheduleEvent) (p : ListPosition) (inner : Text) :
    RenderProgram Text := do
  let s ← RenderProgram.request .settings
  let t := fillPosition eventSpace p inner
  let t := gate "DailyRoutine_Event_HasMovementTarget" e.movementTarget.isSome t
  let t := gate "DailyRoutine_Event_HasScript" e.script.isSome t
  let t := fillValues eventSpace (eventValues s e) t
  if mentions "DailyRoutine_Event_ScriptFunction" t then do
    let fs ← eventFunctions npc e
    let name := (fs.head?.map (·.name.toList)).getD []
    pure (fill "DailyRoutine_Event_ScriptFunction" .inline name t)
  else pure t

/-! ## 2. Routines -/

/-- The functions of a whole routine. -/
def renderRoutineFunctions (npc : GameObject) (type : ObjectType) : RenderProgram Text := do
  let parts ← npc.dailyRoutine.mapM fun e => do
    let fs ← eventFunctions npc e
    renderFunctions .routineFunction type (.scheduleEvent e.id) fs
  pure (paragraphs parts)

/-- Resolve the daily routine of a character. -/
def resolveRoutine (npc : GameObject) (type : ObjectType) (t : Text) : RenderProgram Text := do
  let t := gate "DailyRoutine_HasEvents" (!npc.dailyRoutine.isEmpty) t
  let t ← expandBlocksM (.ofStem "DailyRoutine_Events".toList) t npc.dailyRoutine (renderEvent npc)
  fillOnce "DailyRoutine_Functions" (renderRoutineFunctions npc type) t

/-- Resolve a function of an event. -/
def resolveRoutineFunction (eventId : String) (f : ScriptFunction) (t : Text) : Text :=
  let t := fill "DailyRoutine_Function_Name" .inline f.name.toList t
  let t := fill "DailyRoutine_Function_EventId" .inline eventId.toList t
  let t := fill "DailyRoutine_Function_ParentPreview" .inline f.parentPreview.toList t
  fill "DailyRoutine_Function_Content" .fitted f.code.toList t

/-! ## 3. The resolver -/

/-- Resolves daily routines and their functions. -/
def Resolver.dailyRoutine : Resolver where
  name := "daily-routine"
  applies k := k = .npc || k = .routineFunction
  resolve k c t :=
    if k = .routineFunction then
      match c.subject with
      | .scheduleEvent eventId f => pure (resolveRoutineFunction eventId f t)
      | s => wrongSubject "daily-routine" s
    else if mentions "DailyRoutine_" t then do
      let npc ← singleObject "daily-routine" c
      .within "Daily routine" (resolveRoutine npc c.objectType t)
    else pure t
  catalog k :=
    if k = .routineFunction then
      [⟨"DailyRoutine_Function_Name", "Name of the function"⟩,
        ⟨"DailyRoutine_Function_Content", "Code of the function"⟩,
        ⟨"DailyRoutine_Function_ParentPreview",
          "Short description of the script the function belongs to"⟩,
        ⟨"DailyRoutine_Function_EventId", "Id of the event owning the script"⟩]
    else
      [⟨"DailyRoutine_HasEvents_Start/DailyRoutine_HasEvents_End",
          "Kept if the NPC has a daily routine"⟩,
        ⟨"DailyRoutine_Events_Start/DailyRoutine_Events_End", "Repeated once per event"⟩,
        ⟨"DailyRoutine_Event_Id", "Id of the event"⟩,
        ⟨"DailyRoutine_Event_EarliestTime", "Earliest start time as HH:MM"⟩,
        ⟨"DailyRoutine_Event_LatestTime", "Latest start time as HH:MM"⟩,
        ⟨"DailyRoutine_Event_EarliestHours", "Hours of the earliest start time"⟩,
        ⟨"DailyRoutine_Event_EarliestMinutes", "Minutes of the earliest start time"⟩,
        ⟨"DailyRoutine_Event_LatestHours", "Hours of the latest start time"⟩,
        ⟨"DailyRoutine_Event_LatestMinutes", "Minutes of the latest start time"⟩,
        ⟨"DailyRoutine_Event_HasMovementTarget_Start/DailyRoutine_Event_HasMovementTarget_End",
          "Kept if the event moves the NPC"⟩,
        ⟨"DailyRoutine_Event_MovementTarget", "Name of the movement target"⟩,
        ⟨"DailyRoutine_Event_HasScript_Start/DailyRoutine_Event_HasScript_End",
          "Kept if the event runs a script"⟩,
        ⟨"DailyRoutine_Event_ScriptName", "Name of the event's script"⟩,
        ⟨"DailyRoutine_Event_ScriptFunction",
          "Name of the primary function generated for the script"⟩,
        ⟨"DailyRoutine_Event_IsEnabledByDefault",
          "true if the event is enabled by default, false otherwise"⟩,
        ⟨"DailyRoutine_Functions",
          "Every script function of the routine, rendered with the daily routine "
            ++ "function template"⟩]
        ++ positionCatalog eventSpace "event"
  families := []

end RecordExport

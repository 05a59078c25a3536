import Mathlib.Data.List.Nodup
import RecordExport.Resolver.DailyRoutine
import RecordExport.Service.ScriptSections
/-!
# Names of the functions of a routine

The functions of a script are named after its owner, the script and the mark of each function. Names become
identifiers on the way and parts are joined by underscores, so names that were different may be the same
afterwards: of two scripts, of two marks, or of a script and another one's mark.

* `GameObject.routineFunctions`: the functions of all scripts of a routine, each with its event;
* `nodup_routineFunctions_iff`: their names differ exactly if they do without the owner's;
* `nodup_routineNames`: so it is where no script's identifier begins another's and the marks of each script
  have different identifiers.
-/

namespace RecordExport

/-! ## 1. Scripts -/

/-- The identifiers of a script's marks. -/
def Script.markIdentifiers (s : Script) : List String :=
  (sections (terminatedLines s.code.toList)).2.map fun m => String.ofList (identifier m.1)

/-- The names of a script's functions without their owner's. -/
def Script.localNames (s : Script) : List String :=
  identifierOf s.name :: s.markIdentifiers.map (identifierOf s.name ++ "_" ++ ·)

/-- A name with the owner's in front. -/
def ownedName (owner name : String) : String := identifierOf owner ++ "_" ++ name

theorem append_string_injective (s : String) : Function.Injective (s ++ ·) := by
  intro a b h
  have hlists : (s ++ a).toList = (s ++ b).toList := congrArg String.toList h
  rw [String.toList_append, String.toList_append] at hlists
  exact String.toList_inj.1 (List.append_cancel_left hlists)

theorem ownedName_injective (owner : String) : Function.Injective (ownedName owner) :=
  append_string_injective (identifierOf owner ++ "_")

theorem map_name_scriptFunctions (owner : String) (s : Script) :
    (scriptFunctions owner s).map (·.name) = s.localNames.map (ownedName owner) := by
  unfold scriptFunctions Script.localNames Script.markIdentifiers
  rw [List.map_cons, List.map_map, List.map_cons, List.map_map, List.map_map]
  refine congrArg (_ :: ·) (List.map_congr_left fun m _ => ?_)
  show identifierOf owner ++ "_" ++ identifierOf s.name ++ "_" ++ _ =
    identifierOf owner ++ "_" ++ (identifierOf s.name ++ "_" ++ _)
  rw [String.append_assoc, String.append_assoc, String.append_assoc, String.append_assoc,
    String.append_assoc]

theorem mem_localNames {s : Script} {name : String} (h : name ∈ s.localNames) :
    (identifierOf s.name).toList <+: name.toList := by
  rcases List.mem_cons.1 h with rfl | h
  · exact List.prefix_rfl
  · obtain ⟨m, -, rfl⟩ := List.mem_map.1 h
    rw [String.append_assoc, String.toList_append]
    exact List.prefix_append _ _

/-- A script's names differ where its marks do. -/
theorem Script.nodup_localNames {s : Script} (h : s.markIdentifiers.Nodup) : s.localNames.Nodup := by
  refine List.nodup_cons.2 ⟨fun hmem => ?_, h.map (append_string_injective (identifierOf s.name ++ "_"))⟩
  obtain ⟨m, -, hm⟩ := List.mem_map.1 hmem
  have hlength := congrArg (fun name : String => name.toList.length) hm
  have hmark : "_".toList.length = 1 := rfl
  rw [String.toList_append, String.toList_append, List.length_append, List.length_append, hmark] at hlength
  omega

/-! ## 2. Routines -/

/-- The functions of an event's script; none without a script. -/
def ScheduleEvent.functions (owner : String) (e : ScheduleEvent) : List ScriptFunction :=
  (e.script.map (scriptFunctions owner)).getD []

/-- Their names without the owner's. -/
def ScheduleEvent.localNames (e : ScheduleEvent) : List String := (e.script.map (·.localNames)).getD []

theorem ScheduleEvent.exists_script {e : ScheduleEvent} {name : String} (h : name ∈ e.localNames) :
    ∃ s, e.script = some s ∧ name ∈ s.localNames := by
  unfold localNames at h
  cases hs : e.script with
  | none =>
    rw [hs] at h
    exact absurd h List.not_mem_nil
  | some s =>
    rw [hs] at h
    exact ⟨s, rfl, h⟩

/-- **The functions of a routine**, each with the id of its event. -/
def GameObject.routineFunctions (npc : GameObject) : List (String × ScriptFunction) :=
  npc.dailyRoutine.flatMap fun e => (e.functions npc.name).map (e.id, ·)

/-- Their names without the owner's. -/
def GameObject.routineNames (npc : GameObject) : List String := npc.dailyRoutine.flatMap (·.localNames)

theorem map_name_routineFunctions (npc : GameObject) :
    npc.routineFunctions.map (·.2.name) = npc.routineNames.map (ownedName npc.name) := by
  unfold GameObject.routineFunctions GameObject.routineNames
  rw [List.map_flatMap, List.map_flatMap]
  refine congrArg (npc.dailyRoutine.flatMap ·) (funext fun e => ?_)
  unfold ScheduleEvent.functions ScheduleEvent.localNames
  cases e.script with
  | none => rfl
  | some s =>
    rw [List.map_map]
    exact map_name_scriptFunctions npc.name s

/-- **The names of a routine's functions differ exactly if they do without the owner's.** -/
theorem nodup_routineFunctions_iff (npc : GameObject) :
    (npc.routineFunctions.map (·.2.name)).Nodup ↔ npc.routineNames.Nodup := by
  rw [map_name_routineFunctions]
  exact List.nodup_map_iff (ownedName_injective npc.name)

/-- No script's identifier begins another's, and the marks of each script have different identifiers. -/
structure GameObject.TellsScriptsApart (npc : GameObject) : Prop where
  marks : ∀ e ∈ npc.dailyRoutine, ∀ s, e.script = some s → s.markIdentifiers.Nodup
  scripts : npc.dailyRoutine.Pairwise fun e e' => ∀ s s', e.script = some s → e'.script = some s' →
    ¬ (identifierOf s.name).toList <+: (identifierOf s'.name).toList ∧
      ¬ (identifierOf s'.name).toList <+: (identifierOf s.name).toList

/-- **Then no two functions of the routine have one name.** -/
theorem nodup_routineNames {npc : GameObject} (h : npc.TellsScriptsApart) : npc.routineNames.Nodup := by
  refine List.nodup_flatMap.2 ⟨fun e he => ?_, h.scripts.imp fun {e e'} happart name hname hname' => ?_⟩
  · unfold ScheduleEvent.localNames
    cases hs : e.script with
    | none => exact List.nodup_nil
    | some s => exact s.nodup_localNames (h.marks e he s hs)
  · obtain ⟨s, hs, hname⟩ := ScheduleEvent.exists_script hname
    obtain ⟨s', hs', hname'⟩ := ScheduleEvent.exists_script hname'
    -- both identifiers begin the name, so one of them begins the other
    obtain ⟨hone, hother⟩ := happart s s' hs hs'
    rcases List.prefix_or_prefix_of_prefix (mem_localNames hname) (mem_localNames hname') with hp | hp
    · exact hone hp
    · exact hother hp

end RecordExport

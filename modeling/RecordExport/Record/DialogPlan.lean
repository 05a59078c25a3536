import RecordExport.Context
import RecordExport.Text.Blank
import RecordExport.Text.Identifier
import RecordExport.Text.Lines
/-!
# Dialogs as functions

A dialog is a graph; what is generated from it is a list of functions. A function STARTS at the
first node, at every node that an option leads to, and at every node that more than one link leads
to. From its start it follows the links until a choice, a dead end, or the start of a function,
which it calls then. The choice knows the function of each option.

* `discover` walks the graph breadth first and tells the link each node was first reached by; the
  functions are in that order;
* `flow` follows the links of one function.

Both end because each node id is only gone into once: what is not visited yet gets less.
-/

namespace RecordExport

/-! ## 1. Links -/

namespace Dialog

/-- The node a link leads to. Of nodes with one id it is the last. -/
def target? (d : Dialog) (id : String) : Option DialogNode := d.nodes.reverse.find? (·.id = id)

/-- Every link: the node it leaves and the id it leads to, in the order of the document. -/
def links (d : Dialog) : List (DialogNode × String) :=
  d.nodes.flatMap fun n => n.successors.map (n, ·)

/-- The links that lead nowhere. -/
def dangling (d : Dialog) : List (String × String) :=
  (d.links.filter fun l => (d.target? l.2).isNone).map fun l => (l.1.id, l.2)

/-- An option or more than one link leads to the node. -/
def isShared (d : Dialog) (id : String) : Bool :=
  d.links.any (fun l => l.1.isChoice && l.2 = id) || 1 < d.links.countP (·.2 = id)

/-- The ids of the nodes that are not among those visited. -/
def unvisited (d : Dialog) (visited : List String) : List String :=
  (d.nodes.map (·.id)).filter fun id => !visited.contains id

/-! ## 2. The walk -/

/-- The ids among targets that are not visited yet, each once. -/
def fresh (d : Dialog) : (visited : List String) → (targets : List String) → List String
  | _, [] => []
  | visited, t :: ts =>
    if (d.target? t).isSome && !visited.contains t then t :: fresh d (visited ++ [t]) ts
    else fresh d visited ts

theorem mem_ids_of_target? {d : Dialog} {id : String} (h : (d.target? id).isSome) :
    id ∈ d.nodes.map (·.id) := by
  obtain ⟨n, hn⟩ := Option.isSome_iff_exists.1 h
  have h1 := List.mem_of_find?_eq_some hn
  have h2 := List.find?_some hn
  simp only [decide_eq_true_eq] at h2
  exact List.mem_map.2 ⟨n, by simpa using h1, h2⟩

/-- Going into a node leaves fewer nodes unvisited. -/
theorem length_unvisited_append_singleton {d : Dialog} {visited : List String} {id : String}
    (h : (d.target? id).isSome) (hv : id ∉ visited) :
    (d.unvisited (visited ++ [id])).length < (d.unvisited visited).length := by
  have hf : d.unvisited (visited ++ [id]) = (d.unvisited visited).filter (· ≠ id) := by
    unfold unvisited
    rw [List.filter_filter]
    congr 1
    funext x
    by_cases hx : x = id <;> simp [hx]
  rw [hf]
  refine List.length_filter_lt_length_iff_exists.2 ⟨id, ?_, by simp⟩
  simp only [unvisited, List.mem_filter, Bool.not_eq_true']
  exact ⟨mem_ids_of_target? h, by simpa using hv⟩

/-- Fresh ids are taken from what is unvisited. -/
theorem length_unvisited_append_fresh (d : Dialog) (visited targets : List String) :
    (d.unvisited (visited ++ d.fresh visited targets)).length + (d.fresh visited targets).length
      ≤ (d.unvisited visited).length := by
  induction targets generalizing visited with
  | nil => simp [fresh]
  | cons t ts ih =>
    unfold fresh
    split
    · rename_i h
      simp only [Bool.and_eq_true, Bool.not_eq_true'] at h
      have h1 := length_unvisited_append_singleton h.1 (by simpa using h.2)
      have h2 := ih (visited ++ [t])
      simp only [List.append_assoc, List.singleton_append] at h2
      simp only [List.length_cons]
      omega
    · exact ih visited

/-- The nodes that ids lead to. -/
def targets (d : Dialog) (ids : List String) : List DialogNode := ids.filterMap d.target?

/-- Walk on breadth first. For each node that is reached there is the link it is reached by. -/
def discover (d : Dialog) : (queue : List DialogNode) → (visited : List String) →
    List (DialogNode × String)
  | [], _ => []
  | n :: queue, visited =>
    let found := d.fresh visited n.successors
    found.map (n, ·) ++ discover d (queue ++ d.targets found) (visited ++ found)
  termination_by queue visited => queue.length + (d.unvisited visited).length
  decreasing_by
    have h1 := d.length_unvisited_append_fresh visited n.successors
    have h2 : (d.targets (d.fresh visited n.successors)).length
        ≤ (d.fresh visited n.successors).length := List.length_filterMap_le _ _
    simp only [List.length_append, List.length_cons]
    omega

end Dialog

/-! ## 3. Starts -/

/-- A text in one line of at most forty characters and, where more was cut off, an ellipsis. -/
def preview (t : Text) : Text :=
  let line := Text.trim ((terminatedLines t).headD [])
  if 40 < line.length then Text.trimEnd (line.take 40) ++ "...".toList else line

/-- What a link out of a node says. -/
def linkPreview (n : DialogNode) (target : String) : Text :=
  match n.content with
  | .npcText text _ | .playerText text _ => preview text.toList
  | .choice options =>
    ((options.find? (·.next = some target)).map fun o => preview o.text.toList).getD []
  | .action name _ _ => preview name.toList

/-- Where a function starts, its name, and what leads into it. -/
structure FunctionStart where
  nodeId : String
  name : String
  preview : String
  deriving DecidableEq, Repr

/-- Where the functions of a dialog start, each with what leads into it. -/
def dialogStarts (npc : GameObject) (d : Dialog) : List (String × String) :=
  match d.nodes with
  | [] => []
  | root :: _ =>
    (root.id, npc.name ++ " dialog") ::
      ((d.discover [root] [root.id]).filter fun l => d.isShared l.2).map fun l =>
        (l.2, String.ofList (linkPreview l.1 l.2))

/-- The functions' names in their order. -/
def functionStarts (npc : GameObject) (d : Dialog) : List FunctionStart :=
  (dialogStarts npc d).zipIdx.map fun s =>
    ⟨s.1.1, identifierOf npc.name ++ "_Dialog_" ++ toString (s.2 + 1), s.1.2⟩

/-- The name of the function that starts at a node. -/
def functionAt (starts : List FunctionStart) (id : String) : Option String :=
  (starts.find? (·.nodeId = id)).map (·.name)

/-! ## 4. Steps -/

/-- A step of a function and the kind it is rendered as. -/
structure PlannedStep where
  kind : ArtifactKind
  step : DialogStep
  deriving DecidableEq, Repr

/-- The kind a node's own step is rendered as. -/
def NodeContent.kind : NodeContent → ArtifactKind
  | .npcText _ _ => .npcLine
  | .playerText _ _ => .playerLine
  | .choice _ => .choice
  | .action _ _ _ => .action

/-- The link a node goes on with, unless it leaves the choice to the player. -/
def NodeContent.next? : NodeContent → Option String
  | .npcText _ next | .playerText _ next | .action _ _ next => next
  | .choice _ => none

/-- The functions that the options of a node lead to. -/
def NodeContent.optionFunctions (starts : List FunctionStart) : NodeContent → List (Option String)
  | .choice options => options.map fun o => o.next.bind (functionAt starts)
  | _ => []

/-- A node's step in a function of a dialog. -/
def dialogStep (npc : GameObject) (d : Dialog) (n : DialogNode)
    (optionFunctions : List (Option String)) (nextFunction : Option String) : DialogStep :=
  ⟨npc.id, npc.name, d.id, n, optionFunctions, nextFunction⟩

/-- A node's own step. -/
def ownStep (npc : GameObject) (d : Dialog) (starts : List FunctionStart) (n : DialogNode) :
    PlannedStep :=
  ⟨n.content.kind, dialogStep npc d n (n.content.optionFunctions starts) none⟩

/-- The call of a function behind a node's own step. -/
def callStep (npc : GameObject) (d : Dialog) (n : DialogNode) (f : String) : PlannedStep :=
  ⟨.functionCall, dialogStep npc d n [] (some f)⟩

/-- The steps from a node on. -/
def flow (npc : GameObject) (d : Dialog) (starts : List FunctionStart) :
    (visited : List String) → (id : String) → List PlannedStep
  | visited, id =>
    if _hv : visited.contains id then []
    else
      match _hn : d.target? id with
      | none => []
      | some n =>
        ownStep npc d starts n ::
          match n.content.next? with
          | none => []
          | some next =>
            match functionAt starts next with
            | some f => [callStep npc d n f]
            | none => flow npc d starts (visited ++ [id]) next
  termination_by visited => (d.unvisited visited).length
  decreasing_by
    exact Dialog.length_unvisited_append_singleton (by simp [_hn]) (by simpa using _hv)

section Flow

variable {npc : GameObject} {d : Dialog} {starts : List FunctionStart} {visited : List String} {id : String}

theorem flow_of_mem_visited (hv : id ∈ visited) : flow npc d starts visited id = [] := by
  rw [flow, dif_pos (by simpa using hv)]

theorem flow_of_target?_eq_none (hn : d.target? id = none) : flow npc d starts visited id = [] := by
  rw [flow]
  split
  · rfl
  · split
    · rfl
    · rename_i hn'
      rw [hn] at hn'
      cases hn'

/-- The steps from a node that was not visited: its own, and what its link goes on with. -/
theorem flow_of_target? {n : DialogNode} (hv : id ∉ visited) (hn : d.target? id = some n) :
    flow npc d starts visited id = ownStep npc d starts n ::
      match n.content.next? with
      | none => []
      | some next =>
        match functionAt starts next with
        | some f => [callStep npc d n f]
        | none => flow npc d starts (visited ++ [id]) next := by
  rw [flow]
  have hc : ¬visited.contains id = true := by simpa using hv
  rw [dif_neg hc]
  split
  · rename_i hn'
    rw [hn] at hn'
    cases hn'
  · rename_i m hm
    obtain rfl : m = n := Option.some.inj (hm.symm.trans hn)
    rfl

/-- What holds of the own step of every node and of the calls behind it holds of every step. -/
theorem forall_mem_flow {Q : PlannedStep → Prop}
    (hown : ∀ id n, d.target? id = some n → Q (ownStep npc d starts n))
    (hcall : ∀ id n, d.target? id = some n → ∀ f, Q (callStep npc d n f)) :
    ∀ s ∈ flow npc d starts visited id, Q s := by
  induction visited, id using flow.induct d with
  | case1 visited id hv =>
    rw [flow_of_mem_visited (by simpa using hv)]
    exact List.forall_mem_nil Q
  | case2 visited id hv hn =>
    rw [flow_of_target?_eq_none hn]
    exact List.forall_mem_nil Q
  | case3 visited id hv n hn ih =>
    rw [flow_of_target? (by simpa using hv) hn]
    refine List.forall_mem_cons.2 ⟨hown id n hn, ?_⟩
    split
    · exact List.forall_mem_nil Q
    · split
      · exact List.forall_mem_singleton.2 (hcall id n hn _)
      · exact ih _

end Flow

/-- A function of a dialog before its steps are rendered. -/
structure PlannedFunction where
  name : String
  preview : String
  steps : List PlannedStep
  deriving DecidableEq, Repr

/-- **The functions of a dialog.** -/
def planDialog (npc : GameObject) (d : Dialog) : List PlannedFunction :=
  let starts := functionStarts npc d
  starts.map fun s => ⟨s.name, s.preview, flow npc d starts [] s.nodeId⟩

end RecordExport

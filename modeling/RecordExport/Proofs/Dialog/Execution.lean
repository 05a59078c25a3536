import RecordExport.Proofs.Dialog.Flow
/-!
# Running the functions of a dialog

Splitting a dialog into functions must not change how it goes. Two machines are compared: a `Walk`
goes from node to node along the links, an `Execution` runs the steps of the functions and jumps
where a step names a function. Both are told by a `pick` which option the player takes, which may
hang on everything visited so far; an option that is not there ends the dialog.

* one step lemma (`Execution.exists_visit`): where the walk visits a node, the execution does so too,
  after at most one call, and both are ready for the same next node;
* `runAs_planDialog`: hence they visit the same nodes and stop together, and behind each step
  stands what the node's link says (`FollowsLinks`).
-/

namespace RecordExport

/-! ## 1. Walking the graph -/

/-- The id that a node goes on with if the option at an index is picked. -/
def DialogNode.picked? (n : DialogNode) (i : Nat) : Option String :=
  match n.content with
  | .choice options => (options[i]?).bind (·.next)
  | content => content.next?

theorem DialogNode.picked?_of_next? {n : DialogNode} {id : String} (h : n.content.next? = some id)
    (i : Nat) : n.picked? i = some id := by
  unfold picked?
  unfold NodeContent.next? at h
  split <;> simp_all [NodeContent.next?]

theorem DialogNode.isChoice_of_next? {n : DialogNode} {id : String}
    (h : n.content.next? = some id) : n.isChoice = false := by
  unfold isChoice
  unfold NodeContent.next? at h
  split <;> simp_all

/-- A walk over a dialog: the nodes visited, and the node to visit next if there is one. -/
structure Walk where
  here : Option DialogNode
  visited : List DialogNode

/-- Visit a node and go on along its link. -/
def Walk.step (d : Dialog) (pick : List DialogNode → Nat) (w : Walk) : Walk :=
  match w.here with
  | none => w
  | some n =>
    let visited := w.visited ++ [n]
    ⟨(n.picked? (pick visited)).bind d.node?, visited⟩

/-- The walk from the first node, after so many steps. -/
def Dialog.walk (d : Dialog) (pick : List DialogNode → Nat) : Nat → Walk
  | 0 => ⟨d.nodes.head?, []⟩
  | n + 1 => (d.walk pick n).step d pick

/-! ## 2. Running functions -/

/-- The function with a name. -/
def functionNamed (fs : List PlannedFunction) (name : String) : Option PlannedFunction :=
  fs.find? (·.name = name)

/-- A run of functions: the steps still to run, and the nodes visited. -/
structure Execution where
  rest : List PlannedStep
  visited : List DialogNode

namespace Execution

/-- Go on with the steps of the function with a name; there must be one. -/
def jump (fs : List PlannedFunction) (name : String) (visited : List DialogNode) :
    Option Execution :=
  (functionNamed fs name).map fun f => ⟨f.steps, visited⟩

/-- Run one step. A call goes on with its function, a choice with that of the picked option; without
    a function, and behind any other step, the next step is due. -/
def step (fs : List PlannedFunction) (pick : List DialogNode → Nat) (e : Execution) :
    Option Execution :=
  match e.rest with
  | [] => none
  | s :: rest =>
    match s.kind with
    | .functionCall => s.step.nextFunction.bind fun name => jump fs name e.visited
    | .choice =>
      let visited := e.visited ++ [s.step.node]
      match (s.step.optionFunctions[pick visited]?).join with
      | some name => jump fs name visited
      | none => some ⟨rest, visited⟩
    | _ => some ⟨rest, e.visited ++ [s.step.node]⟩

/-- Run so many steps. -/
def run (fs : List PlannedFunction) (pick : List DialogNode → Nat) :
    Nat → Execution → Option Execution
  | 0, e => some e
  | k + 1, e => (e.step fs pick).bind (run fs pick k)

/-- A run begins with the first function. -/
def start (fs : List PlannedFunction) : Execution := ⟨(fs.head?.map (·.steps)).getD [], []⟩

theorem run_add {fs : List PlannedFunction} {pick : List DialogNode → Nat} {j k : Nat}
    {e e' : Execution} (h : e.run fs pick j = some e') :
    e.run fs pick (j + k) = e'.run fs pick k := by
  induction j generalizing e with
  | zero =>
    obtain rfl : e = e' := Option.some.inj h
    rw [Nat.zero_add]
  | succ j ih =>
    obtain ⟨e1, h1, h⟩ := Option.bind_eq_some_iff.1 h
    rw [Nat.add_right_comm, run, h1]
    exact ih h

end Execution

/-! ## 3. Functions by their start nodes -/

section Plan

variable {npc : GameObject} {d : Dialog}

/-- The function that starts at a node, found by its name. -/
theorem exists_function (npc : GameObject) (h : d.DistinctIds) {n : DialogNode}
    (hn : n ∈ d.startNodes) :
    ∃ g ∈ planDialog npc d, g.steps = functionSteps npc d n ∧ g.firstNode? = some n ∧
      functionAt (functionStarts npc d) n.id = some g.name ∧
      functionNamed (planDialog npc d) g.name = some g := by
  have hm := (d.reachable_of_mem_startNodes h hn).mem
  obtain ⟨f, hf⟩ := Option.isSome_iff_exists.1 ((isSome_functionAt h hm).2 hn)
  obtain ⟨s, hs, hid, rfl⟩ := (functionAt_eq_some h).1 hf
  let g : PlannedFunction := ⟨s.name, s.preview, flow npc d (functionStarts npc d) [] s.nodeId⟩
  have hg : g ∈ planDialog npc d := List.mem_map.2 ⟨s, hs, rfl⟩
  have hsteps : g.steps = functionSteps npc d n := by
    show flow npc d (functionStarts npc d) [] s.nodeId = _
    rw [hid]
    rfl
  obtain ⟨rest, hr⟩ := (flow_functionSteps npc h hn).eq_cons
  refine ⟨g, hg, hsteps, ?_, hf, ?_⟩
  · rw [PlannedFunction.firstNode?, hsteps, hr]
    rfl
  · exact (find?_key_eq_some (nodup_name_planDialog npc d)).2 ⟨hg, rfl⟩

/-- No two functions begin with the same node. -/
theorem eq_of_firstNode?_eq (h : d.DistinctIds) {f g : PlannedFunction}
    (hf : f ∈ planDialog npc d) (hg : g ∈ planDialog npc d) (he : f.firstNode? = g.firstNode?) :
    f = g := by
  have hn : ((planDialog npc d).map (·.firstNode?)).Nodup := by
    rw [map_firstNode?_planDialog npc h]
    exact (d.nodup_startNodes h).map (Option.some_injective _)
  exact List.inj_on_of_nodup_map hn hf hg he

/-- An option that leads nowhere has no function. -/
theorem optionFunction_eq_none (h : d.DistinctIds) {o : ChoiceOption}
    (hm : o.next.bind d.node? = none) : o.next.bind (functionAt (functionStarts npc d)) = none := by
  rw [Option.bind_eq_none_iff] at hm ⊢
  intro id hid
  by_contra hf
  obtain ⟨f, hf⟩ := Option.ne_none_iff_exists'.1 hf
  obtain ⟨n, hn, rfl⟩ := exists_startNode_of_functionAt h hf
  have hnone := hm n.id hid
  rw [(Dialog.node?_eq_some h).2 ⟨(d.reachable_of_mem_startNodes h hn).mem, rfl⟩] at hnone
  cases hnone

/-- **An option of a reachable choice has the function that starts where it leads.** -/
theorem optionFunction_eq_functionAt (npc : GameObject) (h : d.DistinctIds) {n m : DialogNode}
    (hr : d.Reachable n) {options : List ChoiceOption} (hc : n.content = .choice options)
    {o : ChoiceOption} (ho : o ∈ options) (hm : o.next.bind d.node? = some m) : m ∈ d.startNodes ∧
      o.next.bind (functionAt (functionStarts npc d)) =
        functionAt (functionStarts npc d) m.id := by
  obtain ⟨id, hid, hm⟩ := Option.bind_eq_some_iff.1 hm
  obtain ⟨hmem, rfl⟩ := (Dialog.node?_eq_some h).1 hm
  have hl : m.id ∈ n.successors := by
    unfold DialogNode.successors
    rw [hc]
    exact List.mem_filterMap.2 ⟨o, ho, hid⟩
  refine ⟨?_, by rw [hid, Option.bind_some]⟩
  by_contra hs
  have hshared := Dialog.isShared_eq_false h (.link hr hl hm) hs
  have hchoice := Dialog.isChoice_of_link hshared hr.mem hl
  simp [DialogNode.isChoice, hc] at hchoice

/-! ## 4. One node -/

/-- **What is to be run before a node is visited**: the steps from it on, or the call of the function
    that starts there; before the end nothing. -/
inductive Due (npc : GameObject) (d : Dialog) : Option DialogNode → List PlannedStep → Prop where
  | ended : Due npc d none []
  | own {n : DialogNode} {rest : List PlannedStep} (hr : d.Reachable n) (hf : Flow npc d n rest) :
      Due npc d (some n) rest
  | called {n m : DialogNode} {f : String} (hn : n ∈ d.startNodes)
      (hf : functionAt (functionStarts npc d) n.id = some f) :
      Due npc d (some n) [callStep npc d m f]

theorem Due.eq_nil_iff {o : Option DialogNode} {rest : List PlannedStep} (hd : Due npc d o rest) :
    rest = [] ↔ o = none := by
  cases hd with
  | ended => simp
  | own _ hf =>
    obtain ⟨behind, rfl⟩ := hf.eq_cons
    simp
  | called _ _ => simp

namespace Execution

variable {fs : List PlannedFunction} {pick : List DialogNode → Nat} {e : Execution}
  {n : DialogNode} {rest : List PlannedStep}

theorem jump_functionAt (h : d.DistinctIds) (hn : n ∈ d.startNodes) {f : String}
    (hf : functionAt (functionStarts npc d) n.id = some f) (visited : List DialogNode) :
    jump (planDialog npc d) f visited = some ⟨functionSteps npc d n, visited⟩ := by
  obtain ⟨g, -, hsteps, -, hat, hnamed⟩ := exists_function npc h hn
  obtain rfl : g.name = f := Option.some.inj (hat.symm.trans hf)
  rw [jump, hnamed, ← hsteps]
  rfl

theorem step_of_isChoice_eq_false (hc : n.isChoice = false)
    (he : e.rest = ownStep npc d (functionStarts npc d) n :: rest) :
    e.step fs pick = some ⟨rest, e.visited ++ [n]⟩ := by
  unfold step
  rw [he]
  unfold DialogNode.isChoice at hc
  unfold ownStep NodeContent.kind
  cases hcontent : n.content with
  | choice options => simp [hcontent] at hc
  | npcText _ _ | playerText _ _ | action _ _ _ => rfl

theorem step_of_choice {options : List ChoiceOption} (hc : n.content = .choice options)
    (he : e.rest = ownStep npc d (functionStarts npc d) n :: rest) :
    e.step fs pick =
      match (options[pick (e.visited ++ [n])]?).bind fun o =>
          o.next.bind (functionAt (functionStarts npc d)) with
      | some name => jump fs name (e.visited ++ [n])
      | none => some ⟨rest, e.visited ++ [n]⟩ := by
  unfold step
  rw [he]
  unfold ownStep NodeContent.kind NodeContent.optionFunctions
  simp only [hc, dialogStep, List.getElem?_map]
  cases options[pick (e.visited ++ [n])]? <;> rfl

/-- A choice is visited, and what the picked option leads to is due next. -/
theorem exists_visit_of_choice (pick : List DialogNode → Nat) (h : d.DistinctIds)
    (hr : d.Reachable n) {options : List ChoiceOption} (hc : n.content = .choice options)
    (he : e.rest = [ownStep npc d (functionStarts npc d) n]) :
    ∃ e', e.step (planDialog npc d) pick = some e' ∧ e'.visited = e.visited ++ [n] ∧
      Due npc d ((n.picked? (pick (e.visited ++ [n]))).bind d.node?) e'.rest := by
  have hp : n.picked? (pick (e.visited ++ [n])) =
      (options[pick (e.visited ++ [n])]?).bind (·.next) := by
    unfold DialogNode.picked?
    rw [hc]
  rw [step_of_choice hc he, hp]
  cases ho : options[pick (e.visited ++ [n])]? with
  | none => exact ⟨_, rfl, rfl, .ended⟩
  | some o =>
    rw [Option.bind_some, Option.bind_some]
    cases hm : o.next.bind d.node? with
    | none =>
      rw [optionFunction_eq_none h hm]
      exact ⟨_, rfl, rfl, .ended⟩
    | some m =>
      obtain ⟨hs, hat⟩ := optionFunction_eq_functionAt npc h hr hc
        (List.mem_of_getElem? ho) hm
      obtain ⟨g, -, -, -, hg, -⟩ := exists_function npc h hs
      rw [hat, hg]
      exact ⟨_, jump_functionAt h hs hg _, rfl,
        .own (d.reachable_of_mem_startNodes h hs) (flow_functionSteps npc h hs)⟩

/-- **Where the steps of a node are due, the node is visited** and its link is due next. -/
theorem exists_visit_of_flow (pick : List DialogNode → Nat) (h : d.DistinctIds)
    (hr : d.Reachable n) (hf : Flow npc d n e.rest) :
    ∃ e', e.step (planDialog npc d) pick = some e' ∧ e'.visited = e.visited ++ [n] ∧
      Due npc d ((n.picked? (pick (e.visited ++ [n]))).bind d.node?) e'.rest := by
  generalize hrest : e.rest = steps at hf
  cases hf with
  | ends hl =>
    cases hc : n.content with
    | choice options => exact exists_visit_of_choice pick h hr hc hrest
    | npcText _ next | playerText _ next | action _ _ next =>
      have hp : n.picked? (pick (e.visited ++ [n])) = n.content.next? := by
        rw [DialogNode.picked?, hc]
      have hnone : n.content.next?.bind d.node? = none := Option.bind_eq_none_iff.2 hl
      refine ⟨_, step_of_isChoice_eq_false (by rw [DialogNode.isChoice, hc]) hrest, rfl, ?_⟩
      rw [hp, hnone]
      exact .ended
  | @calls _ m f hl hm hat =>
    refine ⟨_, step_of_isChoice_eq_false (DialogNode.isChoice_of_next? hl) hrest, rfl, ?_⟩
    rw [n.picked?_of_next? hl, Option.bind_some,
      (Dialog.node?_eq_some h).2 ⟨(d.reachable_of_mem_startNodes h hm).mem, rfl⟩]
    exact .called hm hat
  | @goesOn _ m rest hl hm hs hf =>
    refine ⟨_, step_of_isChoice_eq_false (DialogNode.isChoice_of_next? hl) hrest, rfl, ?_⟩
    have hnode := (Dialog.node?_eq_some h).2 ⟨hm, rfl⟩
    rw [n.picked?_of_next? hl, Option.bind_some, hnode]
    exact .own (.link hr (NodeContent.mem_successors_of_next? hl) hnode) hf

/-- **The step lemma**: where a node is due, the execution visits it in one or two steps. -/
theorem exists_visit (pick : List DialogNode → Nat) (h : d.DistinctIds)
    (hd : Due npc d (some n) e.rest) :
    ∃ k e', e.run (planDialog npc d) pick k = some e' ∧ e'.visited = e.visited ++ [n] ∧
      Due npc d ((n.picked? (pick (e.visited ++ [n]))).bind d.node?) e'.rest := by
  generalize hrest : e.rest = steps at hd
  cases hd with
  | own hr hf =>
    obtain ⟨e', hs, hv, hd⟩ := exists_visit_of_flow pick h hr (hrest ▸ hf)
    exact ⟨1, e', by rw [run, hs]; rfl, hv, hd⟩
  | @called _ m f hn hf =>
    have hcall : e.step (planDialog npc d) pick = some ⟨functionSteps npc d n, e.visited⟩ := by
      rw [step, hrest]
      exact jump_functionAt h hn hf e.visited
    obtain ⟨e', hs, hv, hd⟩ := exists_visit_of_flow pick (e := ⟨functionSteps npc d n, e.visited⟩) h
      (d.reachable_of_mem_startNodes h hn) (flow_functionSteps npc h hn)
    exact ⟨2, e', by rw [run, hcall, Option.bind_some, run, hs]; rfl, hv, hd⟩

/-- Before anything is run, the first node is due. -/
theorem due_start (npc : GameObject) (h : d.DistinctIds) :
    Due npc d d.nodes.head? (start (planDialog npc d)).rest := by
  have hsteps := map_steps_planDialog npc d
  cases hd : d.nodes.head? with
  | none =>
    have hnil : d.startNodes = [] := by
      unfold Dialog.startNodes Dialog.discoveryOrder
      rw [List.head?_eq_none_iff.1 hd]
    rw [hnil, List.map_nil, List.map_eq_nil_iff] at hsteps
    rw [hsteps]
    exact .ended
  | some root =>
    have hroot := Dialog.mem_startNodes_of_first h hd
    have hfirst : d.startNodes.head? = some root := by
      rw [← hd, ← (Dialog.breadthFirst_discoveryOrder h).first]
      unfold Dialog.startNodes
      split <;> simp [*]
    have hrest : (start (planDialog npc d)).rest = functionSteps npc d root := by
      have hhead := congrArg List.head? hsteps
      rw [List.head?_map, List.head?_map, hfirst] at hhead
      rw [start, hhead]
      rfl
    rw [hrest]
    exact .own (.first hd) (flow_functionSteps npc h hroot)

/-- **The run lemma**: after any number of walked nodes the execution has visited the same ones and
    the same node is due. -/
theorem exists_run_of_walk (npc : GameObject) (h : d.DistinctIds)
    (pick : List DialogNode → Nat) (n : Nat) :
    ∃ k e, (start (planDialog npc d)).run (planDialog npc d) pick k = some e ∧
      e.visited = (d.walk pick n).visited ∧ Due npc d (d.walk pick n).here e.rest := by
  induction n with
  | zero => exact ⟨0, _, rfl, rfl, due_start npc h⟩
  | succ n ih =>
    obtain ⟨k, e, hrun, hv, hd⟩ := ih
    cases hw : (d.walk pick n).here with
    | none =>
      have hstay : d.walk pick (n + 1) = d.walk pick n := by
        rw [Dialog.walk, Walk.step, hw]
      rw [hstay]
      exact ⟨k, e, hrun, hv, hd⟩
    | some x =>
      rw [hw] at hd
      obtain ⟨j, e', hrun', hv', hd'⟩ := exists_visit pick h hd
      have hgo : d.walk pick (n + 1) = ⟨(x.picked? (pick ((d.walk pick n).visited ++ [x]))).bind
          d.node?, (d.walk pick n).visited ++ [x]⟩ := by
        rw [Dialog.walk, Walk.step, hw]
      rw [hgo, ← hv]
      exact ⟨k + j, e', by rw [run_add hrun, hrun'], hv', hd'⟩

end Execution

/-! ## 5. What stands behind a step -/

/-- **What stands behind a node's own step follows the node's link.** A link that is missing or leads
    nowhere ends the function. Any other is followed by the step of the node it leads to, or by a
    call of the one function that begins with that node. A choice has, for each option, the name of
    the function that begins where the option leads, and none if the option leads nowhere. -/
structure FollowsLinks (d : Dialog) (fs : List PlannedFunction) (s : PlannedStep)
    (behind : List PlannedStep) : Prop where
  ends : (∀ id, s.step.node.content.next? = some id → d.node? id = none) → behind = []
  goesOn : ∀ id m, s.step.node.content.next? = some id → d.node? id = some m →
    (∃ t rest, behind = t :: rest ∧ t.isOwn = true ∧ t.step.node = m) ∨
    ∃ t g, behind = [t] ∧ t.isOwn = false ∧ t.step.nextFunction = some g.name ∧ g ∈ fs ∧
      g.firstNode? = some m ∧ ∀ g' ∈ fs, g'.firstNode? = some m → g' = g
  optionCount : ∀ options, s.step.node.content = .choice options →
    s.step.optionFunctions.length = options.length
  optionEnds : ∀ (options : List ChoiceOption) (i : Nat) (o : ChoiceOption),
    s.step.node.content = .choice options → options[i]? = some o → o.next.bind d.node? = none →
    s.step.optionFunctions[i]? = some none
  optionGoesOn : ∀ (options : List ChoiceOption) (i : Nat) (o : ChoiceOption) (m : DialogNode),
    s.step.node.content = .choice options → options[i]? = some o → o.next.bind d.node? = some m →
    ∃ g ∈ fs, g.firstNode? = some m ∧ s.step.optionFunctions[i]? = some (some g.name)

theorem Flow.node_head {n : DialogNode} {s : PlannedStep} {behind : List PlannedStep}
    (hf : Flow npc d n (s :: behind)) : s = ownStep npc d (functionStarts npc d) n := by
  obtain ⟨rest, hr⟩ := hf.eq_cons
  exact (List.cons.inj hr).1

/-- The steps from one of a function's own steps on are those from its node on. -/
theorem Flow.right {n : DialogNode} {steps : List PlannedStep} (h : d.DistinctIds)
    (hf : Flow npc d n steps) (hr : d.Reachable n) {before behind : List PlannedStep}
    {s : PlannedStep} (hs : steps = before ++ s :: behind) (ho : s.isOwn = true) :
    d.Reachable s.step.node ∧ Flow npc d s.step.node (s :: behind) := by
  induction hf generalizing before with
  | @ends n hl =>
    rcases List.append_eq_singleton_iff.1 hs.symm with ⟨rfl, hs⟩ | ⟨-, hs⟩
    · obtain ⟨rfl, rfl⟩ := List.cons.inj hs
      exact ⟨hr, .ends hl⟩
    · cases hs
  | @calls n m f hl hm hat =>
    cases before with
    | nil =>
      obtain ⟨rfl, rfl⟩ := List.cons.inj hs
      exact ⟨hr, .calls hl hm hat⟩
    | cons t before =>
      -- the only other step is the call, which is no node's own
      rcases List.append_eq_singleton_iff.1 (List.cons.inj hs).2.symm with ⟨-, hs⟩ | ⟨-, hs⟩
      · obtain ⟨rfl, -⟩ := List.cons.inj hs
        cases ho
      · cases hs
  | @goesOn n m rest hl hm hstart hf ih =>
    cases before with
    | nil =>
      obtain ⟨rfl, rfl⟩ := List.cons.inj hs
      exact ⟨hr, .goesOn hl hm hstart hf⟩
    | cons t before =>
      have hnode := (Dialog.node?_eq_some h).2 ⟨hm, rfl⟩
      exact ih (.link hr (NodeContent.mem_successors_of_next? hl) hnode) (List.cons.inj hs).2

theorem Flow.followsLinks {n : DialogNode} {s : PlannedStep} {behind : List PlannedStep}
    (h : d.DistinctIds) (hf : Flow npc d n (s :: behind)) (hr : d.Reachable n) :
    FollowsLinks d (planDialog npc d) s behind := by
  obtain rfl := hf.node_head
  constructor
  case ends =>
    intro hl
    cases hf with
    | ends _ => rfl
    | @calls _ m _ hl' hm _ =>
      have hnone := hl m.id hl'
      rw [(Dialog.node?_eq_some h).2 ⟨(d.reachable_of_mem_startNodes h hm).mem, rfl⟩] at hnone
      cases hnone
    | @goesOn _ m _ hl' hm _ _ =>
      have hnone := hl m.id hl'
      rw [(Dialog.node?_eq_some h).2 ⟨hm, rfl⟩] at hnone
      cases hnone
  case goesOn =>
    intro id m hl hm
    obtain ⟨hmem, rfl⟩ := (Dialog.node?_eq_some h).1 hm
    rw [node_ownStep] at hl
    cases hf with
    | ends hl' =>
      rw [hl' m.id hl] at hm
      cases hm
    | @calls _ x f hl' hx hat =>
      have hid : x.id = m.id := Option.some.inj (hl'.symm.trans hl)
      obtain rfl := Dialog.eq_of_id_eq h (d.reachable_of_mem_startNodes h hx).mem hmem hid
      obtain ⟨g, hg, -, hfirst, hname, -⟩ := exists_function npc h hx
      obtain rfl : g.name = f := Option.some.inj (hname.symm.trans hat)
      refine .inr ⟨_, g, rfl, rfl, rfl, hg, hfirst, fun g' hg' hfirst' => ?_⟩
      exact eq_of_firstNode?_eq h hg' hg (hfirst'.trans hfirst.symm)
    | @goesOn _ x rest hl' hx hs hf =>
      have hid : x.id = m.id := Option.some.inj (hl'.symm.trans hl)
      obtain rfl := Dialog.eq_of_id_eq h hx hmem hid
      obtain ⟨rest, rfl⟩ := hf.eq_cons
      exact .inl ⟨_, rest, rfl, isOwn_ownStep .., rfl⟩
  case optionCount =>
    intro options hc
    rw [node_ownStep] at hc
    simp [ownStep, dialogStep, NodeContent.optionFunctions, hc]
  case optionEnds =>
    intro options i o hc ho hnone
    rw [node_ownStep] at hc
    simp [ownStep, dialogStep, NodeContent.optionFunctions, hc, ho, optionFunction_eq_none h hnone]
  case optionGoesOn =>
    intro options i o m hc ho hm
    rw [node_ownStep] at hc
    obtain ⟨hs, hat⟩ := optionFunction_eq_functionAt npc h hr hc (List.mem_of_getElem? ho) hm
    obtain ⟨g, hg, -, hfirst, hname, -⟩ := exists_function npc h hs
    refine ⟨g, hg, hfirst, ?_⟩
    simp [ownStep, dialogStep, NodeContent.optionFunctions, hc, ho, hat, hname]

end Plan

/-- **Running the functions of a dialog is walking its graph**: whatever is picked, the execution
    visits the nodes the walk visits and ends where the walk ends, and behind every node's own step
    stands what follows its link. -/
structure Dialog.RunAs (d : Dialog) (fs : List PlannedFunction) : Prop where
  visits : ∀ pick n, ∃ k e, (Execution.start fs).run fs pick k = some e ∧
    e.visited = (d.walk pick n).visited ∧ (e.rest = [] ↔ (d.walk pick n).here = none)
  follows : ∀ f ∈ fs, ∀ before s behind, f.steps = before ++ s :: behind → s.isOwn = true →
    FollowsLinks d fs s behind

theorem runAs_planDialog (npc : GameObject) {d : Dialog} (h : d.DistinctIds) :
    d.RunAs (planDialog npc d) := by
  constructor
  case visits =>
    intro pick n
    obtain ⟨k, e, hrun, hv, hd⟩ := Execution.exists_run_of_walk npc h pick n
    exact ⟨k, e, hrun, hv, hd.eq_nil_iff⟩
  case follows =>
    intro f hf before s behind hs ho
    obtain ⟨n, hn, hsteps⟩ := exists_startNode_of_mem_planDialog hf
    have hreach := d.reachable_of_mem_startNodes h hn
    obtain ⟨hr, hflow⟩ := (flow_functionSteps npc h hn).right h hreach (hsteps.trans hs) ho
    exact hflow.followsLinks h hr

theorem runAs_crossroads :
    crossroads.DistinctIds ∧ crossroads.RunAs (planDialog guide crossroads) :=
  ⟨distinctIds_crossroads, runAs_planDialog guide distinctIds_crossroads⟩

end RecordExport

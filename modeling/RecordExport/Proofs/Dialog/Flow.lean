import Mathlib
import RecordExport.Proofs.Dialog.Discovery
/-!
# The steps of a dialog's functions

`flow` follows the links of a dialog under a guard: it stops at an id it has been at. This file says
what the steps are without the guard, for dialogs whose nodes have ids of their own:

* `Flow` describes the steps from a node on by the node's link alone;
* a `Trail` is how a function comes from its start to a node. A node that no function starts at has
  one link into it, so there is one trail to a node (`Trail.unique`) and no trail meets itself;
* hence the guard never stops anything (`flow_of_trail`), and every reachable node has its own step
  once, in one function (`sharedOut_planDialog`).
-/

namespace RecordExport

/-! ## 1. Links of a node -/

theorem NodeContent.mem_successors_of_next? {n : DialogNode} {id : String}
    (h : n.content.next? = some id) : id ∈ n.successors := by
  unfold DialogNode.successors
  unfold NodeContent.next? at h
  split <;> simp_all

theorem DialogNode.next?_of_mem_successors {n : DialogNode} {id : String}
    (hc : n.isChoice = false) (h : id ∈ n.successors) : n.content.next? = some id := by
  unfold DialogNode.successors at h
  unfold DialogNode.isChoice at hc
  unfold NodeContent.next?
  split <;> simp_all

namespace Dialog

theorem mem_links {d : Dialog} {n : DialogNode} {id : String} :
    (n, id) ∈ d.links ↔ n ∈ d.nodes ∧ id ∈ n.successors := by
  simp [links]

/-- Two different entries that a test holds of count as two. -/
theorem one_lt_countP {α : Type} {p : α → Bool} {l : List α} {a b : α} (ha : a ∈ l) (hb : b ∈ l)
    (hpa : p a) (hpb : p b) (hne : a ≠ b) : 1 < l.countP p := by
  have hla : a ∈ l.filter p := List.mem_filter.2 ⟨ha, hpa⟩
  have hlb : b ∈ l.filter p := List.mem_filter.2 ⟨hb, hpb⟩
  rw [List.countP_eq_length_filter]
  refine Nat.lt_of_not_le fun hle => hne ?_
  match hf : l.filter p with
  | [] => simp [hf] at hla
  | [c] =>
    rw [hf, List.mem_singleton] at hla hlb
    rw [hla, hlb]
  | _ :: _ :: _ => simp [hf] at hle

section Unshared

variable {d : Dialog} {id : String}

/-- A node that is not shared has at most one node that links to it. -/
theorem eq_of_links (hs : d.isShared id = false) {m m' : DialogNode} (hm : m ∈ d.nodes)
    (hm' : m' ∈ d.nodes) (hl : id ∈ m.successors) (hl' : id ∈ m'.successors) : m = m' := by
  by_contra hne
  have hp : (m, id) ≠ (m', id) := fun he => hne (congrArg Prod.fst he)
  have hc : 1 < d.links.countP (·.2 = id) :=
    one_lt_countP (mem_links.2 ⟨hm, hl⟩) (mem_links.2 ⟨hm', hl'⟩) (by simp) (by simp) hp
  simp [isShared, hc] at hs

/-- No option leads to a node that is not shared. -/
theorem isChoice_of_link (hs : d.isShared id = false) {m : DialogNode} (hm : m ∈ d.nodes)
    (hl : id ∈ m.successors) : m.isChoice = false := by
  by_contra hc
  have hany : d.links.any (fun l => l.1.isChoice && l.2 = id) = true :=
    List.any_eq_true.2 ⟨(m, id), mem_links.2 ⟨hm, hl⟩, by simpa using hc⟩
  rw [isShared, hany, Bool.true_or] at hs
  cases hs

end Unshared

/-! ## 2. Where functions start -/

/-- The nodes that functions start at, in the order they are discovered in. -/
def startNodes (d : Dialog) : List DialogNode :=
  match d.discoveryOrder with
  | [] => []
  | root :: others => root :: others.filter fun n => d.isShared n.id

theorem startNodes_sublist (d : Dialog) : d.startNodes.Sublist d.discoveryOrder := by
  unfold startNodes
  split
  · simp
  · rename_i hd
    rw [hd]
    exact List.Sublist.cons_cons _ List.filter_sublist

variable {d : Dialog}

theorem nodup_startNodes (h : d.DistinctIds) : d.startNodes.Nodup :=
  (breadthFirst_discoveryOrder h).nodup.sublist d.startNodes_sublist

theorem reachable_of_mem_startNodes (h : d.DistinctIds) {n : DialogNode}
    (hn : n ∈ d.startNodes) : d.Reachable n :=
  ((breadthFirst_discoveryOrder h).mem_iff n).1 (d.startNodes_sublist.subset hn)

theorem mem_startNodes_of_first (h : d.DistinctIds) {n : DialogNode}
    (hn : d.nodes.head? = some n) : n ∈ d.startNodes := by
  have hf := (breadthFirst_discoveryOrder h).first
  unfold startNodes
  cases ho : d.discoveryOrder with
  | nil => simp [ho, hn] at hf
  | cons root others =>
    rw [ho, hn, List.head?_cons, Option.some.injEq] at hf
    simp [hf]

/-- **A function starts at every shared node that is reached.** -/
theorem mem_startNodes_of_isShared (h : d.DistinctIds) {n : DialogNode} (hr : d.Reachable n)
    (hs : d.isShared n.id) : n ∈ d.startNodes := by
  have hm := ((breadthFirst_discoveryOrder h).mem_iff n).2 hr
  unfold startNodes
  cases ho : d.discoveryOrder with
  | nil => simp [ho] at hm
  | cons root others =>
    rcases List.mem_cons.1 (ho ▸ hm) with rfl | hm
    · exact List.mem_cons_self
    · exact List.mem_cons_of_mem _ (List.mem_filter.2 ⟨hm, hs⟩)

theorem isShared_eq_false (h : d.DistinctIds) {n : DialogNode} (hr : d.Reachable n)
    (hs : n ∉ d.startNodes) : d.isShared n.id = false := by
  by_contra hc
  exact hs (mem_startNodes_of_isShared h hr (by simpa using hc))

end Dialog

/-! ## 3. Names -/

section Names

variable (npc : GameObject) {d : Dialog}

/-- **The functions start at the start nodes, in their order.** -/
theorem map_nodeId_functionStarts :
    (functionStarts npc d).map (·.nodeId) = d.startNodes.map (·.id) := by
  have hz : (functionStarts npc d).map (·.nodeId) = (dialogStarts npc d).map (·.1) := by
    unfold functionStarts
    rw [List.map_map]
    conv => rhs; rw [← List.zipIdx_map_fst 0 (dialogStarts npc d), List.map_map]
    rfl
  rw [hz]
  unfold dialogStarts Dialog.startNodes Dialog.discoveryOrder
  cases d.nodes with
  | nil => rfl
  | cons root others =>
    have hids : _ = d.discovered [root] [root.id] :=
      Dialog.map_id_targets_discovered [root] [root.id]
    simp only [List.map_cons, List.map_map]
    congr 1
    calc ((d.discover [root] [root.id]).filter fun l => d.isShared l.2).map (·.2)
        = (d.discovered [root] [root.id]).filter d.isShared := by
          rw [Dialog.discovered, List.filter_map]
          rfl
      _ = ((d.targets (d.discovered [root] [root.id])).map (·.id)).filter d.isShared := by rw [hids]
      _ = _ := List.filter_map

/-- No two functions have the same name. -/
theorem nodup_name_functionStarts (d : Dialog) : ((functionStarts npc d).map (·.name)).Nodup := by
  have hn : (functionStarts npc d).map (·.name) = ((dialogStarts npc d).zipIdx.map (·.2)).map
      fun i => identifierOf npc.name ++ "_Dialog_" ++ toString (i + 1) := by
    unfold functionStarts
    rw [List.map_map, List.map_map]
    rfl
  rw [hn, List.zipIdx_map_snd]
  refine List.Nodup.map ?_ (List.nodup_range' ..)
  intro i j hij
  have hd : toString (i + 1) = toString (j + 1) := (String.append_right_inj _).1 hij
  exact Nat.succ.inj (Nat.repr_injective hd)

variable {npc}

theorem nodup_nodeId_functionStarts (h : d.DistinctIds) :
    ((functionStarts npc d).map (·.nodeId)).Nodup := by
  rw [map_nodeId_functionStarts npc]
  refine (d.nodup_startNodes h).map_on fun m hm n hn he => ?_
  exact Dialog.eq_of_id_eq h (d.reachable_of_mem_startNodes h hm).mem
    (d.reachable_of_mem_startNodes h hn).mem he

theorem functionAt_eq_some (h : d.DistinctIds) {id f : String} :
    functionAt (functionStarts npc d) id = some f ↔
      ∃ s ∈ functionStarts npc d, s.nodeId = id ∧ s.name = f := by
  unfold functionAt
  rw [Option.map_eq_some_iff]
  constructor
  · rintro ⟨s, hs, hf⟩
    obtain ⟨hm, hid⟩ := (find?_key_eq_some (nodup_nodeId_functionStarts h)).1 hs
    exact ⟨s, hm, hid, hf⟩
  · rintro ⟨s, hm, hid, hf⟩
    exact ⟨s, (find?_key_eq_some (nodup_nodeId_functionStarts h)).2 ⟨hm, hid⟩, hf⟩

/-- A node has a function exactly if one starts there. -/
theorem isSome_functionAt (h : d.DistinctIds) {n : DialogNode} (hn : n ∈ d.nodes) :
    (functionAt (functionStarts npc d) n.id).isSome ↔ n ∈ d.startNodes := by
  have hids : (∃ s ∈ functionStarts npc d, s.nodeId = n.id) ↔ ∃ m ∈ d.startNodes, m.id = n.id := by
    rw [← List.mem_map, ← List.mem_map, map_nodeId_functionStarts npc]
  constructor
  · intro hs
    obtain ⟨f, hf⟩ := Option.isSome_iff_exists.1 hs
    obtain ⟨s, hs, hid, -⟩ := (functionAt_eq_some h).1 hf
    obtain ⟨m, hm, he⟩ := hids.1 ⟨s, hs, hid⟩
    rwa [← Dialog.eq_of_id_eq h (d.reachable_of_mem_startNodes h hm).mem hn he]
  · intro hs
    obtain ⟨s, hs, hid⟩ := hids.2 ⟨n, hs, rfl⟩
    rw [(functionAt_eq_some h).2 ⟨s, hs, hid, rfl⟩]
    rfl

/-- An id with a function is that of a start node. -/
theorem exists_startNode_of_functionAt (h : d.DistinctIds) {id f : String}
    (hf : functionAt (functionStarts npc d) id = some f) : ∃ n ∈ d.startNodes, n.id = id := by
  obtain ⟨s, hs, hid, -⟩ := (functionAt_eq_some h).1 hf
  have hm : id ∈ (functionStarts npc d).map (·.nodeId) := List.mem_map.2 ⟨s, hs, hid⟩
  rw [map_nodeId_functionStarts npc] at hm
  exact List.mem_map.1 hm

end Names

/-! ## 4. Trails -/

/-- **How a function comes to a node**: the nodes from the function's start up to the node, each of
    which links to the next, which no function starts at. -/
inductive Trail (d : Dialog) : List DialogNode → DialogNode → Prop where
  | start {n : DialogNode} (hn : n ∈ d.startNodes) : Trail d [] n
  | next {before : List DialogNode} {m n : DialogNode} (ht : Trail d before m)
      (hl : m.content.next? = some n.id) (hn : n ∈ d.nodes) (hs : n ∉ d.startNodes) :
      Trail d (before ++ [m]) n

namespace Trail

variable {d : Dialog} {before : List DialogNode} {n : DialogNode}

theorem reachable (h : d.DistinctIds) (ht : Trail d before n) : d.Reachable n := by
  induction ht with
  | start hn => exact d.reachable_of_mem_startNodes h hn
  | next _ hl hn _ ih =>
    exact .link ih (NodeContent.mem_successors_of_next? hl) ((Dialog.node?_eq_some h).2 ⟨hn, rfl⟩)

/-- **There is one trail to a node.** -/
theorem unique (h : d.DistinctIds) (ht : Trail d before n) {before' : List DialogNode}
    (ht' : Trail d before' n) : before = before' := by
  induction ht generalizing before' with
  | start hn =>
    cases ht' with
    | start _ => rfl
    | next _ _ _ hs => exact absurd hn hs
  | next ht hl hn hs ih =>
    cases ht' with
    | start hn' => exact absurd hn' hs
    | next ht' hl' _ _ =>
      have hr := (Trail.next ht hl hn hs).reachable h
      have hm := Dialog.eq_of_links (Dialog.isShared_eq_false h hr hs) (ht.reachable h).mem
        (ht'.reachable h).mem (NodeContent.mem_successors_of_next? hl)
        (NodeContent.mem_successors_of_next? hl')
      subst hm
      rw [ih ht']

/-- A trail passes each of its nodes on the trail to that node. -/
theorem left (ht : Trail d before n) {a c : List DialogNode} {x : DialogNode}
    (hb : before = a ++ x :: c) : Trail d a x := by
  induction ht generalizing c with
  | start _ => simp at hb
  | next ht _ _ _ ih =>
    rcases List.eq_nil_or_concat c with rfl | ⟨c, y, rfl⟩
    · obtain ⟨rfl, hx⟩ := List.append_inj' hb rfl
      obtain rfl : _ = x := by simpa using hx
      exact ht
    · rw [List.concat_eq_append, ← List.cons_append, ← List.append_assoc] at hb
      exact ih (List.append_inj' hb rfl).1

/-- **No trail meets itself.** -/
theorem notMem (h : d.DistinctIds) (ht : Trail d before n) : n ∉ before := by
  intro hn
  obtain ⟨a, c, hb⟩ := List.append_of_mem hn
  have he := (ht.left hb).unique h ht
  rw [hb] at he
  simp at he

/-- Every reachable node has a trail. -/
theorem exists_of_reachable (h : d.DistinctIds) (hr : d.Reachable n) :
    ∃ before, Trail d before n := by
  induction hr with
  | first hf => exact ⟨[], .start (Dialog.mem_startNodes_of_first h hf)⟩
  | @link m n id hm hl hn ih =>
    obtain ⟨before, ht⟩ := ih
    obtain ⟨hmem, rfl⟩ := (Dialog.node?_eq_some h).1 hn
    by_cases hs : n ∈ d.startNodes
    · exact ⟨[], .start hs⟩
    · have hshared := Dialog.isShared_eq_false h (.link hm hl hn) hs
      have hc := Dialog.isChoice_of_link hshared hm.mem hl
      exact ⟨before ++ [m], .next ht (DialogNode.next?_of_mem_successors hc hl) hmem hs⟩

end Trail

/-! ## 5. Steps without the guard -/

/-- **The steps from a node on, told by its link**: they end with its own step where there is no
    link or the link leads nowhere; a function that starts where the link leads is called; from any
    other node they go on. -/
inductive Flow (npc : GameObject) (d : Dialog) : DialogNode → List PlannedStep → Prop where
  | ends {n : DialogNode} (hl : ∀ id, n.content.next? = some id → d.node? id = none) :
      Flow npc d n [ownStep npc d (functionStarts npc d) n]
  | calls {n m : DialogNode} {f : String} (hl : n.content.next? = some m.id)
      (hm : m ∈ d.startNodes) (hf : functionAt (functionStarts npc d) m.id = some f) :
      Flow npc d n [ownStep npc d (functionStarts npc d) n, callStep npc d n f]
  | goesOn {n m : DialogNode} {rest : List PlannedStep} (hl : n.content.next? = some m.id)
      (hm : m ∈ d.nodes) (hs : m ∉ d.startNodes) (hr : Flow npc d m rest) :
      Flow npc d n (ownStep npc d (functionStarts npc d) n :: rest)

/-- A node's own steps, not the calls behind them. -/
def PlannedStep.isOwn (s : PlannedStep) : Bool := s.kind ≠ .functionCall

/-- The nodes that steps are the own steps of. -/
def ownNodes (steps : List PlannedStep) : List DialogNode :=
  (steps.filter (·.isOwn)).map (·.step.node)

section Flow

variable {npc : GameObject} {d : Dialog}

@[simp] theorem isOwn_ownStep (starts : List FunctionStart) (n : DialogNode) :
    (ownStep npc d starts n).isOwn = true := by
  unfold ownStep PlannedStep.isOwn NodeContent.kind
  cases n.content <;> rfl

@[simp] theorem isOwn_callStep (n : DialogNode) (f : String) :
    (callStep npc d n f).isOwn = false := rfl

@[simp] theorem node_ownStep (starts : List FunctionStart) (n : DialogNode) :
    (ownStep npc d starts n).step.node = n := rfl

@[simp] theorem ownNodes_nil : ownNodes [] = [] := rfl

@[simp] theorem ownNodes_ownStep (starts : List FunctionStart) (n : DialogNode)
    (rest : List PlannedStep) :
    ownNodes (ownStep npc d starts n :: rest) = n :: ownNodes rest := by
  simp [ownNodes]

@[simp] theorem ownNodes_callStep (n : DialogNode) (f : String) (rest : List PlannedStep) :
    ownNodes (callStep npc d n f :: rest) = ownNodes rest := by
  simp [ownNodes]

/-- **The guard of `flow` stops nothing**: behind a trail the steps are those told by the links. -/
theorem flow_of_trail (h : d.DistinctIds) {before : List DialogNode} {n : DialogNode}
    (ht : Trail d before n) :
    Flow npc d n (flow npc d (functionStarts npc d) (before.map (·.id)) n.id) := by
  generalize hvisited : before.map (·.id) = visited
  generalize hid : n.id = id
  induction visited, id using flow.induct d generalizing before n with
  | case1 visited id hc =>
    have hc : n.id ∈ before.map (·.id) := by simpa [hvisited, hid] using hc
    obtain ⟨m, hm, he⟩ := List.mem_map.1 hc
    obtain ⟨a, c, hb⟩ := List.append_of_mem hm
    have hmem := ((ht.left hb).reachable h).mem
    have hmn := Dialog.eq_of_id_eq h hmem (ht.reachable h).mem he
    exact absurd (hmn ▸ hm) (ht.notMem h)
  | case2 visited id hc hn =>
    rw [← hid, Dialog.target?_id h (ht.reachable h).mem] at hn
    cases hn
  | case3 visited id hc n' hn' ih =>
    obtain rfl : n = n' := by
      rw [← hid, Dialog.target?_id h (ht.reachable h).mem] at hn'
      exact Option.some.inj hn'
    rw [flow_of_target? (by simpa using hc) hn']
    cases hl : n.content.next? with
    | none => exact .ends (by simp [hl])
    | some next =>
      simp only
      cases hf : functionAt (functionStarts npc d) next with
      | some f =>
        obtain ⟨m, hm, rfl⟩ := exists_startNode_of_functionAt h hf
        exact .calls hl hm hf
      | none =>
        simp only
        cases hm : d.node? next with
        | none =>
          rw [flow_of_target?_eq_none (by rw [Dialog.target?_eq_node? h, hm])]
          exact .ends (by simp [hl, hm])
        | some m =>
          obtain ⟨hmem, rfl⟩ := (Dialog.node?_eq_some h).1 hm
          have hs : m ∉ d.startNodes := by
            rw [← isSome_functionAt h hmem, hf]
            simp
          refine .goesOn hl hmem hs (ih m.id (ht.next hl hmem hs) ?_ rfl)
          simp [hvisited, hid]

/-! ## 6. Every reachable node once -/

namespace Flow

variable {n : DialogNode} {steps : List PlannedStep}

theorem eq_cons (hf : Flow npc d n steps) :
    ∃ rest, steps = ownStep npc d (functionStarts npc d) n :: rest := by
  cases hf <;> exact ⟨_, rfl⟩

theorem ownNodes_eq_cons (hf : Flow npc d n steps) : ∃ rest, ownNodes steps = n :: rest := by
  obtain ⟨rest, rfl⟩ := hf.eq_cons
  exact ⟨ownNodes rest, ownNodes_ownStep ..⟩

/-- The nodes of a function's steps, up to one of them, are a trail to it. -/
theorem trail (hf : Flow npc d n steps) {before : List DialogNode} (ht : Trail d before n)
    {a c : List DialogNode} {x : DialogNode} (hx : ownNodes steps = a ++ x :: c) :
    Trail d (before ++ a) x := by
  induction hf generalizing before a with
  | ends _ | calls _ _ _ =>
    simp only [ownNodes_ownStep, ownNodes_callStep, ownNodes_nil] at hx
    rcases List.append_eq_singleton_iff.1 hx.symm with ⟨rfl, hx⟩ | ⟨-, hx⟩
    · obtain rfl := (List.cons.inj hx).1
      simpa using ht
    · cases hx
  | goesOn hl hm hs _ ih =>
    rw [ownNodes_ownStep] at hx
    cases a with
    | nil =>
      obtain rfl := (List.cons.inj hx).1
      simpa using ht
    | cons y a =>
      obtain ⟨hy, hx⟩ := List.cons.inj hx
      have := ih (ht.next hl hm hs) hx
      rw [← hy]
      simpa using this

/-- Where a node's link leads to no start, its function goes on there. -/
theorem mem_ownNodes_of_next? (h : d.DistinctIds) (hf : Flow npc d n steps) {m x : DialogNode}
    (hm : m ∈ ownNodes steps) (hl : m.content.next? = some x.id) (hx : x ∈ d.nodes)
    (hs : x ∉ d.startNodes) : x ∈ ownNodes steps := by
  induction hf with
  | ends hl' =>
    obtain rfl : m = _ := by simpa using hm
    have hnone := hl' _ hl
    rw [(Dialog.node?_eq_some h).2 ⟨hx, rfl⟩] at hnone
    cases hnone
  | @calls n s _ hl' hm' _ =>
    obtain rfl : m = n := by simpa using hm
    have hid : x.id = s.id := Option.some.inj (hl.symm.trans hl')
    exact absurd (Dialog.eq_of_id_eq h hx (d.reachable_of_mem_startNodes h hm').mem hid ▸ hm') hs
  | @goesOn n y rest hl' hy _ hr ih =>
    rw [ownNodes_ownStep, List.mem_cons] at hm ⊢
    rcases hm with rfl | hm
    · have hid : x.id = y.id := Option.some.inj (hl.symm.trans hl')
      obtain ⟨others, ho⟩ := hr.ownNodes_eq_cons
      rw [Dialog.eq_of_id_eq h hx hy hid, ho]
      exact .inr List.mem_cons_self
    · exact .inr (ih hm)

end Flow

/-- The steps of the function that starts at a node. -/
def functionSteps (npc : GameObject) (d : Dialog) (n : DialogNode) : List PlannedStep :=
  flow npc d (functionStarts npc d) [] n.id

theorem flow_functionSteps (npc : GameObject) (h : d.DistinctIds) {n : DialogNode}
    (hn : n ∈ d.startNodes) : Flow npc d n (functionSteps npc d n) := flow_of_trail h (.start hn)

/-- **The functions' steps are those from the start nodes on.** -/
theorem map_steps_planDialog (npc : GameObject) (d : Dialog) :
    (planDialog npc d).map (·.steps) = d.startNodes.map (functionSteps npc d) := by
  have hids : (functionStarts npc d).map (·.nodeId) = _ := map_nodeId_functionStarts npc
  calc (planDialog npc d).map (·.steps)
      = ((functionStarts npc d).map (·.nodeId)).map (flow npc d (functionStarts npc d) []) := by
        unfold planDialog
        rw [List.map_map, List.map_map]
        rfl
    _ = d.startNodes.map (functionSteps npc d) := by
        rw [hids, List.map_map]
        rfl

/-- Every function has the steps from a start node on. -/
theorem exists_startNode_of_mem_planDialog {f : PlannedFunction}
    (hf : f ∈ planDialog npc d) : ∃ n ∈ d.startNodes, functionSteps npc d n = f.steps := by
  have hm : f.steps ∈ (planDialog npc d).map (·.steps) := List.mem_map_of_mem hf
  rw [map_steps_planDialog npc d] at hm
  exact List.mem_map.1 hm

theorem nodup_name_planDialog (npc : GameObject) (d : Dialog) :
    ((planDialog npc d).map (·.name)).Nodup := by
  have hn : (planDialog npc d).map (·.name) = (functionStarts npc d).map (·.name) := by
    unfold planDialog
    rw [List.map_map]
    rfl
  rw [hn]
  exact nodup_name_functionStarts npc d

theorem mem_functionSteps_of_trail (h : d.DistinctIds) {before : List DialogNode} {n : DialogNode}
    (ht : Trail d before n) :
    ∃ s ∈ d.startNodes, n ∈ ownNodes (functionSteps npc d s) := by
  induction ht with
  | @start n hn =>
    obtain ⟨rest, hr⟩ := (flow_functionSteps npc h hn).ownNodes_eq_cons
    exact ⟨n, hn, hr ▸ List.mem_cons_self⟩
  | next _ hl hn hs ih =>
    obtain ⟨s, hstart, hm⟩ := ih
    exact ⟨s, hstart, (flow_functionSteps npc h hstart).mem_ownNodes_of_next? h hm hl hn hs⟩

/-- A node of a function's steps has a trail that begins at the function's start. -/
theorem exists_trail_of_mem (h : d.DistinctIds) {s n : DialogNode} (hs : s ∈ d.startNodes)
    {a c : List DialogNode} (hn : ownNodes (functionSteps npc d s) = a ++ n :: c) :
    Trail d a n ∧ (a ++ [n]).head? = some s := by
  have hf := flow_functionSteps npc h hs
  refine ⟨by simpa using hf.trail (.start hs) hn, ?_⟩
  obtain ⟨rest, hr⟩ := hf.ownNodes_eq_cons
  rw [hn] at hr
  cases a with
  | nil => simpa using (List.cons.inj hr).1
  | cons x a => simpa using (List.cons.inj hr).1

/-- A list repeats nothing if no entry stands in front of itself. -/
theorem nodup_of_notMem_front {α : Type} {l : List α}
    (h : ∀ a x c, l = a ++ x :: c → x ∉ a) : l.Nodup := by
  induction l using List.reverseRecOn with
  | nil => exact List.nodup_nil
  | append_singleton l x ih =>
    rw [← List.concat_eq_append, List.nodup_concat]
    refine ⟨h l x [] rfl, ih fun a y c hl => h a y (c ++ [x]) ?_⟩
    rw [hl]
    simp

/-- **No node has two own steps**, in one function or in two. -/
theorem nodup_flatMap_ownNodes (npc : GameObject) (h : d.DistinctIds) :
    (d.startNodes.flatMap fun s => ownNodes (functionSteps npc d s)).Nodup := by
  refine List.nodup_flatMap.2 ⟨fun s hs => ?_, ?_⟩
  · exact nodup_of_notMem_front fun a n c hn => (exists_trail_of_mem h hs hn).1.notMem h
  · refine (d.nodup_startNodes h).pairwise_of_forall_ne fun s hs s' hs' hne n hn hn' => ?_
    obtain ⟨a, c, hb⟩ := List.append_of_mem hn
    obtain ⟨a', c', hb'⟩ := List.append_of_mem hn'
    obtain ⟨ht, hhead⟩ := exists_trail_of_mem h hs hb
    obtain ⟨ht', hhead'⟩ := exists_trail_of_mem h hs' hb'
    rw [ht.unique h ht', hhead'] at hhead
    exact hne (Option.some.inj hhead).symm

theorem mem_flatMap_ownNodes (h : d.DistinctIds) {n : DialogNode} :
    n ∈ (d.startNodes.flatMap fun s => ownNodes (functionSteps npc d s)) ↔ d.Reachable n := by
  rw [List.mem_flatMap]
  constructor
  · rintro ⟨s, hs, hn⟩
    obtain ⟨a, c, hb⟩ := List.append_of_mem hn
    exact (exists_trail_of_mem h hs hb).1.reachable h
  · intro hr
    obtain ⟨before, ht⟩ := Trail.exists_of_reachable h hr
    exact mem_functionSteps_of_trail h ht

/-- The node of a function's first step. -/
def PlannedFunction.firstNode? (f : PlannedFunction) : Option DialogNode :=
  f.steps.head?.map (·.step.node)

theorem map_firstNode?_planDialog (npc : GameObject) (h : d.DistinctIds) :
    (planDialog npc d).map (·.firstNode?) = d.startNodes.map some := by
  calc (planDialog npc d).map (·.firstNode?)
      = ((planDialog npc d).map (·.steps)).map fun steps => steps.head?.map (·.step.node) := by
        rw [List.map_map]
        rfl
    _ = d.startNodes.map some := by
        rw [map_steps_planDialog npc d, List.map_map]
        refine List.map_congr_left fun n hn => ?_
        obtain ⟨rest, hr⟩ := (flow_functionSteps npc h hn).eq_cons
        show (functionSteps npc d n).head?.map (·.step.node) = some n
        rw [hr]
        rfl

/-- The steps end where the links do: with a call, or with the own step of a node whose link is
    missing or leads nowhere, as that of every choice is. -/
def Dialog.EndsAtLink (d : Dialog) (steps : List PlannedStep) : Prop :=
  ∃ s, steps.getLast? = some s ∧
    (s.isOwn = false ∨ ∀ id, s.step.node.content.next? = some id → d.node? id = none)

theorem Flow.endsAtLink {n : DialogNode} {steps : List PlannedStep} (hf : Flow npc d n steps) :
    d.EndsAtLink steps := by
  induction hf with
  | ends hl => exact ⟨_, rfl, .inr hl⟩
  | calls _ _ _ => exact ⟨_, rfl, .inl rfl⟩
  | goesOn _ _ _ _ ih =>
    obtain ⟨s, hs, hend⟩ := ih
    exact ⟨s, by rw [List.getLast?_cons, hs]; rfl, hend⟩

end Flow

/-- **Functions share out the reachable nodes of a dialog**: each has its own step in exactly one
    place, no other node has one. The functions have names of their own and stand in the
    breadth-first order of their first nodes, and none is cut short. -/
structure Dialog.SharedOut (d : Dialog) (fs : List PlannedFunction) : Prop where
  once : ∀ n, d.Reachable n → (fs.flatMap fun f => ownNodes f.steps).count n = 1
  never : ∀ n, ¬d.Reachable n → (fs.flatMap fun f => ownNodes f.steps).count n = 0
  names : (fs.map (·.name)).Nodup
  order : ∃ order firsts, d.BreadthFirst order ∧ List.Sublist firsts order ∧
    fs.map (·.firstNode?) = firsts.map some
  ends : ∀ f ∈ fs, d.EndsAtLink f.steps

theorem sharedOut_planDialog (npc : GameObject) {d : Dialog} (h : d.DistinctIds) :
    d.SharedOut (planDialog npc d) := by
  have hnodes : ((planDialog npc d).flatMap fun f => ownNodes f.steps) =
      d.startNodes.flatMap fun s => ownNodes (functionSteps npc d s) := by
    calc ((planDialog npc d).flatMap fun f => ownNodes f.steps)
        = ((planDialog npc d).map (·.steps)).flatMap ownNodes := by rw [List.flatMap_map]
      _ = _ := by rw [map_steps_planDialog npc d, List.flatMap_map]
  constructor
  case once =>
    intro n hn
    rw [hnodes]
    exact List.count_eq_one_of_mem (nodup_flatMap_ownNodes npc h) ((mem_flatMap_ownNodes h).2 hn)
  case never =>
    intro n hn
    rw [hnodes]
    exact List.count_eq_zero.2 fun hm => hn ((mem_flatMap_ownNodes h).1 hm)
  case names => exact nodup_name_planDialog npc d
  case order =>
    exact ⟨d.discoveryOrder, d.startNodes, Dialog.breadthFirst_discoveryOrder h,
      d.startNodes_sublist, map_firstNode?_planDialog npc h⟩
  case ends =>
    intro f hf
    obtain ⟨n, hn, hs⟩ := exists_startNode_of_mem_planDialog hf
    exact hs ▸ (flow_functionSteps npc h hn).endsAtLink

/-- A character without anything but a name. -/
def guide : GameObject := ⟨"guide", "Guide", .npc, [], [], [], [], []⟩

/-- The choice leads on, back, nowhere and out; two nodes link to each other, and to one of them a
    node that no link leads to. -/
def crossroads : Dialog where
  id := "crossroads"
  objectId := "guide"
  nodes :=
    [⟨"greeting", .npcText "Where to?" (some "ways")⟩,
      ⟨"ways", .choice [⟨"on", "On", some "path"⟩, ⟨"back", "Again?", some "greeting"⟩,
        ⟨"lost", "Elsewhere", some "nowhere"⟩, ⟨"out", "Bye", none⟩]⟩,
      ⟨"path", .playerText "On and on." (some "walk")⟩,
      ⟨"walk", .action "walk" "1" (some "path")⟩,
      ⟨"unheard", .npcText "Psst." (some "walk")⟩]

theorem distinctIds_crossroads : crossroads.DistinctIds := by
  unfold Dialog.DistinctIds
  decide

theorem sharedOut_crossroads :
    crossroads.DistinctIds ∧ crossroads.SharedOut (planDialog guide crossroads) :=
  ⟨distinctIds_crossroads, sharedOut_planDialog guide distinctIds_crossroads⟩

end RecordExport

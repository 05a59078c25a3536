import RecordExport.Proofs.Dialog.Flow
/-!
# Ids that several nodes have

A dialog is read from a file, where two nodes may have the same id. Such an id could mean the first of these
nodes, as `Dialog.node?` takes it, or the last, as the links of `Dialog.target?` do. The dialog begins at its
first node, and reachable is what links lead to from there when each id means the first node it is found at.

* `Dialog.ReadsLast`: what ids mean to the functions of every dialog. The walk begins at the first node and
  goes on by last nodes, and the steps are those of last nodes only;
* `Dialog.ReadsFirst`: all of it goes by first nodes, so that the functions begin at the first node, the walk
  goes through the reachable nodes and the steps are theirs;
* `readsLast_planDialog`: the first always holds, and the second just if every reachable node is the last
  with its id.
-/

namespace RecordExport

/-! ## 1. What the steps are of -/

section Flow

variable {npc : GameObject} {d : Dialog} {starts : List FunctionStart} {visited : List String} {id : String}

/-- The nodes that steps of a dialog's functions are the own steps of. -/
def plannedNodes (npc : GameObject) (d : Dialog) : List DialogNode :=
  (planDialog npc d).flatMap fun f => ownNodes f.steps

/-- The own steps of a flow are those of its first node, and of the flow behind it unless a function is
    called or the links end. -/
theorem ownNodes_flow {n : DialogNode} (hv : id ∉ visited) (hn : d.target? id = some n) :
    ownNodes (flow npc d starts visited id) = n ::
      match n.content.next? with
      | none => []
      | some next =>
        match functionAt starts next with
        | some _ => []
        | none => ownNodes (flow npc d starts (visited ++ [id]) next) := by
  rw [flow_of_target? hv hn, ownNodes_ownStep]
  congr 1
  cases n.content.next? with
  | none => rfl
  | some next =>
    dsimp only
    cases functionAt starts next with
    | none => rfl
    | some f => rfl

/-- The first step is of the node the id leads to. -/
theorem head?_flow (starts : List FunctionStart) (id : String) :
    (flow npc d starts [] id).head?.map (·.step.node) = d.target? id := by
  cases hn : d.target? id with
  | none => rw [flow_of_target?_eq_none hn]; rfl
  | some n => rw [flow_of_target? List.not_mem_nil hn]; rfl

/-- What holds of the node a flow begins at and is handed on along links holds of all its nodes. -/
theorem forall_ownNodes_flow {P : DialogNode → Prop}
    (hlink : ∀ m id n, P m → id ∈ m.successors → d.target? id = some n → P n)
    (hfirst : ∀ n, d.target? id = some n → P n) :
    ∀ n ∈ ownNodes (flow npc d starts visited id), P n := by
  induction visited, id using flow.induct d with
  | case1 visited id hv =>
    rw [flow_of_mem_visited (by simpa using hv)]
    simp
  | case2 visited id hv hn =>
    rw [flow_of_target?_eq_none hn]
    simp
  | case3 visited id hv m hm ih =>
    rw [ownNodes_flow (by simpa using hv) hm]
    intro n hn
    rcases List.mem_cons.1 hn with rfl | hn
    · exact hfirst n hm
    · cases hnext : m.content.next? with
      | none => simp [hnext] at hn
      | some next =>
        cases hf : functionAt starts next with
        | some f => simp [hnext, hf] at hn
        | none =>
          simp only [hnext, hf] at hn
          refine ih next (fun x hx => ?_) n hn
          exact hlink m next x (hfirst m hm) (NodeContent.mem_successors_of_next? hnext) hx

/-- **A flow does not leave a node out.** Where one of its nodes links to a node that no function starts at,
    that node is among them too; the guard only stops it at ids it has been at. -/
theorem mem_ownNodes_flow {m n : DialogNode} {next : String}
    (hm : m ∈ ownNodes (flow npc d starts visited id)) (hl : m.content.next? = some next)
    (hf : functionAt starts next = none) (hn : d.target? next = some n) :
    n ∈ ownNodes (flow npc d starts visited id) ∨ next ∈ visited := by
  induction visited, id using flow.induct d with
  | case1 visited id hv =>
    rw [flow_of_mem_visited (by simpa using hv)] at hm
    simp at hm
  | case2 visited id hv hnone =>
    rw [flow_of_target?_eq_none hnone] at hm
    simp at hm
  | case3 visited id hv x hx ih =>
    -- behind the first node the guard knows its id as well, which is the id of a node already there
    have hbehind : next ∈ visited ++ [id] → n ∈ ownNodes (flow npc d starts visited id) ∨ next ∈ visited := by
      intro hmem
      rcases List.mem_append.1 hmem with hmem | hmem
      · exact .inr hmem
      · obtain rfl := List.mem_singleton.1 hmem
        obtain rfl := Option.some.inj (hx.symm.trans hn)
        rw [ownNodes_flow (by simpa using hv) hx]
        exact .inl List.mem_cons_self
    rw [ownNodes_flow (by simpa using hv) hx] at hm hbehind ⊢
    rcases List.mem_cons.1 hm with rfl | hm
    · simp only [hl, hf] at hbehind ⊢
      by_cases hnext : next ∈ visited ++ [id]
      · exact hbehind hnext
      · rw [ownNodes_flow hnext hn]
        exact .inl (List.mem_cons_of_mem _ List.mem_cons_self)
    · cases hnext : x.content.next? with
      | none => simp [hnext] at hm
      | some y =>
        cases hfy : functionAt starts y with
        | some f => simp [hnext, hfy] at hm
        | none =>
          simp only [hnext, hfy] at hm hbehind ⊢
          rcases ih y hm with hin | hin
          · exact .inl (List.mem_cons_of_mem _ hin)
          · exact hbehind hin

end Flow

/-! ## 2. Functions of any dialog -/

section Functions

variable {npc : GameObject} {d : Dialog} {n : DialogNode}

theorem mem_plannedNodes :
    n ∈ plannedNodes npc d ↔ ∃ s ∈ d.startNodes, n ∈ ownNodes (functionSteps npc d s) := by
  have hnodes : plannedNodes npc d = ((planDialog npc d).map (·.steps)).flatMap ownNodes := by
    rw [List.flatMap_map]
    rfl
  rw [hnodes, map_steps_planDialog npc d, List.flatMap_map, List.mem_flatMap]

/-- **Steps are of last nodes only.** -/
theorem target?_of_mem_plannedNodes (h : n ∈ plannedNodes npc d) : d.target? n.id = some n := by
  obtain ⟨s, -, hn⟩ := mem_plannedNodes.1 h
  have hlast : ∀ {id : String} {x : DialogNode}, d.target? id = some x → d.target? x.id = some x := by
    intro id x hx
    rw [(Dialog.mem_of_target? hx).2, hx]
  exact forall_ownNodes_flow (P := fun x => d.target? x.id = some x)
    (fun _ _ _ _ _ hx => hlast hx) (fun _ hx => hlast hx) n hn

/-- The walk comes to last nodes only, but for where it begins. -/
theorem target?_of_mem_discoveryOrder (h : n ∈ d.discoveryOrder) :
    d.nodes.head? = some n ∨ d.target? n.id = some n := by
  unfold Dialog.discoveryOrder at h
  cases hd : d.nodes with
  | nil => simp [hd] at h
  | cons root others =>
    simp only [hd, List.mem_cons] at h
    rcases h with rfl | h
    · exact .inl rfl
    · obtain ⟨id, -, hid⟩ := List.mem_filterMap.1 h
      rw [(Dialog.mem_of_target? hid).2]
      exact .inr hid

theorem functionAt_eq_none_iff {starts : List FunctionStart} {id : String} :
    functionAt starts id = none ↔ id ∉ starts.map (·.nodeId) := by
  unfold functionAt
  rw [Option.map_eq_none_iff, List.find?_eq_none]
  simp

/-- The function of an id begins at the last node with it. -/
theorem exists_function_of_functionAt {id name : String}
    (h : functionAt (functionStarts npc d) id = some name) :
    ∃ f ∈ planDialog npc d, f.name = name ∧ f.firstNode? = d.target? id := by
  obtain ⟨s, hs, hname⟩ := Option.map_eq_some_iff.1 h
  have hid : s.nodeId = id := by simpa using List.find?_some hs
  refine ⟨⟨s.name, s.preview, flow npc d (functionStarts npc d) [] s.nodeId⟩,
    List.mem_map_of_mem (List.mem_of_find?_eq_some hs), hname, ?_⟩
  rw [← hid]
  exact head?_flow _ _

/-- The first function begins at the last node with the first node's id. -/
theorem firstNode?_head?_planDialog (npc : GameObject) (d : Dialog) :
    (planDialog npc d).head?.bind (·.firstNode?) = d.nodes.head?.bind fun n => d.target? n.id := by
  unfold planDialog functionStarts dialogStarts
  cases d.nodes with
  | nil => rfl
  | cons root others => exact head?_flow _ _

/-- **What ids mean to the functions of a dialog**: the first node with an id where the walk begins, and the
    last everywhere else. -/
structure Dialog.ReadsLast (d : Dialog) (npc : GameObject) : Prop where
  entry : (planDialog npc d).head?.bind (·.firstNode?) = d.nodes.head?.bind fun n => d.target? n.id
  walked : ∀ n ∈ d.discoveryOrder, d.nodes.head? = some n ∨ d.target? n.id = some n
  emitted : ∀ n ∈ plannedNodes npc d, d.target? n.id = some n
  started : ∀ id name, functionAt (functionStarts npc d) id = some name →
    ∃ f ∈ planDialog npc d, f.name = name ∧ f.firstNode? = d.target? id

end Functions

/-! ## 3. First nodes -/

namespace Dialog

variable {d : Dialog} {n : DialogNode}

theorem isSome_target?_iff (d : Dialog) (id : String) : (d.target? id).isSome ↔ (d.node? id).isSome := by
  unfold target? node?
  rw [List.find?_isSome, List.find?_isSome]
  simp

/-- A reachable node is the first with its id. -/
theorem Reachable.node?_id (h : d.Reachable n) : d.node? n.id = some n := by
  cases h with
  | first hf =>
    obtain ⟨others, hd⟩ := List.head?_eq_some_iff.1 hf
    unfold node?
    rw [hd, List.find?_cons_of_pos (by simp)]
  | @link m _ id _ _ hn =>
    have hid : n.id = id := by simpa using List.find?_some hn
    rw [hid]
    exact hn

/-- Every reachable node is the last with its id. -/
def LastOfReachable (d : Dialog) : Prop := ∀ n, d.Reachable n → d.target? n.id = some n

/-- From a reachable node links lead to reachable nodes, even if they are taken to last nodes. -/
theorem LastOfReachable.link (h : d.LastOfReachable) {m : DialogNode} {id : String} (hm : d.Reachable m)
    (hl : id ∈ m.successors) (hn : d.target? id = some n) : d.Reachable n := by
  obtain ⟨x, hx⟩ := Option.isSome_iff_exists.1 ((d.isSome_target?_iff id).1 (by rw [hn]; rfl))
  have hid : x.id = id := by simpa using List.find?_some hx
  have hreach : d.Reachable x := .link hm hl hx
  have hlast := h x hreach
  rw [hid, hn] at hlast
  exact (Option.some.inj hlast) ▸ hreach

/-- Then the walk goes through the reachable nodes. -/
theorem LastOfReachable.mem_discoveryOrder (h : d.LastOfReachable) :
    n ∈ d.discoveryOrder ↔ d.Reachable n := by
  unfold discoveryOrder
  cases hd : d.nodes with
  | nil =>
    refine ⟨fun hn => by simp at hn, fun hn => ?_⟩
    have hmem := hn.mem
    simp [hd] at hmem
  | cons root others =>
    have hroot : d.Reachable root := .first (by simp [hd])
    constructor
    · intro hn
      rcases List.mem_cons.1 hn with rfl | hn
      · exact hroot
      · -- what the walk comes upon is linked to from what it has gone through
        have hwalk : ∀ (queue : List DialogNode) (visited : List String), (∀ m ∈ queue, d.Reachable m) →
            ∀ m ∈ d.targets (d.discovered queue visited), d.Reachable m := by
          intro queue visited hqueue
          fun_induction d.discover queue visited with
          | case1 visited => simp [discovered, discover, targets]
          | case2 m queue visited found ih =>
            have hfound : ∀ x ∈ d.targets found, d.Reachable x := by
              intro x hx
              obtain ⟨id, hid, hx⟩ := List.mem_filterMap.1 hx
              exact h.link (hqueue m List.mem_cons_self) (mem_fresh.1 hid).1 hx
            rw [discovered_cons, targets_append]
            intro x hx
            rcases List.mem_append.1 hx with hx | hx
            · exact hfound x hx
            · refine ih (fun y hy => ?_) x hx
              rcases List.mem_append.1 hy with hy | hy
              · exact hqueue y (List.mem_cons_of_mem _ hy)
              · exact hfound y hy
        exact hwalk [root] [root.id] (by simpa using hroot) n hn
    · intro hn
      induction hn with
      | first hf =>
        rw [hd, List.head?_cons, Option.some.injEq] at hf
        exact hf ▸ List.mem_cons_self
      | @link m x id hm hl hx ih =>
        have hreach : d.Reachable x := .link hm hl hx
        have hid : x.id = id := by simpa using List.find?_some hx
        by_cases hr : id = root.id
        · have hfirst := hroot.node?_id
          rw [← hr, hx] at hfirst
          exact (Option.some.inj hfirst) ▸ List.mem_cons_self
        · have hlast := h x hreach
          rw [hid] at hlast
          refine List.mem_cons_of_mem _ (List.mem_filterMap.2 ⟨id, ?_, hlast⟩)
          rw [discovered_eq_fresh, mem_fresh]
          exact ⟨List.mem_flatMap.2 ⟨m, ih, hl⟩, by rw [hlast]; rfl, by simpa using hr⟩

theorem LastOfReachable.reachable_start (h : d.LastOfReachable) (hn : n ∈ d.startNodes) : d.Reachable n :=
  h.mem_discoveryOrder.1 (d.startNodes_sublist.subset hn)

theorem first_mem_startNodes (hf : d.nodes.head? = some n) : n ∈ d.startNodes := by
  obtain ⟨others, hd⟩ := List.head?_eq_some_iff.1 hf
  unfold startNodes discoveryOrder
  rw [hd]
  exact List.mem_cons_self

/-- A reachable node that no function starts at has one link into it, and no option. -/
theorem LastOfReachable.isShared_eq_false (h : d.LastOfReachable) (hn : d.Reachable n)
    (hs : n ∉ d.startNodes) : d.isShared n.id = false := by
  have hmem := h.mem_discoveryOrder.2 hn
  unfold startNodes at hs
  cases ho : d.discoveryOrder with
  | nil => simp [ho] at hmem
  | cons root others =>
    rw [ho] at hmem hs
    have hne : n ≠ root := fun he => hs (he ▸ List.mem_cons_self)
    have hin : n ∈ others := (List.mem_cons.1 hmem).resolve_left hne
    refine Bool.eq_false_iff.2 fun hshared => hs ?_
    exact List.mem_cons_of_mem _ (List.mem_filter.2 ⟨hin, hshared⟩)

/-- Then no function starts at the id of another node. -/
theorem LastOfReachable.functionAt_eq_none (h : d.LastOfReachable) (npc : GameObject) (hn : d.Reachable n)
    (hs : n ∉ d.startNodes) : functionAt (functionStarts npc d) n.id = none := by
  rw [functionAt_eq_none_iff, map_nodeId_functionStarts npc]
  intro hid
  obtain ⟨m, hm, he⟩ := List.mem_map.1 hid
  have hlast := h m (h.reachable_start hm)
  rw [he, h n hn] at hlast
  exact hs (Option.some.inj hlast ▸ hm)

/-- Then the steps are those of the reachable nodes. -/
theorem LastOfReachable.mem_plannedNodes (h : d.LastOfReachable) (npc : GameObject) :
    n ∈ plannedNodes npc d ↔ d.Reachable n := by
  rw [RecordExport.mem_plannedNodes]
  constructor
  · rintro ⟨s, hs, hn⟩
    refine forall_ownNodes_flow (P := d.Reachable) (fun m id x hm hl hx => h.link hm hl hx) ?_ n hn
    intro x hx
    have hreach := h.reachable_start hs
    rw [h s hreach] at hx
    exact Option.some.inj hx ▸ hreach
  · intro hn
    have hstarts : ∀ {x : DialogNode}, d.Reachable x → x ∈ d.startNodes →
        ∃ s ∈ d.startNodes, x ∈ ownNodes (functionSteps npc d s) := by
      intro x hx hs
      refine ⟨x, hs, ?_⟩
      rw [functionSteps, ownNodes_flow List.not_mem_nil (h x hx)]
      exact List.mem_cons_self
    induction hn with
    | first hf => exact hstarts (.first hf) (first_mem_startNodes hf)
    | @link m x id hm hl hx ih =>
      have hreach : d.Reachable x := .link hm hl hx
      by_cases hs : x ∈ d.startNodes
      · exact hstarts hreach hs
      · obtain rfl : x.id = id := by simpa using List.find?_some hx
        have hshared := h.isShared_eq_false hreach hs
        have hnext := DialogNode.next?_of_mem_successors (isChoice_of_link hshared hm.mem hl) hl
        obtain ⟨s, hstart, hin⟩ := ih
        refine ⟨s, hstart, ?_⟩
        exact (mem_ownNodes_flow hin hnext (h.functionAt_eq_none npc hreach hs) (h x hreach)).resolve_right
          List.not_mem_nil

/-! ## 4. One reading -/

/-- **Every part of a dialog takes an id for the same node**, the first with it: the first function begins at
    the first node, the walk that finds the functions goes through the nodes reachable from there, these are
    the nodes whose steps there are, and the function of an id begins at the id's node. -/
structure ReadsFirst (d : Dialog) (npc : GameObject) : Prop where
  entry : (planDialog npc d).head?.bind (·.firstNode?) = d.nodes.head?
  walked : ∀ n, n ∈ d.discoveryOrder ↔ d.Reachable n
  emitted : ∀ n, n ∈ plannedNodes npc d ↔ d.Reachable n
  started : ∀ id name, functionAt (functionStarts npc d) id = some name →
    ∃ f ∈ planDialog npc d, f.name = name ∧ f.firstNode? = d.node? id

theorem LastOfReachable.readsFirst (h : d.LastOfReachable) (npc : GameObject) : d.ReadsFirst npc where
  entry := by
    rw [firstNode?_head?_planDialog]
    cases hf : d.nodes.head? with
    | none => rfl
    | some root => exact h root (.first hf)
  walked _ := h.mem_discoveryOrder
  emitted _ := h.mem_plannedNodes npc
  started := by
    intro id name hname
    obtain ⟨f, hf, hfn, hfirst⟩ := exists_function_of_functionAt hname
    refine ⟨f, hf, hfn, ?_⟩
    have hid : id ∈ (functionStarts npc d).map (·.nodeId) := by
      by_contra hno
      rw [functionAt_eq_none_iff.2 hno] at hname
      cases hname
    rw [map_nodeId_functionStarts npc] at hid
    obtain ⟨n, hn, rfl⟩ := List.mem_map.1 hid
    have hreach := h.reachable_start hn
    rw [hfirst, h n hreach, hreach.node?_id]

end Dialog

/-- **Functions are read by last nodes**, of every dialog, and all of it is one reading by first nodes just if
    every reachable node is the last with its id. -/
theorem readsLast_planDialog (npc : GameObject) (d : Dialog) :
    d.ReadsLast npc ∧ (d.ReadsFirst npc ↔ ∀ n, d.Reachable n → d.target? n.id = some n) := by
  refine ⟨⟨firstNode?_head?_planDialog npc d, fun _ => target?_of_mem_discoveryOrder,
    fun _ => target?_of_mem_plannedNodes, fun _ _ => exists_function_of_functionAt⟩, ?_, ?_⟩
  · intro h n hn
    exact target?_of_mem_plannedNodes ((h.emitted n).2 hn)
  · intro h
    exact Dialog.LastOfReachable.readsFirst h npc

/-- The walk goes along the links of the first node "hello", so there is a function for "goods", but the
    steps are those of the second, which says goodbye. -/
example :
    let d : Dialog := ⟨"d", "guide", [⟨"hello", .npcText "Hello." (some "offer")⟩,
      ⟨"offer", .choice [⟨"buy", "Buy", some "goods"⟩]⟩, ⟨"goods", .npcText "Here." none⟩,
      ⟨"hello", .npcText "Goodbye." none⟩]⟩
    (planDialog guide d).map (fun f => (ownNodes f.steps).map (·.content)) =
      [[.npcText "Goodbye." none], [.npcText "Here." none]] := by
  decide +kernel

end RecordExport

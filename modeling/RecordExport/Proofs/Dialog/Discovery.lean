import Mathlib.Data.List.Nodup
import RecordExport.Record.DialogPlan
/-!
# The order a dialog is discovered in

A node is REACHABLE if links lead to it from the first node. `Dialog.discover` goes through the
reachable nodes breadth first; this file says what comes out of that walk without a queue:

* `BreadthFirst` describes the order by itself: every reachable node once, the first node in front,
  and the others by the first link that leads to them, when the links are read off the nodes in that
  same order;
* `breadthFirst_discoveryOrder`: the walk finds the nodes in this order.

All of it is for dialogs whose nodes have ids of their own, so an id names one node
(`node?_eq_some`) and both ways to look it up agree (`target?_eq_node?`).
-/

namespace RecordExport

/-- Where no two entries share a key, the first entry with a key is the only one. -/
theorem find?_key_eq_some {α κ : Type} [DecidableEq κ] {key : α → κ} {l : List α}
    (h : (l.map key).Nodup) {k : κ} {a : α} :
    l.find? (fun x => key x = k) = some a ↔ a ∈ l ∧ key a = k := by
  constructor
  · intro hf
    exact ⟨List.mem_of_find?_eq_some hf, by simpa using List.find?_some hf⟩
  · rintro ⟨ha, rfl⟩
    cases hf : l.find? (fun x => decide (key x = key a)) with
    | none => exact absurd (List.find?_eq_none.1 hf a ha) (by simp)
    | some b =>
      have hb : key b = key a := by simpa using List.find?_some hf
      rw [List.inj_on_of_nodup_map h (List.mem_of_find?_eq_some hf) ha hb]

namespace Dialog

/-! ## 1. Nodes by their ids -/

/-- No two nodes have the same id. -/
def DistinctIds (d : Dialog) : Prop := (d.nodes.map (·.id)).Nodup

theorem eq_of_id_eq {d : Dialog} (h : d.DistinctIds) {m n : DialogNode} (hm : m ∈ d.nodes)
    (hn : n ∈ d.nodes) (he : m.id = n.id) : m = n :=
  List.inj_on_of_nodup_map h hm hn he

theorem node?_eq_some {d : Dialog} (h : d.DistinctIds) {id : String} {n : DialogNode} :
    d.node? id = some n ↔ n ∈ d.nodes ∧ n.id = id :=
  find?_key_eq_some h

/-- **The last node with an id is the first one.** -/
theorem target?_eq_node? {d : Dialog} (h : d.DistinctIds) : d.target? = d.node? := by
  funext id
  let back : Dialog := ⟨d.id, d.objectId, d.nodes.reverse⟩
  have hb : back.DistinctIds := by
    show (d.nodes.reverse.map (·.id)).Nodup
    rw [List.map_reverse]
    exact List.nodup_reverse.2 h
  refine Option.ext fun n => ?_
  show back.node? id = some n ↔ d.node? id = some n
  rw [node?_eq_some hb, node?_eq_some h, List.mem_reverse]

theorem mem_of_target? {d : Dialog} {id : String} {n : DialogNode} (hn : d.target? id = some n) :
    n ∈ d.nodes ∧ n.id = id := by
  have hm := List.mem_of_find?_eq_some hn
  have hid := List.find?_some hn
  exact ⟨List.mem_reverse.1 hm, by simpa using hid⟩

theorem target?_id {d : Dialog} (h : d.DistinctIds) {n : DialogNode} (hn : n ∈ d.nodes) :
    d.target? n.id = some n := by
  rw [target?_eq_node? h]
  exact (node?_eq_some h).2 ⟨hn, rfl⟩

/-! ## 2. Reachable nodes -/

/-- A node that links lead to from the first node. -/
inductive Reachable (d : Dialog) : DialogNode → Prop where
  | first {n : DialogNode} (h : d.nodes.head? = some n) : Reachable d n
  | link {m n : DialogNode} {id : String} (hm : Reachable d m) (hl : id ∈ m.successors)
      (hn : d.node? id = some n) : Reachable d n

theorem Reachable.mem {d : Dialog} {n : DialogNode} (h : d.Reachable n) : n ∈ d.nodes := by
  cases h with
  | first h => exact List.mem_of_head? h
  | link _ _ hn => exact List.mem_of_find?_eq_some hn

/-! ## 3. Ids met for the first time -/

theorem fresh_append (d : Dialog) (visited xs ys : List String) :
    d.fresh visited (xs ++ ys) =
      d.fresh visited xs ++ d.fresh (visited ++ d.fresh visited xs) ys := by
  induction xs generalizing visited with
  | nil => simp [fresh]
  | cons x xs ih =>
    simp only [List.cons_append, fresh]
    split
    · rw [ih]
      simp
    · exact ih visited

theorem mem_fresh {d : Dialog} {visited xs : List String} {id : String} :
    id ∈ d.fresh visited xs ↔ id ∈ xs ∧ (d.target? id).isSome ∧ id ∉ visited := by
  induction xs generalizing visited with
  | nil => simp [fresh]
  | cons x xs ih =>
    unfold fresh
    split
    · rename_i hx
      simp only [Bool.and_eq_true, Bool.not_eq_true', List.contains_eq_mem,
        decide_eq_false_iff_not] at hx
      rw [List.mem_cons, ih, List.mem_cons, List.mem_append, List.mem_singleton]
      by_cases he : id = x
      · subst he
        simp [hx]
      · simp [he]
    · rename_i hx
      simp only [Bool.and_eq_true, Bool.not_eq_true', List.contains_eq_mem,
        decide_eq_false_iff_not, not_and, not_not] at hx
      rw [ih, List.mem_cons]
      constructor
      · rintro ⟨h1, h2⟩
        exact ⟨.inr h1, h2⟩
      · rintro ⟨rfl | h1, h2, h3⟩
        · exact absurd (hx h2) h3
        · exact ⟨h1, h2, h3⟩

/-- Fresh ids come in the order they are first met in. -/
theorem sorted_fresh (d : Dialog) (visited xs : List String) :
    (d.fresh visited xs).Pairwise fun a b => xs.idxOf a < xs.idxOf b := by
  induction xs generalizing visited with
  | nil => simp [fresh]
  | cons x xs ih =>
    have later : ∀ v : List String, x ∈ v → (d.fresh v xs).Pairwise
        fun a b => (x :: xs).idxOf a < (x :: xs).idxOf b := by
      intro v hv
      refine (ih v).imp_of_mem ?_
      intro a b ha hb hab
      have hxa : x ≠ a := fun e => (mem_fresh.1 ha).2.2 (e ▸ hv)
      have hxb : x ≠ b := fun e => (mem_fresh.1 hb).2.2 (e ▸ hv)
      rw [List.idxOf_cons_ne _ hxa, List.idxOf_cons_ne _ hxb]
      exact Nat.succ_lt_succ hab
    unfold fresh
    split
    · refine List.pairwise_cons.2 ⟨?_, later _ (by simp)⟩
      intro b hb
      have hxb : x ≠ b := fun e => (mem_fresh.1 hb).2.2 (by simp [e])
      rw [List.idxOf_cons_self, List.idxOf_cons_ne _ hxb]
      exact Nat.succ_pos _
    · rename_i hx
      by_cases hv : x ∈ visited
      · exact later visited hv
      · -- the id leads nowhere, so it is not among the fresh ones either
        refine (ih visited).imp_of_mem ?_
        intro a b ha hb hab
        have hno : ∀ {c : String}, c ∈ d.fresh visited xs → x ≠ c := by
          rintro c hc rfl
          have := (mem_fresh.1 hc).2
          simp [this] at hx
        rw [List.idxOf_cons_ne _ (hno ha), List.idxOf_cons_ne _ (hno hb)]
        exact Nat.succ_lt_succ hab

theorem nodup_fresh (d : Dialog) (visited xs : List String) : (d.fresh visited xs).Nodup :=
  (d.sorted_fresh visited xs).imp fun hab he => absurd hab (by simp [he])

/-! ## 4. The walk -/

theorem targets_append (d : Dialog) (xs ys : List String) :
    d.targets (xs ++ ys) = d.targets xs ++ d.targets ys := List.filterMap_append

/-- The ids that a walk comes upon. -/
def discovered (d : Dialog) (queue : List DialogNode) (visited : List String) : List String :=
  (d.discover queue visited).map (·.2)

theorem discovered_cons (d : Dialog) (n : DialogNode) (queue : List DialogNode)
    (visited : List String) :
    d.discovered (n :: queue) visited = d.fresh visited n.successors ++
      d.discovered (queue ++ d.targets (d.fresh visited n.successors))
        (visited ++ d.fresh visited n.successors) := by
  unfold discovered
  rw [discover]
  simp [Function.comp_def]

/-- **What a walk comes upon are the fresh ids among the links of all nodes it goes through**: those
    in the queue, and then those it has come upon. -/
theorem discovered_eq_fresh (d : Dialog) (queue : List DialogNode) (visited : List String) :
    d.discovered queue visited = d.fresh visited
      ((queue ++ d.targets (d.discovered queue visited)).flatMap (·.successors)) := by
  fun_induction d.discover queue visited with
  | case1 visited => simp [discovered, discover, targets, fresh]
  | case2 n queue visited found ih =>
    rw [discovered_cons]
    conv => lhs; rw [ih]
    rw [targets_append, List.cons_append, List.flatMap_cons, fresh_append, List.append_assoc]

/-- A walk from reachable nodes comes upon reachable nodes only. -/
theorem reachable_of_mem_discovered {d : Dialog} (h : d.DistinctIds) {queue : List DialogNode}
    {visited : List String} (hq : ∀ n ∈ queue, d.Reachable n) {n : DialogNode}
    (hn : n ∈ d.targets (d.discovered queue visited)) : d.Reachable n := by
  fun_induction d.discover queue visited with
  | case1 visited => simp [discovered, discover, targets] at hn
  | case2 m queue visited found ih =>
    have hfound : ∀ x ∈ d.targets found, d.Reachable x := by
      intro x hx
      obtain ⟨id, hid, hx⟩ := List.mem_filterMap.1 hx
      rw [target?_eq_node? h] at hx
      exact .link (hq m List.mem_cons_self) (mem_fresh.1 hid).1 hx
    rw [discovered_cons, targets_append, List.mem_append] at hn
    rcases hn with hn | hn
    · exact hfound n hn
    · refine ih ?_ hn
      intro x hx
      rcases List.mem_append.1 hx with hx | hx
      · exact hq x (List.mem_cons_of_mem _ hx)
      · exact hfound x hx

/-! ## 5. The order -/

/-- The nodes in the order they are discovered in. -/
def discoveryOrder (d : Dialog) : List DialogNode :=
  match d.nodes with
  | [] => []
  | root :: _ => root :: d.targets (d.discovered [root] [root.id])

/-- **A list of nodes is in breadth-first order**: the first node comes first, each reachable node
    comes once, and the first link to a node stands before the first link to any node behind it. -/
structure BreadthFirst (d : Dialog) (order : List DialogNode) : Prop where
  first : order.head? = d.nodes.head?
  mem_iff : ∀ n, n ∈ order ↔ d.Reachable n
  nodup : order.Nodup
  sorted : order.tail.Pairwise fun m n =>
    (order.flatMap (·.successors)).idxOf m.id < (order.flatMap (·.successors)).idxOf n.id

/-- The nodes of ids that lead somewhere have these ids. -/
theorem map_id_targets {d : Dialog} {ids : List String}
    (hs : ∀ id ∈ ids, (d.target? id).isSome) : (d.targets ids).map (·.id) = ids := by
  induction ids with
  | nil => rfl
  | cons id ids ih =>
    obtain ⟨n, hn⟩ := Option.isSome_iff_exists.1 (hs id List.mem_cons_self)
    have ht : d.targets (id :: ids) = n :: d.targets ids := by
      unfold targets
      rw [List.filterMap_cons_some hn]
    rw [ht, List.map_cons, (mem_of_target? hn).2,
      ih fun x hx => hs x (List.mem_cons_of_mem _ hx)]

section Order

variable {d : Dialog}

/-- The walk from the first node comes upon other ids that lead somewhere, each once. -/
theorem map_id_targets_discovered (queue : List DialogNode) (visited : List String) :
    (d.targets (d.discovered queue visited)).map (·.id) = d.discovered queue visited := by
  refine map_id_targets ?_
  intro id hid
  rw [discovered_eq_fresh] at hid
  exact (mem_fresh.1 hid).2.1

theorem mem_discoveryOrder_of_link (h : d.DistinctIds) {m n : DialogNode}
    (hm : m ∈ d.discoveryOrder) (hl : n.id ∈ m.successors) (hn : n ∈ d.nodes) :
    n ∈ d.discoveryOrder := by
  unfold discoveryOrder at hm ⊢
  cases hd : d.nodes with
  | nil => simp [hd] at hm
  | cons root others =>
    simp only [hd] at hm ⊢
    by_cases hr : n.id = root.id
    · have hroot : root ∈ d.nodes := by simp [hd]
      rw [eq_of_id_eq h hn hroot hr]
      exact List.mem_cons_self
    · have hid : n.id ∈ d.discovered [root] [root.id] := by
        rw [discovered_eq_fresh, mem_fresh]
        refine ⟨List.mem_flatMap.2 ⟨m, hm, hl⟩, ?_, by simpa using hr⟩
        simp [target?_id h hn]
      exact List.mem_cons_of_mem _ (List.mem_filterMap.2 ⟨n.id, hid, target?_id h hn⟩)

theorem mem_discoveryOrder (h : d.DistinctIds) {n : DialogNode} :
    n ∈ d.discoveryOrder ↔ d.Reachable n := by
  constructor
  · intro hn
    unfold discoveryOrder at hn
    cases hd : d.nodes with
    | nil => simp [hd] at hn
    | cons root others =>
      have hroot : d.Reachable root := .first (by simp [hd])
      simp only [hd, List.mem_cons] at hn
      rcases hn with rfl | hn
      · exact hroot
      · exact reachable_of_mem_discovered h (by simpa using hroot) hn
  · intro hn
    induction hn with
    | first hf =>
      unfold discoveryOrder
      cases hd : d.nodes with
      | nil => simp [hd] at hf
      | cons root others =>
        simp only [hd, List.head?_cons, Option.some.injEq] at hf
        simp [hf]
    | link _ hl hn ih =>
      obtain ⟨hmem, hid⟩ := (node?_eq_some h).1 hn
      exact mem_discoveryOrder_of_link h ih (hid ▸ hl) hmem

theorem nodup_discoveryOrder (d : Dialog) : d.discoveryOrder.Nodup := by
  unfold discoveryOrder
  split
  · exact List.nodup_nil
  · rename_i root others hd
    refine List.Nodup.of_map (·.id) ?_
    rw [List.map_cons, map_id_targets_discovered, discovered_eq_fresh]
    refine List.nodup_cons.2 ⟨fun hr => ?_, d.nodup_fresh _ _⟩
    exact (mem_fresh.1 hr).2.2 (by simp)

/-- **The walk discovers the nodes in breadth-first order.** -/
theorem breadthFirst_discoveryOrder (h : d.DistinctIds) : d.BreadthFirst d.discoveryOrder where
  first := by
    unfold discoveryOrder
    split <;> simp [*]
  mem_iff _ := mem_discoveryOrder h
  nodup := nodup_discoveryOrder d
  sorted := by
    unfold discoveryOrder
    split
    · exact List.Pairwise.nil
    · rename_i root others hd
      -- fresh ids stand in the order of the links they were found by, and so do their nodes
      have hs := d.sorted_fresh [root.id]
        (([root] ++ d.targets (d.discovered [root] [root.id])).flatMap (·.successors))
      rw [← discovered_eq_fresh] at hs
      have hids : _ = d.discovered [root] [root.id] := map_id_targets_discovered [root] [root.id]
      generalize hl : ([root] ++ d.targets (d.discovered [root] [root.id])).flatMap
        (·.successors) = links at hs
      rw [← hids, List.pairwise_map] at hs
      subst hl
      exact hs

end Order

end Dialog
end RecordExport

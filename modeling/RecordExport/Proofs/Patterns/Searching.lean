import RecordExport.Proofs.Patterns.Paths
/-!
# What a machine finds

A machine follows all its ways at once and enters a state once at each place of a name, so most ways end where
another one came before. That loses no match: what is found has gone one of the ways (`Machine.accepted_of_search`), and
something is found if any way at all leads to acceptance (`Machine.isSome_search`), since from a state that is
entered already the same can be reached by the thread that entered it.

For the machine of an expression, then, something is found just if the expression takes a part of the name
(`NameExpr.takes_of_search`, `NameExpr.isSome_search`).
-/

namespace RecordExport

namespace Machine

variable {m : Machine} {name : Text} {place : Nat} {point : NamePlace} {entered : Array Bool} {ths : List Thread}

/-! ## 1. What is found has gone a way -/

theorem journey_of_mem_settle {th' : Thread} (hpoint : point = .of name place)
    (h : th' ∈ m.settle point entered ths) : ∃ th ∈ ths, ∃ n, m.Journey name n (place, th) (place, th') := by
  fun_induction settle m point entered ths with
  | case1 => cases h
  | case2 entered th ths hfresh hnone ih =>
    obtain ⟨th₀, hmem, hjourney⟩ := ih h
    exact ⟨th₀, List.mem_cons_of_mem _ hmem, hjourney⟩
  | case3 entered th ths hfresh haccept =>
    obtain rfl := List.mem_singleton.1 h
    exact ⟨th', List.mem_cons_self, 0, .stay⟩
  | case4 entered th ths hfresh s hne hs hwaits ih =>
    rcases List.mem_cons.1 h with rfl | h
    · exact ⟨th', List.mem_cons_self, 0, .stay⟩
    · obtain ⟨th₀, hmem, hjourney⟩ := ih h
      exact ⟨th₀, List.mem_cons_of_mem _ hmem, hjourney⟩
  | case5 entered th ths hfresh s hne hs hwaits ih =>
    obtain ⟨th₀, hmem, n, hjourney⟩ := ih h
    rcases List.mem_append.1 hmem with hfollow | hmem
    · rw [hpoint] at hfollow
      exact ⟨th, List.mem_cons_self, n + 1, .go (.free hs hfollow) hjourney⟩
    · exact ⟨th₀, List.mem_cons_of_mem _ hmem, n, hjourney⟩
  | case6 entered th ths hentered ih =>
    obtain ⟨th₀, hmem, hjourney⟩ := ih h
    exact ⟨th₀, List.mem_cons_of_mem _ hmem, hjourney⟩

/-- A thread that a way from somewhere in the name has brought to a place. -/
def Brought (m : Machine) (name : Text) (place : Nat) (th : Thread) : Prop :=
  ∃ n p, p ≤ name.length ∧ m.Journey name n (p, Thread.start) (place, th)

theorem brought_begin {found : Option Thread} (hle : place ≤ name.length)
    (h : ∀ th ∈ ths, m.Brought name place th) :
    ∀ th ∈ if found.isSome then ths else ths ++ [Thread.start], m.Brought name place th := by
  intro th hth
  split at hth
  · exact h th hth
  · rcases List.mem_append.1 hth with hth | hth
    · exact h th hth
    · obtain rfl := List.mem_singleton.1 hth
      exact ⟨0, place, hle, .stay⟩

theorem brought_settle (hpoint : point = .of name place) (h : ∀ th ∈ ths, m.Brought name place th) :
    ∀ th ∈ m.settle point entered ths, m.Brought name place th := by
  intro th hth
  obtain ⟨th₀, hmem, k, hjourney⟩ := journey_of_mem_settle hpoint hth
  obtain ⟨n, p, hp, hbrought⟩ := h th₀ hmem
  exact ⟨n + k, p, hp, hbrought.trans hjourney⟩

/-- A thread that accepts where a way has brought it. -/
def Accepted (m : Machine) (name : Text) (th : Thread) : Prop := ∃ p, m.Brought name p th ∧ m.accepts th = true

theorem accepted_found {found : Option Thread} (h : ∀ th ∈ ths, m.Brought name place th)
    (hfound : ∀ th ∈ found, m.Accepted name th) :
    ∀ th ∈ (ths.find? m.accepts).or found, m.Accepted name th := by
  intro th hth
  rcases Option.or_eq_some_iff.1 hth with hth | ⟨-, hth⟩
  · exact ⟨place, h th (List.mem_of_find?_eq_some hth), List.find?_some hth⟩
  · exact hfound th hth

theorem getElem?_of_drop {c : Char} {t : Text} (h : name.drop place = c :: t) :
    place < name.length ∧ name[place]? = some c ∧ name.drop (place + 1) = t := by
  have hlength := congrArg List.length h
  rw [List.length_drop, List.length_cons] at hlength
  refine ⟨by omega, ?_, ?_⟩
  · rw [← List.head?_drop, h]
    rfl
  · rw [← List.drop_drop, h]
    rfl

/-- The place that a search comes to with the rest of a name in hand. -/
theorem point_eq {before : Option Char} {t : Text} (hbefore : (name.take place).getLast? = before)
    (h : name.drop place = t) : ⟨place, before, t.head?⟩ = NamePlace.of name place := by
  rw [← hbefore, ← h]
  rfl

/-- The character that a search goes on with is behind it then. -/
theorem getLast?_take {c : Char} (h : name[place]? = some c) : (name.take (place + 1)).getLast? = some c := by
  rw [List.take_add_one, h]
  simp

/-- **What is found has gone a way from somewhere in the name to acceptance.** -/
theorem accepted_of_search {before : Option Char} {found : Option Thread} {t : Text} {th : Thread}
    (hbefore : (name.take place).getLast? = before) (hplace : name.drop place = t) (hle : place ≤ name.length)
    (hths : ∀ th ∈ ths, m.Brought name place th)
    (hfound : ∀ th ∈ found, m.Accepted name th) (h : m.search place before found ths t = some th) :
    m.Accepted name th := by
  induction t generalizing place before found ths with
  | nil =>
    exact accepted_found (brought_settle (point_eq hbefore hplace) (brought_begin hle hths)) hfound th h
  | cons c t ih =>
    obtain ⟨hlt, hchar, hrest⟩ := getElem?_of_drop hplace
    have hbegun : ∀ th ∈ if found.isSome then ths else ths ++ [Thread.start], m.Brought name place th :=
      brought_begin hle hths
    have hsettled : ∀ th ∈ m.settle _ m.untouched _, m.Brought name place th :=
      brought_settle (point_eq hbefore hplace) hbegun
    refine ih (getLast?_take hchar) hrest hlt (fun th' hth' => ?_) (accepted_found hsettled hfound) h
    obtain ⟨th₀, hmem, htake⟩ := List.mem_filterMap.1 hth'
    obtain ⟨n, p, hp, hjourney⟩ := hsettled th₀ hmem
    exact ⟨n + 1, p, hp, hjourney.trans (.go (.takes hchar htake) .stay)⟩

/-! ## 2. Every way is found, or another -/

/-- States that lead to a state without a character, none of them entered. -/
inductive Leads (m : Machine) (point : NamePlace) (entered : Array Bool) : Nat → Nat → Prop
  | here {s : Nat} (fresh : entered[s]? = some false) : Leads m point entered s s
  | on {s t q : Nat} {step : MachineStep} (fresh : entered[s]? = some false) (state : m.steps[s]? = some step)
      (leads : ∀ th : Thread, ∃ th' ∈ step.follow point th, th'.state = t)
      (rest : Leads m point entered t q) :
      Leads m point entered s q

theorem Leads.fresh {s q : Nat} (h : m.Leads point entered s q) : entered[s]? = some false := by
  cases h <;> assumption

/-- Once a state is entered, the others lead on around it, or from the last time they come to it. -/
theorem Leads.around {s q x : Nat} (h : m.Leads point entered s q) :
    m.Leads point (entered.setIfInBounds x true) s q ∨ x = q ∨
      ∃ step t, m.steps[x]? = some step ∧ (∀ th : Thread, ∃ th' ∈ step.follow point th, th'.state = t) ∧
        m.Leads point (entered.setIfInBounds x true) t q := by
  have hfresh : ∀ {s : Nat}, entered[s]? = some false → s ≠ x →
      (entered.setIfInBounds x true)[s]? = some false := fun h hne => by
    rw [Array.getElem?_setIfInBounds_ne hne.symm]
    exact h
  induction h with
  | @here s fresh =>
    by_cases hx : s = x
    · exact .inr (.inl hx.symm)
    · exact .inl (.here (hfresh fresh hx))
  | @on s t q step fresh state leads _ ih =>
    rcases ih with hrest | hlast
    · by_cases hx : s = x
      · subst hx
        exact .inr (.inr ⟨step, t, state, leads, hrest⟩)
      · exact .inl (.on (hfresh fresh hx) state leads hrest)
    · exact .inr hlast

/-- The state waits for a character or accepts. -/
def Stops (m : Machine) (q : Nat) : Prop := ∃ s, m.steps[q]? = some s ∧ (s.waits = true ∨ s = .accept)

/-- **Settling loses no state**: what can be reached is reached, unless something accepts. -/
theorem exists_mem_settle {th : Thread} {q : Nat} (hmem : th ∈ ths) (h : m.Leads point entered th.state q)
    (hq : m.Stops q) : ∃ th' ∈ m.settle point entered ths, m.accepts th' = true ∨ th'.state = q := by
  -- a thread that leads on around the state of another is not that one
  have hother : ∀ {entered : Array Bool} {th th₀ : Thread} {ths : List Thread}, th ∈ th₀ :: ths →
      m.Leads point (entered.setIfInBounds th₀.state true) th.state q → th ∈ ths := by
    intro entered th th₀ ths hmem hleads
    rcases List.mem_cons.1 hmem with rfl | hmem
    · have hfresh := hleads.fresh
      rw [Array.getElem?_setIfInBounds_self] at hfresh
      split at hfresh <;> cases hfresh
    · exact hmem
  fun_induction settle m point entered ths generalizing th with
  | case1 => cases hmem
  | case2 entered th₀ ths hfresh hnone ih =>
    rcases h.around (x := th₀.state) with haround | rfl | ⟨step, t, hstep, -⟩
    · exact ih (hother hmem haround) haround
    · obtain ⟨s, hs, -⟩ := hq
      exact nomatch hnone.symm.trans hs
    · exact nomatch hnone.symm.trans hstep
  | case3 entered th₀ ths hfresh haccept =>
    exact ⟨th₀, List.mem_singleton_self th₀, .inl (decide_eq_true haccept)⟩
  | case4 entered th₀ ths hfresh s hne hs hwaits ih =>
    rcases h.around (x := th₀.state) with haround | heq | ⟨step, t, hstep, hleads, -⟩
    · obtain ⟨th', hth', hdone⟩ := ih (hother hmem haround) haround
      exact ⟨th', List.mem_cons_of_mem _ hth', hdone⟩
    · exact ⟨th₀, List.mem_cons_self, .inr heq⟩
    · obtain rfl := Option.some.inj (hs.symm.trans hstep)
      obtain ⟨th', hth', -⟩ := hleads th₀
      cases s with
      | takes => cases hth'
      | _ => cases hwaits
  | case5 entered th₀ ths hfresh s hne hs hwaits ih =>
    rcases h.around (x := th₀.state) with haround | rfl | ⟨step, t, hstep, hleads, hrest⟩
    · exact ih (List.mem_append_right _ (hother hmem haround)) haround
    · obtain ⟨s', hs', hstops⟩ := hq
      obtain rfl := Option.some.inj (hs.symm.trans hs')
      exact hstops.elim (fun h => absurd h hwaits) fun h => absurd h hne
    · obtain rfl := Option.some.inj (hs.symm.trans hstep)
      obtain ⟨th', hth', rfl⟩ := hleads th₀
      exact ih (List.mem_append_left _ hth') hrest
  | case6 entered th₀ ths hentered ih =>
    rcases List.mem_cons.1 hmem with rfl | hmem
    · exact absurd h.fresh hentered
    · exact ih hmem h

/-- Where a state leads does not depend on what the thread remembers. -/
theorem exists_mem_follow {step : MachineStep} {th th' : Thread} (h : th' ∈ step.follow point th)
    (th₀ : Thread) : ∃ th₀' ∈ step.follow point th₀, th₀'.state = th'.state := by
  cases step with
  | takes => cases h
  | accept => cases h
  | pass next | opens i next | closes i next =>
    obtain rfl := List.mem_singleton.1 h
    exact ⟨_, List.mem_singleton_self _, rfl⟩
  | either first second =>
    rcases List.mem_pair.1 h with rfl | rfl
    · exact ⟨_, List.mem_cons_self, rfl⟩
    · exact ⟨_, List.mem_cons_of_mem _ List.mem_cons_self, rfl⟩
  | place t next =>
    obtain ⟨ht, rfl⟩ := mem_follow_place.1 h
    exact ⟨th₀.moved next, mem_follow_place.2 ⟨ht, rfl⟩, rfl⟩

theorem untouched_of_steps {s : Nat} {step : MachineStep} (h : m.steps[s]? = some step) :
    m.untouched[s]? = some false := by
  obtain ⟨hs, -⟩ := Array.getElem?_eq_some_iff.1 h
  unfold untouched
  rw [Array.getElem?_replicate, if_pos hs]

/-- From a state at a place some way leads to acceptance. -/
def CanAccept (m : Machine) (name : Text) (place state : Nat) : Prop :=
  ∃ n th b, th.state = state ∧ m.Journey name n (place, th) b ∧ m.accepts b.2 = true

/-- A way to acceptance leads, without a character, to a state that accepts or takes the next one. -/
theorem CanAccept.exists_leads {s : Nat} (h : m.CanAccept name place s) :
    ∃ q, m.Leads (.of name place) m.untouched s q ∧ m.Stops q ∧
      (m.steps[q]? = some .accept ∨ ∃ c set next, m.steps[q]? = some (.takes set next) ∧ name[place]? = some c ∧
        set.contains c = true ∧ m.CanAccept name (place + 1) next) := by
  obtain ⟨n, th, b, rfl, hjourney, haccept⟩ := h
  generalize ha : (place, th) = a at hjourney
  induction hjourney generalizing th with
  | stay =>
    subst ha
    have hsteps : m.steps[th.state]? = some .accept := of_decide_eq_true haccept
    exact ⟨th.state, .here (untouched_of_steps hsteps), ⟨_, hsteps, .inr rfl⟩, .inl hsteps⟩
  | @go n a mid b move rest ih =>
    subst ha
    cases move with
    | free state leads =>
      obtain ⟨q, hleads, hstops, hrest⟩ := ih _ haccept rfl
      exact ⟨q, .on (untouched_of_steps state) state (exists_mem_follow leads) hleads, hstops, hrest⟩
    | @takes _ _ th' c char taken =>
      unfold take at taken
      obtain ⟨step, hstep, htake⟩ := Option.bind_eq_some_iff.1 taken
      cases step with
      | takes set next =>
        unfold MachineStep.take at htake
        dsimp only at htake
        split at htake
        · rename_i hc
          obtain rfl := Option.some.inj htake
          exact ⟨th.state, .here (untouched_of_steps hstep), ⟨_, hstep, .inl rfl⟩,
            .inr ⟨c, set, next, hstep, char, hc, n, _, b, rfl, rest, haccept⟩⟩
        · cases htake
      | _ => cases htake

theorem isSome_search_of_found {place : Nat} {before : Option Char} {found : Option Thread} {ths : List Thread}
    {t : Text} (h : found.isSome = true) : (m.search place before found ths t).isSome = true := by
  induction t generalizing place before found ths with
  | nil =>
    unfold search
    rw [Option.isSome_or, h, Bool.or_true]
  | cons c t ih =>
    unfold search
    exact ih (by rw [Option.isSome_or, h, Bool.or_true])

/-- Settling keeps a way to acceptance: something accepts, or waits for the next character to get there. -/
theorem exists_settled {th : Thread} (hmem : th ∈ ths) (h : m.CanAccept name place th.state)
    (hpoint : point = .of name place) :
    ∃ th' ∈ m.settle point m.untouched ths, m.accepts th' = true ∨
      ∃ c th'', name[place]? = some c ∧ m.take c th' = some th'' ∧ m.CanAccept name (place + 1) th''.state := by
  obtain ⟨q, hleads, hstops, hgoal⟩ := h.exists_leads
  rw [← hpoint] at hleads
  obtain ⟨th', hth', hdone⟩ := exists_mem_settle hmem hleads hstops
  refine ⟨th', hth', ?_⟩
  rcases hdone with haccepts | rfl
  · exact .inl haccepts
  · rcases hgoal with haccept | ⟨c, set, next, hstep, hchar, hc, hnext⟩
    · exact .inl (decide_eq_true haccept)
    · refine .inr ⟨c, th'.moved next, hchar, ?_, hnext⟩
      unfold take
      rw [hstep]
      exact if_pos hc

theorem isSome_find {th : Thread} (hmem : th ∈ ths) (h : m.accepts th = true) (found : Option Thread) :
    ((ths.find? m.accepts).or found).isSome = true := by
  rw [Option.isSome_or, List.find?_isSome.2 ⟨th, hmem, h⟩, Bool.true_or]

/-- **If any way leads to acceptance, something is found.** -/
theorem isSome_search {before : Option Char} {found : Option Thread} {t : Text}
    (hbefore : (name.take place).getLast? = before) (hplace : name.drop place = t) (hle : place ≤ name.length)
    (h : (∃ th ∈ ths, m.CanAccept name place th.state) ∨
      ∃ p, place ≤ p ∧ p ≤ name.length ∧ m.CanAccept name p Thread.start.state) :
    (m.search place before found ths t).isSome = true := by
  induction t generalizing place before found ths with
  | nil =>
    cases found with
    | some th => exact isSome_search_of_found rfl
    | none =>
      have hlast : place = name.length := Nat.le_antisymm hle (List.drop_eq_nil_iff.1 hplace)
      have hhere : ∃ th ∈ ths ++ [Thread.start], m.CanAccept name place th.state := by
        rcases h with ⟨th, hth, haccept⟩ | ⟨p, hle', hp, haccept⟩
        · exact ⟨th, List.mem_append_left _ hth, haccept⟩
        · obtain rfl : p = place := by omega
          exact ⟨Thread.start, List.mem_append_right _ (List.mem_singleton_self _), haccept⟩
      obtain ⟨th, hth, haccept⟩ := hhere
      obtain ⟨th', hth', haccepts | ⟨c, -, hchar, -⟩⟩ :=
        exists_settled hth haccept (point_eq hbefore hplace)
      · exact isSome_find hth' haccepts none
      · rw [hlast, List.getElem?_eq_none (Nat.le_refl _)] at hchar
        cases hchar
  | cons c t ih =>
    cases found with
    | some th => exact isSome_search_of_found rfl
    | none =>
      obtain ⟨hlt, hchar, hrest⟩ := getElem?_of_drop hplace
      have hhere : (∃ th ∈ ths ++ [Thread.start], m.CanAccept name place th.state) ∨
          ∃ p, place + 1 ≤ p ∧ p ≤ name.length ∧ m.CanAccept name p Thread.start.state := by
        rcases h with ⟨th, hth, haccept⟩ | ⟨p, hle', hp, haccept⟩
        · exact .inl ⟨th, List.mem_append_left _ hth, haccept⟩
        · rcases Nat.eq_or_lt_of_le hle' with rfl | hlt
          · exact .inl ⟨Thread.start, List.mem_append_right _ (List.mem_singleton_self _), haccept⟩
          · exact .inr ⟨p, hlt, hp, haccept⟩
      unfold search
      rcases hhere with ⟨th, hth, haccept⟩ | hlater
      · obtain ⟨th', hth', haccepts | ⟨d, th'', hchar', htake, hnext⟩⟩ :=
          exists_settled hth haccept (point_eq hbefore hplace)
        · exact isSome_search_of_found (isSome_find hth' haccepts none)
        · obtain rfl := Option.some.inj (hchar.symm.trans hchar')
          exact ih (getLast?_take hchar) hrest hlt (.inl ⟨th'', List.mem_filterMap.2 ⟨th', hth', htake⟩, hnext⟩)
      · exact ih (getLast?_take hchar) hrest hlt (.inr hlater)

end Machine

/-! ## 3. The machine of an expression -/

namespace NameExpr

variable {e : NameExpr} {name : Text}

theorem hasAt_machine (e : NameExpr) :
    e.machine.HasAt (e.layout 0 e.size) 0 ∧ e.machine.steps[e.size]? = some .accept := by
  have hat : e.machine.HasAt (e.layout 0 e.size ++ [.accept]) 0 := fun k s hk => by
    rw [Nat.zero_add]
    unfold machine
    rw [List.getElem?_toArray]
    exact hk
  obtain ⟨hlayout, haccept⟩ := Machine.hasAt_append_iff.1 hat
  rw [length_layout, Nat.zero_add] at haccept
  exact ⟨hlayout, (Machine.hasAt_cons_iff.1 haccept).1⟩

theorem accept_not_mem_layout (e : NameExpr) (here next : Nat) : MachineStep.accept ∉ e.layout here next := by
  have hword : ∀ (cs : List Char) (here next : Nat), MachineStep.accept ∉ wordSteps cs here next := by
    intro cs
    induction cs with
    | nil => exact fun here next h => nomatch List.mem_singleton.1 h
    | cons c cs ih => exact fun here next => List.not_mem_cons_of_ne_of_not_mem nofun (ih _ _)
  have hfork : ∀ (greedy : Bool) (first second : Nat), MachineStep.accept ≠ .fork greedy first second := by
    intro greedy
    cases greedy <;> exact nofun
  induction e generalizing here next with
  | word cs => exact hword cs here next
  | oneOf | place => exact List.not_mem_cons_of_ne_of_not_mem nofun List.not_mem_nil
  | seq a b iha ihb => simp [layout, iha, ihb]
  | alt a b iha ihb => simp [layout, iha, ihb]
  | optional greedy a ih => simp [layout, hfork, ih]
  | many greedy a ih => simp [layout, hfork, ih]
  | anyMany greedy a ih => by_cases hsome : a.takesSome <;> simp [layout, hsome, hfork, ih]
  | whole a ih => exact ih here next
  | group i a ih => simp [layout, ih]

theorem eq_of_journey_of_accept {m : Machine} {n : Nat} {a b : Nat × Thread} (h : m.Journey name n a b)
    (ha : m.steps[a.2.state]? = some .accept) : a = b := by
  cases h with
  | stay => rfl
  | go move _ => exact nomatch ((Machine.moves_free_iff ha rfl).1 move).2

/-- **What the machine of an expression finds, the expression takes**, and its groups held what the thread
    remembers. -/
theorem takes_of_search {th : Thread} {hi : Nat} (hn : NestsIn 0 hi e)
    (h : e.machine.search 0 none none [] name = some th) :
    ∃ u x v hs, name = u ++ (x ++ v) ∧ Takes u e x v hs ∧ Holding name Thread.start th hs := by
  obtain ⟨hat, haccept⟩ := hasAt_machine e
  have haccepted : e.machine.Accepted name th := by
    refine Machine.accepted_of_search rfl rfl (Nat.zero_le name.length) ?_ ?_ h
    · exact fun _ h => nomatch h
    · exact fun _ h => nomatch h
  obtain ⟨p, ⟨n, q, hq, hjourney⟩, haccepts⟩ := haccepted
  have hsteps : e.machine.steps[th.state]? = some .accept := of_decide_eq_true haccepts
  have hout : ¬ (0 ≤ th.state ∧ th.state < 0 + e.size) := by
    rintro ⟨-, hlt⟩
    rw [Nat.zero_add, ← length_layout e 0 e.size] at hlt
    have hlayout := hat th.state _ (List.getElem?_eq_getElem hlt)
    rw [Nat.zero_add] at hlayout
    have hstate := Option.some.inj (hlayout.symm.trans hsteps)
    exact accept_not_mem_layout e 0 e.size (hstate ▸ List.getElem_mem hlt)
  obtain ⟨k, mid, -, hmid, ⟨u, x, v, hs, hname, -, -, htakes, hholding⟩, hrest⟩ :=
    leavesBy_layout hn hat n hjourney hq rfl hout
  rw [← hmid] at haccept
  obtain rfl := eq_of_journey_of_accept hrest haccept
  exact ⟨u, x, v, hs, hname, htakes, hholding⟩

/-- **What the expression takes, its machine finds**, or another part of the name. -/
theorem isSome_search {u x v : Text} {hs : List (Nat × Text)} (hname : name = u ++ (x ++ v)) (h : Takes u e x v hs) :
    (e.machine.search 0 none none [] name).isSome = true := by
  obtain ⟨hat, haccept⟩ := hasAt_machine e
  obtain ⟨n, th, hth, hjourney⟩ := goesBy_layout hat h hname Thread.start rfl
  rw [← hth] at haccept
  refine Machine.isSome_search rfl rfl (Nat.zero_le _) (.inr ⟨u.length, Nat.zero_le _, ?_, n, Thread.start, _, rfl,
    hjourney, decide_eq_true haccept⟩)
  rw [hname, List.length_append]
  exact Nat.le_add_right _ _

end NameExpr
end RecordExport

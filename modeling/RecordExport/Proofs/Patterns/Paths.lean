import RecordExport.Proofs.Patterns.Groups
import RecordExport.Template.Machine
/-!
# Ways through a machine

The states that an expression is laid out in lead from the first of them to the state behind just in the ways of
the expression.

* `Machine.Moves`, `Machine.Journey`: a machine moves on from a place of a name with a thread in hand, and does
  so several times;
* `Holding`: what groups held on the way, as the thread remembers it. A group must not be inside itself for that
  (`NestsIn`);
* `leavesBy_layout`: a journey that leaves the states of an expression goes one of its ways first;
* `goesBy_layout`: every way of an expression is gone by a journey through its states.
-/

namespace RecordExport

/-! ## 1. What a thread remembers -/

/-- **From one thread to another groups held this**, as far as the threads remember. -/
structure Holding (name : Text) (th th' : Thread) (hs : List (Nat × Text)) : Prop where
  kept : ∀ g, lastHeld hs g = none →
    th'.starts.lookup g = th.starts.lookup g ∧ th'.ends.lookup g = th.ends.lookup g
  last : ∀ g x, lastHeld hs g = some x → Machine.held name th' g = x

theorem held_congr {name : Text} {th th' : Thread} {g : Nat} (hstarts : th'.starts.lookup g = th.starts.lookup g)
    (hends : th'.ends.lookup g = th.ends.lookup g) : Machine.held name th' g = Machine.held name th g := by
  unfold Machine.held
  rw [hstarts, hends]

namespace Holding

variable {name : Text} {th th' th'' : Thread} {hs ks : List (Nat × Text)}

theorem moved (th : Thread) (state : Nat) : Holding name th (th.moved state) [] :=
  ⟨fun _ _ => ⟨rfl, rfl⟩, fun _ _ h => nomatch h⟩

theorem trans (h : Holding name th th' hs) (h' : Holding name th' th'' ks) : Holding name th th'' (hs ++ ks) where
  kept g hg := by
    rw [lastHeld_append, Option.or_eq_none_iff] at hg
    obtain ⟨hstarts, hends⟩ := h.kept g hg.2
    obtain ⟨hstarts', hends'⟩ := h'.kept g hg.1
    exact ⟨hstarts'.trans hstarts, hends'.trans hends⟩
  last g x hg := by
    rw [lastHeld_append] at hg
    cases hlater : lastHeld ks g with
    | some y =>
      rw [hlater] at hg
      obtain rfl := Option.some.inj hg
      exact h'.last g y hlater
    | none =>
      rw [hlater, Option.none_or] at hg
      obtain ⟨hstarts, hends⟩ := h'.kept g hlater
      rw [held_congr hstarts hends]
      exact h.last g x hg

/-- A thread that moves without a group remembers no more and no less. -/
theorem moved_trans (h : Holding name (th.moved s) th' hs) : Holding name th th' hs := by
  have hmoved : Holding name th (th.moved s) [] := moved th s
  have h := hmoved.trans h
  rwa [List.nil_append] at h

theorem trans_moved (h : Holding name th th' hs) (s : Nat) : Holding name th (th'.moved s) hs := by
  have h := h.trans (moved th' s)
  rwa [List.append_nil] at h

/-- **A group holds what stands between its beginning and its end**, if it did not begin again in between. -/
theorem group {i s s' : Nat} {u x v : Text} (hname : name = u ++ (x ++ v))
    (h : Holding name { th with state := s, starts := (i, u.length) :: th.starts } th' hs)
    (hi : lastHeld hs i = none) :
    Holding name th { th' with state := s', ends := (i, u.length + x.length) :: th'.ends } (hs ++ [(i, x)]) where
  kept g hg := by
    rw [lastHeld_append, lastHeld_singleton, Option.or_eq_none_iff] at hg
    have hne : g ≠ i := fun heq => by
      rw [if_pos heq] at hg
      exact nomatch hg.1
    obtain ⟨hstarts, hends⟩ := h.kept g hg.2
    have hlater : ∀ (n : Nat) l, List.lookup g ((i, n) :: l) = List.lookup g l := fun n l => by
      rw [List.lookup_cons, beq_false_of_ne hne]
    exact ⟨hstarts.trans (hlater _ _), (hlater _ _).trans hends⟩
  last g y hg := by
    rw [lastHeld_append, lastHeld_singleton] at hg
    by_cases heq : g = i
    · subst heq
      rw [if_pos rfl] at hg
      obtain rfl := Option.some.inj hg
      have hself : ∀ (n : Nat) l, List.lookup g ((g, n) :: l) = some n := fun n l => by
        rw [List.lookup_cons, beq_self_eq_true]
      unfold Machine.held
      dsimp only
      rw [(h.kept g hi).1, hself, hself]
      dsimp only
      rw [Nat.add_sub_cancel_left, hname, List.drop_left, List.take_left]
    · rw [if_neg heq, Option.none_or] at hg
      rw [← h.last g y hg]
      refine held_congr rfl ?_
      show List.lookup g ((i, _) :: th'.ends) = _
      rw [List.lookup_cons, beq_false_of_ne heq]

end Holding

/-- What is inside a group does not hold for it. -/
theorem lastHeld_of_takes {i hi : Nat} {e : NameExpr} {u x v : Text} {hs : List (Nat × Text)} (hn : NestsIn i hi e)
    (h : Takes u e x v hs) : lastHeld hs i = none := by
  refine List.lookup_eq_none_iff.2 fun p hp => ?_
  have hlt := lo_lt_of_takes hn h p (List.mem_reverse.1 hp)
  exact bne_iff_ne.2 (Nat.ne_of_lt hlt)

/-- A round and then any number of them. -/
theorem Takes.roundFirst {u x y v : Text} {greedy : Bool} {e : NameExpr} {hs ks : List (Nat × Text)}
    (h : Takes u e x (y ++ v) hs) (h' : Takes (u ++ x) (.anyMany greedy e) y v ks) :
    Takes u (.anyMany greedy e) (x ++ y) v (hs ++ ks) := by
  rcases takes_anyMany_iff.1 h' with ⟨rfl, rfl⟩ | rounds
  · rw [List.append_nil, List.append_nil]
    exact .rounds (.lastRound h)
  · exact .rounds (.round h rounds)

/-! ## 2. Moves -/

/-- A list of states stands in a machine from a number on. -/
def Machine.HasAt (m : Machine) (ss : List MachineStep) (here : Nat) : Prop :=
  ∀ k s, ss[k]? = some s → m.steps[here + k]? = some s

/-- A place of a name. -/
def NamePlace.of (name : Text) (p : Nat) : NamePlace := ⟨p, (name.take p).getLast?, (name.drop p).head?⟩

/-- Between two parts of a name. -/
theorem NamePlace.of_append (u v : Text) : of (u ++ v) u.length = ⟨u.length, u.getLast?, v.head?⟩ := by
  unfold of
  rw [List.take_left, List.drop_left]

/-- **A machine moves on** from a place of a name with a thread, without a character or with one. -/
inductive Machine.Moves (m : Machine) (name : Text) : Nat × Thread → Nat × Thread → Prop
  | free {p : Nat} {th th' : Thread} {s : MachineStep} (state : m.steps[th.state]? = some s)
      (leads : th' ∈ s.follow (.of name p) th) : Moves m name (p, th) (p, th')
  | takes {p : Nat} {th th' : Thread} {c : Char} (char : name[p]? = some c) (taken : m.take c th = some th') :
      Moves m name (p, th) (p + 1, th')

/-- So many moves. -/
inductive Machine.Journey (m : Machine) (name : Text) : Nat → Nat × Thread → Nat × Thread → Prop
  | stay {a : Nat × Thread} : Journey m name 0 a a
  | go {n : Nat} {a b c : Nat × Thread} (move : m.Moves name a b) (rest : Journey m name n b c) :
      Journey m name (n + 1) a c

namespace Machine

variable {m : Machine} {name : Text} {here : Nat}

theorem hasAt_cons_iff {s : MachineStep} {ss : List MachineStep} :
    m.HasAt (s :: ss) here ↔ m.steps[here]? = some s ∧ m.HasAt ss (here + 1) := by
  constructor
  · intro h
    refine ⟨h 0 s rfl, fun k t hk => ?_⟩
    rw [Nat.add_assoc, Nat.add_comm 1 k]
    exact h (k + 1) t hk
  · rintro ⟨hfirst, hrest⟩ k t hk
    cases k with
    | zero =>
      obtain rfl := Option.some.inj hk
      exact hfirst
    | succ k =>
      rw [Nat.add_comm k 1, ← Nat.add_assoc]
      exact hrest k t hk

theorem hasAt_append_iff {ss ts : List MachineStep} :
    m.HasAt (ss ++ ts) here ↔ m.HasAt ss here ∧ m.HasAt ts (here + ss.length) := by
  induction ss generalizing here with
  | nil =>
    constructor
    · exact fun h => ⟨fun _ _ hk => (nomatch hk), h⟩
    · exact fun h => h.2
  | cons s ss ih =>
    rw [List.cons_append, hasAt_cons_iff, hasAt_cons_iff, ih, List.length_cons, Nat.add_assoc, Nat.add_comm 1,
      and_assoc]

theorem Journey.trans {n k : Nat} {a b c : Nat × Thread} (h : m.Journey name n a b) (h' : m.Journey name k b c) :
    m.Journey name (n + k) a c := by
  induction h with
  | stay => rwa [Nat.zero_add]
  | go move _ ih =>
    rw [Nat.add_right_comm]
    exact .go move (ih h')

theorem take_of_free {s : MachineStep} (h : s.waits = false) (c : Char) (th : Thread) : s.take c th = none := by
  cases s with
  | takes => cases h
  | _ => rfl

/-- From a state that waits for no character a machine moves where the state leads. -/
theorem moves_free_iff {s : MachineStep} {p : Nat} {th : Thread} {b : Nat × Thread}
    (hs : m.steps[th.state]? = some s) (hfree : s.waits = false) :
    m.Moves name (p, th) b ↔ b.1 = p ∧ b.2 ∈ s.follow (.of name p) th := by
  constructor
  · intro h
    cases h with
    | free hs' leads =>
      obtain rfl := Option.some.inj (hs.symm.trans hs')
      exact ⟨rfl, leads⟩
    | takes _ taken =>
      unfold take at taken
      rw [hs, Option.bind_some, take_of_free hfree] at taken
      cases taken
  · rintro ⟨rfl, hb⟩
    exact .free hs hb

/-- From a state that waits for a character of a set it takes one. -/
theorem moves_takes_iff {set : CharSet} {next p : Nat} {th : Thread} {b : Nat × Thread}
    (hs : m.steps[th.state]? = some (.takes set next)) :
    m.Moves name (p, th) b ↔
      ∃ c, name[p]? = some c ∧ set.contains c = true ∧ b = (p + 1, th.moved next) := by
  constructor
  · intro h
    cases h with
    | free hs' leads =>
      obtain rfl := Option.some.inj (hs.symm.trans hs')
      cases leads
    | takes char taken =>
      unfold take at taken
      rw [hs] at taken
      dsimp only [Option.bind_some, MachineStep.take] at taken
      split at taken
      · rename_i hc
        obtain rfl := Option.some.inj taken
        exact ⟨_, char, hc, rfl⟩
      · cases taken
  · rintro ⟨c, hchar, hc, rfl⟩
    refine .takes hchar ?_
    unfold take
    rw [hs]
    exact if_pos hc

/-- A journey that leaves a state begins with a move. -/
theorem Journey.exists_move {n : Nat} {a b : Nat × Thread} (h : m.Journey name n a b)
    (hne : a.2.state ≠ b.2.state) : ∃ k mid, k < n ∧ m.Moves name a mid ∧ m.Journey name k mid b := by
  cases h with
  | stay => exact absurd rfl hne
  | go move rest => exact ⟨_, _, Nat.lt_succ_self _, move, rest⟩

theorem Journey.exists_free {n : Nat} {a b : Nat × Thread} {s : MachineStep} (h : m.Journey name n a b)
    (hs : m.steps[a.2.state]? = some s) (hfree : s.waits = false) (hne : a.2.state ≠ b.2.state) :
    ∃ k th, k < n ∧ th ∈ s.follow (.of name a.1) a.2 ∧ m.Journey name k (a.1, th) b := by
  obtain ⟨k, mid, hk, hmove, hrest⟩ := h.exists_move hne
  obtain ⟨hplace, hth⟩ := (moves_free_iff hs hfree).1 hmove
  exact ⟨k, mid.2, hk, hth, hplace ▸ hrest⟩

theorem Journey.exists_takes {n : Nat} {a b : Nat × Thread} {set : CharSet} {next : Nat} (h : m.Journey name n a b)
    (hs : m.steps[a.2.state]? = some (.takes set next)) (hne : a.2.state ≠ b.2.state) :
    ∃ k c, k < n ∧ name[a.1]? = some c ∧ set.contains c = true ∧
      m.Journey name k (a.1 + 1, a.2.moved next) b := by
  obtain ⟨k, mid, hk, hmove, hrest⟩ := h.exists_move hne
  obtain ⟨c, hchar, hc, rfl⟩ := (moves_takes_iff hs).1 hmove
  exact ⟨k, c, hk, hchar, hc, hrest⟩

end Machine

theorem waits_fork (greedy : Bool) (first second : Nat) : (MachineStep.fork greedy first second).waits = false := by
  cases greedy <;> rfl

theorem mem_follow_fork {greedy : Bool} {first second : Nat} {place : NamePlace} {th th' : Thread} :
    th' ∈ (MachineStep.fork greedy first second).follow place th ↔
      th' = th.moved first ∨ th' = th.moved second := by
  cases greedy with
  | true => exact List.mem_pair
  | false => exact List.mem_pair.trans or_comm

theorem mem_follow_place {t : PlaceTest} {next : Nat} {place : NamePlace} {th th' : Thread} :
    th' ∈ (MachineStep.place t next).follow place th ↔
      t.holds place.before place.after = true ∧ th' = th.moved next := by
  unfold MachineStep.follow
  dsimp only
  split <;> simp [*]

/-! ## 3. Journeys go ways -/

/-- From one place and thread to another an expression goes one of its ways. -/
def Passes (name : Text) (e : NameExpr) (a b : Nat × Thread) : Prop :=
  ∃ u x v hs, name = u ++ (x ++ v) ∧ a.1 = u.length ∧ b.1 = u.length + x.length ∧ Takes u e x v hs ∧
    Holding name a.2 b.2 hs

/-- **Every journey from the first of some states that ends outside them goes a way of an expression first**, and
    is at the state behind then. -/
def LeavesBy (m : Machine) (name : Text) (e : NameExpr) (here size next : Nat) : Prop :=
  ∀ n {a b : Nat × Thread}, m.Journey name n a b → a.1 ≤ name.length → a.2.state = here →
    ¬ (here ≤ b.2.state ∧ b.2.state < here + size) →
    ∃ k mid, k ≤ n ∧ mid.2.state = next ∧ Passes name e a mid ∧ m.Journey name k mid b

namespace Passes

variable {name : Text} {e e' : NameExpr} {a b c : Nat × Thread}

theorem le_length (h : Passes name e a b) : b.1 ≤ name.length := by
  obtain ⟨u, x, v, hs, rfl, -, hb, -, -⟩ := h
  rw [hb, List.length_append, List.length_append]
  omega

theorem of_moved {p s : Nat} {th : Thread} (h : Passes name e (p, th.moved s) b) : Passes name e (p, th) b := by
  obtain ⟨u, x, v, hs, hname, ha, hb, htakes, hholding⟩ := h
  exact ⟨u, x, v, hs, hname, ha, hb, htakes, hholding.moved_trans⟩

theorem moved (h : Passes name e a b) (s : Nat) : Passes name e a (b.1, b.2.moved s) := by
  obtain ⟨u, x, v, hs, hname, ha, hb, htakes, hholding⟩ := h
  exact ⟨u, x, v, hs, hname, ha, hb, htakes, hholding.trans_moved s⟩

/-- A way of one expression as a way of another that goes the same. -/
theorem imp (h : Passes name e a b) (hways : ∀ {u x v hs}, Takes u e x v hs → Takes u e' x v hs) :
    Passes name e' a b := by
  obtain ⟨u, x, v, hs, hname, ha, hb, htakes, hholding⟩ := h
  exact ⟨u, x, v, hs, hname, ha, hb, hways htakes, hholding⟩

/-- Two ways, one behind the other, as a way of an expression that goes so. -/
theorem trans {f : NameExpr} (h : Passes name e a b) (h' : Passes name e' b c)
    (hways : ∀ {u x y v hs ks}, Takes u e x (y ++ v) hs → Takes (u ++ x) e' y v ks →
      Takes u f (x ++ y) v (hs ++ ks)) : Passes name f a c := by
  obtain ⟨u, x, z, hs, hname, ha, hb, htakes, hholding⟩ := h
  obtain ⟨w, y, v, ks, hname', hb', hc, htakes', hholding'⟩ := h'
  have hsplit : u ++ x ++ z = w ++ (y ++ v) := by rw [List.append_assoc, ← hname, hname']
  obtain ⟨rfl, rfl⟩ := List.append_inj hsplit (by rw [List.length_append, ← hb, hb'])
  refine ⟨u, x ++ y, v, hs ++ ks, by rw [hname, List.append_assoc], ha, ?_, hways htakes htakes',
    hholding.trans hholding'⟩
  rw [hc, List.length_append, List.length_append, Nat.add_assoc]

/-- A way that takes no character. -/
theorem nothing {p s : Nat} {th : Thread} (hp : p ≤ name.length)
    (htakes : ∀ {u v}, name = u ++ v → u.length = p → Takes u e [] v []) :
    Passes name e (p, th) (p, th.moved s) := by
  have hname := (List.take_append_drop p name).symm
  have hlength : (name.take p).length = p := by rw [List.length_take, Nat.min_eq_left hp]
  exact ⟨name.take p, [], name.drop p, [], hname, hlength.symm, hlength.symm, htakes hname hlength,
    Holding.moved th s⟩

/-- A way that takes one character. -/
theorem char {p s : Nat} {th : Thread} {c : Char} (hp : name[p]? = some c)
    (htakes : ∀ {u v}, Takes u e [c] v []) : Passes name e (p, th) (p + 1, th.moved s) := by
  obtain ⟨hlt, hc⟩ := List.getElem?_eq_some_iff.1 hp
  have hname : name = name.take p ++ ([c] ++ name.drop (p + 1)) := by
    rw [List.singleton_append, ← hc, List.getElem_cons_drop, List.take_append_drop]
  have hlength : (name.take p).length = p := by rw [List.length_take, Nat.min_eq_left (Nat.le_of_lt hlt)]
  exact ⟨name.take p, [c], name.drop (p + 1), [], hname, hlength.symm, by rw [hlength]; rfl, htakes,
    Holding.moved th s⟩

end Passes

section Sound

variable {m : Machine} {name : Text} {e f : NameExpr} {greedy : Bool} {lo hi here size next : Nat}

/-- A state that leads on without a character and to one state only. -/
theorem leavesBy_free {s : MachineStep} (hs : m.steps[here]? = some s) (hfree : s.waits = false)
    (hleads : ∀ {p th th'}, th' ∈ s.follow (.of name p) th → th' = th.moved next ∧
      ∀ {u v}, name = u ++ v → u.length = p → Takes u e [] v []) : LeavesBy m name e here 1 next := by
  intro n a b hjourney hp ha hb
  have hne : a.2.state ≠ b.2.state := fun heq => hb (by omega)
  rw [← ha] at hs
  obtain ⟨k, th, hk, hth, hrest⟩ := hjourney.exists_free hs hfree hne
  obtain ⟨rfl, htakes⟩ := hleads hth
  exact ⟨k, _, Nat.le_of_lt hk, rfl, .nothing hp htakes, hrest⟩

theorem leavesBy_oneOf {s : CharSet} (hs : m.steps[here]? = some (.takes s next)) :
    LeavesBy m name (.oneOf s) here 1 next := by
  intro n a b hjourney _ ha hb
  have hne : a.2.state ≠ b.2.state := fun heq => hb (by omega)
  rw [← ha] at hs
  obtain ⟨k, c, hk, hchar, hc, hrest⟩ := hjourney.exists_takes hs hne
  exact ⟨k, _, Nat.le_of_lt hk, rfl, .char hchar (.oneOf hc), hrest⟩

theorem leavesBy_seq (he : LeavesBy m name e here e.size (here + e.size))
    (hf : LeavesBy m name f (here + e.size) f.size next) : LeavesBy m name (.seq e f) here (e.size + f.size) next := by
  intro n a b hjourney hp ha hb
  obtain ⟨k, mid, hk, hmid, hfirst, hjourney⟩ := he n hjourney hp ha fun h => hb (by omega)
  obtain ⟨l, mid', hl, hmid', hsecond, hend⟩ := hf k hjourney hfirst.le_length hmid fun h => hb (by omega)
  exact ⟨l, mid', by omega, hmid', hfirst.trans hsecond .seq, hend⟩

/-- A character is a set of its own, so a word is left as the characters in a row are. -/
theorem leavesBy_word {cs : List Char} (hat : m.HasAt (wordSteps cs here next) here) :
    LeavesBy m name (.word cs) here (cs.length + 1) next := by
  induction cs generalizing here with
  | nil =>
    refine leavesBy_free (Machine.hasAt_cons_iff.1 hat).1 rfl fun hth => ?_
    exact ⟨List.mem_singleton.1 hth, fun _ _ => .word []⟩
  | cons c cs ih =>
    intro n a b hjourney hp ha hb
    obtain ⟨hs, hrest⟩ := Machine.hasAt_cons_iff.1 hat
    rw [List.length_cons] at hb
    obtain ⟨k, mid, hk, hmid, hfirst, hjourney⟩ := leavesBy_oneOf hs n hjourney hp ha fun h => hb (by omega)
    obtain ⟨l, mid', hl, hmid', hpasses, hend⟩ :=
      ih hrest k hjourney hfirst.le_length hmid fun h => hb (by omega)
    refine ⟨l, mid', by omega, hmid', hfirst.trans hpasses fun h h' => ?_, hend⟩
    obtain ⟨⟨d, hd, rfl⟩, rfl⟩ := takes_oneOf_iff.1 h
    obtain ⟨rfl, rfl⟩ := takes_word_iff.1 h'
    have hdc : d = c := by simpa using hd
    subst hdc
    exact .word _

theorem leavesBy_alt (hs : m.steps[here]? = some (.either (here + 1) (here + 1 + e.size)))
    (he : LeavesBy m name e (here + 1) e.size next) (hf : LeavesBy m name f (here + 1 + e.size) f.size next) :
    LeavesBy m name (.alt e f) here (e.size + f.size + 1) next := by
  intro n a b hjourney hp ha hb
  have hne : a.2.state ≠ b.2.state := fun heq => hb (by omega)
  rw [← ha] at hs
  obtain ⟨k, th, hk, hth, hjourney⟩ := hjourney.exists_free hs rfl hne
  rw [ha] at hth
  rcases List.mem_pair.1 hth with rfl | rfl
  · obtain ⟨l, mid, hl, hmid, hside, hend⟩ := he k hjourney hp rfl fun h => hb (by omega)
    exact ⟨l, mid, by omega, hmid, hside.of_moved.imp .left, hend⟩
  · obtain ⟨l, mid, hl, hmid, hside, hend⟩ := hf k hjourney hp rfl fun h => hb (by omega)
    exact ⟨l, mid, by omega, hmid, hside.of_moved.imp .right, hend⟩

/-- Rounds of an expression, with a fork behind each. -/
theorem leavesBy_many (h : LeavesBy m name e here e.size (here + e.size))
    (hfork : m.steps[here + e.size]? = some (.fork greedy here next)) :
    LeavesBy m name (.many greedy e) here (e.size + 1) next := by
  intro n
  induction n using Nat.strongRecOn with
  | ind n ih =>
    intro a b hjourney hp ha hb
    obtain ⟨k, mid, hk, hmid, hround, hjourney⟩ := h n hjourney hp ha (fun h => hb ⟨h.1, by omega⟩)
    have hne : mid.2.state ≠ b.2.state := fun heq => hb (by omega)
    rw [← hmid] at hfork
    obtain ⟨l, th, hl, hth, hjourney⟩ := hjourney.exists_free hfork (waits_fork _ _ _) hne
    rcases mem_follow_fork.1 hth with rfl | rfl
    · obtain ⟨k', mid', hk', hmid', hrounds, hend⟩ :=
        ih l (by omega) hjourney hround.le_length rfl hb
      exact ⟨k', mid', by omega, hmid', hround.trans hrounds.of_moved .round, hend⟩
    · exact ⟨l, _, by omega, rfl, (hround.imp .lastRound).moved next, hjourney⟩

/-- A fork that skips an expression or goes into it. -/
theorem leavesBy_fork (h : LeavesBy m name e (here + 1) size next)
    (hfork : m.steps[here]? = some (.fork greedy (here + 1) next))
    (hways : ∀ {u x v hs}, Takes u f x v hs ↔ (x = [] ∧ hs = []) ∨ Takes u e x v hs) :
    LeavesBy m name f here (size + 1) next := by
  intro n a b hjourney hp ha hb
  have hne : a.2.state ≠ b.2.state := fun heq => hb (by omega)
  rw [← ha] at hfork
  obtain ⟨k, th, hk, hth, hjourney⟩ := hjourney.exists_free hfork (waits_fork _ _ _) hne
  rcases mem_follow_fork.1 hth with rfl | rfl
  · rw [ha] at hjourney
    obtain ⟨l, mid, hl, hmid, hpasses, hend⟩ := h k hjourney hp rfl fun h => hb (by omega)
    exact ⟨l, mid, by omega, hmid, hpasses.of_moved.imp fun h => hways.2 (.inr h), hend⟩
  · exact ⟨k, _, Nat.le_of_lt hk, rfl, .nothing hp fun _ _ => hways.2 (.inl ⟨rfl, rfl⟩), hjourney⟩

/-- Rounds of an expression, with a fork ahead of each. -/
theorem leavesBy_anyMany (h : LeavesBy m name e (here + 1) e.size here)
    (hfork : m.steps[here]? = some (.fork greedy (here + 1) next)) :
    LeavesBy m name (.anyMany greedy e) here (e.size + 1) next := by
  intro n
  induction n using Nat.strongRecOn with
  | ind n ih =>
    intro a b hjourney hp ha hb
    have hne : a.2.state ≠ b.2.state := fun heq => hb (by omega)
    have hs := hfork
    rw [← ha] at hs
    obtain ⟨k, th, hk, hth, hjourney⟩ := hjourney.exists_free hs (waits_fork _ _ _) hne
    rcases mem_follow_fork.1 hth with rfl | rfl
    · rw [ha] at hjourney
      obtain ⟨l, mid, hl, hmid, hround, hjourney⟩ := h k hjourney hp rfl fun h => hb (by omega)
      obtain ⟨j, mid', hj, hmid', hrounds, hend⟩ := ih l (by omega) hjourney hround.le_length hmid hb
      exact ⟨j, mid', by omega, hmid', hround.of_moved.trans hrounds .roundFirst, hend⟩
    · exact ⟨k, _, Nat.le_of_lt hk, rfl, .nothing hp fun _ _ => .noRound, hjourney⟩

theorem leavesBy_whole (h : LeavesBy m name e here e.size next) : LeavesBy m name (.whole e) here e.size next := by
  intro n a b hjourney hp ha hb
  obtain ⟨k, mid, hk, hmid, hpasses, hend⟩ := h n hjourney hp ha hb
  exact ⟨k, mid, hk, hmid, hpasses.imp .whole, hend⟩

/-- A group remembers where it begins and where it ends. -/
theorem leavesBy_group {i : Nat} (hn : NestsIn i hi e) (hopen : m.steps[here]? = some (.opens i (here + 1)))
    (h : LeavesBy m name e (here + 1) e.size (here + 1 + e.size))
    (hclose : m.steps[here + 1 + e.size]? = some (.closes i next)) :
    LeavesBy m name (.group i e) here (e.size + 2) next := by
  intro n a b hjourney hp ha hb
  have hne : a.2.state ≠ b.2.state := fun heq => hb (by omega)
  rw [← ha] at hopen
  obtain ⟨k, th, hk, hth, hjourney⟩ := hjourney.exists_free hopen rfl hne
  obtain rfl := List.mem_singleton.1 hth
  rw [ha] at hjourney
  obtain ⟨l, mid, hl, hmid, hinside, hjourney⟩ := h k hjourney hp rfl fun h => hb (by omega)
  have hne : mid.2.state ≠ b.2.state := fun heq => hb (by omega)
  rw [← hmid] at hclose
  obtain ⟨j, th, hj, hth, hjourney⟩ := hjourney.exists_free hclose rfl hne
  obtain rfl := List.mem_singleton.1 hth
  refine ⟨j, _, by omega, rfl, ?_, hjourney⟩
  obtain ⟨u, x, v, hs, hname, hstart, hstop, htakes, hholding⟩ := hinside
  dsimp only at hstart hholding
  rw [hstart] at hholding
  refine ⟨u, x, v, hs ++ [(i, x)], hname, hstart, hstop, .group htakes, ?_⟩
  rw [hstop]
  exact hholding.group hname (lastHeld_of_takes hn htakes)

/-- **What leaves the states of an expression has gone one of its ways.** -/
theorem leavesBy_layout (hn : NestsIn lo hi e) (hat : m.HasAt (e.layout here next) here) :
    LeavesBy m name e here e.size next := by
  induction e generalizing lo hi here next with
  | word cs => exact leavesBy_word hat
  | oneOf s => exact leavesBy_oneOf (Machine.hasAt_cons_iff.1 hat).1
  | place t =>
    refine leavesBy_free (Machine.hasAt_cons_iff.1 hat).1 rfl fun {p th th'} hth => ?_
    obtain ⟨ht, rfl⟩ := mem_follow_place.1 hth
    refine ⟨rfl, fun hname hu => ?_⟩
    rw [hname, ← hu, NamePlace.of_append] at ht
    exact .place ht
  | seq e f ihe ihf =>
    obtain ⟨hate, hatf⟩ := Machine.hasAt_append_iff.1 hat
    rw [NameExpr.length_layout] at hatf
    exact leavesBy_seq (ihe hn.1 hate) (ihf hn.2 hatf)
  | alt e f ihe ihf =>
    obtain ⟨hs, hat⟩ := Machine.hasAt_cons_iff.1 hat
    obtain ⟨hate, hatf⟩ := Machine.hasAt_append_iff.1 hat
    rw [NameExpr.length_layout] at hatf
    exact leavesBy_alt hs (ihe hn.1 hate) (ihf hn.2 hatf)
  | optional greedy e ih =>
    obtain ⟨hs, hat⟩ := Machine.hasAt_cons_iff.1 hat
    exact leavesBy_fork (ih hn hat) hs takes_optional_iff
  | many greedy e ih =>
    obtain ⟨hate, hfork⟩ := Machine.hasAt_append_iff.1 hat
    rw [NameExpr.length_layout] at hfork
    exact leavesBy_many (ih hn hate) (Machine.hasAt_cons_iff.1 hfork).1
  | anyMany greedy e ih =>
    obtain ⟨hs, hat⟩ := Machine.hasAt_cons_iff.1 hat
    by_cases hsome : e.takesSome = true
    · rw [if_pos hsome] at hat
      have hsize : (NameExpr.anyMany greedy e).size = e.size + 1 := if_pos hsome
      rw [hsize]
      exact leavesBy_anyMany (ih hn hat) hs
    · rw [if_neg hsome] at hat
      obtain ⟨hate, hfork⟩ := Machine.hasAt_append_iff.1 hat
      rw [NameExpr.length_layout] at hfork
      have hsize : (NameExpr.anyMany greedy e).size = e.size + 1 + 1 := if_neg hsome
      rw [hsize]
      exact leavesBy_fork (leavesBy_many (ih hn hate) (Machine.hasAt_cons_iff.1 hfork).1) hs
        takes_anyMany_iff
  | whole e ih => exact leavesBy_whole (ih hn hat)
  | group i e ih =>
    obtain ⟨hopen, hat⟩ := Machine.hasAt_cons_iff.1 hat
    obtain ⟨hate, hclose⟩ := Machine.hasAt_append_iff.1 hat
    rw [NameExpr.length_layout] at hclose
    exact leavesBy_group hn.2.2 hopen (ih hn.2.2 hate) (Machine.hasAt_cons_iff.1 hclose).1

end Sound

/-! ## 4. Ways are gone by journeys -/

/-- **From one state to another a part of a name is gone through**, by whatever thread. -/
def Machine.Goes (m : Machine) (name : Text) (here next : Nat) (u x v : Text) : Prop :=
  name = u ++ (x ++ v) → ∀ th : Thread, th.state = here →
    ∃ n th', th'.state = next ∧ m.Journey name n (u.length, th) (u.length + x.length, th')

namespace Machine.Goes

variable {m : Machine} {name : Text} {here mid next : Nat} {u x y v : Text}

theorem append (h : m.Goes name here mid u x (y ++ v)) (h' : m.Goes name mid next (u ++ x) y v) :
    m.Goes name here next u (x ++ y) v := by
  intro hname th hth
  rw [List.append_assoc] at hname
  obtain ⟨n, th', hth', hjourney⟩ := h hname th hth
  rw [← List.append_assoc] at hname
  obtain ⟨k, th'', hth'', hrest⟩ := h' hname th' hth'
  rw [← List.length_append] at hjourney
  rw [List.length_append, ← Nat.add_assoc, ← List.length_append]
  exact ⟨n + k, th'', hth'', hjourney.trans hrest⟩

/-- Nothing is gone through first. -/
theorem ahead (h : m.Goes name here mid u [] (x ++ v)) (h' : m.Goes name mid next u x v) :
    m.Goes name here next u x v := by
  rw [← List.append_nil u] at h'
  exact h.append h'

/-- Nothing is gone through last. -/
theorem behind (h : m.Goes name here mid u x v) (h' : m.Goes name mid next (u ++ x) [] v) :
    m.Goes name here next u x v := by
  rw [← List.append_nil x]
  exact append h h'

/-- A move without a character. -/
theorem free {s : MachineStep} (hs : m.steps[here]? = some s)
    (hleads : name = u ++ v → ∀ th : Thread,
      ∃ th' ∈ s.follow (.of name u.length) th, th'.state = next) :
    m.Goes name here next u [] v := by
  intro hname th hth
  obtain ⟨th', hmem, hth'⟩ := hleads hname th
  rw [← hth] at hs
  exact ⟨1, th', hth', .go (.free hs hmem) .stay⟩

/-- Taking one character. -/
theorem char {set : CharSet} {c : Char} (hs : m.steps[here]? = some (.takes set next)) (hc : set.contains c = true) :
    m.Goes name here next u [c] v := by
  intro hname th hth
  have hchar : name[u.length]? = some c := by
    rw [hname, List.getElem?_append_right (Nat.le_refl _), Nat.sub_self]
    rfl
  rw [← hth] at hs
  exact ⟨1, th.moved next, rfl, .go ((moves_takes_iff hs).2 ⟨c, hchar, hc, rfl⟩) .stay⟩

/-- At a fork either state can be gone to. -/
theorem first {greedy : Bool} (hs : m.steps[here]? = some (.fork greedy mid next)) : m.Goes name here mid u [] v :=
  free hs fun _ th => ⟨th.moved mid, mem_follow_fork.2 (.inl rfl), rfl⟩

theorem second {greedy : Bool} (hs : m.steps[here]? = some (.fork greedy mid next)) : m.Goes name here next u [] v :=
  free hs fun _ th => ⟨th.moved next, mem_follow_fork.2 (.inr rfl), rfl⟩

end Machine.Goes

/-- **Every way of an expression is gone** from one state to another. -/
def GoesBy (m : Machine) (name : Text) (e : NameExpr) (here next : Nat) : Prop :=
  ∀ {u x v : Text} {hs : List (Nat × Text)}, Takes u e x v hs → m.Goes name here next u x v

section Complete

variable {m : Machine} {name : Text} {e f : NameExpr} {greedy : Bool} {here next : Nat}

theorem goesBy_word {cs : List Char} (hat : m.HasAt (wordSteps cs here next) here) :
    GoesBy m name (.word cs) here next := by
  induction cs generalizing here with
  | nil =>
    intro u x v hs h
    obtain ⟨rfl, -⟩ := takes_word_iff.1 h
    exact .free (Machine.hasAt_cons_iff.1 hat).1 fun _ th => ⟨th.moved next, List.mem_cons_self, rfl⟩
  | cons c cs ih =>
    intro u x v hs h
    obtain ⟨rfl, -⟩ := takes_word_iff.1 h
    obtain ⟨hs, hrest⟩ := Machine.hasAt_cons_iff.1 hat
    exact .append (.char hs (by simp)) (ih hrest (.word cs))

theorem goesBy_many (h : GoesBy m name e here (here + e.size))
    (hfork : m.steps[here + e.size]? = some (.fork greedy here next)) :
    GoesBy m name (.many greedy e) here next := by
  intro u x v hs htakes
  generalize hm : NameExpr.many greedy e = f at htakes
  induction htakes with
  | lastRound round =>
    obtain ⟨rfl, rfl⟩ := NameExpr.many.inj hm
    exact (h round).behind (.second hfork)
  | round round _ _ ih =>
    obtain ⟨rfl, rfl⟩ := NameExpr.many.inj hm
    exact (h round).append (.ahead (.first hfork) (ih rfl))
  | _ => cases hm

theorem goesBy_fork (h : GoesBy m name e (here + 1) next)
    (hfork : m.steps[here]? = some (.fork greedy (here + 1) next))
    (hways : ∀ {u x v hs}, Takes u f x v hs ↔ (x = [] ∧ hs = []) ∨ Takes u e x v hs) :
    GoesBy m name f here next := by
  intro u x v hs htakes
  rcases hways.1 htakes with ⟨rfl, -⟩ | hinto
  · exact .second hfork
  · exact .ahead (.first hfork) (h hinto)

theorem goesBy_anyMany (h : GoesBy m name e (here + 1) here)
    (hfork : m.steps[here]? = some (.fork greedy (here + 1) next)) :
    GoesBy m name (.anyMany greedy e) here next := by
  -- a round goes into the expression at the fork and comes back to it
  have hround : GoesBy m name e here here := fun round => .ahead (.first hfork) (h round)
  intro u x v hs htakes
  rcases takes_anyMany_iff.1 htakes with ⟨rfl, -⟩ | hrounds
  · exact .second hfork
  clear htakes
  generalize hm : NameExpr.many greedy e = f at hrounds
  induction hrounds with
  | lastRound round =>
    obtain ⟨rfl, rfl⟩ := NameExpr.many.inj hm
    exact (hround round).behind (.second hfork)
  | round round _ _ ih =>
    obtain ⟨rfl, rfl⟩ := NameExpr.many.inj hm
    exact (hround round).append (ih rfl)
  | _ => cases hm

/-- **Every way of an expression is gone through its states.** -/
theorem goesBy_layout (hat : m.HasAt (e.layout here next) here) : GoesBy m name e here next := by
  induction e generalizing here next with
  | word cs => exact goesBy_word hat
  | oneOf s =>
    intro u x v hs h
    obtain ⟨⟨c, hc, rfl⟩, -⟩ := takes_oneOf_iff.1 h
    exact .char (Machine.hasAt_cons_iff.1 hat).1 hc
  | place t =>
    intro u x v hs h
    obtain ⟨ht, rfl, -⟩ := takes_place_iff.1 h
    refine .free (Machine.hasAt_cons_iff.1 hat).1 fun hname th => ⟨th.moved next, ?_, rfl⟩
    rw [hname, NamePlace.of_append]
    exact mem_follow_place.2 ⟨ht, rfl⟩
  | seq e f ihe ihf =>
    intro u x v hs h
    obtain ⟨hate, hatf⟩ := Machine.hasAt_append_iff.1 hat
    rw [NameExpr.length_layout] at hatf
    obtain ⟨y, z, ks, ls, rfl, rfl, first, second⟩ := takes_seq_iff.1 h
    exact (ihe hate first).append (ihf hatf second)
  | alt e f ihe ihf =>
    intro u x v hs h
    obtain ⟨hs, hat⟩ := Machine.hasAt_cons_iff.1 hat
    obtain ⟨hate, hatf⟩ := Machine.hasAt_append_iff.1 hat
    rw [NameExpr.length_layout] at hatf
    rcases takes_alt_iff.1 h with side | side
    · exact .ahead (.free hs fun _ th => ⟨th.moved _, List.mem_pair.2 (.inl rfl), rfl⟩) (ihe hate side)
    · exact .ahead (.free hs fun _ th => ⟨th.moved _, List.mem_pair.2 (.inr rfl), rfl⟩) (ihf hatf side)
  | optional greedy e ih =>
    obtain ⟨hs, hat⟩ := Machine.hasAt_cons_iff.1 hat
    exact goesBy_fork (ih hat) hs takes_optional_iff
  | many greedy e ih =>
    obtain ⟨hate, hfork⟩ := Machine.hasAt_append_iff.1 hat
    rw [NameExpr.length_layout] at hfork
    exact goesBy_many (ih hate) (Machine.hasAt_cons_iff.1 hfork).1
  | anyMany greedy e ih =>
    obtain ⟨hs, hat⟩ := Machine.hasAt_cons_iff.1 hat
    by_cases hsome : e.takesSome = true
    · rw [if_pos hsome] at hat
      exact goesBy_anyMany (ih hat) hs
    · rw [if_neg hsome] at hat
      obtain ⟨hate, hfork⟩ := Machine.hasAt_append_iff.1 hat
      rw [NameExpr.length_layout] at hfork
      exact goesBy_fork (goesBy_many (ih hate) (Machine.hasAt_cons_iff.1 hfork).1) hs takes_anyMany_iff
  | whole e ih => exact fun h => ih hat (takes_whole_iff.1 h)
  | group i e ih =>
    intro u x v hs h
    obtain ⟨hs, hat⟩ := Machine.hasAt_cons_iff.1 hat
    obtain ⟨hate, hclose⟩ := Machine.hasAt_append_iff.1 hat
    rw [NameExpr.length_layout] at hclose
    have hclose := (Machine.hasAt_cons_iff.1 hclose).1
    obtain ⟨ks, rfl, inside⟩ := takes_group_iff.1 h
    have hopened := Machine.Goes.ahead (.free hs fun _ th => ⟨_, List.mem_cons_self, rfl⟩) (ih hate inside)
    exact hopened.behind (.free hclose fun _ th => ⟨_, List.mem_cons_self, rfl⟩)

end Complete

end RecordExport

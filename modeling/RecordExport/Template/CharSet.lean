import RecordExport.Text.Basic
/-!
# Sets of characters

The characters that may stand at one place of a name. A set is told by its EDGES, the codes at which
it begins and ends: walking up from the first code, each edge leads into the set or out of it again.
A set has one form only, so sets put together in different ways are often seen to be equal.

* `ofRange`, `ofChars`, `every`: sets of given characters;
* `combine`: any set that two others decide, from which `union`, `inter`, `diff`, `symmDiff` and
  `compl` are made;
* `contains_combine`: **a combined set holds what the two sets decide.**
-/

namespace RecordExport

/-- A set of characters, by its edges in order. -/
structure CharSet where
  edges : List Nat
  ordered : edges.Pairwise (· < ·)
  deriving DecidableEq, Repr

/-! ## 1. Walking over edges -/

/-- Walk up to a code, begun inside a set or outside: whether it ends inside. -/
def inside (begun : Bool) : (edges : List Nat) → (code : Nat) → Bool
  | [], _ => begun
  | e :: es, n => if n < e then begun else inside (!begun) es n

/-- An edge put at its place, unless it is there. -/
def insertEdge (e : Nat) : List Nat → List Nat
  | [] => [e]
  | d :: ds => if e = d then d :: ds else if e < d then e :: d :: ds else d :: insertEdge e ds

theorem mem_insertEdge {x e : Nat} {ds : List Nat} : x ∈ insertEdge e ds ↔ x = e ∨ x ∈ ds := by
  induction ds with
  | nil => simp [insertEdge]
  | cons d ds ih =>
    unfold insertEdge
    split
    · next h => subst h; simp
    · split
      · simp
      · simp only [List.mem_cons, ih]
        exact or_left_comm

theorem ordered_insertEdge {e : Nat} {ds : List Nat} (h : ds.Pairwise (· < ·)) :
    (insertEdge e ds).Pairwise (· < ·) := by
  induction ds with
  | nil => exact List.pairwise_singleton _ _
  | cons d ds ih =>
    obtain ⟨hd, hds⟩ := List.pairwise_cons.1 h
    unfold insertEdge
    split
    · exact h
    · split
      · next hlt =>
        refine List.pairwise_cons.2 ⟨fun x hx => ?_, h⟩
        rcases List.mem_cons.1 hx with rfl | hx
        · exact hlt
        · exact Nat.lt_trans hlt (hd x hx)
      · next hne hlt =>
        refine List.pairwise_cons.2 ⟨fun x hx => ?_, ih hds⟩
        rcases mem_insertEdge.1 hx with rfl | hx
        · omega
        · exact hd x hx

theorem inside_of_lt {es : List Nat} {n : Nat} (h : ∀ e ∈ es, n < e) (begun : Bool) :
    inside begun es n = begun := by
  cases es with
  | nil => rfl
  | cons e es => exact if_pos (h e List.mem_cons_self)

theorem inside_zero {es : List Nat} (h : es.Pairwise (· < ·)) (begun : Bool) :
    inside begun es 0 = (begun != decide (0 ∈ es)) := by
  cases es with
  | nil => simp [inside]
  | cons e es =>
    obtain ⟨hes, -⟩ := List.pairwise_cons.1 h
    unfold inside
    split
    · next he =>
      have hnot : 0 ∉ e :: es := fun hmem => by
        rcases List.mem_cons.1 hmem with rfl | hmem
        · omega
        · exact absurd (hes 0 hmem) (by omega)
      simp [hnot]
    · next he =>
      obtain rfl : e = 0 := by omega
      rw [inside_of_lt hes]
      simp

/-- **Each edge leads into the set or out of it**, and nothing else does. -/
theorem inside_succ {es : List Nat} (h : es.Pairwise (· < ·)) (begun : Bool) (n : Nat) :
    inside begun es (n + 1) = (inside begun es n != decide (n + 1 ∈ es)) := by
  induction es generalizing begun with
  | nil => simp [inside]
  | cons e es ih =>
    obtain ⟨hes, hrest⟩ := List.pairwise_cons.1 h
    unfold inside
    rcases Nat.lt_trichotomy (n + 1) e with hlt | rfl | hgt
    · have hnot : n + 1 ∉ e :: es := fun hmem => by
        rcases List.mem_cons.1 hmem with rfl | hmem
        · omega
        · exact absurd (hes _ hmem) (by omega)
      rw [if_pos hlt, if_pos (by omega), decide_eq_false hnot]
      simp
    · rw [if_neg (by omega), if_pos (by omega), inside_of_lt hes]
      simp
    · have hmem : n + 1 ∈ e :: es ↔ n + 1 ∈ es := by
        rw [List.mem_cons]
        exact or_iff_right (by omega)
      rw [if_neg (by omega), if_neg (by omega), ih hrest]
      simp [hmem]

namespace CharSet

/-! ## 2. Sets -/

/-- A code is in the set. -/
def holds (s : CharSet) (code : Nat) : Bool := inside false s.edges code

/-- The character is in the set. -/
def contains (s : CharSet) (c : Char) : Bool := s.holds c.toNat

/-- The first code above all characters. -/
def topCode : Nat := 0x110000

/-- What two sets decide at a code. -/
def decides (f : Bool → Bool → Bool) (s t : CharSet) (code : Nat) : Bool :=
  f (s.holds code) (t.holds code)

/-- What two sets decide right below a code. -/
def decidesBelow (f : Bool → Bool → Bool) (s t : CharSet) : (code : Nat) → Bool
  | 0 => false
  | n + 1 => decides f s t n

/-- **The set of the characters at which two sets decide so.** -/
def combine (f : Bool → Bool → Bool) (s t : CharSet) : CharSet where
  edges := (insertEdge 0 (s.edges.foldr insertEdge t.edges)).filter fun e =>
    e < topCode && decides f s t e != decidesBelow f s t e
  ordered := by
    have hfold : ∀ es : List Nat, (es.foldr insertEdge t.edges).Pairwise (· < ·) := by
      intro es
      induction es with
      | nil => exact t.ordered
      | cons e es ih => exact ordered_insertEdge ih
    exact (ordered_insertEdge (hfold s.edges)).filter _

/-- The codes from one to another. -/
def ofCodes (lo hi : Nat) : CharSet where
  edges := if lo ≤ hi then if hi + 1 < topCode then [lo, hi + 1] else [lo] else []
  ordered := by
    split
    · split
      · exact List.pairwise_pair.2 (by omega)
      · exact List.pairwise_singleton _ _
    · exact .nil

/-- The characters from one to another. -/
def ofRange (lo hi : Char) : CharSet := ofCodes lo.toNat hi.toNat

/-- This character alone. -/
def only (c : Char) : CharSet := ofRange c c

/-- No character. -/
def none : CharSet := ⟨[], .nil⟩

/-- The characters of both sets. -/
def union (s t : CharSet) : CharSet := combine (· || ·) s t

/-- The characters that the sets share. -/
def inter (s t : CharSet) : CharSet := combine (· && ·) s t

/-- The characters of the first set that are not in the second. -/
def diff (s t : CharSet) : CharSet := combine (fun a b => a && !b) s t

/-- The characters of just one of the sets. -/
def symmDiff (s t : CharSet) : CharSet := combine (· != ·) s t

/-- All other characters. -/
def compl (s : CharSet) : CharSet := combine (fun a _ => !a) s none

/-- The listed characters. -/
def ofChars (cs : List Char) : CharSet := cs.foldl (fun s c => s.union (only c)) none

/-- The characters of several sets. -/
def unionAll (ss : List CharSet) : CharSet := ss.foldl union none

/-- All characters but the line feed. -/
def inLine : CharSet := (only '\n').compl

/-- The one character of a set that has one. -/
def single? (s : CharSet) : Option Char :=
  s.edges.head?.bind fun lo =>
    if s = only (Char.ofNat lo) then some (Char.ofNat lo) else Option.none

/-! ## 3. What sets hold -/

theorem decides_succ_of_not_mem {f : Bool → Bool → Bool} {s t : CharSet} {n : Nat}
    (hs : n + 1 ∉ s.edges) (ht : n + 1 ∉ t.edges) : decides f s t (n + 1) = decides f s t n := by
  unfold decides holds
  rw [inside_succ s.ordered, inside_succ t.ordered, decide_eq_false hs, decide_eq_false ht]
  simp

theorem mem_foldr_insertEdge {x : Nat} {es ds : List Nat} :
    x ∈ es.foldr insertEdge ds ↔ x ∈ es ∨ x ∈ ds := by
  induction es with
  | nil => simp
  | cons e es ih => simp only [List.foldr_cons, mem_insertEdge, ih, List.mem_cons, or_assoc]

theorem holds_combine (f : Bool → Bool → Bool) (s t : CharSet) {n : Nat} (hn : n < topCode) :
    (combine f s t).holds n = decides f s t n := by
  induction n with
  | zero =>
    unfold holds
    rw [inside_zero (combine f s t).ordered]
    have hmem : 0 ∈ (combine f s t).edges ↔ decides f s t 0 = true := by
      simp [combine, mem_insertEdge, decidesBelow, topCode]
    cases h : decides f s t 0 <;> simp [hmem, h]
  | succ n ih =>
    unfold holds at ih ⊢
    rw [inside_succ (combine f s t).ordered, ih (by omega)]
    have hmem : n + 1 ∈ (combine f s t).edges ↔
        (n + 1 ∈ s.edges ∨ n + 1 ∈ t.edges) ∧ decides f s t (n + 1) ≠ decides f s t n := by
      simp [combine, mem_insertEdge, mem_foldr_insertEdge, decidesBelow, hn]
    by_cases hedge : n + 1 ∈ s.edges ∨ n + 1 ∈ t.edges
    · cases hold : decides f s t n <;> cases hnew : decides f s t (n + 1) <;>
        simp [hmem, hedge, hold, hnew]
    · obtain ⟨hs, ht⟩ := not_or.1 hedge
      rw [decides_succ_of_not_mem hs ht]
      simp [hmem, hs, ht]

theorem toNat_lt_topCode (c : Char) : c.toNat < topCode := by
  rcases c.valid with h | h <;> unfold topCode Char.toNat <;> omega

/-- **A combined set holds what the two sets decide.** -/
theorem contains_combine (f : Bool → Bool → Bool) (s t : CharSet) (c : Char) :
    (combine f s t).contains c = f (s.contains c) (t.contains c) :=
  holds_combine f s t (toNat_lt_topCode c)

@[simp] theorem contains_union (s t : CharSet) (c : Char) :
    (s.union t).contains c = (s.contains c || t.contains c) := contains_combine _ s t c

@[simp] theorem contains_compl (s : CharSet) (c : Char) :
    s.compl.contains c = !s.contains c := contains_combine _ s none c

/-- **A range holds the characters from its first to its last.** -/
theorem contains_ofRange {lo hi c : Char} :
    (ofRange lo hi).contains c = true ↔ lo.toNat ≤ c.toNat ∧ c.toNat ≤ hi.toNat := by
  have htop := toNat_lt_topCode c
  unfold contains holds ofRange ofCodes
  dsimp only
  split
  · split <;> simp only [inside] <;> split <;> simp <;> omega
  · simp [inside]; omega

@[simp] theorem contains_only {c d : Char} : (only d).contains c = decide (c = d) := by
  rw [Bool.eq_iff_iff, only, contains_ofRange, decide_eq_true_iff]
  constructor
  · rintro ⟨hlo, hhi⟩
    exact Char.toNat_inj.1 (Nat.le_antisymm hhi hlo)
  · rintro rfl
    exact ⟨Nat.le_refl _, Nat.le_refl _⟩

theorem eq_only_of_single? {s : CharSet} {d : Char} (h : s.single? = some d) : s = only d := by
  obtain ⟨lo, -, h⟩ := Option.bind_eq_some_iff.1 h
  split at h
  · next heq =>
    obtain rfl := Option.some.inj h
    exact heq
  · cases h

end CharSet
end RecordExport

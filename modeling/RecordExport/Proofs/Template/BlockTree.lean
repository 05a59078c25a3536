import RecordExport.Proofs.Template.Lexing
import RecordExport.Proofs.Validation.Gates
/-!
# Conditions by the pairs of the original text

A walk over conditions searches a text that changes under it: it takes markers out, with their lines, and
searches again what a kept block held. What it does can be told from the original text: pair the markers of the
family with a stack, and go over the tokens once.

* `settle`: the pass. It asks at each paired start marker that is not in a dropped block, leaves out the paired
  markers and the dropped blocks, and writes everything else;
* `FirstBlock`: the first block that a search finds, by the pairs of the stack, and `settle_of_firstBlock`: what
  the pass does there;
* `keepFrom_settles`: from a point of the text on a walk does what the pass does. What keeps the two together is
  what the rest of the text spells, which the walk and the lines that it takes leave alone;
* `keepBlocksM_settles`: so do conditions on a whole text, up to spaces, tabs and line ends.
-/

namespace RecordExport

universe v

variable {f : BlockFamily}

/-! ## 1. The pass -/

/-- The end marker that closes a start marker, by given pairs. -/
def closerIn (pairs : List (Located × Located)) (t : Located) : Option Located :=
  (pairs.find? fun p => p.1 = t).map (·.2)

/-- The token is an end marker that closes a start marker, by given pairs. -/
def closesIn (pairs : List (Located × Located)) (t : Located) : Bool := pairs.any fun p => p.2 = t

/-- One pass over the tokens of a text, the pairs of a family given. `written` is what was written so far, and
    `dropping` the end marker of the dropped block that the pass is in. A start marker of a pair is asked about,
    with what its name captures. The markers of a pair are not written, nor is anything of a dropped block. -/
def settle {m : Type → Type v} [Monad m] (f : BlockFamily) (pairs : List (Located × Located))
    (decision : List Text → m Bool) : (written : Text) → (dropping : Option Located) → List Located → m Text
  | written, _, [] => pure written
  | written, some e, t :: ts => settle f pairs decision written (if t = e then none else some e) ts
  | written, none, t :: ts =>
    match closerIn pairs t, f.opens.captures t.1.name with
    | some e, some cs => do
      let kept ← decision cs
      settle f pairs decision written (if kept then none else some e) ts
    | _, _ => settle f pairs decision (if closesIn pairs t then written else written ++ t.1.source) none ts

section Pass

variable {m : Type → Type v} [Monad m] {pairs qairs : List (Located × Located)}
  {decision : List Text → m Bool} {written : Text} {t e : Located} {ts : List Located}

theorem settle_of_dropping :
    settle f pairs decision written (some e) (t :: ts) =
      settle f pairs decision written (if t = e then none else some e) ts := by
  rw [settle]

theorem settle_of_closer {cs : List Text} (h : closerIn pairs t = some e)
    (hcs : f.opens.captures t.1.name = some cs) :
    settle f pairs decision written none (t :: ts) =
      (do let kept ← decision cs
          settle f pairs decision written (if kept then none else some e) ts) := by
  rw [settle, h, hcs]

theorem settle_of_none (h : closerIn pairs t = none) :
    settle f pairs decision written none (t :: ts) =
      settle f pairs decision (if closesIn pairs t then written else written ++ t.1.source) none ts := by
  rw [settle, h]

/-- The pass goes by what the pairs say of the tokens it goes over. -/
theorem settle_congr
    (h : ∀ t ∈ ts, closerIn pairs t = closerIn qairs t ∧ closesIn pairs t = closesIn qairs t) (written : Text)
    (dropping : Option Located) :
    settle f pairs decision written dropping ts = settle f qairs decision written dropping ts := by
  induction ts generalizing written dropping with
  | nil => cases dropping <;> rfl
  | cons t ts ih =>
    have hrest := ih fun t ht => h t (List.mem_cons_of_mem _ ht)
    cases dropping with
    | some e => rw [settle_of_dropping, settle_of_dropping, hrest]
    | none =>
      obtain ⟨hcloser, hcloses⟩ := h t List.mem_cons_self
      unfold settle
      rw [hcloser, hcloses]
      simp only [hrest]

/-- What is in no pair is written. -/
theorem settle_of_unpaired (h : ∀ t ∈ ts, closerIn pairs t = none ∧ closesIn pairs t = false) (written : Text)
    (us : List Located) :
    settle f pairs decision written none (ts ++ us) =
      settle f pairs decision (written ++ sourceOf (ts.map (·.1))) none us := by
  induction ts generalizing written with
  | nil => rw [List.nil_append, List.map_nil, sourceOf_nil, List.append_nil]
  | cons t ts ih =>
    obtain ⟨hcloser, hcloses⟩ := h t List.mem_cons_self
    rw [List.cons_append, settle_of_none hcloser, hcloses, if_neg Bool.false_ne_true,
      ih fun t ht => h t (List.mem_cons_of_mem _ ht), List.map_cons, sourceOf_cons, List.append_assoc]

/-- A dropped block is passed over. -/
theorem settle_dropped (h : e ∉ ts) (written : Text) (us : List Located) :
    settle f pairs decision written (some e) (ts ++ e :: us) = settle f pairs decision written none us := by
  induction ts with
  | nil => rw [List.nil_append, settle_of_dropping, if_pos rfl]
  | cons t ts ih =>
    have ht : t ≠ e := fun heq => h (heq ▸ List.mem_cons_self)
    rw [List.cons_append, settle_of_dropping, if_neg ht, ih fun he => h (List.mem_cons_of_mem _ he)]

/-- An end marker that closes something else does not matter. -/
theorem settle_without_closer (hcloser : closerIn pairs e = none) (hcloses : closesIn pairs e = true)
    (h : ∀ t ∈ ts, closerIn pairs t ≠ some e) (written : Text) (dropping : Option Located)
    (hdropping : dropping ≠ some e) (us : List Located) :
    settle f pairs decision written dropping (ts ++ e :: us) =
      settle f pairs decision written dropping (ts ++ us) := by
  have hnone : none ≠ some e := (Option.some_ne_none e).symm
  induction ts generalizing written dropping with
  | nil =>
    cases dropping with
    | none =>
      rw [List.nil_append, settle_of_none hcloser, hcloses, if_pos rfl]
      rfl
    | some d =>
      have hd : e ≠ d := fun heq => hdropping (congrArg some heq.symm)
      rw [List.nil_append, settle_of_dropping, if_neg hd]
      rfl
  | cons t ts ih =>
    have hrest := ih fun t ht => h t (List.mem_cons_of_mem _ ht)
    rw [List.cons_append, List.cons_append]
    cases dropping with
    | some d =>
      rw [settle_of_dropping, settle_of_dropping]
      refine hrest written _ ?_
      split
      · exact hnone
      · exact hdropping
    | none =>
      unfold settle
      split
      · rename_i d cs hd hcs
        refine congrArg _ (funext fun kept => hrest written _ ?_)
        split
        · exact hnone
        · exact hd ▸ h t List.mem_cons_self
      · exact hrest _ none hnone

end Pass

/-! ## 2. The first block -/

/-- A start marker without an end leaves the pairs as they are. -/
theorem BlockFamily.pairs_of_open (os : List Located) {open_ ts : List Located}
    (h : findClose f os.length (ts.map (·.1)) = none) :
    (f.pairing (os ++ open_) ts).pairs = (f.pairing os ts).pairs := by
  refine BlockFamily.induct_unclosed
    (motive := fun os ts => (f.pairing (os ++ open_) ts).pairs = (f.pairing os ts).pairs) ?_ ?_ ?_ ?_ os h
  all_goals unfold pairing
  · exact fun _ => rfl
  · intro os t ts ho ih
    rw [Pairing.ofMarkers_of_start ho, Pairing.ofMarkers_of_start ho]
    exact ih
  · intro p os t ts ho hc ih
    rw [List.cons_append, Pairing.ofMarkers_of_end_cons ho hc, Pairing.ofMarkers_of_end_cons ho hc]
    exact congrArg (List.cons (p, t)) ih
  · intro os t ts ho hc ih
    rw [Pairing.ofMarkers_of_other ho hc, Pairing.ofMarkers_of_other ho hc]
    exact ih

/-- What is in a pair is among the tokens. -/
theorem BlockFamily.mem_of_mem_pairs {ts : List Located} {p : Located × Located}
    (h : p ∈ (f.pairing [] ts).pairs) : p.1 ∈ ts ∧ p.2 ∈ ts := by
  have hstart := (Pairing.perm_starts f.isOpening f.isClosing [] ts).mem_iff.1
    (List.mem_append_left _ (List.mem_map_of_mem h))
  have hend := (Pairing.perm_ends f.isOpening f.isClosing [] ts).mem_iff.1
    (List.mem_append_left _ (List.mem_map_of_mem h))
  exact ⟨(List.mem_filter.1 hstart).1, (List.mem_filter.1 hend).1⟩

/-- The first block that a search finds among tokens, and the pairs of the tokens by its parts. -/
structure FirstBlock (f : BlockFamily) (ts : List Located) (m : BlockMatch) (left : List Located)
    (o : Located) (inner : List Located) (e : Located) (right : List Located) : Prop where
  tokens : ts = left ++ o :: (inner ++ e :: right)
  eq : m = ⟨m.captures, left.map (·.1), o.1, inner.map (·.1), e.1, right.map (·.1)⟩
  captures : f.opens.captures o.1.name = some m.captures
  balanced : Balanced f (inner.map (·.1))
  pairs : (f.pairing [] ts).pairs = (f.pairing [] inner).pairs ++ (o, e) :: (f.pairing [] right).pairs

/-- A token that opens no block which is closed leaves the pairs behind it as they are. -/
theorem BlockFamily.pairs_cons {t : Located} {ts : List Located}
    (h : f.isOpening t.1 = false ∨ findClose f 0 (ts.map (·.1)) = none) :
    (f.pairing [] (t :: ts)).pairs = (f.pairing [] ts).pairs := by
  by_cases ho : f.isOpening t.1 = true
  · have hclose := h.resolve_left (by rw [ho]; exact Bool.false_ne_true.symm)
    have hstart : f.pairing [] (t :: ts) = f.pairing [t] ts := Pairing.ofMarkers_of_start ho
    rw [hstart]
    exact pairs_of_open [] hclose
  · rw [Bool.not_eq_true] at ho
    unfold pairing
    by_cases hc : f.isClosing t.1 = true
    · rw [Pairing.ofMarkers_of_end_nil ho hc]
    · rw [Pairing.ofMarkers_of_other ho (Bool.eq_false_iff.2 hc)]

theorem BlockFamily.pairs_of_findBlock_eq_none {ts : List Located} (h : findBlock f (ts.map (·.1)) = none) :
    (f.pairing [] ts).pairs = [] := by
  induction ts with
  | nil => rfl
  | cons t ts ih =>
    have hopen : f.isOpening t.1 = false ∨ findClose f 0 (ts.map (·.1)) = none := by
      cases ho : f.isOpening t.1 with
      | false => exact .inl rfl
      | true => exact .inr (findClose_of_findBlock_eq_none h (l := []) rfl ho)
    rw [List.map_cons, findBlock_cons_of_open hopen, Option.map_eq_none_iff] at h
    rw [pairs_cons hopen, ih h]

/-- **The stack pairs the markers of the first block, those in it, and those behind it, each by themselves.** -/
theorem exists_firstBlock {ts : List Located} {m : BlockMatch} (h : findBlock f (ts.map (·.1)) = some m) :
    ∃ left o inner e right, FirstBlock f ts m left o inner e right := by
  induction ts generalizing m with
  | nil => cases h
  | cons t ts ih =>
    rw [List.map_cons] at h
    -- the token stands in front of the block
    have hskip : f.isOpening t.1 = false ∨ findClose f 0 (ts.map (·.1)) = none →
        ∃ left o inner e right, FirstBlock f (t :: ts) m left o inner e right := by
      intro hopen
      rw [findBlock_cons_of_open hopen] at h
      obtain ⟨m', hm', rfl⟩ := Option.map_eq_some_iff.1 h
      obtain ⟨left, o, inner, e, right, hfirst⟩ := ih hm'
      refine ⟨t :: left, o, inner, e, right, ?_, ?_, hfirst.captures, hfirst.balanced, ?_⟩
      · rw [hfirst.tokens]
        rfl
      · rw [hfirst.eq]
        rfl
      · rw [BlockFamily.pairs_cons hopen, hfirst.pairs]
    by_cases ho : f.isOpening t.1 = true
    · cases hclose : findClose f 0 (ts.map (·.1)) with
      | none => exact hskip (.inr hclose)
      | some c =>
        obtain ⟨cs, hcs, hfound⟩ := findBlock_cons_of_closed ho hclose
        obtain rfl := Option.some.inj (hfound.symm.trans h)
        have hclosing := isClosing_of_findClose hclose
        have hbalanced := balanced_of_findClose hclose
        obtain ⟨inner, rest, rfl, hinner, hrest⟩ := List.map_eq_append_iff.1 (tokens_findClose hclose)
        obtain ⟨e, right, rfl, he, hright⟩ := List.map_eq_cons_iff.1 hrest
        rw [← hinner] at hbalanced
        rw [← he] at hclosing
        refine ⟨[], t, inner, e, right, rfl, ?_, hcs, hbalanced, ?_⟩
        · rw [← hinner, ← he, ← hright]
          rfl
        · have hstart : f.pairing [] (t :: (inner ++ e :: right)) = f.pairing [t] (inner ++ e :: right) :=
            Pairing.ofMarkers_of_start ho
          have hend : f.pairing [t] (e :: right) = (f.pairing [] right).behind [(t, e)] [] :=
            Pairing.ofMarkers_of_end_cons (f.not_isOpening_of_isClosing hclosing) hclosing
          rw [hstart, BlockFamily.pairing_append_of_balanced hbalanced, hend]
          rfl
    · exact hskip (.inl (Bool.eq_false_iff.2 ho))

/-! ## 3. What pairs say of a token -/

section Lookups

variable {ins outs : List (Located × Located)} {inner right : List Located} {t o e : Located}

/-- The pairs are made of these tokens. -/
def MadeOf (pairs : List (Located × Located)) (ts : List Located) : Prop := ∀ p ∈ pairs, p.1 ∈ ts ∧ p.2 ∈ ts

theorem madeOf_pairing (f : BlockFamily) (ts : List Located) : MadeOf (f.pairing [] ts).pairs ts :=
  fun _ => BlockFamily.mem_of_mem_pairs

theorem mem_of_closerIn (h : closerIn ins t = some e) : (t, e) ∈ ins := by
  obtain ⟨p, hp, rfl⟩ := Option.map_eq_some_iff.1 h
  have hfst : p.1 = t := by simpa using List.find?_some hp
  rw [← hfst]
  exact List.mem_of_find?_eq_some hp

/-- Pairs of other tokens say nothing of a token. -/
theorem lookups_of_not_mem (h : MadeOf ins inner) (ht : t ∉ inner) :
    closerIn ins t = none ∧ closesIn ins t = false := by
  have hfst : ∀ p ∈ ins, p.1 ≠ t := fun p hp heq => ht (heq ▸ (h p hp).1)
  have hsnd : ∀ p ∈ ins, p.2 ≠ t := fun p hp heq => ht (heq ▸ (h p hp).2)
  have hnone : ins.find? (fun p => p.1 = t) = none := List.find?_eq_none.2 fun p hp => by simpa using hfst p hp
  constructor
  · rw [closerIn, hnone]
    rfl
  · exact List.any_eq_false.2 fun p hp => by simpa using hsnd p hp

theorem closerIn_append (ins outs : List (Located × Located)) (t : Located) :
    closerIn (ins ++ outs) t = (closerIn ins t).or (closerIn outs t) := by
  unfold closerIn
  rw [List.find?_append]
  cases ins.find? fun p => p.1 = t <;> rfl

theorem closesIn_append (ins outs : List (Located × Located)) (t : Located) :
    closesIn (ins ++ outs) t = (closesIn ins t || closesIn outs t) := List.any_append

theorem lookups_append_of_not_mem (h : MadeOf ins inner) (ht : t ∉ inner) (outs : List (Located × Located)) :
    closerIn (ins ++ outs) t = closerIn outs t ∧ closesIn (ins ++ outs) t = closesIn outs t := by
  obtain ⟨hcloser, hcloses⟩ := lookups_of_not_mem h ht
  rw [closerIn_append, closesIn_append, hcloser, hcloses]
  exact ⟨rfl, rfl⟩

theorem lookups_cons_of_ne (ho : o ≠ t) (he : e ≠ t) (outs : List (Located × Located)) :
    closerIn ((o, e) :: outs) t = closerIn outs t ∧ closesIn ((o, e) :: outs) t = closesIn outs t := by
  unfold closerIn closesIn
  rw [List.find?_cons_of_neg (by simpa using ho), List.any_cons, decide_eq_false he]
  exact ⟨rfl, rfl⟩

/-- A pair says nothing of other tokens. -/
theorem lookups_without (ho : o ≠ t) (he : e ≠ t) :
    closerIn (ins ++ (o, e) :: outs) t = closerIn (ins ++ outs) t ∧
      closesIn (ins ++ (o, e) :: outs) t = closesIn (ins ++ outs) t := by
  obtain ⟨hcloser, hcloses⟩ := lookups_cons_of_ne ho he outs
  rw [closerIn_append, closesIn_append, closerIn_append, closesIn_append, hcloser, hcloses]
  exact ⟨rfl, rfl⟩

/-- What the pairs of a block say of its start marker. -/
theorem closerIn_start (h : MadeOf ins inner) (ho : o ∉ inner) :
    closerIn (ins ++ (o, e) :: outs) o = some e := by
  rw [closerIn_append, (lookups_of_not_mem h ho).1, Option.none_or, closerIn, List.find?_cons_of_pos (by simp)]
  rfl

/-- What the pairs of a block say of its end marker. -/
theorem lookups_end (hin : MadeOf ins inner) (hout : MadeOf outs right) (hei : e ∉ inner) (hoe : o ≠ e)
    (her : e ∉ right) :
    closerIn (ins ++ (o, e) :: outs) e = none ∧ closesIn (ins ++ (o, e) :: outs) e = true := by
  constructor
  · have hother : closerIn ((o, e) :: outs) e = closerIn outs e := by
      unfold closerIn
      rw [List.find?_cons_of_neg (by simpa using hoe)]
    rw [closerIn_append, (lookups_of_not_mem hin hei).1, Option.none_or, hother, (lookups_of_not_mem hout her).1]
  · exact List.any_eq_true.2 ⟨(o, e), List.mem_append_right _ List.mem_cons_self, decide_eq_true rfl⟩

/-- An end marker closes no other start marker than its own. -/
theorem closerIn_ne_end (hin : MadeOf ins inner) (hout : MadeOf outs right) (hei : e ∉ inner) (her : e ∉ right)
    (ht : t ≠ o) : closerIn (ins ++ (o, e) :: outs) t ≠ some e := by
  intro hsome
  rcases List.mem_append.1 (mem_of_closerIn hsome) with hmem | hmem
  · exact hei (hin _ hmem).2
  · rcases List.mem_cons.1 hmem with heq | hmem
    · exact ht (Prod.mk.inj heq).1
    · exact her (hout _ hmem).2

end Lookups

/-- What the pairs say of the tokens around the first block. -/
structure FirstBlock.Lookups (f : BlockFamily) (ts left : List Located) (o : Located) (inner : List Located)
    (e : Located) (right : List Located) : Prop where
  before : ∀ t ∈ left, closerIn (f.pairing [] ts).pairs t = none ∧ closesIn (f.pairing [] ts).pairs t = false
  opens : closerIn (f.pairing [] ts).pairs o = some e
  closes : closerIn (f.pairing [] ts).pairs e = none ∧ closesIn (f.pairing [] ts).pairs e = true
  /-- the end marker closes nothing in the block -/
  inside : ∀ t ∈ inner, closerIn (f.pairing [] ts).pairs t ≠ some e
  within : ∀ t ∈ inner, closerIn (f.pairing [] ts).pairs t = closerIn (f.pairing [] inner).pairs t
  /-- without the markers of the block the pairs are the same -/
  kept : ∀ t ∈ inner ++ right,
    closerIn (f.pairing [] ts).pairs t = closerIn (f.pairing [] (inner ++ right)).pairs t ∧
      closesIn (f.pairing [] ts).pairs t = closesIn (f.pairing [] (inner ++ right)).pairs t
  /-- so they are without the block -/
  behind : ∀ t ∈ right, closerIn (f.pairing [] ts).pairs t = closerIn (f.pairing [] right).pairs t ∧
    closesIn (f.pairing [] ts).pairs t = closesIn (f.pairing [] right).pairs t

theorem FirstBlock.lookups {ts left inner right : List Located} {o e : Located} {found : BlockMatch}
    (h : FirstBlock f ts found left o inner e right) (hnodup : ts.Nodup) :
    Lookups f ts left o inner e right := by
  -- the parts of the tokens have nothing in common
  obtain ⟨-, hbehind, hapart⟩ := List.nodup_append.1 (h.tokens ▸ hnodup)
  obtain ⟨ho, hinside⟩ := List.nodup_cons.1 hbehind
  obtain ⟨-, hend, hdisjoint⟩ := List.nodup_append.1 hinside
  obtain ⟨her, -⟩ := List.nodup_cons.1 hend
  simp only [List.mem_append, List.mem_cons, not_or] at ho
  obtain ⟨hoi, hoe, hor⟩ := ho
  have hei : e ∉ inner := fun hmem => hdisjoint e hmem e List.mem_cons_self rfl
  have hin := madeOf_pairing f inner
  have hout := madeOf_pairing f right
  constructor
  all_goals rw [h.pairs]
  case before =>
    intro t ht
    have hne := hapart t ht
    have hti : t ∉ inner := fun hmem => hne t (List.mem_cons_of_mem _ (List.mem_append_left _ hmem)) rfl
    have htr : t ∉ right := fun hmem =>
      hne t (List.mem_cons_of_mem _ (List.mem_append_right _ (List.mem_cons_of_mem _ hmem))) rfl
    have hto : o ≠ t := (hne o List.mem_cons_self).symm
    have hte : e ≠ t := (hne e (List.mem_cons_of_mem _ (List.mem_append_right _ List.mem_cons_self))).symm
    obtain ⟨hcloser, hcloses⟩ := lookups_append_of_not_mem hin hti ((o, e) :: (f.pairing [] right).pairs)
    obtain ⟨hcloser', hcloses'⟩ := lookups_cons_of_ne hto hte (f.pairing [] right).pairs
    rw [hcloser, hcloses, hcloser', hcloses']
    exact lookups_of_not_mem hout htr
  case opens => exact closerIn_start hin hoi
  case closes => exact lookups_end hin hout hei hoe her
  case inside => exact fun t ht => closerIn_ne_end hin hout hei her fun heq => hoi (heq ▸ ht)
  case within =>
    intro t ht
    have htr : t ∉ right := fun hmem => hdisjoint t ht t (List.mem_cons_of_mem _ hmem) rfl
    have hot : o ≠ t := fun heq => hoi (heq ▸ ht)
    have het : e ≠ t := fun heq => hei (heq ▸ ht)
    rw [closerIn_append, (lookups_cons_of_ne hot het _).1, (lookups_of_not_mem hout htr).1, Option.or_none]
  case kept =>
    intro t ht
    rw [BlockFamily.pairing_append_of_balanced h.balanced]
    refine lookups_without (fun heq => ?_) fun heq => ?_
    · rw [← heq] at ht
      exact (List.mem_append.1 ht).elim hoi hor
    · rw [← heq] at ht
      exact (List.mem_append.1 ht).elim hei her
  case behind =>
    intro t ht
    have hti : t ∉ inner := fun hmem => hdisjoint t hmem t (List.mem_cons_of_mem _ ht) rfl
    obtain ⟨hcloser, hcloses⟩ := lookups_append_of_not_mem hin hti ((o, e) :: (f.pairing [] right).pairs)
    have hot : o ≠ t := fun heq => hor (heq ▸ ht)
    have het : e ≠ t := fun heq => her (heq ▸ ht)
    rw [hcloser, hcloses]
    exact lookups_cons_of_ne hot het _

/-- **What the pass does at the first block**: it writes what stands before, asks, and goes on with what is left
    by the pairs of that alone. -/
theorem settle_of_firstBlock {m : Type → Type v} [Monad m] {decision : List Text → m Bool}
    {ts left inner right : List Located} {o e : Located} {found : BlockMatch}
    (h : FirstBlock f ts found left o inner e right) (hnodup : ts.Nodup) (written : Text) :
    settle f (f.pairing [] ts).pairs decision written none ts =
      (do let kept ← decision found.captures
          let rest := if kept then inner ++ right else right
          settle f (f.pairing [] rest).pairs decision (written ++ sourceOf (left.map (·.1))) none rest) := by
  have hlookups := h.lookups hnodup
  obtain ⟨-, hbehind, -⟩ := List.nodup_append.1 (h.tokens ▸ hnodup)
  obtain ⟨-, -, hdisjoint⟩ := List.nodup_append.1 (List.nodup_cons.1 hbehind).2
  have hei : e ∉ inner := fun hmem => hdisjoint e hmem e List.mem_cons_self rfl
  refine (congrArg (settle f (f.pairing [] ts).pairs decision written none) h.tokens).trans ?_
  rw [settle_of_unpaired hlookups.before, settle_of_closer hlookups.opens h.captures]
  refine congrArg _ (funext fun kept => ?_)
  cases kept with
  | true =>
    -- the end marker is passed over, and what is left has the pairs it has by itself
    dsimp only
    rw [if_pos rfl, if_pos rfl, settle_without_closer hlookups.closes.1 hlookups.closes.2 hlookups.inside _ none
      (Option.some_ne_none e).symm]
    exact settle_congr hlookups.kept _ none
  | false =>
    dsimp only
    rw [if_neg Bool.false_ne_true, if_neg Bool.false_ne_true, settle_dropped hei]
    exact settle_congr hlookups.behind _ none

/-! ## 4. The walk at the first block -/

theorem not_unfinished_nil : ¬ Unfinished [] := by
  intro ⟨s, r, b, hs, hne, _⟩
  exact hne (List.suffix_nil.1 hs)

theorem not_unfinished_placeholder (ks : List Token) {b : Text} (hb : IsBody b) :
    ¬ Unfinished (sourceOf (ks ++ [.placeholder b])) := by
  rw [sourceOf_append, sourceOf_cons, sourceOf_nil, List.append_nil]
  exact not_unfinished_braced _ hb

/-- A text that ends in the beginning of a placeholder has a last literal that does. -/
theorem exists_literal_of_unfinished {ks : List Token} (hks : WellCut ks) (h : Unfinished (sourceOf ks)) :
    ∃ js l, ks = js ++ [.literal l] ∧ Unfinished l := by
  rcases List.eq_nil_or_concat' ks with hnil | ⟨js, k, hlast⟩
  · rw [hnil] at h
    exact absurd h not_unfinished_nil
  · rw [hlast] at h hks
    cases k with
    | placeholder b => exact absurd h (not_unfinished_placeholder js hks.of_append.body)
    | literal l =>
      refine ⟨js, l, hlast, ?_⟩
      rw [sourceOf_append, sourceOf_cons, sourceOf_nil, List.append_nil] at h
      refine (unfinished_append h).resolve_left fun hfront => ?_
      -- what stands in front of the literal ends with a placeholder
      rcases List.eq_nil_or_concat' js with hnil | ⟨is, j, hfrontLast⟩
      · rw [hnil] at hfront
        exact not_unfinished_nil hfront
      · rw [hfrontLast] at hfront hks
        rw [List.append_assoc] at hks
        cases j with
        | placeholder b => exact not_unfinished_placeholder is hks.of_append.body hfront
        | literal m => cases hks.of_append

/-- A text whose literals in front of markers of a kind are finished is guarded. -/
theorem guardedBy_of_tokens {p : Token → Bool} {t : Text}
    (h : ∀ l e, [.literal l, e] <:+: tokenize t → p e = true → ¬ Unfinished l) : GuardedBy p t := by
  intro a b r ht hb hp hu
  rw [← source_tokenize a] at hu
  obtain ⟨js, l, hl, hunfinished⟩ := exists_literal_of_unfinished (wellCut_tokenize a) hu
  refine h l (.placeholder b) ⟨js, tokenize r, ?_⟩ hp hunfinished
  rw [ht, tokenize_append_braced a hb, hl, List.append_assoc, List.append_assoc]
  rfl

/-- A test that no literal in front of a token of a kind ends in the beginning of a placeholder. -/
def literalsFinished (p : Token → Bool) : List Token → Bool
  | .literal l :: e :: ts => (!p e || !l.tails.any beginsPlaceholder) && literalsFinished p (e :: ts)
  | _ :: ts => literalsFinished p ts
  | [] => true

theorem finished_of_literalsFinished {p : Token → Bool} {ts : List Token} (h : literalsFinished p ts = true)
    (l : Text) (e : Token) (hl : [.literal l, e] <:+: ts) (he : p e = true) : ¬ Unfinished l := by
  fun_induction literalsFinished p ts with
  | case1 k d ts ih =>
    obtain ⟨hfirst, hrest⟩ := Bool.and_eq_true_iff.1 h
    rcases List.infix_cons_iff.1 hl with hprefix | hl
    · obtain ⟨hk, hd⟩ := List.cons_prefix_cons.1 hprefix
      obtain rfl := Token.literal.inj hk
      obtain ⟨rfl, -⟩ := List.cons_prefix_cons.1 hd
      rw [he, Bool.not_true, Bool.false_or, Bool.not_eq_true'] at hfirst
      exact not_unfinished_of_tails hfirst
    · exact ih hrest hl
  | case2 k ts hk ih =>
    rcases List.infix_cons_iff.1 hl with hprefix | hl
    · obtain ⟨rfl, hd⟩ := List.cons_prefix_cons.1 hprefix
      obtain ⟨d, ts, rfl⟩ : ∃ d us, ts = d :: us := by
        cases ts with
        | nil => exact absurd (List.prefix_nil.1 hd) (List.cons_ne_nil _ _)
        | cons d us => exact ⟨d, us, rfl⟩
      exact absurd rfl (hk l d ts rfl)
    · exact ih h hl
  | case3 => exact absurd (List.infix_nil.1 hl) (List.cons_ne_nil _ _)

theorem spelling_spell : Spelling Token.spell where
  literal _ k hk := by
    obtain ⟨c, -, rfl⟩ := List.mem_map.1 hk
    rfl
  placeholder _ := rfl

/-- What a block leaves of the text it was found in, by what it spells: what is left of its contents finishes
    nothing, so nothing comes of putting the text behind it there. -/
structure Block.Spells (f : BlockFamily) (b : Block) (before : Text) (m : BlockMatch) : Prop where
  head : b.head.unspaced = before.unspaced ++ (sourceOf m.left).unspaced
  inner_finished : ¬ Unfinished b.inner
  inner_guarded : GuardedBy f.isClosing b.inner
  inner : spelled (tokenize b.inner) = spelled m.inner
  tail_guarded : GuardedBy f.isClosing b.tail
  tail : spelled (tokenize b.tail) = spelled m.right

theorem unspaced_aheadOfLine {t : Text} (h : (Text.lastLine t).all isPadding = true) :
    t.aheadOfLine.unspaced = t.unspaced := by
  have heq := unspaced_eq_of_spelled_eq (spelled_aheadOfLine h)
  rwa [source_tokenize, source_tokenize] at heq

theorem spells_ofMatch {rest : Text} {m : BlockMatch} (hm : findBlock f (tokenize rest) = some m)
    (hguarded : GuardedBy f.isClosing rest) (before : Text) : (Block.ofMatch before m).Spells f before m := by
  obtain ⟨o, e, hsplits⟩ := exists_splits hm
  obtain ⟨-, hhead, hinner, htail⟩ := Block.ofMatch_eq before hsplits.opening hsplits.closing
  have hclosing := isClosing_of_findClose (isFirst_of_findBlock hm).closed
  rw [hsplits.closing] at hclosing
  have hrest := hsplits.text
  have hfinished : ¬ Unfinished (sourceOf m.inner) := by
    intro h
    refine hguarded (sourceOf m.left ++ (braced o ++ sourceOf m.inner)) e (sourceOf m.right) ?_
      hsplits.closing_body hclosing (h.of_suffix ⟨sourceOf m.left ++ braced o, ?_⟩)
    · rw [hrest]
      simp only [List.append_assoc]
    · simp only [List.append_assoc]
  have hinnerGuarded : GuardedBy f.isClosing (sourceOf m.inner) := by
    refine hguarded.of_infix (x := sourceOf m.left ++ braced o) (z := braced e ++ sourceOf m.right) ?_
    rw [hrest]
    simp only [List.append_assoc]
  have hrightGuarded : GuardedBy f.isClosing (sourceOf m.right) := by
    refine hguarded.of_infix (x := sourceOf m.left ++ (braced o ++ (sourceOf m.inner ++ braced e))) (z := []) ?_
    rw [hrest]
    simp only [List.append_assoc, List.append_nil]
  obtain ⟨hinFinished, hinGuarded, hinSpelled⟩ :=
    innerLines_leaves (before ++ sourceOf m.left) (sourceOf m.right) hfinished hinnerGuarded
  obtain ⟨htailGuarded, htailSpelled⟩ := behindLine_leaves (sourceOf m.inner) hrightGuarded
  rw [← hinner] at hinFinished hinGuarded hinSpelled
  rw [← htail] at htailGuarded htailSpelled
  rw [hsplits.inner] at hinSpelled
  rw [hsplits.right] at htailSpelled
  refine ⟨?_, hinFinished, hinGuarded, hinSpelled, htailGuarded, htailSpelled⟩
  rw [hhead, ← Text.unspaced_append]
  split
  · rename_i h
    exact unspaced_aheadOfLine (Bool.and_eq_true_iff.1 h).1
  · rfl

/-! ## 5. The walk and the pass -/

section Walk

variable {m : Type → Type v} [Monad m] [LawfulMonad m]

/-- **From a point of the text on a walk does what the pass does**, where the rest of the text spells what the
    tokens spell that the pass still goes over, and both wrote the same up to there. -/
theorem keepFrom_settles (decision : List Text → m Bool) {before rest written : Text} {ts : List Located}
    (hnodup : ts.Nodup) (hspelled : spelled (tokenize rest) = spelled (ts.map (·.1)))
    (hguarded : GuardedBy f.isClosing rest) (hwritten : before.unspaced = written.unspaced) :
    Text.unspaced <$> keepFrom f decision before rest =
      Text.unspaced <$> settle f (f.pairing [] ts).pairs decision written none ts := by
  induction hn : ts.length using Nat.strong_induction_on generalizing before rest written ts with
  | _ n ih =>
    have hwalk := walksBy_keepFrom f decision
    -- what is found in what both spell is found in both
    have hfind := (findBlock_spelledBy (f := f) spelling_spell (tokenize rest)).symm.trans
      ((congrArg (findBlock f) hspelled).trans (findBlock_spelledBy spelling_spell (ts.map (·.1))))
    cases hfound : findBlock f (tokenize rest) with
    | none =>
      rw [hfound] at hfind
      have hnone := Option.map_eq_none_iff.1 hfind.symm
      have hpairs := BlockFamily.pairs_of_findBlock_eq_none hnone
      have hall := unspaced_eq_of_spelled_eq hspelled
      rw [source_tokenize] at hall
      have hpass : settle f [] decision written none (ts ++ []) =
          settle f [] decision (written ++ sourceOf (ts.map (·.1))) none [] :=
        settle_of_unpaired (fun t _ => ⟨rfl, rfl⟩) written []
      rw [List.append_nil] at hpass
      rw [hwalk.ends hfound, hpairs, hpass, settle, map_pure, map_pure, Text.unspaced_append,
        Text.unspaced_append, hwritten, hall]
    | some found =>
      rw [hfound, Option.map_some] at hfind
      obtain ⟨found', hfound', hsame⟩ := Option.map_eq_some_iff.1 hfind.symm
      obtain ⟨left, o, inner, e, right, hfirst⟩ := exists_firstBlock hfound'
      have hspells := spells_ofMatch hfound hguarded before
      have hcaptures : (Block.ofMatch before found).captures = found'.captures :=
        (Block.captures_ofMatch before found).trans (congrArg BlockMatch.captures hsame).symm
      have hleft : spelled found.left = spelled (left.map (·.1)) :=
        (congrArg BlockMatch.left hsame).symm.trans (by rw [hfirst.eq]; rfl)
      have hinner : spelled found.inner = spelled (inner.map (·.1)) :=
        (congrArg BlockMatch.inner hsame).symm.trans (by rw [hfirst.eq]; rfl)
      have hright : spelled found.right = spelled (right.map (·.1)) :=
        (congrArg BlockMatch.right hsame).symm.trans (by rw [hfirst.eq]; rfl)
      have hhead : (Block.ofMatch before found).head.unspaced =
          (written ++ sourceOf (left.map (·.1))).unspaced := by
        rw [hspells.head, Text.unspaced_append, hwritten, unspaced_eq_of_spelled_eq hleft]
      have hkeep : (inner ++ right).Sublist ts := by
        rw [hfirst.tokens]
        exact (((List.sublist_cons_self e right).append_left inner).cons o).trans (List.sublist_append_right left _)
      have hlength := congrArg List.length hfirst.tokens
      simp only [List.length_append, List.length_cons] at hlength
      rw [hwalk.goes hfound, settle_of_firstBlock hfirst hnodup, keepStep, hcaptures]
      simp only [map_bind, bind_assoc, pure_bind]
      refine bind_congr fun kept => ?_
      cases kept with
      | true =>
        rw [if_pos rfl, if_pos rfl]
        refine ih (inner ++ right).length ?_ ?_ ?_ ?_ hhead rfl
        · rw [List.length_append]
          omega
        · exact hnodup.sublist hkeep
        · rw [spelled_tokenize_append hspells.inner_finished, hspells.inner, hspells.tail, hinner, hright,
            ← spelled_append, List.map_append]
        · exact hspells.inner_guarded.append hspells.tail_guarded hspells.inner_finished
      | false =>
        rw [if_neg Bool.false_ne_true, if_neg Bool.false_ne_true]
        refine ih right.length ?_ ?_ ?_ hspells.tail_guarded hhead rfl
        · omega
        · exact hnodup.sublist ((List.sublist_append_right inner right).trans hkeep)
        · rw [hspells.tail, hright]

/-- **Conditions go by the blocks of the original text**: its markers are paired with a stack, the decision is
    asked once at each paired start marker that is not in a dropped block, in the order they stand in, and what is
    left is the text without the paired markers and the dropped blocks, up to spaces, tabs and line ends. -/
theorem keepBlocksM_settles {t : Text}
    (h : ∀ l e, [.literal l, e] <:+: tokenize t → f.isClosing e = true → ¬ Unfinished l)
    (decision : List Text → m Bool) :
    Text.unspaced <$> keepBlocksM f t decision =
      Text.unspaced <$> settle f (f.pairing [] (locate t)).pairs decision [] none (locate t) := by
  rw [keepBlocksM_eq]
  refine keepFrom_settles decision (nodup_locate t) ?_ (guardedBy_of_tokens h) rfl
  rw [map_locate]

end Walk

/-- Blocks of a family with a part of the name that is captured. -/
def hasFamily : BlockFamily :=
  ⟨.parts [.fixed "Has_".toList, .captured, .fixed "_Start".toList], .literal "Has_End".toList⟩

/-- A block in a block, a start marker without an end and an end marker without a start. -/
def nestedText : Text :=
  braced "Has_End".toList ++ "x ".toList ++ braced "Has_A_Start".toList ++ "a".toList ++
    braced "Has_B_Start".toList ++ "b".toList ++ braced "Has_End".toList ++ "c".toList ++
    braced "Has_End".toList ++ "d".toList

theorem keepBlocksM_settles_nested :
    (∀ l e, [.literal l, e] <:+: tokenize nestedText → hasFamily.isClosing e = true → ¬ Unfinished l) ∧
      Text.unspaced (keepBlocksM (m := Id) hasFamily nestedText fun cs => pure (cs == ["A".toList])) =
        Text.unspaced (settle (m := Id) hasFamily (hasFamily.pairing [] (locate nestedText)).pairs
          (fun cs => pure (cs == ["A".toList])) [] none (locate nestedText)) := by
  have h : literalsFinished hasFamily.isClosing (tokenize nestedText) = true := by decide +kernel
  exact ⟨finished_of_literalsFinished h, keepBlocksM_settles (m := Id) (finished_of_literalsFinished h) _⟩

/-- The outer block is kept and the one in it dropped; the end marker in front of both stays. -/
example : keepBlocks hasFamily nestedText (fun cs => cs == ["A".toList]) =
    braced "Has_End".toList ++ "x acd".toList := by
  decide +kernel

end RecordExport

import Mathlib.Data.List.Forall2
import RecordExport.Template.NameExpr
/-!
# What an expression takes of a name

An expression takes a part of a name in WAYS: it goes through its sides and rounds, and its groups hold what
they take on the way. What stands ahead of the part and behind it matters where a place is tested.

* `Takes`: the ways, constructor by constructor;
* `takes_row`, `takes_choice`: a row and a choice are put together such that they say less and take the same, in
  the same ways;
* `Simplifies`: another expression takes the same, and its groups hold the same in the end, though it may lose
  ways.
-/

namespace RecordExport

/-! ## 1. Ways -/

/-- **The ways of an expression to take a part of a name**, given the text ahead of the part and the text behind.
    A way tells what the groups held, each by its number, in the order in which they ended. -/
inductive Takes : (ahead : Text) → NameExpr → (taken behind : Text) → (held : List (Nat × Text)) → Prop
  | word {u v : Text} (cs : List Char) : Takes u (.word cs) cs v []
  | oneOf {u v : Text} {s : CharSet} {c : Char} (h : s.contains c = true) : Takes u (.oneOf s) [c] v []
  | place {u v : Text} {t : PlaceTest} (h : t.holds u.getLast? v.head? = true) : Takes u (.place t) [] v []
  | seq {u x y v : Text} {a b : NameExpr} {hs ks : List (Nat × Text)} (first : Takes u a x (y ++ v) hs)
      (second : Takes (u ++ x) b y v ks) : Takes u (.seq a b) (x ++ y) v (hs ++ ks)
  | left {u x v : Text} {a b : NameExpr} {hs : List (Nat × Text)} (side : Takes u a x v hs) : Takes u (.alt a b) x v hs
  | right {u x v : Text} {a b : NameExpr} {hs : List (Nat × Text)} (side : Takes u b x v hs) :
      Takes u (.alt a b) x v hs
  | skip {u v : Text} {greedy : Bool} {a : NameExpr} : Takes u (.optional greedy a) [] v []
  | once {u x v : Text} {greedy : Bool} {a : NameExpr} {hs : List (Nat × Text)} (part : Takes u a x v hs) :
      Takes u (.optional greedy a) x v hs
  | lastRound {u x v : Text} {greedy : Bool} {a : NameExpr} {hs : List (Nat × Text)} (round : Takes u a x v hs) :
      Takes u (.many greedy a) x v hs
  | round {u x y v : Text} {greedy : Bool} {a : NameExpr} {hs ks : List (Nat × Text)}
      (round : Takes u a x (y ++ v) hs) (rounds : Takes (u ++ x) (.many greedy a) y v ks) :
      Takes u (.many greedy a) (x ++ y) v (hs ++ ks)
  | noRound {u v : Text} {greedy : Bool} {a : NameExpr} : Takes u (.anyMany greedy a) [] v []
  | rounds {u x v : Text} {greedy : Bool} {a : NameExpr} {hs : List (Nat × Text)}
      (rounds : Takes u (.many greedy a) x v hs) : Takes u (.anyMany greedy a) x v hs
  | whole {u x v : Text} {a : NameExpr} {hs : List (Nat × Text)} (inside : Takes u a x v hs) :
      Takes u (.whole a) x v hs
  | group {u x v : Text} {i : Nat} {a : NameExpr} {hs : List (Nat × Text)} (inside : Takes u a x v hs) :
      Takes u (.group i a) x v (hs ++ [(i, x)])

variable {u x v : Text} {e e' a b : NameExpr} {hs : List (Nat × Text)}

theorem takes_word_iff {cs : List Char} : Takes u (.word cs) x v hs ↔ x = cs ∧ hs = [] := by
  constructor
  · intro h
    cases h
    exact ⟨rfl, rfl⟩
  · rintro ⟨rfl, rfl⟩
    exact .word x

theorem takes_oneOf_iff {s : CharSet} :
    Takes u (.oneOf s) x v hs ↔ (∃ c, s.contains c = true ∧ x = [c]) ∧ hs = [] := by
  constructor
  · intro h
    cases h with
    | oneOf hc => exact ⟨⟨_, hc, rfl⟩, rfl⟩
  · rintro ⟨⟨c, hc, rfl⟩, rfl⟩
    exact .oneOf hc

theorem takes_place_iff {t : PlaceTest} :
    Takes u (.place t) x v hs ↔ t.holds u.getLast? v.head? = true ∧ x = [] ∧ hs = [] := by
  constructor
  · intro h
    cases h with
    | place ht => exact ⟨ht, rfl, rfl⟩
  · rintro ⟨ht, rfl, rfl⟩
    exact .place ht

theorem takes_optional_iff {greedy : Bool} :
    Takes u (.optional greedy a) x v hs ↔ (x = [] ∧ hs = []) ∨ Takes u a x v hs := by
  constructor
  · intro h
    cases h with
    | skip => exact .inl ⟨rfl, rfl⟩
    | once part => exact .inr part
  · rintro (⟨rfl, rfl⟩ | part)
    · exact .skip
    · exact .once part

theorem takes_anyMany_iff {greedy : Bool} :
    Takes u (.anyMany greedy a) x v hs ↔ (x = [] ∧ hs = []) ∨ Takes u (.many greedy a) x v hs := by
  constructor
  · intro h
    cases h with
    | noRound => exact .inl ⟨rfl, rfl⟩
    | rounds rounds => exact .inr rounds
  · rintro (⟨rfl, rfl⟩ | rounds)
    · exact .noRound
    · exact .rounds rounds

theorem takes_seq_iff : Takes u (.seq a b) x v hs ↔
    ∃ y z ks ls, x = y ++ z ∧ hs = ks ++ ls ∧ Takes u a y (z ++ v) ks ∧ Takes (u ++ y) b z v ls := by
  constructor
  · intro h
    cases h with
    | seq first second => exact ⟨_, _, _, _, rfl, rfl, first, second⟩
  · rintro ⟨y, z, ks, ls, rfl, rfl, first, second⟩
    exact .seq first second

theorem takes_alt_iff : Takes u (.alt a b) x v hs ↔ Takes u a x v hs ∨ Takes u b x v hs := by
  constructor
  · intro h
    cases h with
    | left side => exact .inl side
    | right side => exact .inr side
  · rintro (side | side)
    · exact .left side
    · exact .right side

theorem takes_whole_iff : Takes u (.whole a) x v hs ↔ Takes u a x v hs := by
  constructor
  · intro h
    cases h with
    | whole inside => exact inside
  · exact .whole

theorem takes_group_iff {i : Nat} :
    Takes u (.group i a) x v hs ↔ ∃ ks, hs = ks ++ [(i, x)] ∧ Takes u a x v ks := by
  constructor
  · intro h
    cases h with
    | group inside => exact ⟨_, rfl, inside⟩
  · rintro ⟨ks, rfl, inside⟩
    exact .group inside

/-! ## 2. Rows -/

/-- The ways of expressions one after the other. -/
inductive TakesRow : (ahead : Text) → List NameExpr → (taken behind : Text) → (held : List (Nat × Text)) → Prop
  | nil {u v : Text} : TakesRow u [] [] v []
  | cons {u x y v : Text} {e : NameExpr} {es : List NameExpr} {hs ks : List (Nat × Text)}
      (first : Takes u e x (y ++ v) hs) (rest : TakesRow (u ++ x) es y v ks) :
      TakesRow u (e :: es) (x ++ y) v (hs ++ ks)

theorem takesRow_nil_iff : TakesRow u [] x v hs ↔ x = [] ∧ hs = [] := by
  constructor
  · intro h
    cases h
    exact ⟨rfl, rfl⟩
  · rintro ⟨rfl, rfl⟩
    exact .nil

theorem takesRow_cons_iff {es : List NameExpr} : TakesRow u (e :: es) x v hs ↔
    ∃ y z ks ls, x = y ++ z ∧ hs = ks ++ ls ∧ Takes u e y (z ++ v) ks ∧ TakesRow (u ++ y) es z v ls := by
  constructor
  · intro h
    cases h with
    | cons first rest => exact ⟨_, _, _, _, rfl, rfl, first, rest⟩
  · rintro ⟨y, z, ks, ls, rfl, rfl, first, rest⟩
    exact .cons first rest

theorem takesRow_singleton : TakesRow u [e] x v hs ↔ Takes u e x v hs := by
  rw [takesRow_cons_iff]
  constructor
  · rintro ⟨y, z, ks, ls, rfl, rfl, first, rest⟩
    obtain ⟨rfl, rfl⟩ := takesRow_nil_iff.1 rest
    rwa [List.append_nil, List.append_nil]
  · intro h
    exact ⟨x, [], hs, [], (List.append_nil x).symm, (List.append_nil hs).symm, h, .nil⟩

theorem takesRow_append {es fs : List NameExpr} : TakesRow u (es ++ fs) x v hs ↔
    ∃ y z ks ls, x = y ++ z ∧ hs = ks ++ ls ∧ TakesRow u es y (z ++ v) ks ∧ TakesRow (u ++ y) fs z v ls := by
  induction es generalizing u x hs with
  | nil =>
    constructor
    · intro h
      exact ⟨[], x, [], hs, rfl, rfl, .nil, by rwa [List.append_nil]⟩
    · rintro ⟨y, z, ks, ls, rfl, rfl, first, rest⟩
      obtain ⟨rfl, rfl⟩ := takesRow_nil_iff.1 first
      rwa [List.append_nil] at rest
  | cons e es ih =>
    rw [List.cons_append, takesRow_cons_iff]
    constructor
    · rintro ⟨y, z, ks, ls, rfl, rfl, first, rest⟩
      obtain ⟨z, w, ls, ms, rfl, rfl, second, rest⟩ := ih.1 rest
      refine ⟨y ++ z, w, ks ++ ls, ms, (List.append_assoc ..).symm, (List.append_assoc ..).symm, ?_, ?_⟩
      · exact .cons (by rwa [List.append_assoc] at first) second
      · rwa [List.append_assoc] at rest
    · rintro ⟨y, z, ks, ls, rfl, rfl, first, rest⟩
      obtain ⟨y, w, ks, ms, rfl, rfl, first, second⟩ := takesRow_cons_iff.1 first
      refine ⟨y, w ++ z, ks, ms ++ ls, List.append_assoc .., List.append_assoc .., ?_, ?_⟩
      · rwa [List.append_assoc]
      · rw [← List.append_assoc] at rest
        exact ih.2 ⟨w, z, ms, ls, rfl, rfl, second, rest⟩

namespace NameExpr

/-- **An expression takes what its parts take.** -/
theorem takesRow_parts : TakesRow u e.parts x v hs ↔ Takes u e x v hs := by
  induction e generalizing u x v hs with
  | word cs =>
    cases cs with
    | nil => rw [takes_word_iff]; exact takesRow_nil_iff
    | cons c cs => exact takesRow_singleton
  | seq a b iha ihb =>
    show TakesRow u (a.parts ++ b.parts) x v hs ↔ _
    simp only [takesRow_append, takes_seq_iff, iha, ihb]
  | _ => exact takesRow_singleton

theorem takesRow_flatMap_parts {es : List NameExpr} :
    TakesRow u (es.flatMap parts) x v hs ↔ TakesRow u es x v hs := by
  induction es generalizing u x hs with
  | nil => exact Iff.rfl
  | cons e es ih => simp only [List.flatMap_cons, takesRow_append, takesRow_cons_iff, takesRow_parts, ih]

theorem takesRow_consPart {es : List NameExpr} :
    TakesRow u (consPart e es) x v hs ↔ TakesRow u (e :: es) x v hs := by
  unfold consPart
  split
  · rename_i cs ds es
    simp only [takesRow_cons_iff, takes_word_iff]
    constructor
    · rintro ⟨_, z, _, ls, rfl, rfl, ⟨rfl, rfl⟩, rest⟩
      exact ⟨cs, ds ++ z, [], ls, List.append_assoc .., rfl, ⟨rfl, rfl⟩, ds, z, [], ls, rfl, rfl, ⟨rfl, rfl⟩,
        by rwa [List.append_assoc]⟩
    · rintro ⟨_, _, _, _, rfl, rfl, ⟨rfl, rfl⟩, _, z, _, ls, rfl, rfl, ⟨rfl, rfl⟩, rest⟩
      exact ⟨_, z, [], ls, (List.append_assoc ..).symm, rfl, ⟨rfl, rfl⟩, by rwa [List.append_assoc] at rest⟩
  · exact Iff.rfl

theorem takesRow_foldr_consPart {es : List NameExpr} :
    TakesRow u (es.foldr consPart []) x v hs ↔ TakesRow u es x v hs := by
  induction es generalizing u x hs with
  | nil => exact Iff.rfl
  | cons e es ih => rw [List.foldr_cons, takesRow_consPart, takesRow_cons_iff, takesRow_cons_iff]; simp only [ih]

theorem takes_ofParts {es : List NameExpr} : Takes u (ofParts es) x v hs ↔ TakesRow u es x v hs := by
  fun_induction ofParts es generalizing u x hs with
  | case1 => rw [takes_word_iff, takesRow_nil_iff]
  | case2 e => exact takesRow_singleton.symm
  | case3 e es _ ih => simp only [takes_seq_iff, takesRow_cons_iff, ih]

/-- **A row takes what its expressions take, one after the other.** -/
theorem takes_row {es : List NameExpr} : Takes u (row es) x v hs ↔ TakesRow u es x v hs := by
  rw [row, takes_ofParts, takesRow_foldr_consPart, takesRow_flatMap_parts]

/-! ## 3. Choices -/

theorem exists_mem_sides : (∃ s ∈ e.sides, Takes u s x v hs) ↔ Takes u e x v hs := by
  induction e with
  | alt a b iha ihb =>
    show (∃ s ∈ a.sides ++ b.sides, Takes u s x v hs) ↔ _
    simp only [List.mem_append, or_and_right, exists_or, iha, ihb, takes_alt_iff]
  | _ => simp [sides]

theorem exists_mem_flatMap_sides {es : List NameExpr} :
    (∃ s ∈ es.flatMap sides, Takes u s x v hs) ↔ ∃ e ∈ es, Takes u e x v hs := by
  constructor
  · rintro ⟨s, hs, h⟩
    obtain ⟨e, he, hs⟩ := List.mem_flatMap.1 hs
    exact ⟨e, he, exists_mem_sides.1 ⟨s, hs, h⟩⟩
  · rintro ⟨e, he, h⟩
    obtain ⟨s, hs, h⟩ := exists_mem_sides.2 h
    exact ⟨s, List.mem_flatMap.2 ⟨e, he, hs⟩, h⟩

theorem takes_ofSides {es : List NameExpr} (hne : es ≠ []) :
    Takes u (ofSides es) x v hs ↔ ∃ e ∈ es, Takes u e x v hs := by
  fun_induction ofSides es with
  | case1 => exact absurd rfl hne
  | case2 e => simp
  | case3 e es hes ih =>
    have hne : es ≠ [] := fun h => hes h
    rw [takes_alt_iff, ih hne]
    simp only [List.mem_cons, exists_eq_or_imp]

/-- A set takes one character. -/
theorem takes_ofSet {s : CharSet} :
    Takes u (ofSet s) x v hs ↔ (∃ c, s.contains c = true ∧ x = [c]) ∧ hs = [] := by
  unfold ofSet
  split
  · rename_i c hc
    rw [takes_word_iff, CharSet.eq_only_of_single? hc]
    simp
  · exact takes_oneOf_iff

theorem contains_foldl_union {ss : List CharSet} {s : CharSet} {c : Char} :
    (ss.foldl CharSet.union s).contains c = true ↔ s.contains c = true ∨ ∃ t ∈ ss, t.contains c = true := by
  induction ss generalizing s with
  | nil => simp
  | cons t ss ih =>
    rw [List.foldl_cons, ih, CharSet.contains_union, Bool.or_eq_true]
    simp only [List.mem_cons, exists_eq_or_imp, or_assoc]

theorem eq_word_of_char? {c : Char} (h : e.char? = some c) : e = .word [c] := by
  unfold char? at h
  split at h
  · obtain rfl := Option.some.inj h
    rfl
  · cases h

theorem eq_oneOf_of_set? {s : CharSet} (h : e.set? = some s) : e = .oneOf s := by
  unfold set? at h
  split at h
  · obtain rfl := Option.some.inj h
    rfl
  · cases h

theorem mapM_eq_some {α β : Type} {f : α → Option β} {as : List α} {bs : List β} (h : as.mapM f = some bs) :
    List.Forall₂ (fun a b => f a = some b) as bs := by
  induction as generalizing bs with
  | nil =>
    obtain rfl := Option.some.inj h
    exact .nil
  | cons a as ih =>
    rw [List.mapM_cons] at h
    obtain ⟨b, hb, h⟩ := Option.bind_eq_some_iff.1 h
    obtain ⟨bs', hbs, h⟩ := Option.bind_eq_some_iff.1 h
    obtain rfl := Option.some.inj h
    exact .cons hb (ih hbs)

/-- The expression takes one character, of a set. -/
def IsSet (e : NameExpr) (s : CharSet) : Prop :=
  ∀ {u x v : Text} {hs : List (Nat × Text)},
    Takes u e x v hs ↔ (∃ c, s.contains c = true ∧ x = [c]) ∧ hs = []

theorem exists_of_isSet {es : List NameExpr} {ss : List CharSet} (h : List.Forall₂ IsSet es ss) :
    (∃ e ∈ es, Takes u e x v hs) ↔ (∃ c, (∃ s ∈ ss, s.contains c = true) ∧ x = [c]) ∧ hs = [] := by
  induction h with
  | nil => simp
  | cons he _ ih =>
    simp only [List.exists_mem_cons_iff, ih]
    rw [he, ← or_and_right, ← exists_or]
    simp only [or_and_right]

/-- **A set that a choice comes to takes what the sides do.** -/
theorem takes_of_joinedSet? {es : List NameExpr} {s : CharSet} (h : joinedSet? es = some s) :
    Takes u (ofSet s) x v hs ↔ ∃ e ∈ es, Takes u e x v hs := by
  have hunion : ∀ {s : CharSet} {ss : List CharSet}, List.Forall₂ IsSet es (s :: ss) →
      (Takes u (ofSet (ss.foldl CharSet.union s)) x v hs ↔ ∃ e ∈ es, Takes u e x v hs) := by
    intro s ss hall
    rw [takes_ofSet, exists_of_isSet hall]
    simp only [contains_foldl_union, List.exists_mem_cons_iff]
  unfold joinedSet? at h
  split at h
  · rename_i c cs hchars
    obtain rfl := Option.some.inj h
    refine hunion ?_
    rw [← List.map_cons, List.forall₂_map_right_iff]
    refine (mapM_eq_some hchars).imp fun e c he => ?_
    intro u x v hs
    rw [eq_word_of_char? he, takes_word_iff]
    simp
  · split at h
    · rename_i s' ss hsets
      obtain rfl := Option.some.inj h
      refine hunion ((mapM_eq_some hsets).imp fun e s he => ?_)
      intro u x v hs
      rw [eq_oneOf_of_set? he]
      exact takes_oneOf_iff
    · cases h

theorem takes_joinSides {es : List NameExpr} (hne : es ≠ []) :
    Takes u (joinSides es) x v hs ↔ ∃ e ∈ es, Takes u e x v hs := by
  unfold joinSides
  split
  · rename_i s h
    exact takes_of_joinedSet? h
  · exact takes_ofSides hne

/-! ### What the sides share -/

theorem isPrefix_sharedStart (as bs : List NameExpr) : sharedStart as bs <+: as ∧ sharedStart as bs <+: bs := by
  induction as generalizing bs with
  | nil => exact ⟨List.nil_prefix, List.nil_prefix⟩
  | cons a as ih =>
    cases bs with
    | nil => exact ⟨List.nil_prefix, List.nil_prefix⟩
    | cons b bs =>
      unfold sharedStart
      split
      · rename_i hab
        subst hab
        exact ⟨List.cons_prefix_cons.2 ⟨rfl, (ih bs).1⟩, List.cons_prefix_cons.2 ⟨rfl, (ih bs).2⟩⟩
      · exact ⟨List.nil_prefix, List.nil_prefix⟩

theorem isPrefix_foldl_sharedStart (rs : List (List NameExpr)) (r : List NameExpr) :
    rs.foldl sharedStart r <+: r ∧ ∀ s ∈ rs, rs.foldl sharedStart r <+: s := by
  induction rs generalizing r with
  | nil => exact ⟨List.prefix_refl r, fun _ h => nomatch h⟩
  | cons s rs ih =>
    obtain ⟨hfirst, hrest⟩ := ih (sharedStart r s)
    obtain ⟨hr, hs⟩ := isPrefix_sharedStart r s
    refine ⟨hfirst.trans hr, fun t ht => ?_⟩
    rcases List.mem_cons.1 ht with rfl | ht
    · exact hfirst.trans hs
    · exact hrest t ht

theorem isPrefix_sharedParts {rows : List (List NameExpr)} {r : List NameExpr} (h : r ∈ rows) :
    sharedParts rows <+: r := by
  unfold sharedParts
  split
  · rename_i s rs
    split
    · obtain ⟨hfirst, hrest⟩ := isPrefix_foldl_sharedStart rs s
      rcases List.mem_cons.1 h with rfl | h
      · exact hfirst
      · exact hrest r h
    · exact List.nil_prefix
  · exact List.nil_prefix

theorem sides_ne_nil (e : NameExpr) : e.sides ≠ [] := by
  induction e with
  | alt a b iha _ => exact fun h => iha (List.append_eq_nil_iff.1 h).1
  | _ => exact List.cons_ne_nil _ _

/-- **A choice takes what its sides do.** -/
theorem takes_choice {es : List NameExpr} (hne : es ≠ []) :
    Takes u (choice es) x v hs ↔ ∃ e ∈ es, Takes u e x v hs := by
  have hflat : ∀ {es : List NameExpr}, es ≠ [] → es.flatMap sides ≠ [] := by
    intro es hne h
    obtain ⟨e, he⟩ := List.exists_mem_of_ne_nil es hne
    exact sides_ne_nil e (List.flatMap_eq_nil_iff.1 h e he)
  have hsides := hflat hne
  rw [← exists_mem_flatMap_sides]
  unfold choice
  dsimp only
  generalize es.flatMap sides = ss at hsides ⊢
  split
  · simp
  · exact takes_joinSides hsides
  · rename_i ss _ _ _ _
    have hprefix : ∀ s ∈ ss, sharedParts (ss.map parts) ++
        s.parts.drop (sharedParts (ss.map parts)).length = s.parts := fun s hs =>
      List.prefix_iff_eq_append.1 (isPrefix_sharedParts (List.mem_map_of_mem hs))
    generalize sharedParts (ss.map parts) = shared at hprefix
    have hrests : ((ss.map parts).map fun r => ofParts (r.drop shared.length)) ≠ [] := by
      simpa using hsides
    rw [takes_row, takesRow_append]
    simp only [takesRow_singleton, takes_joinSides (hflat hrests), exists_mem_flatMap_sides, List.mem_map,
      exists_exists_and_eq_and, takes_ofParts]
    constructor
    · rintro ⟨y, z, ks, ls, rfl, rfl, first, s, hs, rest⟩
      refine ⟨s, hs, takesRow_parts.1 ?_⟩
      rw [← hprefix s hs]
      exact takesRow_append.2 ⟨y, z, ks, ls, rfl, rfl, first, rest⟩
    · rintro ⟨s, hs, h⟩
      have h := takesRow_parts.2 h
      rw [← hprefix s hs] at h
      obtain ⟨y, z, ks, ls, rfl, rfl, first, rest⟩ := takesRow_append.1 h
      exact ⟨y, z, ks, ls, rfl, rfl, first, s, hs, rest⟩

end NameExpr

/-! ## 4. What groups hold in the end -/

/-- What a group held last. -/
def lastHeld (hs : List (Nat × Text)) (g : Nat) : Option Text := hs.reverse.lookup g

theorem lastHeld_append (hs ks : List (Nat × Text)) (g : Nat) :
    lastHeld (hs ++ ks) g = (lastHeld ks g).or (lastHeld hs g) := by
  unfold lastHeld
  rw [List.reverse_append, List.lookup_append]

theorem lastHeld_singleton (i : Nat) (x : Text) (g : Nat) :
    lastHeld [(i, x)] g = if g = i then some x else none := by
  show List.lookup g [(i, x)] = _
  rw [List.lookup_cons]
  by_cases h : g = i
  · subst h
    simp
  · rw [if_neg h, beq_false_of_ne h]
    rfl

/-- In the end every group holds the same. -/
def SameHeld (hs ks : List (Nat × Text)) : Prop := ∀ g, lastHeld hs g = lastHeld ks g

namespace SameHeld

variable {hs hs' ks ks' ls : List (Nat × Text)}

theorem refl (hs : List (Nat × Text)) : SameHeld hs hs := fun _ => rfl

theorem trans (h : SameHeld hs ks) (h' : SameHeld ks ls) : SameHeld hs ls := fun g => (h g).trans (h' g)

theorem append (h : SameHeld hs hs') (h' : SameHeld ks ks') : SameHeld (hs ++ ks) (hs' ++ ks') := fun g => by
  rw [lastHeld_append, lastHeld_append, h g, h' g]

/-- What is held twice is held. -/
theorem twice (h : SameHeld hs ks) : SameHeld (hs ++ ks) hs := fun g => by
  rw [lastHeld_append, h g, Option.or_self]

end SameHeld

/-- **An expression simplifies another**: it takes the same, and what its groups hold in the end they hold on a way of
    the other too. -/
structure Simplifies (e e' : NameExpr) : Prop where
  way : ∀ {u x v hs}, Takes u e x v hs → ∃ ks, Takes u e' x v ks ∧ SameHeld ks hs
  takes : ∀ {u x v hs}, Takes u e' x v hs → ∃ ks, Takes u e x v ks

namespace Simplifies

theorem of_iff (h : ∀ {u x v hs}, Takes u e x v hs ↔ Takes u e' x v hs) : Simplifies e e' :=
  ⟨fun ht => ⟨_, h.1 ht, .refl _⟩, fun ht => ⟨_, h.2 ht⟩⟩

theorem trans {e e' e'' : NameExpr} (h : Simplifies e e') (h' : Simplifies e' e'') : Simplifies e e'' where
  way ht := by
    obtain ⟨ks, ht, hsame⟩ := h.way ht
    obtain ⟨ls, ht, hsame'⟩ := h'.way ht
    exact ⟨ls, ht, hsame'.trans hsame⟩
  takes ht := by
    obtain ⟨_, ht⟩ := h'.takes ht
    exact h.takes ht

theorem group (h : Simplifies e e') (i : Nat) : Simplifies (.group i e) (.group i e') where
  way ht := by
    obtain ⟨ks, rfl, inside⟩ := takes_group_iff.1 ht
    obtain ⟨ls, inside, hsame⟩ := h.way inside
    exact ⟨_, .group inside, hsame.append (.refl _)⟩
  takes ht := by
    obtain ⟨_, -, inside⟩ := takes_group_iff.1 ht
    obtain ⟨ks, inside⟩ := h.takes inside
    exact ⟨_, .group inside⟩

/-- One more expression in a row. -/
theorem row_append {es : List NameExpr} (h : Simplifies (.row es) a) (h' : Simplifies e b) :
    Simplifies (.row (es ++ [e])) (.seq a b) where
  way ht := by
    obtain ⟨y, z, ks, ls, rfl, rfl, first, rest⟩ := takesRow_append.1 (NameExpr.takes_row.1 ht)
    obtain ⟨_, first, hsame⟩ := h.way (NameExpr.takes_row.2 first)
    obtain ⟨_, rest, hsame'⟩ := h'.way (takesRow_singleton.1 rest)
    exact ⟨_, .seq first rest, hsame.append hsame'⟩
  takes ht := by
    obtain ⟨y, z, ks, ls, rfl, rfl, first, second⟩ := takes_seq_iff.1 ht
    obtain ⟨ks, first⟩ := h.takes first
    obtain ⟨ls, second⟩ := h'.takes second
    exact ⟨ks ++ ls, NameExpr.takes_row.2 (takesRow_append.2
      ⟨y, z, ks, ls, rfl, rfl, NameExpr.takes_row.1 first, takesRow_singleton.2 second⟩)⟩

theorem choice_singleton (h : Simplifies e a) : Simplifies (.choice [e]) a := by
  refine .trans (.of_iff ?_) h
  intro u x v hs
  rw [NameExpr.takes_choice (List.cons_ne_nil e [])]
  simp

/-- One more side of a choice. -/
theorem choice_append {es : List NameExpr} (hne : es ≠ []) (h : Simplifies (.choice es) a) (h' : Simplifies e b) :
    Simplifies (.choice (es ++ [e])) (.alt a b) := by
  have hchoice : ∀ {u x v hs}, Takes u (.choice (es ++ [e])) x v hs ↔
      Takes u (.choice es) x v hs ∨ Takes u e x v hs := by
    intro u x v hs
    rw [NameExpr.takes_choice (List.append_ne_nil_of_left_ne_nil hne _), NameExpr.takes_choice hne]
    simp only [List.mem_append, List.mem_singleton, or_and_right, exists_or, exists_eq_left]
  refine ⟨fun ht => ?_, fun ht => ?_⟩
  · rcases hchoice.1 ht with side | side
    · obtain ⟨ks, side, hsame⟩ := h.way side
      exact ⟨ks, .left side, hsame⟩
    · obtain ⟨ks, side, hsame⟩ := h'.way side
      exact ⟨ks, .right side, hsame⟩
  · rcases takes_alt_iff.1 ht with side | side
    · obtain ⟨ks, side⟩ := h.takes side
      exact ⟨ks, hchoice.2 (.inl side)⟩
    · obtain ⟨ks, side⟩ := h'.takes side
      exact ⟨ks, hchoice.2 (.inr side)⟩

end Simplifies

end RecordExport

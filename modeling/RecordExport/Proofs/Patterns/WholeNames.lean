import Mathlib.Data.List.Induction
import RecordExport.Proofs.Patterns.Reading
import RecordExport.Proofs.Patterns.Searching
import RecordExport.Proofs.Template.Names
/-!
# Whole names

A pattern is of whole names as far as its expression is valid on its own: put between the signs for the ends of a
name, it then takes the name from the first character to the last.

* `Recognizes`: a pattern is one of a language, and captures what the groups held;
* `WrittenExpr.behind`: an expression behind a text. The text joins the first side of a choice alone, and the others
  stand for themselves (`TakesBehind`);
* `Pattern.recognizesWholeNames`: the languages of a text as an expression, as a literal and in a namespace.
-/

namespace RecordExport

variable {tables : ExprTables} {f : Text} {u x v : Text} {hs : List (Nat × Text)}

/-! ## 1. The language of a pattern -/

/-- One text for each group, the empty one for a group that held none. -/
def heldBy (groups : Nat) (hs : List (Nat × Text)) : List Text :=
  (List.range groups).map fun i => (lastHeld hs (i + 1)).getD []

/-- **A pattern recognizes a language**, in which names have ways: it matches the names that have one, and captures
    what the groups held on one of them. -/
structure Pattern.Recognizes (p : Pattern) (groups : Nat) (language : Text → List (Nat × Text) → Prop) : Prop where
  isMatch_iff : ∀ name, p.isMatch name = true ↔ ∃ hs, language name hs
  isSome_captures_iff : ∀ name, (p.captures name).isSome = true ↔ ∃ hs, language name hs
  captures_eq : ∀ name cs, p.captures name = some cs → ∃ hs, language name hs ∧ cs = heldBy groups hs

/-- How many groups a match has an entry for: all up to the last one that is in the expression. A group that is
    repeated no times at all is not. -/
def WrittenExpr.entries (w : WrittenExpr .choice) : Nat := (w.expr 0).lastGroup

namespace Pattern.Recognizes

variable {p : Pattern} {groups : Nat} {language language' : Text → List (Nat × Text) → Prop}

theorem of_captures (hsome : ∀ name, (p.captures name).isSome = true ↔ ∃ hs, language name hs)
    (heq : ∀ name cs, p.captures name = some cs → ∃ hs, language name hs ∧ cs = heldBy groups hs) :
    p.Recognizes groups language := ⟨hsome, hsome, heq⟩

theorem congr (h : p.Recognizes groups language) (hl : ∀ name hs, language name hs ↔ language' name hs) :
    p.Recognizes groups language' := by
  obtain rfl : language = language' := funext fun name => funext fun hs => propext (hl name hs)
  exact h

/-- What a thread remembers of the groups is what they held. -/
theorem held_of_holding {name : Text} {th : Thread} (h : Holding name Thread.start th hs) (g : Nat) :
    Machine.held name th g = (lastHeld hs g).getD [] := by
  cases hlast : lastHeld hs g with
  | none =>
    obtain ⟨hstarts, hends⟩ := h.kept g hlast
    exact held_congr hstarts hends
  | some x => exact h.last g x hlast

/-- **The machine of an expression recognizes what is written**, anywhere in a name. -/
theorem machine {e : NameExpr} {w : WrittenExpr .choice} (h : Expresses e 0 w) :
    (Pattern.expression e.machine).Recognizes w.entries fun name hs =>
      ∃ u x v, name = u ++ (x ++ v) ∧ Takes u (w.expr 0) x v hs := by
  have hcaptures : ∀ {name : Text} {cs : List Text}, e.machine.captures name = some cs →
      ∃ hs, (∃ u x v, name = u ++ (x ++ v) ∧ Takes u (w.expr 0) x v hs) ∧ cs = heldBy w.entries hs := by
    intro name cs hcs
    obtain ⟨th, hth, rfl⟩ := Option.map_eq_some_iff.1 hcs
    obtain ⟨u, x, v, hs, hname, htakes, hholding⟩ := NameExpr.takes_of_search h.nests hth
    obtain ⟨ks, htakes, hsame⟩ := h.simplifies.way htakes
    refine ⟨ks, ⟨u, x, v, hname, htakes⟩, ?_⟩
    show (List.range e.lastGroup).map _ = _
    rw [h.lastGroup_eq]
    refine List.map_congr_left fun i _ => ?_
    rw [held_of_holding hholding, hsame]
  refine of_captures (fun name => ⟨fun hsome => ?_, ?_⟩) fun name cs => hcaptures
  · obtain ⟨cs, hcs⟩ := Option.isSome_iff_exists.1 hsome
    obtain ⟨hs, hlanguage, -⟩ := hcaptures hcs
    exact ⟨hs, hlanguage⟩
  · rintro ⟨hs, u, x, v, hname, htakes⟩
    obtain ⟨ks, htakes⟩ := h.simplifies.takes htakes
    show (e.machine.captures name).isSome = true
    unfold Machine.captures
    rw [Option.isSome_map]
    exact NameExpr.isSome_search hname htakes

end Pattern.Recognizes

/-! ## 2. Between the ends of a name -/

/-- What is valid is written as something. -/
theorem exists_of_readExpr? {t : Text} (h : (readExpr? tables t).isSome = true) :
    ∃ w : WrittenExpr .choice, exprSigns? tables t = some w.signs := by
  obtain ⟨part, hpart⟩ := Option.isSome_iff_exists.1 h
  obtain ⟨signs, hsigns, -, hread⟩ := readExpr?_eq_some_iff.1 hpart
  obtain ⟨w, rfl⟩ := isSome_readSigns?_iff.1 (Option.isSome_iff_exists.2 ⟨part, hread⟩)
  exact ⟨w, hsigns⟩

/-- It is put together as what it says, and nests as deep. -/
theorem expresses_of_readExpr? {t : Text} {part : ExprPart} {w : WrittenExpr .choice}
    (hsigns : exprSigns? tables t = some w.signs) (h : readExpr? tables t = some part) :
    part.depth = w.levels ∧ Expresses part.expr 0 w := by
  obtain ⟨signs, hsigns', -, hread⟩ := readExpr?_eq_some_iff.1 h
  obtain rfl := Option.some.inj (hsigns.symm.trans hsigns')
  obtain ⟨part', hread', hexpresses⟩ := w.exists_readSigns?
  obtain rfl := Option.some.inj (hread.symm.trans hread')
  exact hexpresses

/-- What is written is valid if it does not give two groups one name. -/
theorem isSome_readExpr?_iff {t : Text} {w : WrittenExpr .choice} (h : exprSigns? tables t = some w.signs) :
    (readExpr? tables t).isSome = true ↔ (w.signs.filterMap ExprSign.name?).Nodup := by
  obtain ⟨part, hread, -⟩ := w.exists_readSigns?
  rw [Option.isSome_iff_exists]
  constructor
  · rintro ⟨part', hpart'⟩
    obtain ⟨signs, hsigns, hnames, -⟩ := readExpr?_eq_some_iff.1 hpart'
    obtain rfl := Option.some.inj (h.symm.trans hsigns)
    exact hnames
  · exact fun hnames => ⟨part, readExpr?_eq_some_iff.2 ⟨_, h, hnames, hread⟩⟩

theorem Pattern.ofExpression?_eq_some_iff {p : Pattern} : ofExpression? f tables = some p ↔
    ∃ whole, readExpr? tables (betweenEnds f) = some whole ∧
      (whole.depth ≤ maxLevels ∧ tables.fits whole.expr = true) ∧
      .expression whole.expr.machine = p := by
  unfold ofExpression?
  show (readExpr? tables (betweenEnds f)).bind _ = _ ↔ _
  rw [Option.bind_eq_some_iff]
  simp only [Option.ite_none_right_eq_some, Option.some_inj]

namespace WrittenExpr

/-- A choice between the signs for both ends of a name. -/
def wrapped (w : WrittenExpr .choice) : WrittenExpr .choice :=
  only (more (more (more empty (place .start)) (group (.holds []) w)) (place .stop))

theorem levels_wrapped (w : WrittenExpr .choice) : w.wrapped.levels = w.levels + 2 := by
  show max (max (max 0 0) (w.levels + 1)) 0 + 1 = w.levels + 2
  simp

theorem entries_wrapped (w : WrittenExpr .choice) : w.wrapped.entries = w.entries := by
  show max (max (max 0 0) (w.expr 0).lastGroup) 0 = (w.expr 0).lastGroup
  simp

theorem takes_wrapped {w : WrittenExpr .choice} :
    Takes u (w.wrapped.expr 0) x v hs ↔ u = [] ∧ v = [] ∧ Takes [] (w.expr 0) x [] hs := by
  have hexpr : w.wrapped.expr 0 = .seq (.seq (.seq (.word []) (.place .start)) (w.expr 0)) (.place .stop) := rfl
  rw [hexpr]
  simp only [takes_seq_iff, takes_word_iff, takes_place_iff, PlaceTest.holds, Option.isNone_iff_eq_none,
    List.getLast?_eq_none_iff, List.head?_eq_none_iff]
  constructor
  · rintro ⟨_, _, _, _, rfl, rfl,
      ⟨_, _, _, _, rfl, rfl, ⟨_, _, _, _, rfl, rfl, ⟨rfl, rfl⟩, hstart, rfl, rfl⟩, htakes⟩, rfl, rfl, rfl⟩
    obtain rfl := (List.append_eq_nil_iff.1 hstart).1
    simpa using htakes
  · rintro ⟨rfl, rfl, htakes⟩
    exact ⟨x, [], hs, [], by simp, by simp,
      ⟨[], x, [], hs, rfl, rfl, ⟨[], [], [], [], rfl, rfl, ⟨rfl, rfl⟩, rfl, rfl, rfl⟩, htakes⟩,
      rfl, rfl, rfl⟩

end WrittenExpr

/-- The text ends in a comment that goes on. -/
def endsInComment (tables : ExprTables) (t : Text) : Bool :=
  (ExprReader.start.read tables t).any (·.1.inComment)

/-- **Between the ends of a name stands what is written alone**, unless it ends in a comment, which takes the end of the
    group as well. -/
theorem exprSigns?_betweenEnds_eq {w : WrittenExpr .choice} (h : exprSigns? tables f = some w.signs) :
    exprSigns? tables (Pattern.betweenEnds f) =
      some (if endsInComment tables f then .place .start :: .holds [] :: w.signs else w.wrapped.signs) := by
  obtain ⟨r, inside, pending, hread, hpending, hsigns⟩ := exprSigns?_eq_some_iff.1 h
  have hcomment : endsInComment tables f = r.inComment := by
    unfold endsInComment
    rw [hread]
    rfl
  rw [hcomment]
  split
  · next hopen => rw [exprSigns?_betweenEnds_of_inComment hread hopen hpending, hsigns]
  · next hclosed =>
    -- the flags are back where they began, since the groups are
    have houter : r.stack.outer = [] := by
      have hflags := takeAll_of_read_pending hread hpending
      rw [← hsigns] at hflags
      obtain ⟨rows, row, htake, -⟩ := reads w 0
      exact List.length_eq_zero_iff.1 (ExprStack.length_outer_of_takeAll rfl hflags (htake none []))
    rw [exprSigns?_betweenEnds hread (Bool.eq_false_iff.2 hclosed) hpending houter, ← hsigns]
    simp [WrittenExpr.wrapped, WrittenExpr.signs, GroupHead.sign]

/-- With a comment left open nothing is valid between the ends of a name. -/
theorem readSigns?_opening (w : WrittenExpr .choice) :
    readSigns? (.place .start :: .holds [] :: w.signs) = none := by
  refine Option.not_isSome_iff_eq_none.1 fun hsome => ?_
  obtain ⟨level, s, htake, houter⟩ := exists_of_readSigns?_opening hsome
  obtain ⟨rows, row, hread, -⟩ := reads w 0
  have hinside := hread none [level]
  obtain rfl := Option.some.inj (hinside.symm.trans htake)
  cases houter

/-- Names of groups are not changed by what stands around them. -/
theorem filterMap_signs_wrapped (w : WrittenExpr .choice) :
    w.wrapped.signs.filterMap ExprSign.name? = w.signs.filterMap ExprSign.name? := by
  simp [WrittenExpr.wrapped, WrittenExpr.signs, GroupHead.sign, List.filterMap_cons, ExprSign.name?]

namespace Pattern

variable {p : Pattern} {w : WrittenExpr .choice}

/-- **What is written alone is accepted** unless it ends in a comment, gives two groups one name, nests too deep or is
    put together to something too large. -/
theorem exists_accepts (h : exprSigns? tables f = some w.signs) :
    ∃ whole, Expresses whole 0 w.wrapped ∧ ((ofExpression? f tables).isSome = true ↔
      endsInComment tables f = false ∧ (w.signs.filterMap ExprSign.name?).Nodup ∧ w.levels + 2 ≤ maxLevels ∧
        tables.fits whole = true) := by
  obtain ⟨part, hread, hdepth, hexpresses⟩ := w.wrapped.exists_readSigns?
  refine ⟨part.expr, hexpresses, ?_⟩
  have hbetween := exprSigns?_betweenEnds_eq h
  unfold ofExpression? readExpr?
  rw [hbetween]
  show (((if _ then readSigns? _ else none).bind _ : Option Pattern).isSome = true) ↔ _
  cases hcomment : endsInComment tables f with
  | true =>
    rw [if_pos rfl, readSigns?_opening]
    simp
  | false =>
    rw [if_neg Bool.false_ne_true, filterMap_signs_wrapped, hread, ← w.levels_wrapped]
    by_cases hnames : (w.signs.filterMap ExprSign.name?).Nodup
    · rw [if_pos hnames]
      simp only [Option.bind_some, hnames, true_and, hdepth]
      split <;> simp [*]
    · rw [if_neg hnames]
      simp [hnames]

namespace Recognizes

/-- The pattern of a text recognizes, anywhere in a name, what is written between the ends of one. -/
theorem between (hsigns : exprSigns? tables (betweenEnds f) = some w.signs) (h : ofExpression? f tables = some p) :
    p.Recognizes w.entries fun name hs => ∃ u x v, name = u ++ (x ++ v) ∧ Takes u (w.expr 0) x v hs := by
  obtain ⟨whole, hread, -, rfl⟩ := ofExpression?_eq_some_iff.1 h
  exact machine (expresses_of_readExpr? hsigns hread).2

/-- **What is written alone takes whole names.** -/
theorem alone (hsigns : exprSigns? tables f = some w.signs) (h : ofExpression? f tables = some p) :
    p.Recognizes w.entries fun name hs => Takes [] (w.expr 0) name [] hs := by
  obtain ⟨whole, -, haccepts⟩ := exists_accepts hsigns
  have hclosed := (haccepts.1 (Option.isSome_iff_exists.2 ⟨p, h⟩)).1
  have hbetween := exprSigns?_betweenEnds_eq hsigns
  rw [hclosed, if_neg Bool.false_ne_true] at hbetween
  have hwhole := between hbetween h
  rw [w.entries_wrapped] at hwhole
  refine hwhole.congr fun name hs => ?_
  simp only [WrittenExpr.takes_wrapped]
  constructor
  · rintro ⟨u, x, v, rfl, rfl, rfl, htakes⟩
    rwa [List.nil_append, List.append_nil]
  · intro htakes
    exact ⟨[], name, [], (List.append_nil name).symm, rfl, rfl, htakes⟩

end Recognizes

/-- **What is accepted is written alone, or closes the group that it is put in.** -/
theorem exists_alone_or_closes (h : ofExpression? f tables = some p) :
    (∃ w : WrittenExpr .choice, exprSigns? tables f = some w.signs) ∨
    ∃ a b, f = a ++ ')' :: b ∧ ∃ w : WrittenExpr .choice, exprSigns? tables a = some w.signs := by
  obtain ⟨whole, hread, -⟩ := ofExpression?_eq_some_iff.1 h
  rcases isSome_readExpr?_or (Option.isSome_iff_exists.2 ⟨whole, hread⟩) with hvalid | ⟨a, b, hf, hvalid⟩
  · exact .inl (exists_of_readExpr? hvalid)
  · exact .inr ⟨a, b, hf, exists_of_readExpr? hvalid⟩

end Pattern

/-! ## 3. Behind a text -/

namespace WrittenExpr

/-- A text as it is. -/
def literal (t : Text) : WrittenExpr .row := t.foldl (fun r c => .more r (.set (.only c) 0)) .empty

theorem literal_append_singleton (t : Text) (c : Char) :
    literal (t ++ [c]) = .more (literal t) (.set (.only c) 0) := List.foldl_append

theorem signs_literal (t : Text) : (literal t).signs = literalSigns t := by
  induction t using List.reverseRecOn with
  | nil => rfl
  | append_singleton t c ih =>
    rw [literal_append_singleton]
    show (literal t).signs ++ [.set (.only c) 0] = _
    rw [ih, literalSigns, literalSigns, List.map_append]
    rfl

theorem groups_literal (t : Text) : (literal t).groups = 0 := by
  induction t using List.reverseRecOn with
  | nil => rfl
  | append_singleton t c ih =>
    rw [literal_append_singleton]
    exact ih

theorem lastGroup_literal (t : Text) (n : Nat) : ((literal t).expr n).lastGroup = 0 := by
  induction t using List.reverseRecOn with
  | nil => rfl
  | append_singleton t c ih =>
    rw [literal_append_singleton]
    exact (Nat.max_zero _).trans ih

/-- A text takes itself. -/
theorem takes_literal {t : Text} {n : Nat} : Takes u ((literal t).expr n) x v hs ↔ x = t ∧ hs = [] := by
  induction t using List.reverseRecOn generalizing x hs v with
  | nil => exact takes_word_iff
  | append_singleton t c ih =>
    rw [literal_append_singleton]
    show Takes u (.seq ((literal t).expr n) (.oneOf (.only c))) x v hs ↔ _
    simp only [takes_seq_iff, ih, takes_oneOf_iff, CharSet.contains_only, decide_eq_true_eq, exists_eq_left]
    constructor
    · rintro ⟨_, _, _, _, rfl, rfl, ⟨rfl, rfl⟩, rfl, rfl⟩
      exact ⟨rfl, rfl⟩
    · rintro ⟨rfl, rfl⟩
      exact ⟨t, [c], [], [], rfl, rfl, ⟨rfl, rfl⟩, rfl, rfl⟩

/-- **A text in front of what is written**: of a row, and of the first side of a choice. -/
def behind (t : Text) : {k : ExprRank} → WrittenExpr k → WrittenExpr k
  | _, empty => literal t
  | _, more r p => more (r.behind t) p
  | _, only r => only (r.behind t)
  | _, other c r => other (c.behind t) r
  | _, w => w

variable {n : Nat}

theorem signs_behind_row (t : Text) (r : WrittenExpr .row) : (r.behind t).signs = literalSigns t ++ r.signs := by
  match r with
  | empty => exact (signs_literal t).trans (List.append_nil _).symm
  | more r p =>
    show (r.behind t).signs ++ p.signs = literalSigns t ++ (r.signs ++ p.signs)
    rw [signs_behind_row t r, List.append_assoc]

theorem signs_behind (t : Text) (c : WrittenExpr .choice) : (c.behind t).signs = literalSigns t ++ c.signs := by
  match c with
  | only r => exact signs_behind_row t r
  | other c r =>
    show (c.behind t).signs ++ .choice :: r.signs = literalSigns t ++ (c.signs ++ .choice :: r.signs)
    rw [signs_behind t c, List.append_assoc]

theorem groups_behind_row (t : Text) (r : WrittenExpr .row) : (r.behind t).groups = r.groups := by
  match r with
  | empty => exact groups_literal t
  | more r p => exact congrArg (· + p.groups) (groups_behind_row t r)

theorem groups_behind (t : Text) (c : WrittenExpr .choice) : (c.behind t).groups = c.groups := by
  match c with
  | only r => exact groups_behind_row t r
  | other c r => exact congrArg (· + r.groups) (groups_behind t c)

theorem lastGroup_behind_row (t : Text) (r : WrittenExpr .row) :
    ((r.behind t).expr n).lastGroup = (r.expr n).lastGroup := by
  match r with
  | empty => exact lastGroup_literal t n
  | more r p =>
    show max ((r.behind t).expr n).lastGroup (p.expr (n + (r.behind t).groups)).lastGroup = _
    rw [lastGroup_behind_row t r, groups_behind_row]
    rfl

theorem entries_behind (t : Text) (c : WrittenExpr .choice) : (c.behind t).entries = c.entries := by
  match c with
  | only r => exact lastGroup_behind_row t r
  | other c r =>
    show max (c.behind t).entries (r.expr (0 + (c.behind t).groups)).lastGroup = _
    rw [entries_behind t c, groups_behind]
    rfl

/-- **A row behind a text takes what the row takes behind it.** -/
theorem takes_behind_row {t : Text} {r : WrittenExpr .row} {u x v : Text} {hs : List (Nat × Text)} :
    Takes u ((r.behind t).expr n) x v hs ↔ ∃ rest, x = t ++ rest ∧ Takes (u ++ t) (r.expr n) rest v hs := by
  match r with
  | empty =>
    show Takes u ((literal t).expr n) x v hs ↔ ∃ rest, x = t ++ rest ∧ Takes (u ++ t) (.word []) rest v hs
    simp [takes_literal, takes_word_iff]
  | more r p =>
    show Takes u (.seq ((r.behind t).expr n) (p.expr (n + (r.behind t).groups))) x v hs ↔
      ∃ rest, x = t ++ rest ∧ Takes (u ++ t) (.seq (r.expr n) (p.expr (n + r.groups))) rest v hs
    rw [groups_behind_row]
    simp only [takes_seq_iff, takes_behind_row (r := r)]
    constructor
    · rintro ⟨_, z, ks, ls, rfl, rfl, ⟨y, rfl, hr⟩, hp⟩
      refine ⟨y ++ z, List.append_assoc .., y, z, ks, ls, rfl, rfl, hr, ?_⟩
      rwa [List.append_assoc]
    · rintro ⟨_, rfl, y, z, ks, ls, rfl, rfl, hr, hp⟩
      refine ⟨t ++ y, z, ks, ls, (List.append_assoc ..).symm, rfl, ⟨y, rfl, hr⟩, ?_⟩
      rwa [List.append_assoc] at hp

/-- **The ways of a choice whose first side alone is behind a text.** -/
def TakesBehind (t : Text) : WrittenExpr .choice → (name : Text) → (held : List (Nat × Text)) → Prop
  | only r, name, hs => ∃ rest, name = t ++ rest ∧ Takes t (r.expr 0) rest [] hs
  | other c r, name, hs => TakesBehind t c name hs ∨ Takes [] (r.expr c.groups) name [] hs

theorem takes_behind {t : Text} {c : WrittenExpr .choice} {name : Text} :
    Takes [] ((c.behind t).expr 0) name [] hs ↔ c.TakesBehind t name hs := by
  match c with
  | only r =>
    rw [TakesBehind]
    exact takes_behind_row
  | other c r =>
    show Takes [] (.alt ((c.behind t).expr 0) (r.expr (0 + (c.behind t).groups))) name [] hs ↔ _
    rw [TakesBehind, takes_alt_iff, takes_behind, groups_behind, Nat.zero_add]

/-! ## 4. Entries -/

/-- **Every group has an entry**, if no repetition asks for no rounds at all. -/
theorem max_lastGroup_expr {k : ExprRank} {w : WrittenExpr k}
    (h : ∀ r greedy, .repeat r greedy ∈ w.signs → r.most ≠ some 0) :
    max n (w.expr n).lastGroup = n + w.groups := by
  induction w generalizing n with
  | set | place | flags | empty => exact Nat.max_zero n
  | group head i ih =>
    have hi := ih (n := n + head.count) fun r greedy hmem =>
      h r greedy (List.mem_cons_of_mem _ (List.mem_append_left _ hmem))
    cases head with
    | captures name =>
      show max n (max (n + 1) (i.expr (n + 1)).lastGroup) = n + (1 + i.groups)
      have hi : max (n + 1) (i.expr (n + 1)).lastGroup = n + 1 + i.groups := hi
      omega
    | holds items =>
      rw [show (group (.holds items) i).groups = i.groups from Nat.zero_add _]
      exact hi
  | repeated p r greedy ih =>
    have hmost : r.most ≠ some 0 := h r greedy (List.mem_append_right _ (List.mem_singleton_self _))
    have hp : (p.expr n).lastGroup = ((p.expr n).rounds r.least r.most greedy).lastGroup := by
      refine eq_of_forall_ge_iff fun m => ?_
      rw [(byParts_lastGroup_le m).rounds_iff r.least_le]
      exact (or_iff_right hmost).symm
    show max n ((p.expr n).rounds r.least r.most greedy).lastGroup = n + p.groups
    rw [← hp]
    exact ih fun r greedy hmem => h r greedy (List.mem_append_left _ hmem)
  | more r p ihr ihp =>
    have hr := ihr (n := n) fun q greedy hmem => h q greedy (List.mem_append_left _ hmem)
    have hp := ihp (n := n + r.groups) fun q greedy hmem => h q greedy (List.mem_append_right _ hmem)
    show max n (max (r.expr n).lastGroup (p.expr (n + r.groups)).lastGroup) = n + (r.groups + p.groups)
    omega
  | only r ih => exact ih h
  | other c r ihc ihr =>
    have hc := ihc (n := n) fun q greedy hmem => h q greedy (List.mem_append_left _ hmem)
    have hr := ihr (n := n + c.groups) fun q greedy hmem =>
      h q greedy (List.mem_append_right _ (List.mem_cons_of_mem _ hmem))
    show max n (max (c.expr n).lastGroup (r.expr (n + c.groups)).lastGroup) = n + (c.groups + r.groups)
    omega

theorem entries_eq_groups {c : WrittenExpr .choice}
    (h : ∀ r greedy, .repeat r greedy ∈ c.signs → r.most ≠ some 0) :
    c.entries = c.groups := by
  have hmax := max_lastGroup_expr (n := 0) h
  rwa [Nat.zero_max, Nat.zero_add] at hmax

end WrittenExpr

/-! ## 5. Names that patterns recognize -/

namespace Pattern

variable {p p' : Pattern} {w : WrittenExpr .choice}

namespace Recognizes

/-- Patterns of one language capture the same, if no name has two ways. -/
theorem captures_congr {groups : Nat} {language : Text → List (Nat × Text) → Prop}
    (h : p.Recognizes groups language) (h' : p'.Recognizes groups language)
    (hone : ∀ name hs hs', language name hs → language name hs' → hs = hs') (name : Text) :
    p.captures name = p'.captures name := by
  have hiff := (h.isSome_captures_iff name).trans (h'.isSome_captures_iff name).symm
  cases hcs : p.captures name with
  | none =>
    rw [hcs] at hiff
    exact (Option.not_isSome_iff_eq_none.1 fun hsome => nomatch hiff.2 hsome).symm
  | some cs =>
    rw [hcs] at hiff
    obtain ⟨cs', hcs'⟩ := Option.isSome_iff_exists.1 (hiff.1 rfl)
    obtain ⟨hs, hl, rfl⟩ := h.captures_eq name cs hcs
    obtain ⟨hs', hl', rfl⟩ := h'.captures_eq name cs' hcs'
    rw [hcs', hone name hs hs' hl hl']

/-- A literal is its name alone. -/
theorem literal (s : Text) : (Pattern.literal s).Recognizes 0 fun name hs => name = s ∧ hs = [] := by
  have hmatch : ∀ name, ((Pattern.literal s).captures name).isSome = true ↔
      ∃ hs : List (Nat × Text), name = s ∧ hs = [] :=
    fun name => isMatch_literal_iff.trans ⟨fun h => ⟨[], h, rfl⟩, fun ⟨_, h, _⟩ => h⟩
  refine of_captures hmatch fun name cs hcs => ?_
  obtain ⟨hs, rfl, rfl⟩ := (hmatch name).1 (Option.isSome_iff_exists.2 ⟨cs, hcs⟩)
  obtain ⟨r, -, hr⟩ := Option.bind_eq_some_iff.1 hcs
  unfold partCaptures at hr
  split at hr
  · obtain rfl := Option.some.inj hr
    exact ⟨[], ⟨rfl, rfl⟩, rfl⟩
  · cases hr

end Recognizes

/-- In a namespace an expression is behind the name of the namespace. -/
theorem exprSigns?_within (space f : Text) : exprSigns? tables (escapeExpr space ++ '_' :: f) =
    (exprSigns? tables f).map (literalSigns (space ++ ['_']) ++ ·) := by
  rw [← exprSigns?_behind]
  unfold escapeExpr
  rw [List.flatMap_append, List.append_assoc]
  rfl

namespace Recognizes

variable {space : Text}

/-- **A choice in a namespace is behind the name of the namespace in its first side alone.** -/
theorem within (hsigns : exprSigns? tables f = some w.signs) (h : ofExpressionWithin? space f tables = some p) :
    p.Recognizes w.entries (w.TakesBehind (space ++ ['_'])) := by
  have hwithin : exprSigns? tables (escapeExpr space ++ '_' :: f) = some (w.behind (space ++ ['_'])).signs := by
    rw [exprSigns?_within, hsigns, WrittenExpr.signs_behind]
    rfl
  have halone := alone hwithin h
  rw [WrittenExpr.entries_behind] at halone
  exact halone.congr fun name hs => WrittenExpr.takes_behind

/-- A row in a namespace is behind the name of the namespace, unless it looks back. -/
theorem rowWithin {r : WrittenExpr .row} (hback : (r.expr 0).looksBack = false)
    (hsigns : exprSigns? tables f = some r.signs) (h : ofExpressionWithin? space f tables = some p) :
    p.Recognizes (r.expr 0).lastGroup fun name hs =>
      ∃ rest, name = space ++ '_' :: rest ∧ Takes [] (r.expr 0) rest [] hs := by
  refine (within (w := .only r) hsigns h).congr fun name hs => ?_
  rw [WrittenExpr.TakesBehind]
  constructor
  · rintro ⟨rest, rfl, htakes⟩
    exact ⟨rest, List.append_assoc .., htakes.elsewhere hback []⟩
  · rintro ⟨rest, rfl, htakes⟩
    exact ⟨rest, List.append_cons space '_' rest, htakes.elsewhere hback _⟩

end Recognizes

theorem exprSigns?_escapeExpr (s : Text) :
    exprSigns? tables (escapeExpr s) = some (WrittenExpr.only (.literal s)).signs := by
  have hbehind : exprSigns? tables (escapeExpr s ++ []) = _ := exprSigns?_behind s []
  rw [List.append_nil] at hbehind
  rw [hbehind]
  show some (literalSigns s ++ []) = some (WrittenExpr.literal s).signs
  rw [List.append_nil, WrittenExpr.signs_literal]

/-- A name written so that each of its characters stands for itself makes a pattern that is as the literal. -/
theorem captures_of_escapeExpr {s : Text} (h : ofExpression? (escapeExpr s) tables = some p) (name : Text) :
    p.captures name = (literal s).captures name := by
  have halone := Recognizes.alone (exprSigns?_escapeExpr s) h
  have hentries : (WrittenExpr.only (.literal s)).entries = 0 := WrittenExpr.lastGroup_literal s 0
  rw [hentries] at halone
  have hliteral : p.Recognizes 0 fun name hs => name = s ∧ hs = [] :=
    halone.congr fun name hs => WrittenExpr.takes_literal
  exact hliteral.captures_congr (.literal s) (fun name hs hs' h h' => h.2.trans h'.2.symm) name

end Pattern

/-- **What the patterns of a text recognize**: of the text as an expression, as a literal, and as an expression in a
    namespace, whatever the tables say. -/
structure Pattern.WholeNames (tables : ExprTables) (space f : Text) : Prop where
  /-- just what can be written is valid alone, if it does not give two groups one name -/
  valid : (readExpr? tables f).isSome = true ↔
    ∃ w : WrittenExpr .choice, exprSigns? tables f = some w.signs ∧ (w.signs.filterMap ExprSign.name?).Nodup
  /-- what is written alone is accepted unless it ends in a comment, gives two groups one name, nests too deep or is
      too large when put together -/
  accepts : ∀ w : WrittenExpr .choice, exprSigns? tables f = some w.signs →
    ∃ whole, Expresses whole 0 w.wrapped ∧ ((ofExpression? f tables).isSome = true ↔
      endsInComment tables f = false ∧ (w.signs.filterMap ExprSign.name?).Nodup ∧ w.levels + 2 ≤ maxLevels ∧
        tables.fits whole = true)
  /-- it is then of the names that it takes from the first character to the last -/
  alone : ∀ w : WrittenExpr .choice, exprSigns? tables f = some w.signs → ∀ p, ofExpression? f tables = some p →
    p.Recognizes w.entries fun name hs => Takes [] (w.expr 0) name [] hs
  /-- a match has an entry for each group, if nothing is repeated no times at all -/
  entries : ∀ w : WrittenExpr .choice, exprSigns? tables f = some w.signs →
    (∀ r greedy, .repeat r greedy ∈ w.signs → r.most ≠ some 0) → w.entries = w.groups
  /-- all else that is accepted closes the group that it is put in between the ends of a name -/
  closes : ∀ p, ofExpression? f tables = some p →
    (∃ w : WrittenExpr .choice, exprSigns? tables f = some w.signs) ∨
    ∃ a b, f = a ++ ')' :: b ∧ ∃ w : WrittenExpr .choice, exprSigns? tables a = some w.signs
  /-- and is what is written there, anywhere in a name -/
  between : ∀ p, ofExpression? f tables = some p →
    (∃ whole : WrittenExpr .choice, exprSigns? tables (betweenEnds f) = some whole.signs) ∧
    ∀ whole : WrittenExpr .choice, exprSigns? tables (betweenEnds f) = some whole.signs →
      p.Recognizes whole.entries fun name hs => ∃ u x v, name = u ++ (x ++ v) ∧ Takes u (whole.expr 0) x v hs
  /-- a literal is its name alone -/
  literal : (Pattern.literal f).Recognizes 0 fun name hs => name = f ∧ hs = []
  /-- and so is the expression that escapes it -/
  escapes : exprSigns? tables (escapeExpr f) = some (literalSigns f) ∧
    ∀ p, ofExpression? (escapeExpr f) tables = some p →
      ∀ name, p.captures name = (Pattern.literal f).captures name
  /-- in a namespace the first side of a choice alone is behind the name of the namespace -/
  within : ∀ w : WrittenExpr .choice, exprSigns? tables f = some w.signs →
    ∀ p, ofExpressionWithin? space f tables = some p → p.Recognizes w.entries (w.TakesBehind (space ++ ['_']))
  /-- so a row is, unless a place in it is tested for what stands before it -/
  rowWithin : ∀ r : WrittenExpr .row, exprSigns? tables f = some r.signs → (r.expr 0).looksBack = false →
    ∀ p, ofExpressionWithin? space f tables = some p → p.Recognizes (r.expr 0).lastGroup fun name hs =>
      ∃ rest, name = space ++ '_' :: rest ∧ Takes [] (r.expr 0) rest [] hs

/-- **Patterns are of whole names, as far as what they are written from is valid on its own** and, in a namespace, has
    one side that does not look back. -/
theorem Pattern.recognizesWholeNames (tables : ExprTables) (space f : Text) : WholeNames tables space f where
  valid := by
    constructor
    · intro h
      obtain ⟨w, hw⟩ := exists_of_readExpr? h
      exact ⟨w, hw, (isSome_readExpr?_iff hw).1 h⟩
    · rintro ⟨w, hw, hnames⟩
      exact (isSome_readExpr?_iff hw).2 hnames
  accepts _ h := exists_accepts h
  alone _ hw _ h := .alone hw h
  entries _ _ h := WrittenExpr.entries_eq_groups h
  closes _ h := exists_alone_or_closes h
  between p h := by
    obtain ⟨whole, hread, -⟩ := ofExpression?_eq_some_iff.1 h
    exact ⟨exists_of_readExpr? (Option.isSome_iff_exists.2 ⟨whole, hread⟩), fun _ hw => .between hw h⟩
  literal := .literal f
  escapes := by
    refine ⟨?_, fun p h => captures_of_escapeExpr h⟩
    rw [← WrittenExpr.signs_literal]
    exact exprSigns?_escapeExpr f
  within _ hw _ h := .within hw h
  rowWithin _ hr hback _ h := .rowWithin hback hr h

/-- The expression `Tale_(Initial)?`. -/
def taleName : WrittenExpr .choice :=
  let initial : WrittenExpr (.piece true) := .group (.captures none) (.only (.literal "Initial".toList))
  (WrittenExpr.only (.more .empty (.repeated initial .optional true))).behind "Tale_".toList

/-- A group that takes no part captures the empty text; an expression may leave its group; a namespace is escaped,
    missing in front of a second side, and seen by an edge of a word. -/
theorem Pattern.recognizesWholeNames_sides :
    (∃ p, ofExpression? "Tale_(Initial)?".toList = some p ∧ p.captures "Tale_".toList = some [[]]) ∧
    (∃ p, ofExpression? "a)|(?:b".toList = some p ∧ p.isMatch "ax".toList = true) ∧
    (∃ p, ofExpressionWithin? "Npc".toList "A|B".toList = some p ∧
      p.isMatch "B".toList = true ∧ p.isMatch "Npc_B".toList = false) ∧
    (∃ p, ofExpressionWithin? "A.B".toList ".".toList = some p ∧
      p.isMatch "A.B_1".toList = true ∧ p.isMatch "AxB_1".toList = false) ∧
    ∃ p, ofExpressionWithin? "Npc".toList "\\bX".toList = some p ∧ p.isMatch "Npc_X".toList = false := by
  refine ⟨?_, ?_, ?_, ?_, ?_⟩
  · obtain ⟨p, hp⟩ := Option.isSome_iff_exists.1
      (show (ofExpression? "Tale_(Initial)?".toList).isSome = true by decide)
    have h := (recognizesWholeNames .ascii [] _).alone taleName (by decide) p hp
    have hone : ∀ hs, Takes [] (taleName.expr 0) "Tale_".toList [] hs ↔ hs = [] := by
      intro hs
      simp [taleName, WrittenExpr.behind, WrittenExpr.expr, Repetition.optional, NameExpr.rounds, GroupHead.expr,
        takes_seq_iff, takes_optional_iff, takes_group_iff, WrittenExpr.takes_literal]
    obtain ⟨cs, hcs⟩ := Option.isSome_iff_exists.1 ((h.isSome_captures_iff _).2 ⟨[], (hone []).2 rfl⟩)
    obtain ⟨hs, htakes, rfl⟩ := h.captures_eq _ cs hcs
    rw [(hone hs).1 htakes] at hcs
    exact ⟨p, hp, hcs⟩
  · obtain ⟨p, hp⟩ := Option.isSome_iff_exists.1 (show (ofExpression? "a)|(?:b".toList).isSome = true by decide)
    have h := ((recognizesWholeNames .ascii [] _).between p hp).2 (.other
      (.only (.more (.more .empty (.place .start)) (.group (.holds []) (.only (.literal ['a'])))))
      (.more (.more .empty (.group (.holds []) (.only (.literal ['b'])))) (.place .stop))) (by decide)
    refine ⟨p, hp, (h.isMatch_iff _).2 ⟨[], [], ['a'], ['x'], rfl, ?_⟩⟩
    simp [WrittenExpr.expr, GroupHead.expr, PlaceTest.holds, takes_alt_iff, takes_seq_iff, takes_word_iff,
      takes_place_iff, WrittenExpr.takes_literal]
  · obtain ⟨p, hp⟩ := Option.isSome_iff_exists.1
      (show (ofExpressionWithin? "Npc".toList "A|B".toList).isSome = true by decide)
    have h := (recognizesWholeNames .ascii "Npc".toList "A|B".toList).within
      (.other (.only (.literal ['A'])) (.literal ['B'])) (by decide) p hp
    refine ⟨p, hp, (h.isMatch_iff _).2 ⟨[], ?_⟩, ?_⟩
    · simp [WrittenExpr.TakesBehind, WrittenExpr.takes_literal]
    · refine Bool.eq_false_iff.2 fun hmatch => ?_
      obtain ⟨hs, htakes⟩ := (h.isMatch_iff _).1 hmatch
      simp [WrittenExpr.TakesBehind, WrittenExpr.takes_literal] at htakes
  · obtain ⟨p, hp⟩ := Option.isSome_iff_exists.1
      (show (ofExpressionWithin? "A.B".toList ".".toList).isSome = true by decide)
    have h := (recognizesWholeNames .ascii "A.B".toList ".".toList).rowWithin (.more .empty (.set .inLine 0))
      (by decide) rfl p hp
    refine ⟨p, hp, (h.isMatch_iff _).2 ⟨[], ['1'], rfl, .seq (.word []) (.oneOf rfl)⟩, ?_⟩
    refine Bool.eq_false_iff.2 fun hmatch => ?_
    obtain ⟨hs, rest, hname, -⟩ := (h.isMatch_iff _).1 hmatch
    simp at hname
  · obtain ⟨p, hp⟩ := Option.isSome_iff_exists.1
      (show (ofExpressionWithin? "Npc".toList "\\bX".toList).isSome = true by decide)
    have h := (recognizesWholeNames .ascii "Npc".toList "\\bX".toList).within
      (.only (.more (.more .empty (.place (.word .edge .asciiWord))) (.set (.only 'X') 0))) (by decide) p hp
    refine ⟨p, hp, Bool.eq_false_iff.2 fun hmatch => ?_⟩
    obtain ⟨hs, htakes⟩ := (h.isMatch_iff _).1 hmatch
    have hedge : PlaceTest.holds (.word .edge .asciiWord) (some '_') (some 'X') = false := by decide
    simp [WrittenExpr.TakesBehind, WrittenExpr.expr, takes_seq_iff, takes_word_iff, takes_place_iff, takes_oneOf_iff,
      hedge] at htakes

end RecordExport

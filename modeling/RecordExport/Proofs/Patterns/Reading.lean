import RecordExport.Proofs.Patterns.Written
/-!
# Reading expressions

An expression is put between the signs for the ends of a name before it is read, inside a group. What is read inside
a group is what is read outside it, as long as it does not close the group itself.

* `ExprReader.read_cases`: a text inside groups is read as it is alone, up to where it closes the innermost of them;
* `exprSigns?_betweenEnds`: the signs of a text between the ends of a name;
* `exists_closed_of_accepted`: what is accepted there is read alone, up to where it closes the group it is put in.
-/

namespace RecordExport

variable {tables : ExprTables} {c : Char} {t : Text} {sign : ExprSign} {signs more : List ExprSign}

/-! ## 1. Flags inside groups -/

namespace FlagStack

variable {s s' : FlagStack} {below : List ExprFlags}

theorem takeAll_cons (s : FlagStack) (sign : ExprSign) (signs : List ExprSign) :
    s.takeAll (sign :: signs) = (s.take sign).bind fun s => s.takeAll signs := List.foldlM_cons ..

theorem takeAll_append (s : FlagStack) (signs more : List ExprSign) :
    s.takeAll (signs ++ more) = (s.takeAll signs).bind fun s => s.takeAll more := List.foldlM_append ..

/-- The flags inside other groups. -/
def onTop (s : FlagStack) (below : List ExprFlags) : FlagStack := ⟨s.flags, s.outer ++ below⟩

/-- Inside other groups a sign does the same, unless it closes one that is not the stack's own. -/
theorem take_onTop (h : sign = .closes → s.outer ≠ []) (below : List ExprFlags) :
    (s.onTop below).take sign = (s.take sign).map (·.onTop below) := by
  cases sign with
  | closes =>
    obtain ⟨flags, outer⟩ := s
    cases outer with
    | nil => exact absurd rfl (h rfl)
    | cons => rfl
  | _ => rfl

theorem takeAll_onTop (h : .closes ∉ signs) (s : FlagStack) (below : List ExprFlags) :
    (s.onTop below).takeAll signs = (s.takeAll signs).map (·.onTop below) := by
  induction signs generalizing s with
  | nil => rfl
  | cons sign signs ih =>
    obtain ⟨hsign, hsigns⟩ := List.ne_and_not_mem_of_not_mem_cons h
    rw [takeAll_cons, takeAll_cons, take_onTop fun heq => absurd heq.symm hsign, Option.bind_map, Option.map_bind]
    exact congrArg _ (funext (ih hsigns))

theorem takeAll_onTop_of_some (h : s.takeAll signs = some s') (below : List ExprFlags) :
    (s.onTop below).takeAll signs = some (s'.onTop below) := by
  induction signs generalizing s with
  | nil =>
    obtain rfl := Option.some.inj h
    rfl
  | cons sign signs ih =>
    rw [takeAll_cons] at h ⊢
    obtain ⟨s₁, hfirst, hrest⟩ := Option.bind_eq_some_iff.1 h
    have hcloses : sign = .closes → s.outer ≠ [] := by
      rintro rfl houter
      unfold take at hfirst
      rw [houter] at hfirst
      cases hfirst
    rw [take_onTop hcloses, hfirst]
    exact ih hrest

end FlagStack

/-! ## 2. What is begun -/

namespace ReadMode

variable {flags : ExprFlags} {m m' : ReadMode}

theorem closes_not_mem_settle (m : ReadMode) : .closes ∉ (m.settle tables flags c).1 := by
  fun_cases settle tables flags m c <;> simp [Repetition.sign]

/-- None of the signs closes a group. -/
def ClosesNone (o : Option (ReadMode × List ExprSign)) : Prop := ∀ r ∈ o, .closes ∉ r.2

theorem closesNone_map {α : Type} {f : α → ReadMode × List ExprSign} {o : Option α}
    (h : ∀ a ∈ o, .closes ∉ (f a).2) :
    ClosesNone (o.map f) := by
  intro r hr
  obtain ⟨a, ha, rfl⟩ := Option.map_eq_some_iff.1 hr
  exact h a ha

theorem closesNone_some {r : ReadMode × List ExprSign} (h : .closes ∉ r.2) : ClosesNone (some r) := by
  rintro _ ⟨⟩
  exact h

theorem closesNone_completeSet (o : Option CharSet) : ClosesNone (o.map completeSet) :=
  closesNone_map fun s _ => by simp [completeSet, complete]

theorem nextFlag_ne_closes (items : List FlagItem) : HeadMode.nextFlag items c ≠ some (.inr .closes) := by
  fun_cases HeadMode.nextFlag items c with
  | case5 => simp [Option.bind_eq_some_iff]
  | _ => simp

theorem head_next_ne_closes (m : HeadMode) : m.next tables c ≠ some (.inr .closes) := by
  fun_cases HeadMode.next tables m c with
  | case5 => exact nextFlag_ne_closes []
  | case12 items => exact nextFlag_ne_closes items
  | _ => simp

/-- **A group is closed by a bracket only**, where nothing is begun. -/
theorem closesNone_next (h : ¬ (m = .between ∧ c = ')')) : ClosesNone (m.next tables flags c) := by
  fun_cases next tables flags m c with
  | case2 => exact absurd ⟨rfl, rfl⟩ h
  | case10 => exact closesNone_completeSet _
  | case13 => exact closesNone_completeSet _
  | case15 => exact closesNone_map fun _ _ => List.not_mem_nil
  | case17 m =>
    intro r hr
    obtain ⟨e, -, hr⟩ := Option.bind_eq_some_iff.1 hr
    split at hr
    · exact closesNone_some (r := (_, [])) List.not_mem_nil r hr
    · exact closesNone_completeSet _ r hr
    · exact closesNone_some (r := (_, [])) List.not_mem_nil r hr
    · exact closesNone_some (r := complete _) (by simp [complete]) r hr
    · exact closesNone_completeSet _ r hr
    · exact closesNone_completeSet _ r hr
  | case19 => exact closesNone_map fun _ _ => by simp [complete]
  | case21 => exact fun _ h => nomatch h
  | case22 => exact closesNone_map fun r _ => by cases r <;> simp [complete]
  | case23 =>
    refine closesNone_map fun r hr => ?_
    cases r with
    | inl m => exact List.not_mem_nil
    | inr sign =>
      have hne : sign ≠ .closes := fun heq => head_next_ne_closes _ (heq ▸ hr)
      exact fun hmem => hne (List.mem_singleton.1 hmem).symm
  | _ => exact closesNone_some (by simp [complete, Repetition.sign])

/-- What is settled and leaves nothing begun is what was pending, if no group was opened. -/
theorem pending?_of_settle (h : m.settle tables flags c = (signs, .between)) :
    m.pending? tables flags = some signs ∨ signs = [.captures none] := by
  revert h
  fun_cases settle tables flags m c <;> rintro ⟨⟩ <;> first | exact .inl rfl | exact .inr rfl

/-- What is pending is settled by a closing bracket. -/
theorem settle_of_pending? (h : m.pending? tables flags = some signs) :
    m.settle tables flags ')' = (signs, .between) := by
  unfold pending? at h
  split at h <;> cases h <;> simp [settle, isBlank]

/-- The signs of what is pending leave the flags as they are. -/
theorem takeAll_pending {s : FlagStack} (h : m.pending? tables flags = some signs) : s.takeAll signs = some s := by
  unfold pending? at h
  split at h <;> cases h <;> rfl

/-- A step that closes a group reads the bracket, and completes what was begun. -/
theorem settle_of_closes {inComment inComment' : Bool}
    (h : m.step? tables flags inComment c = some (m', inComment', signs)) (hmem : .closes ∈ signs) :
    inComment = false ∧ c = ')' ∧
      ∃ settled, m.settle tables flags c = (settled, .between) ∧ signs = settled ++ [.closes] := by
  have hsettled : .closes ∉ (m.settle tables flags c).1 := m.closes_not_mem_settle
  unfold step? at h
  split at h
  · obtain ⟨-, -, rfl⟩ := Option.some.inj h
    cases hmem
  next hcomment =>
  generalize hsettle : m.settle tables flags c = settled at h hsettled
  obtain ⟨settled, m₁⟩ := settled
  dsimp only at h hsettled
  split at h
  · obtain ⟨-, -, rfl⟩ := Option.some.inj h
    exact absurd hmem hsettled
  obtain ⟨⟨m₂, more⟩, hnext, heq⟩ := Option.map_eq_some_iff.1 h
  obtain ⟨-, -, rfl⟩ := heq
  have hmore := (List.mem_append.1 hmem).resolve_left hsettled
  by_cases hbracket : m₁ = .between ∧ c = ')'
  · obtain ⟨rfl, rfl⟩ := hbracket
    obtain ⟨-, rfl⟩ := Prod.mk.inj (Option.some.inj hnext)
    exact ⟨Bool.eq_false_iff.2 hcomment, rfl, settled, rfl, rfl⟩
  · exact absurd hmore (closesNone_next hbracket _ hnext)

end ReadMode

/-! ## 3. Readers inside groups -/

namespace ExprReader

variable {r r' : ExprReader} {below : List ExprFlags}

/-- The reader inside other groups. -/
def onTop (r : ExprReader) (below : List ExprFlags) : ExprReader := { r with stack := r.stack.onTop below }

theorem next_eq_some_iff : r.next tables c = some (r', signs) ↔
    r.mode.step? tables r.stack.flags r.inComment c = some (r'.mode, r'.inComment, signs) ∧
      r.stack.takeAll signs = some r'.stack := by
  unfold next
  rw [Option.bind_eq_some_iff]
  constructor
  · rintro ⟨⟨m, inComment, signs'⟩, hstep, h⟩
    obtain ⟨stack, hstack, heq⟩ := Option.map_eq_some_iff.1 h
    obtain ⟨rfl, rfl⟩ := Prod.mk.inj heq
    exact ⟨hstep, hstack⟩
  · rintro ⟨hstep, hstack⟩
    exact ⟨_, hstep, Option.map_eq_some_iff.2 ⟨_, hstack, rfl⟩⟩

theorem next_onTop (h : r.next tables c = some (r', signs)) (below : List ExprFlags) :
    (r.onTop below).next tables c = some (r'.onTop below, signs) := by
  obtain ⟨hstep, hstack⟩ := next_eq_some_iff.1 h
  exact next_eq_some_iff.2 ⟨hstep, FlagStack.takeAll_onTop_of_some hstack below⟩

/-- **Inside other groups a reader goes on as it does alone**, unless the character closes the group that the reader
    began in. -/
theorem next_cases (h : (r.onTop below).next tables c = some (r', signs)) :
    (∃ r₀, r.next tables c = some (r₀, signs) ∧ r' = r₀.onTop below) ∨
    (c = ')' ∧ r.inComment = false ∧ r.stack.outer = [] ∧
      ∃ pending, r.pending? tables = some pending ∧ signs = pending ++ [.closes]) := by
  obtain ⟨hstep, hstack⟩ := next_eq_some_iff.1 h
  have hstep : r.mode.step? tables r.stack.flags r.inComment c = some (r'.mode, r'.inComment, signs) := hstep
  have hstack : (r.stack.onTop below).takeAll signs = some r'.stack := hstack
  have halone : ∀ {stack}, r.stack.takeAll signs = some stack →
      ∃ r₀, r.next tables c = some (r₀, signs) ∧ r' = r₀.onTop below := by
    intro stack htake
    have heq := Option.some.inj ((FlagStack.takeAll_onTop_of_some htake below).symm.trans hstack)
    refine ⟨⟨r'.mode, r'.inComment, stack⟩, next_eq_some_iff.2 ⟨hstep, htake⟩, ?_⟩
    unfold onTop
    rw [heq]
  by_cases hmem : ExprSign.closes ∈ signs
  · obtain ⟨hcomment, rfl, settled, hsettle, rfl⟩ := ReadMode.settle_of_closes hstep hmem
    rcases ReadMode.pending?_of_settle hsettle with hpending | rfl
    · cases houter : r.stack.outer with
      | nil => exact .inr ⟨rfl, hcomment, rfl, settled, hpending, rfl⟩
      | cons flags outer =>
        refine .inl (@halone ⟨flags, outer⟩ ?_)
        rw [FlagStack.takeAll_append, ReadMode.takeAll_pending hpending, Option.bind_some, FlagStack.takeAll_cons,
          FlagStack.take, houter]
        rfl
    · exact .inl (@halone r.stack rfl)
  · rw [FlagStack.takeAll_onTop hmem] at hstack
    obtain ⟨stack, htake, -⟩ := Option.map_eq_some_iff.1 hstack
    exact .inl (halone htake)

/-! ### Texts -/

theorem read_cons_iff : r.read tables (c :: t) = some (r', signs) ↔ ∃ r₁ first rest,
    r.next tables c = some (r₁, first) ∧ r₁.read tables t = some (r', rest) ∧ signs = first ++ rest := by
  rw [read, Option.bind_eq_some_iff]
  constructor
  · rintro ⟨⟨r₁, first⟩, hnext, h⟩
    obtain ⟨⟨r₂, rest⟩, hread, heq⟩ := Option.map_eq_some_iff.1 h
    obtain ⟨rfl, rfl⟩ := Prod.mk.inj heq
    exact ⟨r₁, first, rest, hnext, hread, rfl⟩
  · rintro ⟨r₁, first, rest, hnext, hread, rfl⟩
    exact ⟨(r₁, first), hnext, Option.map_eq_some_iff.2 ⟨(r', rest), hread, rfl⟩⟩

theorem read_nil_iff : r.read tables [] = some (r', signs) ↔ r' = r ∧ signs = [] := by
  unfold read
  rw [Option.some_inj, Prod.mk.injEq, eq_comm, eq_comm (a := signs)]

theorem read_append_iff {s : Text} : r.read tables (s ++ t) = some (r', signs) ↔ ∃ r₁ first rest,
    r.read tables s = some (r₁, first) ∧ r₁.read tables t = some (r', rest) ∧ signs = first ++ rest := by
  induction s generalizing r signs with
  | nil =>
    constructor
    · exact fun h => ⟨r, [], signs, rfl, h, rfl⟩
    · rintro ⟨r₁, first, rest, hnil, hread, rfl⟩
      obtain ⟨rfl, rfl⟩ := read_nil_iff.1 hnil
      exact hread
  | cons c s ih =>
    rw [List.cons_append, read_cons_iff]
    constructor
    · rintro ⟨r₁, first, rest, hnext, hboth, rfl⟩
      obtain ⟨r₂, second, rest, hread, hrest, rfl⟩ := ih.1 hboth
      exact ⟨r₂, first ++ second, rest, read_cons_iff.2 ⟨r₁, first, second, hnext, hread, rfl⟩, hrest,
        (List.append_assoc ..).symm⟩
    · rintro ⟨r₂, first, rest, hcons, hrest, rfl⟩
      obtain ⟨r₁, first, second, hnext, hread, rfl⟩ := read_cons_iff.1 hcons
      exact ⟨r₁, first, second ++ rest, hnext, ih.2 ⟨r₂, second, rest, hread, hrest, rfl⟩,
        List.append_assoc ..⟩

/-- The flags are what the signs of the text make of them. -/
theorem takeAll_of_read (h : r.read tables t = some (r', signs)) : r.stack.takeAll signs = some r'.stack := by
  induction t generalizing r signs with
  | nil =>
    obtain ⟨rfl, rfl⟩ := read_nil_iff.1 h
    rfl
  | cons c t ih =>
    obtain ⟨r₁, first, rest, hnext, hread, rfl⟩ := read_cons_iff.1 h
    rw [FlagStack.takeAll_append, (next_eq_some_iff.1 hnext).2]
    exact ih hread

theorem read_onTop (h : r.read tables t = some (r', signs)) (below : List ExprFlags) :
    (r.onTop below).read tables t = some (r'.onTop below, signs) := by
  induction t generalizing r signs with
  | nil =>
    obtain ⟨rfl, rfl⟩ := read_nil_iff.1 h
    rfl
  | cons c t ih =>
    obtain ⟨r₁, first, rest, hnext, hread, rfl⟩ := read_cons_iff.1 h
    exact read_cons_iff.2 ⟨_, first, rest, next_onTop hnext below, ih hread, rfl⟩

/-- **A text inside other groups is read as it is alone**, or up to where it closes the group it began in. -/
theorem read_cases (h : (r.onTop below).read tables t = some (r', signs)) :
    (∃ r₀, r.read tables t = some (r₀, signs) ∧ r' = r₀.onTop below) ∨
    ∃ t₁ t₂ r₀ inside pending rest, t = t₁ ++ ')' :: t₂ ∧ r.read tables t₁ = some (r₀, inside) ∧
      r₀.inComment = false ∧ r₀.stack.outer = [] ∧ r₀.pending? tables = some pending ∧
      signs = inside ++ pending ++ .closes :: rest := by
  induction t generalizing r signs with
  | nil =>
    obtain ⟨rfl, rfl⟩ := read_nil_iff.1 h
    exact .inl ⟨r, rfl, rfl⟩
  | cons c t ih =>
    obtain ⟨r₁, first, rest, hnext, hread, rfl⟩ := read_cons_iff.1 h
    rcases next_cases hnext with ⟨r₀, halone, rfl⟩ | ⟨rfl, hcomment, houter, pending, hpending, rfl⟩
    · rcases ih hread with ⟨r₃, hread₀, rfl⟩ |
          ⟨t₁, t₂, r₃, inside, pending, rest, rfl, hread₀, hcomment, houter, hpending, rfl⟩
      · exact .inl ⟨r₃, read_cons_iff.2 ⟨r₀, first, rest, halone, hread₀, rfl⟩, rfl⟩
      · refine .inr ⟨c :: t₁, t₂, r₃, first ++ inside, pending, rest, rfl, ?_, hcomment, houter,
          hpending, ?_⟩
        · exact read_cons_iff.2 ⟨r₀, first, inside, halone, hread₀, rfl⟩
        · simp only [List.append_assoc]
    · refine .inr ⟨[], t, r, [], pending, rest, rfl, rfl, hcomment, houter, hpending, ?_⟩
      simp

end ExprReader

/-! ## 4. Groups inside groups -/

namespace ExprStack

variable {s s' : ExprStack} {flags flags' : FlagStack} {below : List ExprLevel}

/-- The open groups inside others. -/
def onTop (s : ExprStack) (below : List ExprLevel) : ExprStack := { s with outer := s.outer ++ below }

theorem take_onTop (h : sign = .closes → s.outer ≠ []) (below : List ExprLevel) :
    (s.onTop below).take sign = (s.take sign).map (·.onTop below) := by
  cases sign with
  | closes =>
    obtain ⟨level, outer, groups⟩ := s
    cases outer with
    | nil => exact absurd rfl (h rfl)
    | cons => rfl
  | «repeat» r greedy =>
    show (s.level.onLast? _).map _ = ((s.level.onLast? _).map _).map _
    rw [Option.map_map]
    rfl
  | _ => rfl

/-- Flags and groups are opened and closed together. -/
theorem length_outer_of_take (hlength : flags.outer.length = s.outer.length) (hflags : flags.take sign = some flags')
    (h : s.take sign = some s') : flags'.outer.length = s'.outer.length := by
  cases sign with
  | «repeat» r greedy =>
    obtain rfl := Option.some.inj hflags
    obtain ⟨level, -, rfl⟩ := Option.map_eq_some_iff.1 h
    exact hlength
  | closes =>
    obtain ⟨flag, outer⟩ := flags
    obtain ⟨level, outer', groups⟩ := s
    cases outer with
    | nil => cases hflags
    | cons flag' outer =>
      cases outer' with
      | nil => cases h
      | cons level' outer' =>
        obtain rfl := Option.some.inj hflags
        obtain rfl := Option.some.inj h
        exact Nat.succ.inj hlength
  | captures | holds =>
    obtain rfl := Option.some.inj hflags
    obtain rfl := Option.some.inj h
    exact congrArg (· + 1) hlength
  | _ =>
    obtain rfl := Option.some.inj hflags
    obtain rfl := Option.some.inj h
    exact hlength

/-- **Signs that close no more groups than they open do the same alone** as inside other groups. -/
theorem exists_of_takeAll_onTop (hlength : flags.outer.length = s.outer.length)
    (hflags : flags.takeAll signs = some flags') (h : (s.onTop below).takeAll signs = some s') :
    ∃ s₀, s.takeAll signs = some s₀ ∧ s' = s₀.onTop below ∧ flags'.outer.length = s₀.outer.length := by
  induction signs generalizing flags s with
  | nil =>
    obtain rfl := Option.some.inj hflags
    obtain rfl := Option.some.inj h
    exact ⟨s, rfl, rfl, hlength⟩
  | cons sign signs ih =>
    obtain ⟨flags₁, hflag, hflags⟩ := Option.bind_eq_some_iff.1 ((FlagStack.takeAll_cons ..).symm.trans hflags)
    rw [takeAll_cons] at h ⊢
    have hcloses : sign = .closes → s.outer ≠ [] := by
      rintro rfl houter
      rw [houter, List.length_nil, List.length_eq_zero_iff] at hlength
      unfold FlagStack.take at hflag
      rw [hlength] at hflag
      cases hflag
    rw [take_onTop hcloses, Option.bind_map] at h
    obtain ⟨s₁, htake, h⟩ := Option.bind_eq_some_iff.1 h
    rw [htake]
    exact ih (length_outer_of_take hlength hflag htake) hflags h

theorem length_outer_of_takeAll (hlength : flags.outer.length = s.outer.length)
    (hflags : flags.takeAll signs = some flags') (h : s.takeAll signs = some s') :
    flags'.outer.length = s'.outer.length := by
  have htop : (s.onTop []).takeAll signs = some s' := by
    unfold onTop
    rwa [List.append_nil]
  obtain ⟨s₀, htake, -, hlength⟩ := exists_of_takeAll_onTop hlength hflags htop
  obtain rfl := Option.some.inj (htake.symm.trans h)
  exact hlength

end ExprStack

/-! ## 5. Between the ends of a name -/

theorem exprSigns?_eq_some_iff : exprSigns? tables t = some signs ↔ ∃ r inside pending,
    ExprReader.start.read tables t = some (r, inside) ∧ r.pending? tables = some pending ∧
      signs = inside ++ pending := by
  unfold exprSigns?
  rw [Option.bind_eq_some_iff]
  constructor
  · rintro ⟨⟨r, inside⟩, hread, h⟩
    obtain ⟨pending, hpending, rfl⟩ := Option.map_eq_some_iff.1 h
    exact ⟨r, inside, pending, hread, hpending, rfl⟩
  · rintro ⟨r, inside, pending, hread, hpending, rfl⟩
    exact ⟨(r, inside), hread, Option.map_eq_some_iff.2 ⟨pending, hpending, rfl⟩⟩

example : exprSigns? .ascii "(?P<n>[b-d])*|_+?".toList = some
    [.captures (some ['n']), .set (.ofRange 'b' 'd') 1, .closes, .repeat .anyNumber true, .choice,
      .set (.only '_') 0, .repeat .oneOrMore false] := by decide

theorem ReadMode.pending?_skipped {flags : ExprFlags} (m : ReadMode) (c : Char) :
    (m.skipped c).pending? tables flags = m.pending? tables flags := by
  cases m <;> rfl

namespace ExprReader

variable {r r' : ExprReader} {pending : List ExprSign}

theorem next_of_inComment (h : r.inComment = true) (hc : c ≠ '\n') :
    r.next tables c = some ({ r with mode := r.mode.skipped c }, []) := by
  refine next_eq_some_iff.2 ⟨?_, rfl⟩
  unfold ReadMode.step?
  rw [if_pos h]
  simp [hc, h]

/-- A bracket behind what is complete closes the innermost group. -/
theorem next_closes (h : r.inComment = false) (hpending : r.pending? tables = some pending) {flags : ExprFlags}
    {outer : List ExprFlags} (houter : r.stack.outer = flags :: outer) :
    r.next tables ')' = some (⟨.between, false, ⟨flags, outer⟩⟩, pending ++ [.closes]) := by
  refine next_eq_some_iff.2 ⟨?_, ?_⟩
  · unfold ReadMode.step?
    rw [if_neg (by rw [h]; exact Bool.false_ne_true), ReadMode.settle_of_pending? hpending]
    have hblank : isBlank ')' = false := by decide
    simp [hblank, ReadMode.next]
  · rw [FlagStack.takeAll_append, ReadMode.takeAll_pending hpending, Option.bind_some, FlagStack.takeAll_cons,
      FlagStack.take, houter]
    rfl

/-- The signs for the start of a name and for the group behind it. -/
theorem read_opening : start.read tables "^(?:".toList =
    some (start.onTop [.initial], [.place .start, .holds []]) := rfl

/-- The signs for the end of the group and for the end of the name. -/
theorem read_closing (h : r.inComment = false) (hpending : r.pending? tables = some pending)
    (houter : r.stack.outer = []) : (r.onTop [.initial]).read tables ")$".toList =
      some (start, pending ++ [.closes, .place .stop]) := by
  have hbelow : (r.onTop [.initial]).stack.outer = .initial :: [] := by
    show r.stack.outer ++ [ExprFlags.initial] = _
    rw [houter]
    rfl
  have hclosed := @next_closes _ (r.onTop [.initial]) _ h hpending _ _ hbelow
  refine read_cons_iff.2 ⟨_, _, _, hclosed, read_cons_iff.2 ⟨start, [.place .stop], [], rfl, rfl, rfl⟩, ?_⟩
  simp

/-- In a comment that is left open they are part of it. -/
theorem read_closing_of_inComment (h : r.inComment = true) : ∃ r', r.read tables ")$".toList = some (r', []) ∧
    r'.pending? tables = r.pending? tables := by
  refine ⟨_, read_cons_iff.2 ⟨_, [], [], next_of_inComment h (by decide),
    read_cons_iff.2 ⟨_, [], [], next_of_inComment h (by decide), rfl, rfl⟩, rfl⟩, ?_⟩
  show ((r.mode.skipped ')').skipped '$').pending? tables r.stack.flags = _
  rw [ReadMode.pending?_skipped, ReadMode.pending?_skipped]
  rfl

end ExprReader

section Whole

open ExprReader

variable {f : Text} {r : ExprReader} {inside pending : List ExprSign}

/-- The text between the ends of a name is read on behind the group that it is put in. -/
theorem betweenEnds_eq (f : Text) : Pattern.betweenEnds f = "^(?:".toList ++ (f ++ ")$".toList) := List.append_assoc ..

/-- **What is read alone is read between the ends of a name**, in the group there. -/
theorem exprSigns?_betweenEnds (hread : start.read tables f = some (r, inside)) (hcomment : r.inComment = false)
    (hpending : r.pending? tables = some pending) (houter : r.stack.outer = []) :
    exprSigns? tables (Pattern.betweenEnds f) =
      some (.place .start :: .holds [] :: (inside ++ pending ++ [.closes, .place .stop])) := by
  rw [betweenEnds_eq]
  refine exprSigns?_eq_some_iff.2 ⟨start, _, [], read_append_iff.2 ⟨_, _, _, read_opening,
    read_append_iff.2 ⟨_, _, _, read_onTop hread _, read_closing hcomment hpending houter, rfl⟩, rfl⟩, rfl, ?_⟩
  simp

/-- A comment that is left open goes on over the end of the group. -/
theorem exprSigns?_betweenEnds_of_inComment (hread : start.read tables f = some (r, inside))
    (hcomment : r.inComment = true) (hpending : r.pending? tables = some pending) :
    exprSigns? tables (Pattern.betweenEnds f) = some (.place .start :: .holds [] :: (inside ++ pending)) := by
  rw [betweenEnds_eq]
  have hbelow : (r.onTop [.initial]).inComment = true := hcomment
  obtain ⟨r', hclosing, hpending'⟩ := read_closing_of_inComment hbelow
  refine exprSigns?_eq_some_iff.2 ⟨r', _, pending, read_append_iff.2 ⟨_, _, _, read_opening,
    read_append_iff.2 ⟨_, _, _, read_onTop hread _, hclosing, rfl⟩, rfl⟩, hpending'.trans hpending, ?_⟩
  simp

/-- The groups that are open where the text between the ends of a name begins. -/
theorem exists_of_readSigns?_opening {signs : List ExprSign}
    (h : (readSigns? (.place .start :: .holds [] :: signs)).isSome = true) :
    ∃ level s, (ExprStack.start.onTop [level]).takeAll signs = some s ∧ s.outer = [] := by
  obtain ⟨part, hpart⟩ := Option.isSome_iff_exists.1 h
  obtain ⟨s, hs, hpart⟩ := Option.bind_eq_some_iff.1 hpart
  split at hpart
  · next houter => exact ⟨_, s, hs, List.isEmpty_iff.1 houter⟩
  · cases hpart

/-- The flags at the end of a text, with what is pending there. -/
theorem takeAll_of_read_pending (hread : start.read tables f = some (r, inside))
    (hpending : r.pending? tables = some pending) : FlagStack.start.takeAll (inside ++ pending) = some r.stack := by
  rw [FlagStack.takeAll_append, show FlagStack.start.takeAll inside = some r.stack from takeAll_of_read hread]
  exact ReadMode.takeAll_pending hpending

/-- **What is valid between the ends of a name closes the group there**, and is valid up to that place. -/
theorem exists_closed_of_readSigns? {signs : List ExprSign}
    (hsigns : exprSigns? tables (Pattern.betweenEnds f) = some signs) (h : (readSigns? signs).isSome = true) :
    ∃ t₁ t₂ inside more, f ++ ")$".toList = t₁ ++ ')' :: t₂ ∧ exprSigns? tables t₁ = some inside ∧
      (readSigns? inside).isSome = true ∧ signs = .place .start :: .holds [] :: (inside ++ more) := by
  rw [betweenEnds_eq] at hsigns
  obtain ⟨r, all, pending, hall, hpending, rfl⟩ := exprSigns?_eq_some_iff.1 hsigns
  obtain ⟨r₁, first, rest, hopening, hread, rfl⟩ := read_append_iff.1 hall
  obtain ⟨rfl, rfl⟩ := Prod.mk.inj (Option.some.inj (read_opening.symm.trans hopening))
  obtain ⟨level, s, htake, houter⟩ := exists_of_readSigns?_opening h
  change (ExprStack.start.onTop [level]).takeAll (rest ++ pending) = some s at htake
  rcases read_cases hread with ⟨r₀, halone, rfl⟩ |
      ⟨t₁, t₂, r₀, inside, pending₁, rest, hsplit, halone, -, houter₀, hpending₁, rfl⟩
  · obtain ⟨s₀, -, rfl, -⟩ :=
      ExprStack.exists_of_takeAll_onTop rfl (takeAll_of_read_pending halone hpending) htake
    exact absurd houter (List.append_ne_nil_of_right_ne_nil _ (List.cons_ne_nil _ _))
  · rw [List.append_assoc, ExprStack.takeAll_append] at htake
    obtain ⟨s₁, hinside, -⟩ := Option.bind_eq_some_iff.1 htake
    obtain ⟨s₀, htake₀, -, hlength⟩ :=
      ExprStack.exists_of_takeAll_onTop rfl (takeAll_of_read_pending halone hpending₁) hinside
    refine ⟨t₁, t₂, inside ++ pending₁, .closes :: rest ++ pending, hsplit,
      exprSigns?_eq_some_iff.2 ⟨r₀, inside, pending₁, halone, hpending₁, rfl⟩, ?_, ?_⟩
    · rw [houter₀, List.length_nil, eq_comm, List.length_eq_zero_iff] at hlength
      unfold readSigns?
      rw [htake₀, Option.bind_some, hlength]
      rfl
    · simp only [List.cons_append, List.nil_append, List.append_assoc]

end Whole

/-! ## 6. Valid expressions -/

theorem readExpr?_eq_some_iff {part : ExprPart} : readExpr? tables t = some part ↔
    ∃ signs, exprSigns? tables t = some signs ∧ (signs.filterMap ExprSign.name?).Nodup ∧
      readSigns? signs = some part := by
  unfold readExpr?
  rw [Option.bind_eq_some_iff]
  simp only [Option.ite_none_right_eq_some]

/-- **What is valid between the ends of a name is valid alone**, or up to where it closes the group that it is put in
    there. -/
theorem isSome_readExpr?_or {f : Text} (h : (readExpr? tables (Pattern.betweenEnds f)).isSome = true) :
    (readExpr? tables f).isSome = true ∨ ∃ a b, f = a ++ ')' :: b ∧ (readExpr? tables a).isSome = true := by
  obtain ⟨whole, hwhole⟩ := Option.isSome_iff_exists.1 h
  obtain ⟨signs, hsigns, hnames, hread⟩ := readExpr?_eq_some_iff.1 hwhole
  obtain ⟨t₁, t₂, inside, more, hsplit, halone, hinside, rfl⟩ :=
    exists_closed_of_readSigns? hsigns (by rw [hread]; rfl)
  have hvalid : (readExpr? tables t₁).isSome = true := by
    obtain ⟨part, hpart⟩ := Option.isSome_iff_exists.1 hinside
    refine Option.isSome_iff_exists.2 ⟨part, readExpr?_eq_some_iff.2 ⟨inside, halone, hnames.sublist ?_, hpart⟩⟩
    exact (((List.sublist_append_left inside more).cons _).cons _).filterMap _
  rcases List.append_eq_append_iff.1 hsplit with ⟨b, rfl, hb⟩ | ⟨b, rfl, hb⟩
  · -- nothing of the end is before the bracket
    rcases b with _ | ⟨c, _ | ⟨d, b⟩⟩
    · rw [List.append_nil] at hvalid
      exact .inl hvalid
    · simp at hb
    · simp at hb
  · cases b with
    | nil =>
      rw [List.append_nil]
      exact .inl hvalid
    | cons c b =>
      obtain ⟨rfl, -⟩ := List.cons.inj hb
      exact .inr ⟨t₁, b, rfl, hvalid⟩

/-! ## 7. Texts as they are -/

theorem ReadMode.next_of_not_isSign {flags : ExprFlags} (h : isSign c = false) :
    ReadMode.next tables flags .between c = (tables.char? flags c false).map completeSet := by
  have hne : ∀ d, isSign d = true → c = d → False := by
    rintro d hd rfl
    rw [h] at hd
    cases hd
  rw [ReadMode.next] <;> exact hne _ rfl

theorem isEscapable_of_isSign (h : isSign c = true) : isEscapable c = true := by
  have hall : "\\.+*?()|[]\x7b\x7d^$#&-~".toList.all isEscapable = true := by decide
  exact List.all_eq_true.1 hall c (List.contains_iff_mem.1 h)

/-- Behind a backslash no letter or digit is escapable, and all that is stands for itself. -/
theorem EscapeMode.next_of_isEscapable (h : isEscapable c = true) :
    EscapeMode.begun.next c = some (.inr (.char c false)) := by
  have hchar : Escaped.ofChar? c = some (.char c false) := by
    unfold Escaped.ofChar?
    split <;> first | exact absurd h (by decide) | exact if_pos h
  unfold EscapeMode.next
  dsimp only
  split <;> first | exact congrArg (Option.map _) hchar | exact absurd h (by decide)

/-- **A character written so that it stands for itself** is read as its set. -/
theorem read_escapeExpr_singleton (c : Char) :
    ExprReader.start.read tables (escapeExpr [c]) = some (.start, [.set (.only c) 0]) := by
  unfold escapeExpr
  rw [List.flatMap_singleton]
  split
  · next h =>
    have hescape : ReadMode.next tables .initial (.escape .begun) c = some (ReadMode.completeSet (.only c)) := by
      show (EscapeMode.begun.next c).bind _ = _
      rw [EscapeMode.next_of_isEscapable (isEscapable_of_isSign h)]
      rfl
    have hstep : ExprReader.next tables ⟨.escape .begun, false, .start⟩ c = some (.start, [.set (.only c) 0]) := by
      refine ExprReader.next_eq_some_iff.2 ⟨?_, rfl⟩
      show (ReadMode.next tables .initial (.escape .begun) c).map _ = _
      rw [hescape]
      rfl
    exact ExprReader.read_cons_iff.2 ⟨⟨.escape .begun, false, .start⟩, [], _, rfl,
      ExprReader.read_cons_iff.2 ⟨_, _, [], hstep, rfl, rfl⟩, rfl⟩
  · next h =>
    refine ExprReader.read_cons_iff.2
      ⟨.start, [.set (.only c) 0], [], ExprReader.next_eq_some_iff.2 ⟨?_, rfl⟩, rfl, rfl⟩
    show (ReadMode.next tables .initial .between c).map _ = _
    rw [ReadMode.next_of_not_isSign (Bool.eq_false_iff.2 h)]
    rfl

/-- What a text written so that it stands for itself is read as. -/
def literalSigns (t : Text) : List ExprSign := t.map fun c => .set (.only c) 0

theorem read_escapeExpr (t : Text) : ExprReader.start.read tables (escapeExpr t) = some (.start, literalSigns t) := by
  induction t with
  | nil => rfl
  | cons c t ih =>
    have hsplit : escapeExpr (c :: t) = escapeExpr [c] ++ escapeExpr t := by simp [escapeExpr]
    rw [hsplit]
    exact ExprReader.read_append_iff.2 ⟨_, _, _, read_escapeExpr_singleton c, ih, rfl⟩

/-- **Behind a text that stands for itself an expression is read as alone.** -/
theorem exprSigns?_behind (t f : Text) :
    exprSigns? tables (escapeExpr t ++ f) = (exprSigns? tables f).map (literalSigns t ++ ·) := by
  refine Option.ext fun signs => ?_
  rw [exprSigns?_eq_some_iff, Option.map_eq_some_iff]
  constructor
  · rintro ⟨r, all, pending, hall, hpending, rfl⟩
    obtain ⟨r₁, first, rest, hliteral, hread, rfl⟩ := ExprReader.read_append_iff.1 hall
    obtain ⟨rfl, rfl⟩ := Prod.mk.inj (Option.some.inj ((read_escapeExpr t).symm.trans hliteral))
    exact ⟨_, exprSigns?_eq_some_iff.2 ⟨r, rest, pending, hread, hpending, rfl⟩, (List.append_assoc ..).symm⟩
  · rintro ⟨signs, hsigns, rfl⟩
    obtain ⟨r, inside, pending, hread, hpending, rfl⟩ := exprSigns?_eq_some_iff.1 hsigns
    exact ⟨r, _, pending, ExprReader.read_append_iff.2 ⟨_, _, _, read_escapeExpr t, hread, rfl⟩, hpending,
      (List.append_assoc ..).symm⟩

end RecordExport

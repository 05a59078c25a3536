import RecordExport.Proofs.Template.Blocks
import RecordExport.Proofs.Template.Scalars
import RecordExport.Proofs.Validation.Issues
/-!
# Rounds of a walk

A walk over a text goes in ROUNDS: it finds the next placeholder or block, asks once what to do with it, and
does it. What is put in may hold further markers, and what is kept is searched again, so the number of markers
need not get less. Two measures do:

* a replacement leaves less to be searched, in bytes (`byteSize_rest_replace` for either walk);
* a kept or a dropped block leaves a shorter text, since its markers go (`byteSize_text_keep`).

So every walk ends, whatever it is answered, after no more rounds than the text has bytes (`walksEnd`). An
answer may depend on all that was asked before: it is given from a state that it changes.
-/

namespace RecordExport

variable {α : Type} {σ : Type}

/-! ## 1. Loops -/

/-- **So many rounds lead from `a` to `b`, and there is no further one.** -/
inductive Rounds (round : α → Option α) : Nat → α → α → Prop where
  | ends {a : α} (h : round a = none) : Rounds round 0 a a
  | goes {n : Nat} {a a' b : α} (h : round a = some a') (rest : Rounds round n a' b) : Rounds round (n + 1) a b

/-- **A loop ends whose rounds make something less**, after so many rounds at most. -/
theorem Rounds.exists_le (round : α → Option α) (size : α → Nat)
    (h : ∀ a a', round a = some a' → size a' < size a) (a : α) : ∃ n b, n ≤ size a ∧ Rounds round n a b := by
  induction hsize : size a using Nat.strong_induction_on generalizing a with
  | _ k ih =>
    cases hround : round a with
    | none => exact ⟨0, a, Nat.zero_le k, .ends hround⟩
    | some a' =>
      have hless : size a' < k := hsize ▸ h a a' hround
      obtain ⟨n, b, hn, hrest⟩ := ih (size a') hless a' rfl
      exact ⟨n + 1, b, by omega, .goes hround hrest⟩

/-- An answer that counts how often it was asked for. -/
def counting {α β σ : Type} (f : α → StateM σ β) (a : α) : StateM (Nat × σ) β :=
  fun s => ((f a s.2).1, s.1 + 1, (f a s.2).2)

/-! ## 2. Scalars -/

theorem Text.byteSize_drop_le (n : Nat) (t : Text) : byteSize (t.drop n) ≤ byteSize t := by
  conv => rhs; rw [← List.take_append_drop n t, byteSize_append]
  exact Nat.le_add_left _ _

namespace ScalarWalk

/-- **A replacement leaves fewer bytes to be searched.** -/
theorem byteSize_rest_replace {w : ScalarWalk} {found : ScalarMatch} (h : w.next.current = some found)
    (v : Text) : Text.byteSize (w.next.replace v).rest < Text.byteSize w.rest := by
  obtain ⟨hsource, hmarker⟩ := source_findScalar (show findScalar w.pattern (tokenize w.rest) = some found from h)
  rw [source_tokenize] at hsource
  have hright : Text.byteSize found.right < Text.byteSize w.rest := by
    have hpos := byteSize_pos (List.ne_nil_of_length_pos hmarker)
    rw [hsource, Text.byteSize_append, Text.byteSize_append]
    omega
  unfold replace
  rw [h]
  dsimp only
  split
  · exact hright
  · split
    · exact (Text.byteSize_drop_le _ _).trans_lt hright
    · exact hright

/-- A round of replacing: the next matching placeholder gives way to the value that is given for it. -/
def round (value : List Text → StateM σ Text) (a : ScalarWalk × σ) : Option (ScalarWalk × σ) :=
  a.1.next.current.map fun found =>
    let v := value found.captures a.2
    (a.1.next.replace v.1, v.2)

theorem byteSize_rest_round {value : List Text → StateM σ Text} {a a' : ScalarWalk × σ}
    (h : round value a = some a') : Text.byteSize a'.1.rest < Text.byteSize a.1.rest := by
  obtain ⟨found, hfound, rfl⟩ := Option.map_eq_some_iff.1 h
  exact byteSize_rest_replace hfound _

/-- **Replacing goes in these rounds.** -/
theorem replaceAllM_of_rounds {value : List Text → StateM σ Text} {n : Nat} {a b : ScalarWalk × σ}
    (h : Rounds (round value) n a b) : a.1.replaceAllM value a.2 = (b.1.text, b.2) := by
  induction h with
  | ends h => rw [replaceAllM_of_none (Option.map_eq_none_iff.1 h)]; rfl
  | goes h _ ih =>
    obtain ⟨found, hfound, rfl⟩ := Option.map_eq_some_iff.1 h
    rw [replaceAllM_of_some hfound]
    exact ih

theorem count_rounds {value : List Text → StateM σ Text} {n : Nat} {a b : ScalarWalk × Nat × σ}
    (h : Rounds (round (counting value)) n a b) : b.2.1 = a.2.1 + n := by
  induction h with
  | ends _ => rfl
  | goes h _ ih =>
    obtain ⟨found, -, rfl⟩ := Option.map_eq_some_iff.1 h
    rw [ih]
    exact Nat.succ_add_eq_add_succ _ _

end ScalarWalk

/-! ## 3. Blocks -/

namespace BlockWalk

variable {w : BlockWalk} {b : Block}

/-- The opening part of a block holds its start marker, and behind the block there is less than was searched. -/
theorem byteSize_current (h : w.next.current = some b) :
    0 < Text.byteSize b.opening ∧ Text.byteSize b.tail < Text.byteSize w.rest := by
  simp only [next, Option.map_eq_some_iff] at h
  obtain ⟨m, hm, rfl⟩ := h
  obtain ⟨htokens, hopening⟩ := tokens_findBlock hm
  have hpos := byteSize_pos (List.ne_nil_of_length_pos hopening)
  have hrest : Text.byteSize w.rest = Text.byteSize (sourceOf (tokenize w.rest)) :=
    congrArg Text.byteSize (source_tokenize w.rest).symm
  rw [htokens] at hrest
  simp only [sourceOf_append, sourceOf_cons, Text.byteSize_append] at hrest
  unfold Block.ofMatch
  dsimp only
  split
  · refine ⟨?_, (Text.byteSize_drop_le _ _).trans_lt (by omega)⟩
    simp only [Text.byteSize_append]
    omega
  · refine ⟨hpos, ?_⟩
    dsimp only
    omega

/-- **A replacement leaves fewer bytes to be searched.** -/
theorem byteSize_rest_replace (h : w.next.current = some b) (rendered : Text) :
    Text.byteSize (w.next.replace rendered).rest < Text.byteSize w.rest := by
  unfold replace
  rw [h]
  exact (byteSize_current h).2

/-- **A block that is kept or dropped leaves a shorter text.** -/
theorem byteSize_text_keep (h : w.next.current = some b) (kept : Bool) :
    Text.byteSize (w.next.keep kept).text < Text.byteSize w.text := by
  have hpos := (byteSize_current h).1
  have htext := text_current h
  rw [← htext]
  unfold keep text Block.text
  rw [h]
  simp only [Text.byteSize_append]
  cases kept with
  | true =>
    rw [if_pos rfl, Text.byteSize_append]
    omega
  | false =>
    rw [if_neg Bool.false_ne_true]
    omega

/-- A round of settling conditions: the next block is kept or dropped, as is decided for it. -/
def keepRound (decision : List Text → StateM σ Bool) (a : BlockWalk × σ) : Option (BlockWalk × σ) :=
  a.1.next.current.map fun b =>
    let kept := decision b.captures a.2
    (a.1.next.keep kept.1, kept.2)

/-- A round of expanding lists: the next block gives way to what is rendered for it. -/
def replaceRound (render : Text → StateM σ Text) (a : BlockWalk × σ) : Option (BlockWalk × σ) :=
  a.1.next.current.map fun b =>
    let rendered := render b.inner a.2
    (a.1.next.replace rendered.1, rendered.2)

theorem byteSize_text_keepRound {decision : List Text → StateM σ Bool} {a a' : BlockWalk × σ}
    (h : keepRound decision a = some a') : Text.byteSize a'.1.text < Text.byteSize a.1.text := by
  obtain ⟨b, hb, rfl⟩ := Option.map_eq_some_iff.1 h
  exact byteSize_text_keep hb _

theorem byteSize_rest_replaceRound {render : Text → StateM σ Text} {a a' : BlockWalk × σ}
    (h : replaceRound render a = some a') : Text.byteSize a'.1.rest < Text.byteSize a.1.rest := by
  obtain ⟨b, hb, rfl⟩ := Option.map_eq_some_iff.1 h
  exact byteSize_rest_replace hb _

/-- **Conditions are settled in these rounds.** -/
theorem keepAllM_of_rounds {decision : List Text → StateM σ Bool} {n : Nat} {a b : BlockWalk × σ}
    (h : Rounds (keepRound decision) n a b) : a.1.keepAllM decision a.2 = (b.1.text, b.2) := by
  induction h with
  | ends h => rw [keepAllM_of_none (Option.map_eq_none_iff.1 h)]; rfl
  | goes h _ ih =>
    obtain ⟨b, hb, rfl⟩ := Option.map_eq_some_iff.1 h
    rw [keepAllM_of_some hb]
    exact ih

/-- **Lists are expanded in these rounds.** -/
theorem replaceAllM_of_rounds {render : Text → StateM σ Text} {n : Nat} {a b : BlockWalk × σ}
    (h : Rounds (replaceRound render) n a b) : a.1.replaceAllM render a.2 = (b.1.text, b.2) := by
  induction h with
  | ends h => rw [replaceAllM_of_none (Option.map_eq_none_iff.1 h)]; rfl
  | goes h _ ih =>
    obtain ⟨b, hb, rfl⟩ := Option.map_eq_some_iff.1 h
    rw [replaceAllM_of_some hb]
    exact ih

theorem count_keepRounds {decision : List Text → StateM σ Bool} {n : Nat} {a b : BlockWalk × Nat × σ}
    (h : Rounds (keepRound (counting decision)) n a b) : b.2.1 = a.2.1 + n := by
  induction h with
  | ends _ => rfl
  | goes h _ ih =>
    obtain ⟨b, -, rfl⟩ := Option.map_eq_some_iff.1 h
    rw [ih]
    exact Nat.succ_add_eq_add_succ _ _

end BlockWalk

/-! ## 4. Lists -/

section Items

variable {β : Type}

/-- What a block with an inner text gives way to: the items, rendered in turn. -/
def renderItems (items : List β) (render : β → ListPosition → Text → StateM σ Text) (inner : Text) :
    StateM σ Text := do
  let rendered ← (positioned items).mapM fun a => render a.1 a.2 inner
  pure (joinItems rendered)

/-- A renderer that counts how many items it rendered. -/
def countingItems (render : β → ListPosition → Text → StateM σ Text) (a : β) (p : ListPosition)
    (inner : Text) : StateM (Nat × σ) Text := counting (render a p) inner

/-- Every block counts every item once. -/
theorem count_renderItems (items : List β) (render : β → ListPosition → Text → StateM σ Text) (inner : Text)
    (s : Nat × σ) : (renderItems items (countingItems render) inner s).2.1 = s.1 + items.length := by
  have hcount : ∀ (l : List (β × ListPosition)) (s : Nat × σ),
      (l.mapM (fun a => countingItems render a.1 a.2 inner) s).2.1 = s.1 + l.length := by
    intro l
    induction l with
    | nil => exact fun s => rfl
    | cons a l ih =>
      intro s
      rw [List.mapM_cons]
      show (l.mapM (m := StateM (Nat × σ)) _ (countingItems render a.1 a.2 inner s).2).2.1 = _
      rw [ih]
      exact Nat.succ_add_eq_add_succ _ _
  have hlength : (positioned items).length = items.length := by rw [positioned, List.length_map, List.length_zipIdx]
  rw [← hlength]
  exact hcount (positioned items) s

theorem BlockWalk.count_replaceRounds {items : List β} {n : Nat}
    {render : β → ListPosition → Text → StateM σ Text} {a b : BlockWalk × Nat × σ}
    (h : Rounds (replaceRound (renderItems items (countingItems render))) n a b) :
    b.2.1 = a.2.1 + n * items.length := by
  induction h with
  | ends _ => rw [Nat.zero_mul, Nat.add_zero]
  | goes h _ ih =>
    obtain ⟨b, -, rfl⟩ := Option.map_eq_some_iff.1 h
    dsimp only at ih
    rw [ih, count_renderItems, Nat.succ_mul]
    omega

end Items

/-! ## 5. Every walk ends -/

/-- **Every walk over a text ends**, whatever it is answered: it is a loop of rounds, of which there are no more
    than the text has bytes, and which ask once each. The answers are given from a state, beginning with `s`. -/
structure WalksEnd (t : Text) (s : σ) : Prop where
  /-- replacing scalars asks once for each round -/
  scalars : ∀ (p : Pattern) (placement : Placement) (value : List Text → StateM σ Text),
    ∃ n b, Rounds (ScalarWalk.round (counting value)) n (.start p placement t, 0, s) b ∧ n ≤ t.byteSize ∧
      b.2.1 = n ∧ replaceScalarsM p placement t (counting value) (0, s) = (b.1.text, b.2)
  /-- so does settling conditions -/
  conditions : ∀ (f : BlockFamily) (decision : List Text → StateM σ Bool),
    ∃ n b, Rounds (BlockWalk.keepRound (counting decision)) n (.start f t, 0, s) b ∧ n ≤ t.byteSize ∧
      b.2.1 = n ∧ keepBlocksM f t (counting decision) (0, s) = (b.1.text, b.2)
  /-- expanding lists renders every item once for each round -/
  lists : ∀ (β : Type) (f : BlockFamily) (items : List β)
    (render : β → ListPosition → Text → StateM σ Text),
    ∃ n b, Rounds (BlockWalk.replaceRound (renderItems items (countingItems render))) n (.start f t, 0, s) b ∧
      n ≤ t.byteSize ∧ b.2.1 = n * items.length ∧
      expandBlocksM f t items (countingItems render) (0, s) = (b.1.text, b.2)
  /-- wherever a walk stands, a replacement leaves fewer bytes to be searched -/
  replacements : ∀ (w : ScalarWalk) (found : ScalarMatch), w.next.current = some found → ∀ v,
    (w.next.replace v).rest.byteSize < w.rest.byteSize
  /-- so does a list that is expanded -/
  expansions : ∀ (w : BlockWalk) (b : Block), w.next.current = some b → ∀ rendered,
    (w.next.replace rendered).rest.byteSize < w.rest.byteSize
  /-- and a condition that is settled leaves a shorter text, be the block kept or dropped -/
  settlements : ∀ (w : BlockWalk) (b : Block), w.next.current = some b → ∀ kept,
    (w.next.keep kept).text.byteSize < w.text.byteSize

theorem walksEnd (t : Text) (s : σ) : WalksEnd t s where
  scalars p placement value := by
    obtain ⟨n, b, hn, hrounds⟩ := Rounds.exists_le (ScalarWalk.round (counting value))
      (fun a => a.1.rest.byteSize) (fun _ _ => ScalarWalk.byteSize_rest_round)
      (.start p placement t, 0, s)
    exact ⟨n, b, hrounds, hn, (ScalarWalk.count_rounds hrounds).trans (Nat.zero_add n),
      ScalarWalk.replaceAllM_of_rounds hrounds⟩
  conditions f decision := by
    obtain ⟨n, b, hn, hrounds⟩ := Rounds.exists_le (BlockWalk.keepRound (counting decision))
      (fun a => a.1.text.byteSize) (fun _ _ => BlockWalk.byteSize_text_keepRound) (.start f t, 0, s)
    exact ⟨n, b, hrounds, hn, (BlockWalk.count_keepRounds hrounds).trans (Nat.zero_add n),
      BlockWalk.keepAllM_of_rounds hrounds⟩
  lists β f items render := by
    obtain ⟨n, b, hn, hrounds⟩ :=
      Rounds.exists_le (BlockWalk.replaceRound (renderItems items (countingItems render)))
        (fun a => a.1.rest.byteSize) (fun _ _ => BlockWalk.byteSize_rest_replaceRound) (.start f t, 0, s)
    exact ⟨n, b, hrounds, hn, (BlockWalk.count_replaceRounds hrounds).trans (Nat.zero_add _),
      BlockWalk.replaceAllM_of_rounds hrounds⟩
  replacements _ _ h v := ScalarWalk.byteSize_rest_replace h v
  expansions _ _ h rendered := BlockWalk.byteSize_rest_replace h rendered
  settlements _ _ h kept := BlockWalk.byteSize_text_keep h kept

/-- Kept content that holds a block of the same family is settled in a round of its own. -/
example :
    let t := braced "C_Start".toList ++ "a".toList ++ braced "C_Start".toList ++ "b".toList ++
      braced "C_End".toList ++ braced "C_End".toList
    let settled := keepBlocksM (.ofStem "C".toList) t (counting fun _ => (pure true : StateM Unit Bool)) (0, ())
    settled.1 = "ab".toList ∧ settled.2.1 = 2 := by
  decide +kernel

end RecordExport

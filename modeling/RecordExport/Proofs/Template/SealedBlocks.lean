import RecordExport.Proofs.Template.Sealed
/-!
# Blocks in sealed texts

Where a block is found depends on the placeholders alone. A walk over the conditions of a sealed text takes
whole placeholders away and joins what was sealed, so two sealed texts with the same placeholders keep the
same ones, whatever else is in them.

* `findBlock_bare`: the literals do not matter;
* `findBlock_eq_none_iff`: there is no block if no start marker stands before an end marker;
* `keepBlocks_sealed`: conditions leave the same placeholders in texts that had the same.
-/

namespace RecordExport

variable {f : BlockFamily} {bs bs' : List Text} {s s' t t' : Text}

/-! ## 1. Placeholders alone -/

/-- The placeholders among tokens. -/
def bare (ts : List Token) : List Token := ts.filter Token.isPlaceholder

/-- Placeholders by their bodies. -/
theorem bare_eq (ts : List Token) : bare ts = (ts.filterMap Token.body?).map Token.placeholder := by
  induction ts with
  | nil => rfl
  | cons t ts ih =>
    cases t with
    | literal l => exact ih
    | placeholder b => exact congrArg (Token.placeholder b :: ·) ih

theorem Sealed.bare_tokenize (h : Sealed bs t) : bare (tokenize t) = bs.map Token.placeholder := by
  rw [bare_eq, h.bodies]

def BlockMatch.bare (m : BlockMatch) : BlockMatch :=
  { m with
    left := RecordExport.bare m.left
    inner := RecordExport.bare m.inner
    right := RecordExport.bare m.right }

/-- Placeholders alone are tokens with nothing in the place of their literals. -/
theorem spelling_bare : Spelling fun k => if k.isPlaceholder then [k] else [] where
  literal _ _ hk := absurd hk List.not_mem_nil
  placeholder _ := rfl

theorem bare_eq_flatMap (ts : List Token) : bare ts = ts.flatMap fun k => if k.isPlaceholder then [k] else [] := by
  induction ts with
  | nil => rfl
  | cons t ts ih =>
    rw [List.flatMap_cons, ← ih]
    cases t <;> rfl

/-- **Where a block is found depends on the placeholders alone.** -/
theorem findBlock_bare (f : BlockFamily) (ts : List Token) :
    findBlock f (bare ts) = (findBlock f ts).map BlockMatch.bare := by
  rw [bare_eq_flatMap, findBlock_spelledBy spelling_bare]
  refine congrArg (Option.map · _) (funext fun m => ?_)
  unfold BlockMatch.spelledBy BlockMatch.bare
  rw [bare_eq_flatMap, bare_eq_flatMap, bare_eq_flatMap]

/-! ## 2. Texts without blocks -/

theorem findClose_isSome {ts : List Token}
    (h : ts.Pairwise fun o e => ¬ (f.isOpening o = true ∧ f.isClosing e = true)) {e : Token}
    (he : e ∈ ts) (hc : f.isClosing e = true) : (findClose f 0 ts).isSome = true := by
  induction ts with
  | nil => cases he
  | cons t ts ih =>
    obtain ⟨hfirst, hrest⟩ := List.pairwise_cons.1 h
    by_cases ht : f.isClosing t = true
    · rw [findClose_of_closing ht]
      rfl
    · have he : e ∈ ts := (List.mem_cons.1 he).resolve_left fun heq => ht (heq ▸ hc)
      have ho : f.isOpening t = false := Bool.eq_false_iff.2 fun ho => hfirst e he ⟨ho, hc⟩
      rw [findClose_of_other ho (Bool.eq_false_iff.2 ht), Option.isSome_map]
      exact ih hrest he

/-- **There is no block if no start marker stands before an end marker.** -/
theorem findBlock_eq_none_iff {ts : List Token} :
    findBlock f ts = none ↔
      ts.Pairwise fun o e => ¬ (f.isOpening o = true ∧ f.isClosing e = true) := by
  induction ts with
  | nil => exact ⟨fun _ => .nil, fun _ => rfl⟩
  | cons t ts ih =>
    rw [List.pairwise_cons, ← ih]
    by_cases ho : f.isOpening t = true
    · cases hclose : findClose f 0 ts with
      | none =>
        rw [findBlock_cons_of_open (.inr hclose), Option.map_eq_none_iff]
        refine ⟨fun hn => ⟨fun e he hoe => ?_, hn⟩, And.right⟩
        have hsome := findClose_isSome (ih.1 hn) he hoe.2
        rw [hclose] at hsome
        cases hsome
      | some m =>
        obtain ⟨cs, -, hfound⟩ := findBlock_cons_of_closed ho hclose
        rw [hfound]
        have hmem : m.marker ∈ ts := by
          rw [tokens_findClose hclose]
          exact List.mem_append_right _ List.mem_cons_self
        refine ⟨fun hn => absurd hn (Option.some_ne_none _), fun hn => ?_⟩
        exact absurd ⟨ho, isClosing_of_findClose hclose⟩ (hn.1 _ hmem)
    · rw [findBlock_cons_of_open (.inl (Bool.eq_false_iff.2 ho)), Option.map_eq_none_iff]
      exact ⟨fun hn => ⟨fun e _ hoe => ho hoe.1, hn⟩, And.right⟩

theorem Sealed.findBlock_eq_none_iff (h : Sealed bs t) :
    findBlock f (tokenize t) = none ↔ findBlock f (bs.map Token.placeholder) = none := by
  rw [← h.bare_tokenize, findBlock_bare, Option.map_eq_none_iff]

/-- Where placeholders are taken away no block comes about. -/
theorem Sealed.findBlock_sublist (h : Sealed bs t) (h' : Sealed bs' t') (hsub : bs'.Sublist bs)
    (hnone : findBlock f (tokenize t) = none) : findBlock f (tokenize t') = none := by
  rw [h.findBlock_eq_none_iff, RecordExport.findBlock_eq_none_iff] at hnone
  rw [h'.findBlock_eq_none_iff, RecordExport.findBlock_eq_none_iff]
  exact hnone.sublist (hsub.map _)

/-! ## 3. Steps of a walk over conditions -/

theorem SealedBefore.innerLines (h : SealedBefore bs s) (left right : Text) :
    SealedBefore bs (RecordExport.innerLines left s right) := by
  unfold RecordExport.innerLines
  have hfront : SealedBefore bs (if opensLine left s then s.behindLine else s) := by
    split
    · rename_i ho
      exact h.behindLine (Bool.and_eq_true_iff.1 (Bool.and_eq_true_iff.1 ho).2).2
    · exact h
  dsimp only
  split
  · rename_i hc
    have hclose := (Bool.and_eq_true_iff.1 hc).1
    refine hfront.aheadOfLine ?_
    have hlast := (Bool.and_eq_true_iff.1 hclose).2
    split
    · rwa [Text.lastLine_behindLine (Text.mem_of_closesBlank hclose)]
    · exact hlast
  · exact hfront

/-- A block that was found in a text with these placeholders: those of its parts. -/
structure SealedBlock (bs bs' : List Text) (m : BlockMatch) (b : Block) : Prop where
  captures : b.captures = m.captures
  head : SealedBefore (bs ++ m.left.filterMap Token.body?) b.head
  inner : SealedBefore (m.inner.filterMap Token.body?) b.inner
  tail : Sealed (m.right.filterMap Token.body?) b.tail
  bodies : ∃ o e, bs' = m.left.filterMap Token.body? ++
    o :: (m.inner.filterMap Token.body? ++ e :: m.right.filterMap Token.body?)

theorem Sealed.ofMatch {m : BlockMatch} (hm : findBlock f (tokenize t) = some m)
    (hs : SealedBefore bs s) (ht : Sealed bs' t) : SealedBlock bs bs' m (Block.ofMatch s m) := by
  obtain ⟨o, e, ho, he⟩ := exists_markers_of_findBlock hm
  obtain ⟨hcaptures, hhead, hinner, htail⟩ := Block.ofMatch_eq s ho he
  have htokens := (tokens_findBlock hm).1
  rw [ho, he] at htokens
  obtain ⟨hleft, hleftLast, hrest⟩ := ht.split htokens
  obtain ⟨hin, hinLast, hright⟩ := hrest.split (tokenize_sourceOf_of_append htokens)
  have hfront : SealedBefore (bs ++ m.left.filterMap Token.body?) (s ++ sourceOf m.left) :=
    hs.append ⟨hleft, hleftLast⟩
  refine ⟨hcaptures, ?_, ?_, ?_, o, e, ?_⟩
  · rw [hhead]
    split
    · rename_i hline
      exact hfront.aheadOfLine (Bool.and_eq_true_iff.1 hline).1
    · exact hfront
  · rw [hinner]
    exact SealedBefore.innerLines ⟨hin, hinLast⟩ _ _
  · rw [htail]
    split
    · rename_i hline
      exact hright.behindLine (Bool.and_eq_true_iff.1 hline).2
    · exact hright
  · rw [← ht.bodies, htokens, List.filterMap_append]
    exact congrArg (_ ++ o :: ·) List.filterMap_append

theorem bodies_bare (ts : List Token) :
    (bare ts).filterMap Token.body? = ts.filterMap Token.body? := by
  rw [bare_eq, List.filterMap_map]
  exact List.filterMap_some

/-- Where the block was found does not matter beyond its placeholders. -/
theorem SealedBlock.of_bare {m m' : BlockMatch} {b : Block} (h : SealedBlock bs bs' m b)
    (hbare : m'.bare = m.bare) : SealedBlock bs bs' m' b := by
  have hleft := congrArg (fun m => m.left.filterMap Token.body?) hbare
  have hinner := congrArg (fun m => m.inner.filterMap Token.body?) hbare
  have hright := congrArg (fun m => m.right.filterMap Token.body?) hbare
  simp only [BlockMatch.bare, bodies_bare] at hleft hinner hright
  obtain ⟨captures, head, inner, tail, bodies⟩ := h
  rw [← hleft] at head bodies
  rw [← hinner] at inner bodies
  rw [← hright] at tail bodies
  exact ⟨captures.trans (congrArg BlockMatch.captures hbare).symm, head, inner, tail, bodies⟩

/-- What is searched next when a condition is settled. -/
def Block.settled (kept : Bool) (b : Block) : Text := if kept then b.inner ++ b.tail else b.tail

/-- The placeholders that are searched next. -/
def BlockMatch.settled (kept : Bool) (m : BlockMatch) : List Text :=
  (if kept then m.inner.filterMap Token.body? else []) ++ m.right.filterMap Token.body?

theorem SealedBlock.settled {m : BlockMatch} {b : Block} (h : SealedBlock bs bs' m b) (kept : Bool) :
    Sealed (m.settled kept) (b.settled kept) := by
  cases kept with
  | true => exact h.inner.isSealed.append h.tail (h.inner.apart _)
  | false => exact h.tail

/-- One placeholder less at least is searched next, and only those that were there. -/
theorem SealedBlock.settled_lt {m : BlockMatch} {b : Block} (h : SealedBlock bs bs' m b) (kept : Bool) :
    (m.settled kept).length < bs'.length ∧
      (m.left.filterMap Token.body? ++ m.settled kept).Sublist bs' := by
  obtain ⟨o, e, hbodies⟩ := h.bodies
  rw [hbodies]
  unfold BlockMatch.settled
  constructor
  · cases kept <;> simp <;> omega
  · refine List.Sublist.append_left (.cons _ ?_) _
    cases kept with
    | true => exact List.Sublist.append_left (.cons _ (.refl _)) _
    | false => exact ((List.Sublist.refl _).cons _).trans (List.sublist_append_right _ _)

/-- Blocks that are found in texts with the same placeholders. -/
theorem findBlock_sealed (ht : Sealed bs t) (ht' : Sealed bs t') :
    (findBlock f (tokenize t)).map BlockMatch.bare = (findBlock f (tokenize t')).map BlockMatch.bare := by
  rw [← findBlock_bare, ← findBlock_bare, ht.bare_tokenize, ht'.bare_tokenize]

/-! ## 4. Walks over conditions -/

/-- Walks over conditions from the same placeholders on, of which so many are left at most. -/
theorem keepFrom_sealed (f : BlockFamily) (decision : List Text → Bool) (n : Nat)
    (hn : bs'.length ≤ n) (hs : SealedBefore bs s) (hs' : SealedBefore bs s') (ht : Sealed bs' t)
    (ht' : Sealed bs' t') :
    ∃ left, left.Sublist (bs ++ bs') ∧ Sealed left (keepFrom (m := Id) f decision s t) ∧
      Sealed left (keepFrom (m := Id) f decision s' t') := by
  have hwalk := walksBy_keepFrom (m := Id) f decision
  induction n using Nat.strong_induction_on generalizing bs bs' s s' t t' with
  | _ n ih =>
    have hsame := findBlock_sealed (f := f) ht ht'
    cases hm : findBlock f (tokenize t) with
    | none =>
      rw [hm, Option.map_none, eq_comm, Option.map_eq_none_iff] at hsame
      rw [hwalk.ends hm, hwalk.ends hsame]
      exact ⟨_, .refl _, hs.isSealed.append ht (hs.apart _), hs'.isSealed.append ht' (hs'.apart _)⟩
    | some m =>
      rw [hm, Option.map_some, eq_comm, Option.map_eq_some_iff] at hsame
      obtain ⟨m', hm', hbare⟩ := hsame
      have hb := Sealed.ofMatch hm hs ht
      have hb' := (Sealed.ofMatch hm' hs' ht').of_bare hbare.symm
      rw [hwalk.goes hm, hwalk.goes hm']
      show ∃ left, left.Sublist (bs ++ bs') ∧
        Sealed left (keepFrom (m := Id) f decision (Block.ofMatch s m).head
          ((Block.ofMatch s m).settled (decision (Block.ofMatch s m).captures))) ∧
        Sealed left (keepFrom (m := Id) f decision (Block.ofMatch s' m').head
          ((Block.ofMatch s' m').settled (decision (Block.ofMatch s' m').captures)))
      rw [hb.captures, hb'.captures]
      obtain ⟨hlt, hsub⟩ := hb.settled_lt (decision m.captures)
      obtain ⟨left, hleft, hl, hl'⟩ := ih _ (hlt.trans_le hn) (Nat.le_refl _) hb.head hb'.head
        (hb.settled _) (hb'.settled _)
      refine ⟨left, hleft.trans ?_, hl, hl'⟩
      rw [List.append_assoc]
      exact hsub.append_left _

/-- **Conditions leave the same placeholders in texts that had the same**, and no others. -/
theorem keepBlocks_sealed (f : BlockFamily) (decision : List Text → Bool) (ht : Sealed bs t)
    (ht' : Sealed bs t') :
    ∃ left, left.Sublist bs ∧ Sealed left (keepBlocks f t decision) ∧
      Sealed left (keepBlocks f t' decision) :=
  keepFrom_sealed f decision bs.length (Nat.le_refl _) sealedBefore_nil sealedBefore_nil ht ht'

end RecordExport

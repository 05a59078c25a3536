import RecordExport.Proofs.Template.Lexing
import RecordExport.Proofs.Template.Names
import RecordExport.Proofs.Template.Scalars
import RecordExport.Template.Namespace
/-!
# Moving a namespace and moving it back

A template moved from one namespace to another is cut into the same tokens, where the placeholders of the
namespace have their new names. Nothing new comes about at the seams, because what a moved placeholder has
between its delimiters is a body as before: the new namespace and the rest of the old name.

* `InNamespace`: the names of a namespace, and `afterNamespace?` as the rest of such a name;
* `Token.moved`: what moving makes of a token, and `tokenize_moveNamespace`: **the tokens of a moved template are
  its tokens moved**;
* `movesNamespace`: which tokens keep their text, how the others are renamed, and that moving back undoes a
  move unless the new namespace was already in use.
-/

namespace RecordExport

/-! ## 1. Namespaces -/

/-- **The names of a namespace**: its own, and those that go on behind it with an underscore. -/
def InNamespace (space n : Text) : Prop := n = space ∨ space ++ ['_'] <+: n

instance (space n : Text) : Decidable (InNamespace space n) := inferInstanceAs (Decidable (_ ∨ _))

/-- **A namespace whose placeholders can be written**, alone as well: it fits between the delimiters without a
    blank at its ends, and does not read as a marker. -/
structure IsNamespace (space : Text) : Prop where
  filled : space ≠ []
  chars : ∀ c ∈ space, isBodyChar c = true
  trimmed : Text.trim space = space
  not_start : space.endsIn startTrail = false
  not_end : space.endsIn endTrail = false

/-- What can follow a namespace in a name. -/
def FollowsNamespace (r : Text) : Prop := r = [] ∨ ∃ t, r = '_' :: t

variable {space target n r : Text}

theorem afterNamespace?_eq_some :
    afterNamespace? space n = some r ↔ n = space ++ r ∧ FollowsNamespace r := by
  constructor
  · intro h
    unfold afterNamespace? at h
    split at h
    · rename_i hafter
      obtain rfl := Option.some.inj h
      exact ⟨Text.eq_append_of_afterLeading? hafter, .inl rfl⟩
    · rename_i t hafter
      obtain rfl := Option.some.inj h
      exact ⟨Text.eq_append_of_afterLeading? hafter, .inr ⟨t, rfl⟩⟩
    · cases h
  · rintro ⟨rfl, hr⟩
    unfold afterNamespace?
    rw [Text.afterLeading?_append]
    obtain rfl | ⟨t, rfl⟩ := hr <;> rfl

theorem inNamespace_append (h : FollowsNamespace r) : InNamespace space (space ++ r) := by
  obtain rfl | ⟨t, rfl⟩ := h
  · exact .inl (List.append_nil space)
  · exact .inr ⟨t, by simp⟩

theorem exists_of_inNamespace (h : InNamespace space n) : ∃ r, n = space ++ r ∧ FollowsNamespace r := by
  obtain rfl | ⟨t, rfl⟩ := h
  · exact ⟨[], (List.append_nil n).symm, .inl rfl⟩
  · exact ⟨'_' :: t, by simp, .inr ⟨t, rfl⟩⟩

/-- Names outside a namespace are those that nothing is found in behind it. -/
theorem afterNamespace?_eq_none : afterNamespace? space n = none ↔ ¬ InNamespace space n := by
  constructor
  · intro h hin
    obtain ⟨r, hr⟩ := exists_of_inNamespace hin
    rw [afterNamespace?_eq_some.2 hr] at h
    cases h
  · intro h
    cases hafter : afterNamespace? space n with
    | none => rfl
    | some r =>
      obtain ⟨rfl, hr⟩ := afterNamespace?_eq_some.1 hafter
      exact absurd (inNamespace_append hr) h

/-! ## 2. Names put together -/

/-- Behind a namespace a name ends as it did. -/
theorem endsIn_append_underscore {trail t : Text} (x y : Text) (h : '_' ∉ trail) :
    (x ++ '_' :: t).endsIn ('_' :: trail) = (y ++ '_' :: t).endsIn ('_' :: trail) := by
  have hiff (z : Text) : (z ++ '_' :: t).endsIn ('_' :: trail) = true ↔ '_' :: trail <:+ '_' :: t := by
    refine List.isSuffixOf_iff_suffix.trans ⟨suffix_of_underscore h, fun hs => hs.trans ?_⟩
    exact List.suffix_append z _
  rw [Bool.eq_iff_iff, hiff, hiff]

/-- So a name that is moved keeps its shape. -/
theorem shapeOfName_append (hspace : IsNamespace space) (htarget : IsNamespace target)
    (hr : FollowsNamespace r) : Token.shapeOfName (target ++ r) = Token.shapeOfName (space ++ r) := by
  unfold Token.shapeOfName
  obtain rfl | ⟨t, rfl⟩ := hr
  · simp [hspace.not_start, hspace.not_end, htarget.not_start, htarget.not_end]
  · have hstart := endsIn_append_underscore (t := t) target space
      (show '_' ∉ "Start".toList by decide)
    have hend := endsIn_append_underscore (t := t) target space (show '_' ∉ "End".toList by decide)
    rw [show startTrail = '_' :: "Start".toList from rfl, show endTrail = '_' :: "End".toList from rfl, hstart,
      hend]

theorem trimEnd_trim (t : Text) : Text.trimEnd (Text.trim t) = Text.trim t :=
  List.rdropWhile_idempotent _ _

/-- A name that is moved has no blanks at its ends. -/
theorem trim_append (h : IsNamespace target) (hn : Text.trimEnd (space ++ r) = space ++ r) :
    Text.trim (target ++ r) = target ++ r := by
  by_cases hr : r = []
  · rw [hr, List.append_nil]
    exact h.trimmed
  · have hstart : Text.trimStart target = target := by
      have hsuffix : Text.trimStart target <:+ target := List.dropWhile_suffix _
      have hprefix : Text.trim target <+: Text.trimStart target := List.rdropWhile_prefix _ _
      rw [h.trimmed] at hprefix
      exact hsuffix.eq_of_length_le hprefix.length_le
    have hend : Text.trimEnd r = r := by
      have hlast := List.rdropWhile_eq_self_iff.1 (show (space ++ r).rdropWhile isBlank = _ from hn) (by simp [hr])
      refine List.rdropWhile_eq_self_iff.2 fun hne => ?_
      rwa [List.getLast_append_of_ne_nil (by simp [hr]) hne] at hlast
    unfold Text.trim
    rw [Text.trimStart_append h.filled hstart, Text.trimEnd_append hr hend]

/-! ## 3. Tokens -/

/-- A token moved from one namespace to another. -/
def Token.moved (space target : Text) : Token → Token
  | .literal l => .literal l
  | .placeholder b =>
    match afterNamespace? space (Text.trim b) with
    | some r => .placeholder (target ++ r)
    | none => .placeholder b

theorem Token.moved_of_some {b : Text} (h : afterNamespace? space (Text.trim b) = some r) :
    Token.moved space target (.placeholder b) = .placeholder (target ++ r) := by
  simp only [Token.moved, h]

theorem Token.moved_of_none {b : Text} (h : afterNamespace? space (Text.trim b) = none) :
    Token.moved space target (.placeholder b) = .placeholder b := by
  simp only [Token.moved, h]

theorem source_moved (space target : Text) (k : Token) :
    (k.moved space target).source = moveToken space target k := by
  cases k with
  | literal l => rfl
  | placeholder b =>
    cases h : afterNamespace? space (Text.trim b) with
    | none => simp [Token.moved_of_none h, moveToken, Token.name, h]
    | some r => simp [Token.moved_of_some h, moveToken, Token.name, h, Token.source]

theorem moveNamespace_eq (space target t : Text) :
    moveNamespace space target t = sourceOf ((tokenize t).map (Token.moved space target)) := by
  simp [moveNamespace, sourceOf, List.flatMap_map, source_moved]

theorem isBody_append {b : Text} (htarget : IsNamespace target) (hb : IsBody b)
    (hn : Text.trim b = space ++ r) : IsBody (target ++ r) := by
  refine ⟨by simp [htarget.filled], fun c hc => ?_⟩
  rcases List.mem_append.1 hc with hc | hc
  · exact htarget.chars c hc
  · exact hb.chars c (mem_of_mem_trim (hn ▸ List.mem_append_right space hc))

/-- A placeholder stays one when it is moved. -/
theorem moved_placeholder (space : Text) {b : Text} (htarget : IsNamespace target) (hb : IsBody b) :
    ∃ b', Token.moved space target (.placeholder b) = .placeholder b' ∧ IsBody b' := by
  cases h : afterNamespace? space (Text.trim b) with
  | none => exact ⟨b, Token.moved_of_none h, hb⟩
  | some r => exact ⟨_, Token.moved_of_some h, isBody_append htarget hb (afterNamespace?_eq_some.1 h).1⟩

/-- **Tokens are still well cut when they are moved.** -/
theorem wellCut_map_moved (space : Text) (htarget : IsNamespace target) {ks : List Token} (h : WellCut ks) :
    WellCut (ks.map (Token.moved space target)) := by
  induction h with
  | nil => exact .nil
  | placeholder body _ ih =>
    obtain ⟨b', hb', hbody⟩ := moved_placeholder space htarget body
    rw [List.map_cons, hb']
    exact .placeholder hbody ih
  | last filled plain => exact .last filled plain
  | @literal l b ks filled plain rest ih =>
    obtain ⟨b', hb', hbody⟩ := moved_placeholder space htarget rest.body
    rw [List.map_cons, hb'] at ih
    rw [List.map_cons, List.map_cons, hb']
    exact .literal filled plain ih

/-- **The tokens of a moved template are its tokens moved.** -/
theorem tokenize_moveNamespace (space : Text) (htarget : IsNamespace target) (t : Text) :
    tokenize (moveNamespace space target t) = (tokenize t).map (Token.moved space target) := by
  rw [moveNamespace_eq]
  exact tokenize_sourceOf (wellCut_map_moved space htarget (wellCut_tokenize t))

/-! ## 4. Moving -/

/-- **What becomes of a token**: its shape stays, its text stays if it is no placeholder of the namespace, and
    else it is the placeholder of the new name. -/
structure Token.Moves (space target : Text) (k k' : Token) : Prop where
  shape : k'.shape = k.shape
  literal : k.isPlaceholder = false → k' = k
  outside : ¬ InNamespace space k.name → k' = k
  inside : ∀ r, k.isPlaceholder = true → k.name = space ++ r → FollowsNamespace r →
    k' = .placeholder (target ++ r) ∧ k'.name = target ++ r

theorem Token.moves_moved (hspace : IsNamespace space) (htarget : IsNamespace target) (k : Token) :
    k.Moves space target (k.moved space target) := by
  cases k with
  | literal l => exact ⟨rfl, fun _ => rfl, fun _ => rfl, fun _ h => Bool.noConfusion h⟩
  | placeholder b =>
    by_cases hin : InNamespace space (Text.trim b)
    · obtain ⟨r, hr⟩ := exists_of_inNamespace hin
      have hmoved : Token.moved space target (.placeholder b) = .placeholder (target ++ r) :=
        Token.moved_of_some (afterNamespace?_eq_some.2 hr)
      have hname : Text.trim (target ++ r) = target ++ r :=
        trim_append htarget (hr.1 ▸ trimEnd_trim b)
      rw [hmoved]
      refine ⟨?_, fun h => Bool.noConfusion h, fun h => absurd hin h, fun r' _ hr' _ => ?_⟩
      · simp only [Token.shape]
        rw [hname, hr.1]
        exact shapeOfName_append hspace htarget hr.2
      · obtain rfl : r = r' := List.append_cancel_left (hr.1.symm.trans hr')
        exact ⟨rfl, hname⟩
    · rw [Token.moved_of_none (afterNamespace?_eq_none.2 hin)]
      refine ⟨rfl, fun _ => rfl, fun _ => rfl, fun r _ hr hfollows => absurd ?_ hin⟩
      exact (show Text.trim b = space ++ r from hr) ▸ inNamespace_append hfollows

/-- A token that is moved and moved back is the token with its blanks taken away. -/
theorem moveToken_moved (hspace : IsNamespace space) (htarget : IsNamespace target) {k : Token}
    (hk : k.isPlaceholder = true → InNamespace target k.name → InNamespace space k.name) :
    moveToken target space (k.moved space target) = moveToken space space k := by
  cases k with
  | literal l => rfl
  | placeholder b =>
    have hmoves := Token.moves_moved hspace htarget (.placeholder b)
    by_cases hin : InNamespace space (Text.trim b)
    · obtain ⟨r, hr⟩ := exists_of_inNamespace hin
      obtain ⟨hmoved, hname⟩ := hmoves.inside r rfl hr.1 hr.2
      rw [hmoved] at hname
      rw [hmoved]
      simp only [moveToken, hname, afterNamespace?_eq_some.2 ⟨rfl, hr.2⟩]
      simp only [Token.name, afterNamespace?_eq_some.2 hr]
    · have hout : ¬ InNamespace target (Text.trim b) := fun h => hin (hk rfl h)
      rw [hmoves.outside hin]
      simp only [moveToken, Token.name, afterNamespace?_eq_none.2 hin, afterNamespace?_eq_none.2 hout]

/-- **Moving a template from one namespace to another.** -/
structure MovesNamespace (space target t : Text) : Prop where
  /-- the tokens are the same in number and shape, and only those of the namespace are renamed -/
  tokens : List.Forall₂ (Token.Moves space target) (tokenize t) (tokenize (moveNamespace space target t))
  /-- moving back leaves the template as if it was moved to its own namespace, unless a placeholder was in the
      new namespace and not in the old one -/
  undone : (∀ k ∈ tokenize t, k.isPlaceholder = true → InNamespace target k.name → InNamespace space k.name) →
    moveNamespace target space (moveNamespace space target t) = moveNamespace space space t

theorem movesNamespace (hspace : IsNamespace space) (htarget : IsNamespace target) (t : Text) :
    MovesNamespace space target t := by
  have htokens := tokenize_moveNamespace space htarget t
  refine ⟨?_, fun hk => ?_⟩
  · rw [htokens, List.forall₂_map_right_iff]
    exact List.forall₂_same.2 fun k _ => Token.moves_moved hspace htarget k
  · have hback : moveNamespace target space (moveNamespace space target t) =
        (tokenize t).flatMap fun k => moveToken target space (k.moved space target) := by
      rw [moveNamespace, htokens, List.flatMap_map]
    rw [hback]
    exact List.flatMap_congr fun k hmem => moveToken_moved hspace htarget (hk k hmem)

/-- Items moved into the namespace of an inventory and back: a placeholder behind a loose brace, one with blanks,
    the markers of a block, and names that only look as if they were in the namespace. -/
theorem movesNamespace_inventory :
    let items := "\x7b{{ Item_Name }} {{Item_Has_Start}}{{ItemCount}} {{Item}} Item_Name{{Item_Has_End}}".toList
    let inventory := "Inventory_Item".toList
    IsNamespace "Item".toList ∧ IsNamespace inventory ∧
      (∀ k ∈ tokenize items, k.isPlaceholder = true → InNamespace inventory k.name →
        InNamespace "Item".toList k.name) ∧
      moveNamespace "Item".toList inventory items =
        ("\x7b{{Inventory_Item_Name}} {{Inventory_Item_Has_Start}}{{ItemCount}} {{Inventory_Item}} " ++
          "Item_Name{{Inventory_Item_Has_End}}").toList ∧
      moveNamespace inventory "Item".toList (moveNamespace "Item".toList inventory items) =
        "\x7b{{Item_Name}} {{Item_Has_Start}}{{ItemCount}} {{Item}} Item_Name{{Item_Has_End}}".toList ∧
      MovesNamespace "Item".toList inventory items := by
  intro items inventory
  have hitem : IsNamespace "Item".toList :=
    ⟨by decide, List.all_eq_true.1 (by decide), by decide, by decide, by decide⟩
  have hinventory : IsNamespace inventory :=
    ⟨by decide, List.all_eq_true.1 (by decide), by decide, by decide, by decide⟩
  have hmoves := movesNamespace hitem hinventory items
  have hnew : ∀ k ∈ tokenize items, k.isPlaceholder = true → InNamespace inventory k.name →
      InNamespace "Item".toList k.name := by
    decide +kernel
  refine ⟨hitem, hinventory, hnew, by decide +kernel, ?_, hmoves⟩
  rw [hmoves.undone hnew]
  decide +kernel

end RecordExport

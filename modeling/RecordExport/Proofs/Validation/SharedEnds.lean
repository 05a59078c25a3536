import RecordExport.Proofs.Fields.Usage
import RecordExport.Proofs.Render.Cast
import RecordExport.Proofs.Template.Names
import RecordExport.Proofs.Validation.Pairing
/-!
# Conditions that share an end marker

The start markers of six conditions name a snippet, a field, or a field and a value, and all starts of a
condition share one end marker. Each condition is written down twice: for the resolver, in its namespace and
with names and values that may be empty, and for the check, behind any namespace and with neither empty. Of
the conditions that a start marker reads as for the check, the first one takes it.

* `SharedCondition.spelled_declared_iff`: of the names that a resolver looks for, the check's pattern has
  those that read with nothing empty;
* `Engine.knowsShared_standard`: **the check gives the start marker of a condition to a family that knows its
  end marker, and finds nothing wrong with its block, just if the marker reads with nothing empty and not as
  a condition that comes before**.
-/

namespace RecordExport

variable {ps : List NamePart}

/-! ## 1. The conditions -/

/-- A condition whose start markers share an end marker. -/
inductive SharedCondition where
  | hasSnippet
  | hasNotSnippet
  | field (c : FieldCondition)
  deriving DecidableEq, Repr

/-- The name of a start marker behind its namespace: what it says and what is to be filled in. -/
def FieldCondition.parts (hole : NamePart) : FieldCondition → List NamePart
  | .has => [.fixed "_HasField_".toList, hole, .fixed startTrail]
  | .hasNot => [.fixed "_HasNotField_".toList, hole, .fixed startTrail]
  | .notEquals =>
    [.fixed "_Value_".toList, hole, .fixed "_NotEquals_".toList, hole, .fixed startTrail]
  | .equals => [.fixed "_Value_".toList, hole, .fixed "_Equals_".toList, hole, .fixed startTrail]

/-- The name of an end marker behind its namespace. -/
def FieldCondition.closing : FieldCondition → Text
  | .has => "_HasField_End".toList
  | .hasNot => "_HasNotField_End".toList
  | .notEquals => "_Value_NotEquals_End".toList
  | .equals => "_Value_Equals_End".toList

namespace SharedCondition

/-- The conditions in the order the check goes by. -/
def all : List SharedCondition :=
  [.hasSnippet, .hasNotSnippet, .field .has, .field .hasNot, .field .notEquals, .field .equals]

theorem mem_all (k : SharedCondition) : k ∈ all := by
  cases k with
  | hasSnippet => decide
  | hasNotSnippet => decide
  | field c => cases c <;> decide

/-- The conditions that come before. -/
def sooner (k : SharedCondition) : List SharedCondition := all.takeWhile (· ≠ k)

/-- The name of a start marker. -/
def parts (space hole : NamePart) : SharedCondition → List NamePart
  | .hasSnippet => [.fixed "HasSnippet_".toList, hole, .fixed startTrail]
  | .hasNotSnippet => [.fixed "HasNotSnippet_".toList, hole, .fixed startTrail]
  | .field c => space :: c.parts hole

/-- The name of the end marker. -/
def closing (space : Text) : SharedCondition → Text
  | .hasSnippet => "HasSnippet_End".toList
  | .hasNotSnippet => "HasNotSnippet_End".toList
  | .field c => space ++ c.closing

/-- The blocks that its resolver settles. -/
def resolved (space : String) : SharedCondition → BlockFamily
  | .hasSnippet => SnippetPlaceholder.hasSnippet
  | .hasNotSnippet => SnippetPlaceholder.hasNotSnippet
  | .field c => c.family space

/-- The blocks that the check knows. -/
def declared (k : SharedCondition) : BlockFamily where
  opens := .parts (k.parts .filled .filled)
  closes := match k with
    | .field c => .parts [.filled, .fixed c.closing]
    | k => .literal (k.closing [])

theorem families_standard {ω : Type} (services : Services ω) (maxDepth : Nat) :
    (Engine.standard services maxDepth).families = all.map declared :=
  (Engine.families_standard services maxDepth).trans rfl

/-- A resolver's start markers are spelled in its namespace. -/
theorem isMatch_opens_resolved_iff {space : String} {k : SharedCondition} {n : Text} :
    (k.resolved space).opens.isMatch n = true ↔
      Spelled (k.parts (.fixed space.toList) .captured) n := by
  have hwithin : ∀ {word} {ps : List NamePart}, Spelled (.fixed (space.toList ++ ['_']) ::
      .fixed word :: ps) n ↔ Spelled (.fixed space.toList :: .fixed (['_'] ++ word) :: ps) n := by
    intro word ps
    rw [← spelled_fixed_append, ← spelled_fixed_append, List.append_assoc]
  cases k with
  | hasSnippet => exact isMatch_parts_iff
  | hasNotSnippet => exact isMatch_parts_iff
  | field c => cases c <;> exact isMatch_parts_iff.trans hwithin

/-- It has one end marker. -/
theorem isMatch_closes_resolved_iff {space : String} {k : SharedCondition} {m : Text} :
    (k.resolved space).closes.isMatch m = true ↔ m = k.closing space.toList := by
  have hwithin : ∀ {word : Text}, Spelled [.fixed (space.toList ++ ['_']), .fixed word] m ↔
      m = space.toList ++ (['_'] ++ word) := by
    intro word
    rw [← spelled_fixed_append, ← isMatch_parts_iff, ← List.append_assoc]
    exact isMatch_literal_iff
  cases k with
  | hasSnippet => exact isMatch_literal_iff
  | hasNotSnippet => exact isMatch_literal_iff
  | field c => cases c <;> exact isMatch_parts_iff.trans hwithin

end SharedCondition

/-! ## 2. Names that resolvers look for -/

/-- The namespaces in which the fields of an object are resolved: those of the kinds of objects, which a
    listed skill shares, and that of an item in an inventory. -/
def objectSpaces : List String := ArtifactKind.all.filterMap (·.space?) ++ [inventoryItemSpace]

/-- The underscores inside a namespace are followed by a letter that no condition begins with. -/
theorem space_prefix_of_eq {space : String} (hspace : space ∈ objectSpaces) {z u w : Text} {c : Char}
    (hc : c ≠ 'I') (h : space.toList ++ z = u ++ '_' :: c :: w) : space.toList <+: u := by
  have hinner : ∀ space ∈ objectSpaces, ∀ i < space.toList.length,
      (space.toList.drop i).head? = some '_' → (space.toList.drop i)[1]? = some 'I' := by decide
  rcases Nat.lt_or_ge u.length space.toList.length with hlt | hle
  · exfalso
    have hdrop : space.toList.drop u.length ++ z = '_' :: c :: w := by
      rw [← List.drop_append_of_le_length hlt.le, h, List.drop_left]
    have hhead : (space.toList.drop u.length).head? = some '_' := by
      cases hrest : space.toList.drop u.length with
      | nil => exact absurd (List.drop_eq_nil_iff.1 hrest) (Nat.not_le.2 hlt)
      | cons d rest =>
        rw [hrest] at hdrop
        exact congrArg some (List.cons.inj hdrop).1
    obtain ⟨rest, hrest⟩ := List.head?_eq_some_iff.1 hhead
    have hnext := hinner space hspace u.length hlt hhead
    rw [hrest] at hnext hdrop
    cases rest with
    | nil => cases hnext
    | cons d rest =>
      have hd : d = 'I' := Option.some.inj hnext
      have hdc : d = c := (List.cons.inj (List.cons.inj hdrop).2).1
      exact hc (hdc.symm.trans hd)
  · exact List.prefix_of_prefix_length_le ⟨z, h⟩ (List.prefix_append _ _) hle

/-- A name that reads as a condition behind some namespace reads so behind its own. -/
theorem spelled_of_lead {space : String} (hspace : space ∈ objectSpaces) {word w : Text} {c : Char}
    (hc : c ≠ 'I') (hword : word = '_' :: c :: w) (hfeed : '\n' ∉ word) {n z : Text}
    (hn : n = space.toList ++ (word ++ z))
    (h : Spelled (.filled :: .fixed word :: .filled :: ps) n) :
    Spelled (.fixed space.toList :: .fixed word :: .filled :: ps) n := by
  obtain ⟨u, _, hu, ⟨-, hufeed⟩, word', _, rfl, rfl, v, r, rfl, ⟨hv, hvfeed⟩, hr⟩ := h
  have hlead : space.toList <+: u := by
    refine space_prefix_of_eq hspace (z := word' ++ z) (w := w ++ (v ++ r)) hc ?_
    rw [← hn, hu, hword]
    rfl
  obtain ⟨u', rfl⟩ := hlead
  -- behind the namespace the first word of the condition begins, whatever else reads as it
  have hbehind : word' ++ z = u' ++ (word' ++ v) ++ r := by
    refine List.append_cancel_left (?_ : space.toList ++ _ = space.toList ++ _)
    rw [← hn, hu]
    simp only [List.append_assoc]
  have hlength : (u' ++ (word' ++ v)).length = u'.length + (word'.length + v.length) := by
    rw [List.length_append, List.length_append]
  have hleads : word' <+: u' ++ (word' ++ v) :=
    List.prefix_of_prefix_length_le ⟨z, hbehind⟩ (List.prefix_append _ r) (by omega)
  obtain ⟨x, hx⟩ := hleads
  have hxlength := congrArg List.length hx
  rw [hlength, List.length_append] at hxlength
  have hvpos := List.length_pos_of_ne_nil hv
  have hxfeed : '\n' ∉ x := by
    intro hmem
    have hmem := hx ▸ List.mem_append_right word' hmem
    simp only [List.mem_append] at hmem hufeed
    tauto
  have hxne : x ≠ [] := List.ne_nil_of_length_pos (by omega)
  refine ⟨space.toList, word' ++ (x ++ r), ?_, rfl, word', x ++ r, rfl, rfl, x, r, rfl, ⟨hxne, hxfeed⟩, hr⟩
  rw [hn, hbehind, ← hx, List.append_assoc]

namespace SharedCondition

variable {space : String} (hspace : space ∈ objectSpaces) {k : SharedCondition} {n : Text}
include hspace

/-- **Of the names that a resolver looks for, the check's pattern has those that read with nothing
    empty.** -/
theorem spelled_declared_iff (h : Spelled (k.parts (.fixed space.toList) .captured) n) :
    Spelled (k.parts .filled .filled) n ↔ Spelled (k.parts (.fixed space.toList) .filled) n := by
  have hlead : space.toList ≠ [] ∧ '\n' ∉ space.toList := by
    have hall : ∀ space ∈ objectSpaces, space.toList ≠ [] ∧ '\n' ∉ space.toList := by decide
    exact hall space hspace
  cases k with
  | hasSnippet => rfl
  | hasNotSnippet => rfl
  | field c =>
    constructor
    · intro hfilled
      obtain ⟨_, _, rfl, rfl, h⟩ := h
      cases c <;> obtain ⟨_, z, rfl, rfl, -⟩ := h <;>
        exact spelled_of_lead hspace (by decide) rfl (by decide) rfl hfilled
    · rintro ⟨_, r, rfl, rfl, hr⟩
      exact ⟨_, r, rfl, hlead, hr⟩

/-- The end marker of a condition is known to its own family alone. -/
theorem isMatch_closes_declared_iff {k' : SharedCondition} :
    k'.declared.closes.isMatch (k.closing space.toList) = true ↔ k' = k := by
  have hall : ∀ space ∈ objectSpaces, ∀ k ∈ all, ∀ k' ∈ all,
      k'.declared.closes.isMatch (k.closing space.toList) = decide (k' = k) := by decide +kernel
  rw [hall space hspace k k.mem_all k' k'.mem_all, decide_eq_true_eq]

end SharedCondition

/-! ## 3. Whom a start marker is given to -/

/-- The family a start marker is given to: the first that knows its name. -/
def assigned (fs : List BlockFamily) (n : Text) : Option BlockFamily := fs.find? (·.opens.isMatch n)

namespace SharedCondition

theorem exists_all_eq (k : SharedCondition) : ∃ later, all = k.sooner ++ k :: later := by
  cases k with
  | hasSnippet => exact ⟨_, rfl⟩
  | hasNotSnippet => exact ⟨_, rfl⟩
  | field c => cases c <;> exact ⟨_, rfl⟩

theorem not_mem_sooner (k : SharedCondition) : k ∉ k.sooner := by
  intro h
  have hne : decide (k ≠ k) = true := List.mem_takeWhile_imp (p := fun k' => decide (k' ≠ k)) h
  exact of_decide_eq_true hne rfl

theorem isMatch_opens_declared_iff {k : SharedCondition} {n : Text} :
    k.declared.opens.isMatch n = true ↔ Spelled (k.parts .filled .filled) n := isMatch_parts_iff

/-- **The check knows the name as one of this condition in the namespace**: it reads with nothing empty, and
    not as a condition that comes before, whatever the namespace. -/
def KnownAs (space : String) (n : Text) (k : SharedCondition) : Prop :=
  Spelled (k.parts (.fixed space.toList) .filled) n ∧
    ∀ k' ∈ k.sooner, ¬ Spelled (k'.parts .filled .filled) n

section Known

variable {space : String} (hspace : space ∈ objectSpaces) {k : SharedCondition} {n m : Text}
  (hn : (k.resolved space).opens.isMatch n = true)
include hspace hn

theorem knownAs_iff : k.KnownAs space n ↔
    k.declared.opens.isMatch n = true ∧ ∀ f ∈ k.sooner.map declared, f.opens.isMatch n = false := by
  rw [isMatch_opens_declared_iff, spelled_declared_iff hspace (isMatch_opens_resolved_iff.1 hn)]
  refine and_congr_right fun _ => ?_
  simp only [List.forall_mem_map, ← isMatch_opens_declared_iff, Bool.not_eq_true]

theorem assigned_iff (hm : (k.resolved space).closes.isMatch m = true) :
    (∃ f, assigned (all.map declared) n = some f ∧ f.closes.isMatch m = true) ↔ k.KnownAs space n := by
  obtain ⟨later, hall⟩ := k.exists_all_eq
  obtain rfl := isMatch_closes_resolved_iff.1 hm
  rw [knownAs_iff hspace hn, assigned, hall, List.map_append, List.map_cons]
  constructor
  · rintro ⟨f, hf, hcloses⟩
    have hself : ∀ ks : List SharedCondition, f ∈ ks.map declared → k ∈ ks ∧ f = k.declared := by
      intro ks hmem
      obtain ⟨k', hk', rfl⟩ := List.mem_map.1 hmem
      obtain rfl := (isMatch_closes_declared_iff hspace).1 hcloses
      exact ⟨hk', rfl⟩
    rw [List.find?_append] at hf
    cases hfound : (k.sooner.map declared).find? (·.opens.isMatch n) with
    | some f' =>
      rw [hfound, Option.some_or] at hf
      obtain rfl := Option.some.inj hf
      exact absurd (hself _ (List.mem_of_find?_eq_some hfound)).1 k.not_mem_sooner
    | none =>
      rw [hfound, Option.none_or] at hf
      obtain rfl := (hself (k :: later) (List.mem_of_find?_eq_some hf)).2
      have hopens := List.find?_some (p := fun f : BlockFamily => f.opens.isMatch n) hf
      exact ⟨hopens, fun f hf => Bool.not_eq_true _ ▸ List.find?_eq_none.1 hfound f hf⟩
  · rintro ⟨hopens, hsooner⟩
    refine ⟨k.declared, ?_, (isMatch_closes_declared_iff hspace).2 rfl⟩
    have hnone : (k.sooner.map declared).find? (·.opens.isMatch n) = none :=
      List.find?_eq_none.2 fun f hf => by
        rw [hsooner f hf]
        exact Bool.false_ne_true
    rw [List.find?_append, hnone, Option.none_or]
    exact List.find?_cons_of_pos hopens

end Known

end SharedCondition

/-! ## 4. The block of a condition -/

theorem cutShort_around {k : Markers} {inner : Text} : CutShort (k.around inner) ↔ CutShort inner := by
  unfold CutShort
  rw [k.tokenize_around]
  simp [Markers.tokens]

section Families

variable {before after : List BlockFamily} {f : BlockFamily} {s e : Located} {ls : List Located}
  (hs : s.1.shape = .blockStart) (he : e.1.shape = .blockEnd)
  (hls : ∀ t ∈ ls, t.1.shape ≠ .blockStart ∧ t.1.shape ≠ .blockEnd)
  (hcloses : f.closes.isMatch e.1.name = true) (hbefore : ∀ g ∈ before, g.closes.isMatch e.1.name = false)
include hs he hls hcloses hbefore

/-- A block is paired if the family of its end marker is the first that knows its start marker. -/
theorem pairFamilies_of_known (hopens : f.opens.isMatch s.1.name = true)
    (hsooner : ∀ g ∈ before, g.opens.isMatch s.1.name = false) :
    pairFamilies (before ++ f :: after) (s :: (ls ++ [e])) = ([], ls) := by
  have hclaims : ∀ g : BlockFamily, ∀ t ∈ ls, g.claims t.1 = false := fun g t ht =>
    Bool.or_eq_false_iff.2 (not_claims_of_unmarked (hls t ht))
  have hnone : pairFamilies before (s :: (ls ++ [e])) = ([], s :: (ls ++ [e])) := by
    refine pairFamilies_of_unclaimed fun g hg t ht => ?_
    rcases List.mem_cons.1 ht with rfl | ht
    · rw [(claims_of_blockStart hs).2.2, hsooner g hg]
    · rcases List.mem_append.1 ht with ht | ht
      · exact hclaims g t ht
      · rw [List.mem_singleton.1 ht, (claims_of_blockEnd he).2.2, hbefore g hg]
  have hbalanced : Balanced f ((s :: (ls ++ [e])).map (·.1)) := by
    rw [List.map_cons, List.map_append]
    refine .block ((claims_of_blockStart hs).1.trans hopens) (balanced_of_not_marker fun t ht => ?_)
      ((claims_of_blockEnd he).2.1.trans hcloses) .nil
    obtain ⟨x, hx, rfl⟩ := List.mem_map.1 ht
    exact not_claims_of_unmarked (hls x hx)
  have hrest : (s :: (ls ++ [e])).filter (fun t => !f.claims t.1) = ls := by
    have hself : ls.filter (fun t => !f.claims t.1) = ls :=
      List.filter_eq_self.2 fun t ht => by rw [hclaims f t ht]; rfl
    rw [List.filter_cons_of_neg, List.filter_append, hself, List.filter_cons_of_neg, List.filter_nil,
      List.append_nil]
    · rw [(claims_of_blockEnd he).2.2, hcloses]
      exact Bool.false_ne_true
    · rw [(claims_of_blockStart hs).2.2, hopens]
      exact Bool.false_ne_true
  rw [pairFamilies_append, hnone, pairFamilies, hrest, pairMarkers_of_balanced hbalanced,
    pairFamilies_of_unclaimed fun g _ => hclaims g]
  rfl

/-- Else its end marker is reported. -/
theorem unmatchedEnd_mem_pairFamilies (after : List BlockFamily) (h : ¬ (f.opens.isMatch s.1.name = true ∧
      ∀ g ∈ before, g.opens.isMatch s.1.name = false)) :
    .unmatchedEnd e.1.name e.2 ∈ (pairFamilies (before ++ f :: after) (s :: (ls ++ [e]))).1 := by
  rw [pairFamilies_append, pairFamilies_snd, pairFamilies]
  refine List.mem_append_right _ (List.mem_append_left _ ?_)
  refine unmatchedEnd_mem_pairMarkers (fun t ht => ?_) (List.mem_filter.2 ⟨by simp, ?_⟩)
    ((claims_of_blockEnd he).2.1.trans hcloses)
  · obtain ⟨hmem, hleft⟩ := List.mem_filter.1 ht
    rcases List.mem_cons.1 hmem with rfl | hmem
    · rw [(claims_of_blockStart hs).1]
      refine Bool.eq_false_iff.2 fun hopens => h ⟨hopens, fun g hg => ?_⟩
      have hunclaimed := List.all_eq_true.1 hleft g hg
      rwa [(claims_of_blockStart hs).2.2, Bool.not_eq_true'] at hunclaimed
    · rcases List.mem_append.1 hmem with hmem | hmem
      · exact (not_claims_of_unmarked (hls t hmem)).1
      · rw [List.mem_singleton.1 hmem]
        exact (claims_of_blockEnd he).1
  · refine List.all_eq_true.2 fun g hg => ?_
    rw [(claims_of_blockEnd he).2.2, hbefore g hg]
    rfl

end Families

namespace SharedCondition

theorem shape_of_resolved {space : String} {k : SharedCondition} {n : Text}
    (hn : (k.resolved space).opens.isMatch n = true) : Token.shapeOfName n = .blockStart := by
  have hends : ∃ ps, k.parts (.fixed space.toList) .captured = ps ++ [.fixed startTrail] := by
    cases k with
    | hasSnippet => exact ⟨[_, _], rfl⟩
    | hasNotSnippet => exact ⟨[_, _], rfl⟩
    | field c =>
      cases c with
      | has => exact ⟨[_, _, _], rfl⟩
      | hasNot => exact ⟨[_, _, _], rfl⟩
      | notEquals => exact ⟨[_, _, _, _, _], rfl⟩
      | equals => exact ⟨[_, _, _, _, _], rfl⟩
  obtain ⟨ps, hps⟩ := hends
  have hsuffix := suffix_of_spelled (hps ▸ isMatch_opens_resolved_iff.1 hn)
  exact if_pos (List.isSuffixOf_iff_suffix.2 hsuffix)

theorem shape_closing {space : String} (hspace : space ∈ objectSpaces) {k : SharedCondition} :
    Token.shapeOfName (k.closing space.toList) = .blockEnd := by
  have hall : ∀ space ∈ objectSpaces, ∀ k ∈ all,
      Token.shapeOfName (k.closing space.toList) = .blockEnd := by decide +kernel
  exact hall space hspace k k.mem_all

section Block

variable {space : String} (hspace : space ∈ objectSpaces) {k : SharedCondition} {mk : Markers}
  (hn : (k.resolved space).opens.isMatch (Text.trim mk.opening) = true)
  (hm : (k.resolved space).closes.isMatch (Text.trim mk.closing) = true) {inner : Text}
  (hinner : Unmarked inner)
include hspace hn hm hinner

theorem validate_around : validate (all.map declared) (mk.around inner) = [] ↔
    k.KnownAs space (Text.trim mk.opening) ∧ ¬ CutShort inner := by
  obtain ⟨later, hall⟩ := k.exists_all_eq
  have hclosing := isMatch_closes_resolved_iff.1 hm
  have htokens : (locate (mk.around inner)).map (·.1) = mk.tokens inner :=
    (map_locate _).trans (mk.tokenize_around inner)
  obtain ⟨s, _, hts, hs, hbehind⟩ := List.map_eq_cons_iff.1 htokens
  obtain ⟨ls, _, rfl, hls, hend⟩ := List.map_eq_append_iff.1 hbehind
  obtain ⟨e, _, rfl, he, hnil⟩ := List.map_eq_cons_iff.1 hend
  obtain rfl := List.map_eq_nil_iff.1 hnil
  have hname : s.1.name = Text.trim mk.opening ∧ e.1.name = k.closing space.toList := by
    rw [hs, he, ← hclosing]
    exact ⟨rfl, rfl⟩
  have hstart : s.1.shape = .blockStart := by
    rw [hs]
    exact shape_of_resolved hn
  have hstop : e.1.shape = .blockEnd := by
    rw [he]
    show Token.shapeOfName (Text.trim mk.closing) = .blockEnd
    rw [hclosing]
    exact shape_closing hspace
  have hunmarked : ∀ t ∈ ls, t.1.shape ≠ .blockStart ∧ t.1.shape ≠ .blockEnd := fun t ht =>
    hinner t.1 (hls ▸ List.mem_map_of_mem ht)
  have hcloses : k.declared.closes.isMatch e.1.name = true := by
    rw [hname.2]
    exact (isMatch_closes_declared_iff hspace).2 rfl
  have hbefore : ∀ g ∈ k.sooner.map declared, g.closes.isMatch e.1.name = false := by
    intro g hg
    obtain ⟨k', hk', rfl⟩ := List.mem_map.1 hg
    rw [hname.2]
    refine Bool.eq_false_iff.2 fun hmatch => ?_
    rw [(isMatch_closes_declared_iff hspace).1 hmatch] at hk'
    exact k.not_mem_sooner hk'
  rw [validate_eq_nil_iff, literalTokenIssues_eq_nil_iff, cutShort_around, knownAs_iff hspace hn, hts, hall,
    List.map_append, List.map_cons, ← hname.1]
  constructor
  · rintro ⟨hclaimed, -, hsound⟩
    refine ⟨?_, hsound⟩
    by_contra hunknown
    have hmem := unmatchedEnd_mem_pairFamilies hstart hstop hunmarked hcloses hbefore
      (later.map declared) hunknown
    rw [hclaimed] at hmem
    cases hmem
  · rintro ⟨⟨hopens, hsooner⟩, hsound⟩
    rw [pairFamilies_of_known hstart hstop hunmarked hcloses hbefore hopens hsooner]
    exact ⟨rfl, pairStems_of_unmarked hunmarked, hsound⟩

end Block

end SharedCondition

/-- **What the check makes of the conditions that share an end marker.** For every namespace in which an
    object is resolved and every start marker that the resolver of a condition looks for there: the check
    gives the marker to a family that knows the end marker, just if the name reads as the condition with
    nothing empty and does not read so as a condition that comes before. A block of the two markers around
    text without markers is then found to be right, if no placeholder in the text is cut short; else it is
    not. -/
theorem Engine.knowsShared_standard {ω : Type} (services : Services ω) (maxDepth : Nat) (space : String)
    (hspace : space ∈ objectSpaces) (k : SharedCondition) (n m : Text)
    (hn : (k.resolved space).opens.isMatch n = true) (hm : (k.resolved space).closes.isMatch m = true) :
    ((∃ f, assigned (standard services maxDepth).families n = some f ∧ f.closes.isMatch m = true) ↔
      k.KnownAs space n) ∧
    ∀ (mk : Markers) (inner : Text), Text.trim mk.opening = n → Text.trim mk.closing = m →
      Unmarked inner →
      ((standard services maxDepth).validate (mk.around inner) = [] ↔
        k.KnownAs space n ∧ ¬ CutShort inner) := by
  unfold validate
  rw [SharedCondition.families_standard]
  refine ⟨SharedCondition.assigned_iff hspace hn hm, ?_⟩
  rintro mk inner rfl rfl hinner
  exact SharedCondition.validate_around hspace hn hm hinner

instance (space : String) (n : Text) (k : SharedCondition) : Decidable (k.KnownAs space n) :=
  inferInstanceAs (Decidable (_ ∧ _))

/-- A value that is empty is none for the check, and a field that is named like a condition is one. -/
example : ¬ SharedCondition.KnownAs "Npc" "Npc_Value_X_Equals__Start".toList (.field .equals) ∧
    ¬ SharedCondition.KnownAs "Npc" "Npc_Value_A_HasField_B_Equals_3_Start".toList (.field .equals) := by
  decide +kernel

/-- A comparison. -/
def courageBlock : Markers where
  opening := " Npc_Value_Courage_Equals_High_Start ".toList
  closing := "Npc_Value_Equals_End".toList
  isBody_opening := by decide
  isBody_closing := by decide

theorem Engine.knowsShared_courage :
    let e := standard (Services.inMemory ⟨[], []⟩ .builtIn .standard) 16
    let n := "Npc_Value_Courage_Equals_High_Start".toList
    (∃ f, assigned e.families n = some f ∧ f.closes.isMatch "Npc_Value_Equals_End".toList = true) ∧
      e.validate (courageBlock.around "brave".toList) = [] := by
  intro e n
  have h := knowsShared_standard (Services.inMemory ⟨[], []⟩ .builtIn .standard) 16 "Npc" (by decide)
    (.field .equals) n "Npc_Value_Equals_End".toList (by decide +kernel) (by decide +kernel)
  have hknown : SharedCondition.KnownAs "Npc" n (.field .equals) := by decide +kernel
  refine ⟨h.1.2 hknown, (h.2 courageBlock "brave".toList (by decide) (by decide) ?_).2 ⟨hknown, ?_⟩⟩
  · unfold Unmarked
    decide +kernel
  · exact literalTokenIssues_eq_nil_iff.1 (by decide +kernel)

end RecordExport

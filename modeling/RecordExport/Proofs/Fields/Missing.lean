import RecordExport.Proofs.Conditions.Dropped
import RecordExport.Proofs.Fields.Shape
import RecordExport.Proofs.Template.BlockTree
/-!
# Missing fields

A placeholder can name a field that an object lacks. Its value and the key of its value are written as a marker
then, and a comparison with it drops its block; each of them is reported, and nothing else comes of it.

* `askedIn`: the conditions that a pass asks about, by the pairs of the text, and `keepBlocksM_reporting`: a pass
  that reports is a pass that does not, behind the reports;
* `settleAll_eq`: so are the conditions on an object's fields;
* `RenderProgram.Gives`, `Oracle.run_bind_congr`: what programs give whatever they are answered, and going on
  from there;
* `Oracle.run_resolveObject`: where no text that is put in has an opening brace the program of an object goes by
  the placeholders that its conditions leave, each of them once;
* `marksMissing_resolveObject`: **missing fields are reported once for each place**, and nothing fails.
-/

namespace RecordExport

universe v

open RenderProgram

/-! ## 1. Conditions that are asked about -/

/-- The conditions that a pass over tokens asks about, by what their markers capture, in the order they stand in:
    those of the paired start markers that are not in a block it drops. -/
def askedIn (f : BlockFamily) (pairs : List (Located × Located)) (decision : List Text → Bool) :
    (dropping : Option Located) → List Located → List (List Text)
  | _, [] => []
  | some e, t :: ts => askedIn f pairs decision (if t = e then none else some e) ts
  | none, t :: ts =>
    match closerIn pairs t, f.opens.captures t.1.name with
    | some e, some cs => cs :: askedIn f pairs decision (if decision cs then none else some e) ts
    | _, _ => askedIn f pairs decision none ts

/-- The conditions of a family that a text is asked about. -/
def askedConditions (f : BlockFamily) (decision : List Text → Bool) (t : Text) : List (List Text) :=
  askedIn f (f.pairing [] (locate t)).pairs decision none (locate t)

section Asked

variable {f : BlockFamily} {decision : List Text → Bool}

/-- Decide, and note what was asked about. -/
def decideNoting (decision : List Text → Bool) (cs : List Text) : StateM (List (List Text)) Bool :=
  fun asked => (decision cs, asked ++ [cs])

/-- What the pass over tokens notes is what it asks about. -/
theorem settle_noting (pairs : List (Located × Located)) (written : Text) (dropping : Option Located)
    (ts : List Located) (asked : List (List Text)) :
    (settle f pairs (decideNoting decision) written dropping ts asked).2 =
      asked ++ askedIn f pairs decision dropping ts := by
  induction ts generalizing written dropping asked with
  | nil => cases dropping <;> exact (List.append_nil asked).symm
  | cons t ts ih =>
    cases dropping with
    | some e =>
      rw [settle, askedIn]
      exact ih _ _ _
    | none =>
      rw [settle, askedIn]
      cases hcloser : closerIn pairs t with
      | none => exact ih _ _ _
      | some e =>
        cases hcs : f.opens.captures t.1.name with
        | none => exact ih _ _ _
        | some cs =>
          refine (ih _ _ (asked ++ [cs])).trans ?_
          rw [List.append_assoc]
          rfl

/-- **A walk that reports** is a walk that does not, behind reports of what it asks about: by induction on what is
    left of the text, for a walk that notes what it asks about as well. -/
theorem keepFrom_reporting {m : Type → Type v} [Monad m] [LawfulMonad m] (f : BlockFamily)
    (decision : List Text → Bool) (report : List Text → m PUnit) (before rest : Text) :
    ∃ asked, (∀ noted, keepFrom f (decideNoting decision) before rest noted =
        (keepFrom (m := Id) f decision before rest, noted ++ asked)) ∧
      keepFrom f (fun cs => do report cs; pure (decision cs)) before rest =
        (do asked.forM report; pure (keepFrom (m := Id) f decision before rest)) := by
  have hplain := walksBy_keepFrom (m := Id) f decision
  have hnoting := walksBy_keepFrom (m := StateM (List (List Text))) f (decideNoting decision)
  have hreporting := walksBy_keepFrom f fun cs => (do report cs; pure (decision cs) : m Bool)
  induction hn : rest.length using Nat.strong_induction_on generalizing before rest with
  | _ n ih =>
    cases hfound : findBlock f (tokenize rest) with
    | none =>
      refine ⟨[], fun noted => ?_, ?_⟩
      · rw [hnoting.ends hfound, hplain.ends hfound, List.append_nil]
        rfl
      · have hnone : ([] : List (List Text)).forM report = pure ⟨⟩ := rfl
        rw [hreporting.ends hfound, hplain.ends hfound, hnone, pure_bind]
        rfl
    | some found =>
      have hlength := Block.length_ofMatch before hfound
      rw [source_tokenize] at hlength
      rw [hreporting.goes hfound, hplain.goes hfound, hnoting.goes hfound]
      generalize Block.ofMatch before found = b at hlength ⊢
      have hleft : (if decision b.captures then b.inner ++ b.tail else b.tail).length < n := by
        split
        · rw [List.length_append]
          omega
        · omega
      obtain ⟨asked, hnoted, hreported⟩ := ih _ hleft b.head
        (if decision b.captures then b.inner ++ b.tail else b.tail) rfl
      refine ⟨b.captures :: asked, fun noted => ?_, ?_⟩
      · refine (hnoted (noted ++ [b.captures])).trans ?_
        rw [List.append_assoc]
        rfl
      · have hfirst : (b.captures :: asked).forM report = (do report b.captures; asked.forM report) := rfl
        unfold keepStep
        rw [hfirst]
        simp only [bind_assoc, pure_bind]
        refine bind_congr fun _ => ?_
        exact hreported

/-- **A pass that reports** asks about the conditions of the text and is else as a pass that does not, in a text
    whose literals in front of end markers are finished. -/
theorem keepBlocksM_reporting {m : Type → Type v} [Monad m] [LawfulMonad m] (report : List Text → m PUnit)
    {t : Text} (h : ∀ l e, [.literal l, e] <:+: tokenize t → f.isClosing e = true → ¬ Unfinished l) :
    keepBlocksM f t (fun cs => do report cs; pure (decision cs)) =
      (do (askedConditions f decision t).forM report; pure (keepBlocks f t decision)) := by
  obtain ⟨asked, hnoted, hreported⟩ := keepFrom_reporting f decision report [] t
  have hnotes : (keepBlocksM f t (decideNoting decision) []).2 = asked := congrArg Prod.snd (hnoted [])
  have hpass : Text.unspaced <$> keepBlocksM f t (decideNoting decision) =
      Text.unspaced <$> settle f (f.pairing [] (locate t)).pairs (decideNoting decision) [] none (locate t) := by
    rw [keepBlocksM_eq]
    refine keepFrom_settles _ (nodup_locate t) ?_ (guardedBy_of_tokens h) rfl
    rw [map_locate]
  have hsettled := congrFun hpass []
  have hasked : (settle f (f.pairing [] (locate t)).pairs (decideNoting decision) [] none (locate t) []).2 = asked :=
    (congrArg Prod.snd hsettled).symm.trans hnotes
  rw [settle_noting] at hasked
  rw [show askedConditions f decision t = asked from hasked]
  exact hreported

end Asked

/-! ## 2. Literals of sealed texts -/

section Literals

variable {bs : List Text} {t l : Text}

theorem unopened_of_infix {s : Text} (h : unopened s = true) (hl : l <:+: s) : unopened l = true := by
  obtain ⟨x, y, rfl⟩ := hl
  exact (unopened_append.1 (unopened_append.1 h).1).2.2

/-- A literal is a part of its text. -/
theorem infix_of_literal (h : .literal l ∈ tokenize t) : l <:+: t := by
  obtain ⟨pre, post, hsplit⟩ := List.append_of_mem h
  have hsource := source_tokenize t
  rw [hsplit, sourceOf_append, sourceOf_cons, ← List.append_assoc] at hsource
  exact ⟨_, _, hsource⟩

theorem Sealed.unopened_of_literal (h : Sealed bs t) (hl : .literal l ∈ tokenize t) : unopened l = true := by
  induction h with
  | plain hs => exact unopened_of_infix hs (infix_of_literal hl)
  | @hole s b t bs hs hb _ ih =>
    rw [tokenize_append_braced s hb] at hl
    rcases List.mem_append.1 hl with hl | hl
    · exact unopened_of_infix (unopened_append.1 hs).1 (infix_of_literal hl)
    · rcases List.mem_cons.1 hl with hl | hl
      · cases hl
      · exact ih hl

/-- In a sealed text nothing in front of a placeholder is the beginning of one. -/
theorem Sealed.finished (h : Sealed bs t) {k : Token} (hk : [.literal l, k] <:+: tokenize t)
    (hplaceholder : k.isPlaceholder = true) : ¬ Unfinished l := by
  rintro ⟨s, r, b, ⟨x, rfl⟩, hne, -, -, heq⟩
  cases k with
  | literal => cases hplaceholder
  | placeholder b' =>
    obtain ⟨pre, post, hsplit⟩ := hk
    have hcut : tokenize t = (pre ++ [.literal (x ++ s)]) ++ .placeholder b' :: post := by
      rw [← hsplit]
      simp
    have hmem : .literal (x ++ s) ∈ tokenize t := by
      rw [hcut]
      simp
    have hunopened := (unopened_append.1 (h.unopened_of_literal hmem)).2.2
    obtain ⟨c, s, rfl⟩ := List.exists_cons_of_ne_nil hne
    obtain ⟨rfl, hrest⟩ := List.cons.inj heq
    cases s with
    | nil =>
      -- the literal ends in an opening brace, and the placeholder begins with one
      refine (h.split hcut).2.1 ?_
      rw [sourceOf_append, sourceOf_cons, sourceOf_nil, Token.source]
      simp
    | cons d s =>
      obtain ⟨rfl, -⟩ := List.cons.inj hrest
      exact absurd rfl ((unopened_cons.1 hunopened).1 rfl)

/-- A text is sealed if its literals have no opening braces. -/
theorem exists_sealed (h : ∀ l, .literal l ∈ tokenize t → '{' ∉ l) : ∃ bs, Sealed bs t := by
  have hgo : ∀ {ks : List Token}, WellCut ks → (∀ l, .literal l ∈ ks → '{' ∉ l) →
      ∃ bs, Sealed bs (sourceOf ks) := by
    intro ks hks
    induction hks with
    | nil => exact fun _ => ⟨[], .plain rfl⟩
    | @placeholder b ks body _ ih =>
      intro hl
      obtain ⟨bs, hrest⟩ := ih fun l hm => hl l (List.mem_cons_of_mem _ hm)
      exact ⟨b :: bs, .hole (l := []) rfl body hrest⟩
    | @last l _ _ =>
      intro hl
      refine ⟨[], ?_⟩
      rw [sourceOf_cons, sourceOf_nil, List.append_nil]
      exact .plain (unopened_of_not_mem (hl l List.mem_cons_self))
    | @literal l b ks _ _ _ ih =>
      intro hl
      obtain ⟨bs, hrest⟩ := ih fun l hm => hl l (List.mem_cons_of_mem _ hm)
      have hopen := hl l List.mem_cons_self
      have hfront : Sealed [] l := .plain (unopened_of_not_mem hopen)
      exact ⟨bs, hfront.append hrest (apart_of_not_mem_left hopen)⟩
  obtain ⟨bs, hsealed⟩ := hgo (wellCut_tokenize t) h
  rw [source_tokenize] at hsealed
  exact ⟨bs, hsealed⟩

end Literals

/-! ## 3. Conditions on fields -/

/-- Report a field that an object lacks. -/
def reportMissing (o : GameObject) (captures : List Text) : RenderProgram Unit :=
  match o.field? (firstCapture captures) with
  | some _ => pure ()
  | none => record .missingReference (DiagnosticLog.missingDetail o.name (String.ofList (firstCapture captures)))

/-- The text that conditions leave. -/
def conditioned (o : GameObject) (space : String) (cs : List FieldCondition) (t : Text) : Text :=
  cs.foldl (fun t c => keepBlocks (c.family space) t (c.holds o)) t

/-- The comparisons that are evaluated in a text, by what their markers capture. -/
def comparisonsIn (o : GameObject) (space : String) (t : Text) : List (List Text) :=
  [FieldCondition.notEquals, .equals].flatMap fun c =>
    askedConditions (c.family space) (c.holds o) (conditioned o space c.sooner t)

section Conditions

variable {o : GameObject} {space : String} {bs : List Text} {t : Text}

theorem compareField_eq (o : GameObject) (expected : Bool) (captures : List Text) :
    compareField o expected captures = (do
      reportMissing o captures
      pure ((o.field? (firstCapture captures)).any fun f =>
        sameValue f.value.toList (secondCapture captures) == expected)) := by
  unfold compareField reportMissing
  cases o.field? (firstCapture captures) with
  | some f => rfl
  | none => rfl

/-- A comparison reports and then holds or not. -/
theorem decision_eq (o : GameObject) {c : FieldCondition} (hc : c = .notEquals ∨ c = .equals) :
    c.decision o = fun captures => (do reportMissing o captures; pure (c.holds o captures)) := by
  funext captures
  rcases hc with rfl | rfl
  · refine (compareField_eq o false captures).trans ?_
    simp only [beq_false]
    rfl
  · refine (compareField_eq o true captures).trans ?_
    simp only [beq_true]
    rfl

theorem exists_sealed_conditioned (o : GameObject) (space : String) (cs : List FieldCondition) (h : Sealed bs t) :
    ∃ left, Sealed left (conditioned o space cs t) := by
  induction cs generalizing bs t with
  | nil => exact ⟨bs, h⟩
  | cons c cs ih =>
    obtain ⟨left, -, hleft, -⟩ := keepBlocks_sealed (c.family space) (c.holds o) h h
    exact ih hleft

theorem settle_comparison (h : Sealed bs t) (o : GameObject) (space : String) {c : FieldCondition}
    (hc : c = .notEquals ∨ c = .equals) :
    c.settle o space t = (do
      (askedConditions (c.family space) (c.holds o) t).forM (reportMissing o)
      pure (keepBlocks (c.family space) t (c.holds o))) := by
  unfold FieldCondition.settle
  rw [decision_eq o hc]
  refine keepBlocksM_reporting (reportMissing o) fun l e hl he => h.finished hl ?_
  cases e with
  | literal => cases he
  | placeholder => rfl

/-- **The conditions of an object** report the comparisons with fields it lacks and leave a text. -/
theorem settleAll_eq (h : Sealed bs t) (o : GameObject) (space : String) :
    FieldCondition.all.foldlM (FieldCondition.settle o space) t = (do
      (comparisonsIn o space t).forM (reportMissing o)
      pure (conditioned o space FieldCondition.all t)) := by
  have hhas : ∀ t, FieldCondition.settle o space t .has = pure (keepBlocks _ t (FieldCondition.has.holds o)) :=
    fun t => keepBlocksM_pure _ t _
  have hhasNot : ∀ t, FieldCondition.settle o space t .hasNot =
      pure (keepBlocks _ t (FieldCondition.hasNot.holds o)) := fun t => keepBlocksM_pure _ t _
  obtain ⟨left, hleft⟩ := exists_sealed_conditioned o space [.has, .hasNot] h
  obtain ⟨left', hleft'⟩ := exists_sealed_conditioned o space [.has, .hasNot, .notEquals] h
  have hnotEquals := settle_comparison hleft o space (.inl rfl)
  have hequals := settle_comparison hleft' o space (.inr rfl)
  have hreports : (comparisonsIn o space t).forM (reportMissing o) = (do
      (askedConditions (FieldCondition.notEquals.family space) (FieldCondition.notEquals.holds o)
        (conditioned o space [.has, .hasNot] t)).forM (reportMissing o)
      (askedConditions (FieldCondition.equals.family space) (FieldCondition.equals.holds o)
        (conditioned o space [.has, .hasNot, .notEquals] t)).forM (reportMissing o)) := by
    refine Eq.trans ?_ List.forM_append
    unfold comparisonsIn
    rw [List.flatMap_cons, List.flatMap_singleton]
    rfl
  unfold FieldCondition.all
  simp only [List.foldlM_cons, List.foldlM_nil, hhas, hhasNot, pure_bind]
  unfold conditioned at hnotEquals hequals hreports ⊢
  simp only [List.foldl_cons, List.foldl_nil] at hnotEquals hequals hreports ⊢
  rw [hnotEquals, hreports]
  simp only [bind_assoc, pure_bind, hequals]

end Conditions

/-! ## 4. What programs give -/

/-- No text of an object has an opening brace, as it is written. -/
structure UnbracedObject (s : EscapeSettings) (o : GameObject) : Prop where
  id : '{' ∉ o.id.toList
  name : '{' ∉ o.name.toList
  escaped : '{' ∉ s.escape o.name.toList
  values : ∀ f ∈ o.fields, '{' ∉ f.written s

/-- Values are escaped in this way, and no key has an opening brace. Listings are as they are. -/
def UnbracedAnswer (s : EscapeSettings) : (r : RenderOp) → r.Answer → Prop
  | .settings, given => given = s
  | .languageKey _, key => '{' ∉ key.toList
  | _, _ => True

namespace RenderProgram

variable {s : EscapeSettings} {α β : Type}

/-- **A program gives such a result**, if values are escaped in this way and no key has an opening brace. -/
def Gives (s : EscapeSettings) : {α : Type} → RenderProgram α → (α → Prop) → Prop
  | _, .done a, Q => Q a
  | _, .ask r go, Q => ∀ x, UnbracedAnswer s r x → (go x).Gives s Q
  | _, .fail _, _ | _, .under _ _ _, _ => False

theorem gives_pure {a : α} {Q : α → Prop} (h : Q a) : (pure a : RenderProgram α).Gives s Q := h

theorem Gives.bind {p : RenderProgram α} {P : α → Prop} (hp : p.Gives s P) {f : α → RenderProgram β}
    {Q : β → Prop} (hf : ∀ a, P a → (f a).Gives s Q) : (p >>= f).Gives s Q := by
  show (p.bind f).Gives s Q
  induction p with
  | done a => exact hf a hp
  | fail e => exact hp.elim
  | ask r go ih => exact fun x hx => ih x (hp x hx) hf
  | under label inner go _ _ => exact hp.elim

theorem gives_mapM {f : α → RenderProgram β} {P : β → Prop} {l : List α} (hf : ∀ a ∈ l, (f a).Gives s P) :
    (l.mapM f).Gives s fun bs => (∀ b ∈ bs, P b) ∧ bs.length = l.length := by
  induction l with
  | nil => exact gives_pure ⟨fun _ hb => absurd hb List.not_mem_nil, rfl⟩
  | cons a l ih =>
    rw [List.mapM_cons]
    refine (hf a List.mem_cons_self).bind fun b hb => ?_
    refine (ih fun a ha => hf a (List.mem_cons_of_mem _ ha)).bind fun bs hbs => gives_pure ?_
    exact ⟨List.forall_mem_cons.2 ⟨hb, hbs.1⟩, congrArg (· + 1) hbs.2⟩

theorem gives_escaped (value : Text) : (escaped value).Gives s (· = s.escape value) := by
  intro given hgiven
  rw [show given = s from hgiven]
  rfl

theorem gives_languageKey (r : KeyRequest) : (languageKey r).Gives s ('{' ∉ ·) := fun _ hkey => hkey

end RenderProgram

/-- **Programs that go on alike** from what another gives go on alike behind it. -/
theorem Oracle.run_bind_congr {s : EscapeSettings} {α β : Type} {a : Oracle}
    (ha : ∀ asked r, UnbracedAnswer s r (a asked r)) {p : RenderProgram α} {Q : α → Prop} (hp : p.Gives s Q)
    {f g : α → RenderProgram β} (h : ∀ x, Q x → Engine.run a.answer (f x) = Engine.run a.answer (g x)) :
    Engine.run a.answer (p >>= f) = Engine.run a.answer (p >>= g) := by
  show Engine.run a.answer (p.bind f) = Engine.run a.answer (p.bind g)
  induction p with
  | done b => exact h b hp
  | fail e => exact hp.elim
  | ask r go ih =>
    funext t
    rw [RenderProgram.bind, RenderProgram.bind, Engine.run, Engine.run, SessionM.bind_apply, SessionM.bind_apply]
    exact congrFun (ih _ (hp _ (ha t.world r)) h) _
  | under label inner go _ _ => exact hp.elim

/-! ## 5. Each placeholder by itself -/

/-- What the scalars for keys of values name. -/
def keyedIn (space : String) (t : Text) : List (List Text) := scalarsIn (FieldPlaceholder.valueKey space) t

/-- What the scalars for values name, those for keys aside. -/
def namedIn (space : String) (t : Text) : List (List Text) :=
  (tokenize t).filterMap fun k =>
    if (scalarCaptures (FieldPlaceholder.valueKey space) k).isSome then none
    else scalarCaptures (FieldPlaceholder.value space) k

/-- **Resolve the placeholders that the conditions of an object leave, each by itself.** Comparisons report what
    the object lacks; then every scalar gives way to what it names, or to a marker that is reported. Which scalars
    there are, and what they name, is read off the text that the conditions leave. -/
def resolveEach (o : GameObject) (type : ObjectType) (space : String) (t : Text) : RenderProgram Text := do
  (comparisonsIn o space t).forM (reportMissing o)
  let left := conditioned o space FieldCondition.all t
  let named ← fillIdentity o type space left
  let keys ← (keyedIn space left).mapM (giveField o fun f => .languageKey (fieldKey o type f))
  let values ← (namedIn space left).mapM (giveField o fieldValue)
  fillListings o type space (reachedFields o (keyedIn space left ++ namedIn space left))
    (placeValues (FieldPlaceholder.value space) .fitted values
      (placeValues (FieldPlaceholder.valueKey space) .inline keys named))

section Each

variable {s : EscapeSettings} {o : GameObject} {space : String} {bs : List Text} {t : Text}

/-- What is read off the placeholders that do not match is read off all of them. -/
theorem filterMap_unmatched {β : Type} {p : Pattern} {g : Text → Option β}
    (hg : ∀ b, (scalarCaptures p (.placeholder b)).isSome = true → g b = none) (bs : List Text) :
    (unmatched p bs).filterMap g = bs.filterMap g := by
  unfold unmatched
  rw [List.filterMap_filter]
  refine List.filterMap_congr fun b _ => ?_
  cases hb : scalarCaptures p (.placeholder b) with
  | none => rfl
  | some cs => exact (hg b (by rw [hb]; rfl)).symm

/-- What tells names of values reads nothing off other names. -/
def ReadsValues (space : String) {β : Type} (g : Text → Option β) : Prop :=
  ∀ b, ¬ (space ++ "_Value_").toList <+: Text.trim b → g b = none

theorem value_isPrefix {ps : List NamePart} {cs : List Text} {k : Token}
    (h : scalarCaptures (.within space.toList (.fixed "Value_".toList :: ps)) k = some cs) :
    (space ++ "_Value_").toList <+: k.name := by
  unfold scalarCaptures at h
  split at h
  · have hmatch : (Pattern.within space.toList (.fixed "Value_".toList :: ps)).isMatch k.name = true := by
      unfold Pattern.isMatch
      rw [h]
      rfl
    obtain ⟨r, hr, hspelled⟩ := spelled_fixed.1 (isMatch_parts_iff.1 hmatch)
    obtain ⟨r', rfl, -⟩ := spelled_fixed.1 hspelled
    refine ⟨r', ?_⟩
    rw [hr, String.toList_append, List.append_assoc, List.append_assoc]
    rfl
  · cases h

theorem readsValues_keyed : ReadsValues space fun b =>
    scalarCaptures (FieldPlaceholder.valueKey space) (.placeholder b) := by
  intro b hb
  refine Option.eq_none_iff_forall_ne_some.2 fun cs hcs => ?_
  exact hb (value_isPrefix hcs)

theorem readsValues_named : ReadsValues space fun b =>
    if (scalarCaptures (FieldPlaceholder.valueKey space) (.placeholder b)).isSome then none
    else scalarCaptures (FieldPlaceholder.value space) (.placeholder b) := by
  intro b hb
  have hvalue : scalarCaptures (FieldPlaceholder.value space) (.placeholder b) = none :=
    Option.eq_none_iff_forall_ne_some.2 fun cs hcs => hb (value_isPrefix hcs)
  dsimp only
  rw [hvalue, ite_self]

/-- A sealed text with the same values in it. -/
def SameValues (space : String) (bs : List Text) (t : Text) : Prop :=
  ∃ bs', Sealed bs' t ∧
    ∀ g : Text → Option (List Text), ReadsValues space g → bs'.filterMap g = bs.filterMap g

theorem SameValues.placeValues (h : SameValues space bs t) (name : String) (hname : ¬ "_Value_".toList <+: name.toList)
    (placement : Placement) {vs : List Text} (hvs : ∀ v ∈ vs, '{' ∉ v)
    (hlength : vs.length = (scalarsIn (.literal (space ++ name).toList) t).length) :
    SameValues space bs (RecordExport.placeValues (.literal (space ++ name).toList) placement vs t) := by
  obtain ⟨bs', hsealed, hsame⟩ := h
  refine ⟨_, hsealed.placeValues placement (fun v hv => .of_not_mem (hvs v hv)) hlength, fun g hg => ?_⟩
  rw [filterMap_unmatched (fun b hb => hg b fun hbegins => hname ?_), hsame g hg]
  obtain ⟨cs, hcs⟩ := Option.isSome_iff_exists.1 hb
  unfold scalarCaptures at hcs
  split at hcs
  · have heq : Text.trim b = (space ++ name).toList :=
      isMatch_literal_iff.1 (Option.isSome_iff_exists.2 ⟨cs, hcs⟩)
    rw [heq, String.toList_append, String.toList_append] at hbegins
    exact (List.prefix_append_right_inj _).1 hbegins
  · cases hcs

theorem SameValues.fill (h : SameValues space bs t) (name : String) (hname : ¬ "_Value_".toList <+: name.toList)
    (placement : Placement) {v : Text} (hv : '{' ∉ v) :
    SameValues space bs (RecordExport.fill (space ++ name) placement v t) := by
  unfold RecordExport.fill
  rw [replaceScalars_eq]
  refine h.placeValues name hname placement (fun v' hv' => ?_) (List.length_map _)
  obtain ⟨_, -, rfl⟩ := List.mem_map.1 hv'
  exact hv

theorem gives_fillIdentity (ho : UnbracedObject s o) (type : ObjectType) (h : SameValues space bs t) :
    (fillIdentity o type space t).Gives s (SameValues space bs) := by
  refine (gives_escaped _).bind fun name hname => ?_
  have hwritten : '{' ∉ name := by
    rw [hname]
    exact ho.escaped
  have hfilled := (h.fill "_Id" (by decide) .inline ho.id).fill "_Name" (by decide) .inline hwritten
  unfold fillKey
  rw [replaceScalarsM_eq]
  refine (gives_mapM fun _ _ => gives_languageKey _).bind fun keys hkeys => gives_pure ?_
  exact hfilled.placeValues "_Name_LangKey" (by decide) .inline hkeys.1 hkeys.2

theorem brace_not_mem_missingMarker {subject : String} (h : '{' ∉ subject.toList) {field : Text}
    (hf : '{' ∉ field) :
    '{' ∉ (missingMarker subject (String.ofList field)).toList := by
  simp [missingMarker, h, hf]

theorem gives_keys (ho : UnbracedObject s o) (type : ObjectType) (space : String) (t : Text) :
    ((keyedIn space t).mapM (giveField o fun f => .languageKey (fieldKey o type f))).Gives s
      fun keys => (∀ key ∈ keys, '{' ∉ key) ∧ keys.length = (keyedIn space t).length := by
  refine gives_mapM fun cs hcs => ?_
  have hbrace := not_mem_firstCapture (not_mem_of_mem_scalarsIn hcs)
  unfold giveField
  cases o.field? (firstCapture cs) with
  | some f => exact gives_languageKey _
  | none =>
    show (missing o.name (firstCapture cs)).Gives s _
    exact fun _ _ => brace_not_mem_missingMarker ho.name hbrace

/-- **The program of an object goes by the placeholders that its conditions leave, each of them once.** -/
theorem Oracle.run_resolveObject {a : Oracle} (ha : ∀ asked r, UnbracedAnswer s r (a asked r))
    (ho : UnbracedObject s o) (type : ObjectType) (space : String) (h : Sealed bs t) :
    Engine.run a.answer (resolveObject o type space t) = Engine.run a.answer (resolveEach o type space t) := by
  obtain ⟨left, hleft⟩ := exists_sealed_conditioned o space FieldCondition.all h
  rw [resolveObject_eq, settleAll_eq h]
  unfold resolveEach
  simp only [bind_assoc, pure_bind]
  refine (Engine.run_bind _ _).trans (Eq.trans ?_ (Engine.run_bind _ _).symm)
  refine congrArg (Engine.run a.answer _ >>= ·) (funext fun _ => ?_)
  refine run_bind_congr ha (gives_fillIdentity ho type ⟨left, hleft, fun _ _ => rfl⟩) fun u hu => ?_
  obtain ⟨bs', hsealed, hsame⟩ := hu
  have hkeyed : scalarsIn (FieldPlaceholder.valueKey space) u =
      keyedIn space (conditioned o space FieldCondition.all t) := by
    unfold keyedIn
    rw [scalarsIn_sealed _ hsealed, scalarsIn_sealed _ hleft]
    exact hsame _ readsValues_keyed
  rw [hkeyed]
  refine run_bind_congr ha (gives_keys ho type space _) fun keys hkeys => ?_
  have hplaced : Sealed (unmatched (FieldPlaceholder.valueKey space) bs')
      (placeValues (FieldPlaceholder.valueKey space) .inline keys u) :=
    hsealed.placeValues .inline (fun v hv => .of_not_mem (hkeys.1 v hv)) (by rw [hkeyed]; exact hkeys.2)
  have hnamed : scalarsIn (FieldPlaceholder.value space)
      (placeValues (FieldPlaceholder.valueKey space) .inline keys u) =
      namedIn space (conditioned o space FieldCondition.all t) := by
    have hread : (unmatched (FieldPlaceholder.valueKey space) bs').filterMap
        (fun b => scalarCaptures (FieldPlaceholder.value space) (.placeholder b)) = bs'.filterMap fun b =>
          if (scalarCaptures (FieldPlaceholder.valueKey space) (.placeholder b)).isSome then none
          else scalarCaptures (FieldPlaceholder.value space) (.placeholder b) := by
      unfold unmatched
      rw [List.filterMap_filter]
      refine List.filterMap_congr fun b _ => ?_
      cases scalarCaptures (FieldPlaceholder.valueKey space) (.placeholder b) <;> rfl
    unfold namedIn
    rw [scalarsIn_sealed _ hplaced, hread, hsame _ readsValues_named, hleft.filterMap fun _ => rfl]
  rw [hnamed]

end Each

/-! ## 6. What is reported -/

/-- A problem is reported. -/
def RenderOp.isReport : RenderOp → Bool
  | .record _ _ => true
  | _ => false

namespace RenderProgram

variable {α β : Type}

/-- **A program reports these problems**, one after the other, whatever it is answered, and does not fail. -/
inductive Reports : {α : Type} → RenderProgram α → List RenderOp → Prop
  | done {α : Type} (a : α) : Reports (.done a) []
  | report {α : Type} {kind : DiagnosticKind} {detail : String} {go : Unit → RenderProgram α} {rs : List RenderOp}
      (h : ∀ x, Reports (go x) rs) : Reports (.ask (.record kind detail) go) (.record kind detail :: rs)
  | other {α : Type} {r : RenderOp} {go : r.Answer → RenderProgram α} {rs : List RenderOp} (hr : r.isReport = false)
      (h : ∀ x, Reports (go x) rs) : Reports (.ask r go) rs

variable {rs rs' : List RenderOp}

theorem Reports.bind {p : RenderProgram α} (hp : p.Reports rs) {f : α → RenderProgram β}
    (hf : ∀ a, (f a).Reports rs') : (p >>= f).Reports (rs ++ rs') := by
  show (p.bind f).Reports (rs ++ rs')
  induction hp with
  | done a => exact hf a
  | report _ ih => exact .report fun x => ih x
  | other hr _ ih => exact .other hr fun x => ih x

theorem reports_pure (a : α) : (pure a : RenderProgram α).Reports [] := .done a

/-- What comes before reports nothing. -/
theorem Reports.then {p : RenderProgram α} (hp : p.Reports []) {f : α → RenderProgram β}
    (hf : ∀ a, (f a).Reports rs) : (p >>= f).Reports rs := hp.bind hf

theorem reports_escaped (value : Text) : (escaped value).Reports [] := .other rfl fun _ => .done _

theorem reports_languageKey (r : KeyRequest) : (languageKey r).Reports [] := .other rfl fun _ => .done _

theorem reports_mapM {f : α → RenderProgram β} {reported : α → List RenderOp} {l : List α}
    (h : ∀ a ∈ l, (f a).Reports (reported a)) : (l.mapM f).Reports (l.flatMap reported) := by
  induction l with
  | nil => exact reports_pure _
  | cons a l ih =>
    rw [List.mapM_cons, List.flatMap_cons, ← List.append_nil (l.flatMap reported)]
    exact (h a List.mem_cons_self).bind fun b =>
      (ih fun a ha => h a (List.mem_cons_of_mem _ ha)).bind fun bs => reports_pure _

theorem reports_forM {f : α → RenderProgram Unit} {reported : α → List RenderOp} {l : List α}
    (h : ∀ a ∈ l, (f a).Reports (reported a)) : (l.forM f).Reports (l.flatMap reported) := by
  induction l with
  | nil => exact reports_pure _
  | cons a l ih =>
    rw [List.flatMap_cons]
    exact (h a List.mem_cons_self).bind fun _ => ih fun a ha => h a (List.mem_cons_of_mem _ ha)

end RenderProgram

/-- **A program that does not fail ends**, and has reported what it reports. -/
theorem Oracle.run_of_reports {α : Type} {p : RenderProgram α} {rs : List RenderOp} (h : p.Reports rs) (a : Oracle) :
    (∃ x, (a.run p).1 = .ok x) ∧ (a.run p).2.filter (·.isReport) = rs := by
  have hgo : ∀ s : Session (List RenderOp), (∃ x, (Engine.run a.answer p s).1 = .ok x) ∧
      (Engine.run a.answer p s).2.world.filter (·.isReport) = s.world.filter (·.isReport) ++ rs := by
    induction h with
    | done b => exact fun s => ⟨⟨b, rfl⟩, (List.append_nil _).symm⟩
    | @report kind detail go rs _ ih =>
      intro s
      rw [Engine.run, SessionM.bind_apply]
      obtain ⟨hok, hlog⟩ := ih () { s with world := s.world ++ [.record kind detail] }
      refine ⟨hok, hlog.trans ?_⟩
      rw [List.filter_append, List.append_assoc]
      rfl
    | @other r go rs hr _ ih =>
      intro s
      rw [Engine.run, SessionM.bind_apply]
      obtain ⟨hok, hlog⟩ := ih (a s.world r) { s with world := s.world ++ [r] }
      refine ⟨hok, hlog.trans ?_⟩
      rw [List.filter_append, List.filter_cons_of_neg (by rw [hr]; exact Bool.false_ne_true), List.filter_nil,
        List.append_nil]
  exact hgo (Session.start [] false)

section Marks

variable {s : EscapeSettings} {o : GameObject} {space : String} {t : Text}

/-- The report of a name that leads to no field. -/
def missingReports (o : GameObject) (captures : List Text) : List RenderOp :=
  if (o.field? (firstCapture captures)).isSome then []
  else [.record .missingReference (DiagnosticLog.missingDetail o.name (String.ofList (firstCapture captures)))]

theorem reports_giveField {give : Field → RenderProgram Text} (hgive : ∀ f, (give f).Reports [])
    (captures : List Text) : (giveField o give captures).Reports (missingReports o captures) := by
  unfold giveField missingReports
  cases o.field? (firstCapture captures) with
  | some f => exact hgive f
  | none => exact .report fun _ => .done _

theorem reports_reportMissing (captures : List Text) :
    (reportMissing o captures).Reports (missingReports o captures) := by
  unfold reportMissing missingReports
  cases o.field? (firstCapture captures) with
  | some f => exact reports_pure _
  | none => exact .report fun _ => .done _

/-- A loop of turns that report nothing reports nothing. -/
theorem reports_mapM_none {α β : Type} {f : α → RenderProgram β} {l : List α} (h : ∀ a, (f a).Reports []) :
    (l.mapM f).Reports [] := by
  have hloop : (l.mapM f).Reports (l.flatMap fun _ => []) := reports_mapM fun a _ => h a
  rwa [List.flatMap_eq_nil_iff.2 fun _ _ => rfl] at hloop

theorem reports_fillIdentity (o : GameObject) (type : ObjectType) (space : String) (t : Text) :
    (fillIdentity o type space t).Reports [] := by
  refine (reports_escaped _).then fun name => ?_
  unfold fillKey
  rw [replaceScalarsM_eq]
  exact (reports_mapM_none fun _ => reports_languageKey _).then fun _ => reports_pure _

theorem reports_fieldValue (f : Field) : (fieldValue f).Reports [] := by
  unfold fieldValue
  split
  · exact reports_pure _
  · exact reports_escaped _

theorem reports_fillListings (o : GameObject) (type : ObjectType) (space : String) (used : List String) (t : Text) :
    (fillListings o type space used t).Reports [] := by
  have hlisting : ∀ name fs t, (fillAll name (listing name o type fs) t).Reports [] := by
    intro name fs t
    unfold fillAll
    split
    · exact reports_pure _
    · exact (RenderProgram.Reports.other rfl fun _ => .done _ : (listing name o type fs).Reports []).then
        fun _ => reports_pure _
  exact (hlisting _ _ _).then fun _ => hlisting _ _ _

/-- **What the placeholders that the conditions leave report**: one problem for each comparison that is evaluated,
    each key and each value that names no field, in this order. -/
theorem reports_resolveEach (o : GameObject) (type : ObjectType) (space : String) (t : Text) :
    (resolveEach o type space t).Reports
      ((comparisonsIn o space t ++ keyedIn space (conditioned o space FieldCondition.all t) ++
        namedIn space (conditioned o space FieldCondition.all t)).flatMap (missingReports o)) := by
  rw [List.flatMap_append, List.flatMap_append, List.append_assoc]
  refine (reports_forM fun cs _ => reports_reportMissing cs).bind fun _ => ?_
  refine (reports_fillIdentity o type space _).then fun u => ?_
  refine (reports_mapM fun cs _ => reports_giveField (fun _ => reports_languageKey _) cs).bind fun keys => ?_
  rw [← List.append_nil (List.flatMap _ (namedIn _ _))]
  refine (reports_mapM fun cs _ => reports_giveField reports_fieldValue cs).bind fun values => ?_
  exact reports_fillListings o type space _ _

/-- **What becomes of missing fields** in a run of an object's program. -/
structure MarksMissing (a : Oracle) (o : GameObject) (type : ObjectType) (space : String) (t : Text) : Prop where
  /-- it goes by the placeholders that its conditions leave: each of them once, by what it names itself -/
  each : a.run (resolveObject o type space t) = a.run (resolveEach o type space t)
  /-- it does not fail -/
  resolved : ∃ u, (a.run (resolveObject o type space t)).1 = .ok u
  /-- it reports one problem for each comparison that it evaluates, each key and each value that names no field, and
      no other -/
  reports : (a.run (resolveObject o type space t)).2.filter (·.isReport) =
    ((comparisonsIn o space t ++ keyedIn space (conditioned o space FieldCondition.all t) ++
      namedIn space (conditioned o space FieldCondition.all t)).filter
        fun captures => (o.field? (firstCapture captures)).isNone).map fun captures =>
      .record .missingReference (DiagnosticLog.missingDetail o.name (String.ofList (firstCapture captures)))
  /-- a comparison with a field that the object lacks drops its block -/
  dropped : ∀ captures, o.field? (firstCapture captures) = none →
    FieldCondition.notEquals.holds o captures = false ∧ FieldCondition.equals.holds o captures = false
  /-- a name that leads to no field uses none -/
  unused : ∀ names captures names', o.field? (firstCapture captures) = none →
    reachedFields o (names ++ captures :: names') = reachedFields o (names ++ names')

/-- **Each missing field is marked and reported once**, where no text that is put in has an opening brace and no
    literal of the text has one. -/
theorem marksMissing_resolveObject {a : Oracle} (ha : ∀ asked r, UnbracedAnswer s r (a asked r))
    (ho : UnbracedObject s o) (type : ObjectType) (space : String)
    (ht : ∀ l, .literal l ∈ tokenize t → '{' ∉ l) : MarksMissing a o type space t := by
  obtain ⟨bs, hsealed⟩ := exists_sealed ht
  have heach : a.run (resolveObject o type space t) = a.run (resolveEach o type space t) := by
    unfold Oracle.run
    rw [Oracle.run_resolveObject ha ho type space hsealed]
  obtain ⟨hok, hreports⟩ := Oracle.run_of_reports (reports_resolveEach o type space t) a
  have hfilter : ∀ l : List (List Text), l.flatMap (missingReports o) =
      (l.filter fun captures => (o.field? (firstCapture captures)).isNone).map fun captures =>
        RenderOp.record .missingReference
          (DiagnosticLog.missingDetail o.name (String.ofList (firstCapture captures))) := by
    intro l
    induction l with
    | nil => rfl
    | cons captures l ih =>
      rw [List.flatMap_cons, ih, List.filter_cons]
      unfold missingReports
      cases o.field? (firstCapture captures) <;> rfl
  refine ⟨heach, ?_, ?_, fun captures hnone => ?_, fun names captures names' hnone => ?_⟩
  · rw [heach]
    exact hok
  · rw [heach, hreports, hfilter]
  · have hany : ∀ holds : Field → Bool, (o.field? (firstCapture captures)).any holds = false := by
      intro holds
      rw [hnone]
      rfl
    exact ⟨hany _, hany _⟩
  · unfold reachedFields
    rw [List.filterMap_append, List.filterMap_cons_none (by rw [hnone]; rfl), List.filterMap_append]

end Marks

/-- A text with a comparison, a value and two names that a sword lacks. -/
def haunted : Text :=
  braced "Item_Value_Ghost_Equals_1_Start".toList ++ "a".toList ++ braced "Item_Value_Equals_End".toList ++
    braced "Item_Value_Damage".toList ++ " ".toList ++ braced "Item_Value_Spirit_LangKey".toList ++
    braced "Item_Value_Spirit".toList

theorem tokenize_haunted :
    tokenize haunted = [.placeholder "Item_Value_Ghost_Equals_1_Start".toList, .literal "a".toList,
      .placeholder "Item_Value_Equals_End".toList, .placeholder "Item_Value_Damage".toList, .literal " ".toList,
      .placeholder "Item_Value_Spirit_LangKey".toList, .placeholder "Item_Value_Spirit".toList] := by
  decide +kernel

theorem marksMissing_haunted :
    MarksMissing tersely (blade "sword" "Sword" "12") .item "Item" haunted ∧
      tersely.run (resolveObject (blade "sword" "Sword" "12") .item "Item" haunted) =
        (.ok "12 <<Sword[Spirit] MISSING>><<Sword[Spirit] MISSING>>".toList,
          [.record .missingReference "Sword has no field 'Ghost'", .settings,
            .record .missingReference "Sword has no field 'Spirit'", .settings,
            .record .missingReference "Sword has no field 'Spirit'"]) := by
  have hanswer : ∀ asked r, UnbracedAnswer .standard r (tersely asked r) := by
    intro asked r
    cases r with
    | settings => rfl
    | languageKey => exact (by decide : '{' ∉ "Key".toList)
    | _ => trivial
  have hobject : UnbracedObject .standard (blade "sword" "Sword" "12") := by
    refine ⟨by decide, by decide, by decide, fun f hf => ?_⟩
    obtain rfl := List.mem_singleton.1 hf
    decide
  have hliterals : ∀ l, .literal l ∈ tokenize haunted → '{' ∉ l := by
    intro l hl
    rw [tokenize_haunted] at hl
    simp only [List.mem_cons, Token.literal.injEq, reduceCtorEq, List.not_mem_nil, or_false, false_or] at hl
    rcases hl with rfl | rfl <;> decide
  exact ⟨marksMissing_resolveObject hanswer hobject .item "Item" hliterals, by decide +kernel⟩

/-- A marker stands where a value would stand, so like a value of several lines it takes on the indentation of its
    place. -/
theorem missing_marker_indented :
    UnbracedObject .standard (blade "sword" "Long\nsword" "12") ∧
      (tersely.run (resolveObject (blade "sword" "Long\nsword" "12") .item "Item"
        ("  ".toList ++ braced "Item_Value_Ghost".toList))).1 =
          .ok "  <<Long\n  sword[Ghost] MISSING>>".toList ∧
      (missingMarker "Long\nsword" "Ghost").toList = "<<Long\nsword[Ghost] MISSING>>".toList := by
  refine ⟨⟨by decide, by decide, by decide, fun f hf => ?_⟩, by decide +kernel, by decide⟩
  obtain rfl := List.mem_singleton.1 hf
  decide

end RecordExport

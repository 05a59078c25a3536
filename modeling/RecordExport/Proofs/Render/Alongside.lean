import RecordExport.Proofs.Lookups.Blanking
import RecordExport.Proofs.Render.Coupling
/-!
# Programs that end in the same session

Two programs go ALONGSIDE each other if, from the same session, they end in the same one: whatever the one
called, reported or kept, the other did too. Only their results may differ, in a way that is left open.

* `pairedBy_alongside`, `pairedBy_stateAlongside`: so it is with walks and loops, with and without a state of
  their own;
* `Engine.alongside_attempt`: and so with a resolver's attempt at two texts;
* `SessionM.Lasts`: a step that fails by cancellation alone, `Engine.lasts_run`: a program does that fails by
  no error of its own.
-/

namespace RecordExport

variable {ω α β γ δ σ : Type} {R : α → β → Prop} {S : γ → δ → Prop}

/-! ## 1. Steps -/

namespace SessionM

/-- **Two steps that end in the same session**, with related results or with the same failure. -/
def Alongside (R : α → β → Prop) (x : SessionM ω α) (y : SessionM ω β) : Prop :=
  SideBySide (fun _ => True) Eq R x y

theorem alongside_self (x : SessionM ω α) : Alongside Eq x x := by
  rintro s _ rfl
  refine ⟨?_, rfl⟩
  cases (x s).1 with
  | ok a => exact .ok rfl
  | error e => exact .error trivial

theorem pairedBy_alongside : PairedBy (m := SessionM ω) fun _ _ R x y => Alongside R x y where
  result h := by
    rintro s _ rfl
    exact ⟨.ok h, rfl⟩
  sequence hx hf := SideBySide.bind hx hf

theorem EndSideBySide.mono {F : RenderError → Prop} {x : Except RenderError α} {y : Except RenderError β}
    (h : EndSideBySide F R x y) {R' : α → β → Prop} (hR : ∀ a b, R a b → R' a b) :
    EndSideBySide F R' x y := by
  cases h with
  | ok result => exact .ok (hR _ _ result)
  | error fails => exact .error fails

theorem Alongside.mono {x : SessionM ω α} {y : SessionM ω β} (h : Alongside R x y) {R' : α → β → Prop}
    (hR : ∀ a b, R a b → R' a b) : Alongside R' x y :=
  fun s s' hs => ⟨(h s s' hs).1.mono hR, (h s s' hs).2⟩

theorem EndSideBySide.eq {F : RenderError → Prop} {x y : Except RenderError α}
    (h : EndSideBySide F Eq x y) : x = y := by
  cases h with
  | ok result => rw [result]
  | error fails => rfl

/-- Where the results are the same nothing tells the steps apart. -/
theorem Alongside.eq {x y : SessionM ω α} (h : Alongside Eq x y) : x = y :=
  funext fun s => Prod.ext (h s s rfl).1.eq (h s s rfl).2

theorem Alongside.within {x : SessionM ω α} {y : SessionM ω β} (h : Alongside R x y) (label : String) :
    Alongside R (within label x) (within label y) := by
  rintro s _ rfl
  obtain ⟨hend, hlast⟩ := h { s with log := (s.log.enter label).2 } _ rfl
  exact ⟨hend, congrArg (fun s' : Session ω => { s' with log := s'.log.leave (s.log.enter label).1 }) hlast⟩

theorem within_congr {x y : SessionM ω α} {label : String} {s : Session ω}
    (h : x { s with log := (s.log.enter label).2 } = y { s with log := (s.log.enter label).2 }) :
    within label x s = within label y s := by
  show (let r := x { s with log := (s.log.enter label).2 }
    (r.1, { r.2 with log := r.2.log.leave (s.log.enter label).1 })) = _
  rw [h]
  rfl

end SessionM

/-! ## 2. Programs -/

variable {answer : (o : RenderOp) → SessionM ω o.Answer}

theorem Engine.run_bind (p : RenderProgram α) (f : α → RenderProgram β) :
    run answer (p >>= f) = run answer p >>= fun a => run answer (f a) := by
  show run answer (p.bind f) = _
  induction p with
  | done a => exact (pure_bind a fun a => run answer (f a)).symm
  | fail e => rfl
  | ask o go ih =>
    rw [RenderProgram.bind, run, run, bind_assoc]
    exact congrArg (answer o >>= ·) (funext fun x => ih x f)
  | under label inner go _ ih =>
    rw [RenderProgram.bind, run, run, bind_assoc]
    exact congrArg (SessionM.within label (run answer inner) >>= ·) (funext fun t => ih t f)

theorem Engine.run_within (label : String) (p : RenderProgram Text) :
    run answer (.within label p) = SessionM.within label (run answer p) :=
  bind_pure (SessionM.within label (run answer p))

namespace RenderProgram

/-- **Two programs that go alongside each other** in a render. -/
def Alongside (answer : (o : RenderOp) → SessionM ω o.Answer) (R : α → β → Prop) (p : RenderProgram α)
    (q : RenderProgram β) : Prop :=
  SessionM.Alongside R (Engine.run answer p) (Engine.run answer q)

theorem alongside_self (p : RenderProgram α) : Alongside answer Eq p p := SessionM.alongside_self _

theorem pairedBy_alongside : PairedBy fun _ _ R p q => Alongside answer R p q where
  result := SessionM.pairedBy_alongside.result
  sequence hp hf := by
    unfold Alongside
    rw [Engine.run_bind, Engine.run_bind]
    exact SessionM.pairedBy_alongside.sequence hp hf

theorem alongside_pure {a : α} {b : β} (h : R a b) :
    Alongside answer R (pure a : RenderProgram α) (pure b : RenderProgram β) :=
  pairedBy_alongside.result h

theorem Alongside.bind {p : RenderProgram α} {q : RenderProgram β} (h : Alongside answer R p q)
    {f : α → RenderProgram γ} {g : β → RenderProgram δ}
    (hf : ∀ a b, R a b → Alongside answer S (f a) (g b)) :
    Alongside answer S (p >>= f) (q >>= g) :=
  pairedBy_alongside.sequence h hf

/-- The same program first. -/
theorem alongside_bind (p : RenderProgram α) {f : α → RenderProgram γ} {g : α → RenderProgram δ}
    (hf : ∀ a, Alongside answer S (f a) (g a)) : Alongside answer S (p >>= f) (p >>= g) := by
  refine (alongside_self p).bind ?_
  rintro a _ rfl
  exact hf a

theorem Alongside.within {R : Text → Text → Prop} {p q : RenderProgram Text} (h : Alongside answer R p q)
    (label : String) :
    Alongside answer R (RenderProgram.within label p) (RenderProgram.within label q) := by
  unfold Alongside
  rw [Engine.run_within, Engine.run_within]
  exact SessionM.Alongside.within h label

/-- Two programs with a state of their own that go alongside each other and keep the same state. -/
def StateAlongside (answer : (o : RenderOp) → SessionM ω o.Answer) (R : α → β → Prop)
    (x : StateT σ RenderProgram α) (y : StateT σ RenderProgram β) : Prop :=
  ∀ s, Alongside answer (fun r r' : _ × σ => R r.1 r'.1 ∧ r.2 = r'.2) (x.run s) (y.run s)

theorem pairedBy_stateAlongside :
    PairedBy (m := StateT σ RenderProgram) fun _ _ R x y => StateAlongside answer R x y where
  result h _ := alongside_pure ⟨h, rfl⟩
  sequence hx hf s := by
    rw [StateT.run_bind, StateT.run_bind]
    refine (hx s).bind ?_
    rintro ⟨a, _⟩ ⟨b, s'⟩ ⟨hab, rfl⟩
    exact hf a b hab _

theorem stateAlongside_self (x : StateT σ RenderProgram α) : StateAlongside answer Eq x x := by
  intro s
  refine SessionM.Alongside.mono (alongside_self (x.run s)) ?_
  rintro r _ rfl
  exact ⟨rfl, rfl⟩

end RenderProgram

/-! ## 3. Attempts -/

namespace Engine

variable {kind : ArtifactKind} {c : RenderContext} {r : Resolver} {t t' : Text} {R : Text → Text → Prop}

/-- **Attempts at two texts go alongside each other** if the resolver's programs do: if it fails, both texts
    stay as they were. -/
theorem alongside_attempt (ht : R t t')
    (h : RenderProgram.Alongside answer R (r.resolve kind c t) (r.resolve kind c t')) :
    SessionM.Alongside R (attempt answer kind c t r) (attempt answer kind c t' r) := by
  rintro s _ rfl
  obtain ⟨hend, hlast⟩ := h s s rfl
  rw [attempt_apply, attempt_apply]
  split
  · exact ⟨.error trivial, rfl⟩
  · generalize run answer (r.resolve kind c t) s = out, run answer (r.resolve kind c t') s = out'
      at hend hlast
    obtain ⟨result, s₁⟩ := out
    obtain ⟨result', s₂⟩ := out'
    obtain rfl : s₁ = s₂ := hlast
    cases hend with
    | ok result => exact ⟨.ok result, rfl⟩
    | @error e =>
      cases e with
      | cancelled => exact ⟨.error trivial, rfl⟩
      | _ => exact ⟨.ok ht, rfl⟩

end Engine

/-! ## 4. Programs that last -/

namespace SessionM

/-- **The step fails by cancellation alone.** -/
def Lasts (x : SessionM ω α) : Prop := ∀ s err, (x s).1 = .error err → err = .cancelled

theorem sequencedBy_lasts : SequencedBy (m := SessionM ω) fun _ x => Lasts x where
  result a s err h := by cases h
  sequence {α β x f} hx hf s err h := by
    rw [bind_apply] at h
    cases hxs : (x s).1 with
    | ok a =>
      rw [hxs] at h
      exact hf a _ err h
    | error e =>
      rw [hxs] at h
      obtain rfl : e = err := Except.error.inj h
      exact hx s e hxs

theorem lasts_checkpoint : Lasts (checkpoint : SessionM ω Unit) := by
  intro s err h
  unfold checkpoint at h
  rw [bind_apply, get_apply] at h
  dsimp only at h
  split at h
  · cases h
    rfl
  · cases h

theorem lasts_modifyGet (f : Session ω → α × Session ω) : Lasts (modifyGet f : SessionM ω α) := by
  intro s err h
  cases h

theorem lasts_callOrReport (c : Call ω α) : Lasts (callOrReport c) := by
  refine sequencedBy_lasts.sequence (sequencedBy_lasts.sequence lasts_checkpoint fun _ => ?_) fun r => ?_
  · exact sequencedBy_lasts.sequence (fun s err h => by cases h) fun s =>
      sequencedBy_lasts.sequence (fun _ err h => by cases h) fun _ => sequencedBy_lasts.result _
  · cases r with
    | ok a => exact sequencedBy_lasts.result _
    | error e => exact sequencedBy_lasts.sequence (lasts_modifyGet _) fun _ => sequencedBy_lasts.result _

theorem Lasts.isolated {x : SessionM ω α} (h : Lasts x) (label : Option String) :
    Lasts (isolated label x) := fun s err he => h { s with log := .empty } err he

theorem Lasts.within {x : SessionM ω α} (h : Lasts x) (label : String) : Lasts (within label x) :=
  fun s err he => h { s with log := (s.log.enter label).2 } err he

end SessionM

namespace Engine

open SessionM

/-- An attempt fails by cancellation alone: other failures are reported. -/
theorem lasts_attempt (answer : (o : RenderOp) → SessionM ω o.Answer) (kind : ArtifactKind)
    (c : RenderContext) (t : Text) (r : Resolver) : Lasts (attempt answer kind c t r) := by
  intro s err h
  rw [attempt_apply] at h
  split at h
  · cases h
    rfl
  · generalize run answer (r.resolve kind c t) s = out at h
    obtain ⟨result, s'⟩ := out
    cases result with
    | ok t' => cases h
    | error err' =>
      cases err' <;> cases h
      rfl

theorem lasts_passSeen (e : Engine ω) (see : Observer ω) (answer : (o : RenderOp) → SessionM ω o.Answer)
    (kind : ArtifactKind) (c : RenderContext) (t : Text) : Lasts (e.passSeen see answer kind c t) := by
  have h := sequencedBy_lasts (ω := ω)
  refine h.sequence (h.forM fun _ _ => lasts_modifyGet _) fun _ => h.foldlM (fun t r _ => ?_) t
  exact h.sequence lasts_checkpoint fun _ => h.sequence (lasts_modifyGet _) fun _ =>
    lasts_attempt answer kind c t r

theorem lasts_nestedSeen (e : Engine ω) (see : Observer ω) (left : Nat) (r : RenderRequest) :
    Lasts (e.nestedSeen see left r) := by
  have h := sequencedBy_lasts (ω := ω)
  cases left with
  | zero => exact h.sequence lasts_checkpoint fun _ => h.result _
  | succ left =>
    refine h.sequence lasts_checkpoint fun _ => h.sequence (fun s err he => ?_) fun _ => h.result _
    exact (e.lasts_passSeen see _ r.kind r.context r.text).isolated r.label _ err he

theorem lasts_nested (e : Engine ω) (left : Nat) (r : RenderRequest) : Lasts (e.nested left r) := by
  rw [← nestedSeen_blind]
  exact e.lasts_nestedSeen .blind left r

/-- An engine's answers fail by cancellation alone if its nested renders do. -/
theorem lasts_answer_of (e : Engine ω) {nested : NestedRender ω} (hn : ∀ r, Lasts (nested r)) (depth : Nat)
    (o : RenderOp) : Lasts (e.answer nested depth o) := by
  have hpure : ∀ {α β : Type} {x : SessionM ω α} {f : α → β}, Lasts x → Lasts (x >>= fun a => pure (f a)) :=
    fun hx => sequencedBy_lasts.sequence hx fun _ => sequencedBy_lasts.result _
  have hreport : ∀ err, Lasts (do report err; pure [] : SessionM ω Text) := fun _ => hpure (lasts_modifyGet _)
  cases o with
  | object id => exact lasts_callOrReport _
  | dialog objectId => exact hpure (lasts_callOrReport _)
  | languageKey r => exact hpure (lasts_callOrReport _)
  | functions scope id owner script =>
    refine sequencedBy_lasts.sequence (fun s err h => by cases h) fun s => ?_
    split
    · exact sequencedBy_lasts.result _
    · refine sequencedBy_lasts.sequence (lasts_callOrReport _) fun found => ?_
      cases found with
      | none => exact sequencedBy_lasts.result _
      | some fs => exact hpure (lasts_modifyGet _)
  | «recall» scope id => exact hpure fun s err h => by cases h
  | keep scope id fs => exact lasts_modifyGet _
  | artifact kind c label =>
    refine sequencedBy_lasts.sequence (lasts_callOrReport _) fun found => ?_
    cases found with
    | none => exact sequencedBy_lasts.result _
    | some t =>
      dsimp only
      split
      · refine sequencedBy_lasts.sequence (hn _) fun r => ?_
        cases r with
        | ok rendered => exact sequencedBy_lasts.result _
        | error err => exact hreport err
      · exact hreport _
  | nested r => exact hn r
  | record kind detail => exact lasts_modifyGet _
  | enter label => exact lasts_modifyGet _
  | leave scope => exact lasts_modifyGet _
  | settings => exact sequencedBy_lasts.result _
  | depth => exact sequencedBy_lasts.result _
  | cancel => exact lasts_modifyGet _

/-- **An engine's answers fail by cancellation alone.** -/
theorem lasts_answer (e : Engine ω) (left depth : Nat) (o : RenderOp) :
    Lasts (e.answer (e.nested left) depth o) := e.lasts_answer_of (e.lasts_nested left) depth o

/-- So it is under an observer, who sees all and fails nothing. -/
theorem lasts_answerSeen (e : Engine ω) (see : Observer ω) (left depth : Nat) (o : RenderOp) :
    Lasts (e.answerSeen see (e.nestedSeen see left) depth o) :=
  sequencedBy_lasts.sequence (e.lasts_answer_of (e.lasts_nestedSeen see left) depth o) fun x =>
    sequencedBy_lasts.sequence (lasts_modifyGet _) fun _ => sequencedBy_lasts.result x

end Engine

/-- Nothing is ruled out but errors of one's own. -/
def Contract.lasting : Contract := { Contract.any with fails := fun _ => False }

theorem Contract.allows_lasting (o : RenderOp) : Contract.lasting.allows o := by
  cases o <;> trivial

/-- **A program fails by cancellation alone** that fails by no error of its own. -/
theorem Engine.lasts_run (ha : ∀ o, SessionM.Lasts (answer o)) {p : RenderProgram α}
    (hp : p.Keeps .lasting) : SessionM.Lasts (run answer p) := by
  have hpromise : ∀ (o : RenderOp) x, Contract.lasting.promises o x := by
    intro o x
    cases o with
    | object id => exact fun _ _ => trivial
    | dialog id => exact fun _ _ => trivial
    | _ => trivial
  induction p with
  | done a => exact SessionM.sequencedBy_lasts.result a
  | fail e => exact hp.elim
  | ask o go ih =>
    exact SessionM.sequencedBy_lasts.sequence (ha o) fun x => ih x (hp.2 x (hpromise o x))
  | under label inner go ihInner ih =>
    exact SessionM.sequencedBy_lasts.sequence ((ihInner hp.1).within label) fun t => ih t (hp.2 t)

end RecordExport

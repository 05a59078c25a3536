import Mathlib.Data.List.Chain
import RecordExport.Proofs.Render.Likeness
/-!
# The turns of a render

A render lets its resolvers change a text one after the other. Each of them has a TURN: it is given a
text and the state of the render, and its program runs to a text or a failure.

* `Pipeline`: turns hand on to each other what the resolver made of the text, or else the text as it was
  given and one more entry in the log;
* `Engine.containsFailures`: so a render of any depth goes through all the resolvers that take part, in
  their order, whatever fails in them. Only cancellation ends it.
-/

namespace RecordExport

variable {ω : Type}

open SessionM

/-! ## 1. Turns -/

/-- A resolver's turn: what it was given and what its program came to. -/
structure Turn (ω : Type) where
  resolver : Resolver
  given : Text
  before : Session ω
  result : Except RenderError Text
  after : Session ω

/-- **What a turn hands on.** -/
inductive Turn.HandsOn (u : Turn ω) : Text → Session ω → Prop where
  /-- a resolver that succeeds hands on its text -/
  | resolved (t : Text) (h : u.result = .ok t) : u.HandsOn t u.after
  /-- one that fails hands on the text it was given, and the failure is reported after all that the
      resolver reported itself -/
  | failed (err : RenderError) (h : u.result = .error err) (hne : err ≠ .cancelled) :
    u.HandsOn u.given
      { u.after with
        log := ⟨u.after.log.entries ++
          [⟨u.after.log.breadcrumb, err.diagnosticKind, u.resolver.name ++ ": " ++ err.message⟩],
          u.after.log.breadcrumb⟩ }

/-- A render ends with a text, unless it was cancelled. -/
def EndsWith (t : Text) (out : Except RenderError Text × Session ω) : Prop :=
  out.1 = .ok t ∨ (out.1 = .error .cancelled ∧ out.2.cancelled = true)

/-- **The turns of resolvers**, from a text and a state to what they come to. -/
inductive Pipeline (runs : Resolver → Text → SessionM ω Text) :
    List Resolver → Text → Session ω → List (Turn ω) → Except RenderError Text × Session ω → Prop where
  | done (t : Text) (s : Session ω) : Pipeline runs [] t s [] (.ok t, s)
  /-- no turn begins once the render was cancelled -/
  | cancelled {r rs t s} (h : s.cancelled = true) : Pipeline runs (r :: rs) t s [] (.error .cancelled, s)
  /-- a turn that is cancelled is the last -/
  | stopped {rs} (u : Turn ω) (hc : u.before.cancelled = false)
      (hr : runs u.resolver u.given u.before = (u.result, u.after))
      (hs : u.result = .error .cancelled) :
      Pipeline runs (u.resolver :: rs) u.given u.before [u] (.error .cancelled, u.after)
  | goesOn {rs t s us out} (u : Turn ω) (hc : u.before.cancelled = false)
      (hr : runs u.resolver u.given u.before = (u.result, u.after)) (hu : u.HandsOn t s)
      (rest : Pipeline runs rs t s us out) :
      Pipeline runs (u.resolver :: rs) u.given u.before (u :: us) out

namespace Pipeline

variable {runs : Resolver → Text → SessionM ω Text} {rs : List Resolver} {t : Text} {s : Session ω}
  {us : List (Turn ω)} {out : Except RenderError Text × Session ω}

/-- The resolvers have their turns in order. -/
theorem resolvers_prefix (h : Pipeline runs rs t s us out) : us.map (·.resolver) <+: rs := by
  induction h with
  | done t s => exact List.prefix_rfl
  | cancelled h => exact List.nil_prefix
  | stopped u hc hr hs => exact List.cons_prefix_cons.2 ⟨rfl, List.nil_prefix⟩
  | goesOn u hc hr hu rest ih => exact List.cons_prefix_cons.2 ⟨rfl, ih⟩

/-- Where there is a text every resolver had its turn. -/
theorem resolvers_eq (h : Pipeline runs rs t s us out) {t' : Text} (hout : out.1 = .ok t') :
    us.map (·.resolver) = rs := by
  induction h with
  | done t s => rfl
  | cancelled h => cases hout
  | stopped u hc hr hs => cases hout
  | goesOn u hc hr hu rest ih => exact congrArg (u.resolver :: ·) (ih hout)

/-- Only cancellation leaves no text. -/
theorem eq_cancelled (h : Pipeline runs rs t s us out) {err : RenderError}
    (hout : out.1 = .error err) : err = .cancelled := by
  induction h with
  | done t s => cases hout
  | cancelled h => exact (Except.error.inj hout).symm
  | stopped u hc hr hs => exact (Except.error.inj hout).symm
  | goesOn u hc hr hu rest ih => exact ih hout

/-- In every turn the resolver ran, in a render that was not cancelled. -/
theorem ran (h : Pipeline runs rs t s us out) : ∀ u ∈ us, u.before.cancelled = false ∧
    runs u.resolver u.given u.before = (u.result, u.after) := by
  induction h with
  | done t s => exact fun u hu => absurd hu List.not_mem_nil
  | cancelled h => exact fun u hu => absurd hu List.not_mem_nil
  | stopped u hc hr hs =>
    intro v hv
    obtain rfl := List.mem_singleton.1 hv
    exact ⟨hc, hr⟩
  | goesOn u hc hr hu rest ih =>
    intro v hv
    rcases List.mem_cons.1 hv with rfl | hv
    · exact ⟨hc, hr⟩
    · exact ih v hv

/-- The first turn is given what the render was given. -/
theorem first (h : Pipeline runs rs t s us out) : ∀ u ∈ us.head?, u.given = t ∧ u.before = s := by
  cases h with
  | done t s => exact fun u hu => by cases hu
  | cancelled h => exact fun u hu => by cases hu
  | stopped u hc hr hs =>
    intro v hv
    obtain rfl : u = v := Option.some.inj hv
    exact ⟨rfl, rfl⟩
  | goesOn u hc hr hu rest =>
    intro v hv
    obtain rfl : u = v := Option.some.inj hv
    exact ⟨rfl, rfl⟩

/-- Every other turn is given what the one before it hands on. -/
theorem isChain (h : Pipeline runs rs t s us out) :
    us.IsChain fun u v => u.HandsOn v.given v.before := by
  induction h with
  | done t s => exact .nil
  | cancelled h => exact .nil
  | stopped u hc hr hs => exact .singleton u
  | goesOn u hc hr hu rest ih =>
    refine List.isChain_cons.2 ⟨fun v hv => ?_, ih⟩
    obtain ⟨hgiven, hbefore⟩ := rest.first v hv
    rw [hgiven, hbefore]
    exact hu

/-- Without a turn nothing changes. -/
theorem none (h : Pipeline runs rs t s us out) (hus : us = []) : out.2 = s ∧ EndsWith t out := by
  cases h with
  | done t s => exact ⟨rfl, .inl rfl⟩
  | cancelled h => exact ⟨rfl, .inr ⟨rfl, h⟩⟩
  | stopped u hc hr hs => cases hus
  | goesOn u hc hr hu rest => cases hus

/-- What the last turn hands on is what the render comes to, unless the turn was cancelled. -/
theorem last (h : Pipeline runs rs t s us out) : ∀ u ∈ us.getLast?,
    (u.result = .error .cancelled ∧ out = (.error .cancelled, u.after)) ∨
      ∃ t', u.HandsOn t' out.2 ∧ EndsWith t' out := by
  induction h with
  | done t s => exact fun u hu => by cases hu
  | cancelled h => exact fun u hu => by cases hu
  | stopped u hc hr hs =>
    intro v hv
    obtain rfl : u = v := Option.some.inj hv
    exact .inl ⟨hs, rfl⟩
  | @goesOn rs t s us out u hc hr hu rest ih =>
    intro v hv
    cases us with
    | nil =>
      obtain rfl : u = v := Option.some.inj hv
      obtain ⟨hs, hends⟩ := rest.none rfl
      rw [← hs] at hu
      exact .inr ⟨t, hu, hends⟩
    | cons w us =>
      rw [List.getLast?_cons_cons] at hv
      exact ih v hv

end Pipeline

/-! ## 2. A render is a pipeline -/

/-- What an attempt comes to is what its turn hands on, unless the render is cancelled. -/
theorem Engine.attempt_apply (answer : (o : RenderOp) → SessionM ω o.Answer) (kind : ArtifactKind)
    (c : RenderContext) (t : Text) (r : Resolver) (s : Session ω) :
    attempt answer kind c t r s =
      if s.cancelled then (.error .cancelled, s)
      else match run answer (r.resolve kind c t) s with
        | (.ok t', s') => (.ok t', s')
        | (.error .cancelled, s') => (.error .cancelled, s')
        | (.error err, s') =>
          (.ok t, { s' with log := s'.log.record err.diagnosticKind (r.name ++ ": " ++ err.message) })
    := by
  unfold attempt
  rw [checkpoint_bind_apply, tryCatch_apply]
  rcases run answer (r.resolve kind c t) s with ⟨result, s'⟩
  cases result with
  | ok t' => rfl
  | error err => cases err <;> rfl

/-- Attempts one after the other are turns. -/
theorem Engine.exists_pipeline (answer : (o : RenderOp) → SessionM ω o.Answer)
    (kind : ArtifactKind) (c : RenderContext) (rs : List Resolver) (t : Text) (s : Session ω) :
    ∃ us, Pipeline (fun r t => run answer (r.resolve kind c t)) rs t s us
      (rs.foldlM (attempt answer kind c) t s) := by
  induction rs generalizing t s with
  | nil => exact ⟨[], .done t s⟩
  | cons r rs ih =>
    rw [List.foldlM_cons, bind_apply, attempt_apply]
    cases hc : s.cancelled with
    | true => exact ⟨[], .cancelled hc⟩
    | false =>
      rcases hrun : run answer (r.resolve kind c t) s with ⟨result, s'⟩
      let u : Turn ω := ⟨r, t, s, result, s'⟩
      cases result with
      | ok t' =>
        obtain ⟨us, hus⟩ := ih t' s'
        exact ⟨u :: us, .goesOn u hc hrun (.resolved t' rfl) hus⟩
      | error err =>
        by_cases hne : err = .cancelled
        · subst hne
          exact ⟨[u], .stopped u hc hrun rfl⟩
        · obtain ⟨us, hus⟩ := ih t
            { s' with log := s'.log.record err.diagnosticKind (r.name ++ ": " ++ err.message) }
          have hgoes := Pipeline.goesOn u hc hrun (.failed err rfl hne) hus
          refine ⟨u :: us, ?_⟩
          cases err with
          | cancelled => exact absurd rfl hne
          | _ => exact hgoes

/-- The state of a render once the issues of its text were reported. -/
def Engine.reported (e : Engine ω) (t : Text) (s : Session ω) : Session ω :=
  { s with
    log := (e.validate t).foldl (fun l i => l.record .malformedTemplate (issueDetail i)) s.log }

/-- What a resolver does in a render with so many levels left. -/
def Engine.runs (e : Engine ω) (left : Nat) (kind : ArtifactKind) (c : RenderContext) (r : Resolver)
    (t : Text) : SessionM ω Text :=
  run (e.answer (e.nested left) (e.maxDepth - left)) (r.resolve kind c t)

theorem Engine.forM_record (is : List Issue) (s : Session ω) :
    is.forM (fun i => record .malformedTemplate (issueDetail i)) s =
      (.ok (), { s with
        log := is.foldl (fun l i => l.record .malformedTemplate (issueDetail i)) s.log }) := by
  induction is generalizing s with
  | nil => rfl
  | cons i is ih => exact ih { s with log := s.log.record .malformedTemplate (issueDetail i) }

/-- A pass reports what is malformed, and then the resolvers have their turns. -/
theorem Engine.pass_apply (e : Engine ω) (left : Nat) (kind : ArtifactKind) (c : RenderContext) (t : Text)
    (s : Session ω) :
    e.pass left kind c t s =
      (e.applicable kind).foldlM
        (attempt (e.answer (e.nested left) (e.maxDepth - left)) kind c) t (e.reported t s) := by
  unfold pass passWith
  rw [bind_apply, forM_record]
  rfl

theorem Engine.pass_pipeline (e : Engine ω) (left : Nat) (kind : ArtifactKind) (c : RenderContext)
    (t : Text) (s : Session ω) :
    ∃ us, Pipeline (e.runs left kind c) (e.applicable kind) t (e.reported t s) us
      (e.pass left kind c t s) := by
  rw [pass_apply]
  exact exists_pipeline _ kind c _ t _

/-- A nested render: none once the render was cancelled, else one with a level less and a log of its
    own, whose entries go to the caller's log however it ends. -/
theorem Engine.nested_apply (e : Engine ω) (left : Nat) (r : RenderRequest) (s : Session ω) :
    e.nested (left + 1) r s =
      if s.cancelled then (.error .cancelled, s)
      else
        let own := e.pass left r.kind r.context r.text { s with log := .empty }
        (own.1.map .ok, { own.2 with log := s.log.mergeUnder r.label own.2.log }) := by
  unfold nested
  rw [checkpoint_bind_apply, bind_apply]
  have hown : isolated r.label (e.pass left r.kind r.context r.text) s =
      let own := e.pass left r.kind r.context r.text { s with log := .empty }
      (own.1, { own.2 with log := s.log.mergeUnder r.label own.2.log }) := rfl
  unfold pass at hown
  dsimp only
  rw [hown]
  unfold pass
  dsimp only
  cases (e.passWith (e.answer (e.nested left) (e.maxDepth - left)) r.kind r.context r.text
    { s with log := .empty }).1 <;> rfl

/-! ## 3. Order -/

/-- Registrations in ascending order of their order numbers, those of one number as they came. -/
structure InOrder (rs sorted : List Registration) : Prop where
  perm : sorted.Perm rs
  ascending : sorted.Pairwise fun a b => a.order ≤ b.order
  stable : ∀ n, sorted.filter (·.order = n) = rs.filter (·.order = n)

theorem inOrder_mergeSort (rs : List Registration) :
    InOrder rs (rs.mergeSort fun a b => a.order ≤ b.order) := by
  have htrans : ∀ a b c : Registration, decide (a.order ≤ b.order) = true →
      decide (b.order ≤ c.order) = true → decide (a.order ≤ c.order) = true := by
    simp only [decide_eq_true_eq]
    exact fun a b c => Nat.le_trans
  have htotal : ∀ a b : Registration,
      (decide (a.order ≤ b.order) || decide (b.order ≤ a.order)) = true := by
    simp only [Bool.or_eq_true, decide_eq_true_eq]
    exact fun a b => Nat.le_total _ _
  have hperm := List.mergeSort_perm rs fun a b => decide (a.order ≤ b.order)
  constructor
  case perm => exact hperm
  case ascending => simpa using List.pairwise_mergeSort htrans htotal rs
  case stable =>
    intro n
    -- those of one number are in order as they came, so sorting leaves them where they are
    have heq : ∀ a ∈ rs.filter (·.order = n), a.order = n := fun a ha => by
      simpa using (List.mem_filter.1 ha).2
    have hpair : (rs.filter (·.order = n)).Pairwise fun a b => decide (a.order ≤ b.order) = true :=
      List.pairwise_of_forall_mem_list fun a ha b hb => by simp [heq a ha, heq b hb]
    have hsub := List.sublist_mergeSort htrans htotal hpair List.filter_sublist
    have hfilter := hsub.filter (fun a : Registration => decide (a.order = n))
    rw [List.filter_filter] at hfilter
    simp only [Bool.and_self] at hfilter
    exact (hfilter.eq_of_length (hperm.filter _).length_eq.symm).symm

/-! ## 4. Failures are contained -/

/-- **The turns of a render** with so many levels left. -/
structure Engine.Turns (e : Engine ω) (left : Nat) (kind : ArtifactKind) (c : RenderContext)
    (t : Text) (s : Session ω) (us : List (Turn ω)) : Prop where
  /-- the resolvers that take part have their turns in order -/
  resolvers : us.map (·.resolver) <+: e.applicable kind
  /-- and all of them do unless the render is cancelled -/
  complete : (e.pass left kind c t s).1 ≠ .error .cancelled →
    us.map (·.resolver) = e.applicable kind
  ran : ∀ u ∈ us, u.before.cancelled = false ∧
    e.runs left kind c u.resolver u.given u.before = (u.result, u.after)
  first : ∀ u ∈ us.head?, u.given = t ∧ u.before = e.reported t s
  next : us.IsChain fun u v => u.HandsOn v.given v.before
  last : ∀ u ∈ us.getLast?,
    (u.result = .error .cancelled ∧ e.pass left kind c t s = (.error .cancelled, u.after)) ∨
      ∃ t', u.HandsOn t' (e.pass left kind c t s).2 ∧ EndsWith t' (e.pass left kind c t s)
  none : us = [] →
    (e.pass left kind c t s).2 = e.reported t s ∧ EndsWith t (e.pass left kind c t s)
  error : ∀ err, (e.pass left kind c t s).1 = .error err → err = .cancelled

/-- **An engine contains what fails in its resolvers.** -/
structure Engine.ContainsFailures (e : Engine ω) (rs : List Registration) : Prop where
  /-- only cancellation ends a render without a text -/
  error : ∀ kind c t w cancelled err, (e.render kind c t w cancelled).1 = .error err →
    err = .cancelled
  /-- the resolvers that take part are in order -/
  order : ∃ sorted, InOrder rs sorted ∧
    ∀ kind, e.applicable kind = (sorted.map (·.resolver)).filter (·.applies kind)
  /-- they have their turns at every depth -/
  turns : ∀ left kind c t s, ∃ us, e.Turns left kind c t s us
  /-- a nested render has turns of its own -/
  nested : ∀ left r s, s.cancelled = false →
    let own := e.pass left r.kind r.context r.text { s with log := .empty }
    e.nested (left + 1) r s =
      (own.1.map .ok, { own.2 with log := s.log.mergeUnder r.label own.2.log })

theorem Engine.exists_turns (e : Engine ω) (left : Nat) (kind : ArtifactKind) (c : RenderContext)
    (t : Text) (s : Session ω) : ∃ us, e.Turns left kind c t s us := by
  obtain ⟨us, hus⟩ := e.pass_pipeline left kind c t s
  refine ⟨us, hus.resolvers_prefix, fun hne => ?_, hus.ran, hus.first, hus.isChain,
    hus.last, hus.none, fun err => hus.eq_cancelled⟩
  cases hout : (e.pass left kind c t s).1 with
  | ok t' => exact hus.resolvers_eq hout
  | error err =>
    have hc : err = .cancelled := hus.eq_cancelled hout
    rw [hout, hc] at hne
    exact absurd rfl hne

/-- **Whatever resolvers are registered, a failure of one of them is contained**: it is reported once,
    the next resolver gets the text the failing one was given, and all of them have their turns. -/
theorem Engine.containsFailures_ofRegistrations (rs : List Registration) (services : Services ω)
    (maxDepth : Nat) : (Engine.ofRegistrations rs services maxDepth).ContainsFailures rs where
  error kind c t w cancelled err herr := by
    obtain ⟨us, hus⟩ := exists_turns (ofRegistrations rs services maxDepth) maxDepth kind c t
      (Session.start w cancelled)
    exact hus.error err (eq_error_of_map herr)
  order := ⟨_, inOrder_mergeSort rs, fun kind => rfl⟩
  turns := exists_turns _
  nested left r s hs := by
    rw [nested_apply, hs]
    rfl

end RecordExport

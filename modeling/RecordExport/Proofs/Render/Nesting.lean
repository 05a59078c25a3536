import RecordExport.Proofs.Render.Course
import RecordExport.Proofs.Render.Pipeline
/-!
# What a nested render leaves behind

A nested render shares everything with its caller but the log. It has a log of its own, and when it ends,
however it ends, the entries of that log go to the caller's.

* `Transcript.level`: how much deeper a render is after a transcript than it was before;
* `Engine.frame_nested`: a nested render leaves the caller's entries and labels alone, adds its own
  entries under the caller's labels and its own label, and ends as deep as it began.
-/

namespace RecordExport

variable {ω : Type}

/-! ## 1. Levels -/

/-- How much deeper a render is after an event. -/
def RenderEvent.level : RenderEvent → Int
  | .begins _ => 1
  | .ends => -1
  | _ => 0

/-- How much deeper a render is after a transcript. -/
def Transcript.level (T : Transcript) : Int := T.foldl (fun n ev => n + ev.level) 0

@[simp] theorem Transcript.level_concat (T : Transcript) (ev : RenderEvent) :
    Transcript.level (T ++ [ev]) = T.level + ev.level := by
  simp [level]

section Course

variable {K : Contract} {e : Engine ω} {d₀ d : Nat} {memo₀ memo : FunctionMemo} {T : Transcript}

/-- The nested renders that began and did not end yet are as many as the levels gone down. -/
theorem Course.level_eq (h : Course K e d₀ memo₀ d memo T) : (d : Int) = d₀ + T.level := by
  induction h with
  | start => simp [Transcript.level]
  | begins r hd h ih =>
    rw [Transcript.level_concat, ← Int.add_assoc, ← ih]
    rfl
  | ends hd h ih =>
    have hlevel : RenderEvent.ends.level = -1 := rfl
    rw [Transcript.level_concat, hlevel]
    omega
  | keeps scope id fs hk h ih => exact ih
  | _ => simpa [RenderEvent.level]

theorem prefix_concat {P : Transcript → Prop} {T₁ : Transcript} {ev : RenderEvent}
    (hT : T₁ <+: T ++ [ev]) (hlast : P (T ++ [ev])) (hbefore : T₁ <+: T → P T₁) : P T₁ := by
  rcases List.prefix_concat_iff.1 hT with rfl | hT
  · exact hlast
  · exact hbefore hT

/-- Where a transcript follows a course, so does every beginning of it. -/
theorem Course.of_prefix (h : Course K e d₀ memo₀ d memo T) {T₁ : Transcript} (hT : T₁ <+: T) :
    ∃ d₁ memo₁, Course K e d₀ memo₀ d₁ memo₁ T₁ := by
  let P (T : Transcript) : Prop := ∃ d₁ memo₁, Course K e d₀ memo₀ d₁ memo₁ T
  show P T₁
  induction h with
  | start =>
    obtain rfl := List.prefix_nil.1 hT
    exact ⟨d₀, memo₀, .start⟩
  | resolver kind name given h ih => exact prefix_concat hT ⟨_, _, h.resolver kind name given⟩ ih
  | begins r hd h ih => exact prefix_concat hT ⟨_, _, h.begins r hd⟩ ih
  | ends hd h ih => exact prefix_concat hT ⟨_, _, h.ends hd⟩ ih
  | called site id cancels h ih => exact prefix_concat hT ⟨_, _, h.called site id cancels⟩ ih
  | answered o x helse ho hx ht h ih =>
    exact prefix_concat hT ⟨_, _, h.answered o x helse ho hx ht⟩ ih
  | keeps scope id fs hk h ih => exact ih hT
  | known owner script hs hm h ih => exact prefix_concat hT ⟨_, _, h.known owner script hs hm⟩ ih
  | derived hs hm hfs h ih => exact prefix_concat hT ⟨_, _, h.derived hs hm hfs⟩ ih
  | underived hs hm herr h ih => exact prefix_concat hT ⟨_, _, h.underived hs hm herr⟩ ih

/-- A program that asks how deep it is nested is answered right. -/
theorem Course.eq_of_depth {n : Nat}
    (h : Course K e d₀ memo₀ d memo (T ++ [.answered .depth n])) : n = d := by
  generalize hT : T ++ [.answered .depth n] = T' at h
  induction h with
  | start => simp at hT
  | keeps scope id fs hk h ih => exact ih hT
  | answered o x helse ho hx ht h ih =>
    cases (List.append_inj' hT rfl).2
    exact ht
  | _ => cases (List.append_inj' hT rfl).2

/-- A course begins and ends within the limit, and answers about the depth are right all the way. -/
structure Transcript.Levelled (d limit : Nat) (T : Transcript) : Prop where
  level : T.level = 0
  within : ∀ T₁, T₁ <+: T → 0 ≤ Transcript.level T₁ ∧ (d + Transcript.level T₁ : Int) ≤ max d limit
  depth : ∀ T₁ (n : Nat), T₁ ++ [.answered .depth n] <+: T → (n : Int) = d + Transcript.level T₁

theorem Course.levelled (h : Course K e d memo₀ d memo T) : T.Levelled d e.maxDepth where
  level := by
    have := h.level_eq
    omega
  within T₁ hT := by
    obtain ⟨d₁, memo₁, h₁⟩ := h.of_prefix hT
    have hlevel := h₁.level_eq
    have hle := h₁.le
    have hmax := h₁.le_max
    omega
  depth T₁ n hT := by
    obtain ⟨d₁, memo₁, h₁⟩ := h.of_prefix hT
    have hlevel := h₁.level_eq
    rw [Transcript.level_concat, ← h₁.eq_of_depth] at hlevel
    simpa [RenderEvent.level] using hlevel

end Course

/-! ## 2. The frame of a nested render -/

theorem DiagnosticLog.entries_mergeUnder (label : Option String) (l nested : DiagnosticLog) :
    (l.mergeUnder label nested).entries =
      l.entries ++ nested.entries.map (·.under (l.breadcrumb ++ label.toList)) := by
  cases label <;> simp [mergeUnder, enter, leave, merge]

/-- The render that a request stands for, with a log of its own. -/
def Engine.own (e : Engine ω) (d : Nat) (r : RenderRequest) (s : Session ω) :
    Except RenderError Text × Session ω :=
  e.pass (e.maxDepth - (d + 1)) r.kind r.context r.text { s with log := .empty }

/-- **What a nested render does to the state of its caller**, who is nested so deep. -/
structure Engine.NestedFrame (e : Engine ω) (d : Nat) (r : RenderRequest) (s : Session ω)
    (out : Except RenderError (Except RenderError Text) × Session ω) : Prop where
  breadcrumb : out.2.log.breadcrumb = s.log.breadcrumb
  /-- a cancelled render leaves everything as it was -/
  cancelled : s.cancelled = true → out = (.error .cancelled, s)
  /-- so does one at the limit -/
  limit : s.cancelled = false → e.maxDepth ≤ d → out = (.ok (.error (.depthExceeded e.maxDepth)), s)
  /-- else what the render recorded is added to the log, and only cancellation passes through -/
  runs : s.cancelled = false → d < e.maxDepth →
    out = ((e.own d r s).1.map .ok, { (e.own d r s).2 with log := out.2.log }) ∧
      out.2.log.entries = s.log.entries ++
        (e.own d r s).2.log.entries.map (·.under (s.log.breadcrumb ++ r.label.toList)) ∧
      ∀ err, out.1 = .error err → err = .cancelled
  /-- the depth is the same afterwards and within the limit all the time -/
  depth : ∃ T : Transcript, T.Levelled d e.maxDepth ∧
    e.transcribing.nestedSeen .scribe (e.maxDepth - d) r ⟨(s.world, []), s.log, s.memo, s.cancelled⟩
      = (out.1, ⟨(out.2.world, T), out.2.log, out.2.memo, out.2.cancelled⟩)

theorem Engine.nested_limit (e : Engine ω) (r : RenderRequest) (s : Session ω) :
    e.nested 0 r s = if s.cancelled then (.error .cancelled, s)
      else (.ok (.error (.depthExceeded e.maxDepth)), s) :=
  SessionM.checkpoint_bind_apply _ s

theorem Engine.breadcrumb_nested (e : Engine ω) (left : Nat) (r : RenderRequest) (s : Session ω) :
    (e.nested left r s).2.log.breadcrumb = s.log.breadcrumb := by
  cases left with
  | zero =>
    rw [nested_limit]
    cases s.cancelled <;> rfl
  | succ left =>
    rw [nested_apply]
    cases s.cancelled with
    | true => rfl
    | false => exact DiagnosticLog.breadcrumb_mergeUnder _ _ _

/-- **A nested render leaves its caller's log and depth intact**, however it ends. -/
theorem Engine.frame_nested (e : Engine ω) (d : Nat) (r : RenderRequest) (s : Session ω) :
    e.NestedFrame d r s (e.nested (e.maxDepth - d) r s) where
  breadcrumb := e.breadcrumb_nested _ r s
  cancelled hs := by
    cases e.maxDepth - d with
    | zero => rw [nested_limit, if_pos hs]
    | succ left => rw [nested_apply, if_pos hs]
  limit hs hd := by
    rw [Nat.sub_eq_zero_of_le hd, nested_limit, hs]
    rfl
  runs hs hd := by
    have hleft : e.maxDepth - d = e.maxDepth - (d + 1) + 1 := by omega
    have hout : e.nested (e.maxDepth - d) r s = ((e.own d r s).1.map .ok,
        { (e.own d r s).2 with log := s.log.mergeUnder r.label (e.own d r s).2.log }) := by
      rw [hleft, nested_apply, if_neg (Bool.eq_false_iff.1 hs)]
      rfl
    rw [hout]
    refine ⟨rfl, DiagnosticLog.entries_mergeUnder _ _ _, fun err herr => ?_⟩
    obtain ⟨us, hus⟩ := e.exists_turns (e.maxDepth - (d + 1)) r.kind r.context r.text
      { s with log := .empty }
    exact hus.error err (eq_error_of_map herr)
  depth := by
    have hpromises : e.services.KeepPromises .any := ⟨fun _ _ _ _ => trivial, fun _ _ _ _ => trivial⟩
    have hkeeps : ∀ x ∈ e.resolvers, x.Keeps .any := fun x _ kind c t _ =>
      (x.resolve kind c t).keepsTo_any
    obtain ⟨T, hseen, hcourse⟩ := nestedSeen_course hkeeps hpromises d r trivial s
    exact ⟨T, hcourse.levelled, hseen⟩

end RecordExport

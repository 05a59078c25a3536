import RecordExport.Proofs.Render.Alike
/-!
# The course of a render

Not every list of events is a transcript. A COURSE is built up event by event, with one constructor for
everything that can happen and all that is known where it happens: how deep renders are nested, which
functions are kept, what was asked and what was answered. What is claimed of transcripts is shown by
induction on courses.

* `Engine.transcribed_course`: writing a transcript changes nothing else, and the transcript follows a
  course;
* `Engine.nestedSeen_course`: so does the transcript of a nested render, which ends as deep as it began.
-/

namespace RecordExport

variable {ω α : Type}

open SessionM

/-! ## 1. Courses -/

/-- **What can happen in a render** that began so deep with these functions kept: how deep it is now,
    what is kept now and what was seen. -/
inductive Course (K : Contract) (e : Engine ω) (d₀ : Nat) (memo₀ : FunctionMemo) :
    Nat → FunctionMemo → Transcript → Prop where
  | start : Course K e d₀ memo₀ d₀ memo₀ []
  | resolver {d memo T} (kind : ArtifactKind) (name : String) (given : Text)
      (h : Course K e d₀ memo₀ d memo T) :
      Course K e d₀ memo₀ d memo (T ++ [.resolver kind name given])
  /-- a nested render begins above the limit only -/
  | begins {d memo T} (r : RenderRequest) (hd : d < e.maxDepth)
      (h : Course K e d₀ memo₀ d memo T) : Course K e d₀ memo₀ (d + 1) memo (T ++ [.begins r])
  /-- what ends began here -/
  | ends {d memo T} (hd : d₀ ≤ d) (h : Course K e d₀ memo₀ (d + 1) memo T) :
      Course K e d₀ memo₀ d memo (T ++ [.ends])
  | called {d memo T} (site : CallSite) (id : String) (cancels : Bool)
      (h : Course K e d₀ memo₀ d memo T) :
      Course K e d₀ memo₀ d memo (T ++ [.called site id cancels])
  | answered {d memo T} (o : RenderOp) (x : o.Answer) (helse : o.AsksElse) (ho : K.allows o)
      (hx : K.promises o x) (ht : o.Tells d x) (h : Course K e d₀ memo₀ d memo T) :
      Course K e d₀ memo₀ d memo (T ++ [.answered o x])
  | keeps {d memo T} (scope : MemoScope) (id : String) (fs : List ScriptFunction)
      (hk : K.keep scope id fs) (h : Course K e d₀ memo₀ d memo T) :
      Course K e d₀ memo₀ d (memo.insert scope id fs) T
  /-- functions are answered as they are kept -/
  | known {d memo T} {scope : MemoScope} {id : String} {fs : List ScriptFunction} (owner : String)
      (script : Script) (hs : K.script scope id owner script)
      (hm : memo.get? scope id = some fs) (h : Course K e d₀ memo₀ d memo T) :
      Course K e d₀ memo₀ d memo (T ++ [.answered (.functions scope id owner script) fs])
  /-- else they are derived and kept -/
  | derived {d memo T} {scope : MemoScope} {id owner : String} {script : Script}
      {fs : List ScriptFunction} (hs : K.script scope id owner script)
      (hm : memo.get? scope id = none)
      (hfs : ∃ w, (e.services.functions owner script w).result = .ok fs)
      (h : Course K e d₀ memo₀ d memo T) :
      Course K e d₀ memo₀ d (memo.insert scope id fs)
        (T ++ [.answered (.functions scope id owner script) fs])
  /-- those that cannot be derived are not kept -/
  | underived {d memo T} {scope : MemoScope} {id owner : String} {script : Script}
      {err : ServiceError} (hs : K.script scope id owner script)
      (hm : memo.get? scope id = none)
      (herr : ∃ w, (e.services.functions owner script w).result = .error err)
      (h : Course K e d₀ memo₀ d memo T) :
      Course K e d₀ memo₀ d memo (T ++ [.answered (.functions scope id owner script) []])

variable {K : Contract} {e : Engine ω} {d₀ d : Nat} {memo₀ memo : FunctionMemo} {T : Transcript}

/-- A course never comes above where it began. -/
theorem Course.le (h : Course K e d₀ memo₀ d memo T) : d₀ ≤ d := by
  induction h with
  | start => exact Nat.le_refl _
  | begins r hd h ih => exact Nat.le_succ_of_le ih
  | ends hd h ih => exact hd
  | _ => assumption

/-- A course never goes below the limit, unless it began there. -/
theorem Course.le_max (h : Course K e d₀ memo₀ d memo T) : d ≤ max d₀ e.maxDepth := by
  induction h with
  | start => exact Nat.le_max_left _ _
  | begins r hd h ih => exact Nat.le_trans hd (Nat.le_max_right _ _)
  | ends hd h ih => exact Nat.le_of_succ_le ih
  | _ => assumption

/-! ## 2. Calls and functions -/

namespace SessionM

variable {c : Call ω α} {s : Session ω}

theorem get_apply (s : Session ω) : (get : SessionM ω (Session ω)) s = (.ok s, s) := rfl

theorem callOrReport_of_cancelled (hs : s.cancelled = true) :
    callOrReport c s = (.error .cancelled, s) := by
  have hcall : call c s = (.error .cancelled, s) := by
    unfold call
    rw [checkpoint_bind_apply, if_pos hs]
  unfold callOrReport
  rw [bind_apply, hcall]
  rfl

theorem call_apply (hs : s.cancelled = false) :
    call c s = (.ok (c s.world).result,
      ⟨(c s.world).world, s.log, s.memo, s.cancelled || (c s.world).cancels⟩) := by
  unfold call
  rw [checkpoint_bind_apply, if_neg (Bool.eq_false_iff.1 hs)]
  rfl

theorem callOrReport_of_ok (hs : s.cancelled = false) {a : α} (hr : (c s.world).result = .ok a) :
    callOrReport c s = (.ok (some a),
      ⟨(c s.world).world, s.log, s.memo, s.cancelled || (c s.world).cancels⟩) := by
  unfold callOrReport
  rw [bind_apply, call_apply hs, hr]
  rfl

theorem callOrReport_of_error (hs : s.cancelled = false) {err : ServiceError}
    (hr : (c s.world).result = .error err) :
    callOrReport c s = (.ok none, ⟨(c s.world).world,
      s.log.record (RenderError.service err).diagnosticKind err.message, s.memo,
      s.cancelled || (c s.world).cancels⟩) := by
  unfold callOrReport
  rw [bind_apply, call_apply hs, hr]
  rfl

/-- What is kept is answered without a call. -/
theorem functionsOnce_of_kept {scope : MemoScope} {id : String} {c : Call ω (List ScriptFunction)}
    {fs : List ScriptFunction} (hm : s.memo.get? scope id = some fs) :
    functionsOnce scope id c s = (.ok fs, s) := by
  unfold functionsOnce
  rw [bind_apply, get_apply]
  dsimp only
  rw [hm]
  rfl

/-- Functions that are not kept are what the call gives, and only then they are kept. -/
theorem functionsOnce_of_missing {scope : MemoScope} {id : String}
    {c : Call ω (List ScriptFunction)} (hm : s.memo.get? scope id = none) :
    functionsOnce scope id c s = match callOrReport c s with
      | (.ok (some fs), s') => (.ok fs, { s' with memo := s'.memo.insert scope id fs })
      | (.ok none, s') => (.ok [], s')
      | (.error err, s') => (.error err, s') := by
  unfold functionsOnce
  rw [bind_apply, get_apply]
  dsimp only
  rw [hm]
  dsimp only
  rw [bind_apply]
  rcases callOrReport c s with ⟨_ | _ | _, _⟩ <;> rfl

/-- An answer that is given is seen. -/
theorem answered_apply {see : Observer ω} {o : RenderOp} {x : SessionM ω o.Answer} {a : o.Answer}
    {s' : Session ω} (h : x s = (.ok a, s')) :
    (do let a ← x; SessionM.see see (.answered o a); pure a : SessionM ω o.Answer) s =
      (.ok a, s'.seen see (.answered o a)) := by
  rw [bind_apply, h]
  rfl

end SessionM

namespace Engine

variable {e : Engine ω} {see : Observer ω} {scope : MemoScope} {id owner : String}
  {script : Script} {s s' : Session ω}

theorem functionsSeen_of_once {fs : List ScriptFunction}
    (h : functionsOnce scope id (e.services.functions owner script) s = (.ok fs, s')) :
    e.functionsSeen see scope id owner script s =
      (.ok fs, s'.seen see (.answered (.functions scope id owner script) fs)) :=
  answered_apply (o := .functions scope id owner script) h

/-- What is kept is answered without a call. -/
theorem functionsSeen_of_kept {fs : List ScriptFunction} (hm : s.memo.get? scope id = some fs) :
    e.functionsSeen see scope id owner script s =
      (.ok fs, s.seen see (.answered (.functions scope id owner script) fs)) :=
  functionsSeen_of_once (functionsOnce_of_kept hm)

/-- What a call gives is kept and answered. -/
theorem functionsSeen_of_some {fs : List ScriptFunction} (hm : s.memo.get? scope id = none)
    (hcall : callOrReport (e.services.functions owner script) s = (.ok (some fs), s')) :
    e.functionsSeen see scope id owner script s =
      (.ok fs, { s' with memo := s'.memo.insert scope id fs }.seen see
        (.answered (.functions scope id owner script) fs)) := by
  have honce : functionsOnce scope id (e.services.functions owner script) s =
      (.ok fs, { s' with memo := s'.memo.insert scope id fs }) := by
    rw [functionsOnce_of_missing hm, hcall]
  exact functionsSeen_of_once honce

/-- Without functions there are none. -/
theorem functionsSeen_of_none (hm : s.memo.get? scope id = none)
    (hcall : callOrReport (e.services.functions owner script) s = (.ok none, s')) :
    e.functionsSeen see scope id owner script s =
      (.ok [], s'.seen see (.answered (.functions scope id owner script) [])) := by
  refine functionsSeen_of_once ?_
  rw [functionsOnce_of_missing hm, hcall]

theorem functionsSeen_of_error {err : RenderError} (hm : s.memo.get? scope id = none)
    (hcall : callOrReport (e.services.functions owner script) s = (.error err, s')) :
    e.functionsSeen see scope id owner script s = (.error err, s') := by
  have honce : functionsOnce scope id (e.services.functions owner script) s = (.error err, s') := by
    rw [functionsOnce_of_missing hm, hcall]
  unfold functionsSeen
  rw [bind_apply, honce]
  rfl

end Engine

/-! ## 3. Transcripts follow courses -/

/-- Collaborators that give what a contract promises. -/
structure Services.KeepPromises (K : Contract) (s : Services ω) : Prop where
  object : ∀ id w o, (s.object id w).result = .ok o → K.object id o
  dialog : ∀ id w x, (s.dialog id w).result = .ok (some x) → K.dialog id x

/-- A render with a transcript that follows a course, beside the render without. -/
def Likeness.course (K : Contract) (e : Engine ω) (d₀ : Nat) (memo₀ : FunctionMemo) :
    Likeness (ω × Transcript) ω :=
  .worlds fun d memo w₁ w₂ => w₁.1 = w₂ ∧ Course K e d₀ memo₀ d memo w₁.2

theorem answersAlike_course {c : Call ω α} (made : Except ServiceError α → CallMade)
    {P : Option α → Prop} (hP : ∀ w, P (c w).result.toOption) :
    (Likeness.course K e d₀ memo₀).AnswersAlike d P (c.onLeft.seen .scribe made) c := by
  rintro ⟨⟨w, T⟩, memo, cancelled⟩ ⟨_, _, _⟩ ⟨rfl, rfl, rfl, hc⟩ - -
  exact ⟨rfl, hP w, rfl, rfl, rfl, hc.called _ _ _⟩

/-- What is kept, what is derived and what cannot be had are three ways to go on. -/
theorem functionsSeen_course {scope : MemoScope} {id owner : String} {script : Script}
    (hs : K.script scope id owner script) :
    SessionM.Alike (.course K e d₀ memo₀) d (fun _ => True)
      (e.transcribing.functionsSeen .scribe scope id owner script)
      (e.functionsSeen .blind scope id owner script) := by
  rintro ⟨⟨w, T⟩, log, memo, cancelled⟩ ⟨w', log', memo', cancelled'⟩ hlog
    ⟨hmemo, hcancelled, hw, hc⟩
  obtain rfl : log = log' := hlog
  obtain rfl : memo = memo' := hmemo
  obtain rfl : cancelled = cancelled' := hcancelled
  obtain rfl : w = w' := hw
  have hc : Course K e d₀ memo₀ d memo T := hc
  cases hm : memo.get? scope id with
  | some fs =>
    rw [Engine.functionsSeen_of_kept hm, Engine.functionsSeen_of_kept hm]
    refine .goesOn rfl (fun _ _ => trivial) (fun _ _ => trivial) rfl ⟨rfl, rfl, rfl, ?_⟩
    exact hc.known owner script hs hm
  | none =>
    cases cancelled with
    | true =>
      rw [Engine.functionsSeen_of_error hm (callOrReport_of_cancelled rfl),
        Engine.functionsSeen_of_error hm (callOrReport_of_cancelled rfl)]
      exact .goesOn rfl (fun _ _ => trivial) (fun _ _ => trivial) rfl ⟨rfl, rfl, rfl, hc⟩
    | false =>
      have hcalled := hc.called .script (owner ++ "/" ++ script.name)
        (e.services.functions owner script w).cancels
      cases hr : (e.services.functions owner script w).result with
      | ok fs =>
        rw [Engine.functionsSeen_of_some hm (callOrReport_of_ok rfl hr),
          Engine.functionsSeen_of_some hm (callOrReport_of_ok rfl hr)]
        refine .goesOn rfl (fun _ _ => trivial) (fun _ _ => trivial) rfl ⟨rfl, rfl, rfl, ?_⟩
        exact hcalled.derived hs hm ⟨w, hr⟩
      | error err =>
        rw [Engine.functionsSeen_of_none hm (callOrReport_of_error rfl hr),
          Engine.functionsSeen_of_none hm (callOrReport_of_error rfl hr)]
        refine .goesOn rfl (fun _ _ => trivial) (fun _ _ => trivial) rfl ⟨rfl, rfl, rfl, ?_⟩
        exact hcalled.underived hs hm ⟨w, hr⟩

namespace Engine

theorem agree_transcribing (hkeeps : ∀ r ∈ e.resolvers, r.Keeps K)
    (hpromises : e.services.KeepPromises K) :
    e.transcribing.Agree (.course K e d₀ memo₀) K .scribe .blind e where
  resolvers := rfl
  maxDepth := rfl
  projectId := rfl
  escape := rfl
  keeps := hkeeps
  fails _ _ := trivial
  cancel _ _ _ _ hs := ⟨hs.1, rfl, hs.2.2⟩
  keep hk hs :=
    ⟨congrArg (FunctionMemo.insert · _ _ _) hs.1, hs.2.1, hs.2.2.1, hs.2.2.2.keeps _ _ _ hk⟩
  object d id := by
    refine answersAlike_course (.object id) fun w o ho => ?_
    cases hr : (e.services.object id w).result with
    | ok o' =>
      rw [hr] at ho
      exact hpromises.object id w o (hr.trans (congrArg Except.ok (Option.some.inj ho)))
    | error err =>
      rw [hr] at ho
      cases ho
  dialog d id := by
    refine answersAlike_course (.dialog id) fun w x hx => ?_
    cases hr : (e.services.dialog id w).result with
    | ok found =>
      rw [hr] at hx
      exact hpromises.dialog id w x (hr.trans (congrArg Except.ok hx))
    | error err =>
      rw [hr] at hx
      cases hx
  languageKey d r _ := answersAlike_course (.languageKey r) fun _ => trivial
  functions d scope id owner script hs := functionsSeen_course hs
  template d projectId kind := answersAlike_course (.template projectId kind) fun _ => trivial
  resolver hs _ _ := ⟨hs.1, hs.2.1, hs.2.2.1, hs.2.2.2.resolver _ _ _⟩
  begins hd hs _ _ := ⟨hs.1, hs.2.1, hs.2.2.1, hs.2.2.2.begins _ hd⟩
  ends h₀ hs := ⟨hs.1, hs.2.1, hs.2.2.1, hs.2.2.2.ends h₀.2.2.2.le⟩
  stopped hs := hs
  answered helse ho hx ht hs := ⟨hs.1, hs.2.1, hs.2.2.1, hs.2.2.2.answered _ _ helse ho hx ht⟩

/-- **A transcript changes nothing and follows a course.** -/
theorem transcribed_course (hkeeps : ∀ r ∈ e.resolvers, r.Keeps K)
    (hpromises : e.services.KeepPromises K) (kind : ArtifactKind) {c : RenderContext}
    (hc : K.context c) (t : Text) (w : ω) (cancelled : Bool) :
    let seen := e.transcribed kind c t w cancelled
    (seen.1, seen.2.1) = e.render kind c t w cancelled ∧
      ∃ memo, Course K e 0 .empty 0 memo seen.2.2 := by
  intro seen
  have hstart : (Likeness.course K e 0 .empty).same 0 ⟨(w, []), .empty, cancelled⟩
      ⟨w, .empty, cancelled⟩ := ⟨rfl, rfl, rfl, .start⟩
  have hend := renderSeen_alike (agree_transcribing hkeeps hpromises) kind hc t hstart
  rw [renderSeen_blind] at hend
  cases hend with
  | goesOn result _ same =>
    obtain ⟨⟨w₁, memo, c₁⟩, ⟨w₂, memo₂, c₂⟩, ⟨-, -, hw, hcourse⟩, ha, hb⟩ := same
    obtain rfl : w₁ = seen.2 := ha
    exact ⟨Prod.ext result (hw.trans hb), memo, hcourse⟩
  | stops _ stopped => exact stopped.elim fun _ hs => hs.1.elim

/-- **A nested render from any state**: its transcript changes nothing, and it follows a course that
    ends as deep as it began. -/
theorem nestedSeen_course (hkeeps : ∀ r ∈ e.resolvers, r.Keeps K)
    (hpromises : e.services.KeepPromises K) (d : Nat) (r : RenderRequest)
    (hr : K.context r.context) (s : Session ω) :
    let seen := e.transcribing.nestedSeen .scribe (e.maxDepth - d) r
      ⟨(s.world, []), s.log, s.memo, s.cancelled⟩
    let plain := e.nested (e.maxDepth - d) r s
    ∃ T, seen = (plain.1, ⟨(plain.2.world, T), plain.2.log, plain.2.memo, plain.2.cancelled⟩) ∧
      Course K e d s.memo d plain.2.memo T := by
  intro seen plain
  have hstart : (Likeness.course K e d s.memo).same d ⟨(s.world, []), s.memo, s.cancelled⟩
      s.shared := ⟨rfl, rfl, rfl, .start⟩
  have hend := nestedSeen_alike (agree_transcribing hkeeps hpromises) (e.maxDepth - d) rfl r hr
    ⟨(s.world, []), s.log, s.memo, s.cancelled⟩ s rfl hstart
  rw [nestedSeen_blind] at hend
  cases hend with
  | goesOn result _ _ log same =>
    obtain ⟨hmemo, hcancelled, hw, hcourse⟩ := same
    have hlog : seen.2.log = plain.2.log := log
    have hmemo : seen.2.memo = plain.2.memo := hmemo
    have hcancelled : seen.2.cancelled = plain.2.cancelled := hcancelled
    have hw : seen.2.world.1 = plain.2.world := hw
    refine ⟨seen.2.world.2, Prod.ext result ?_, ?_⟩
    · rw [← hw, ← hlog, ← hmemo, ← hcancelled]
    · rw [← hmemo]
      exact hcourse
  | stops _ stopped => exact stopped.elim

end Engine
end RecordExport

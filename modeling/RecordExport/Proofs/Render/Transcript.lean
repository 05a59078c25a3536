import RecordExport.Render.Engine
import RecordExport.Service.Rehearsal
/-!
# Transcripts of renders

What goes on in a render cannot be read off its text. So renders are also run under an OBSERVER, who
sees each resolver get its text, each nested render begin and end, each call to a collaborator and each
answer to a program, together with the labels active there and the functions kept, and who may write into
the world what he sees. A TRANSCRIPT is what an observer wrote down who writes down everything.

* an observed render is the render's own steps with the observer told in between: what comes after a
  checkpoint is seen once the checkpoint was passed, and the end of a nested render is seen however it
  ends;
* `renderSeen_blind`: under an observer who does nothing it is the render itself;
* `Engine.journal`: an observer may keep a JOURNAL beside the world, of which a transcript is one. That
  no journal changes anything is shown once, of all of them (`Engine.journal_fst`).
-/

namespace RecordExport

/-! ## 1. Events -/

/-- What an observer sees of a render. -/
inductive RenderEvent where
  /-- a resolver gets a text -/
  | resolver (kind : ArtifactKind) (name : String) (given : Text)
  /-- a nested render begins -/
  | begins (r : RenderRequest)
  /-- the nested render that began last ends -/
  | ends
  /-- a collaborator was called, and the call may have cancelled the render -/
  | called (site : CallSite) (id : String) (cancels : Bool)
  /-- a program was answered -/
  | answered (o : RenderOp) (x : o.Answer)

/-- A call to a collaborator with what was given. -/
inductive CallMade where
  | object (id : String) (result : Except ServiceError GameObject)
  | dialog (objectId : String) (result : Except ServiceError (Option Dialog))
  | languageKey (r : KeyRequest) (result : Except ServiceError String)
  | functions (owner : String) (script : Script) (result : Except ServiceError (List ScriptFunction))
  | template (projectId : String) (kind : ArtifactKind) (result : Except ServiceError DefaultTemplate)

namespace CallMade

/-- The collaborator that was called. -/
def site : CallMade → CallSite
  | .object _ _ => .object
  | .dialog _ _ => .dialog
  | .languageKey _ _ => .key
  | .functions _ _ _ => .script
  | .template _ _ _ => .template

/-- What the call was about. -/
def id : CallMade → String
  | .object id _ => id
  | .dialog objectId _ => objectId
  | .languageKey r _ => r.trace
  | .functions owner script _ => owner ++ "/" ++ script.name
  | .template projectId kind _ => projectId ++ "/" ++ kind.tag

end CallMade

/-- What becomes of the world when something is seen. -/
structure Observer (ω : Type) where
  /-- a collaborator was called, and the call may have cancelled the render -/
  called : CallMade → (cancels : Bool) → ω → ω
  /-- something else happens, under these labels and while these functions are kept -/
  happens : (labels : List String) → FunctionMemo → RenderEvent → ω → ω

/-- An observer who does nothing. -/
def Observer.blind {ω : Type} : Observer ω := ⟨fun _ _ w => w, fun _ _ _ w => w⟩

/-- It makes no difference to the observer when a resolver gets its text. -/
def Observer.SkipsTurns {ω : Type} (see : Observer ω) : Prop :=
  ∀ labels memo kind name given w, see.happens labels memo (.resolver kind name given) w = w

/-- An observer who leaves the world alone and writes beside it. -/
def Observer.beside {ω σ : Type} (see : Observer σ) : Observer (ω × σ) where
  called m cancels w := (w.1, see.called m cancels w.2)
  happens labels memo ev w := (w.1, see.happens labels memo ev w.2)

/-- What was seen so far, the latest last. -/
abbrev Transcript := List RenderEvent

/-- What is read off a list after one more entry. -/
theorem filterMap_concat {α β : Type} (f : α → Option β) (l : List α) (a : α) :
    (l ++ [a]).filterMap f = l.filterMap f ++ (f a).toList := by
  rw [List.filterMap_append, List.filterMap_cons]
  cases f a <;> rfl

theorem filterMap_concat_of_none {α β : Type} {f : α → Option β} (l : List α) {a : α} (h : f a = none) :
    (l ++ [a]).filterMap f = l.filterMap f := by
  rw [filterMap_concat, h]
  exact List.append_nil _

/-- An observer who writes down everything. -/
def Observer.writer : Observer Transcript where
  called m cancels T := T ++ [.called m.site m.id cancels]
  happens _ _ ev T := T ++ [ev]

/-- He does so beside a world. -/
abbrev Observer.scribe {ω : Type} : Observer (ω × Transcript) := Observer.writer.beside

variable {ω σ α : Type}

/-! ## 2. Calls -/

/-- A call that is seen once it was answered. -/
def Call.seen (see : Observer ω) (made : Except ServiceError α → CallMade) (c : Call ω α) : Call ω α :=
  fun w =>
    let r := c w
    { r with world := see.called (made r.result) r.cancels r.world }

/-- A call that leaves no trace is as good as unseen. -/
theorem Call.seen_of_unnoticed {see : Observer σ} {made : Except ServiceError α → CallMade}
    (h : ∀ result cancels a, see.called (made result) cancels a = a) (c : Call ω α) :
    c.onLeft.seen see.beside made = c.onLeft := by
  funext w
  show (⟨_, _, (_, see.called _ _ w.2)⟩ : Reply (ω × σ) α) = _
  rw [h]
  rfl

/-- The same collaborators under an observer. -/
def Services.seen (see : Observer ω) (s : Services ω) : Services ω where
  object id := (s.object id).seen see (.object id)
  dialog objectId := (s.dialog objectId).seen see (.dialog objectId)
  languageKey r := (s.languageKey r).seen see (.languageKey r)
  functions owner script := (s.functions owner script).seen see (.functions owner script)
  template projectId kind := (s.template projectId kind).seen see (.template projectId kind)
  projectId := s.projectId
  escape := s.escape

/-! ## 3. Steps -/

/-- The session once an event was seen. -/
def Session.seen (see : Observer ω) (ev : RenderEvent) (s : Session ω) : Session ω :=
  { s with world := see.happens s.log.breadcrumb s.memo ev s.world }

namespace SessionM

/-- An event is seen. -/
def see (see : Observer ω) (ev : RenderEvent) : SessionM ω Unit := modify fun s => s.seen see ev

/-- A step is seen as a nested render. -/
def nesting (see : Observer ω) (r : RenderRequest) (x : SessionM ω α) : SessionM ω α := fun s =>
  let (a, s) := x (s.seen see (.begins r))
  (a, s.seen see .ends)

theorem nesting_blind (r : RenderRequest) (x : SessionM ω α) : nesting .blind r x = x := rfl

/-- A step behind a checkpoint. -/
theorem checkpoint_bind_apply (x : SessionM ω α) (s : Session ω) :
    (checkpoint >>= fun _ => x) s = if s.cancelled then (.error .cancelled, s) else x s := by
  have hb : (checkpoint >>= fun _ => x) s =
      ExceptT.bindCont (fun _ => x) ((checkpoint : SessionM ω Unit) s).1 (checkpoint s).2 := rfl
  rw [hb]
  cases hs : s.cancelled with
  | true =>
    have hc : (checkpoint : SessionM ω Unit) s = (.error .cancelled, s) := by
      show (ite (s.cancelled = true) (throw .cancelled) (pure ()) : SessionM ω Unit) s = _
      rw [hs]
      rfl
    rw [hc]
    rfl
  | false =>
    have hc : (checkpoint : SessionM ω Unit) s = (.ok (), s) := by
      show (ite (s.cancelled = true) (throw .cancelled) (pure ()) : SessionM ω Unit) s = _
      rw [hs]
      rfl
    rw [hc]
    rfl

/-- A checkpoint that was passed is passed again. -/
theorem checkpoint_twice (x : SessionM ω α) :
    (checkpoint >>= fun _ => checkpoint >>= fun _ => x) = (checkpoint >>= fun _ => x) := by
  funext s
  rw [checkpoint_bind_apply, checkpoint_bind_apply]
  cases s.cancelled <;> rfl

end SessionM

/-! ## 4. Renders -/

namespace Engine

/-- The engine with its collaborators under an observer. -/
def observed (see : Observer ω) (e : Engine ω) : Engine ω :=
  { e with services := e.services.seen see }

/-- Answer an operation, and the answer is seen. -/
def answerSeen (e : Engine ω) (see : Observer ω) (nested : NestedRender ω) (depth : Nat)
    (o : RenderOp) : SessionM ω o.Answer := do
  let x ← e.answer nested depth o
  SessionM.see see (.answered o x)
  pure x

/-- Let a resolver change a text, which is seen unless the render was cancelled. -/
def attemptSeen (see : Observer ω) (answer : (o : RenderOp) → SessionM ω o.Answer)
    (kind : ArtifactKind) (c : RenderContext) (t : Text) (r : Resolver) : SessionM ω Text := do
  SessionM.checkpoint
  SessionM.see see (.resolver kind r.name t)
  attempt answer kind c t r

/-- Report the issues of a text and let every applicable resolver change it, each seen. -/
def passSeen (e : Engine ω) (see : Observer ω) (answer : (o : RenderOp) → SessionM ω o.Answer)
    (kind : ArtifactKind) (c : RenderContext) (t : Text) : SessionM ω Text := do
  (e.validate t).forM fun i => SessionM.record .malformedTemplate (issueDetail i)
  (e.applicable kind).foldlM (attemptSeen see answer kind c) t

/-- Nested renders with so many levels left, each seen unless there is none. -/
def nestedSeen (e : Engine ω) (see : Observer ω) : (left : Nat) → NestedRender ω
  | 0, _ => do
    SessionM.checkpoint
    pure (.error (.depthExceeded e.maxDepth))
  | left + 1, r => do
    SessionM.checkpoint
    let answer := e.answerSeen see (e.nestedSeen see left) (e.maxDepth - left)
    let inner := SessionM.isolated r.label (e.passSeen see answer r.kind r.context r.text)
    let t ← SessionM.nesting see r inner
    pure (.ok t)

/-- **Render a template under an observer.** -/
def renderSeen (e : Engine ω) (see : Observer ω) (kind : ArtifactKind) (c : RenderContext)
    (t : Text) (w : ω) (cancelled : Bool) : Except RenderError RenderOutput × ω :=
  let answer := e.answerSeen see (e.nestedSeen see e.maxDepth) 0
  let (r, s) := (e.passSeen see answer kind c t).run (Session.start w cancelled)
  (r.map fun t => ⟨t, s.log.entries⟩, s.world)

/-- The engine in a world beside which an observer writes. -/
def journaling (e : Engine ω) (see : Observer σ) : Engine (ω × σ) :=
  observed see.beside ⟨e.resolvers, e.services.onLeft, e.maxDepth⟩

/-- **A render with a journal**, begun with `a`. -/
def journal (e : Engine ω) (see : Observer σ) (a : σ) (kind : ArtifactKind) (c : RenderContext)
    (t : Text) (w : ω) (cancelled : Bool) : Except RenderError RenderOutput × (ω × σ) :=
  (e.journaling see).renderSeen see.beside kind c t (w, a) cancelled

/-- The engine in a world where transcripts are written. -/
abbrev transcribing (e : Engine ω) : Engine (ω × Transcript) := e.journaling .writer

/-- **A render with its transcript.** -/
def transcribed (e : Engine ω) (kind : ArtifactKind) (c : RenderContext) (t : Text) (w : ω)
    (cancelled : Bool) : Except RenderError RenderOutput × (ω × Transcript) :=
  e.journal .writer [] kind c t w cancelled

/-! ## 5. Observers who see less -/

theorem answerSeen_blind (e : Engine ω) (nested : NestedRender ω) (depth : Nat) :
    e.answerSeen .blind nested depth = e.answer nested depth := by
  funext o
  show (e.answer nested depth o >>= fun x => pure () >>= fun _ => pure x) = _
  simp only [pure_bind, bind_pure]

theorem attemptSeen_of_skips {see : Observer ω} (h : see.SkipsTurns)
    (answer : (o : RenderOp) → SessionM ω o.Answer) (kind : ArtifactKind) (c : RenderContext) :
    attemptSeen see answer kind c = attempt answer kind c := by
  funext t r
  have hsee : (SessionM.see see (.resolver kind r.name t) : SessionM ω Unit) = pure () := by
    funext s
    show (Except.ok (), s.seen see (.resolver kind r.name t)) = (Except.ok (), s)
    unfold Session.seen
    rw [h]
  unfold attemptSeen attempt
  rw [hsee, pure_bind]
  exact SessionM.checkpoint_twice _

theorem passSeen_of_skips {see : Observer ω} (h : see.SkipsTurns) (e : Engine ω)
    (answer : (o : RenderOp) → SessionM ω o.Answer) : e.passSeen see answer = e.passWith answer := by
  funext kind c t
  unfold passSeen passWith
  rw [attemptSeen_of_skips h]

theorem passSeen_blind (e : Engine ω) (answer : (o : RenderOp) → SessionM ω o.Answer) :
    e.passSeen .blind answer = e.passWith answer := passSeen_of_skips (fun _ _ _ _ _ _ => rfl) e answer

theorem nestedSeen_blind (e : Engine ω) (left : Nat) : e.nestedSeen .blind left = e.nested left := by
  induction left with
  | zero => rfl
  | succ left ih =>
    funext r
    unfold nestedSeen nested
    dsimp only
    rw [ih, answerSeen_blind, passSeen_blind, SessionM.nesting_blind]

theorem renderSeen_blind (e : Engine ω) : e.renderSeen .blind = e.render := by
  have hpass : e.passSeen .blind (e.answerSeen .blind (e.nestedSeen .blind e.maxDepth) 0) =
      e.pass e.maxDepth := by
    funext kind c t
    unfold pass
    rw [nestedSeen_blind, answerSeen_blind, passSeen_blind, Nat.sub_self]
  funext kind c t w cancelled
  exact congrArg (fun pass : ArtifactKind → RenderContext → Text → SessionM ω Text =>
    let (r, s) := (pass kind c t).run (Session.start w cancelled)
    (r.map fun t => (⟨t, s.log.entries⟩ : RenderOutput), s.world)) hpass

end Engine
end RecordExport

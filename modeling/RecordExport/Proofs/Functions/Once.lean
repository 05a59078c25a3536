import RecordExport.Proofs.Functions.Ledger
import RecordExport.Proofs.Functions.Printed
/-!
# Functions are derived once in a render

Dialogs, events and snippets are asked for from many places: from loops over snippets and events, and from
renders nested in the one that asks. Functions of a dialog are derived by renders of their own, between the
look at what is kept and the moment they are kept. Still the ledger of a render is consistent.

* `Enters`: a step that keeps the ledger right, `EntersApart`: and keeps no functions of a dialog;
* `Engine.apart_nestedEntered`: no nested render keeps functions of a dialog, so what was missing before a
  dialog's functions were derived is missing after it;
* `Engine.derivesOnce_standard`: **the standard resolvers derive functions once.**
-/

namespace RecordExport

variable {ω α : Type}

open SessionM

/-! ## 1. Steps that enter what they do -/

/-- The ledger is right about what is kept, and nothing was called for that is not answered. -/
structure Shared.Kept (a : Shared (WithLedger ω)) : Prop where
  given : a.world.2.given = none
  ledger : a.world.2.ledger.Kept a.memo

/-- A step that keeps the ledger right. -/
def Enters (s s' : Session (WithLedger ω)) : Prop := s.shared.Kept → s'.shared.Kept

/-- A step that keeps the ledger right, and keeps no functions of a dialog. -/
def EntersApart (s s' : Session (WithLedger ω)) : Prop :=
  Enters s s' ∧ ∀ id, s'.memo.get? .dialog id = s.memo.get? .dialog id

theorem stepRelation_enters : StepRelation (Enters (ω := ω)) :=
  .shared (Q := fun a b => a.Kept → b.Kept) (fun _ h => h) fun h₁ h₂ h => h₂ (h₁ h)

theorem stepRelation_apart : StepRelation (EntersApart (ω := ω)) :=
  .shared (Q := fun a b => (a.Kept → b.Kept) ∧ ∀ id, b.memo.get? .dialog id = a.memo.get? .dialog id)
    (fun _ => ⟨fun h => h, fun _ => rfl⟩)
    fun h₁ h₂ => ⟨fun h => h₂.1 (h₁.1 h), fun id => (h₂.2 id).trans (h₁.2 id)⟩

theorem SessionM.Leads.enters {x : SessionM (WithLedger ω) α} (h : Leads EntersApart x) : Leads Enters x :=
  h.mono fun _ _ h => h.1

theorem apart_record (kind : DiagnosticKind) (detail : String) :
    Leads (EntersApart (ω := ω)) (record kind detail) := stepRelation_apart.refl

theorem apart_of_eq {s s' : Session (WithLedger ω)} (hledger : s'.world.2 = s.world.2)
    (hmemo : s'.memo = s.memo) : EntersApart s s' := by
  refine ⟨fun h => ⟨(congrArg OpenLedger.given hledger).trans h.given, ?_⟩, fun id => by rw [hmemo]⟩
  show s'.world.2.ledger.Kept s'.memo
  rw [hledger, hmemo]
  exact h.ledger

/-- Other calls than those to derive functions leave the ledger and what is kept alone. -/
theorem lead_apart (services : Services ω) :
    (services.onLeft.seen Observer.clerk.beside).Lead (EntersApart (ω := ω)) where
  object _ := leads_call stepRelation_apart fun _ => apart_of_eq rfl rfl
  dialog _ := leads_call stepRelation_apart fun _ => apart_of_eq rfl rfl
  languageKey _ := leads_call stepRelation_apart fun _ => apart_of_eq rfl rfl
  template _ _ := leads_call stepRelation_apart fun _ => apart_of_eq rfl rfl
  report _ := apart_record _ _

namespace Engine

section Functions

variable {e : Engine ω} {nested : NestedRender (WithLedger ω)} {d : Nat} {scope : MemoScope} {id : String}
  {s : Session (WithLedger ω)} {fs : List ScriptFunction}

/-- Who looks at what is kept is told, and it is entered if there is something. -/
theorem recall_apply (e : Engine ω) (nested : NestedRender (WithLedger ω)) (d : Nat) (scope : MemoScope)
    (id : String) (s : Session (WithLedger ω)) :
    e.answerEntered nested d (.recall scope id) s = (.ok (s.memo.get? scope id),
      s.seen Observer.clerk.beside (.answered (.recall scope id) (s.memo.get? scope id))) := rfl

theorem recall_of_missing (hm : s.memo.get? scope id = none) :
    e.answerEntered nested d (.recall scope id) s = (.ok none, s) := by
  rw [recall_apply, hm]
  rfl

theorem apart_recall (e : Engine ω) (nested : NestedRender (WithLedger ω)) (d : Nat) (scope : MemoScope)
    (id : String) : Leads (EntersApart (ω := ω)) (e.answerEntered nested d (.recall scope id)) := by
  intro s
  rw [recall_apply]
  cases hm : s.memo.get? scope id with
  | some fs => exact ⟨fun h => ⟨rfl, h.ledger.entry (.known hm)⟩, fun _ => rfl⟩
  | none => exact stepRelation_apart.refl s

/-- Functions may be kept where none are. -/
theorem enters_keep (hm : s.memo.get? scope id = none) :
    Enters s (e.answerEntered nested d (.keep scope id fs) s).2 :=
  fun h => ⟨rfl, h.ledger.entry (.derived fs hm)⟩

/-- **The functions of a script are entered as they are known, derived or not to be had.** -/
theorem apart_functions (e : Engine ω) (nested : NestedRender (WithLedger ω)) (d : Nat)
    (hscope : scope ≠ .dialog) (id owner : String) (script : Script) :
    Leads EntersApart (e.answerEntered nested d (.functions scope id owner script)) := by
  intro s
  show EntersApart s (e.withLedger.functionsSeen Observer.clerk.beside scope id owner script s).2
  let c : Call (WithLedger ω) (List ScriptFunction) := e.withLedger.services.functions owner script
  have hworld : (c s.world).world = ((e.services.functions owner script s.world.1).world,
      { s.world.2 with given := some (c s.world).result }) := rfl
  cases hm : s.memo.get? scope id with
  | some fs =>
    rw [functionsSeen_of_kept hm]
    refine ⟨fun h => ⟨rfl, ?_⟩, fun _ => rfl⟩
    have hgiven : s.world.2.given = none := h.given
    have hevent : s.world.2.event fs = .known fs := by
      unfold OpenLedger.event
      rw [hgiven]
    show Ledger.Kept (s.world.2.ledger ++ [⟨scope, id, s.world.2.event fs, s.memo⟩]) s.memo
    rw [hevent]
    exact h.ledger.entry (.known hm)
  | none =>
    cases hs : s.cancelled with
    | true =>
      rw [functionsSeen_of_error hm (callOrReport_of_cancelled hs)]
      exact stepRelation_apart.refl s
    | false =>
      cases hr : (c s.world).result with
      | ok fs =>
        rw [functionsSeen_of_some hm (callOrReport_of_ok hs hr), hworld, hr]
        refine ⟨fun h => ⟨rfl, h.ledger.entry (.derived fs hm)⟩, fun id' => ?_⟩
        have hne : (MemoScope.dialog, id') ≠ (scope, id) := fun h => hscope (Prod.mk.inj h).1.symm
        show (s.memo.insert scope id fs).get? .dialog id' = _
        rw [FunctionMemo.get?_insert, if_neg hne]
      | error err =>
        rw [functionsSeen_of_none hm (callOrReport_of_error hs hr), hworld, hr]
        exact ⟨fun h => ⟨rfl, h.ledger.entry (.failed err hm)⟩, fun _ => rfl⟩

end Functions

end Engine

/-! ## 2. Renders -/

namespace Engine

section Standard

variable {services : Services ω} {n left d : Nat} {nested : NestedRender (WithLedger ω)}
  {kind : ArtifactKind} {c : RenderContext} {t : Text}

/-- What the standard resolvers may ask for, besides keeping functions of a dialog. -/
theorem apart_answerEntered (services : Services ω) (n d : Nat)
    (hn : LeadsInside EntersApart nested) :
    let answer := (Engine.standard services n).answerEntered nested d
    (∀ o : RenderOp, o.IsPlain → Leads EntersApart (answer o)) ∧
      (∀ inner : ArtifactKind, inner.height < 2 → ∀ c label,
        Leads EntersApart (answer (.artifact inner c label))) ∧
      ∀ scope, scope ≠ .dialog → ∀ id owner script,
        Leads EntersApart (answer (.functions scope id owner script)) := by
  intro answer
  have hR := stepRelation_apart (ω := ω)
  refine ⟨fun o ho => ?_, fun inner hinner c label => ?_, fun scope hscope id owner script => ?_⟩
  · have hplain := leads_answer_plain (Engine.standard services n).withLedger nested d hR
      (lead_apart services) (fun kind detail _ => apart_record kind detail) o ho
    refine leads_answerSeen hR hplain fun x => ?_
    cases o with
    | object | dialog | languageKey | settings | record => exact leads_pure hR ()
    | _ => exact ho.elim
  · have hartifact : Leads EntersApart ((Engine.standard services n).withLedger.artifact nested inner c label) :=
      leads_artifact hR (lead_apart services) (fun r hr => hn r (hr ▸ hinner))
        (fun _ _ _ _ _ => apart_record _ _) label
    exact leads_answerSeen hR hartifact fun _ => leads_pure hR ()
  · exact apart_functions _ nested d hscope id owner script

/-- **A render that is not of a character keeps no functions of a dialog.** -/
theorem apart_passEntered (services : Services ω) (n d : Nat) (hkind : kind.height < 2)
    (hn : LeadsInside EntersApart nested) :
    let e := Engine.standard services n
    Leads EntersApart (e.withLedger.passSeen Observer.clerk.beside (e.answerEntered nested d) kind c t) := by
  intro e
  obtain ⟨hplain, hartifact, hfunctions⟩ := apart_answerEntered services n d hn
  have hR := stepRelation_apart (ω := ω)
  refine leads_standard (services.onLeft.seen Observer.clerk.beside) n hR hplain (fun _ _ _ => apart_record _ _)
    (fun _ _ => leads_pure hR ()) (fun topic happlies inner hinner => hartifact inner ?_)
    (fun topic _ scope hscope => hfunctions scope (Topic.ne_dialog_of_scope? scope hscope)) fun hnpc => ?_
  · exact (Topic.height_lt_of_inside happlies inner hinner).trans hkind
  · subst hnpc
    exact absurd hkind (by decide)

/-- Nested renders, by induction on the levels left. -/
theorem apart_nestedEntered (left : Nat) :
    LeadsInside EntersApart ((Engine.standard services n).nestedEntered left) := by
  have hR := stepRelation_apart (ω := ω)
  induction left with
  | zero => exact fun r hr => leads_checkpoint_bind hR fun s _ => hR.refl s
  | succ left ih =>
    intro r hr
    refine leads_checkpoint_bind hR fun s _ => ?_
    have hpass := apart_passEntered services n (n - left) (c := r.context) (t := r.text) hr ih
    have hbegins : Leads (EntersApart (ω := ω)) (see Observer.clerk.beside (.begins r)) := leads_pure hR ()
    have hnested := (hpass.isolated hR r.label).nesting hR hbegins (leads_pure hR ())
    exact hnested.bind hR (fun _ => leads_pure hR _) s

/-- **The functions of a dialog are kept where none are**: while they are derived no others are kept. -/
theorem enters_dialogFunctions (hn : LeadsInside EntersApart nested) (npc : GameObject)
    (dialog : Dialog) :
    Leads Enters (run ((Engine.standard services n).answerEntered nested d) (dialogFunctions npc dialog)) := by
  obtain ⟨hplain, hartifact, -⟩ := apart_answerEntered services n d hn
  have hR := stepRelation_enters (ω := ω)
  have hderivation := (composed_leads stepRelation_apart hplain).derivation (fun step c label hstep =>
    leads_request (hartifact step (ArtifactKind.height_of_isDialogStep hstep) c label))
    (fun _ _ => leads_request (apart_record _ _)) npc dialog
  unfold dialogFunctions
  rw [run_derivedOnce]
  intro s
  refine leads_bind_of hR (apart_recall _ nested d .dialog dialog.id s).1 fun known hknown => ?_
  rw [recall_apply] at hknown
  obtain rfl := Except.ok.inj hknown
  cases hm : s.memo.get? .dialog dialog.id with
  | some fs => exact hR.refl _
  | none =>
    rw [recall_of_missing hm]
    obtain ⟨hentered, hapart⟩ := hderivation s
    refine leads_bind_of hR hentered fun fs _ => ?_
    exact leads_bind_of hR (enters_keep ((hapart dialog.id).trans hm)) fun _ _ => hR.refl _

/-- **A render keeps its ledger right.** -/
theorem enters_passEntered (hn : LeadsInside EntersApart nested) :
    let e := Engine.standard services n
    Leads Enters (e.withLedger.passSeen Observer.clerk.beside (e.answerEntered nested d) kind c t) := by
  intro e
  obtain ⟨hplain, hartifact, hfunctions⟩ := apart_answerEntered services n d hn
  have hR := stepRelation_enters (ω := ω)
  exact leads_standard (services.onLeft.seen Observer.clerk.beside) n hR (fun o ho => (hplain o ho).enters)
    (fun _ _ _ => (apart_record _ _).enters) (fun _ _ => leads_pure hR ())
    (fun topic happlies inner hinner c label => (hartifact inner
      (Nat.lt_of_lt_of_le (Topic.height_lt_of_inside happlies inner hinner) kind.height_le) c label).enters)
    (fun topic _ scope hscope id owner script =>
      (hfunctions scope (Topic.ne_dialog_of_scope? scope hscope) id owner script).enters)
    fun _ npc dialog => enters_dialogFunctions hn npc dialog

end Standard

/-! ## 3. Functions are derived once -/

/-- **An engine derives functions once.** -/
structure DerivesOnce (e : Engine ω) : Prop where
  /-- a ledger of a render changes nothing -/
  ledger : ∀ kind c t w cancelled, ((e.renderEntered kind c t w cancelled).1,
    (e.renderEntered kind c t w cancelled).2.1) = e.render kind c t w cancelled
  /-- and is consistent from the first entry on, whatever was rendered before -/
  consistent : ∀ kind c t w cancelled, (e.renderEntered kind c t w cancelled).2.2.Consistent
  /-- what is kept in the end is what was stored -/
  kept : ∀ kind c t w cancelled scope id,
    let s := (e.withLedger.passSeen Observer.clerk.beside (e.answerEntered (e.nestedEntered e.maxDepth) 0)
      kind c t (Session.start (w, .empty) cancelled)).2
    s.world.2.ledger = (e.renderEntered kind c t w cancelled).2.2 ∧
      s.world.2.ledger.stored scope id = (s.memo.get? scope id).toList
  /-- who asks for functions of a script is given what is kept then, or nothing where they cannot be had -/
  functions : ∀ {nested depth scope id owner script s fs s'},
    e.answer nested depth (.functions scope id owner script) s = (.ok fs, s') →
      s'.memo.get? scope id = some fs ∨ fs = [] ∧ s'.memo = s.memo ∧ s.memo.get? scope id = none
  /-- where they are kept already nobody is called for them and nothing is done -/
  again : ∀ {nested depth scope id owner script s fs}, s.memo.get? scope id = some fs →
    e.answer nested depth (.functions scope id owner script) s = (.ok fs, s)
  /-- so it is with the functions of a dialog -/
  dialogs : ∀ {nested depth npc d s fs s'},
    run (e.answer nested depth) (dialogFunctions npc d) s = (.ok fs, s') →
      s'.memo.get? .dialog d.id = some fs
  dialogsAgain : ∀ {nested depth npc d s fs}, s.memo.get? .dialog d.id = some fs →
    run (e.answer nested depth) (dialogFunctions npc d) s = (.ok fs, s)
  /-- the resolvers of what is derived are among the engine's own -/
  resolvers : ∀ topic ∈ [Topic.snippets, .dailyRoutine, .dialog], topic.resolver ∈ e.resolvers
  /-- wherever they render, every placeholder of a snippet prints from what is kept under its key by then -/
  snippets : ∀ {nested depth kind o type referenced t}, kind.objectType?.isSome = true →
    run (e.answer nested depth) (Resolver.snippets.resolve kind ⟨.object o, type, referenced⟩ t) =
      within "Snippets" (printSnippets (e.answer nested depth) o type t)
  /-- so does every placeholder of an event and of all functions of a routine -/
  routines : ∀ {nested depth npc type referenced t},
    run (e.answer nested depth) (Resolver.dailyRoutine.resolve .npc ⟨.object npc, type, referenced⟩ t) =
      if mentions "DailyRoutine_" t then
        within "Daily routine" (printRoutine (e.answer nested depth) npc type t)
      else pure t
  /-- and of a dialog -/
  tales : ∀ {nested depth npc type referenced t},
    run (e.answer nested depth) (Resolver.dialog.resolve .npc ⟨.object npc, type, referenced⟩ t) =
      if mentions "Tale_" t then within "Dialog" (printDialog (e.answer nested depth) npc t) else pure t

/-- **The standard resolvers derive functions once in a render**, whatever its collaborators do. What is kept
    under a key is never replaced, nobody is asked for it again, every placeholder that refers to it later prints
    it, and where a derivation fails nothing is kept. -/
theorem derivesOnce_standard (services : Services ω) (maxDepth : Nat) :
    (Engine.standard services maxDepth).DerivesOnce := by
  let e := Engine.standard services maxDepth
  have hkept : ∀ kind c t w cancelled, (e.withLedger.passSeen Observer.clerk.beside
      (e.answerEntered (e.nestedEntered e.maxDepth) 0) kind c t
        (Session.start (w, .empty) cancelled)).2.shared.Kept := fun kind c t w cancelled =>
    enters_passEntered (apart_nestedEntered e.maxDepth) (Session.start (w, .empty) cancelled) ⟨rfl, .start⟩
  exact
    { ledger := e.renderEntered_fst
      consistent := fun kind c t w cancelled => (hkept kind c t w cancelled).ledger.consistent
      kept := fun kind c t w cancelled scope id =>
        ⟨rfl, (hkept kind c t w cancelled).ledger.stored_eq scope id⟩
      functions := get?_of_functions
      again := functionsOnce_of_kept
      dialogs := get?_of_derivedOnce
      dialogsAgain := derivedOnce_of_kept
      resolvers := fun topic _ => by
        rw [resolvers_standard]
        exact List.mem_map_of_mem (by cases topic <;> decide)
      snippets := fun hkind => run_snippets (givesKept_answer e _ _) hkind _
      routines := run_dailyRoutine (givesKept_answer e _ _) _
      tales := run_dialog (givesKept_answer e _ _) _ }

end Engine
end RecordExport

import RecordExport.Diagnostic
/-!
# Collecting apart and collecting together

A nested render collects into a log of its own, which is merged into its caller's. It could as well write into
the caller's log from the beginning: this file says so for every program of steps on a log.

* `LogStep`: a step goes under a label, goes back to where one of the program's own scopes was taken, records
  an entry, or merges what a nested program collected;
* `LogRun.Beside`: two runs of a program, on a log of its own and on a shared one. The shared labels and
  entries are those of the shared log followed by the program's own, and its scopes are as much deeper as
  there are shared labels, which is why no scope of the program reaches what is not its own;
* `DiagnosticLog.collectsApart`: what was collected apart and merged is what is recorded together, and under a
  label that is left afterwards the two logs are the same in all.
-/

namespace RecordExport

/-! ## 1. Programs -/

/-- A step of a program that keeps a log. -/
inductive LogStep where
  /-- go under a label and keep the scope -/
  | enter (label : String)
  /-- go back to where a scope was taken, the program's first having number zero; a number that no scope of
      the program has changes nothing -/
  | leave (scope : Nat)
  | record (kind : DiagnosticKind) (detail : String)
  /-- record that a subject lacks a field -/
  | missing (subject field : String)
  /-- merge what a program collected in a log of its own -/
  | merge (nested : List LogStep)

/-- A log and the scopes a program took on it so far. -/
structure LogRun where
  log : DiagnosticLog
  scopes : List LogScope

/-- The run of a program that took no step yet. -/
def LogRun.start (l : DiagnosticLog) : LogRun := ⟨l, []⟩

namespace LogStep

mutual

/-- Take a step. -/
def run : LogStep → LogRun → LogRun
  | .enter label, r => ⟨(r.log.enter label).2, r.scopes ++ [(r.log.enter label).1]⟩
  | .leave n, r =>
    match r.scopes[n]? with
    | some scope => { r with log := r.log.leave scope }
    | none => r
  | .record kind detail, r => { r with log := r.log.record kind detail }
  | .missing subject field, r => { r with log := r.log.missing subject field }
  | .merge nested, r => { r with log := r.log.merge (runAll nested (.start .empty)).log }

/-- Take the steps of a program in turn. -/
def runAll : List LogStep → LogRun → LogRun
  | [], r => r
  | p :: ps, r => runAll ps (run p r)

end

/-- A log after a program. -/
def after (ps : List LogStep) (l : DiagnosticLog) : DiagnosticLog := (runAll ps (.start l)).log

/-- What a program collects in a log of its own. -/
def collected (ps : List LogStep) : DiagnosticLog := after ps .empty

end LogStep

/-! ## 2. A shared log -/

/-- Two runs of one program, on a log of its own and on the log `l` that it shares. -/
structure LogRun.Beside (l : DiagnosticLog) (own shared : LogRun) : Prop where
  breadcrumb : shared.log.breadcrumb = l.breadcrumb ++ own.log.breadcrumb
  entries : shared.log.entries = l.entries ++ own.log.entries.map (·.under l.breadcrumb)
  scopes : shared.scopes = own.scopes.map fun s => ⟨l.breadcrumb.length + s.depth⟩

namespace LogRun.Beside

variable {l : DiagnosticLog} {own shared : LogRun}

theorem start (l : DiagnosticLog) : LogRun.Beside l (.start .empty) (.start l) where
  breadcrumb := (List.append_nil _).symm
  entries := (List.append_nil _).symm
  scopes := rfl

/-- The shared entries take on the same labels, whatever nested log is merged. -/
theorem under_under (outer inner : List String) (d : Diagnostic) :
    (d.under inner).under outer = d.under (outer ++ inner) := by
  simp [Diagnostic.under]

/-- **A step keeps the two runs beside each other.** -/
theorem step (h : LogRun.Beside l own shared) (p : LogStep) :
    LogRun.Beside l (p.run own) (p.run shared) := by
  obtain ⟨hb, he, hs⟩ := h
  cases p with
  | enter label =>
    refine ⟨?_, he, ?_⟩
    · simp [LogStep.run, DiagnosticLog.enter, hb]
    · simp [LogStep.run, DiagnosticLog.enter, hb, hs]
  | leave n =>
    have hscope : shared.scopes[n]? = own.scopes[n]?.map fun s => ⟨l.breadcrumb.length + s.depth⟩ := by
      rw [hs, List.getElem?_map]
    cases hn : own.scopes[n]? with
    | none =>
      rw [hn] at hscope
      simp only [LogStep.run, hn, hscope, Option.map_none]
      exact ⟨hb, he, hs⟩
    | some scope =>
      rw [hn] at hscope
      simp only [LogStep.run, hn, hscope, Option.map_some]
      -- the shared labels are cut behind those of the shared log
      refine ⟨?_, he, hs⟩
      simp only [DiagnosticLog.leave, hb]
      exact List.take_length_add_append _
  | record kind detail =>
    refine ⟨hb, ?_, hs⟩
    simp [LogStep.run, DiagnosticLog.record, Diagnostic.under, hb, he]
  | missing subject field =>
    refine ⟨hb, ?_, hs⟩
    simp [LogStep.run, DiagnosticLog.missing, DiagnosticLog.record, Diagnostic.under, hb, he]
  | merge nested =>
    refine ⟨hb, ?_, hs⟩
    simp [LogStep.run, DiagnosticLog.merge, under_under, hb, he]

/-- **So does a whole program.** -/
theorem runAll (h : LogRun.Beside l own shared) (ps : List LogStep) :
    LogRun.Beside l (LogStep.runAll ps own) (LogStep.runAll ps shared) := by
  induction ps generalizing own shared with
  | nil =>
    rw [LogStep.runAll, LogStep.runAll]
    exact h
  | cons p ps ih =>
    rw [LogStep.runAll, LogStep.runAll]
    exact ih (h.step p)

end LogRun.Beside

/-! ## 3. Merging -/

namespace DiagnosticLog

/-- A shared log after a program has its own labels and entries, and then those that the program collects. -/
theorem beside_after (ps : List LogStep) (l : DiagnosticLog) :
    (LogStep.after ps l).breadcrumb = l.breadcrumb ++ (LogStep.collected ps).breadcrumb ∧
      (LogStep.after ps l).entries = (l.merge (LogStep.collected ps)).entries := by
  have h := (LogRun.Beside.start l).runAll ps
  exact ⟨h.breadcrumb, h.entries⟩

/-- **Collecting apart is collecting together**, for a program and a log that it shares. -/
structure CollectsApart (ps : List LogStep) (l : DiagnosticLog) : Prop where
  /-- merging what was collected apart leaves the entries of a run on the shared log -/
  entries : (l.merge (LogStep.collected ps)).entries = (LogStep.after ps l).entries
  /-- a run enclosed by a label, whose scope is left afterwards, leaves the log that merging under the label
      leaves -/
  enclosed : ∀ label, (LogStep.after ps (l.enter label).2).leave (l.enter label).1 =
    l.mergeUnder (some label) (LogStep.collected ps)
  /-- and the labels that were active before, whichever scopes the program left open -/
  breadcrumb : ∀ label,
    ((LogStep.after ps (l.enter label).2).leave (l.enter label).1).breadcrumb = l.breadcrumb

theorem collectsApart (ps : List LogStep) (l : DiagnosticLog) : CollectsApart ps l := by
  have hbreadcrumb : ∀ label,
      ((LogStep.after ps (l.enter label).2).leave (l.enter label).1).breadcrumb = l.breadcrumb :=
    fun label => breadcrumb_leave_enter label l _ _ (beside_after ps (l.enter label).2).1
  refine ⟨(beside_after ps l).2.symm, fun label => ?_, hbreadcrumb⟩
  have hentries : ((LogStep.after ps (l.enter label).2).leave (l.enter label).1).entries =
      (l.mergeUnder (some label) (LogStep.collected ps)).entries := (beside_after ps (l.enter label).2).2
  have hlabels : (l.mergeUnder (some label) (LogStep.collected ps)).breadcrumb = l.breadcrumb :=
    breadcrumb_mergeUnder _ _ _
  calc (LogStep.after ps (l.enter label).2).leave (l.enter label).1
      = ⟨(l.mergeUnder (some label) (LogStep.collected ps)).entries, l.breadcrumb⟩ := by
        rw [← hentries, ← hbreadcrumb label]
    _ = l.mergeUnder (some label) (LogStep.collected ps) := by rw [← hlabels]

/-- A program that leaves its scopes in the wrong order and one of them never, with a nested program that does
    the same. -/
example :
    (LogStep.after
      [.enter "Inventory", .enter "Item 1", .record .missingReference "sword", .leave 0,
        .merge [.enter "Skills", .record .unusedInput "spell"], .leave 1, .missing "Goblin" "Speed"]
      ⟨[], ["Npc Goblin"]⟩).entries =
    [⟨["Npc Goblin", "Inventory", "Item 1"], .missingReference, "sword"⟩,
      ⟨["Npc Goblin", "Skills"], .unusedInput, "spell"⟩,
      ⟨["Npc Goblin"], .missingReference, "Goblin has no field 'Speed'"⟩] := by
  decide

end DiagnosticLog
end RecordExport

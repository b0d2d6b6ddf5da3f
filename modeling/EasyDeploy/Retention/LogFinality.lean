import EasyDeploy.Retention.LogCoherence

/-!
# Finished step logs

What calls return once a call has finished the log, in runs that make no entry
of an outdated row.
-/

namespace EasyDeploy.Retention
open Foundation

/-- What may be observed once a call has finished the log with a snapshot. A checkpoint may return
late what it read before. -/
def LogServiceEvent.After (before : List LogServiceEvent) (snapshot : BoundedLogSnapshot) :
    LogServiceEvent → Prop
  | .buffered => False
  | .read later => later = snapshot
  | .checkpointed later => later = snapshot ∨ .read later ∈ before
  | .finished later => later = snapshot
  | .failed _ => True
  | .panicked => True

namespace LogService

variable {service after : LogService} {log : List LogServiceEvent} {answers : Bool}

/-- The entry of a finished log is finished and holds the same. -/
theorem Stored.live_of_final (h : service.Stored) {snapshot : BoundedLogSnapshot}
    (hfinal : service.Final snapshot) {step : ActiveStepLog} (hlive : service.live = some step) :
    step.finished = true ∧ step.buffer.snapshot = snapshot := by
  obtain ⟨row, hrow, hfinished, rfl⟩ := hfinal
  exact (h.rowLive step row hlive hrow).2 hfinished

/-- What a step of a call shows of a finished log, when what was read of it is known. -/
theorem after_of_event (h : Coherent log service) {snapshot : BoundedLogSnapshot}
    (hfinal : service.Final snapshot) {before : List LogServiceEvent}
    (hreads : ∀ later, .read later ∈ log → later = snapshot ∨ .read later ∈ before)
    {call : LogCall} (hcall : call ∈ service.calls) {event : LogServiceEvent}
    (hevent : (service.advanceCall answers call).event = some event) :
    event.After before snapshot := by
  have hjustified := h.calls call hcall
  cases call with
  | activeTask | insertTask | lookForStep | insertStep =>
      simp only [advanceCall] at hevent
      split at hevent <;> cases hevent
  | loadBudget =>
      simp only [advanceCall] at hevent
      split at hevent
      · cases hevent
      · cases hevent
        trivial
  | loadStep =>
      simp only [advanceCall] at hevent
      split at hevent
      · split at hevent
        · cases hevent
        · cases hevent
          trivial
      · cases hevent
        trivial
  | mutateStep mutation =>
      simp only [advanceCall] at hevent
      split at hevent
      · rename_i budget step htask
        have hfinished := (h.stored.live_of_final hfinal (live_of_task htask)).1
        split at hevent
        · cases hevent
          trivial
        · rename_i haccepted
          split at hevent
          · cases hevent
          · rename_i hfinishes
            exact absurd (by simp [hfinished, hfinishes]) haccepted
      · cases hevent
        trivial
  | findTask finishing =>
      simp only [advanceCall] at hevent
      split at hevent
      · cases hevent
      · cases finishing <;> cases hevent
        trivial
  | takeSnapshot finishing =>
      simp only [advanceCall] at hevent
      split at hevent
      · rename_i budget step htask
        cases hevent
        exact (h.stored.live_of_final hfinal (live_of_task htask)).2
      · cases finishing <;> cases hevent
        trivial
  | persist finishing later =>
      simp only [advanceCall] at hevent
      split at hevent
      · split at hevent <;> cases hevent
        exact hreads later.step hjustified.2.1
      · cases hevent
        trivial
  | findTaskToRemove later =>
      simp only [advanceCall] at hevent
      split at hevent <;> cases hevent
      exact hjustified.1.unique hfinal
  | removeStep later =>
      cases hevent
      exact hjustified.1.unique hfinal
  | selectSnapshot =>
      simp only [advanceCall] at hevent
      split at hevent
      · split at hevent
        · rename_i row hrow
          cases hevent
          obtain ⟨other, hother, -, rfl⟩ := hfinal
          rw [Option.some.inj (hrow.symm.trans hother)]
          rfl
        · cases hevent
          trivial
      · cases hevent
        trivial

/-- A call that returns a finished log has left it in its row. -/
theorem final_of_finished (h : Coherent log service) {call : LogCall}
    (hcall : call ∈ service.calls) {snapshot : BoundedLogSnapshot}
    (hevent : (service.advanceCall answers call).event = some (.finished snapshot)) :
    service.Final snapshot := by
  have hjustified := h.calls call hcall
  cases call with
  | activeTask | loadBudget | insertTask | lookForStep | insertStep =>
      simp only [advanceCall] at hevent
      split at hevent <;> cases hevent
  | loadStep =>
      simp only [advanceCall] at hevent
      split at hevent
      · split at hevent <;> cases hevent
      · cases hevent
  | mutateStep =>
      simp only [advanceCall] at hevent
      split at hevent
      · split at hevent
        · cases hevent
        · split at hevent <;> cases hevent
      · cases hevent
  | findTask finishing | takeSnapshot finishing =>
      simp only [advanceCall] at hevent
      split at hevent
      · cases hevent
      · cases finishing <;> cases hevent
  | persist =>
      simp only [advanceCall] at hevent
      split at hevent
      · split at hevent <;> cases hevent
      · cases hevent
  | findTaskToRemove later =>
      simp only [advanceCall] at hevent
      split at hevent <;> cases hevent
      exact hjustified.1
  | removeStep later =>
      cases hevent
      exact hjustified.1
  | selectSnapshot =>
      simp only [advanceCall] at hevent
      split at hevent
      · split at hevent <;> cases hevent
      · cases hevent

/-- One permitted step keeps the log coherent and its finished row. -/
theorem Coherent.step (h : Coherent log service) {action : Action}
    (hpermitted : service.permitted action = true) (hstep : service.step action = some after) :
    Coherent (log ++ (service.event action).toList) after ∧
      ∀ snapshot, service.Final snapshot → after.Final snapshot := by
  cases action with
  | call operation =>
      obtain rfl := Option.some.inj hstep
      have hsame : Follows service { service with calls := service.calls ++ [begin operation] } :=
        .of_same rfl rfl rfl rfl
      refine ⟨⟨h.stored.of_same rfl rfl rfl rfl, fun call hcall => ?_⟩, fun snapshot hs => hs⟩
      rcases List.mem_append.mp hcall with hold | hnew
      · exact (h.calls call hold).follow hsame (List.subset_append_left _ _)
      · obtain rfl := List.mem_singleton.mp hnew
        cases operation with
        | checkpoint => exact fun hfinishing => absurd hfinishing (by simp)
        | appendBuffered | recordDropped | finish | snapshot => trivial
  | advance index answers =>
      simp only [LogService.step, Option.map_eq_some_iff] at hstep
      obtain ⟨call, hindex, rfl⟩ := hstep
      have hcall : service.callPermitted call = true := by
        simpa [permitted, hindex] using hpermitted
      have hadvanced : Advanced log service (service.advanceCall answers call) :=
        advanced_of_call h (List.mem_of_getElem? hindex) hcall
      rw [event, hindex, Option.bind_some]
      exact ⟨h.settle hadvanced index, fun snapshot hs => hadvanced.follows.final snapshot hs⟩
  | otherSteps budget budgetRow =>
      obtain rfl := Option.some.inj hstep
      have hsame : Follows service
          { service with budgetRow, task := some ⟨budget, service.live⟩ } :=
        .of_same rfl rfl rfl rfl
      exact ⟨⟨h.stored.of_same rfl rfl rfl rfl, fun call hcall =>
        (h.calls call hcall).follow hsame (List.subset_append_left _ _)⟩, fun snapshot hs => hs⟩
  | restart headLimit tailLimit taskLimit =>
      obtain rfl := Option.some.inj hstep
      refine ⟨⟨⟨h.stored.row, fun step hlive => ?_, fun step row hlive => ?_⟩, fun call hcall => ?_⟩,
        fun snapshot hs => hs⟩
      · cases hlive
      · cases hlive
      · cases hcall

/-- The row stays, with at least as many received bytes, and stays finished. -/
def RowKept (service after : LogService) : Prop :=
  ∀ row, service.stepRow = some row → ∃ row', after.stepRow = some row' ∧
    row.receivedBytes ≤ row'.receivedBytes ∧ (row.finished = true → row'.finished = true)

theorem RowKept.of_eq (h : after.stepRow = service.stepRow) : RowKept service after :=
  fun row hrow => ⟨row, h.trans hrow, le_rfl, id⟩

theorem RowKept.trans {last : LogService} (h : RowKept service after) (h' : RowKept after last) :
    RowKept service last := by
  intro row hrow
  obtain ⟨row', hrow', hle, hfinished⟩ := h row hrow
  obtain ⟨row'', hrow'', hle', hfinished'⟩ := h' row' hrow'
  exact ⟨row'', hrow'', hle.trans hle', hfinished' ∘ hfinished⟩

theorem rowKept_persistRows {snapshot : LogPersistenceSnapshot}
    (h : service.persistRows snapshot = some after) : RowKept service after := by
  obtain ⟨-, -, -, -, -, hstepRow⟩ := persistRows_eq_some h
  intro row hrow
  rw [hrow] at hstepRow
  refine ⟨_, hstepRow, ?_⟩
  unfold StepLogRow.merge
  split
  · rename_i hle
    exact ⟨hle, fun hfinished => by simp [hfinished]⟩
  · exact ⟨le_rfl, id⟩

theorem rowKept_advanceCall (answers : Bool) (call : LogCall) :
    RowKept service (service.advanceCall answers call).service := by
  cases call with
  | persist finishing snapshot =>
      simp only [advanceCall]
      split
      · rename_i after hpersist
        have hpersist : service.persistRows snapshot = some after := by
          split at hpersist
          · exact hpersist
          · cases hpersist
        split <;> exact rowKept_persistRows hpersist
      · exact .of_eq rfl
  | mutateStep mutation =>
      simp only [advanceCall]
      split
      · split
        · exact .of_eq rfl
        · split <;> exact .of_eq rfl
      · exact .of_eq rfl
  | loadStep | selectSnapshot =>
      simp only [advanceCall]
      split
      · split <;> exact .of_eq rfl
      · exact .of_eq rfl
  | removeStep => exact .of_eq rfl
  | activeTask | loadBudget | insertTask | lookForStep | insertStep | findTask | takeSnapshot
  | findTaskToRemove =>
      simp only [advanceCall]
      split <;> exact .of_eq rfl

theorem rowKept_step {action : Action} (h : service.step action = some after) :
    RowKept service after := by
  cases action with
  | advance index answers =>
      simp only [step, Option.map_eq_some_iff] at h
      obtain ⟨call, -, rfl⟩ := h
      exact rowKept_advanceCall answers call
  | call | otherSteps | restart =>
      obtain rfl := Option.some.inj h
      exact .of_eq rfl

theorem rowKept_exec {actions : List Action} (h : logService.exec service actions = some after) :
    RowKept service after := by
  induction actions generalizing service with
  | nil =>
      obtain rfl := Option.some.inj h
      exact .of_eq rfl
  | cons action actions ih =>
      simp only [Transition.exec] at h
      split at h
      · rename_i next hstep
        exact (rowKept_step hstep).trans (ih h)
      · cases h

end LogService

open Foundation.Transition

/-- The log service and what is observed of its calls. -/
def observedLogService : Transition (List LogServiceEvent × LogService) LogService.Action :=
  logService.logged LogService.event

/-- Behind each finished log only it is observed. -/
def Concluded (log : List LogServiceEvent) (service : LogService) : Prop :=
  ∀ before snapshot later, log = before ++ .finished snapshot :: later →
    service.Final snapshot ∧ ∀ event ∈ later, event.After before snapshot

theorem exists_call_of_event {service : LogService} {action : LogService.Action}
    {event : LogServiceEvent} (h : service.event action = some event) :
    ∃ call ∈ service.calls, ∃ answers, (service.advanceCall answers call).event = some event := by
  cases action with
  | advance index answers =>
      obtain ⟨call, hindex, hevent⟩ := Option.bind_eq_some_iff.mp h
      exact ⟨call, List.mem_of_getElem? hindex, answers, hevent⟩
  | call | otherSteps | restart => cases h

theorem Concluded.step {log : List LogServiceEvent} {service after : LogService}
    (h : Concluded log service) (hcoherent : LogService.Coherent log service)
    {action : LogService.Action} (hpermitted : service.permitted action = true)
    (hstep : service.step action = some after) :
    Concluded (log ++ (service.event action).toList) after := by
  obtain ⟨-, hfinal⟩ := hcoherent.step hpermitted hstep
  intro before snapshot later hsplit
  match hevent : service.event action with
  | none =>
      rw [hevent, Option.toList_none, List.append_nil] at hsplit
      obtain ⟨hs, hlater⟩ := h before snapshot later hsplit
      exact ⟨hfinal snapshot hs, hlater⟩
  | some event =>
      obtain ⟨call, hcall, answers, hcallEvent⟩ := exists_call_of_event hevent
      rw [hevent, Option.toList_some] at hsplit
      rcases List.eq_nil_or_concat later with rfl | ⟨init, last, rfl⟩
      · obtain ⟨-, hlast⟩ := List.append_inj' hsplit rfl
        obtain rfl := List.singleton_inj.mp hlast
        exact ⟨hfinal snapshot (LogService.final_of_finished hcoherent hcall hcallEvent),
          fun event hnone => by cases hnone⟩
      · rw [List.concat_eq_append, ← List.cons_append, ← List.append_assoc] at hsplit
        obtain ⟨hlog, hlast⟩ := List.append_inj' hsplit rfl
        obtain rfl := List.singleton_inj.mp hlast
        obtain ⟨hs, hinit⟩ := h before snapshot init hlog
        refine ⟨hfinal snapshot hs, fun other hother => ?_⟩
        rw [List.concat_eq_append, List.mem_append, List.mem_singleton] at hother
        rcases hother with hold | rfl
        · exact hinit other hold
        · refine LogService.after_of_event hcoherent hs (fun read hread => ?_) hcall hcallEvent
          rw [hlog, List.mem_append, List.mem_cons] at hread
          rcases hread with hread | hread | hread
          · exact .inr hread
          · cases hread
          · exact .inl (hinit _ hread)

theorem settled_of_reached {state : List LogServiceEvent × LogService}
    (h : Reached observedLogService (fun state action => state.2.permitted action = true) state) :
    LogService.Coherent state.1 state.2 ∧ Concluded state.1 state.2 := by
  induction h with
  | @start state hinitial =>
      obtain ⟨log, service⟩ := state
      obtain ⟨hlog, hrow, htask, hcalls⟩ := hinitial
      obtain rfl : log = [] := hlog
      have hlive : service.live = none := by
        rw [LogService.live, show service.task = none from htask, Option.bind_none]
      refine ⟨⟨⟨fun row hsome => ?_, fun step hsome => ?_, fun step row hsome => ?_⟩,
        fun call hcall => ?_⟩, fun before snapshot later hsplit => ?_⟩
      · cases hrow.symm.trans hsome
      · cases hlive.symm.trans hsome
      · cases hlive.symm.trans hsome
      · rw [show service.calls = [] from hcalls] at hcall
        cases hcall
      · simp at hsplit
  | @next state action state' _ hpermitted hstep ih =>
      obtain ⟨log, service⟩ := state
      obtain ⟨log', service'⟩ := state'
      obtain ⟨hservice, rfl⟩ := step_logged_eq_some.mp hstep
      exact ⟨(ih.1.step hpermitted hservice).1, ih.2.step ih.1 hpermitted hservice⟩

/-- In all runs the row of a step log only grows and stays finished. In runs that make no entry of
an outdated row and overflow no count, a finished log stays as it is: no call adds to it, every
snapshot that is read later is the one that was returned, and a later return has it or what was
read before. -/
theorem finished_log_final (log : List LogServiceEvent) (service : LogService) :
    (∀ actions after, logService.exec service actions = some after → service.RowKept after) ∧
    (Reached observedLogService (fun state action => state.2.permitted action = true)
        (log, service) →
      ∀ before snapshot later, log = before ++ .finished snapshot :: later →
        service.Final snapshot ∧ ∀ event ∈ later, event.After before snapshot) :=
  ⟨fun _ _ hexec => LogService.rowKept_exec hexec, fun h => (settled_of_reached h).2⟩

namespace Sample

/-- The log service before its first call on a step. -/
def logService : LogService :=
  { headLimit := 4, tailLimit := 4, taskLimit := 8, stepExists := true, budgetRow := none
    stepRow := none, task := none, calls := [] }

def advances (index : Nat) (steps : Nat) : List LogService.Action :=
  List.replicate steps (.advance index true)

theorem initial : observedLogService.initial ([], logService) := ⟨rfl, rfl, rfl, rfl⟩

/-- The snapshot of an empty log. -/
def emptyLog : BoundedLogSnapshot := ⟨[], [], 0, 0, 0, false⟩

/-- The snapshot of a log with two bytes. -/
def shortLog : BoundedLogSnapshot := ⟨[104, 105], [], 2, 2, 0, false⟩

/-- The answer to a call that comes too late. -/
def refusedCall : LogServiceEvent := .failed (.invalidState "步骤日志已经结束或不属于该任务")

end Sample

/-- A log with an entry is finished; a further entry is refused, and the snapshot that is read
afterwards is the same. -/
theorem finished_log_final_read : ∃ log service snapshot,
    log = [.buffered, .read snapshot, .finished snapshot, Sample.refusedCall, .read snapshot] ∧
      Reached observedLogService (fun state action => state.2.permitted action = true)
        (log, service) ∧ service.Final snapshot := by
  obtain ⟨⟨log, service⟩, hexec, hlog⟩ := Option.map_eq_some_iff.mp
    (show ((observedLogService.restrict fun state action => state.2.permitted action).exec
      ([], Sample.logService) ([.call (.appendBuffered [] [104, 105])] ++ Sample.advances 0 7 ++
        [.call .finish] ++ Sample.advances 0 8 ++ [.call (.appendBuffered [] [33])] ++
        Sample.advances 0 5 ++ [.call .snapshot] ++ Sample.advances 0 1)).map (·.1) =
      some [.buffered, .read Sample.shortLog, .finished Sample.shortLog, Sample.refusedCall,
        .read Sample.shortLog] by decide +kernel)
  have hreached : Reached observedLogService (fun state action => state.2.permitted action = true)
      (log, service) := .of_restrict (.exec (.start Sample.initial) hexec)
  exact ⟨log, service, Sample.shortLog, hlog, hreached,
    ((finished_log_final log service).2 hreached [.buffered, .read Sample.shortLog] _
      [Sample.refusedCall, .read Sample.shortLog] hlog).1⟩

/-- A call that loaded the step before its log was finished makes an entry of it afterwards, and a
call that starts then adds to the finished log. -/
theorem finished_log_reopened : ¬ ∀ log service, Reachable observedLogService (log, service) →
    ∀ before snapshot later, log = before ++ .finished snapshot :: later →
      ∀ event ∈ later, event.After before snapshot := by
  intro h
  obtain ⟨⟨log, service⟩, hexec, hlog⟩ := Option.map_eq_some_iff.mp
    (show (observedLogService.exec ([], Sample.logService)
      ([.call (.recordDropped [] 1)] ++ Sample.advances 0 5 ++ [.call .finish] ++
        Sample.advances 1 10 ++ Sample.advances 0 1 ++ [.call (.recordDropped [] 1)] ++
        Sample.advances 1 3)).map (·.1) =
      some [.read Sample.emptyLog, .finished Sample.emptyLog, .buffered] by decide)
  exact h log service (.exec (.start Sample.initial) hexec) [.read Sample.emptyLog] _ [.buffered]
    hlog .buffered List.mem_cons_self

end EasyDeploy.Retention

import EasyDeploy.Retention.LogRows

/-!
# The log of a step across calls

The log of a step is what its entry in memory holds or, without an entry, what
its row holds. Steps of calls move it on, and once it is finished it stays as it
is, unless an entry is made of a row that was loaded before.
-/

namespace EasyDeploy.Retention
open Foundation

namespace LogService

variable {service after : LogService} {log log' : List LogServiceEvent} {answers : Bool}

/-- The log and whether it is finished, in memory or else in the row. -/
def current (service : LogService) : Option (BoundedLogSnapshot × Bool) :=
  match service.live with
  | some step => some (step.buffer.snapshot, step.finished)
  | none => service.stepRow.map fun row => (row.snapshot, row.finished)

/-- The row holds the finished log. -/
def Final (service : LogService) (snapshot : BoundedLogSnapshot) : Prop :=
  ∃ row, service.stepRow = some row ∧ row.finished = true ∧ row.snapshot = snapshot

/-- A log has one final snapshot at most. -/
theorem Final.unique {first second : BoundedLogSnapshot} (h : service.Final first)
    (h' : service.Final second) : first = second := by
  obtain ⟨row, hrow, -, rfl⟩ := h
  obtain ⟨row', hrow', -, rfl⟩ := h'
  rw [Option.some.inj (hrow.symm.trans hrow')]

/-- The snapshot was taken of the log; without an entry in memory the log is finished. -/
structure Behind (service : LogService) (snapshot : BoundedLogSnapshot) (finished : Bool) :
    Prop where
  precedes : ∃ s ended, service.current = some (s, ended) ∧ snapshot.Precedes s ∧
    (finished = true → s = snapshot ∧ ended = true)
  final : service.live = none → ∃ s, service.Final s

/-- What a call relies on at its point. -/
def Justified (log : List LogServiceEvent) (service : LogService) : LogCall → Prop
  | .insertStep _ loaded =>
      loaded.buffer.Fits ∧ loaded.buffer.limits = service.limits ∧
        (loaded.finished = true → service.Final loaded.buffer.snapshot) ∧
        (service.live = none → ∀ row, service.stepRow = some row → row.finished = false →
          row.snapshot = loaded.buffer.snapshot)
  | .findTask finishing => finishing = true → ∃ s, service.current = some (s, true)
  | .takeSnapshot finishing => finishing = true → ∃ s, service.current = some (s, true)
  | .persist finishing snapshot =>
      snapshot.Taken service.limits ∧ .read snapshot.step ∈ log ∧
        service.Behind snapshot.step snapshot.finished ∧
        (finishing = true → snapshot.finished = true)
  | .findTaskToRemove snapshot => service.Final snapshot ∧ .read snapshot ∈ log
  | .removeStep snapshot => service.Final snapshot ∧ .read snapshot ∈ log
  | _ => True

/-- The row and the entry of the step are states of one log, the row the earlier one. -/
structure Stored (service : LogService) : Prop where
  row : ∀ row, service.stepRow = some row → row.Sound
  live : ∀ step, service.live = some step →
    step.buffer.Fits ∧ step.buffer.limits = service.limits
  rowLive : ∀ step row, service.live = some step → service.stepRow = some row →
    row.snapshot.Precedes step.buffer.snapshot ∧
      (row.finished = true → step.finished = true ∧ step.buffer.snapshot = row.snapshot)

/-- What the rows, the steps in memory and the log keep. -/
structure Coherent (log : List LogServiceEvent) (service : LogService) : Prop where
  stored : service.Stored
  calls : ∀ call ∈ service.calls, Justified log service call

/-- The log of a step that is written to is the one in memory. -/
theorem current_of_live {step : ActiveStepLog} (h : service.live = some step) :
    service.current = some (step.buffer.snapshot, step.finished) := by
  rw [current, h]

/-- The log of a step that is not written to is its row. -/
theorem current_of_row {row : StepLogRow} (h : service.live = none)
    (hrow : service.stepRow = some row) : service.current = some (row.snapshot, row.finished) := by
  rw [current, h, hrow]
  rfl

/-- A finished row holds the log. -/
theorem Stored.current_of_final (h : service.Stored) {snapshot : BoundedLogSnapshot}
    (hfinal : service.Final snapshot) : service.current = some (snapshot, true) := by
  obtain ⟨row, hrow, hfinished, rfl⟩ := hfinal
  cases hlive : service.live with
  | some step =>
      obtain ⟨hover, hsame⟩ := (h.rowLive step row hlive hrow).2 hfinished
      rw [current_of_live hlive, hover, hsame]
  | none => rw [current_of_row hlive hrow, hfinished]

/-- What one step may do to the log. -/
structure Follows (service after : LogService) : Prop where
  limits : after.limits = service.limits
  current : ∀ s ended, service.current = some (s, ended) → ∃ s' ended',
    after.current = some (s', ended') ∧ s.Precedes s' ∧ (ended = true → s' = s ∧ ended' = true)
  final : ∀ s, service.Final s → after.Final s
  opened : after.live = none → (∃ s, after.Final s) ∨
    service.live = none ∧ after.stepRow = service.stepRow

theorem Follows.of_same (hlive : after.live = service.live) (hrow : after.stepRow = service.stepRow)
    (hhead : after.headLimit = service.headLimit) (htail : after.tailLimit = service.tailLimit) :
    Follows service after where
  limits := by rw [LogService.limits, LogService.limits, hrow, hhead, htail]
  current s ended h :=
    ⟨s, ended, by rwa [LogService.current, hlive, hrow], .refl _, fun h => ⟨rfl, h⟩⟩
  final s h := by rwa [Final, hrow]
  opened h := .inr ⟨hlive ▸ h, hrow⟩

theorem Stored.of_same (h : service.Stored) (hlive : after.live = service.live)
    (hrow : after.stepRow = service.stepRow) (hhead : after.headLimit = service.headLimit)
    (htail : after.tailLimit = service.tailLimit) : after.Stored where
  row row heq := h.row row (hrow ▸ heq)
  live step heq := by
    rw [(Follows.of_same hlive hrow hhead htail).limits]
    exact h.live step (hlive ▸ heq)
  rowLive step row heq heq' := h.rowLive step row (hlive ▸ heq) (hrow ▸ heq')

theorem Behind.follow (hfollows : Follows service after) {snapshot : BoundedLogSnapshot}
    {finished : Bool} (h : service.Behind snapshot finished) : after.Behind snapshot finished where
  precedes := by
    obtain ⟨s, ended, hcurrent, hprecedes, hfinished⟩ := h.precedes
    obtain ⟨s', ended', hcurrent', hprecedes', hover⟩ := hfollows.current s ended hcurrent
    refine ⟨s', ended', hcurrent', hprecedes.trans hprecedes', fun hfin => ?_⟩
    obtain ⟨rfl, hend⟩ := hfinished hfin
    exact hover hend
  final hlive := by
    rcases hfollows.opened hlive with hfinal | ⟨hlive', -⟩
    · exact hfinal
    · obtain ⟨s, hs⟩ := h.final hlive'
      exact ⟨s, hfollows.final s hs⟩

theorem concluded_follow (hfollows : Follows service after)
    (h : ∃ s, service.current = some (s, true)) : ∃ s, after.current = some (s, true) := by
  obtain ⟨s, hs⟩ := h
  obtain ⟨s', ended', hcurrent, -, hover⟩ := hfollows.current s true hs
  obtain ⟨-, rfl⟩ := hover rfl
  exact ⟨s', hcurrent⟩

/-- Calls still rely on what they did after a step of another call. -/
theorem Justified.follow (hfollows : Follows service after) (hlog : log ⊆ log') {call : LogCall}
    (h : Justified log service call) : Justified log' after call := by
  cases call with
  | insertStep mutation loaded =>
      obtain ⟨hfits, hlimits, hfinished, hopen⟩ := h
      refine ⟨hfits, hlimits.trans hfollows.limits.symm, fun hfin =>
        hfollows.final _ (hfinished hfin), fun hlive row hrow hunfinished => ?_⟩
      rcases hfollows.opened hlive with ⟨s, other, hother, hover, -⟩ | ⟨hlive', hsame⟩
      · rw [Option.some.inj (hrow.symm.trans hother), hover] at hunfinished
        cases hunfinished
      · exact hopen hlive' row (hsame ▸ hrow) hunfinished
  | findTask finishing => exact fun hfinishing => concluded_follow hfollows (h hfinishing)
  | takeSnapshot finishing => exact fun hfinishing => concluded_follow hfollows (h hfinishing)
  | persist finishing snapshot =>
      obtain ⟨htaken, hread, hbehind, hfinishing⟩ := h
      exact ⟨hfollows.limits.symm ▸ htaken, hlog hread, hbehind.follow hfollows, hfinishing⟩
  | findTaskToRemove snapshot => exact ⟨hfollows.final _ h.1, hlog h.2⟩
  | removeStep snapshot => exact ⟨hfollows.final _ h.1, hlog h.2⟩
  | activeTask | loadBudget | insertTask | lookForStep | loadStep | mutateStep | selectSnapshot =>
      trivial

/-- What a step of a call leaves behind. -/
structure Advanced (log : List LogServiceEvent) (service : LogService) (progress : Progress) :
    Prop where
  follows : Follows service progress.service
  stored : progress.service.Stored
  calls : progress.service.calls = service.calls
  next : ∀ call, progress.next = some call →
    Justified (log ++ progress.event.toList) progress.service call

/-- The log stays coherent when a call has advanced. -/
theorem Coherent.settle (h : Coherent log service) {progress : Progress}
    (hadvanced : Advanced log service progress) (index : Nat) :
    Coherent (log ++ progress.event.toList) (progress.settle index) where
  stored := hadvanced.stored.of_same rfl rfl rfl rfl
  calls call hcall := by
    have hsettled : Follows progress.service (progress.settle index) := .of_same rfl rfl rfl rfl
    refine Justified.follow hsettled (List.Subset.refl _) ?_
    have hothers : ∀ other ∈ progress.service.calls,
        Justified (log ++ progress.event.toList) progress.service other := fun other hother =>
      (h.calls other (hadvanced.calls ▸ hother)).follow hadvanced.follows
        (List.subset_append_left _ _)
    simp only [Progress.settle] at hcall
    split at hcall
    · rename_i next hnext
      rcases List.mem_or_eq_of_mem_set hcall with hother | rfl
      · exact hothers call hother
      · exact hadvanced.next call hnext
    · exact hothers call (List.mem_of_mem_eraseIdx hcall)

/-- The bytes that a mutation adds to the received bytes of a buffer with `+=`. -/
def received (mutation : BufferMutation) (buffer : BoundedLogBuffer) : Nat :=
  match mutation with
  | .appendBuffered _ chunk => (buffer.redactor.push chunk).1.length
  | .recordDropped _ _ => 0
  | .finish => buffer.redactor.finish.1.length

/-- To finish a log a second time changes nothing. -/
theorem applyMutation_finished {step : ActiveStepLog} (h : step.finished = true)
    (budget : TaskLogBudget) : applyMutation .finish step budget = (step, budget) := by
  obtain ⟨buffer, finished⟩ := step
  obtain rfl : finished = true := h
  rfl

/-- An accepted mutation moves an unfinished log on. -/
theorem applyMutation_unfinished {mutation : BufferMutation} {step : ActiveStepLog}
    {budget : TaskLogBudget} (h : step.finished = false)
    (hroom : step.buffer.receivedBytes.toNat + received mutation step.buffer < 2 ^ 64) :
    step.buffer.Grows (applyMutation mutation step budget).1.buffer ∧
      (applyMutation mutation step budget).1.finished = mutation.finishes := by
  obtain ⟨buffer, finished⟩ := step
  obtain rfl : finished = false := h
  cases mutation with
  | appendBuffered secrets chunk => exact ⟨BoundedLogBuffer.grows_append hroom, rfl⟩
  | recordDropped secrets droppedBytes =>
      by_cases hzero : 0 < droppedBytes
      · have heq : applyMutation (.recordDropped secrets droppedBytes) ⟨buffer, false⟩ budget =
            (⟨(buffer.recordExternalDrop droppedBytes budget).1, false⟩,
              (buffer.recordExternalDrop droppedBytes budget).2) := by
          simp [applyMutation, BufferMutation.chunk, BufferMutation.droppedBytes,
            BufferMutation.finishes, hzero]
        have hgrows : buffer.Grows (buffer.recordExternalDrop droppedBytes budget).1 :=
          BoundedLogBuffer.grows_recordExternalDrop hzero
        rw [heq]
        exact ⟨hgrows, rfl⟩
      · have heq : applyMutation (.recordDropped secrets droppedBytes) ⟨buffer, false⟩ budget =
            (⟨buffer, false⟩, budget) := by
          simp [applyMutation, BufferMutation.chunk, BufferMutation.droppedBytes,
            BufferMutation.finishes, hzero]
        rw [heq]
        exact ⟨⟨id, rfl, .refl _⟩, rfl⟩
  | finish => exact ⟨BoundedLogBuffer.grows_finish hroom, rfl⟩

/-- No entry is made of a row that was loaded before the log was finished, and the count of received
bytes does not overflow. -/
def callPermitted (service : LogService) : LogCall → Bool
  | .insertStep _ loaded =>
      match service.live, service.stepRow with
      | none, some row => !row.finished || loaded.finished
      | _, _ => true
  | .mutateStep mutation =>
      match service.live with
      | some step => step.finished ||
          decide (step.buffer.receivedBytes.toNat + received mutation step.buffer < 2 ^ 64)
      | none => true
  | _ => true

/-- Steps that do not reopen a finished log and do not let its counters wrap. -/
def permitted (service : LogService) : Action → Bool
  | .advance index _ =>
      match service.calls[index]? with
      | some call => service.callPermitted call
      | none => true
  | _ => true

theorem finished_of_permitted {mutation : BufferMutation} {loaded : ActiveStepLog}
    (h : service.callPermitted (.insertStep mutation loaded) = true) (hlive : service.live = none)
    {row : StepLogRow} (hrow : service.stepRow = some row) (hfinished : row.finished = true) :
    loaded.finished = true := by
  simpa [callPermitted, hlive, hrow, hfinished] using h

theorem room_of_permitted {mutation : BufferMutation}
    (h : service.callPermitted (.mutateStep mutation) = true) {step : ActiveStepLog}
    (hlive : service.live = some step) (hfinished : step.finished = false) :
    step.buffer.receivedBytes.toNat + received mutation step.buffer < 2 ^ 64 := by
  simpa [callPermitted, hlive, hfinished] using h

theorem Advanced.unchanged (h : Coherent log service) {progress : Progress}
    (hservice : progress.service = service)
    (hnext : ∀ call, progress.next = some call →
      Justified (log ++ progress.event.toList) service call) : Advanced log service progress where
  follows := by
    rw [hservice]
    exact .of_same rfl rfl rfl rfl
  stored := hservice ▸ h.stored
  calls := by rw [hservice]
  next call hcall := by
    rw [hservice]
    exact hnext call hcall

/-- The entry goes on to another one of the same log. -/
theorem advanced_live (h : Coherent log service) {step step' : ActiveStepLog}
    {budget : TaskLogBudget} (hlive : service.live = some step)
    (hgrows : step.buffer.Grows step'.buffer)
    (hfinished : step.finished = true → step' = step) :
    Follows service { service with task := some ⟨budget, some step'⟩ } ∧
      Stored { service with task := some ⟨budget, some step'⟩ } := by
  have hlive' : LogService.live { service with task := some ⟨budget, some step'⟩ } = some step' :=
    rfl
  refine ⟨⟨rfl, fun s ended hcurrent => ?_, fun s hs => hs, fun hnone => ?_⟩,
    ⟨h.stored.row, fun other hother => ?_, fun other row hother hrow => ?_⟩⟩
  · rw [current_of_live hlive, Option.some.injEq, Prod.mk.injEq] at hcurrent
    obtain ⟨rfl, rfl⟩ := hcurrent
    refine ⟨_, _, current_of_live hlive', hgrows.precedes, fun hover => ?_⟩
    rw [hfinished hover]
    exact ⟨rfl, hover⟩
  · rw [hlive'] at hnone
    cases hnone
  · obtain rfl := Option.some.inj (hlive'.symm.trans hother)
    obtain ⟨hfits, hlimits⟩ := h.stored.live step hlive
    exact ⟨hgrows.fits hfits, hgrows.limits.trans hlimits⟩
  · obtain rfl := Option.some.inj (hlive'.symm.trans hother)
    obtain ⟨hprecedes, hover⟩ := h.stored.rowLive step row hlive hrow
    refine ⟨hprecedes.trans hgrows.precedes, fun hfin => ?_⟩
    obtain ⟨hend, hsame⟩ := hover hfin
    rw [hfinished hend]
    exact ⟨hend, hsame⟩

theorem live_of_task {budget : TaskLogBudget} {step : ActiveStepLog}
    (h : service.task = some ⟨budget, some step⟩) : service.live = some step := by
  rw [live, h]
  rfl

/-- A permitted entry is one step of the log. -/
theorem advanced_mutateStep (h : Coherent log service) {mutation : BufferMutation}
    (hpermitted : service.callPermitted (.mutateStep mutation) = true) :
    Advanced log service (service.advanceCall answers (.mutateStep mutation)) := by
  simp only [advanceCall]
  split
  · rename_i budget step htask
    have hlive := live_of_task htask
    split
    · exact .unchanged h rfl fun call hcall => by cases hcall
    · rename_i haccepted
      have hlater : step.buffer.Grows (applyMutation mutation step budget).1.buffer ∧
          (step.finished = true → (applyMutation mutation step budget).1 = step) ∧
          (mutation.finishes = true →
            (applyMutation mutation step budget).1.finished = true) := by
        by_cases hfinished : step.finished = true
        · cases mutation with
          | finish =>
              rw [applyMutation_finished hfinished]
              exact ⟨⟨id, rfl, .refl _⟩, fun _ => rfl, fun _ => hfinished⟩
          | appendBuffered | recordDropped =>
              exact absurd (by rw [hfinished]; rfl) haccepted
        · have hunfinished := Bool.eq_false_iff.mpr hfinished
          have hroom := room_of_permitted hpermitted hlive hunfinished
          obtain ⟨hgrows, hend⟩ := @applyMutation_unfinished _ _ budget hunfinished hroom
          exact ⟨hgrows, fun hfin => absurd hfin hfinished, fun hfin => hend.trans hfin⟩
      obtain ⟨hgrows, hsame, hend⟩ := hlater
      obtain ⟨hfollows, hstored⟩ :=
        @advanced_live _ _ h _ _ (applyMutation mutation step budget).2 hlive hgrows hsame
      split
      · rename_i hfinishes
        refine ⟨hfollows, hstored, rfl, fun call hcall => ?_⟩
        obtain rfl := Option.some.inj hcall
        intro _
        exact ⟨_, by rw [current_of_live (live_of_task rfl), hend hfinishes]⟩
      · exact ⟨hfollows, hstored, rfl, fun call hcall => by cases hcall⟩
  · exact .unchanged h rfl fun call hcall => by cases hcall

/-- What is stored changes the rows only. -/
theorem persistRows_eq_some {snapshot : LogPersistenceSnapshot} {after : LogService}
    (h : service.persistRows snapshot = some after) : snapshot.stepRow.checked = true ∧
      after.live = service.live ∧ after.headLimit = service.headLimit ∧
      after.tailLimit = service.tailLimit ∧ after.calls = service.calls ∧
      after.stepRow = match service.stepRow with
        | some row => some (row.merge snapshot.stepRow)
        | none => some snapshot.stepRow := by
  simp only [persistRows] at h
  split at h
  · rename_i hchecked
    simp only [Bool.and_eq_true] at hchecked
    obtain rfl := Option.some.inj h
    exact ⟨hchecked.1.2, rfl, rfl, rfl, rfl, rfl⟩
  · cases h

/-- What is written of a snapshot is the row as it was, a part of the log that is in memory, or the
finished log once more. -/
theorem row_persistRows (h : Coherent log service) {snapshot : LogPersistenceSnapshot}
    {after : LogService} (hpersist : service.persistRows snapshot = some after)
    (htaken : snapshot.Taken service.limits)
    (hbehind : service.Behind snapshot.step snapshot.finished) :
    ∃ row, after.stepRow = some row ∧ row.Sound ∧ row.limits = service.limits ∧
      (snapshot.finished = true → row.snapshot = snapshot.step ∧ row.finished = true) ∧
      (service.stepRow = some row ∨ row.snapshot = snapshot.step ∧
        (row.finished = true → snapshot.finished = true ∨ service.Final snapshot.step)) ∧
      ∀ s, service.Final s → row.snapshot = s ∧ row.finished = true := by
  obtain ⟨hchecked, -, -, -, -, hstepRow⟩ := persistRows_eq_some hpersist
  obtain ⟨s, ended, hcurrent, hprecedes, hfinished⟩ := hbehind.precedes
  cases hrow : service.stepRow with
  | none =>
      rw [hrow] at hstepRow
      refine ⟨_, hstepRow, StepLogRow.sound_stepRow htaken hchecked,
        StepLogRow.limits_stepRow htaken hchecked, fun hfin =>
          ⟨StepLogRow.snapshot_stepRow, hfin⟩, .inr ⟨StepLogRow.snapshot_stepRow, .inl⟩,
        fun s hs => ?_⟩
      obtain ⟨row, hsome, -⟩ := hs
      rw [hrow] at hsome
      cases hsome
  | some row =>
      rw [hrow] at hstepRow
      have hsound := h.stored.row row hrow
      have hlimits : service.limits = row.limits := by
        rw [limits, hrow]
      -- the row is not ahead of the log that the snapshot was taken of
      have hrowCurrent : row.snapshot.Precedes s ∧
          (row.finished = true → s = row.snapshot ∧ ended = true) := by
        cases hlive : service.live with
        | some step =>
            rw [current_of_live hlive, Option.some.injEq, Prod.mk.injEq] at hcurrent
            obtain ⟨rfl, rfl⟩ := hcurrent
            obtain ⟨hprecedes, hover⟩ := h.stored.rowLive step row hlive hrow
            exact ⟨hprecedes, fun hfin => (hover hfin).symm⟩
        | none =>
            rw [current_of_row hlive hrow, Option.some.injEq, Prod.mk.injEq] at hcurrent
            obtain ⟨rfl, rfl⟩ := hcurrent
            exact ⟨.refl _, fun hfin => ⟨rfl, hfin⟩⟩
      -- a finished log that is written again is the same
      have hsame (hfin : row.finished = true)
          (hle : row.snapshot.receivedBytes.toNat ≤ snapshot.step.receivedBytes.toNat) :
          snapshot.step = row.snapshot := by
        obtain ⟨rfl, -⟩ := hrowCurrent.2 hfin
        have hle' := hprecedes.received_le
        exact hprecedes.same (by omega) (hsound.receivedBytes).2
      rw [hlimits] at htaken
      rcases StepLogRow.merge_cases hsound htaken hchecked with ⟨hkept, hlt⟩ |
        ⟨hsnapshot, hmerged, hle, hlimits', hsound'⟩
      · refine ⟨row, hstepRow.trans (congrArg some hkept), hsound, hlimits.symm, fun hfin => ?_, .inl rfl,
          fun s' hs' => ?_⟩
        · obtain ⟨rfl, -⟩ := hfinished hfin
          have hle := hrowCurrent.1.received_le
          omega
        · obtain ⟨row', hrow', hfin, rfl⟩ := hs'
          obtain rfl := Option.some.inj (hrow.symm.trans hrow')
          exact ⟨rfl, hfin⟩
      · refine ⟨_, hstepRow, hsound', hlimits'.trans hlimits.symm, fun hfin => ⟨hsnapshot, ?_⟩,
          .inr ⟨hsnapshot, fun hfin => ?_⟩, fun s' hs' => ?_⟩
        · rw [hmerged, hfin, Bool.or_true]
        · rw [hmerged, Bool.or_eq_true] at hfin
          refine hfin.symm.imp id fun hfin => ⟨row, hrow, hfin, (hsame hfin hle).symm⟩
        · obtain ⟨row', hrow', hfin, rfl⟩ := hs'
          obtain rfl := Option.some.inj (hrow.symm.trans hrow')
          exact ⟨hsnapshot.trans (hsame hfin hle), by rw [hmerged, hfin, Bool.true_or]⟩

/-- The rows are stored as they were taken. -/
theorem advanced_persistRows (h : Coherent log service) {snapshot : LogPersistenceSnapshot}
    {after : LogService} (hpersist : service.persistRows snapshot = some after)
    (htaken : snapshot.Taken service.limits)
    (hbehind : service.Behind snapshot.step snapshot.finished) :
    Follows service after ∧ after.Stored := by
  obtain ⟨-, hlive, -, -, -, -⟩ := persistRows_eq_some hpersist
  obtain ⟨row, hrow, hsound, hlimits, -, hcases, hfinal⟩ :=
    row_persistRows h hpersist htaken hbehind
  obtain ⟨s, ended, hcurrent, hprecedes, hfinished⟩ := hbehind.precedes
  have hlimits' : after.limits = service.limits := by
    rw [← hlimits, limits, hrow]
  have hfinal' : ∀ s, service.Final s → after.Final s := fun s hs =>
    ⟨row, hrow, (hfinal s hs).2, (hfinal s hs).1⟩
  refine ⟨⟨hlimits', fun s' ended' hcurrent' => ?_, hfinal', fun hnone => ?_⟩,
    ⟨fun other hother => ?_, fun step hstep => ?_, fun step other hstep hother => ?_⟩⟩
  · cases hmemory : service.live with
    | some step =>
        rw [current_of_live hmemory] at hcurrent'
        refine ⟨s', ended', ?_, .refl _, fun hover => ⟨rfl, hover⟩⟩
        rw [current_of_live (hlive.trans hmemory), hcurrent']
    | none =>
        obtain ⟨final, hs⟩ := hbehind.final hmemory
        have hover := h.stored.current_of_final hs
        obtain ⟨rfl, rfl⟩ := Prod.mk.inj (Option.some.inj (hcurrent'.symm.trans hover))
        refine ⟨s', true, ?_, .refl _, fun _ => ⟨rfl, rfl⟩⟩
        rw [current_of_row (hlive.trans hmemory) hrow, (hfinal s' hs).1, (hfinal s' hs).2]
  · obtain ⟨final, hs⟩ := hbehind.final (hlive ▸ hnone)
    exact .inl ⟨final, hfinal' final hs⟩
  · rw [← Option.some.inj (hrow.symm.trans hother)]
    exact hsound
  · rw [hlimits']
    exact h.stored.live step (hlive ▸ hstep)
  · obtain rfl := Option.some.inj (hrow.symm.trans hother)
    have hstep' : service.live = some step := hlive ▸ hstep
    rcases hcases with hold | ⟨hsnapshot, hend⟩
    · exact h.stored.rowLive step row hstep' hold
    · rw [current_of_live hstep', Option.some.injEq, Prod.mk.injEq] at hcurrent
      obtain ⟨rfl, rfl⟩ := hcurrent
      refine ⟨hsnapshot ▸ hprecedes, fun hfin => ?_⟩
      rw [hsnapshot]
      rcases hend hfin with hfin | hs
      · exact (hfinished hfin).symm
      · have hover := h.stored.current_of_final hs
        rw [current_of_live hstep', Option.some.injEq, Prod.mk.injEq] at hover
        exact hover.symm

/-- A call that stores the rows is one step of the log. -/
theorem advanced_persist (h : Coherent log service) {finishing : Bool}
    {snapshot : LogPersistenceSnapshot}
    (hjustified : Justified log service (.persist finishing snapshot)) :
    Advanced log service (service.advanceCall answers (.persist finishing snapshot)) := by
  obtain ⟨htaken, hread, hbehind, hfinishing⟩ := hjustified
  simp only [advanceCall]
  split
  · rename_i after hpersist
    have hpersist : service.persistRows snapshot = some after := by
      split at hpersist
      · exact hpersist
      · cases hpersist
    obtain ⟨hfollows, hstored⟩ := advanced_persistRows h hpersist htaken hbehind
    obtain ⟨-, -, -, -, hcalls, -⟩ := persistRows_eq_some hpersist
    split
    · rename_i hfinish
      refine ⟨hfollows, hstored, hcalls, fun call hcall => ?_⟩
      obtain rfl := Option.some.inj hcall
      obtain ⟨row, hrow, -, -, hfinished, -⟩ := row_persistRows h hpersist htaken hbehind
      obtain ⟨hsnapshot, hover⟩ := hfinished (hfinishing hfinish)
      exact ⟨⟨row, hrow, hover, hsnapshot⟩, List.mem_append_left _ hread⟩
    · exact ⟨hfollows, hstored, hcalls, fun call hcall => by cases hcall⟩
  · exact .unchanged h rfl fun call hcall => by cases hcall

theorem live_setLive_none : (service.setLive none).live = none := by
  simp [live, setLive]

/-- A call that leaves memory is one step of the log. -/
theorem advanced_removeStep (h : Coherent log service) {snapshot : BoundedLogSnapshot}
    (hjustified : Justified log service (.removeStep snapshot)) :
    Advanced log service (service.advanceCall answers (.removeStep snapshot)) := by
  have hfinal : (service.setLive none).Final snapshot := hjustified.1
  obtain ⟨row, hrow, hfinished, hsnapshot⟩ := hjustified.1
  refine ⟨⟨rfl, fun s ended hcurrent => ?_, fun s hs => hs, fun _ => .inl ⟨snapshot, hfinal⟩⟩,
    ⟨h.stored.row, fun step hstep => ?_, fun step row hstep => ?_⟩, rfl,
    fun call hcall => by cases hcall⟩
  · have hover := h.stored.current_of_final hjustified.1
    obtain ⟨rfl, rfl⟩ := Prod.mk.inj (Option.some.inj (hcurrent.symm.trans hover))
    refine ⟨s, true, ?_, .refl _, fun _ => ⟨rfl, rfl⟩⟩
    show (service.setLive none).current = _
    rw [current_of_row live_setLive_none hrow, hfinished, hsnapshot]
  · exact absurd (live_setLive_none.symm.trans hstep) (by simp)
  · exact absurd (live_setLive_none.symm.trans hstep) (by simp)

/-- An entry that is made while there is none holds what the row holds. -/
theorem advanced_insertStep (h : Coherent log service) {mutation : BufferMutation}
    {loaded : ActiveStepLog} (hjustified : Justified log service (.insertStep mutation loaded))
    (hpermitted : service.callPermitted (.insertStep mutation loaded) = true) :
    Advanced log service (service.advanceCall answers (.insertStep mutation loaded)) := by
  obtain ⟨hfits, hlimits, hover, hopen⟩ := hjustified
  simp only [advanceCall]
  split
  · refine .unchanged h rfl fun call hcall => ?_
    obtain rfl := Option.some.inj hcall
    trivial
  · rename_i hnone
    have hrowLoaded (row : StepLogRow) (hrow : service.stepRow = some row) :
        row.snapshot = loaded.buffer.snapshot ∧ (row.finished = true ↔ loaded.finished = true) := by
      have hloaded : loaded.finished = true → row.finished = true ∧
          row.snapshot = loaded.buffer.snapshot := by
        intro hfin
        obtain ⟨other, hother, hfin', hsnapshot⟩ := hover hfin
        obtain rfl := Option.some.inj (hrow.symm.trans hother)
        exact ⟨hfin', hsnapshot⟩
      by_cases hfin : row.finished = true
      · have hfin' := finished_of_permitted hpermitted hnone hrow hfin
        exact ⟨(hloaded hfin').2, fun _ => hfin', fun _ => hfin⟩
      · exact ⟨hopen hnone row hrow (Bool.eq_false_iff.mpr hfin), fun hfin' => absurd hfin' hfin,
          fun hfin' => (hloaded hfin').1⟩
    have hlive : (service.setLive (some loaded)).live = some loaded ∨
        (service.setLive (some loaded)).live = none ∧ service.task = none := by
      match htask : service.task with
      | some task => exact .inl (by simp [live, setLive, htask])
      | none => exact .inr ⟨by simp [live, setLive, htask], rfl⟩
    rcases hlive with hlive | ⟨-, htask⟩
    · refine ⟨⟨rfl, fun s ended hcurrent => ?_, fun s hs => hs, fun hnone' => ?_⟩,
        ⟨h.stored.row, fun step hstep => ?_, fun step row hstep hrow => ?_⟩, rfl,
        fun call hcall => ?_⟩
      · refine ⟨s, ended, ?_, .refl _, fun hfin => ⟨rfl, hfin⟩⟩
        rw [current_of_live hlive]
        cases hrow : service.stepRow with
        | some row =>
            rw [current_of_row hnone hrow] at hcurrent
            rw [← hcurrent, (hrowLoaded row hrow).1,
              Bool.eq_iff_iff.mpr (hrowLoaded row hrow).2]
        | none => simp [LogService.current, hnone, hrow] at hcurrent
      · exact absurd (hlive.symm.trans hnone') (by simp)
      · obtain rfl := Option.some.inj (hlive.symm.trans hstep)
        exact ⟨hfits, hlimits⟩
      · obtain rfl := Option.some.inj (hlive.symm.trans hstep)
        obtain ⟨hsnapshot, hiff⟩ := hrowLoaded row hrow
        exact ⟨hsnapshot ▸ .refl _, fun hfin => ⟨hiff.mp hfin, hsnapshot.symm⟩⟩
      · obtain rfl := Option.some.inj hcall
        trivial
    · have hsame : service.setLive (some loaded) = service := by
        obtain ⟨_, _, _, _, _, _, task, _⟩ := service
        obtain rfl : task = none := htask
        rfl
      refine .unchanged h hsame fun call hcall => ?_
      obtain rfl := Option.some.inj hcall
      trivial

/-- Every step of a call moves the log on, and the call may rely on what it found. -/
theorem advanced_of_call (h : Coherent log service) {call : LogCall} (hcall : call ∈ service.calls)
    (hpermitted : service.callPermitted call = true) :
    Advanced log service (service.advanceCall answers call) := by
  have hjustified := h.calls call hcall
  cases call with
  | activeTask mutation =>
      simp only [advanceCall]
      split <;>
        · refine .unchanged h rfl fun call hcall => ?_
          obtain rfl := Option.some.inj hcall
          trivial
  | loadBudget mutation =>
      simp only [advanceCall]
      split
      · refine .unchanged h rfl fun call hcall => ?_
        obtain rfl := Option.some.inj hcall
        trivial
      · exact .unchanged h rfl fun call hcall => by cases hcall
  | insertTask mutation budget =>
      simp only [advanceCall]
      split
      · refine .unchanged h rfl fun call hcall => ?_
        obtain rfl := Option.some.inj hcall
        trivial
      · rename_i htask
        have hlive : LogService.live { service with task := some ⟨budget, none⟩ } = service.live := by
          simp [live, htask]
        refine ⟨.of_same hlive rfl rfl rfl, h.stored.of_same hlive rfl rfl rfl, rfl,
          fun call hcall => ?_⟩
        obtain rfl := Option.some.inj hcall
        trivial
  | lookForStep mutation =>
      simp only [advanceCall]
      split <;>
        · refine .unchanged h rfl fun call hcall => ?_
          obtain rfl := Option.some.inj hcall
          trivial
  | loadStep mutation =>
      simp only [advanceCall]
      split
      · split
        · refine .unchanged h rfl fun call hcall => ?_
          obtain rfl := Option.some.inj hcall
          cases hrow : service.stepRow with
          | some row =>
              obtain ⟨hfits, hlimits, hsnapshot, hfinished⟩ :=
                loadedStep_row hrow (h.stored.row row hrow) mutation.secrets
              refine ⟨hfits, ?_, fun hfin => ⟨row, hrow, hfinished ▸ hfin, hsnapshot.symm⟩,
                fun _ other hother _ => ?_⟩
              · rw [limits, hrow]
                exact hlimits
              · obtain rfl := Option.some.inj (hrow.symm.trans hother)
                exact hsnapshot.symm
          | none =>
              obtain ⟨hfits, hlimits, hfinished⟩ := loadedStep_none hrow mutation.secrets
              refine ⟨hfits, hlimits, fun hfin => ?_, fun _ other hother => ?_⟩
              · rw [hfinished] at hfin
                cases hfin
              · rw [hrow] at hother
                cases hother
        · exact .unchanged h rfl fun call hcall => by cases hcall
      · exact .unchanged h rfl fun call hcall => by cases hcall
  | insertStep mutation loaded => exact advanced_insertStep h hjustified hpermitted
  | mutateStep mutation => exact advanced_mutateStep h hpermitted
  | findTask finishing =>
      simp only [advanceCall]
      split
      · refine .unchanged h rfl fun call hcall => ?_
        obtain rfl := Option.some.inj hcall
        exact hjustified
      · refine .unchanged h rfl fun call hcall => ?_
        cases finishing with
        | false =>
            obtain rfl := Option.some.inj hcall
            trivial
        | true => cases hcall
  | takeSnapshot finishing =>
      simp only [advanceCall]
      split
      · rename_i budget step htask
        have hlive := live_of_task htask
        refine .unchanged h rfl fun call hcall => ?_
        obtain rfl := Option.some.inj hcall
        obtain ⟨hfits, hlimits⟩ := h.stored.live step hlive
        refine ⟨⟨⟨step.buffer, hfits, rfl, hlimits⟩, hlimits⟩, by simp [persistenceSnapshot],
          ⟨⟨_, _, current_of_live hlive, .refl _, fun hfin => ⟨rfl, hfin⟩⟩, fun hnone => ?_⟩,
          fun hfinishing => ?_⟩
        · rw [hlive] at hnone
          cases hnone
        · obtain ⟨s, hs⟩ := hjustified hfinishing
          rw [current_of_live hlive] at hs
          exact (Prod.mk.inj (Option.some.inj hs)).2
      · refine .unchanged h rfl fun call hcall => ?_
        cases finishing with
        | false =>
            obtain rfl := Option.some.inj hcall
            trivial
        | true => cases hcall
  | persist finishing snapshot => exact advanced_persist h hjustified
  | findTaskToRemove snapshot =>
      simp only [advanceCall]
      split
      · refine .unchanged h rfl fun call hcall => ?_
        obtain rfl := Option.some.inj hcall
        exact ⟨hjustified.1, List.mem_append_left _ hjustified.2⟩
      · exact .unchanged h rfl fun call hcall => by cases hcall
  | removeStep snapshot => exact advanced_removeStep h hjustified
  | selectSnapshot =>
      simp only [advanceCall]
      split
      · split <;> exact .unchanged h rfl fun call hcall => by cases hcall
      · exact .unchanged h rfl fun call hcall => by cases hcall

end LogService

end EasyDeploy.Retention

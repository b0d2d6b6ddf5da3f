import EasyDeploy.Orchestrator.Execution

/-!
# Stage barriers and bounded parallelism

The log of an execution lists the starts and the completions of its units. At
every stage the started items are the items of the finished waves, all of them
successful, followed by a part of the current wave. Since the items of a plan
are sorted, a wave comes after everything that it has to wait for.
-/

namespace EasyDeploy.Orchestrator
open Foundation Foundation.Transition

section Waves

variable {waves : List (List DeploymentPlanItem)} {item : DeploymentPlanItem}

/-- The waves have the items in their order. -/
theorem flatten_appendToWaves : (appendToWaves waves item).flatten = waves.flatten ++ [item] := by
  unfold appendToWaves
  split
  · rename_i first rest hlast
    split
    · conv_rhs => rw [← List.dropLast_append_getLast? _ hlast]
      simp
    · simp
  · simp

/-- The items of a wave belong together. -/
def Uniform (wave : List DeploymentPlanItem) : Prop :=
  ∀ first ∈ wave, ∀ item ∈ wave, sameWave first item = true

/-- Two items share a wave if both or none of them stop a unit and their stages are the same. -/
theorem sameWave_iff {first item : DeploymentPlanItem} : sameWave first item = true ↔
    (first.action = .stop ↔ item.action = .stop) ∧ first.stageNo = item.stageNo := by
  simp [sameWave]

/-- All items of a wave share it with its first one. -/
theorem uniform_appendToWaves (h : ∀ wave ∈ waves, Uniform wave) :
    ∀ wave ∈ appendToWaves waves item, Uniform wave := by
  have hsingle : Uniform [item] := by
    simp [Uniform, sameWave]
  unfold appendToWaves
  split
  · rename_i first rest hlast
    have hwave := h _ (List.mem_of_getLast? hlast)
    split
    · rename_i hsame
      intro wave hwaves
      rcases List.mem_append.mp hwaves with hold | hnew
      · exact h wave (List.dropLast_subset _ hold)
      · obtain rfl := List.mem_singleton.mp hnew
        have hfirst : ∀ other ∈ first :: rest ++ [item], sameWave first other = true := by
          intro other hother
          rcases List.mem_append.mp hother with hother | hother
          · exact hwave first List.mem_cons_self other hother
          · rw [List.mem_singleton.mp hother]
            exact hsame
        intro left hleft right hright
        have hl := sameWave_iff.mp (hfirst left hleft)
        have hr := sameWave_iff.mp (hfirst right hright)
        exact sameWave_iff.mpr ⟨hl.1.symm.trans hr.1, hl.2.symm.trans hr.2⟩
    · intro wave hwaves
      rcases List.mem_append.mp hwaves with hold | hnew
      · exact h wave hold
      · exact List.mem_singleton.mp hnew ▸ hsingle
  · intro wave hwaves
    rcases List.mem_append.mp hwaves with hold | hnew
    · exact h wave hold
    · exact List.mem_singleton.mp hnew ▸ hsingle

/-- The waves hold the executed items in their order, in waves of items that belong together. -/
theorem executionWaves_spec (items : List DeploymentPlanItem) :
    (executionWaves items).flatten = items.filter (fun item => item.action ≠ .skip) ∧
      ∀ wave ∈ executionWaves items, Uniform wave := by
  have hfold (executed : List DeploymentPlanItem) : ∀ waves : List (List DeploymentPlanItem),
      (∀ wave ∈ waves, Uniform wave) →
      (executed.foldl appendToWaves waves).flatten = waves.flatten ++ executed ∧
        ∀ wave ∈ executed.foldl appendToWaves waves, Uniform wave := by
    induction executed with
    | nil => simp
    | cons item executed ih =>
        intro waves hwaves
        obtain ⟨hflatten, huniform⟩ := ih (appendToWaves waves item) (uniform_appendToWaves hwaves)
        refine ⟨?_, huniform⟩
        rw [List.foldl_cons, hflatten, flatten_appendToWaves, List.append_assoc]
        rfl
  exact hfold _ [] (by simp)

end Waves

/-- The execution of `item` has to wait for `other`. -/
def WaitsFor (item other : DeploymentPlanItem) : Prop :=
  if other.action = .stop then item.action = .stop → item.stageNo < other.stageNo
  else item.action ≠ .stop ∧ other.stageNo < item.stageNo

/-- What an item waits for is not sorted behind it. -/
theorem not_itemLe_of_waitsFor {item other : DeploymentPlanItem} (h : WaitsFor item other) :
    itemLe item other = false := by
  have hstop (some : DeploymentPlanItem) (hsome : some.action = .stop) :
      some.sortKey = (0, -some.stageNo, -some.removalOrder, some.unitId) := by
    simp [DeploymentPlanItem.sortKey, hsome]
  have hstart (some : DeploymentPlanItem) (hsome : some.action ≠ .stop) :
      some.sortKey = (1, - -some.stageNo, - -some.unitOrder, some.unitId) := by
    unfold DeploymentPlanItem.sortKey
    split
    · exact absurd ‹_› hsome
    · rfl
  unfold WaitsFor at h
  rw [Bool.eq_false_iff]
  intro hle
  simp only [itemLe, keyLe, decide_eq_true_eq] at hle
  split at h
  · rename_i hother
    rw [hstop other hother] at hle
    by_cases hitem : item.action = .stop
    · have hlt := h hitem
      rw [hstop item hitem] at hle
      simp only at hle
      omega
    · rw [hstart item hitem] at hle
      simp only at hle
      omega
  · rename_i hother
    rw [hstart other hother, hstart item h.1] at hle
    simp only at hle
    omega

/-- No item waits for another one of its wave. -/
theorem not_waitsFor_of_sameWave {item other : DeploymentPlanItem}
    (h : sameWave item other = true) : ¬ WaitsFor item other := by
  obtain ⟨hkind, hstage⟩ := sameWave_iff.mp h
  unfold WaitsFor
  split
  · rename_i hother
    intro hlt
    have := hlt (hkind.mpr hother)
    omega
  · rintro ⟨-, hlt⟩
    omega

/-- What an item of a wave waits for is in the waves before. -/
theorem mem_done_of_waitsFor {items : List DeploymentPlanItem}
    (hsorted : items.Pairwise fun left right => itemLe left right = true)
    {done waves : List (List DeploymentPlanItem)} {wave : List DeploymentPlanItem}
    (hsplit : executionWaves items = done ++ wave :: waves) {item other : DeploymentPlanItem}
    (hitem : item ∈ wave) (hother : other ∈ items) (hskip : other.action ≠ .skip)
    (hwaits : WaitsFor item other) : other ∈ done.flatten := by
  obtain ⟨hflatten, huniform⟩ := executionWaves_spec items
  have hmem : other ∈ (executionWaves items).flatten := by
    rw [hflatten]
    exact List.mem_filter.mpr ⟨hother, by simpa using hskip⟩
  have hpairwise : (done.flatten ++ (wave ++ waves.flatten)).Pairwise
      fun left right => itemLe left right = true := by
    rw [← List.flatten_cons, ← List.flatten_append, ← hsplit, hflatten]
    exact hsorted.sublist List.filter_sublist
  rw [hsplit, List.flatten_append, List.flatten_cons, List.mem_append, List.mem_append] at hmem
  rcases hmem with hdone | hwave | hlater
  · exact hdone
  · have hsame := huniform wave (by simp [hsplit]) item hitem other hwave
    exact absurd hwaits (not_waitsFor_of_sameWave hsame)
  · have hle := (List.pairwise_append.mp (List.pairwise_append.mp hpairwise).2.1).2.2 item hitem
      other hlater
    rw [not_itemLe_of_waitsFor hwaits] at hle
    cases hle

/-- The items that have been started. -/
def startedItems (log : List ExecutionEvent) : List DeploymentPlanItem :=
  log.filterMap fun
    | .started item => some item
    | .joined _ _ => none

/-- The items that have ended. -/
def joinedItems (log : List ExecutionEvent) : List DeploymentPlanItem :=
  log.filterMap fun
    | .started _ => none
    | .joined item _ => some item

/-- The items that were started and did not complete. -/
def executing (log : List ExecutionEvent) : List DeploymentPlanItem :=
  (startedItems log).filter fun item => item ∉ joinedItems log

/-- The item needs no execution or completed successfully. -/
def Completed (log : List ExecutionEvent) (item : DeploymentPlanItem) : Prop :=
  item.action = .skip ∨ ∃ summary, .joined item (.success summary) ∈ log

/-- No unit failed or ended in an unknown state. -/
def Clean (log : List ExecutionEvent) : Prop :=
  ∀ item outcome, ExecutionEvent.joined item outcome ∈ log → outcome.isSuccess = true

section Logs

variable {log more : List ExecutionEvent} {item : DeploymentPlanItem}
  {outcome : UnitExecutionOutcome}

/-- What two parts of a log have started. -/
@[simp] theorem startedItems_append :
    startedItems (log ++ more) = startedItems log ++ startedItems more := List.filterMap_append

/-- What two parts of a log have joined. -/
@[simp] theorem joinedItems_append :
    joinedItems (log ++ more) = joinedItems log ++ joinedItems more := List.filterMap_append

@[simp] theorem startedItems_started : startedItems [.started item] = [item] := rfl

@[simp] theorem joinedItems_started : joinedItems [.started item] = [] := rfl

@[simp] theorem startedItems_joined : startedItems [.joined item outcome] = [] := rfl

@[simp] theorem joinedItems_joined : joinedItems [.joined item outcome] = [item] := rfl

/-- A completed item stays completed. -/
theorem Completed.append (h : Completed log item) : Completed (log ++ more) item :=
  h.imp_right fun ⟨summary, hmem⟩ => ⟨summary, List.mem_append_left _ hmem⟩

/-- In a clean log every joined item completed successfully. -/
theorem Clean.completed (h : Clean log) (hitem : item ∈ joinedItems log) : Completed log item := by
  obtain ⟨event, hevent, hjoined⟩ := List.mem_filterMap.mp hitem
  cases event with
  | started _ => cases hjoined
  | joined joined outcome =>
      obtain rfl := Option.some.inj hjoined
      have hsuccess := h joined outcome hevent
      cases outcome with
      | success summary => exact .inr ⟨summary, hevent⟩
      | failed _ _ _ => cases hsuccess
      | canceledUnknown _ => cases hsuccess

/-- A log stays clean when an item starts. -/
theorem Clean.append_started (h : Clean log) : Clean (log ++ [.started item]) := by
  intro other outcome hmem
  rcases List.mem_append.mp hmem with hmem | hmem
  · exact h other outcome hmem
  · cases List.mem_singleton.mp hmem

/-- A log stays clean when an item succeeds. -/
theorem Clean.append_joined (h : Clean log) (hsuccess : outcome.isSuccess = true) :
    Clean (log ++ [.joined item outcome]) := by
  intro other otherOutcome hmem
  rcases List.mem_append.mp hmem with hmem | hmem
  · exact h other otherOutcome hmem
  · obtain ⟨rfl, rfl⟩ := ExecutionEvent.joined.inj (List.mem_singleton.mp hmem)
    exact hsuccess

/-- What executes is among the items that account for the difference of starts and completions. -/
theorem length_executing_le {running : List DeploymentPlanItem}
    (h : (startedItems log).Perm (joinedItems log ++ running)) :
    (executing log).length ≤ running.length := by
  have hperm := h.filter fun item => item ∉ joinedItems log
  rw [executing, hperm.length_eq, List.filter_append, List.length_append]
  have hjoined : (joinedItems log).filter (fun item => item ∉ joinedItems log) = [] := by
    rw [List.filter_eq_nil_iff]
    intro item hitem
    simpa using hitem
  rw [hjoined, List.length_nil, Nat.zero_add]
  exact List.length_filter_le _ _

end Logs

section Invariant

variable (schedule : List (List DeploymentPlanItem)) (maxParallel : Nat)

/-- The log at every stage: the started items are the first ones of the schedule, and all but
a bounded number of them were joined. -/
structure InOrder (log : List ExecutionEvent) : Prop where
  started : startedItems log <+: schedule.flatten
  running : ∃ running : List DeploymentPlanItem,
    (startedItems log).Perm (joinedItems log ++ running) ∧ running.length ≤ maxParallel

/-- The log between waves. -/
structure BetweenWaves (log : List ExecutionEvent) (waves : List (List DeploymentPlanItem)) :
    Prop where
  done : ∃ done, schedule = done ++ waves ∧ startedItems log = done.flatten
  joined : (startedItems log).Perm (joinedItems log)
  clean : Clean log

/-- The log in a wave, where the items `held` were taken from the pending ones. -/
structure InWave (log : List ExecutionEvent) (wave : Wave) (held : List DeploymentPlanItem)
    (waves : List (List DeploymentPlanItem)) : Prop where
  done : ∃ done begun, schedule = done ++ (begun ++ held ++ wave.pending) :: waves ∧
    startedItems log = done.flatten ++ begun ∧ ∀ item ∈ done.flatten, Completed log item
  running : (startedItems log).Perm (joinedItems log ++ wave.running.map (·.item))
  bounded : wave.running.length ≤ maxParallel
  clean : wave.failureSeen = false → wave.cancellationSeen = false → Clean log

/-- The invariant of an execution. -/
def Follows (log : List ExecutionEvent) : Stage → Prop
  | .starting waves => waves = schedule ∧ log = []
  | .polling items waves | .entering items waves => BetweenWaves schedule log (items :: waves)
  | .looping wave waves | .joining wave waves | .persisting wave _ _ waves =>
      InWave schedule maxParallel log wave [] waves
  | .filling wave item waves => InWave schedule maxParallel log wave [item] waves ∧
      wave.running.length < maxParallel ∧ wave.failureSeen = false ∧ wave.cancellationSeen = false
  | .closing _ | .counting _ | .finalizing _ _ | .returned _ => InOrder schedule maxParallel log

variable {schedule maxParallel} {log : List ExecutionEvent} {wave : Wave}
  {held : List DeploymentPlanItem} {waves : List (List DeploymentPlanItem)}

/-- Between two waves the log is in order. -/
theorem BetweenWaves.inOrder (h : BetweenWaves schedule log waves) :
    InOrder schedule maxParallel log := by
  obtain ⟨done, rfl, hstarted⟩ := h.done
  refine ⟨?_, [], by simpa using h.joined, Nat.zero_le _⟩
  rw [hstarted, List.flatten_append]
  exact List.prefix_append _ _

/-- In a wave the log is in order. -/
theorem InWave.inOrder (h : InWave schedule maxParallel log wave held waves) :
    InOrder schedule maxParallel log := by
  obtain ⟨done, begun, rfl, hstarted, -⟩ := h.done
  refine ⟨?_, _, h.running, by simpa using h.bounded⟩
  rw [hstarted, List.flatten_append, List.flatten_cons, List.append_assoc, List.append_assoc]
  exact (List.prefix_append_right_inj _).mpr (List.prefix_append _ _)

/-- A wave without pending or running units is done. -/
theorem InWave.finished (h : InWave schedule maxParallel log wave [] waves)
    (hpending : wave.pending = []) (hrunning : wave.running = [])
    (hfailure : wave.failureSeen = false) (hcancellation : wave.cancellationSeen = false) :
    BetweenWaves schedule log waves := by
  obtain ⟨done, begun, hschedule, hstarted, -⟩ := h.done
  refine ⟨⟨done ++ [begun], ?_, ?_⟩, ?_, h.clean hfailure hcancellation⟩
  · simpa [hpending] using hschedule
  · simpa using hstarted
  · simpa [hrunning] using h.running

/-- A log in order follows the schedule after the waves. -/
theorem follows_afterWaves (h : InOrder schedule maxParallel log) (failed canceled : Bool) :
    Follows schedule maxParallel log (.afterWaves failed canceled) := by
  unfold Stage.afterWaves
  split <;> exact h

/-- A log between two waves follows the schedule before the next one. -/
theorem follows_nextWave (h : InOrder schedule maxParallel log) {failed canceled : Bool}
    (hbetween : failed = false → canceled = false → BetweenWaves schedule log waves) :
    Follows schedule maxParallel log (.nextWave waves failed canceled) := by
  cases waves with
  | nil => exact follows_afterWaves h failed canceled
  | cons items waves =>
      simp only [Stage.nextWave]
      split
      · exact follows_afterWaves h failed canceled
      · rename_i hflags
        simp only [Bool.or_eq_true, not_or, Bool.not_eq_true] at hflags
        exact hbetween hflags.1 hflags.2

/-- A log of a wave that nothing runs of follows the schedule at the end of the wave. -/
theorem follows_endWave (h : InWave schedule maxParallel log wave [] waves)
    (hrunning : wave.running = [])
    (hpending : wave.failureSeen = false → wave.cancellationSeen = false → wave.pending = []) :
    Follows schedule maxParallel log (.endWave wave waves) := by
  unfold Stage.endWave
  split
  · exact follows_nextWave h.inOrder fun _ hfalse => Bool.noConfusion hfalse
  · rename_i hcancellation
    split
    · exact follows_nextWave h.inOrder fun hfalse _ => Bool.noConfusion hfalse
    · rename_i hfailure
      rw [Bool.not_eq_true] at hcancellation hfailure
      exact follows_nextWave h.inOrder fun _ _ =>
        h.finished (hpending hfailure hcancellation) hrunning hfailure hcancellation

/-- A log of a wave follows the schedule at the head of its loop. -/
theorem follows_loopWave (h : InWave schedule maxParallel log wave [] waves) :
    Follows schedule maxParallel log (.loopWave wave waves) := by
  unfold Stage.loopWave
  split
  · rename_i hempty
    rw [Bool.and_eq_true, List.isEmpty_iff, List.isEmpty_iff] at hempty
    exact follows_endWave h hempty.2 fun _ _ => hempty.1
  · exact h

/-- A log of a wave follows the schedule at its joins. -/
theorem follows_joinWave (h : InWave schedule maxParallel log wave [] waves)
    (hpending : wave.running = [] → wave.failureSeen = false → wave.cancellationSeen = false →
      wave.pending = []) :
    Follows schedule maxParallel log (.joinWave wave waves) := by
  unfold Stage.joinWave
  split
  · rename_i hempty
    rw [List.isEmpty_iff] at hempty
    exact follows_endWave h hempty (hpending hempty)
  · exact h

/-- A log of a wave follows the schedule while items are started. -/
theorem follows_fillWave (hpos : 0 < maxParallel)
    (h : InWave schedule maxParallel log wave [] waves) :
    Follows schedule maxParallel log (.fillWave maxParallel wave waves) := by
  unfold Stage.fillWave
  split
  · rename_i hfill
    simp only [Bool.and_eq_true, Bool.not_eq_true', decide_eq_true_eq] at hfill
    split
    · rename_i hnone
      exact follows_joinWave h fun _ _ _ => hnone
    · rename_i item pending hsome
      refine ⟨⟨?_, h.running, h.bounded, h.clean⟩, hfill.2, hfill.1.1, hfill.1.2⟩
      obtain ⟨done, begun, hschedule, hrest⟩ := h.done
      exact ⟨done, begun, by simpa [hsome] using hschedule, hrest⟩
  · rename_i hfull
    refine follows_joinWave h fun hrunning hfailure hcancellation => absurd ?_ hfull
    simp [hrunning, hfailure, hcancellation, hpos]

/-- The unit that was held starts. -/
theorem InWave.start {item : DeploymentPlanItem}
    (h : InWave schedule maxParallel log wave [item] waves)
    (hroom : wave.running.length < maxParallel) (hfailure : wave.failureSeen = false)
    (hcancellation : wave.cancellationSeen = false) (stepId : Int) :
    InWave schedule maxParallel (log ++ [.started item])
      { wave with running := wave.running ++ [⟨item, stepId⟩] } [] waves := by
  obtain ⟨done, begun, hschedule, hstarted, hdone⟩ := h.done
  refine ⟨⟨done, begun ++ [item], by simpa using hschedule, ?_, ?_⟩, ?_, ?_, ?_⟩
  · simp [hstarted]
  · exact fun other hother => (hdone other hother).append
  · simpa [← List.append_assoc] using h.running.append_right [item]
  · rw [List.length_append]
    exact hroom
  · exact fun _ _ => (h.clean hfailure hcancellation).append_started

/-- A running unit is joined. -/
theorem InWave.join (h : InWave schedule maxParallel log wave [] waves) {index : Nat}
    {unit : StartedUnit} (hunit : wave.running[index]? = some unit)
    (outcome : UnitExecutionOutcome) :
    InWave schedule maxParallel (log ++ [.joined unit.item outcome])
      ({ wave with running := wave.running.eraseIdx index }.see outcome) [] waves := by
  obtain ⟨done, begun, hschedule, hstarted, hdone⟩ := h.done
  obtain ⟨hindex, hget⟩ := List.getElem?_eq_some_iff.mp hunit
  have hperm : (joinedItems log ++ wave.running.map (·.item)).Perm
      (joinedItems log ++ unit.item :: (wave.running.eraseIdx index).map (·.item)) := by
    refine List.Perm.append_left _ ?_
    rw [← List.map_cons (f := StartedUnit.item), ← hget]
    exact ((List.getElem_cons_eraseIdx_perm hindex).map _).symm
  refine ⟨⟨done, begun, ?_, ?_, ?_⟩, ?_, ?_, ?_⟩
  · simpa using hschedule
  · simpa using hstarted
  · exact fun other hother => (hdone other hother).append
  · simpa using h.running.trans hperm
  · rw [Wave.see_running]
    exact (List.length_eraseIdx_le _ _).trans h.bounded
  · intro hfailure hcancellation
    obtain ⟨hsuccess, hclear⟩ := Wave.clear_of_see hfailure hcancellation
    exact (h.clean hclear.1 hclear.2).append_joined hsuccess

/-- Every step of an execution keeps the invariant. -/
theorem Follows.step {stage stage' : Stage} {observation : Observation} (hpos : 0 < maxParallel)
    (h : Follows schedule maxParallel log stage)
    (hstep : stage.observe maxParallel observation = some stage') :
    Follows schedule maxParallel (log ++ (stage.event observation).toList) stage' := by
  have hquiet (h : InOrder schedule maxParallel log) :
      InOrder schedule maxParallel (log ++ []) := by
    rwa [List.append_nil]
  cases stage with
  | starting waves =>
      obtain ⟨rfl, rfl⟩ := h
      cases observation with
      | signal canceled =>
          obtain rfl := Option.some.inj hstep
          have hbetween : BetweenWaves waves [] waves :=
            ⟨⟨[], rfl, rfl⟩, .refl _, fun _ _ hmem => absurd hmem List.not_mem_nil⟩
          exact follows_nextWave hbetween.inOrder fun _ _ => hbetween
      | _ => cases hstep
  | polling items waves =>
      cases observation with
      | requested canceled =>
          obtain rfl := Option.some.inj hstep
          simp only [Stage.event, Option.toList_none, List.append_nil]
          split
          · exact follows_afterWaves h.inOrder false true
          · exact h
      | error error =>
          obtain rfl := Option.some.inj hstep
          exact hquiet h.inOrder
      | _ => cases hstep
  | entering items waves =>
      cases observation with
      | signal canceled =>
          obtain rfl := Option.some.inj hstep
          simp only [Stage.event, Option.toList_none, List.append_nil]
          obtain ⟨done, hschedule, hstarted⟩ := h.done
          refine follows_loopWave ⟨⟨done, [], hschedule, by simpa using hstarted, ?_⟩, ?_,
            Nat.zero_le _, fun _ _ => h.clean⟩
          · intro item hitem
            rw [← hstarted] at hitem
            exact h.clean.completed (h.joined.subset hitem)
          · simpa using h.joined
      | _ => cases hstep
  | looping wave waves =>
      cases observation with
      | signal canceled =>
          obtain rfl := Option.some.inj hstep
          simp only [Stage.event, Option.toList_none, List.append_nil]
          refine follows_fillWave hpos
            ⟨h.done, h.running, h.bounded, fun hfailure hcancellation => ?_⟩
          exact h.clean hfailure (Bool.or_eq_false_iff.mp hcancellation).1
      | _ => cases hstep
  | filling wave item waves =>
      cases observation with
      | started stepId =>
          obtain rfl := Option.some.inj hstep
          exact follows_fillWave hpos (h.1.start h.2.1 h.2.2.1 h.2.2.2 stepId)
      | error error =>
          obtain rfl := Option.some.inj hstep
          exact hquiet h.1.inOrder
      | _ => cases hstep
  | joining wave waves =>
      cases observation with
      | joined index outcome =>
          obtain ⟨unit, hunit, rfl⟩ := Option.map_eq_some_iff.mp hstep
          simp only [Stage.event, hunit, Option.map_some, Option.toList_some]
          exact h.join hunit outcome
      | error error =>
          obtain rfl := Option.some.inj hstep
          exact hquiet h.inOrder
      | _ => cases hstep
  | persisting wave unit outcome waves =>
      cases observation with
      | persisted =>
          obtain rfl := Option.some.inj hstep
          simp only [Stage.event, Option.toList_none, List.append_nil]
          exact follows_loopWave h
      | error error =>
          obtain rfl := Option.some.inj hstep
          exact hquiet h.inOrder
      | _ => cases hstep
  | closing canceled =>
      cases observation with
      | closed =>
          obtain rfl := Option.some.inj hstep
          exact hquiet h
      | error error =>
          obtain rfl := Option.some.inj hstep
          exact hquiet h
      | _ => cases hstep
  | counting canceled =>
      cases observation with
      | counted counts =>
          obtain rfl := Option.some.inj hstep
          exact hquiet h
      | error error =>
          obtain rfl := Option.some.inj hstep
          exact hquiet h
      | _ => cases hstep
  | finalizing canceled counts =>
      cases observation with
      | finalized outcome =>
          obtain rfl := Option.some.inj hstep
          exact hquiet h
      | error error =>
          obtain rfl := Option.some.inj hstep
          exact hquiet h
      | _ => cases hstep
  | returned result => cases observation <;> cases hstep

end Invariant

section Execution

variable {digests : Digests} {input : DeploymentPlanInput} {plan : DeploymentPlan}
  {maxParallelUnits : Int} {log : List ExecutionEvent} {stage : Stage}

/-- The invariant holds along every execution. -/
theorem follows_of_reachable
    (h : Reachable ((executionOf plan maxParallelUnits).logged Stage.event) (log, stage)) :
    Follows (executionWaves plan.items) (parallelism maxParallelUnits) log stage := by
  refine Reached.invariant
    (P := fun state => Follows (executionWaves plan.items) (parallelism maxParallelUnits) state.1
      state.2) h ?_ ?_
  · rintro ⟨log, stage⟩ ⟨rfl, rfl⟩
    exact ⟨rfl, rfl⟩
  · rintro ⟨log, stage⟩ observation ⟨log', stage'⟩ _ _ hfollows hstep
    obtain ⟨hobserve, rfl⟩ := step_logged_eq_some.mp hstep
    exact hfollows.step (parallelism_pos _) hobserve

/-- At every stage the log is in order. -/
theorem Follows.inOrder {schedule : List (List DeploymentPlanItem)} {maxParallel : Nat}
    (h : Follows schedule maxParallel log stage) : InOrder schedule maxParallel log := by
  cases stage with
  | starting waves =>
      obtain ⟨-, rfl⟩ := h
      exact ⟨List.nil_prefix, [], .refl _, Nat.zero_le _⟩
  | polling items waves => exact BetweenWaves.inOrder h
  | entering items waves => exact BetweenWaves.inOrder h
  | looping wave waves => exact InWave.inOrder h
  | filling wave item waves => exact h.1.inOrder
  | joining wave waves => exact InWave.inOrder h
  | persisting wave unit outcome waves => exact InWave.inOrder h
  | closing canceled => exact h
  | counting canceled => exact h
  | finalizing canceled counts => exact h
  | returned result => exact h

/-- When an item starts, what it waits for is completed and no unit has failed. -/
theorem completed_of_started (hplan : buildDeploymentPlan digests input = .ok plan)
    {before after : List ExecutionEvent} {item : DeploymentPlanItem}
    (h : Reachable ((executionOf plan maxParallelUnits).logged Stage.event)
      (before ++ .started item :: after, stage)) :
    (∀ other ∈ plan.items, WaitsFor item other → Completed before other) ∧ Clean before := by
  obtain ⟨stage₁, observation, stage₂, hbefore, -, hevent⟩ := h.of_logged
  have hfollows := follows_of_reachable hbefore
  cases stage₁ with
  | filling wave held waves =>
      cases observation with
      | started stepId =>
          obtain rfl := ExecutionEvent.started.inj (Option.some.inj hevent)
          obtain ⟨hwave, -, hfailure, hcancellation⟩ := hfollows
          refine ⟨fun other hother hwaits => ?_, hwave.clean hfailure hcancellation⟩
          obtain ⟨done, begun, hschedule, -, hdone⟩ := hwave.done
          by_cases hskip : other.action = .skip
          · exact .inl hskip
          · exact hdone other (mem_done_of_waitsFor (pairwise_items hplan) hschedule (by simp)
              hother hskip hwaits)
      | _ => cases hevent
  | joining wave waves =>
      cases observation with
      | joined index outcome =>
          obtain ⟨unit, -, hunit⟩ := Option.map_eq_some_iff.mp hevent
          cases hunit
      | _ => cases hevent
  | _ => cases observation <;> cases hevent

/-- In every execution of a plan the items that are to be executed start at most once, never more
than the allowed number of them execute at a time, an item starts when the stop items and the
stages that it waits for have completed, and no item starts after an unsuccessful outcome. -/
theorem stage_barriers (hplan : buildDeploymentPlan digests input = .ok plan)
    (h : Reachable ((executionOf plan maxParallelUnits).logged Stage.event) (log, stage)) :
    ((startedItems log).map (·.unitId)).Nodup ∧
      (∀ item ∈ startedItems log, item ∈ plan.items ∧ item.action ≠ .skip) ∧
      ((executing log).length : Int) ≤ max 1 maxParallelUnits ∧
      ∀ before item after, log = before ++ .started item :: after →
        (item.action ≠ .stop → ∀ other ∈ plan.items, other.action = .stop →
          Completed before other) ∧
        (item.action ≠ .stop → ∀ other ∈ plan.items, other.action ≠ .stop →
          other.stageNo < item.stageNo → Completed before other) ∧
        (item.action = .stop → ∀ other ∈ plan.items, other.action = .stop →
          item.stageNo < other.stageNo → Completed before other) ∧
        ∀ other outcome, .joined other outcome ∈ before → outcome.isSuccess = true := by
  obtain ⟨hstarted, running, hrunning, hbound⟩ := (follows_of_reachable h).inOrder
  rw [(executionWaves_spec plan.items).1] at hstarted
  have hsublist := hstarted.sublist.trans List.filter_sublist
  refine ⟨?_, fun item hitem => ⟨hsublist.subset hitem, ?_⟩, ?_, ?_⟩
  · exact (unitIds_nodup_of_plan hplan).sublist (hsublist.map _)
  · simpa using (List.mem_filter.mp (hstarted.sublist.subset hitem)).2
  · have hexecuting := length_executing_le hrunning
    unfold parallelism at hbound
    omega
  · rintro before item after rfl
    obtain ⟨hwaits, hclean⟩ := completed_of_started hplan h
    refine ⟨fun hitem other hother hstop => hwaits other hother ?_,
      fun hitem other hother hstop hlt => hwaits other hother ?_,
      fun hitem other hother hstop hlt => hwaits other hother ?_, hclean⟩
    · rw [WaitsFor, if_pos hstop]
      exact fun hfalse => absurd hfalse hitem
    · rw [WaitsFor, if_neg hstop]
      exact ⟨hitem, hlt⟩
    · rw [WaitsFor, if_pos hstop]
      exact fun _ => hlt

end Execution

section StopStart

def stopItem : DeploymentPlanItem :=
  { unitId := 1, unitKey := "worker", unitReleaseId := some 1, releaseVersion := some "1.0.0"
    stageNo := 1, unitOrder := 1, removalOrder := 1, action := .stop
    reason := "目标应用版本停用该单元", targetFingerprint := "a", previousFingerprint := "a" }

def startItem : DeploymentPlanItem :=
  { unitId := 2, unitKey := "api", unitReleaseId := some 2, releaseVersion := some "1.0.0"
    stageNo := 1, unitOrder := 2, removalOrder := 2, action := .start
    reason := "目标节点尚未部署该单元", targetFingerprint := "b", previousFingerprint := "" }

/-- One unit that runs is disabled, and one that does not run is active. -/
def stopStartInput : DeploymentPlanInput :=
  { appId := 1, environmentId := 1, appReleaseId := 1, configRevisionId := 1, mode := .normal
    targetNodeIds := [3]
    targetUnits := [
      { unitId := 2, unitKey := "api", unitReleaseId := some 2, releaseVersion := some "1.0.0"
        releaseVersionCode := some 1, desiredStatus := "active", stageNo := 1, unitOrder := 2
        removalOrder := 2, targetFingerprint := "b" },
      { unitId := 1, unitKey := "worker", unitReleaseId := some 1, releaseVersion := some "1.0.0"
        releaseVersionCode := some 1, desiredStatus := "disabled", stageNo := 1, unitOrder := 1
        removalOrder := 1, targetFingerprint := "a" }]
    currentStates := [
      { unitId := 1, nodeId := 3, runtimeStatus := .healthy, activeUnitReleaseId := some 1
        activeVersionCode := some 1, activeFingerprint := "a", containerVersionLabel := "1.0.0" }] }

def stopStartPlan : DeploymentPlan :=
  { appId := 1, environmentId := 1, appReleaseId := 1, configRevisionId := 1, mode := .normal
    targetNodeIds := [3], items := [stopItem, startItem], planHash := "hash" }

/-- The observations up to the start of the second item. -/
def stopStartObservations : List Observation :=
  [.signal false, .requested false, .signal false, .signal false, .started 1,
    .joined 0 (.success "stopped"), .persisted, .requested false, .signal false, .signal false,
    .started 2]

/-- The worker was stopped before the api starts. -/
theorem stage_barriers_stop_start :
    Completed [.started stopItem, .joined stopItem (.success "stopped")] stopItem := by
  have hplan : buildDeploymentPlan ⟨fun _ => "hash", fun fingerprint _ => fingerprint⟩
      stopStartInput = .ok stopStartPlan := rfl
  have hstart : Reachable ((executionOf stopStartPlan 3).logged Stage.event)
      ([], .starting (executionWaves stopStartPlan.items)) := .start ⟨rfl, rfl⟩
  have hexec : ((executionOf stopStartPlan 3).logged Stage.event).exec
      ([], .starting (executionWaves stopStartPlan.items)) stopStartObservations =
      some ([.started stopItem, .joined stopItem (.success "stopped"), .started startItem],
        .joining ⟨[], [⟨startItem, 2⟩], false, false⟩ []) := rfl
  have hrun := hstart.exec hexec
  exact ((stage_barriers hplan hrun).2.2.2 [_, _] startItem [] rfl).1 (by decide) stopItem
    (by decide) rfl

end StopStart

end EasyDeploy.Orchestrator

import EasyDeploy.Orchestrator.StageBarriers

/-!
# Complete executions

An execution that neither is canceled nor sees an unsuccessful outcome starts
every item that its plan executes before it finalizes its run.
-/

namespace EasyDeploy.Orchestrator
open Foundation Foundation.Transition

section Exhausts

variable (schedule : List (List DeploymentPlanItem)) (log : List ExecutionEvent)

/-- A wave knows of a failure only when there was one, and an execution finalizes its run without
a failure or a cancellation only when every item was started. -/
def Exhausts : Stage → Prop
  | .looping wave _ | .filling wave _ _ | .joining wave _ | .persisting wave _ _ _ =>
      wave.failureSeen = true → ¬ Clean log
  | .closing canceled => canceled = false → ¬ Clean log
  | .counting canceled | .finalizing canceled _ =>
      canceled = false → Clean log → startedItems log = schedule.flatten
  | _ => True

variable {schedule log} {maxParallel : Nat} {wave : Wave} {waves : List (List DeploymentPlanItem)}
  {failed canceled : Bool}

theorem exhausts_afterWaves (hfailed : failed = true → ¬ Clean log)
    (hdone : failed = false → canceled = false → Clean log → startedItems log = schedule.flatten) :
    Exhausts schedule log (.afterWaves failed canceled) := by
  unfold Stage.afterWaves
  split
  · rename_i hflags
    intro hcanceled
    rw [hcanceled, Bool.or_false] at hflags
    exact hfailed hflags
  · rename_i hflags
    rw [Bool.not_eq_true, Bool.or_eq_false_iff] at hflags
    exact hdone hflags.1

theorem exhausts_nextWave (hfailed : failed = true → ¬ Clean log)
    (hbetween : failed = false → canceled = false → BetweenWaves schedule log waves) :
    Exhausts schedule log (.nextWave waves failed canceled) := by
  cases waves with
  | nil =>
      refine exhausts_afterWaves hfailed fun hfailure hcancellation _ => ?_
      obtain ⟨done, rfl, hstarted⟩ := (hbetween hfailure hcancellation).done
      rw [hstarted, List.append_nil]
  | cons items waves =>
      simp only [Stage.nextWave]
      split
      · rename_i hflags
        refine exhausts_afterWaves hfailed fun hfailure hcancellation => ?_
        rw [hfailure, hcancellation] at hflags
        cases hflags
      · trivial

theorem exhausts_endWave (h : InWave schedule maxParallel log wave [] waves)
    (hrunning : wave.running = [])
    (hpending : wave.failureSeen = false → wave.cancellationSeen = false → wave.pending = [])
    (hfailed : wave.failureSeen = true → ¬ Clean log) :
    Exhausts schedule log (.endWave wave waves) := by
  unfold Stage.endWave
  split
  · exact exhausts_nextWave nofun fun _ hfalse => Bool.noConfusion hfalse
  · rename_i hcancellation
    split
    · rename_i hfailure
      exact exhausts_nextWave (fun _ => hfailed hfailure) fun hfalse _ => Bool.noConfusion hfalse
    · rename_i hfailure
      rw [Bool.not_eq_true] at hcancellation hfailure
      exact exhausts_nextWave nofun fun _ _ =>
        h.finished (hpending hfailure hcancellation) hrunning hfailure hcancellation

theorem exhausts_loopWave (h : InWave schedule maxParallel log wave [] waves)
    (hfailed : wave.failureSeen = true → ¬ Clean log) :
    Exhausts schedule log (.loopWave wave waves) := by
  unfold Stage.loopWave
  split
  · rename_i hempty
    rw [Bool.and_eq_true, List.isEmpty_iff, List.isEmpty_iff] at hempty
    exact exhausts_endWave h hempty.2 (fun _ _ => hempty.1) hfailed
  · exact hfailed

theorem exhausts_joinWave (h : InWave schedule maxParallel log wave [] waves)
    (hpending : wave.running = [] → wave.failureSeen = false → wave.cancellationSeen = false →
      wave.pending = []) (hfailed : wave.failureSeen = true → ¬ Clean log) :
    Exhausts schedule log (.joinWave wave waves) := by
  unfold Stage.joinWave
  split
  · rename_i hempty
    rw [List.isEmpty_iff] at hempty
    exact exhausts_endWave h hempty (hpending hempty) hfailed
  · exact hfailed

theorem exhausts_fillWave (hpos : 0 < maxParallel)
    (h : InWave schedule maxParallel log wave [] waves)
    (hfailed : wave.failureSeen = true → ¬ Clean log) :
    Exhausts schedule log (.fillWave maxParallel wave waves) := by
  unfold Stage.fillWave
  split
  · split
    · rename_i hnone
      exact exhausts_joinWave h (fun _ _ _ => hnone) hfailed
    · exact hfailed
  · rename_i hfull
    refine exhausts_joinWave h (fun hrunning hfailure hcancellation => absurd ?_ hfull) hfailed
    simp [hrunning, hfailure, hcancellation, hpos]

theorem Clean.of_append {more : List ExecutionEvent} (h : Clean (log ++ more)) : Clean log :=
  fun item outcome hmem => h item outcome (List.mem_append_left _ hmem)

/-- Every step of an execution keeps it. -/
theorem Exhausts.step {stage stage' : Stage} {observation : Observation} (hpos : 0 < maxParallel)
    (hfollows : Follows schedule maxParallel log stage) (h : Exhausts schedule log stage)
    (hstep : stage.observe maxParallel observation = some stage') :
    Exhausts schedule (log ++ (stage.event observation).toList) stage' := by
  cases stage with
  | starting waves =>
      obtain ⟨rfl, rfl⟩ := hfollows
      cases observation with
      | signal canceled =>
          obtain rfl := Option.some.inj hstep
          exact exhausts_nextWave (by intros; contradiction) fun _ _ =>
            ⟨⟨[], rfl, rfl⟩, .refl _, fun _ _ hmem => absurd hmem List.not_mem_nil⟩
      | _ => cases hstep
  | polling items waves =>
      cases observation with
      | requested canceled =>
          obtain rfl := Option.some.inj hstep
          split
          · exact exhausts_afterWaves (by intros; contradiction) fun _ hfalse => Bool.noConfusion hfalse
          · trivial
      | error error =>
          obtain rfl := Option.some.inj hstep
          trivial
      | _ => cases hstep
  | entering items waves =>
      cases observation with
      | signal canceled =>
          obtain rfl := Option.some.inj hstep
          simp only [Stage.event, Option.toList_none, List.append_nil]
          obtain ⟨done, hschedule, hstarted⟩ := hfollows.done
          have hwave : InWave schedule maxParallel log ⟨items, [], false, canceled⟩ [] waves := by
            refine ⟨⟨done, [], hschedule, by simpa using hstarted, fun item hitem => ?_⟩, ?_,
              Nat.zero_le _, fun _ _ => hfollows.clean⟩
            · rw [← hstarted] at hitem
              exact hfollows.clean.completed (hfollows.joined.subset hitem)
            · simpa using hfollows.joined
          exact exhausts_loopWave hwave (by intros; contradiction)
      | _ => cases hstep
  | looping wave waves =>
      cases observation with
      | signal canceled =>
          obtain rfl := Option.some.inj hstep
          simp only [Stage.event, Option.toList_none, List.append_nil]
          refine exhausts_fillWave hpos
            ⟨hfollows.done, hfollows.running, hfollows.bounded,
              fun hfailure hcancellation => ?_⟩ h
          exact hfollows.clean hfailure (Bool.or_eq_false_iff.mp hcancellation).1
      | _ => cases hstep
  | filling wave item waves =>
      cases observation with
      | started stepId =>
          obtain rfl := Option.some.inj hstep
          exact exhausts_fillWave hpos
            (hfollows.1.start hfollows.2.1 hfollows.2.2.1 hfollows.2.2.2 stepId)
            fun hfailure => absurd hfailure (Bool.eq_false_iff.mp hfollows.2.2.1)
      | error error =>
          obtain rfl := Option.some.inj hstep
          trivial
      | _ => cases hstep
  | joining wave waves =>
      cases observation with
      | joined index outcome =>
          obtain ⟨unit, hunit, rfl⟩ := Option.map_eq_some_iff.mp hstep
          simp only [Stage.event, hunit, Option.map_some, Option.toList_some]
          intro hfailure hclean
          have hsuccess := hclean unit.item outcome
            (List.mem_append_right _ List.mem_cons_self)
          cases outcome with
          | success summary => exact h hfailure hclean.of_append
          | failed _ _ _ => cases hsuccess
          | canceledUnknown _ => cases hsuccess
      | error error =>
          obtain rfl := Option.some.inj hstep
          trivial
      | _ => cases hstep
  | persisting wave unit outcome waves =>
      cases observation with
      | persisted =>
          obtain rfl := Option.some.inj hstep
          simp only [Stage.event, Option.toList_none, List.append_nil]
          exact exhausts_loopWave hfollows h
      | error error =>
          obtain rfl := Option.some.inj hstep
          trivial
      | _ => cases hstep
  | closing canceled =>
      cases observation with
      | closed =>
          obtain rfl := Option.some.inj hstep
          exact fun hcanceled hclean => absurd hclean.of_append (h hcanceled)
      | error error =>
          obtain rfl := Option.some.inj hstep
          trivial
      | _ => cases hstep
  | counting canceled =>
      cases observation with
      | counted counts =>
          obtain rfl := Option.some.inj hstep
          simp only [Stage.event, Option.toList_none, List.append_nil]
          exact h
      | error error =>
          obtain rfl := Option.some.inj hstep
          trivial
      | _ => cases hstep
  | finalizing canceled counts =>
      cases observation with
      | finalized outcome =>
          obtain rfl := Option.some.inj hstep
          trivial
      | error error =>
          obtain rfl := Option.some.inj hstep
          trivial
      | _ => cases hstep
  | returned result => cases observation <;> cases hstep

end Exhausts

/-- An execution that finalizes its run without a failure or a cancellation started every item
that its plan executes. -/
theorem startedItems_of_finalizing {plan : DeploymentPlan} {maxParallelUnits : Int}
    {log : List ExecutionEvent} {counts : ResultCounts}
    (h : Reachable ((executionOf plan maxParallelUnits).logged Stage.event)
      (log, .finalizing false counts)) (hclean : Clean log) :
    startedItems log = plan.items.filter fun item => item.action ≠ .skip := by
  have hboth := h.invariant (P := fun state =>
    Follows (executionWaves plan.items) (parallelism maxParallelUnits) state.1 state.2 ∧
      Exhausts (executionWaves plan.items) state.1 state.2) ?_ ?_
  · rw [← (executionWaves_spec plan.items).1]
    exact hboth.2 rfl hclean
  · rintro ⟨log, stage⟩ ⟨rfl, rfl⟩
    exact ⟨⟨rfl, rfl⟩, trivial⟩
  · rintro ⟨log, stage⟩ observation ⟨log', stage'⟩ - - ⟨hfollows, hexhausts⟩ hstep
    obtain ⟨hobserve, rfl⟩ := step_logged_eq_some.mp hstep
    exact ⟨hfollows.step (parallelism_pos _) hobserve,
      hexhausts.step (parallelism_pos _) hfollows hobserve⟩

end EasyDeploy.Orchestrator

import EasyDeploy.ReleaseQueue.ItemPairing

/-!
# Interleavings of workers and requests

In every interleaving whose steps keep clear of each other a canceled item stays
canceled and is not deployed, a running item has a task that is open or a job
that has not returned, and an application has at most one running item.
-/

namespace EasyDeploy.ReleaseQueue
open Foundation
open Foundation.Transition
open Orchestrator (TaskStatus)

namespace World

/-- The tasks whose jobs have not returned: a dispatch is about to send them, they wait for the
compose worker, or it has taken them. -/
def held (world : World) : List Int :=
  world.dispatcher.elim [] (·.stage.held) ++
    (world.worker.elim [] (fun work => work.stage.held work.job) ++
      (world.submitting ++ world.channel).map (·.taskId))

/-- The steps that keep clear of each other. -/
def Clear (world : World) : Action → Prop
  | .commitItem queueId _ true =>
      ∀ item ∈ world.store.queue, item.id = queueId → item.status ≠ .running
  | .cancelTask taskId => world.store.Unnamed taskId ∨ taskId ∈ world.held
  | .dispatch works => ∀ dispatch, world.dispatcher = some dispatch →
      dispatch.stage.Clear world.store works
  | .work works => ∀ work, world.worker = some work →
      work.stage.Clear world.store work.job works
  | _ => True

/-- What holds between the steps. -/
structure Paired (world : World) : Prop where
  formed : world.store.Formed
  alone : world.store.Alone
  paired : ∀ item ∈ world.store.queue, item.status = .running → ∀ taskId,
    item.taskId = some taskId → world.store.Open taskId ∨ taskId ∈ world.held
  distinct : ∀ taskId, world.held.count taskId ≤ 1
  pending : ∀ taskId ∈ world.cancelingTasks,
    (∃ status, world.store.taskStatus taskId = some status ∧ status ≠ .queued) ∧
    ∀ work, world.worker = some work → work.stage.started = true → work.job.taskId ≠ taskId
  dispatcher : ∀ dispatch, world.dispatcher = some dispatch → world.store.Dispatches dispatch.stage
  worker : ∀ work, world.worker = some work → world.store.Works work.job work.stage
  jobs : ∀ job ∈ world.submitting ++ world.channel, world.store.HoldsJob job .waiting
  submitted : ∀ job ∈ world.submitting, job.queueId = none

variable {world world' : World}

/-- A task is held by the dispatcher, by the worker or by a job on its way. -/
theorem mem_held {taskId : Int} : taskId ∈ world.held ↔
    (∃ dispatch, world.dispatcher = some dispatch ∧ taskId ∈ dispatch.stage.held) ∨
    (∃ work, world.worker = some work ∧ taskId ∈ work.stage.held work.job) ∨
    ∃ job ∈ world.submitting ++ world.channel, job.taskId = taskId := by
  rw [held, List.mem_append, List.mem_append, List.mem_map]
  refine or_congr ?_ (or_congr ?_ Iff.rfl)
  · cases world.dispatcher <;> simp
  · cases world.worker <;> simp

/-- A task that is held is in the table. -/
theorem Paired.known (h : world.Paired) {taskId : Int} (hmem : taskId ∈ world.held) :
    (world.store.taskStatus taskId).isSome = true := by
  rcases mem_held.mp hmem with ⟨dispatch, hdispatch, hheld⟩ | ⟨work, hwork, hheld⟩ | ⟨job, hjob, rfl⟩
  · exact (h.dispatcher dispatch hdispatch).known taskId hheld
  · exact (h.worker work hwork).known taskId hheld
  · exact (h.jobs job hjob).holds.known_task

/-- Tasks that requests have canceled do not return to the queue. -/
theorem Paired.pending_keep (h : world.Paired) {moved : Option Int} {store : Store}
    (hstatement : Store.Statement moved world.store store) {taskId : Int}
    (hmem : taskId ∈ world.cancelingTasks) :
    ∃ status, store.taskStatus taskId = some status ∧ status ≠ .queued := by
  obtain ⟨⟨status, hstatus, hne⟩, -⟩ := h.pending taskId hmem
  exact hstatement.unqueued taskId status hstatus hne

/-- What a step of one party, that holds the tasks `tasks` and then holds `tasks'`, keeps. -/
theorem Paired.party (h : world.Paired) (world' : World) {tasks tasks' : List Int}
    (others : List Int) (hacts : world.store.Acts world'.store tasks tasks') (hheld : world.held.Perm (tasks ++ others))
    (hheld' : world'.held.Perm (tasks' ++ others)) :
    (∃ moved, Store.Statement moved world.store world'.store ∧
      ∀ taskId ∈ others, some taskId ≠ moved) ∧ world'.store.Alone ∧
    (∀ item ∈ world'.store.queue, item.status = .running → ∀ taskId,
      item.taskId = some taskId → world'.store.Open taskId ∨ taskId ∈ world'.held) ∧
    ∀ taskId, world'.held.count taskId ≤ 1 := by
  have hdistinct (taskId : Int) : (tasks ++ others).count taskId ≤ 1 :=
    hheld.count_eq taskId ▸ h.distinct taskId
  refine ⟨hacts.statement hdistinct, hacts.alone h.alone, ?_, fun taskId => ?_⟩
  · have hall := hacts.paired_all others h.formed fun item hitem hrunning taskId hname =>
      (h.paired item hitem hrunning taskId hname).imp_right hheld.mem_iff.mp
    exact fun item hitem hrunning taskId hname =>
      (hall item hitem hrunning taskId hname).imp_right hheld'.mem_iff.mpr
  · rw [hheld'.count_eq]
    refine hacts.distinct (fun other hmem => ?_) hdistinct taskId
    exact h.known (hheld.mem_iff.mpr (List.mem_append_right _ hmem))

/-- A statement of a request that moves no item of a job. -/
theorem Paired.request (h : world.Paired)
    (hstatement : Store.Statement none world.store world'.store)
    (hchannel : world'.channel = world.channel) (hdispatcher : world'.dispatcher = world.dispatcher)
    (hworker : world'.worker = world.worker) (hsubmitting : world'.submitting = world.submitting)
    (htasks : ∀ taskId ∈ world'.cancelingTasks, taskId ∈ world.cancelingTasks) :
    world'.Paired := by
  have hheld : world'.held = world.held := by
    rw [held, held, hdispatcher, hworker, hsubmitting, hchannel]
  obtain ⟨-, halone, hpaired, hdistinct⟩ :=
    h.party world' world.held (hstatement.acts []) (.refl _) (hheld ▸ .refl _)
  refine ⟨hstatement.formed, halone, hpaired, hdistinct, fun taskId hmem => ?_,
    fun dispatch hdispatch => ?_, fun work hwork => ?_, ?_, hsubmitting ▸ h.submitted⟩
  · refine ⟨h.pending_keep hstatement (htasks taskId hmem), ?_⟩
    rw [hworker]
    exact (h.pending taskId (htasks taskId hmem)).2
  · exact (h.dispatcher dispatch (hdispatcher ▸ hdispatch)).keep hstatement nofun
  · exact (h.worker work (hworker ▸ hwork)).keep hstatement nofun
  · rw [hsubmitting, hchannel]
    exact fun job hjob => (h.jobs job hjob).keep hstatement nofun

/-- The invariant, and that canceled items have stayed canceled. -/
def Kept (world world' : World) : Prop :=
  world'.Paired ∧ ∃ moved, Store.Statement moved world.store world'.store

/-- A clear step of the dispatcher keeps the pairs. -/
theorem Paired.dispatch_step (h : world.Paired) {works : Bool}
    (hclear : world.Clear (.dispatch works)) (hstep : world.step (.dispatch works) = some world') :
    world.Kept world' := by
  obtain ⟨dispatch, hdispatch, hworld⟩ := Option.map_eq_some_iff.mp hstep
  obtain ⟨sent, hmoves⟩ := DispatchStage.step_moves dispatch.appId world.channel h.formed
    (h.dispatcher dispatch hdispatch) (hclear dispatch hdispatch)
  generalize dispatch.stage.step works dispatch.appId world.store world.channel = result
    at hmoves hworld
  obtain ⟨stage, store, channel⟩ := result
  obtain ⟨hchannel, hacts, hnext, hsent⟩ := hmoves
  obtain rfl : channel = world.channel ++ sent := hchannel
  subst hworld
  let others := world.worker.elim [] (fun work => work.stage.held work.job) ++
    (world.submitting ++ world.channel).map (·.taskId)
  have hheld : world.held = dispatch.stage.held ++ others := by
    rw [held, hdispatch]
    rfl
  have hheld' : held { world with
      store, channel := world.channel ++ sent
      dispatcher := stage.map (⟨dispatch.appId, ·⟩) } |>.Perm
      (DispatchStage.heldBy stage ++ sent.map (·.taskId) ++ others) := by
    refine List.perm_iff_count.mpr fun taskId => ?_
    cases stage <;> simp [held, others, DispatchStage.heldBy, List.count_append] <;> omega
  obtain ⟨⟨moved, hstatement, hothers⟩, halone, hpaired, hdistinct⟩ :=
    h.party _ others hacts (hheld ▸ .refl _) hheld'
  refine ⟨⟨hstatement.formed, halone, hpaired, hdistinct, fun taskId hmem => ?_,
    fun next hdispatcher => ?_, fun work hwork => ?_, fun job hjob => ?_, h.submitted⟩,
    moved, hstatement⟩
  · exact ⟨h.pending_keep hstatement hmem, (h.pending taskId hmem).2⟩
  · obtain ⟨next, hstage, rfl⟩ := Option.map_eq_some_iff.mp hdispatcher
    exact hnext next hstage
  · refine (h.worker work hwork).keep hstatement fun taskId hmem => hothers taskId ?_
    exact List.mem_append_left _ (by rw [hwork]; exact hmem)
  · rw [← List.append_assoc] at hjob
    refine (List.mem_append.mp hjob).elim (fun hjob => ?_) (hsent job)
    exact (h.jobs job hjob).keep hstatement
      (hothers job.taskId (List.mem_append_right _ (List.mem_map_of_mem hjob)))

/-- A clear step of the worker keeps the pairs. -/
theorem Paired.work_step (h : world.Paired) {works : Bool} (hclear : world.Clear (.work works))
    (hstep : world.step (.work works) = some world') : world.Kept world' := by
  obtain ⟨work, hwork, hworld⟩ := Option.map_eq_some_iff.mp hstep
  have howns := h.worker work hwork
  obtain ⟨sent, hmoves⟩ :=
    WorkStage.step_moves world.channel h.formed howns (hclear work hwork)
  generalize work.stage.step works work.job world.store world.channel = result at hmoves hworld
  obtain ⟨stage, store, channel⟩ := result
  obtain ⟨hchannel, hacts, hnext, hsent, hstarted⟩ := hmoves
  obtain rfl : channel = world.channel ++ sent := hchannel
  subst hworld
  let others := world.dispatcher.elim [] (·.stage.held) ++
    (world.submitting ++ world.channel).map (·.taskId)
  have hheld : world.held.Perm (work.stage.held work.job ++ others) := by
    refine List.perm_iff_count.mpr fun taskId => ?_
    simp only [held, hwork, others, List.count_append, Option.elim_some]
    omega
  have hheld' : held { world with
      store, channel := world.channel ++ sent
      worker := stage.map (⟨work.job, ·⟩) } |>.Perm
      (WorkStage.heldBy work.job stage ++ sent.map (·.taskId) ++ others) := by
    refine List.perm_iff_count.mpr fun taskId => ?_
    cases stage <;> simp [held, others, WorkStage.heldBy, List.count_append] <;> omega
  obtain ⟨⟨moved, hstatement, hothers⟩, halone, hpaired, hdistinct⟩ :=
    h.party _ others hacts hheld hheld'
  refine ⟨⟨hstatement.formed, halone, hpaired, hdistinct, fun taskId hmem => ?_,
    fun dispatch hdispatch => ?_, fun next hworker => ?_, fun job hjob => ?_, h.submitted⟩,
    moved, hstatement⟩
  · refine ⟨h.pending_keep hstatement hmem, fun next hworker hnextStarted => ?_⟩
    obtain ⟨next, hstage, rfl⟩ := Option.map_eq_some_iff.mp hworker
    rcases hstarted next hstage hnextStarted with hbefore | hqueued
    · exact (h.pending taskId hmem).2 work hwork hbefore
    · rintro rfl
      obtain ⟨⟨status, hstatus, hne⟩, -⟩ := h.pending _ hmem
      exact hne (Option.some.inj (hstatus.symm.trans hqueued))
  · refine (h.dispatcher dispatch hdispatch).keep hstatement fun taskId hmem => hothers taskId ?_
    exact List.mem_append_left _ (by rw [hdispatch]; exact hmem)
  · obtain ⟨next, hstage, rfl⟩ := Option.map_eq_some_iff.mp hworker
    exact hnext next hstage
  · rw [← List.append_assoc] at hjob
    refine (List.mem_append.mp hjob).elim (fun hjob => ?_) (hsent job)
    exact (h.jobs job hjob).keep hstatement
      (hothers job.taskId (List.mem_append_right _ (List.mem_map_of_mem hjob)))

/-- A dispatch that starts keeps the pairs. -/
theorem Paired.startDispatch_step (h : world.Paired) {appId : Int}
    (hstep : world.step (.startDispatch appId) = some world') : world.Kept world' := by
  simp only [step] at hstep
  split at hstep
  · rename_i hnone
    obtain rfl := Option.some.inj hstep
    have hheld : held { world with dispatcher := some ⟨appId, .counting⟩ } = world.held := by
      simp [held, hnone, DispatchStage.held]
    refine ⟨⟨h.formed, h.alone, hheld ▸ h.paired, hheld ▸ h.distinct, h.pending,
      fun dispatch hdispatch => ?_, h.worker, h.jobs, h.submitted⟩, none, h.formed.statement_none⟩
    rw [← Option.some.inj hdispatch]
    trivial
  · cases hstep

/-- A job that the worker takes keeps the pairs. -/
theorem Paired.takeJob_step (h : world.Paired) (hstep : world.step .takeJob = some world') :
    world.Kept world' := by
  simp only [step] at hstep
  split at hstep
  · rename_i job channel hnone hchannel
    obtain rfl := Option.some.inj hstep
    have hheld : held { world with channel, worker := some ⟨job, .starting⟩ } |>.Perm world.held := by
      refine List.perm_iff_count.mpr fun taskId => ?_
      simp [held, hnone, hchannel, WorkStage.held, List.count_append, List.count_cons]
      omega
    have hjobs {other : ComposeTaskJob} (hother : other ∈ world.submitting ++ channel) :
        other ∈ world.submitting ++ world.channel := by
      rw [hchannel]
      exact (List.mem_append.mp hother).elim (List.mem_append_left _) fun hmem =>
        List.mem_append_right _ (List.mem_cons_of_mem _ hmem)
    refine ⟨⟨h.formed, h.alone, fun item hitem hrunning taskId hname => ?_, fun taskId => ?_,
      fun taskId hmem => ⟨(h.pending taskId hmem).1, fun work hwork hstarted => ?_⟩, h.dispatcher,
      fun work hwork => ?_, fun other hother => h.jobs other (hjobs hother), h.submitted⟩,
      none, h.formed.statement_none⟩
    · exact (h.paired item hitem hrunning taskId hname).imp_right hheld.mem_iff.mpr
    · rw [hheld.count_eq]
      exact h.distinct taskId
    · rw [← Option.some.inj hwork] at hstarted
      cases hstarted
    · rw [← Option.some.inj hwork]
      exact h.jobs job (List.mem_append_right _ (hchannel ▸ List.mem_cons_self))
  · cases hstep

end World

namespace Store.Formed

variable {store store' : Store}

/-- The transaction of a publication moves no task. -/
theorem statement_publish (h : store.Formed) (appId releaseId snapshotId : Int) :
    Statement none store (store.publishTransaction appId releaseId snapshotId).2 := by
  unfold publishTransaction
  split
  · rename_i queueId enqueued henqueue
    exact (h.statement_enqueue rfl henqueue).setReleaseStatus releaseId .queued
  · exact h.statement_none.setReleaseStatus releaseId .queued

/-- The transaction of a schedule moves no task. -/
theorem statement_schedule (h : store.Formed) (appId releaseId snapshotId : Int) (time : String) :
    Statement none store
      ((store.scheduleTransaction appId releaseId snapshotId time).getD store) := by
  unfold scheduleTransaction
  cases henqueue : store.enqueueAppRelease appId releaseId snapshotId .scheduled (some time) with
  | none => exact h.statement_none
  | some enqueued => exact (h.statement_enqueue rfl henqueue).setReleaseStatus releaseId .queued

/-- A promotion moves no task. -/
theorem statement_promote (h : store.Formed) {queueId : Int} {promoted : Bool}
    (hpromote : store.promoteItem queueId = .ok (promoted, store')) :
    Statement none store store' := by
  have hsame : Statement none store store := h.statement_none
  unfold promoteItem at hpromote
  split at hpromote
  · split at hpromote
    · split at hpromote
      · cases hpromote
      · obtain ⟨-, rfl⟩ := Prod.mk.inj (Except.ok.inj hpromote)
        refine h.statement_update
          (fun item => { item with status := .queued, scheduledPublishAt := none }) (fun _ => rfl)
          (fun item hitem _ hguard => ?_) (by intros; contradiction)
        have hscheduled : item.status = .scheduled := beq_iff_eq.mp hguard
        refine ⟨rfl, rfl, rfl, .inl rfl, .inr (.inl ⟨fun heq => ?_, fun heq => by cases heq⟩),
          fun hcanceled => ?_, fun _ => ?_, fun heq => by cases heq⟩
        · rw [hscheduled] at heq
          cases heq
        · rw [hscheduled] at hcanceled
          cases hcanceled
        · exact h.waiting item hitem (by rw [hscheduled]; rfl)
    · obtain ⟨-, rfl⟩ := Prod.mk.inj (Except.ok.inj hpromote)
      exact hsame
  · obtain ⟨-, rfl⟩ := Prod.mk.inj (Except.ok.inj hpromote)
    exact hsame

/-- To cancel a schedule moves no task. -/
theorem statement_cancelScheduled (h : store.Formed) {releaseId : Int}
    (hcancel : store.cancelScheduledRelease releaseId = .ok store') :
    Statement none store store' := by
  unfold cancelScheduledRelease at hcancel
  split at hcancel
  · cases hcancel
  · obtain rfl := Except.ok.inj hcancel
    refine Statement.setReleaseStatus ?_ releaseId .received
    refine h.statement_update
      (fun item => { item with status := .canceled, scheduledPublishAt := none }) (fun _ => rfl)
      (fun item _ _ hguard => ?_) (by intros; contradiction)
    rw [QueueItem.awaitsTime, Bool.and_eq_true, beq_iff_eq] at hguard
    exact .ended rfl rfl rfl rfl (fun heq => by rw [hguard.1] at heq; cases heq) rfl fun _ => rfl

/-- To cancel an item that is not running moves no task. -/
theorem statement_cancelItem (h : store.Formed) {queueId : Int} (releaseId : Int)
    (hidle : ∀ item ∈ store.queue, item.id = queueId → item.status ≠ .running) :
    Statement none store (store.cancelItemTransaction queueId releaseId) := by
  refine Statement.setReleaseStatus ?_ releaseId .received
  exact h.statement_update
    (fun item => { item with status := .canceled, scheduledPublishAt := none }) (fun _ => rfl)
    (fun item hitem hid _ => .ended rfl rfl rfl rfl (hidle item hitem hid) rfl fun _ => rfl) nofun

end Store.Formed

namespace World

variable {world world' : World}

/-- Requests to publish, and those to cancel an item, whose statements move no running item. -/
theorem Paired.request_kept (h : world.Paired) {action : Action} (hclear : world.Clear action)
    (hstep : world.step action = some world')
    (hrequest : match action with
      | .readRelease _ _ | .checkRelease _ | .commitRelease _ _ _ | .promoteItem _
      | .cancelScheduledRelease _ | .readItem _ | .commitItem _ _ _ => True
      | _ => False) : world.Kept world' := by
  have hof (hstatement : Store.Statement none world.store world'.store)
      (hsame : world'.channel = world.channel ∧ world'.dispatcher = world.dispatcher ∧
        world'.worker = world.worker ∧ world'.submitting = world.submitting ∧
        world'.cancelingTasks = world.cancelingTasks) : world.Kept world' :=
    ⟨h.request hstatement hsame.1 hsame.2.1 hsame.2.2.1 hsame.2.2.2.1
      fun taskId hmem => hsame.2.2.2.2 ▸ hmem, none, hstatement⟩
  cases action with
  | readRelease releaseId scheduledPublishAt =>
      obtain ⟨release, -, rfl⟩ := Option.map_eq_some_iff.mp hstep
      exact hof h.formed.statement_none ⟨rfl, rfl, rfl, rfl, rfl⟩
  | checkRelease call =>
      simp only [step] at hstep
      split at hstep
      · obtain rfl := Option.some.inj hstep
        exact hof h.formed.statement_none ⟨rfl, rfl, rfl, rfl, rfl⟩
      · cases hstep
  | commitRelease call snapshotId works =>
      simp only [step] at hstep
      split at hstep
      · obtain rfl := Option.some.inj hstep
        refine hof ?_ ⟨rfl, rfl, rfl, rfl, rfl⟩
        cases works with
        | false => exact h.formed.statement_none
        | true =>
            show Store.Statement none world.store (world.commitRelease call snapshotId)
            unfold commitRelease
            split
            · exact h.formed.statement_publish _ _ _
            · exact h.formed.statement_schedule _ _ _ _
      · cases hstep
  | promoteItem queueId =>
      simp only [step] at hstep
      split at hstep
      · rename_i promoted store hpromote
        obtain rfl := Option.some.inj hstep
        exact hof (h.formed.statement_promote hpromote) ⟨rfl, rfl, rfl, rfl, rfl⟩
      · cases hstep
  | cancelScheduledRelease releaseId =>
      simp only [step] at hstep
      split at hstep
      · rename_i store hcancel
        obtain rfl := Option.some.inj hstep
        exact hof (h.formed.statement_cancelScheduled hcancel) ⟨rfl, rfl, rfl, rfl, rfl⟩
      · cases hstep
  | readItem queueId =>
      simp only [step] at hstep
      split at hstep
      · split at hstep
        · obtain rfl := Option.some.inj hstep
          exact hof h.formed.statement_none ⟨rfl, rfl, rfl, rfl, rfl⟩
        · cases hstep
      · cases hstep
  | commitItem queueId releaseId works =>
      simp only [step] at hstep
      split at hstep
      · obtain rfl := Option.some.inj hstep
        refine hof ?_ ⟨rfl, rfl, rfl, rfl, rfl⟩
        cases works with
        | false => exact h.formed.statement_none
        | true => exact h.formed.statement_cancelItem releaseId hclear
      · cases hstep
  | _ => cases hrequest

/-- A task that is created outside of the queue keeps the pairs. -/
theorem Paired.createComposeTask_step (h : world.Paired) {kind : TaskKind} {appId : Int}
    (hstep : world.step (.createComposeTask kind appId) = some world') : world.Kept world' := by
  simp only [step] at hstep
  split at hstep
  · rename_i taskId store hcreate
    obtain rfl := Option.some.inj hstep
    have hstatement := h.formed.statement_createTask hcreate
    obtain ⟨hqueue, hnone, hqueued, -⟩ := Store.createTask_eq_ok hcreate
    have hunnamed : ∀ item ∈ store.queue, item.taskId ≠ some taskId := by
      rw [hqueue]
      intro item hitem hname
      have hsome := h.formed.tasks item hitem taskId hname
      rw [hnone] at hsome
      cases hsome
    let job : ComposeTaskJob := ⟨taskId, appId, none, none⟩
    have hacts : world.store.Acts store [] [taskId] := by
      refine ⟨⟨none, hstatement, nofun⟩, fun other => ?_, ?_, hstatement.alone⟩
      · by_cases heq : taskId = other
        · exact .inr ⟨heq ▸ hnone, by simp [heq]⟩
        · exact .inl (by simp [heq])
      · intro _ _ _ other hother
        cases hother
    have hheld' : held { world with store, submitting := world.submitting ++ [job] } |>.Perm
        ([taskId] ++ world.held) := by
      refine List.perm_iff_count.mpr fun other => ?_
      simp only [held, job, List.count_append, List.map_append, List.map_cons, List.map_nil]
      omega
    obtain ⟨-, halone, hpaired, hdistinct⟩ := h.party _ world.held hacts (.refl _) hheld'
    refine ⟨⟨hstatement.formed, halone, hpaired, hdistinct, fun other hmem =>
      ⟨h.pending_keep hstatement hmem, (h.pending other hmem).2⟩, fun dispatch hdispatch =>
      (h.dispatcher dispatch hdispatch).keep hstatement nofun, fun work hwork =>
      (h.worker work hwork).keep hstatement nofun, fun other hother => ?_, fun other hother => ?_⟩,
      none, hstatement⟩
    · have hcases : other ∈ world.submitting ++ world.channel ∨ other = job := by
        simp only [List.mem_append, List.mem_singleton] at hother ⊢
        tauto
      rcases hcases with hold | rfl
      · exact (h.jobs other hold).keep hstatement nofun
      · refine ⟨⟨nofun, fun item hitem => ⟨fun hname => absurd hname (hunnamed item hitem), nofun⟩,
          .queued, hqueued, .inl rfl, fun item hitem hname =>
            absurd hname (hunnamed item hitem)⟩, rfl⟩
    · rcases List.mem_append.mp hother with hold | hnew
      · exact h.submitted other hold
      · rw [List.mem_singleton.mp hnew]
  · cases hstep

/-- A task that is sent outside of the queue keeps the pairs. -/
theorem Paired.sendComposeTask_step (h : world.Paired) {job : ComposeTaskJob} {works : Bool}
    (hstep : world.step (.sendComposeTask job works) = some world') : world.Kept world' := by
  simp only [step] at hstep
  split at hstep
  · rename_i hmem
    have hperm := List.perm_cons_erase hmem
    have hcount (taskId : Int) : (world.submitting.map (·.taskId)).count taskId =
        (job.taskId :: (world.submitting.erase job).map (·.taskId)).count taskId :=
      (hperm.map (·.taskId)).count_eq taskId
    cases works with
    | true =>
        obtain rfl := Option.some.inj hstep
        have hheld : held { world with
            submitting := world.submitting.erase job
            channel := world.channel ++ [job] } |>.Perm world.held := by
          refine List.perm_iff_count.mpr fun taskId => ?_
          have hsame := hcount taskId
          simp only [held, List.count_append, List.map_append, List.map_cons, List.map_nil,
            List.count_cons, List.count_nil] at hsame ⊢
          omega
        refine ⟨⟨h.formed, h.alone, fun item hitem hrunning taskId hname => ?_, fun taskId => ?_,
          h.pending, h.dispatcher, h.worker, fun other hother => ?_, fun other hother =>
          h.submitted other (List.mem_of_mem_erase hother)⟩, none, h.formed.statement_none⟩
        · exact (h.paired item hitem hrunning taskId hname).imp_right hheld.mem_iff.mpr
        · rw [hheld.count_eq]
          exact h.distinct taskId
        · have hcases : other ∈ world.submitting.erase job ∨ other ∈ world.channel ∨ other = job := by
            simpa only [List.mem_append, List.mem_singleton] using hother
          rcases hcases with hold | hold | rfl
          · exact h.jobs other (List.mem_append_left _ (List.mem_of_mem_erase hold))
          · exact h.jobs other (List.mem_append_right _ hold)
          · exact h.jobs other (List.mem_append_left _ hmem)
    | false =>
        obtain rfl := Option.some.inj hstep
        have hjob := (h.jobs job (List.mem_append_left _ hmem)).holds
        rw [h.submitted job hmem] at hjob
        have hacts := h.formed.acts_finishTask hjob.unnamed_of_none
          (nofun : TaskStatus.failed ≠ .queued)
        let others := held { world with submitting := world.submitting.erase job }
        have hheld : world.held.Perm ([job.taskId] ++ others) := by
          refine List.perm_iff_count.mpr fun taskId => ?_
          have hsame := hcount taskId
          simp only [held, others, List.count_append, List.map_append, List.count_cons,
            List.count_nil] at hsame ⊢
          omega
        obtain ⟨⟨moved, hstatement, hothers⟩, halone, hpaired, hdistinct⟩ :=
          h.party { world with
            submitting := world.submitting.erase job
            store := world.store.finishTask job.taskId .failed } others hacts hheld (.refl _)
        have hkept {other : ComposeTaskJob}
            (hother : other ∈ world.submitting.erase job ++ world.channel) :
            other ∈ world.submitting ++ world.channel :=
          (List.mem_append.mp hother).elim
            (fun hold => List.mem_append_left _ (List.mem_of_mem_erase hold))
            (List.mem_append_right _)
        refine ⟨⟨hstatement.formed, halone, hpaired, hdistinct, fun other hmem =>
          ⟨h.pending_keep hstatement hmem, (h.pending other hmem).2⟩, fun dispatch hdispatch => ?_,
          fun work hwork => ?_, fun other hother => ?_, fun other hother =>
          h.submitted other (List.mem_of_mem_erase hother)⟩, moved, hstatement⟩
        · exact (h.dispatcher dispatch hdispatch).keep hstatement fun taskId hmem =>
            hothers taskId (mem_held.mpr (.inl ⟨dispatch, hdispatch, hmem⟩))
        · exact (h.worker work hwork).keep hstatement fun taskId hmem =>
            hothers taskId (mem_held.mpr (.inr (.inl ⟨work, hwork, hmem⟩)))
        · exact (h.jobs other (hkept hother)).keep hstatement
            (hothers other.taskId (mem_held.mpr (.inr (.inr ⟨other, hother, rfl⟩))))
  · cases hstep

end World

namespace Store

variable {store store' : Store} {taskId other : Int} {queueId : Option Int} {phase : Phase}

/-- The task of a job that waits is canceled. -/
theorem Holds.cancelTask (h : store.Holds other queueId phase) (hformed : store.Formed)
    (hqueued : store.taskStatus taskId = some .queued)
    (hphase : phase = .waiting ∨ phase = .dropped) :
    (store.cancelTask taskId).Holds other queueId phase := by
  by_cases heq : other = taskId
  · subst heq
    obtain ⟨status, -, -, hitems⟩ := h.statuses
    refine ⟨h.known, h.named, .canceled, taskStatus_of_queued hqueued .canceled, ?_, fun item hitem
      hname => ?_⟩
    · rcases hphase with rfl | rfl
      · exact .inr rfl
      · trivial
    · have hstatus := hitems item hitem hname
      rcases hphase with rfl | rfl
      · exact hstatus.imp_right fun hcanceled => ⟨rfl, hcanceled.2⟩
      · exact hstatus
  · exact h.keep (hformed.statement_task taskId (·.status == .queued) nofun) fun hsame =>
      heq (Option.some.inj hsame)

/-- What the transaction of `cancel_queued_task` does. -/
theorem cancelTaskTransaction_cases (hformed : store.Formed) (taskId : Int) :
    store.cancelTaskTransaction taskId = store ∨
    ∃ item ∈ store.queue, item.taskId = some taskId ∧ item.status = .running ∧
      store.cancelTaskTransaction taskId = { store with
        queue := updateAt store.queue (·.id) item.id (·.status.isActive)
          fun item => { item with status := .canceled } }.setReleaseStatus item.releaseId
            .received := by
  unfold cancelTaskTransaction
  split
  · rename_i item hfind
    have hitem := List.mem_of_find?_eq_some hfind
    have hfound := List.find?_some hfind
    simp only [Bool.and_eq_true, beq_iff_eq] at hfound
    refine .inr ⟨item, hitem, hfound.1, ?_, rfl⟩
    cases hcase : item.status with
    | running => rfl
    | queued =>
        have hnone := hformed.waiting item hitem (by rw [hcase]; rfl)
        rw [hnone] at hfound
        cases hfound.1
    | scheduled | success | failed | canceled =>
        rw [hcase] at hfound
        cases hfound.2
  · exact .inl rfl

/-- To cancel a task moves no other one. -/
theorem Formed.statement_cancelTask (h : store.Formed) (taskId : Int) :
    Statement (some taskId) store (store.cancelTaskTransaction taskId) := by
  rcases cancelTaskTransaction_cases h taskId with heq | ⟨item, hitem, hname, hrunning, heq⟩
  · rw [heq]
    exact h.statement_none
  · rw [heq]
    refine Statement.setReleaseStatus ?_ item.releaseId .received
    refine h.statement_update (fun item => { item with status := .canceled }) (fun _ => rfl)
      (fun old hold hid _ => ?_) fun other hother => ?_
    · obtain rfl := h.keyed.eq hold hitem hid
      exact ⟨rfl, rfl, rfl, .inl rfl, .inr (.inr ⟨rfl, hname⟩), fun _ => rfl, nofun, nofun⟩
    · rw [← Option.some.inj hother]
      exact h.tasks item hitem taskId hname

/-- The item of a job that waits is canceled behind its task. -/
theorem Holds.cancelTaskTransaction (h : store.Holds other queueId phase) (hformed : store.Formed)
    (hunqueued : store.taskStatus taskId ≠ some .queued)
    (hphase : phase = .waiting ∨ phase = .dropped) :
    (store.cancelTaskTransaction taskId).Holds other queueId phase := by
  by_cases heq : other = taskId
  · subst heq
    rcases cancelTaskTransaction_cases hformed other with hsame | ⟨item, hitem, hname, hrunning, hsame⟩
    · rw [hsame]
      exact h
    · obtain ⟨status, hstatus, htask, hitems⟩ := h.statuses
      rw [hsame]
      refine ⟨fun id hid => ?_, forall_updateAt (fun old hold _ _ => h.named old hold)
        fun old hold _ => h.named old hold, status, hstatus, htask,
        forall_updateAt (fun old hold _ _ hold' => ?_) fun old hold _ => hitems old hold⟩
      · have hids : (updateAt store.queue (·.id) item.id (·.status.isActive)
            fun item => { item with status := .canceled }).map (·.id) = store.queue.map (·.id) :=
          map_updateAt fun _ => rfl
        exact hids ▸ h.known id hid
      · rcases hphase with rfl | rfl
        · refine .inr ⟨htask.resolve_left fun hqueued => hunqueued ?_, rfl⟩
          rw [hstatus, hqueued]
        · exact nofun
  · exact h.keep (hformed.statement_cancelTask taskId) fun hsame => heq (Option.some.inj hsame)

end Store

namespace World

variable {world world' : World}

/-- The workers know the same when a request cancels a task that has not been started, or its
item. -/
theorem Paired.cancel (h : world.Paired) {taskId : Int} {store : Store}
    (hstatement : Store.Statement (some taskId) world.store store)
    (hholds : ∀ other queueId phase, phase = .waiting ∨ phase = .dropped →
      world.store.Holds other queueId phase → store.Holds other queueId phase)
    (hstarted : ∀ work, world.worker = some work → work.stage.started = true →
      work.job.taskId ≠ taskId) :
    (∀ dispatch, world.dispatcher = some dispatch → store.Dispatches dispatch.stage) ∧
    (∀ work, world.worker = some work → store.Works work.job work.stage) ∧
    ∀ job ∈ world.submitting ++ world.channel, store.HoldsJob job .waiting := by
  have hselected (item : QueueItem) (hitem : world.store.Selected item) : store.Selected item :=
    hitem.keep hstatement
  refine ⟨fun dispatch hdispatch => ?_, fun work hwork => ?_, fun job hjob => ?_⟩
  · exact (h.dispatcher dispatch hdispatch).map hselected fun other _ queueId phase hphase =>
      hholds other queueId phase hphase
  · cases hcase : work.stage.started with
    | false => exact (h.worker work hwork).map hcase hselected hholds
    | true =>
        have hne := hstarted work hwork hcase
        refine (h.worker work hwork).keep hstatement fun other hmem heq => hne ?_
        rw [WorkStage.held_of_started hcase, List.mem_singleton] at hmem
        exact hmem.symm.trans (Option.some.inj heq)
  · exact ⟨hholds _ _ _ (.inl rfl) (h.jobs job hjob).holds, (h.jobs job hjob).release⟩

/-- A task that is canceled while no item runs by it keeps the pairs. -/
theorem Paired.cancelTask_step (h : world.Paired) {taskId : Int}
    (hclear : world.Clear (.cancelTask taskId))
    (hstep : world.step (.cancelTask taskId) = some world') : world.Kept world' := by
  simp only [step] at hstep
  split at hstep
  · rename_i hqueued
    obtain rfl := Option.some.inj hstep
    have hstatement : Store.Statement (some taskId) world.store (world.store.cancelTask taskId) :=
      h.formed.statement_task taskId (·.status == .queued) nofun
    have hstarted (work : Work) (hwork : world.worker = some work)
        (hcase : work.stage.started = true) : work.job.taskId ≠ taskId := by
      rintro rfl
      obtain ⟨status, hstatus, hne⟩ := (h.worker work hwork).unqueued hcase
      exact hne (Option.some.inj (hstatus.symm.trans hqueued))
    obtain ⟨hdispatcher, hworker, hjobs⟩ := h.cancel hstatement
      (fun _ _ _ hphase hholds => hholds.cancelTask h.formed hqueued hphase) hstarted
    refine ⟨⟨hstatement.formed, h.alone, fun item hitem hrunning other hname => ?_, h.distinct,
      fun other hmem => ?_, hdispatcher, hworker, hjobs, h.submitted⟩, some taskId, hstatement⟩
    · by_cases heq : other = taskId
      · subst heq
        exact .inr (hclear.resolve_left fun hfree => hfree item hitem hrunning hname)
      · refine (h.paired item hitem hrunning other hname).imp_left fun hopen => ?_
        rw [Store.Open, hstatement.tasks other (fun hsame => heq (Option.some.inj hsame))
          (h.formed.tasks item hitem other hname)]
        exact hopen
    · rcases List.mem_append.mp hmem with hold | hnew
      · exact ⟨h.pending_keep hstatement hold, (h.pending other hold).2⟩
      · rw [List.mem_singleton.mp hnew]
        exact ⟨⟨.canceled, Store.taskStatus_of_queued hqueued .canceled, nofun⟩, hstarted⟩
  · cases hstep

/-- The commit of a task keeps the pairs. -/
theorem Paired.commitTask_step (h : world.Paired) {taskId : Int} {works : Bool}
    (hstep : world.step (.commitTask taskId works) = some world') : world.Kept world' := by
  simp only [step] at hstep
  split at hstep
  · rename_i hmem
    obtain rfl := Option.some.inj hstep
    cases works with
    | false =>
        have hstatement : Store.Statement none world.store world.store := h.formed.statement_none
        exact ⟨h.request hstatement rfl rfl rfl rfl fun _ => List.mem_of_mem_erase, none, hstatement⟩
    | true =>
        obtain ⟨⟨status, hstatus, hne⟩, hstarted⟩ := h.pending taskId hmem
        have hunqueued : world.store.taskStatus taskId ≠ some .queued := fun hqueued =>
          hne (Option.some.inj (hstatus.symm.trans hqueued))
        have hstatement := h.formed.statement_cancelTask taskId
        obtain ⟨hdispatcher, hworker, hjobs⟩ := h.cancel hstatement
          (fun _ _ _ hphase hholds => hholds.cancelTaskTransaction h.formed hunqueued hphase)
          hstarted
        have htasks (other : Int) : (world.store.cancelTaskTransaction taskId).taskStatus other =
            world.store.taskStatus other := by
          rcases Store.cancelTaskTransaction_cases h.formed taskId with heq | ⟨_, _, _, _, heq⟩
          · rw [heq]
          · rw [heq]
            rfl
        have hold : ∀ item ∈ (world.store.cancelTaskTransaction taskId).queue,
            item.status = .running → item ∈ world.store.queue := by
          rcases Store.cancelTaskTransaction_cases h.formed taskId with heq | ⟨_, _, _, _, heq⟩
          · rw [heq]
            exact fun _ hitem _ => hitem
          · rw [heq]
            exact forall_updateAt (fun _ _ _ _ hrunning => nomatch hrunning) fun _ hitem _ _ => hitem
        refine ⟨⟨hstatement.formed, ?_, fun item hitem hrunning other hname => ?_, h.distinct,
          fun other hother => ?_, hdispatcher, hworker, hjobs, h.submitted⟩, some taskId, hstatement⟩
        · exact fun item hitem item' hitem' hrun hrun' => h.alone item (hold item hitem hrun) item'
            (hold item' hitem' hrun') hrun hrun'
        · refine (h.paired item (hold item hitem hrunning) hrunning other hname).imp_left fun hopen =>
            ?_
          exact hopen.imp (htasks other).trans (htasks other).trans
        · have hmem' := List.mem_of_mem_erase hother
          exact ⟨h.pending_keep hstatement hmem', (h.pending other hmem').2⟩
  · cases hstep

/-- A step that keeps clear of the others keeps the invariant. -/
theorem Paired.step (h : world.Paired) {action : Action} (hclear : world.Clear action)
    (hstep : world.step action = some world') : world.Kept world' := by
  cases action with
  | readRelease | checkRelease | commitRelease | promoteItem | cancelScheduledRelease | readItem
  | commitItem => exact h.request_kept hclear hstep trivial
  | cancelTask taskId => exact h.cancelTask_step hclear hstep
  | commitTask taskId works => exact h.commitTask_step hstep
  | createComposeTask kind appId => exact h.createComposeTask_step hstep
  | sendComposeTask job works => exact h.sendComposeTask_step hstep
  | startDispatch appId => exact h.startDispatch_step hstep
  | dispatch works => exact h.dispatch_step hclear hstep
  | takeJob => exact h.takeJob_step hstep
  | work works => exact h.work_step hclear hstep

/-- An initial state has its items and tasks in pairs. -/
theorem Initial.paired (h : world.Initial) : world.Paired := by
  obtain ⟨hchannel, hdispatcher, hworker, -, -, htasks, hsubmitting, hkeyed, hitems⟩ := h
  have hheld : world.held = [] := by
    rw [held, hdispatcher, hworker, hsubmitting, hchannel]
    rfl
  refine ⟨⟨hkeyed, fun item hitem => (hitems item hitem).2.1, fun item hitem hrunning =>
    absurd hrunning (hitems item hitem).1, fun item hitem => (hitems item hitem).2.2⟩,
    fun item hitem _ _ hrunning => absurd hrunning (hitems item hitem).1,
    fun item hitem hrunning => absurd hrunning (hitems item hitem).1, fun taskId => ?_,
    fun taskId hmem => ?_, fun dispatch hdispatch => ?_, fun work hwork => ?_, fun job hjob => ?_,
    fun job hjob => ?_⟩
  · rw [hheld]
    exact Nat.zero_le _
  · rw [htasks] at hmem
    cases hmem
  · rw [hdispatcher] at hdispatch
    cases hdispatch
  · rw [hworker] at hwork
    cases hwork
  · rw [hsubmitting, hchannel] at hjob
    cases hjob
  · rw [hsubmitting] at hjob
    cases hjob

end World

/-- Items and tasks are paired in every state of a clear run. -/
theorem paired_of_reached {world : World} (h : interleaving.Reached World.Clear world) :
    world.Paired :=
  h.invariant (fun _ hinitial => World.Initial.paired hinitial)
    fun _ _ _ _ hclear hpaired hstep => (hpaired.step hclear hstep).1

/-- What is expected of queue items in a state of a run: a canceled item stays canceled, no job
deploys the release of a canceled item, a running item names a task that is open or whose job has
not returned, and at most one item of an application is running. -/
def World.KeepsItems (permitted : World → Action → Prop) (world : World) : Prop :=
  (∀ later, (interleaving.startingAt world).Reached permitted later →
    ∀ item ∈ world.store.queue, item.status = .canceled →
    ∀ item' ∈ later.store.queue, item'.id = item.id → item'.status = .canceled) ∧
  (∀ work, world.worker = some work → work.stage = .deploying →
    ∀ item ∈ world.store.queue, work.job.queueId = some item.id → item.status ≠ .canceled) ∧
  (∀ item ∈ world.store.queue, item.status = .running → ∃ taskId, item.taskId = some taskId ∧
    (world.store.taskStatus taskId = some .queued ∨ world.store.taskStatus taskId = some .running ∨
      taskId ∈ world.held)) ∧
  ∀ item ∈ world.store.queue, ∀ item' ∈ world.store.queue, item.status = .running →
    item'.status = .running → item.appId = item'.appId → item = item'

/-- Canceled items stay canceled as long as the steps keep clear of each other. -/
theorem canceled_of_later {world later : World} (h : interleaving.Reached World.Clear world)
    (hlater : (interleaving.startingAt world).Reached World.Clear later) {item : QueueItem}
    (hitem : item ∈ world.store.queue) (hcanceled : item.status = .canceled) :
    ∃ item' ∈ later.store.queue, item'.id = item.id ∧ item'.status = .canceled := by
  induction hlater with
  | start hstart =>
      obtain rfl := hstart
      exact ⟨item, hitem, rfl, hcanceled⟩
  | next before hclear hstep ih =>
      obtain ⟨old, hold, hid, hstatus⟩ := ih
      obtain ⟨-, moved, hstatement⟩ := (paired_of_reached (h.of_startingAt before)).step hclear hstep
      obtain ⟨item', hitem', hfollows⟩ := hstatement.kept old hold
      exact ⟨item', hitem', hfollows.id.trans hid, hfollows.canceled hstatus⟩

/-- In runs whose steps keep clear of each other queue items stay paired with their tasks. -/
theorem queue_items_paired {world : World} (h : interleaving.Reached World.Clear world) :
    world.KeepsItems World.Clear := by
  have hpaired := paired_of_reached h
  refine ⟨fun later hlater item hitem hcanceled item' hitem' hid => ?_,
    fun work hwork hdeploying item hitem hname hcanceled => ?_, fun item hitem hrunning => ?_,
    hpaired.alone⟩
  · obtain ⟨old, hold, holdid, hstatus⟩ := canceled_of_later h hlater hitem hcanceled
    have hformed := (paired_of_reached (h.of_startingAt hlater)).formed
    rw [hformed.keyed.eq hitem' hold (hid.trans holdid.symm)]
    exact hstatus
  · have howns := hpaired.worker work hwork
    rw [hdeploying] at howns
    have hjob : world.store.HoldsJob work.job .live := howns
    obtain ⟨status, -, -, hstatuses⟩ := hjob.holds.statuses
    have hrunning := hstatuses item hitem ((hjob.holds.named item hitem).mpr hname)
    rw [show item.status = .running from hrunning] at hcanceled
    cases hcanceled
  · obtain ⟨taskId, hname⟩ := Option.isSome_iff_exists.mp (hpaired.formed.running item hitem hrunning).2
    exact ⟨taskId, hname, or_assoc.mp (hpaired.paired item hitem hrunning taskId hname)⟩

/-- A world with one release whose item waits. -/
def queuedWorld : World :=
  ⟨⟨[⟨1, 1, .queued⟩], [⟨1, 1, 1, some 7, 1, .queued, none, none⟩], []⟩, [], none, none, [], [], [],
    []⟩

theorem initial_queuedWorld : queuedWorld.Initial := by
  refine ⟨rfl, rfl, rfl, rfl, rfl, rfl, rfl, List.nodup_singleton 1, fun item hitem => ?_⟩
  rw [List.mem_singleton.mp hitem]
  exact ⟨nofun, fun _ => rfl, nofun⟩

/-- A world with two releases of one application whose items wait. -/
def twoQueuedWorld : World :=
  ⟨⟨[⟨1, 1, .queued⟩, ⟨2, 1, .queued⟩], [⟨1, 1, 1, some 7, 1, .queued, none, none⟩,
    ⟨2, 1, 2, some 7, 2, .queued, none, none⟩], []⟩, [], none, none, [], [], [], []⟩

theorem initial_twoQueuedWorld : twoQueuedWorld.Initial := by
  have hkeys : (twoQueuedWorld.store.queue.map (·.id)).Nodup := by decide
  refine ⟨rfl, rfl, rfl, rfl, rfl, rfl, rfl, hkeys, fun item hitem => ?_⟩
  rcases List.mem_pair.mp hitem with rfl | rfl <;> exact ⟨nofun, fun _ => rfl, nofun⟩

/-- Statements that succeed; a running item is not canceled, an item is started while no other one
runs, and the worker takes up a task that is open. -/
def keepsClear (world : World) : Action → Bool
  | .commitItem queueId _ _ =>
      world.store.queue.all fun item => item.id != queueId || item.status != .running
  | .cancelTask _ => false
  | .dispatch works => works && world.dispatcher.all fun dispatch =>
      match dispatch.stage with
      | .marking _ _ => world.store.queue.all fun item => item.status != .running
      | .failingItem _ _ => false
      | _ => true
  | .work works => works && world.worker.all fun work =>
      match work.stage with
      | .starting => world.store.taskStatus work.job.taskId == some .queued
      | .logging | .preflight => true
      | _ => false
  | _ => true

theorem clear_of_keepsClear (world : World) (action : Action)
    (h : keepsClear world action = true) : world.Clear action := by
  cases action with
  | commitItem queueId releaseId works =>
      cases works with
      | false => exact trivial
      | true =>
          intro item hitem hid hrunning
          have hfree := List.all_eq_true.mp h item hitem
          rw [hid, hrunning, bne_self_eq_false, bne_self_eq_false] at hfree
          cases hfree
  | cancelTask taskId => cases h
  | dispatch works =>
      intro dispatch hdispatch
      rw [keepsClear, hdispatch, Option.all_some, Bool.and_eq_true] at h
      obtain ⟨rfl, hstage⟩ := h
      cases hcase : dispatch.stage with
      | marking item taskId =>
          rw [hcase] at hstage
          intro _ _ _ _ other hother hrunning
          have hfree := List.all_eq_true.mp hstage other hother
          rw [hrunning, bne_self_eq_false] at hfree
          cases hfree
      | failingItem item taskId =>
          rw [hcase] at hstage
          cases hstage
      | _ => exact trivial
  | work works =>
      intro work hwork
      rw [keepsClear, hwork, Option.all_some, Bool.and_eq_true] at h
      obtain ⟨rfl, hstage⟩ := h
      cases hcase : work.stage with
      | starting =>
          rw [hcase] at hstage
          exact .inl (.inl (beq_iff_eq.mp hstage))
      | logging => exact trivial
      | preflight => exact trivial
      | _ =>
          rw [hcase] at hstage
          cases hstage
  | _ => exact trivial

/-- One item is canceled before it is dispatched, and the other one is dispatched and deployed. -/
theorem queue_items_paired_canceled : ∃ world, interleaving.Reached World.Clear world ∧
    world.store.queue.map (·.status) = [.running, .canceled] ∧
    world.worker = some ⟨⟨1, 1, some 1, some 1⟩, .deploying⟩ ∧ world.KeepsItems World.Clear := by
  obtain ⟨world, hexec, hfacts⟩ := Option.map_eq_some_iff.mp
    (show ((interleaving.restrict keepsClear).exec twoQueuedWorld
      ([.readItem 2, .startDispatch 1] ++ List.replicate 6 (.dispatch true) ++
        [.commitItem 2 2 true] ++ List.replicate 3 (.dispatch true) ++ [.takeJob] ++
        List.replicate 3 (.work true))).map
          (fun world => (world.store.queue.map (·.status), world.worker)) =
            some ([.running, .canceled], some ⟨⟨1, 1, some 1, some 1⟩, .deploying⟩) by decide)
  obtain ⟨hstatuses, hworker⟩ := Prod.mk.inj hfacts
  have hstart : Reachable (interleaving.restrict keepsClear) twoQueuedWorld :=
    .start initial_twoQueuedWorld
  have hreached := (Reached.of_restrict (hstart.exec hexec)).mono clear_of_keepsClear
  exact ⟨world, hreached, hstatuses, hworker, queue_items_paired hreached⟩

/-- An item is dispatched between the two statements that cancel it: its job deploys the release of
a canceled item. -/
theorem canceled_item_deployed :
    ¬ ∀ world, interleaving.Reachable world → world.KeepsItems fun _ _ => True := by
  intro hkeeps
  have hexec : interleaving.exec queuedWorld
      ([.readItem 1, .startDispatch 1] ++ List.replicate 9 (.dispatch true) ++
        [.commitItem 1 1 true, .takeJob] ++ List.replicate 3 (.work true)) =
      some ⟨⟨[⟨1, 1, .received⟩], [⟨1, 1, 1, some 7, 1, .canceled, some 1, none⟩],
        [⟨1, .releaseDeploy, some 1, some 1, .running⟩]⟩, [], none,
        some ⟨⟨1, 1, some 1, some 1⟩, .deploying⟩, [], [], [], []⟩ := by
    decide
  obtain ⟨-, hdeploys, -, -⟩ := hkeeps _ (.exec (.start initial_queuedWorld) hexec)
  exact hdeploys _ rfl rfl _ (List.mem_singleton_self _) rfl rfl

end EasyDeploy.ReleaseQueue

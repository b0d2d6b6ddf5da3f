import EasyDeploy.Retention.LogBalance

/-!
# The log writer conserves bytes

A barrier that comes out of the queue behind all chunks leaves nothing behind: when
`finish_redaction` succeeds, the bytes handed over and the bytes recorded as dropped are all
that the redactor has shown.
-/

namespace EasyDeploy.Retention
open Foundation Transition

/-- The task flushes for the barrier of `finish_redaction`. -/
def WriterStage.Finishes : WriterStage → Prop
  | .append trigger | .swap trigger _ | .record trigger _ _ => trigger = .barrier none
  | _ => False

namespace LogWriter

variable (state : LogWriter)

/-- The barrier of `finish_redaction` is nowhere. -/
def Unsent : Prop := WriterMessage.barrier none ∉ state.queue ∧ ¬state.writer.Finishes

/-- The barrier is in the queue, and behind it there are barriers only. -/
def Marked : Prop :=
  ∃ before after, state.queue = before ++ .barrier none :: after ∧
    WriterMessage.barrier none ∉ before ∧ queuedChunks after = []

/-- The barrier has not come out of the queue. -/
def Behind : Prop := ¬state.writer.Finishes ∧ state.Marked

/-- The flush of the barrier, with nothing left in the queue. -/
structure Flushing : Prop where
  queue : queuedChunks state.queue = []
  finishes : state.writer.Finishes
  pending : (∀ trigger, state.writer ≠ .append trigger) → state.pending.flatten = []
  counter : ∀ trigger changed dropped, state.writer = .record trigger changed dropped →
    state.droppedBytes = 0

/-- What is known when all calls have ended. -/
structure Finished : Prop where
  writes : state.writes = []
  queue : queuedChunks state.queue = []
  pending : state.pending.flatten = []
  counter : state.droppedBytes = 0
  taken : state.writer.taken = 0
  handed : state.handedBytes = state.kept.flatten
  recorded : state.recorded = state.refused.flatten.length
  produced : state.handedBytes.length + state.recorded = state.produced

/-- Where `finish_redaction` is. -/
def Finishing : Prop :=
  (state.finish = .idle ∨ state.finish = .sending → state.Unsent) ∧
    (state.finish = .waiting → state.writes = [] ∧ state.writer ≠ .stopped ∧
      (state.Behind ∨ state.Flushing)) ∧
    (state.finish = .answered true → state.Finished)

variable {state next : LogWriter}

theorem not_finishes_of_idle {writer : WriterStage} (h : writer = .idle ∨ writer = .checkpoint) :
    ¬writer.Finishes := by
  rcases h with rfl | rfl <;> exact id

/-- With nothing left in the queue, the buffer and the counter, all bytes have been settled. -/
theorem Balanced.finished (h : state.Balanced) (hrunning : state.writer ≠ .stopped)
    (hwrites : state.writes = []) (hqueue : queuedChunks state.queue = [])
    (hpending : state.pending.flatten = []) (hcounter : state.droppedBytes = 0)
    (htaken : state.writer.taken = 0) : state.Finished := by
  have hremaining : state.remainingBytes = 0 := by rw [remainingBytes, hwrites]; rfl
  have hcounting : state.countingBytes = 0 := by rw [countingBytes, hwrites]; rfl
  have hhanded : state.handedBytes = state.kept.flatten := by
    rw [← h.order, hqueue, List.append_nil, List.flatten_append, hpending, List.append_nil,
      handedBytes, List.flatten_flatten]
  have hrecorded : state.recorded = state.refused.flatten.length := by
    have hdropped := h.dropped hrunning
    omega
  refine ⟨hwrites, hqueue, hpending, hcounter, htaken, hhanded, hrecorded, ?_⟩
  have htotal := h.total
  have hlost := h.lost hrunning
  rw [hhanded, hrecorded]
  omega

/-- A finished log stays as it is while the task goes on. -/
theorem Finished.keep (h : state.Finished) (hwrites : next.writes = state.writes)
    (hqueue : queuedChunks next.queue = []) (hpending : next.pending = state.pending)
    (hcounter : next.droppedBytes = state.droppedBytes) (htaken : next.writer.taken = 0)
    (hhanded : next.handedOver = state.handedOver) (hrecorded : next.recorded = state.recorded)
    (henqueued : next.enqueued = state.enqueued) (hproduced : next.produced = state.produced) :
    next.Finished := by
  refine ⟨hwrites.trans h.writes, hqueue, ?_, hcounter.trans h.counter, htaken, ?_, ?_, ?_⟩
  · rw [hpending]
    exact h.pending
  · rw [handedBytes, hhanded, kept, henqueued]
    exact h.handed
  · rw [hrecorded, refused, henqueued]
    exact h.recorded
  · rw [handedBytes, hhanded, hrecorded, hproduced]
    exact h.produced

/-- Where the barrier is does not depend on the other calls. -/
theorem Finishing.of_same (h : state.Finishing) (hfinish : next.finish = state.finish)
    (hunsent : state.Unsent → next.Unsent)
    (hwaiting : state.finish = .waiting → state.writes = [] → state.writer ≠ .stopped →
      state.Behind ∨ state.Flushing →
        next.writes = [] ∧ next.writer ≠ .stopped ∧ (next.Behind ∨ next.Flushing))
    (hfinished : state.finish = .answered true → state.Finished → next.Finished) :
    next.Finishing := by
  refine ⟨?_, ?_, ?_⟩
  · rw [hfinish]
    exact fun hearly => hunsent (h.1 hearly)
  · rw [hfinish]
    intro hstage
    obtain ⟨hwrites, hrunning, hplace⟩ := h.2.1 hstage
    exact hwaiting hstage hwrites hrunning hplace
  · rw [hfinish]
    exact fun hstage => hfinished hstage (h.2.2 hstage)

/-- A call that has failed or was given up asks for nothing. -/
theorem Finishing.of_failed (h : next.finish = .answered false) : next.Finishing := by
  refine ⟨?_, ?_, ?_⟩
  · rw [h]
    rintro (hfalse | hfalse) <;> cases hfalse
  · rw [h]
    intro hfalse
    cases hfalse
  · rw [h]
    intro hfalse
    cases hfalse

/-- The end of a flush that was not for `finish_redaction`. -/
theorem settle_other {trigger : FlushTrigger} (hother : trigger ≠ .barrier none)
    (changed : Option Bool)
    (hunsent : state.finish = .idle ∨ state.finish = .sending →
      WriterMessage.barrier none ∉ state.queue)
    (hmarked : state.finish = .waiting → state.writes = [] ∧ state.Marked)
    (hfinished : state.finish = .answered true → state.Finished) :
    (state.settle changed trigger).Finishing := by
  obtain ⟨writer, dirty, finish, flushes, heq, hwriter, hanswer⟩ :=
    @settle_eq state changed trigger
  rw [heq]
  have hfinish : finish = state.finish := by
    rcases hanswer with ⟨hsame, -⟩ | ⟨hfalse, -⟩
    · exact hsame
    · exact absurd hfalse hother
  subst hfinish
  have hnot := not_finishes_of_idle hwriter
  have htaken : writer.taken = 0 := by rcases hwriter with rfl | rfl <;> rfl
  have hrunning : writer ≠ .stopped := by rcases hwriter with rfl | rfl <;> decide
  refine ⟨fun hearly => ⟨hunsent hearly, hnot⟩, fun hwaiting => ?_, fun hanswered => ?_⟩
  · exact ⟨(hmarked hwaiting).1, hrunning, .inl ⟨hnot, (hmarked hwaiting).2⟩⟩
  · have hkept := hfinished hanswered
    exact hkept.keep rfl hkept.queue rfl rfl htaken rfl rfl rfl rfl

/-- The end of the flush for `finish_redaction`, which waits for it. -/
theorem settle_last (changed : Option Bool)
    (hsent : ¬(state.finish = .idle ∨ state.finish = .sending))
    (hdone : changed.isSome = true → state.finish = .waiting →
      (state.settle changed (.barrier none)).Finished)
    (hfinished : state.finish = .answered true → state.Finished) :
    (state.settle changed (.barrier none)).Finishing := by
  obtain ⟨writer, dirty, finish, flushes, heq, hwriter, hanswer⟩ :=
    @settle_eq state changed (.barrier none)
  have htaken : writer.taken = 0 := by rcases hwriter with rfl | rfl <;> rfl
  by_cases hwaiting : state.finish = .waiting
  · have hresult : (state.settle changed (.barrier none)).finish = .answered changed.isSome := by
      rw [heq]
      rcases hanswer with ⟨-, hfalse⟩ | ⟨-, -, hanswer⟩
      · exact absurd hwaiting (hfalse rfl)
      · exact hanswer
    cases hok : changed.isSome with
    | false =>
        rw [hok] at hresult
        exact .of_failed hresult
    | true =>
        rw [hok] at hresult
        refine ⟨?_, ?_, fun _ => hdone hok hwaiting⟩
        · rw [hresult]
          rintro (hfalse | hfalse) <;> cases hfalse
        · rw [hresult]
          intro hfalse
          cases hfalse
  · have hfinish : finish = state.finish := by
      rcases hanswer with ⟨hsame, -⟩ | ⟨-, hfalse, -⟩
      · exact hsame
      · exact absurd hfalse hwaiting
    rw [heq]
    subst hfinish
    refine ⟨fun hearly => absurd hearly hsent, fun hfalse => absurd hfalse hwaiting,
      fun hanswered => ?_⟩
    have hkept := hfinished hanswered
    exact hkept.keep rfl hkept.queue rfl rfl htaken rfl rfl rfl rfl

/-- A flush that has come to its end has settled what there was. -/
theorem Balanced.finished_settle {changed : Option Bool} {trigger : FlushTrigger}
    (h : (state.settle changed trigger).Balanced) (hwrites : state.writes = [])
    (hqueue : queuedChunks state.queue = []) (hpending : state.pending.flatten = [])
    (hcounter : state.droppedBytes = 0) : (state.settle changed trigger).Finished := by
  obtain ⟨writer, dirty, finish, flushes, heq, hwriter, -⟩ :=
    @settle_eq state changed trigger
  rw [heq] at h ⊢
  have htaken : writer.taken = 0 := by rcases hwriter with rfl | rfl <;> rfl
  have hrunning : writer ≠ .stopped := by rcases hwriter with rfl | rfl <;> decide
  exact h.finished hrunning hwrites hqueue hpending hcounter htaken

/-- While the task is busy with something else, the barrier is where it was. -/
theorem Finishing.elsewhere (h : state.Finishing) (hnot : ¬state.writer.Finishes) :
    (state.finish = .idle ∨ state.finish = .sending → WriterMessage.barrier none ∉ state.queue) ∧
      (state.finish = .waiting → state.writes = [] ∧ state.Marked) := by
  refine ⟨fun hearly => (h.1 hearly).1, fun hwaiting => ?_⟩
  obtain ⟨hwrites, -, hbehind | hflushing⟩ := h.2.1 hwaiting
  · exact ⟨hwrites, hbehind.2⟩
  · exact absurd hflushing.finishes hnot

/-- While the task flushes for the barrier, nothing else is left. -/
theorem Finishing.here (h : state.Finishing) (hfinishes : state.writer.Finishes) :
    ¬(state.finish = .idle ∨ state.finish = .sending) ∧
      (state.finish = .waiting → state.writes = [] ∧ state.Flushing) := by
  refine ⟨fun hearly => (h.1 hearly).2 hfinishes, fun hwaiting => ?_⟩
  obtain ⟨hwrites, -, hbehind | hflushing⟩ := h.2.1 hwaiting
  · exact absurd hfinishes hbehind.1
  · exact ⟨hwrites, hflushing⟩

theorem Finishing.advance (h : state.Finishing) {index reserved : Nat} {call : EnqueueStage}
    (hcall : state.writes[index]? = some call) : (state.advance index reserved call).Finishing := by
  have hbusy : state.writes ≠ [] := by
    intro hnil
    rw [hnil] at hcall
    cases hcall
  have hunsent {queue : List WriterMessage} (chunk : Bytes) (hunsent : state.Unsent)
      (hqueue : queue = state.queue ∨ queue = state.queue ++ [.chunk chunk]) :
      WriterMessage.barrier none ∉ queue := by
    rcases hqueue with rfl | rfl
    · exact hunsent.1
    · intro hmem
      rcases List.mem_append.mp hmem with hold | hnew
      · exact hunsent.1 hold
      · cases List.mem_singleton.mp hnew
  have hsame (hfinish : (state.advance index reserved call).finish = state.finish)
      (hkeep : state.Unsent → (state.advance index reserved call).Unsent) :
      (state.advance index reserved call).Finishing :=
    h.of_same hfinish hkeep (fun _ hwrites => absurd hwrites hbusy)
      (fun _ hfinished => absurd hfinished.writes hbusy)
  cases call with
  | counting refused remaining => exact hsame rfl id
  | sending remaining =>
      cases remaining with
      | nil => exact hsame rfl id
      | cons chunk remaining =>
          rw [LogWriter.advance] at hsame ⊢
          split at hsame
          · rename_i hstopped
            rw [if_pos hstopped]
            by_cases hsending : state.finish = .sending
            · exact .of_failed (if_pos hsending)
            · exact hsame (if_neg hsending) id
          · rename_i hrunning
            rw [if_neg hrunning]
            split at hsame
            · rename_i hroom
              rw [if_pos hroom]
              exact hsame rfl fun hold => ⟨hunsent chunk hold (.inr rfl), hold.2⟩
            · rename_i hfull
              rw [if_neg hfull]
              exact hsame rfl id

theorem Finishing.take (h : state.Finishing) {queue : List WriterMessage}
    (hqueue : state.queue = queue) (hidle : state.writer = .idle)
    (htake : state.take queue = some next) : next.Finishing := by
  have hflushing : ¬state.Flushing := fun hfalse => by
    have hfinishes := hfalse.finishes
    rw [hidle] at hfinishes
    exact hfinishes
  cases queue with
  | nil => cases htake
  | cons message rest =>
      cases message with
      | chunk bytes =>
          obtain rfl := Option.some.inj htake
          have hwriter (limit : Prop) [Decidable limit] :
              ¬(if limit then WriterStage.append .size else .idle).Finishes := by
            split
            · exact fun hfalse => by cases hfalse
            · exact id
          refine h.of_same ?_ ?_ ?_ ?_
          · rfl
          · rintro ⟨hmem, -⟩
            rw [hqueue] at hmem
            exact ⟨fun hrest => hmem (List.mem_cons_of_mem _ hrest), hwriter _⟩
          · rintro - hwrites - (⟨-, before, after, hsplit, hbefore, hafter⟩ | hfalse)
            · refine ⟨hwrites, ?_, .inl ⟨hwriter _, ?_⟩⟩
              · dsimp only
                split <;> exact fun hfalse => by cases hfalse
              · rw [hqueue] at hsplit
                cases before with
                | nil => cases (List.cons.inj hsplit).1
                | cons first before =>
                    refine ⟨before, after, (List.cons.inj hsplit).2, ?_, hafter⟩
                    exact fun hmem => hbefore (List.mem_cons_of_mem _ hmem)
            · exact absurd hfalse hflushing
          · rintro - hfinished
            have hnone := hfinished.queue
            rw [hqueue] at hnone
            cases hnone
      | barrier call =>
          obtain rfl := Option.some.inj htake
          have hrest : queuedChunks state.queue = queuedChunks rest := by
            rw [hqueue]
            rfl
          refine h.of_same ?_ ?_ ?_ ?_
          · rfl
          · rintro ⟨hmem, -⟩
            rw [hqueue] at hmem
            refine ⟨fun hrest => hmem (List.mem_cons_of_mem _ hrest), fun hbarrier => hmem ?_⟩
            rw [FlushTrigger.barrier.inj hbarrier]
            exact List.mem_cons_self
          · rintro - hwrites - (⟨-, before, after, hsplit, hbefore, hafter⟩ | hfalse)
            · refine ⟨hwrites, fun hfalse => (by cases hfalse), ?_⟩
              rw [hqueue] at hsplit
              cases before with
              | nil =>
                  obtain ⟨hcall, rfl⟩ := List.cons.inj hsplit
                  right
                  refine ⟨hafter, ?_, fun hother => absurd rfl (hother _), ?_⟩
                  · show FlushTrigger.barrier call = .barrier none
                    rw [WriterMessage.barrier.inj hcall]
                  · rintro _ _ _ ⟨⟩
              | cons first before =>
                  obtain ⟨rfl, hlater⟩ := List.cons.inj hsplit
                  refine .inl ⟨fun hbarrier => hbefore ?_, before, after, hlater, ?_, hafter⟩
                  · rw [FlushTrigger.barrier.inj hbarrier]
                    exact List.mem_cons_self
                  · exact fun hmem => hbefore (List.mem_cons_of_mem _ hmem)
            · exact absurd hfalse hflushing
          · intro _ hfinished
            exact hfinished.keep rfl (hrest ▸ hfinished.queue) rfl rfl rfl rfl rfl rfl rfl

theorem Finishing.sendBarrier (h : state.Finishing) {call : Option Nat}
    (hsending : state.barrier call = some .sending)
    (hwrites : call = none → state.writes = []) (hrunning : state.writer ≠ .stopped) :
    ({ state.setBarrier call .waiting with queue := state.queue ++ [.barrier call] }
      : LogWriter).Finishing := by
  have hchunks : queuedChunks (state.queue ++ [.barrier call]) = queuedChunks state.queue := by
    simp [queuedChunks, WriterMessage.chunk?]
  cases call with
  | none =>
      have hunsent := h.1 (.inr (Option.some.inj hsending))
      refine ⟨?_, fun _ => ⟨hwrites rfl, hrunning, .inl ⟨hunsent.2, state.queue, [], rfl,
        hunsent.1, rfl⟩⟩, ?_⟩
      · rintro (hfalse | hfalse) <;> cases hfalse
      · intro hfalse
        cases hfalse
  | some index =>
      refine h.of_same ?_ ?_ ?_ ?_
      · rfl
      · rintro ⟨hmem, hnot⟩
        refine ⟨fun hnew => ?_, hnot⟩
        rcases List.mem_append.mp hnew with hold | hlast
        · exact hmem hold
        · cases List.mem_singleton.mp hlast
      · rintro - hnone - (⟨hnot, before, after, hsplit, hbefore, hafter⟩ | hflushing)
        · refine ⟨hnone, hrunning, .inl ⟨hnot, before, after ++ [.barrier (some index)], ?_,
            hbefore, ?_⟩⟩
          · show state.queue ++ _ = _
            rw [hsplit, List.append_assoc, List.cons_append]
          · rw [queuedChunks, List.filterMap_append]
            exact List.append_eq_nil_iff.mpr ⟨hafter, rfl⟩
        · exact ⟨hnone, hrunning, .inr ⟨hchunks.trans hflushing.queue, hflushing.finishes,
            hflushing.pending, hflushing.counter⟩⟩
      · intro _ hfinished
        exact hfinished.keep rfl (hchunks.trans hfinished.queue) rfl rfl hfinished.taken rfl rfl
          rfl rfl

/-- A step of a flush moves the task on; for the last barrier it has nothing left to come. -/
theorem Finishing.of_writer (h : state.Finishing) {trigger : FlushTrigger}
    (hfinishes : state.writer.Finishes ↔ trigger = .barrier none)
    (hnext : next.writer.Finishes ↔ trigger = .barrier none)
    (hrunning : next.writer ≠ .stopped) (hfinish : next.finish = state.finish)
    (hwrites : next.writes = state.writes) (hqueue : next.queue = state.queue)
    (hflushing : state.Flushing → next.Flushing) (hfinished : state.Finished → next.Finished) :
    next.Finishing := by
  have hsame : state.writer.Finishes ↔ next.writer.Finishes := hfinishes.trans hnext.symm
  apply h.of_same hfinish
  · rintro ⟨hmem, hnot⟩
    exact ⟨by rwa [hqueue], fun hfalse => hnot (hsame.mpr hfalse)⟩
  · rintro - hnone - (⟨hnot, hbehind⟩ | hserved)
    · refine ⟨hwrites.trans hnone, hrunning, .inl ⟨fun hfalse => hnot (hsame.mpr hfalse), ?_⟩⟩
      rw [LogWriter.Marked, hqueue]
      exact hbehind
    · exact ⟨hwrites.trans hnone, hrunning, .inr (hflushing hserved)⟩
  · exact fun _ => hfinished

/-- Only an open log is written to. -/
theorem Finishing.write_step (h : state.Finishing) {chunk : Bytes}
    (hstep : state.step (.write chunk) = some next) : next.Finishing := by
  simp only [LogWriter.step] at hstep
  split at hstep
  · rename_i hguard
    obtain rfl := Option.some.inj hstep
    refine ⟨fun _ => h.1 (.inl hguard.2), fun hfalse => ?_, fun hfalse => ?_⟩
    · cases hguard.2.symm.trans hfalse
    · cases hguard.2.symm.trans hfalse
  · cases hstep

/-- The barrier is still to be sent when the redaction has ended. -/
theorem Finishing.finishRedaction_step (h : state.Finishing)
    (hstep : state.step .finishRedaction = some next) : next.Finishing := by
  simp only [LogWriter.step] at hstep
  split at hstep
  · rename_i hguard
    obtain rfl := Option.some.inj hstep
    refine ⟨fun _ => h.1 (.inl hguard.1), fun hfalse => ?_, fun hfalse => ?_⟩
    · cases hfalse
    · cases hfalse
  · cases hstep

/-- A request to flush leaves the barrier where it is. -/
theorem Finishing.flush_step (h : state.Finishing)
    (hstep : state.step .flush = some next) : next.Finishing := by
  obtain rfl := Option.some.inj hstep
  refine h.of_same ?_ id ?_ ?_
  · rfl
  · rintro - hwrites hrunning (hbehind | hflushing)
    · exact ⟨hwrites, hrunning, .inl hbehind⟩
    · exact ⟨hwrites, hrunning, .inr ⟨hflushing.queue, hflushing.finishes, hflushing.pending,
        hflushing.counter⟩⟩
  · exact fun _ hfinished => hfinished.keep rfl hfinished.queue rfl rfl hfinished.taken rfl rfl
      rfl rfl

/-- A barrier is sent behind all chunks, or there is no one to take it. -/
theorem Finishing.sendBarrier_step (h : state.Finishing) {call : Option Nat}
    (hstep : state.step (.sendBarrier call) = some next) : next.Finishing := by
  simp only [LogWriter.step] at hstep
  split at hstep
  · cases hstep
  rename_i hguard
  rw [not_or, not_not, not_and, not_not] at hguard
  split at hstep
  · rename_i hstopped
    obtain rfl := Option.some.inj hstep
    cases call with
    | none => exact .of_failed rfl
    | some index =>
        refine h.of_same ?_ id ?_ ?_
        · rfl
        · exact fun _ _ hrunning => absurd hstopped hrunning
        · exact fun _ hfinished => hfinished.keep rfl hfinished.queue rfl rfl hfinished.taken
            rfl rfl rfl rfl
  rename_i hrunning
  split at hstep
  · obtain rfl := Option.some.inj hstep
    exact h.sendBarrier hguard.1 hguard.2 hrunning
  · cases hstep

/-- A flush that is given up leaves the barrier where it is. -/
theorem Finishing.abandon_step (h : state.Finishing) {index : Nat}
    (hstep : state.step (.abandon index) = some next) : next.Finishing := by
  simp only [LogWriter.step] at hstep
  split at hstep
  · obtain rfl := Option.some.inj hstep
    refine h.of_same ?_ id ?_ ?_
    · rfl
    · rintro - hwrites hrunning (hbehind | hflushing)
      · exact ⟨hwrites, hrunning, .inl hbehind⟩
      · exact ⟨hwrites, hrunning, .inr ⟨hflushing.queue, hflushing.finishes,
          hflushing.pending, hflushing.counter⟩⟩
    · exact fun _ hfinished => hfinished.keep rfl hfinished.queue rfl rfl hfinished.taken rfl
        rfl rfl rfl
  · cases hstep

/-- The timer starts a flush that is not for `finish_redaction`. -/
theorem Finishing.tick_step (h : state.Finishing)
    (hstep : state.step .tick = some next) : next.Finishing := by
  simp only [LogWriter.step] at hstep
  split at hstep
  · rename_i hidle
    obtain rfl := Option.some.inj hstep
    refine @Finishing.of_writer state _ h .tick ?_ ?_ ?_ rfl rfl rfl ?_ ?_
    · rw [hidle]
      exact ⟨False.elim, fun hfalse => by cases hfalse⟩
    · exact Iff.rfl
    · exact fun hfalse => by cases hfalse
    · intro hfalse
      have hfinishes := hfalse.finishes
      rw [hidle] at hfinishes
      exact hfinishes.elim
    · exact fun hfinished => hfinished.keep rfl hfinished.queue rfl rfl rfl rfl rfl rfl rfl
  · cases hstep

/-- The buffer of a flush is empty once it has been appended. -/
theorem Finishing.append_step (h : state.Finishing) {ok : Bool}
    (hstep : state.step (.append ok) = some next) : next.Finishing := by
  simp only [LogWriter.step] at hstep
  split at hstep
  · rename_i trigger hwriter
    have hfinishes : state.writer.Finishes ↔ trigger = .barrier none := by
      rw [hwriter]
      exact Iff.rfl
    split at hstep
    · rename_i hempty
      obtain rfl := Option.some.inj hstep
      refine @Finishing.of_writer state _ h trigger hfinishes Iff.rfl ?_ rfl rfl rfl ?_ ?_
      · exact fun hfalse => by cases hfalse
      · intro hflushing
        exact ⟨hflushing.queue, hfinishes.mp hflushing.finishes, fun _ => hempty,
          fun _ _ _ hfalse => by cases hfalse⟩
      · exact fun hfinished => hfinished.keep rfl hfinished.queue rfl rfl rfl rfl rfl rfl rfl
    rename_i hbytes
    split at hstep
    · obtain rfl := Option.some.inj hstep
      refine @Finishing.of_writer state _ h trigger hfinishes Iff.rfl ?_ rfl rfl rfl ?_ ?_
      · exact fun hfalse => by cases hfalse
      · intro hflushing
        exact ⟨hflushing.queue, hfinishes.mp hflushing.finishes, fun _ => rfl,
          fun _ _ _ hfalse => by cases hfalse⟩
      · exact fun hfinished => absurd hfinished.pending hbytes
    · obtain rfl := Option.some.inj hstep
      by_cases hlast : trigger = .barrier none
      · subst hlast
        exact settle_last none (h.here (hfinishes.mpr rfl)).1 (fun hfalse => by cases hfalse)
          h.2.2
      · obtain ⟨hunsent, hmarked⟩ := h.elsewhere fun hfalse => hlast (hfinishes.mp hfalse)
        exact settle_other hlast none hunsent hmarked h.2.2
  · cases hstep

/-- A flush with an empty counter ends. -/
theorem Finishing.swap_step (h : state.Finishing) (hafter : next.Balanced)
    (hstep : state.step .swap = some next) : next.Finishing := by
  simp only [LogWriter.step] at hstep
  split at hstep
  · rename_i trigger changed hwriter
    have hfinishes : state.writer.Finishes ↔ trigger = .barrier none := by
      rw [hwriter]
      exact Iff.rfl
    have hnotAppend : ∀ other, state.writer ≠ .append other := by
      rw [hwriter]
      rintro _ ⟨⟩
    split at hstep
    · rename_i hcounter
      obtain rfl := Option.some.inj hstep
      by_cases hlast : trigger = .barrier none
      · subst hlast
        obtain ⟨hsent, hplace⟩ := h.here (hfinishes.mpr rfl)
        refine settle_last _ hsent (fun _ hwaiting => ?_) h.2.2
        obtain ⟨hwrites, hflushing⟩ := hplace hwaiting
        exact hafter.finished_settle hwrites hflushing.queue (hflushing.pending hnotAppend)
          hcounter
      · obtain ⟨hunsent, hmarked⟩ := h.elsewhere fun hfalse => hlast (hfinishes.mp hfalse)
        exact settle_other hlast _ hunsent hmarked h.2.2
    · rename_i hcounter
      obtain rfl := Option.some.inj hstep
      refine @Finishing.of_writer state _ h trigger hfinishes Iff.rfl ?_ rfl rfl rfl ?_ ?_
      · exact fun hfalse => by cases hfalse
      · intro hflushing
        exact ⟨hflushing.queue, hfinishes.mp hflushing.finishes,
          fun _ => hflushing.pending hnotAppend, fun _ _ _ _ => rfl⟩
      · exact fun hfinished => absurd hfinished.counter hcounter
  · cases hstep

/-- A flush ends when its counter has been recorded. -/
theorem Finishing.record_step (h : state.Finishing) (hafter : next.Balanced) {ok : Bool}
    (hstep : state.step (.record ok) = some next) : next.Finishing := by
  simp only [LogWriter.step] at hstep
  split at hstep
  · rename_i trigger changed dropped hwriter
    have hfinishes : state.writer.Finishes ↔ trigger = .barrier none := by
      rw [hwriter]
      exact Iff.rfl
    have hnotAppend : ∀ other, state.writer ≠ .append other := by
      rw [hwriter]
      rintro _ ⟨⟩
    have hnothing (hfinished : state.Finished) : dropped = 0 := by
      have htaken := hfinished.taken
      rwa [hwriter] at htaken
    split at hstep
    · obtain rfl := Option.some.inj hstep
      have hfinished : state.finish = .answered true →
          ({ state with recorded := state.recorded + dropped } : LogWriter).Finished := by
        intro hanswered
        have hkept := h.2.2 hanswered
        refine hkept.keep rfl hkept.queue rfl rfl hkept.taken rfl ?_ rfl rfl
        show state.recorded + dropped = state.recorded
        rw [hnothing hkept, Nat.add_zero]
      by_cases hlast : trigger = .barrier none
      · subst hlast
        obtain ⟨hsent, hplace⟩ := h.here (hfinishes.mpr rfl)
        refine settle_last _ hsent (fun _ hwaiting => ?_) hfinished
        obtain ⟨hwrites, hflushing⟩ := hplace hwaiting
        exact hafter.finished_settle hwrites hflushing.queue (hflushing.pending hnotAppend)
          (hflushing.counter _ _ _ hwriter)
      · obtain ⟨hunsent, hmarked⟩ := h.elsewhere fun hfalse => hlast (hfinishes.mp hfalse)
        exact settle_other hlast _ hunsent hmarked hfinished
    · obtain rfl := Option.some.inj hstep
      have hfinished : state.finish = .answered true →
          ({ state with droppedBytes := state.droppedBytes + dropped } :
            LogWriter).Finished := by
        intro hanswered
        have hkept := h.2.2 hanswered
        refine hkept.keep rfl hkept.queue rfl ?_ hkept.taken rfl rfl rfl rfl
        show state.droppedBytes + dropped = state.droppedBytes
        rw [hnothing hkept, Nat.add_zero]
      by_cases hlast : trigger = .barrier none
      · subst hlast
        exact settle_last none (h.here (hfinishes.mpr rfl)).1 (fun hfalse => by cases hfalse)
          hfinished
      · obtain ⟨hunsent, hmarked⟩ := h.elsewhere fun hfalse => hlast (hfinishes.mp hfalse)
        exact settle_other hlast none hunsent hmarked hfinished
  · cases hstep

/-- A checkpoint is not for `finish_redaction`. -/
theorem Finishing.checkpoint_step (h : state.Finishing) {outcome : Option Bool}
    (hstep : state.step (.checkpoint outcome) = some next) : next.Finishing := by
  simp only [LogWriter.step] at hstep
  split at hstep
  · rename_i hwriter
    obtain rfl := Option.some.inj hstep
    refine @Finishing.of_writer state _ h .tick ?_ ?_ ?_ rfl rfl rfl ?_ ?_
    · rw [hwriter]
      exact ⟨False.elim, fun hfalse => by cases hfalse⟩
    · exact ⟨False.elim, fun hfalse => by cases hfalse⟩
    · exact fun hfalse => by cases hfalse
    · intro hfalse
      have hfinishes := hfalse.finishes
      rw [hwriter] at hfinishes
      exact hfinishes.elim
    · exact fun hfinished => hfinished.keep rfl hfinished.queue rfl rfl rfl rfl rfl rfl rfl
  · cases hstep

/-- A task that stops leaves no one waiting. -/
theorem Finishing.stop_step (h : state.Finishing)
    (hstep : state.step .stop = some next) : next.Finishing := by
  obtain rfl := Option.some.inj hstep
  cases hfinish : state.finish with
  | waiting => exact .of_failed rfl
  | _ =>
      refine h.of_same ?_ ?_ ?_ ?_
      · exact hfinish.symm
      · exact fun hunsent => ⟨hunsent.1, id⟩
      · intro hfalse
        cases hfinish.symm.trans hfalse
      · exact fun _ hfinished => hfinished.keep rfl hfinished.queue rfl rfl rfl rfl rfl rfl rfl

/-- No step moves a chunk past the last barrier. -/
theorem Finishing.step (h : state.Finishing) (hbalanced : state.Balanced) {action : Action}
    (hstep : state.step action = some next) : next.Finishing := by
  have hafter : next.Balanced := hbalanced.step hstep
  cases action with
  | write chunk => exact h.write_step hstep
  | finishRedaction => exact h.finishRedaction_step hstep
  | enqueue index reserved =>
      simp only [LogWriter.step] at hstep
      split at hstep
      · obtain ⟨call, hcall, rfl⟩ := Option.map_eq_some_iff.mp hstep
        exact h.advance hcall
      · cases hstep
  | flush => exact h.flush_step hstep
  | sendBarrier call => exact h.sendBarrier_step hstep
  | abandon index => exact h.abandon_step hstep
  | receive =>
      simp only [LogWriter.step] at hstep
      split at hstep
      · rename_i hidle
        exact h.take rfl hidle hstep
      · cases hstep
  | tick => exact h.tick_step hstep
  | append ok => exact h.append_step hstep
  | swap => exact h.swap_step hafter hstep
  | record ok => exact h.record_step hafter hstep
  | checkpoint outcome => exact h.checkpoint_step hstep
  | stop => exact h.stop_step hstep

end LogWriter

theorem balanced_and_finishing {state : LogWriter} (h : Reachable logWriter state) :
    state.Balanced ∧ state.Finishing := by
  refine @Reached.invariant _ _ _ _ (fun state => state.Balanced ∧ state.Finishing) _ h ?_ ?_
  · rintro _ ⟨secrets, rfl⟩
    refine ⟨⟨rfl, rfl, fun _ => rfl, fun _ => rfl⟩, fun _ => ⟨List.not_mem_nil, id⟩, ?_, ?_⟩
    · intro hfalse
      cases hfalse
    · intro hfalse
      cases hfalse
  · rintro state action next - - ⟨hbalanced, hfinishing⟩ hstep
    exact ⟨hbalanced.step hstep, hfinishing.step hbalanced hstep⟩

/-- The log service gets the chunks that the queue took in their order, each once, and at the end
all of them; the others are recorded. -/
structure LogWriter.Conserves (state : LogWriter) : Prop where
  /-- The groups of the successful calls, put together, are the first chunks that were taken. -/
  in_order : state.handedOver.flatten <+: state.kept
  complete : state.finish = .answered true →
    state.handedBytes = state.kept.flatten ∧ state.recorded = state.refused.flatten.length ∧
      state.handedBytes.length + state.recorded = state.produced

/-- A log writer keeps what it was handed in every state of a run. -/
theorem log_writer_conserves {state : LogWriter} (h : Reachable logWriter state) :
    state.Conserves := by
  obtain ⟨hbalanced, hfinishing⟩ := balanced_and_finishing h
  constructor
  · rw [← hbalanced.order, List.append_assoc]
    exact List.prefix_append _ _
  · intro hanswered
    have hfinished := hfinishing.2.2 hanswered
    exact ⟨hfinished.handed, hfinished.recorded, hfinished.produced⟩

/-- A line, a failed flush on the timer and the last barrier. -/
def helloActions : List LogWriter.Action :=
  [.write (ascii "hello"), .enqueue 0 0, .finishRedaction, .enqueue 0 0, .enqueue 0 0, .receive,
    .tick, .append false, .sendBarrier none, .receive, .append true, .swap]

/-- A chunk that is written before the task ends. -/
theorem log_writer_conserves_hello : ∃ state : LogWriter, state.finish = .answered true ∧
    state.handedBytes = ascii "hello" ∧ state.Conserves := by
  have hrun : ((logWriter.exec (.new []) helloActions).any fun state =>
      decide (state.finish = .answered true ∧ state.handedBytes = ascii "hello")) = true := by
    decide +kernel
  obtain ⟨state, hexec, hstate⟩ := (Option.any_eq_true _ _).mp hrun
  obtain ⟨hfinish, hbytes⟩ := of_decide_eq_true hstate
  exact ⟨state, hfinish, hbytes, log_writer_conserves
    (Reachable.exec (.start ⟨[], rfl⟩) hexec)⟩

end EasyDeploy.Retention

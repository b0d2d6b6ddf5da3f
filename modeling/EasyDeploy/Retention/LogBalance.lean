import EasyDeploy.Retention.LogWriter
import Mathlib.Algebra.GroupWithZero.Nat

/-!
# The bytes of a log writer

The chunks that the queue took reach the log service in their order and once each, and what
was refused is counted: at any time every byte that the redactor has shown is in one of the
places it can be.
-/

namespace EasyDeploy.Retention
open Foundation Transition

theorem flatten_chunksLoop {size : Nat} (hsize : 0 < size) (rounds : Nat) (bytes : Bytes)
    (h : bytes.length ≤ rounds) : (chunksLoop size rounds bytes).flatten = bytes := by
  induction rounds generalizing bytes with
  | zero =>
      rw [List.length_eq_zero_iff.mp (Nat.le_zero.mp h)]
      rfl
  | succ rounds ih =>
      rw [chunksLoop]
      split
      · rename_i hnil
        rw [hnil]
        rfl
      · rename_i hne
        have hlength : 0 < bytes.length := List.length_pos_iff.mpr hne
        have hrest : (bytes.drop size).length ≤ rounds := by
          rw [List.length_drop]
          omega
        rw [List.flatten_cons, ih _ hrest, List.take_append_drop]

/-- The chunks of a text make up the text. -/
theorem flatten_chunks {size : Nat} (hsize : 0 < size) (bytes : Bytes) :
    (chunks size bytes).flatten = bytes :=
  flatten_chunksLoop hsize _ _ (Nat.le_refl _)

section Sums

variable {α : Type} {f : α → Nat} {items : List α} {index : Nat} {item : α}

theorem sum_map_set (h : items[index]? = some item) (other : α) :
    ((items.set index other).map f).sum + f item = (items.map f).sum + f other := by
  induction items generalizing index with
  | nil => cases h
  | cons first rest ih =>
      cases index with
      | zero =>
          obtain rfl := Option.some.inj h
          simp only [List.set_cons_zero, List.map_cons, List.sum_cons]
          omega
      | succ index =>
          have hrest := ih h
          simp only [List.set_cons_succ, List.map_cons, List.sum_cons]
          omega

theorem sum_map_eraseIdx (h : items[index]? = some item) :
    ((items.eraseIdx index).map f).sum + f item = (items.map f).sum := by
  induction items generalizing index with
  | nil => cases h
  | cons first rest ih =>
      cases index with
      | zero =>
          obtain rfl := Option.some.inj h
          simp only [List.eraseIdx_cons_zero, List.map_cons, List.sum_cons]
          omega
      | succ index =>
          have hrest := ih h
          simp only [List.eraseIdx_cons_succ, List.map_cons, List.sum_cons]
          omega

end Sums

/-- The chunks that a call has still to enqueue. -/
def EnqueueStage.remaining : EnqueueStage → List Bytes
  | .sending remaining => remaining
  | .counting _ remaining => remaining

/-- The bytes that a call has still to count. -/
def EnqueueStage.refused : EnqueueStage → Nat
  | .sending _ => 0
  | .counting refused _ => refused

/-- The chunk of a message. -/
def WriterMessage.chunk? : WriterMessage → Option Bytes
  | .chunk bytes => some bytes
  | .barrier _ => none

/-- The chunks of a queue. -/
def queuedChunks (queue : List WriterMessage) : List Bytes := queue.filterMap WriterMessage.chunk?

/-- What a flush has taken out of the counter. -/
def WriterStage.taken : WriterStage → Nat
  | .record _ _ dropped => dropped
  | _ => 0

namespace LogWriter

variable (state : LogWriter)

/-- The chunks that the queue took. -/
def kept : List Bytes := (state.enqueued.filter (·.2)).map (·.1)

/-- The chunks that were counted as dropped. -/
def refused : List Bytes := (state.enqueued.filter fun entry => !entry.2).map (·.1)

/-- The bytes that the log service has taken. -/
def handedBytes : Bytes := (state.handedOver.map List.flatten).flatten

/-- The bytes that calls have still to enqueue. -/
def remainingBytes : Nat := (state.writes.map fun call => call.remaining.flatten.length).sum

/-- The bytes that calls have still to count. -/
def countingBytes : Nat := (state.writes.map EnqueueStage.refused).sum

/-- Chunks are handed over as they came out of the queue, and every byte is somewhere. -/
structure Balanced : Prop where
  order : state.handedOver.flatten ++ state.pending ++ queuedChunks state.queue = state.kept
  total : state.kept.flatten.length + state.refused.flatten.length + state.remainingBytes +
    state.lost = state.produced
  lost : state.writer ≠ .stopped → state.lost = 0
  dropped : state.writer ≠ .stopped →
    state.recorded + state.writer.taken + state.droppedBytes + state.countingBytes =
      state.refused.flatten.length

variable {state next : LogWriter}

/-- A flush ends with the task free and, for a barrier, with an answer to who waits. -/
theorem settle_eq (changed : Option Bool) (trigger : FlushTrigger) :
    ∃ writer dirty finish flushes,
      state.settle changed trigger = { state with writer, dirty, finish, flushes } ∧
        (writer = .idle ∨ writer = .checkpoint) ∧
        (finish = state.finish ∧ (trigger = .barrier none → state.finish ≠ .waiting) ∨
          trigger = .barrier none ∧ state.finish = .waiting ∧
            finish = .answered changed.isSome) := by
  cases trigger with
  | size =>
      exact ⟨_, _, state.finish, state.flushes, rfl, .inl rfl, .inl ⟨rfl, fun h => by cases h⟩⟩
  | tick =>
      refine ⟨_, _, state.finish, state.flushes, rfl, ?_, .inl ⟨rfl, fun h => by cases h⟩⟩
      cases state.dirty || changed.getD false with
      | false => exact .inl rfl
      | true => exact .inr rfl
  | barrier call =>
      rw [settle, reply]
      split
      · rename_i hwaiting
        cases call with
        | none =>
            have hfinish := Option.some.inj hwaiting
            exact ⟨_, _, _, state.flushes, rfl, .inl rfl, .inr ⟨rfl, hfinish, rfl⟩⟩
        | some index =>
            exact ⟨_, _, state.finish, _, rfl, .inl rfl, .inl ⟨rfl, fun h => by cases h⟩⟩
      · rename_i hnot
        refine ⟨_, _, state.finish, state.flushes, rfl, .inl rfl, .inl ⟨rfl, ?_⟩⟩
        rintro h hwaiting
        obtain rfl := FlushTrigger.barrier.inj h
        exact hnot (congrArg some hwaiting)

theorem kept_append_kept (entries : List (Bytes × Bool)) (chunk : Bytes)
    (h : next.enqueued = entries ++ [(chunk, true)]) :
    next.kept = (entries.filter (·.2)).map (·.1) ++ [chunk] ∧
      next.refused = (entries.filter fun entry => !entry.2).map (·.1) := by
  simp [kept, refused, h]

theorem kept_append_refused (entries : List (Bytes × Bool)) (chunk : Bytes)
    (h : next.enqueued = entries ++ [(chunk, false)]) :
    next.kept = (entries.filter (·.2)).map (·.1) ∧
      next.refused = (entries.filter fun entry => !entry.2).map (·.1) ++ [chunk] := by
  simp [kept, refused, h]

theorem Balanced.begin (h : state.Balanced) (redacted : Bytes × StreamingRedactor) :
    (state.begin redacted).Balanced := by
  have hremaining : (state.begin redacted).remainingBytes =
      state.remainingBytes + redacted.1.length := by
    simp only [remainingBytes, LogWriter.begin, List.map_append, List.sum_append, List.map_cons,
      List.map_nil, List.sum_cons, List.sum_nil, EnqueueStage.remaining,
      flatten_chunks (show 0 < writerChunkBytes by decide), Nat.add_zero]
  have hcounting : (state.begin redacted).countingBytes = state.countingBytes := by
    simp only [countingBytes, LogWriter.begin, List.map_append, List.sum_append, List.map_cons,
      List.map_nil, List.sum_cons, List.sum_nil, EnqueueStage.refused, Nat.add_zero]
  refine ⟨h.order, ?_, h.lost, ?_⟩
  · rw [hremaining]
    have htotal := h.total
    show state.kept.flatten.length + state.refused.flatten.length +
      (state.remainingBytes + redacted.1.length) + state.lost =
        state.produced + redacted.1.length
    omega
  · rw [hcounting]
    exact h.dropped

theorem Balanced.advance (h : state.Balanced) {index reserved : Nat} {call : EnqueueStage}
    (hcall : state.writes[index]? = some call) :
    (state.advance index reserved call).Balanced := by
  have htotal := h.total
  cases call with
  | counting refused remaining =>
      have hremaining := @sum_map_set _ (fun call => call.remaining.flatten.length) _ _ _ hcall
        (.sending remaining)
      have hcounting := @sum_map_set _ EnqueueStage.refused _ _ _ hcall (.sending remaining)
      refine ⟨h.order, ?_, h.lost, fun hrunning => ?_⟩
      · have hsame : (state.advance index reserved (.counting refused remaining)).remainingBytes =
            state.remainingBytes := Nat.add_right_cancel hremaining
        show _ + _ + (state.advance index reserved (.counting refused remaining)).remainingBytes +
          _ = _
        rw [hsame]
        exact htotal
      · have hdropped := h.dropped hrunning
        have hless : (state.advance index reserved (.counting refused remaining)).countingBytes +
            refused = state.countingBytes := hcounting
        show state.recorded + state.writer.taken + (state.droppedBytes + refused) +
          (state.advance index reserved (.counting refused remaining)).countingBytes =
            state.refused.flatten.length
        omega
  | sending remaining =>
      cases remaining with
      | nil =>
          have hremaining := @sum_map_eraseIdx _ (fun call => call.remaining.flatten.length) _ _ _
            hcall
          have hcounting := @sum_map_eraseIdx _ EnqueueStage.refused _ _ _ hcall
          refine ⟨h.order, ?_, h.lost, fun hrunning => ?_⟩
          · have hsame : (state.advance index reserved (.sending [])).remainingBytes =
              state.remainingBytes := hremaining
            show _ + _ + (state.advance index reserved (.sending [])).remainingBytes + _ = _
            rw [hsame]
            exact htotal
          · have hsame : (state.advance index reserved (.sending [])).countingBytes =
              state.countingBytes := hcounting
            show _ + _ + _ + (state.advance index reserved (.sending [])).countingBytes = _
            rw [hsame]
            exact h.dropped hrunning
      | cons chunk remaining =>
          have hflat : (chunk :: remaining).flatten.length =
              chunk.length + remaining.flatten.length := by
            rw [List.flatten_cons, List.length_append]
          rw [LogWriter.advance]
          split
          · rename_i hstopped
            have hremaining := @sum_map_eraseIdx _ (fun call => call.remaining.flatten.length) _ _
              _ hcall
            refine ⟨h.order, ?_, fun hrunning => absurd hstopped hrunning,
              fun hrunning => absurd hstopped hrunning⟩
            have hless : ((state.writes.eraseIdx index).map fun call =>
                call.remaining.flatten.length).sum + (chunk :: remaining).flatten.length =
                  state.remainingBytes := hremaining
            show state.kept.flatten.length + state.refused.flatten.length +
              ((state.writes.eraseIdx index).map fun call => call.remaining.flatten.length).sum +
                (state.lost + (chunk :: remaining).flatten.length) = state.produced
            omega
          · have hremaining (stage : EnqueueStage) (hstage : stage.remaining = remaining) :
                ((state.writes.set index stage).map fun call =>
                  call.remaining.flatten.length).sum + chunk.length = state.remainingBytes := by
              have hset := @sum_map_set _ (fun call => call.remaining.flatten.length) _ _ _ hcall
                stage
              have hold : (EnqueueStage.sending (chunk :: remaining)).remaining.flatten.length =
                  chunk.length + remaining.flatten.length := hflat
              rw [hold, hstage] at hset
              show _ = (state.writes.map fun call => call.remaining.flatten.length).sum
              omega
            split
            · have hcounting := @sum_map_set _ EnqueueStage.refused _ _ _ hcall (.sending remaining)
              obtain ⟨hkept, hrefused⟩ := @kept_append_kept { state with
                queue := state.queue ++ [.chunk chunk]
                writes := state.writes.set index (.sending remaining)
                enqueued := state.enqueued ++ [(chunk, true)] } state.enqueued chunk rfl
              have hset := hremaining (.sending remaining) rfl
              refine ⟨?_, ?_, h.lost, fun hrunning => ?_⟩
              · rw [hkept]
                show state.handedOver.flatten ++ state.pending ++
                  queuedChunks (state.queue ++ [.chunk chunk]) = state.kept ++ [chunk]
                rw [← h.order, queuedChunks, List.filterMap_append]
                simp [queuedChunks, WriterMessage.chunk?]
              · rw [hkept, hrefused]
                show (state.kept ++ [chunk]).flatten.length + state.refused.flatten.length +
                  ((state.writes.set index (.sending remaining)).map fun call =>
                    call.remaining.flatten.length).sum + state.lost = state.produced
                rw [List.flatten_append, List.length_append, List.flatten_singleton]
                omega
              · rw [hrefused]
                have hdropped := h.dropped hrunning
                have hsame : ((state.writes.set index (.sending remaining)).map
                    EnqueueStage.refused).sum = state.countingBytes := hcounting
                show state.recorded + state.writer.taken + state.droppedBytes +
                  ((state.writes.set index (.sending remaining)).map EnqueueStage.refused).sum =
                    state.refused.flatten.length
                omega
            · have hcounting := @sum_map_set _ EnqueueStage.refused _ _ _ hcall
                (.counting chunk.length remaining)
              obtain ⟨hkept, hrefused⟩ := @kept_append_refused { state with
                writes := state.writes.set index (.counting chunk.length remaining)
                enqueued := state.enqueued ++ [(chunk, false)] } state.enqueued chunk rfl
              have hset := hremaining (.counting chunk.length remaining) rfl
              refine ⟨?_, ?_, h.lost, fun hrunning => ?_⟩
              · rw [hkept]
                exact h.order
              · rw [hkept, hrefused]
                show state.kept.flatten.length + (state.refused ++ [chunk]).flatten.length +
                  ((state.writes.set index (.counting chunk.length remaining)).map fun call =>
                    call.remaining.flatten.length).sum + state.lost = state.produced
                rw [List.flatten_append, List.length_append, List.flatten_singleton]
                omega
              · rw [hrefused]
                have hdropped := h.dropped hrunning
                have hmore : ((state.writes.set index (.counting chunk.length remaining)).map
                    EnqueueStage.refused).sum = state.countingBytes + chunk.length := hcounting
                show state.recorded + state.writer.taken + state.droppedBytes +
                  ((state.writes.set index (.counting chunk.length remaining)).map
                    EnqueueStage.refused).sum = (state.refused ++ [chunk]).flatten.length
                rw [List.flatten_append, List.length_append, List.flatten_singleton]
                omega

theorem Balanced.setBarrier (h : state.Balanced) (call : Option Nat) (stage : BarrierStage) :
    (state.setBarrier call stage).Balanced := by
  cases call with
  | none => exact ⟨h.order, h.total, h.lost, h.dropped⟩
  | some index => exact ⟨h.order, h.total, h.lost, h.dropped⟩

/-- A flush that ends leaves the sums as they are, if it has put back what it took. -/
theorem Balanced.settle (horder : state.handedOver.flatten ++ state.pending ++
      queuedChunks state.queue = state.kept)
    (htotal : state.kept.flatten.length + state.refused.flatten.length + state.remainingBytes +
      state.lost = state.produced) (hlost : state.lost = 0)
    (hdropped : state.recorded + state.droppedBytes + state.countingBytes =
      state.refused.flatten.length) (changed : Option Bool) (trigger : FlushTrigger) :
    (state.settle changed trigger).Balanced := by
  obtain ⟨writer, dirty, finish, flushes, heq, hwriter, -⟩ := @settle_eq state changed trigger
  rw [heq]
  have htaken : writer.taken = 0 := by
    rcases hwriter with rfl | rfl <;> rfl
  refine ⟨horder, htotal, fun _ => hlost, fun _ => ?_⟩
  show state.recorded + writer.taken + state.droppedBytes + state.countingBytes = _
  rw [htaken]
  exact hdropped

theorem Balanced.take (h : state.Balanced) {queue : List WriterMessage}
    (hqueue : state.queue = queue) (hwriter : state.writer = .idle)
    (htake : state.take queue = some next) : next.Balanced := by
  have hlost := h.lost (by rw [hwriter]; exact fun hfalse => by cases hfalse)
  have hdropped := h.dropped (by rw [hwriter]; exact fun hfalse => by cases hfalse)
  have horder := h.order
  rw [hwriter] at hdropped
  rw [hqueue] at horder
  cases queue with
  | nil => cases htake
  | cons message rest =>
      cases message with
      | chunk bytes =>
          obtain rfl := Option.some.inj htake
          refine ⟨?_, h.total, fun _ => hlost, fun _ => ?_⟩
          · show state.handedOver.flatten ++ (state.pending ++ [bytes]) ++ queuedChunks rest =
              state.kept
            rw [← horder]
            simp [queuedChunks, WriterMessage.chunk?]
          · dsimp only
            split <;> exact hdropped
      | barrier call =>
          obtain rfl := Option.some.inj htake
          exact ⟨horder, h.total, fun _ => hlost, fun _ => hdropped⟩

/-- A barrier is no chunk. -/
theorem Balanced.sendBarrier_step (h : state.Balanced) {call : Option Nat}
    (hstep : state.step (.sendBarrier call) = some next) : next.Balanced := by
  simp only [LogWriter.step] at hstep
  split at hstep
  · cases hstep
  split at hstep
  · obtain rfl := Option.some.inj hstep
    exact h.setBarrier call _
  split at hstep
  · obtain rfl := Option.some.inj hstep
    have hset := h.setBarrier call .waiting
    refine ⟨?_, hset.total, hset.lost, hset.dropped⟩
    have horder := hset.order
    have hqueue : (state.setBarrier call .waiting).queue = state.queue := by
      cases call <;> rfl
    rw [hqueue] at horder
    show _ ++ _ ++ queuedChunks (state.queue ++ [.barrier call]) = _
    have hsame : queuedChunks (state.queue ++ [.barrier call]) = queuedChunks state.queue := by
      simp [queuedChunks, WriterMessage.chunk?]
    rw [hsame]
    exact horder
  · cases hstep

/-- What is appended was in the buffer. -/
theorem Balanced.append_step (h : state.Balanced) {ok : Bool}
    (hstep : state.step (.append ok) = some next) : next.Balanced := by
  simp only [LogWriter.step] at hstep
  split at hstep
  · rename_i trigger hwriter
    have hnot : state.writer ≠ .stopped := hwriter.trans_ne (by rintro ⟨⟩)
    have hlost := h.lost hnot
    have hdropped := h.dropped hnot
    rw [hwriter] at hdropped
    split at hstep
    · obtain rfl := Option.some.inj hstep
      exact ⟨h.order, h.total, fun _ => hlost, fun _ => hdropped⟩
    split at hstep
    · obtain rfl := Option.some.inj hstep
      refine ⟨?_, h.total, fun _ => hlost, fun _ => hdropped⟩
      show (state.handedOver ++ [state.pending]).flatten ++ [] ++ queuedChunks state.queue =
        state.kept
      rw [List.flatten_append, List.flatten_singleton, List.append_nil]
      exact h.order
    · obtain rfl := Option.some.inj hstep
      exact .settle h.order h.total hlost hdropped none trigger
  · cases hstep

/-- What the counter had is about to be recorded. -/
theorem Balanced.swap_step (h : state.Balanced)
    (hstep : state.step .swap = some next) : next.Balanced := by
  simp only [LogWriter.step] at hstep
  split at hstep
  · rename_i trigger changed hwriter
    have hnot : state.writer ≠ .stopped := hwriter.trans_ne (by rintro ⟨⟩)
    have hlost := h.lost hnot
    have hdropped := h.dropped hnot
    rw [hwriter] at hdropped
    split at hstep
    · obtain rfl := Option.some.inj hstep
      exact .settle h.order h.total hlost hdropped (some changed) trigger
    · obtain rfl := Option.some.inj hstep
      refine ⟨h.order, h.total, fun _ => hlost, fun _ => ?_⟩
      show state.recorded + state.droppedBytes + 0 + state.countingBytes = _
      exact hdropped
  · cases hstep

/-- What could not be recorded is put back into the counter. -/
theorem Balanced.record_step (h : state.Balanced) {ok : Bool}
    (hstep : state.step (.record ok) = some next) : next.Balanced := by
  simp only [LogWriter.step] at hstep
  split at hstep
  · rename_i trigger changed dropped hwriter
    have hnot : state.writer ≠ .stopped := hwriter.trans_ne (by rintro ⟨⟩)
    have hlost := h.lost hnot
    have hdropped : state.recorded + dropped + state.droppedBytes + state.countingBytes =
        state.refused.flatten.length := by
      have hbalance := h.dropped hnot
      rwa [hwriter] at hbalance
    split at hstep
    · obtain rfl := Option.some.inj hstep
      exact @Balanced.settle { state with recorded := state.recorded + dropped } h.order
        h.total hlost hdropped (some true) trigger
    · obtain rfl := Option.some.inj hstep
      refine @Balanced.settle { state with droppedBytes := state.droppedBytes + dropped }
        h.order h.total hlost ?_ none trigger
      show state.recorded + (state.droppedBytes + dropped) + state.countingBytes =
        state.refused.flatten.length
      omega
  · cases hstep

/-- No step loses, repeats or makes up a byte. -/
theorem Balanced.step (h : state.Balanced) {action : Action}
    (hstep : state.step action = some next) : next.Balanced := by
  cases action with
  | write chunk =>
      simp only [LogWriter.step] at hstep
      split at hstep
      · obtain rfl := Option.some.inj hstep
        exact h.begin _
      · cases hstep
  | finishRedaction =>
      simp only [LogWriter.step] at hstep
      split at hstep
      · obtain rfl := Option.some.inj hstep
        have hbegin := h.begin state.redactor.finish
        exact ⟨hbegin.order, hbegin.total, hbegin.lost, hbegin.dropped⟩
      · cases hstep
  | enqueue index reserved =>
      simp only [LogWriter.step] at hstep
      split at hstep
      · obtain ⟨call, hcall, rfl⟩ := Option.map_eq_some_iff.mp hstep
        exact h.advance hcall
      · cases hstep
  | flush =>
      obtain rfl := Option.some.inj hstep
      exact ⟨h.order, h.total, h.lost, h.dropped⟩
  | sendBarrier call => exact h.sendBarrier_step hstep
  | abandon index =>
      simp only [LogWriter.step] at hstep
      split at hstep
      · obtain rfl := Option.some.inj hstep
        exact h.setBarrier _ _
      · cases hstep
  | receive =>
      simp only [LogWriter.step] at hstep
      split at hstep
      · rename_i hidle
        exact h.take rfl hidle hstep
      · cases hstep
  | tick =>
      simp only [LogWriter.step] at hstep
      split at hstep
      · rename_i hidle
        obtain rfl := Option.some.inj hstep
        have hnot : state.writer ≠ .stopped := hidle.trans_ne (by decide)
        have hdropped := h.dropped hnot
        rw [hidle] at hdropped
        exact ⟨h.order, h.total, fun _ => h.lost hnot, fun _ => hdropped⟩
      · cases hstep
  | append ok => exact h.append_step hstep
  | swap => exact h.swap_step hstep
  | record ok => exact h.record_step hstep
  | checkpoint outcome =>
      simp only [LogWriter.step] at hstep
      split at hstep
      · rename_i hwriter
        obtain rfl := Option.some.inj hstep
        have hnot : state.writer ≠ .stopped := hwriter.trans_ne (by decide)
        have hdropped := h.dropped hnot
        rw [hwriter] at hdropped
        exact ⟨h.order, h.total, fun _ => h.lost hnot, fun _ => hdropped⟩
      · cases hstep
  | stop =>
      obtain rfl := Option.some.inj hstep
      exact ⟨h.order, h.total, fun hfalse => absurd rfl hfalse, fun hfalse => absurd rfl hfalse⟩

end LogWriter

end EasyDeploy.Retention

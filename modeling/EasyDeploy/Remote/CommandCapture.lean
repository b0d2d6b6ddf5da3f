import EasyDeploy.Foundation.KeptEnds
import Mathlib.Algebra.Group.Nat.Defs

/-!
# Captured command output

The output of a command is kept in memory up to a bound: its beginning in a head,
the latest bytes behind it in a tail, and between them the number of bytes that
were dropped. Slices, drains and the subtractions of lengths are checked, as in
the source, where they panic out of range.
-/

namespace EasyDeploy.Remote
open Foundation

/-- What is kept of the beginning. -/
def commandCaptureHeadBytes : Nat := 64 * 1024

/-- What is kept of the end. -/
def commandCaptureTailBytes : Nat := 256 * 1024

/-- What stands for the rest. -/
def commandCaptureTruncationMarker : String := "\n...[命令输出已截断，仅保留开头与结尾]...\n"

/-- `left - right`. -/
def checkedSub (left right : Nat) : Option Nat := if right ≤ left then some (left - right) else none

/-- `bytes[..count]`. -/
def sliceTo (bytes : List UInt8) (count : Nat) : Option (List UInt8) :=
  if count ≤ bytes.length then some (bytes.take count) else none

/-- `bytes[start..]`, and what `drain(..start)` leaves. -/
def sliceFrom (bytes : List UInt8) (start : Nat) : Option (List UInt8) :=
  if start ≤ bytes.length then some (bytes.drop start) else none

/-- The greatest number of 64 bits. -/
def u64Max : Nat := 2 ^ 64 - 1

/-- `u64::saturating_add`. -/
def saturatingAdd (left right : Nat) : Nat := min (left + right) u64Max

theorem checkedSub_eq {left right : Nat} (h : right ≤ left) :
    checkedSub left right = some (left - right) := if_pos h

theorem sliceTo_eq {bytes : List UInt8} {count : Nat} (h : count ≤ bytes.length) :
    sliceTo bytes count = some (bytes.take count) := if_pos h

theorem sliceFrom_eq {bytes : List UInt8} {start : Nat} (h : start ≤ bytes.length) :
    sliceFrom bytes start = some (bytes.drop start) := if_pos h

/-- What has been kept of an output. -/
structure BoundedCommandCapture where
  head : List UInt8
  tail : List UInt8
  droppedBytes : Nat
deriving Repr, DecidableEq

namespace BoundedCommandCapture

/-- Nothing has been read. -/
def new : BoundedCommandCapture := ⟨[], [], 0⟩

section Capacities

variable (headBytes tailBytes : Nat)

/-- The tail with as much of the bytes as it has room for, and the rest of them. -/
def fillTail (tail remaining : List UInt8) : Option (List UInt8 × List UInt8) :=
  if tail.length < tailBytes then do
    let room ← checkedSub tailBytes tail.length
    let retained := min room remaining.length
    let kept ← sliceTo remaining retained
    let rest ← sliceFrom remaining retained
    return (tail ++ kept, rest)
  else
    return (tail, remaining)

/-- A full tail with the latest bytes. -/
def rotateTail (tail remaining : List UInt8) : Option (List UInt8) :=
  if tailBytes ≤ remaining.length then do
    let start ← checkedSub remaining.length tailBytes
    sliceFrom remaining start
  else do
    let kept ← sliceFrom tail remaining.length
    return kept ++ remaining

/-- `append` for any capacities of the two regions. -/
def appendWithin (capture : BoundedCommandCapture) (bytes : List UInt8) :
    Option BoundedCommandCapture := do
  let room ← checkedSub headBytes capture.head.length
  let taken := min room bytes.length
  let head := capture.head ++ (← sliceTo bytes taken)
  let (tail, remaining) ← fillTail tailBytes capture.tail (← sliceFrom bytes taken)
  if remaining.isEmpty then
    return { capture with head, tail }
  else
    let tail ← rotateTail tailBytes tail remaining
    return { head, tail, droppedBytes := saturatingAdd capture.droppedBytes remaining.length }

end Capacities

/-- `none` where the source would panic. -/
def append : BoundedCommandCapture → List UInt8 → Option BoundedCommandCapture :=
  appendWithin commandCaptureHeadBytes commandCaptureTailBytes

/-- The beginning, the marker and the end. -/
def intoBytes (capture : BoundedCommandCapture) : List UInt8 :=
  if 0 < capture.droppedBytes then
    capture.head ++ commandCaptureTruncationMarker.toUTF8.data.toList ++ capture.tail
  else
    capture.head ++ capture.tail

/-- The chunks of a command, one after the other. -/
def appendAll (capture : BoundedCommandCapture) : List (List UInt8) → Option BoundedCommandCapture
  | [] => some capture
  | chunk :: chunks => do
      let next ← capture.append chunk
      next.appendAll chunks

end BoundedCommandCapture

/-- The batch description: the first bytes, the last bytes behind them, and how many are left
out. -/
structure Captures (headBytes tailBytes : Nat) (s : List UInt8) (capture : BoundedCommandCapture) :
    Prop where
  head_eq : capture.head = s.take headBytes
  tail_eq : capture.tail = (s.drop headBytes).rtake tailBytes
  dropped_eq : capture.droppedBytes =
    min (s.length - (headBytes + tailBytes)) u64Max

section Tail

variable {tailBytes : Nat} (tail remaining : List UInt8)

theorem fillTail_eq (h : tail.length ≤ tailBytes) :
    BoundedCommandCapture.fillTail tailBytes tail remaining =
      some (tail ++ remaining.take (tailBytes - tail.length),
        remaining.drop (tailBytes - tail.length)) := by
  unfold BoundedCommandCapture.fillTail
  split
  · have hle : min (tailBytes - tail.length) remaining.length ≤ remaining.length :=
      Nat.min_le_right _ _
    simp only [checkedSub_eq h, sliceTo_eq hle, sliceFrom_eq hle, Option.bind_eq_bind,
      Option.bind_some]
    rw [← List.take_eq_take_min, ← List.drop_eq_drop_min]
    rfl
  · have hfull : tailBytes - tail.length = 0 := by omega
    rw [hfull, List.take_zero, List.drop_zero, List.append_nil]
    rfl

theorem rotateTail_eq (h : tail.length = tailBytes) :
    BoundedCommandCapture.rotateTail tailBytes tail remaining =
      some ((tail ++ remaining).rtake tailBytes) := by
  unfold BoundedCommandCapture.rotateTail
  split
  · rename_i hle
    rw [checkedSub_eq hle, Option.bind_eq_bind, Option.bind_some, sliceFrom_eq (Nat.sub_le _ _),
      rtake_append_right hle, List.rtake]
  · rename_i hlt
    rw [sliceFrom_eq (by omega), Option.bind_eq_bind, Option.bind_some,
      rtake_append_left (by omega), List.rtake]
    have hstart : tail.length - (tailBytes - remaining.length) = remaining.length := by
      omega
    rw [hstart]
    rfl

end Tail

/-- The bytes behind a full head and a full tail add up, as far as they are counted. -/
theorem dropped_add (headBytes tailBytes most size more : Nat) :
    min (min (size - (headBytes + tailBytes)) most +
      (more - (headBytes - size) - (tailBytes - min tailBytes (size - headBytes)))) most =
      min (size + more - (headBytes + tailBytes)) most := by
  omega

namespace Captures

variable {headBytes tailBytes : Nat} {s : List UInt8} {capture capture' : BoundedCommandCapture}

/-- Nothing has been read. -/
theorem new : Captures headBytes tailBytes [] .new := by
  refine ⟨List.take_nil.symm, ?_, ?_⟩
  · rw [List.drop_nil, List.rtake_nil]
    rfl
  · rw [List.length_nil, Nat.zero_sub, Nat.zero_min]
    rfl

theorem unique (h : Captures headBytes tailBytes s capture) (h' : Captures headBytes tailBytes s capture') : capture = capture' := by
  obtain ⟨head, tail, droppedBytes⟩ := capture
  obtain ⟨head', tail', droppedBytes'⟩ := capture'
  obtain rfl := h.head_eq.trans h'.head_eq.symm
  obtain rfl := h.tail_eq.trans h'.tail_eq.symm
  obtain rfl := h.dropped_eq.trans h'.dropped_eq.symm
  rfl

theorem length_head (h : Captures headBytes tailBytes s capture) :
    capture.head.length = min headBytes s.length := by
  rw [h.head_eq, List.length_take]

theorem length_tail (h : Captures headBytes tailBytes s capture) : capture.tail.length =
    min tailBytes (s.length - headBytes) := by
  rw [h.tail_eq, length_rtake_min, List.length_drop]

/-- One chunk more: whatever the regions it reaches into, the capture is that of the longer
stream. -/
theorem append (h : Captures headBytes tailBytes s capture) (bytes : List UInt8) :
    ∃ next, capture.appendWithin headBytes tailBytes bytes = some next ∧ Captures headBytes tailBytes (s ++ bytes) next := by
  have hhead := h.length_head
  have htail := h.length_tail
  have hroom : checkedSub headBytes capture.head.length =
      some (headBytes - s.length) := by
    rw [checkedSub_eq (by omega)]
    exact congrArg some (by omega)
  have hle : min (headBytes - s.length) bytes.length ≤ bytes.length :=
    Nat.min_le_right _ _
  -- the part of the chunk behind the head, and the room that the tail has for it
  obtain ⟨rest, hrest⟩ : ∃ rest, rest = bytes.drop (headBytes - s.length) := ⟨_, rfl⟩
  obtain ⟨room, hroom'⟩ : ∃ room, room = tailBytes - capture.tail.length := ⟨_, rfl⟩
  have hlength : rest.length = bytes.length - (headBytes - s.length) := by
    rw [hrest, List.length_drop]
  have hfill : BoundedCommandCapture.fillTail tailBytes capture.tail rest =
      some (capture.tail ++ rest.take room, rest.drop room) := by
    rw [hroom']
    exact fillTail_eq capture.tail rest (by omega)
  have hdropped : saturatingAdd capture.droppedBytes (rest.drop room).length =
      min ((s ++ bytes).length - (headBytes + tailBytes)) u64Max := by
    rw [h.dropped_eq, saturatingAdd, List.length_drop, hlength, hroom', htail, List.length_append]
    exact dropped_add _ _ _ _ _
  have hhead' : capture.head ++ bytes.take (headBytes - s.length) =
      (s ++ bytes).take headBytes := by
    rw [h.head_eq, List.take_append]
  have htail' : ((s ++ bytes).drop headBytes).rtake tailBytes =
      (capture.tail ++ rest).rtake tailBytes := by
    rw [List.drop_append, rtake_append, ← h.tail_eq, hrest]
  unfold BoundedCommandCapture.appendWithin
  simp only [hroom, sliceTo_eq hle, sliceFrom_eq hle, Option.bind_eq_bind, Option.bind_some,
    ← List.take_eq_take_min, ← List.drop_eq_drop_min]
  rw [← hrest, hfill, Option.bind_some]
  by_cases hempty : (rest.drop room).isEmpty = true
  · -- the tail has room for everything behind the head
    have hfits : rest.length ≤ room := List.drop_eq_nil_iff.mp (List.isEmpty_iff.mp hempty)
    refine ⟨_, if_pos hempty, hhead', ?_, ?_⟩
    · rw [htail', List.take_of_length_le hfits, rtake_of_length_le]
      rw [List.length_append]
      omega
    · rw [List.isEmpty_iff.mp hempty, List.length_nil, saturatingAdd, Nat.add_zero] at hdropped
      rw [← hdropped, h.dropped_eq, Nat.min_assoc, Nat.min_self]
  · -- the tail is filled up and turned
    have hover : room < rest.length := by
      by_contra hle'
      exact hempty (List.isEmpty_iff.mpr (List.drop_eq_nil_of_le (by omega)))
    have hfull : (capture.tail ++ rest.take room).length = tailBytes := by
      rw [List.length_append, List.length_take]
      omega
    have hturn := rotateTail_eq (capture.tail ++ rest.take room) (rest.drop room) hfull
    rw [List.append_assoc, List.take_append_drop] at hturn
    refine ⟨⟨capture.head ++ bytes.take (headBytes - s.length),
      (capture.tail ++ rest).rtake tailBytes,
      saturatingAdd capture.droppedBytes (rest.drop room).length⟩, ?_, hhead', htail'.symm,
      hdropped⟩
    rw [if_neg hempty, hturn]
    rfl

theorem appendAll (h : Captures commandCaptureHeadBytes commandCaptureTailBytes s capture)
    (chunks : List (List UInt8)) : ∃ last, capture.appendAll chunks = some last ∧
      Captures commandCaptureHeadBytes commandCaptureTailBytes (s ++ chunks.flatten) last := by
  induction chunks generalizing s capture with
  | nil => exact ⟨capture, rfl, by rwa [List.flatten_nil, List.append_nil]⟩
  | cons chunk chunks ih =>
      obtain ⟨next, hnext, hcaptures⟩ := h.append chunk
      obtain ⟨last, hlast, hall⟩ := ih hcaptures
      refine ⟨last, ?_, by rwa [List.flatten_cons, ← List.append_assoc]⟩
      rw [BoundedCommandCapture.appendAll, BoundedCommandCapture.append, hnext,
        Option.bind_eq_bind, Option.bind_some, hlast]

/-- Nothing is left out of a short stream. -/
theorem intoBytes_of_le (h : Captures headBytes tailBytes s capture)
    (hle : s.length ≤ headBytes + tailBytes) : capture.intoBytes = s := by
  have hzero : capture.droppedBytes = 0 := by
    rw [h.dropped_eq, Nat.sub_eq_zero_of_le hle, Nat.zero_min]
  rw [BoundedCommandCapture.intoBytes, hzero, if_neg (Nat.lt_irrefl 0), h.head_eq, h.tail_eq,
    rtake_of_length_le, List.take_append_drop]
  rw [List.length_drop]
  omega

/-- A long stream keeps its two ends, with the marker between them. -/
theorem intoBytes_of_lt (h : Captures headBytes tailBytes s capture)
    (hlt : headBytes + tailBytes < s.length) : capture.intoBytes = s.take headBytes ++
      commandCaptureTruncationMarker.toUTF8.data.toList ++ s.rtake tailBytes := by
  have hpos : 0 < capture.droppedBytes := by
    rw [h.dropped_eq]
    exact Nat.lt_min.mpr ⟨Nat.sub_pos_of_lt hlt, by decide⟩
  have htail : s.rtake tailBytes = (s.drop headBytes).rtake tailBytes := by
    conv_lhs => rw [← List.take_append_drop headBytes s]
    refine rtake_append_right ?_
    rw [List.length_drop]
    omega
  rw [BoundedCommandCapture.intoBytes, if_pos hpos, h.head_eq, h.tail_eq, htail]

end Captures

/-- Chunks in any division never make a slice or a drain go out of range, and what is kept of them
depends on their concatenation only: all of it within the capacities, else its two ends around the
marker. The bytes left out are counted up to the largest `u64`. -/
theorem command_capture_keeps_ends (chunks : List (List UInt8)) :
    ∃ capture, BoundedCommandCapture.new.appendAll chunks = some capture ∧
      (chunks.flatten.length ≤ commandCaptureHeadBytes + commandCaptureTailBytes →
        capture.intoBytes = chunks.flatten) ∧
      (commandCaptureHeadBytes + commandCaptureTailBytes < chunks.flatten.length →
        capture.intoBytes = chunks.flatten.take commandCaptureHeadBytes ++
          commandCaptureTruncationMarker.toUTF8.data.toList ++
          chunks.flatten.rtake commandCaptureTailBytes) ∧
      capture.droppedBytes = min (chunks.flatten.length -
        (commandCaptureHeadBytes + commandCaptureTailBytes)) u64Max ∧
      ∀ chunks' : List (List UInt8), chunks'.flatten = chunks.flatten →
        BoundedCommandCapture.new.appendAll chunks' = some capture := by
  obtain ⟨capture, hcapture, hcaptures⟩ := Captures.new.appendAll chunks
  rw [List.nil_append] at hcaptures
  refine ⟨capture, hcapture, hcaptures.intoBytes_of_le, hcaptures.intoBytes_of_lt,
    hcaptures.dropped_eq, fun chunks' hsame => ?_⟩
  obtain ⟨capture', hcapture', hcaptures'⟩ := Captures.new.appendAll chunks'
  rw [List.nil_append, hsame] at hcaptures'
  rw [hcapture', hcaptures'.unique hcaptures]

/-- Chunks of four gibibytes, of which so many come that the counter reaches its end. -/
theorem dropped_bytes_saturate : ¬ ∀ (chunks : List (List UInt8)) (capture : BoundedCommandCapture),
    BoundedCommandCapture.new.appendAll chunks = some capture →
      capture.droppedBytes = chunks.flatten.length -
        (commandCaptureHeadBytes + commandCaptureTailBytes) := by
  intro h
  obtain ⟨capture, hcapture, hcaptures⟩ :=
    Captures.new.appendAll (List.replicate (2 ^ 33) (List.replicate (2 ^ 32) 0))
  have hlength : (List.replicate (2 ^ 33) (List.replicate (2 ^ 32) (0 : UInt8))).flatten.length =
      2 ^ 33 * 2 ^ 32 := by
    rw [List.flatten_replicate_replicate, List.length_replicate]
  have hdropped := h _ _ hcapture
  rw [hcaptures.dropped_eq, List.nil_append, hlength] at hdropped
  exact absurd hdropped (by decide)

end EasyDeploy.Remote

import RtbEngine.Engine.Buffer
import RtbEngine.Lib.Queue

/-!
# A reusable buffer is a bounded queue

Whatever is reserved, written, consumed and compacted, the readable bytes are
the written ones less the consumed ones, and the storage's size bounds them.
-/

namespace RtbEngine

open Lib

namespace ReusableBuffer

/-- The operations on a buffer; `write bs` stores `bs` in the writable region
and commits its length. -/
inductive Call where
  | reserve (capacity : Nat)
  | write (bs : Bytes)
  | consumeFrame (totalFrameBytes : Nat)
  | compact

/-- One operation, where its caller keeps to the sizes the buffer reports. -/
def step (b : ReusableBuffer) : Call → Option ReusableBuffer
  | .reserve capacity => some (b.reserve capacity)
  | .write bs =>
      if bs.length ≤ b.writableRegion.length then some ((b.fillWritable bs).commitWrite bs.length)
      else none
  | .consumeFrame totalFrameBytes =>
      if totalFrameBytes ≤ b.readableBytes then some (b.consumeFrame totalFrameBytes) else none
  | .compact => some b.compact

/-- The buffer after the calls, from an empty one. -/
def after (calls : List Call) : Option ReusableBuffer := calls.foldlM step {}

def Call.queueCall : Call → QueueCall UInt8
  | .reserve capacity => .grow capacity
  | .write bs => .push bs
  | .consumeFrame totalFrameBytes => .pop totalFrameBytes
  | .compact => .settle

/-- The buffer holds the queue: its bytes are the readable ones, its capacity
the size of the storage. -/
structure Represents (b : ReusableBuffer) (q : BoundedQueue UInt8) : Prop where
  wf : b.Wf
  contents : b.readable = q.contents
  capacity : b.storage.length = q.capacity

/-- Every operation is matched by a call on the queue. -/
theorem Represents.step {b b' : ReusableBuffer} {q : BoundedQueue UInt8} {call : Call}
    (h : b.Represents q) (hstep : b.step call = some b') :
    ∃ q', q.step call.queueCall = some q' ∧ b'.Represents q' := by
  have hwf := h.wf
  cases call with
  | reserve capacity =>
      cases hstep
      obtain ⟨q', hq', hcontents, hcapacity⟩ := q.step_grow capacity
      refine ⟨q', hq', hwf.reserve capacity, ?_, ?_⟩
      · rw [hwf.readable_reserve, h.contents, hcontents]
      · rw [length_reserve, h.capacity, hcapacity]
  | write bs =>
      simp only [ReusableBuffer.step] at hstep
      split at hstep
      · rename_i hregion
        cases hstep
        rw [hwf.length_writableRegion] at hregion
        -- the room behind the write offset is at most the queue's room
        have hroom : q.contents.length + bs.length ≤ q.capacity := by
          have hinside := hwf.inside
          rw [← h.contents, ← h.capacity, hwf.length_readable]
          unfold readableBytes
          unfold writableBytes at hregion
          omega
        obtain ⟨q', hq', hcontents, hcapacity⟩ := BoundedQueue.step_push hroom
        refine ⟨q', hq', hwf.append hregion, ?_, ?_⟩
        · rw [hcontents, ← h.contents]
          exact hwf.readable_append hregion
        · rw [hcapacity, ← h.capacity]
          exact hwf.length_append hregion
      · cases hstep
  | consumeFrame totalFrameBytes =>
      simp only [ReusableBuffer.step] at hstep
      split at hstep
      · rename_i hreadable
        cases hstep
        rw [← hwf.length_readable, h.contents] at hreadable
        obtain ⟨q', hq', hcontents, hcapacity⟩ := BoundedQueue.step_pop hreadable
        refine ⟨q', hq', hwf.consumeFrame _, ?_, ?_⟩
        · rw [hwf.readable_consumeFrame, h.contents, hcontents]
        · rw [length_consumeFrame, h.capacity, hcapacity]
      · cases hstep
  | compact =>
      cases hstep
      refine ⟨q, rfl, hwf.compact, ?_, ?_⟩
      · rw [hwf.readable_compact, h.contents]
      · rw [hwf.length_compact, h.capacity]

theorem represents_empty : ({} : ReusableBuffer).Represents BoundedQueue.empty :=
  ⟨wf_empty, rfl, rfl⟩

/-- A run of the buffer is a run of the queue. -/
theorem after_represents {calls : List Call} {b : ReusableBuffer} (hrun : after calls = some b) :
    ∃ q, (calls.map Call.queueCall).foldlM BoundedQueue.step BoundedQueue.empty = some q ∧
      b.Represents q :=
  foldlM_simulates Represents.step calls represents_empty hrun

/-- After any calls that keep to the reported sizes: the offsets are in order
and inside the storage, the readable bytes are the queue's, which are the
written ones less the consumed ones, `reserve` and `compact` keep them, and
compaction makes all other bytes writable. No difference or sum of offsets
leaves the storage. -/
theorem after_refines {calls : List Call} {b : ReusableBuffer} (hrun : after calls = some b) :
    (b.readOffset ≤ b.writeOffset ∧ b.writeOffset ≤ b.storage.length) ∧
      (∃ q, (calls.map Call.queueCall).foldlM BoundedQueue.step BoundedQueue.empty = some q ∧
        b.readable = q.contents ∧ b.storage.length = q.capacity) ∧
      (∃ consumed, consumed.length = QueueCall.popped (calls.map Call.queueCall) ∧
        QueueCall.pushed (calls.map Call.queueCall) = consumed ++ b.readable) ∧
      (∀ capacity, (b.reserve capacity).readable = b.readable) ∧
      b.compact.readable = b.readable ∧
      b.compact.storage.length = b.storage.length ∧
      b.compact.writableBytes = b.storage.length - b.readableBytes ∧
      b.readableBytes + b.readOffset = b.writeOffset ∧
      b.writableBytes + b.writeOffset = b.storage.length ∧
      (∀ n ≤ b.writableRegion.length, b.writeOffset + n ≤ b.storage.length) ∧
      (∀ n ≤ b.readableBytes, b.readOffset + n ≤ b.writeOffset) := by
  obtain ⟨q, hq, hrep⟩ := after_represents hrun
  obtain ⟨consumed, hlen, hsplit⟩ := BoundedQueue.run_contents _ hq
  have hwf := hrep.wf
  have hordered := hwf.ordered
  have hinside := hwf.inside
  refine ⟨⟨hordered, hinside⟩, ⟨q, hq, hrep.contents, hrep.capacity⟩, ⟨consumed, hlen, ?_⟩,
    hwf.readable_reserve, hwf.readable_compact, hwf.length_compact, ?_, ?_, ?_, ?_, ?_⟩
  · rw [hrep.contents, ← hsplit]
    rfl
  · rw [hwf.writableBytes_compact, hwf.length_readable]
  · exact Nat.sub_add_cancel hordered
  · exact Nat.sub_add_cancel hinside
  · intro n hn
    rw [hwf.length_writableRegion, writableBytes] at hn
    omega
  · intro n hn
    rw [readableBytes] at hn
    omega

/-- Two writes with a consumed byte and a compaction between them. -/
theorem after_refines_sample :
    ∃ b, after [.reserve 4, .write [1, 2, 3], .consumeFrame 1, .compact, .write [4, 5],
        .consumeFrame 2] = some b ∧ b.readable = [4, 5] ∧
      ∃ consumed : Bytes, consumed.length = 3 ∧ [1, 2, 3, 4, 5] = consumed ++ b.readable := by
  have hrun : after [.reserve 4, .write [1, 2, 3], .consumeFrame 1, .compact, .write [4, 5],
      .consumeFrame 2] = some { storage := [2, 3, 4, 5], readOffset := 2, writeOffset := 4 } := by
    decide
  exact ⟨_, hrun, rfl, (after_refines hrun).2.2.1⟩

end ReusableBuffer

end RtbEngine

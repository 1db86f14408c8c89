import Mathlib.Data.Int.Notation
import Mathlib.Data.List.TakeDrop
import Mathlib.Tactic.Common

/-!
# Transfers that may be cut short

A call hands a frame over for transfer and returns a count: that many first elements of the frame
are transferred, and none if the count is negative.

## Main results

* `stream_eq_frames_iff`: the stream consists of the whole frames exactly when every count is the
  length of its frame.
-/

/-- A call that hands a frame over, and the count that it returns. -/
structure Transfer (α : Type*) where
  /-- The frame. -/
  frame : List α
  /-- The count. -/
  count : ℤ
  /-- The frame is not empty. -/
  frame_ne_nil : frame ≠ []
  /-- The count is negative, or at least one and at most the length of the frame. -/
  count_mem : count < 0 ∨ 1 ≤ count ∧ count ≤ frame.length

namespace Transfer

variable {α : Type*}

/-- What is transferred. -/
def sent (t : Transfer α) : List α := t.frame.take t.count.toNat

/-- The stream of what several calls transfer. -/
def stream (ts : List (Transfer α)) : List α := ts.flatMap sent

/-- The frames that several calls hand over. -/
def frames (ts : List (Transfer α)) : List α := ts.flatMap frame

/-- Not more is transferred than the frame. -/
theorem length_sent_le (t : Transfer α) : t.sent.length ≤ t.frame.length := by
  rw [sent, List.length_take]
  exact Nat.min_le_right _ _

/-- The whole frame is transferred exactly when the count is its length. -/
theorem sent_eq_frame_iff (t : Transfer α) : t.sent = t.frame ↔ t.count = t.frame.length := by
  have hpos := List.length_pos_iff.mpr t.frame_ne_nil
  have hmem := t.count_mem
  rw [sent, List.take_eq_self_iff]
  omega

/-- The stream is not longer than the frames. -/
theorem length_stream_le (ts : List (Transfer α)) :
    (stream ts).length ≤ (frames ts).length := by
  induction ts with
  | nil => exact Nat.le_refl _
  | cons t ts ih =>
      have hle := t.length_sent_le
      simp only [stream, frames, List.flatMap_cons, List.length_append] at ih ⊢
      omega

/-- The stream consists of the whole frames exactly when every count is the length of its frame:
what one call drops, no other call makes up for. -/
theorem stream_eq_frames_iff (ts : List (Transfer α)) :
    stream ts = frames ts ↔ ∀ t ∈ ts, t.count = t.frame.length := by
  induction ts with
  | nil => simp [stream, frames]
  | cons t ts ih =>
      rw [List.forall_mem_cons, ← ih, ← sent_eq_frame_iff]
      have hstream : stream (t :: ts) = t.sent ++ stream ts := rfl
      have hframes : frames (t :: ts) = t.frame ++ frames ts := rfl
      rw [hstream, hframes]
      constructor
      · intro h
        have hsent := t.length_sent_le
        have hrest := length_stream_le ts
        have hlen := congrArg List.length h
        rw [List.length_append, List.length_append] at hlen
        exact List.append_inj h (by omega)
      · rintro ⟨hsent, hrest⟩
        rw [hsent, hrest]

end Transfer

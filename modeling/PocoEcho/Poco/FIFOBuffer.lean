import PocoEcho.Library.BoundedQueue

/-!
# Poco's FIFO buffer

`Poco/FIFOBuffer.h` keeps its content in an array, from the offset `_begin` on, and moves it to the
front of the array when a write would run over the end. This module models the reads and writes of
that class and shows that they are the reads and writes of a bounded queue. The rest of the
development works with the queue.

## Main results

* `toQueue_read` and `toQueue_write`: reading and writing refine the operations of `BoundedQueue`;
* `write_fst`: `write` returns the number of elements it stored.

The notification events and the mutex of the class are left out: every buffer of the programs is a
local variable of one thread, created without notifications.
-/

namespace Poco

/-- `Poco::BasicFIFOBuffer`: an array that holds `used` elements from offset `start` (`_begin`)
on. -/
structure BasicFIFOBuffer (α : Type) where
  /-- The whole array, `_buffer`. -/
  buffer : List α
  /-- The offset of the first element held, `_begin`. -/
  start : ℕ
  /-- The number of elements held, `_used`. -/
  used : ℕ
  /-- The end-of-file flag, which forbids writing. -/
  eof : Bool
  /-- The error flag, which forbids reading and writing. -/
  error : Bool
  /-- The elements held lie inside the array. -/
  inBounds : start + used ≤ buffer.length

/-- `Poco::FIFOBuffer` as the programs use it: a bounded queue of characters. -/
abbrev FIFOBuffer := BoundedQueue UInt8

namespace BasicFIFOBuffer

variable {α : Type}

/-- The size of the array. -/
def size (b : BasicFIFOBuffer α) : ℕ := b.buffer.length

/-- The buffer holds elements and is not in error state. -/
def isReadable (b : BasicFIFOBuffer α) : Bool := b.used != 0 && !b.error

/-- The buffer is not full, not in error state and not at end of file. -/
def isWritable (b : BasicFIFOBuffer α) : Bool := b.size != b.used && !b.error && !b.eof

/-- The elements held, oldest first. -/
def content (b : BasicFIFOBuffer α) : List α := (b.buffer.drop b.start).take b.used

theorem length_content (b : BasicFIFOBuffer α) : b.content.length = b.used := by
  have := b.inBounds
  simp only [content, List.length_take, List.length_drop]
  omega

/-- Copy up to `length` elements from the front without extracting them. -/
def peek (b : BasicFIFOBuffer α) (length : ℕ) : List α :=
  if length = 0 then []
  else if !b.isReadable then []
  else (b.buffer.drop b.start).take (if length > b.used then b.used else length)

/-- A peek returns as many of the elements asked for as there are. -/
theorem peek_eq_take (b : BasicFIFOBuffer α) (h : b.error = false) (length : ℕ) :
    b.peek length = b.content.take length := by
  unfold peek content
  -- an empty or exhausted buffer yields nothing either way
  by_cases h0 : length = 0
  · simp [h0]
  · by_cases hu : b.used = 0
    · simp [h0, hu, isReadable]
    · have hr : b.isReadable = true := by simp [isReadable, hu, h]
      rw [if_neg h0, hr, List.take_take]
      simp only [Bool.not_true, Bool.false_eq_true, ↓reduceIte]
      congr 1
      split <;> omega

/-- The number of elements a peek into a readable buffer copies. -/
theorem length_peek (b : BasicFIFOBuffer α) (h : b.isReadable = true) (length : ℕ) :
    (b.peek length).length = min length b.used := by
  have herr : b.error = false := by
    simp only [isReadable, Bool.and_eq_true, Bool.not_eq_true'] at h
    exact h.2
  rw [peek_eq_take b herr, List.length_take, length_content]

/-- `read`: extract up to `length` elements from the front. The offset advances by `length`, which
is the number of elements read unless the buffer becomes empty. -/
def read (b : BasicFIFOBuffer α) (length : ℕ) : List α × BasicFIFOBuffer α :=
  if length = 0 then ([], b)
  else if h : b.isReadable = true then
    let copied := b.peek length
    -- `_used -= copied`, and `_begin` is reset when nothing is left
    let used := b.used - copied.length
    (copied,
      { b with
        start := if used = 0 then 0 else b.start + length
        used := used
        inBounds := by
          have hin := b.inBounds
          have hcopied : copied.length = min length b.used := b.length_peek h length
          split <;> omega })
  else ([], b)

/-- `begin()`: move the elements held to the front of the array. -/
def moveToFront (b : BasicFIFOBuffer α) : BasicFIFOBuffer α :=
  { b with
    buffer := b.content ++ b.buffer.drop b.used
    start := 0
    inBounds := by
      have := b.length_content
      simp only [List.length_append]
      omega }

/-- `begin()` as `write` calls it: the elements held now start at the front of the array. -/
def front (b : BasicFIFOBuffer α) : BasicFIFOBuffer α :=
  if b.start ≠ 0 then b.moveToFront else b

/-- Copy elements behind the ones held, which start at the front of the array, as far as they fit
(`memcpy` and the update of `_used` in `write`). -/
def append (b : BasicFIFOBuffer α) (xs : List α) : BasicFIFOBuffer α :=
  { b with
    buffer := b.buffer.take b.used ++ xs ++ b.buffer.drop (b.used + xs.length)
    start := 0
    used := b.used + xs.length
    inBounds := by
      have hin := b.inBounds
      simp only [List.length_append, List.length_take, List.length_drop]
      omega }

/-- `write`: store as many of the elements as there is room for behind the ones held, and return
how many were stored. -/
def write (b : BasicFIFOBuffer α) (pBuffer : List α) : ℕ × BasicFIFOBuffer α :=
  if pBuffer.length = 0 then (0, b)
  else if !b.isWritable then (0, b)
  else
    -- the elements are moved only when the room behind them is too small
    let b' := if b.size - (b.start + b.used) < pBuffer.length then b.moveToFront else b
    let available := b'.size - b'.used - b'.start
    let len := if pBuffer.length > available then available else pBuffer.length
    (len, b'.front.append (pBuffer.take len))

/-! ## Refinement of the bounded queue -/

/-- The bounded queue that a buffer implements. -/
def toQueue (b : BasicFIFOBuffer α) : BoundedQueue α :=
  { capacity := b.size
    content := b.content
    length_le := by
      have := b.inBounds
      rw [length_content, size]
      omega }

/-- `read` reads from the queue. -/
theorem toQueue_read (b : BasicFIFOBuffer α) (h : b.error = false) (length : ℕ) :
    (b.read length).1 = (b.toQueue.read length).1 ∧
      (b.read length).2.toQueue = (b.toQueue.read length).2 := by
  have hlen := b.length_content
  -- a read of nothing changes nothing
  by_cases h0 : length = 0
  · subst h0
    refine ⟨by simp [read, toQueue], ?_⟩
    ext1 <;> simp [read, toQueue]
  -- a readable buffer gives what the queue gives
  by_cases hr : b.isReadable = true
  · have hcopied : b.peek length = b.content.take length := peek_eq_take b h length
    have hread : b.read length = (b.peek length, (b.read length).2) := by
      simp [read, h0, hr]
    refine ⟨by rw [hread, hcopied]; rfl, ?_⟩
    ext1
    · simp [read, h0, hr, toQueue, size]
    · simp only [read, h0, hr, ↓reduceIte, ↓reduceDIte, toQueue, BoundedQueue.content_read, content,
        length_peek]
      rw [List.drop_take]
      split
      -- the buffer is exhausted, and its offset starts over
      next hzero =>
        have : b.used - length = 0 := by omega
        simp [hzero, this]
      next hne =>
        rw [List.drop_drop]
        congr 1
        omega
  -- an unreadable buffer without error is empty
  · have hu : b.content = [] := by
      have : b.used = 0 := by
        simpa [isReadable, h] using hr
      rw [← List.length_eq_zero_iff, hlen, this]
    refine ⟨by simp [read, hr, toQueue, hu], ?_⟩
    ext1
    · simp [read, hr, toQueue]
    · simp [read, hr, toQueue, hu]

theorem content_moveToFront (b : BasicFIFOBuffer α) : b.moveToFront.content = b.content := by
  have := b.length_content
  simp only [content, moveToFront, List.drop_zero]
  exact List.take_left' this

theorem size_moveToFront (b : BasicFIFOBuffer α) : b.moveToFront.size = b.size := by
  have hlen := b.length_content
  have hin := b.inBounds
  simp only [size, moveToFront, List.length_append, List.length_drop]
  omega

/-- Moving the elements changes neither the content nor the size. -/
theorem toQueue_moveToFront (b : BasicFIFOBuffer α) : b.moveToFront.toQueue = b.toQueue := by
  ext1
  · exact b.size_moveToFront
  · exact b.content_moveToFront

theorem toQueue_front (b : BasicFIFOBuffer α) : b.front.toQueue = b.toQueue := by
  unfold front
  split
  · exact b.toQueue_moveToFront
  · rfl

theorem start_front (b : BasicFIFOBuffer α) : b.front.start = 0 := by
  unfold front
  split
  · rfl
  · rename_i h
    simpa using h

/-- Appending what fits to a buffer whose elements start at the front. -/
theorem toQueue_append (b : BasicFIFOBuffer α) (h : b.start = 0) {xs : List α}
    (hroom : xs.length ≤ b.toQueue.available) :
    (b.append xs).toQueue = b.toQueue.write xs := by
  have hin := b.inBounds
  have hlen := b.length_content
  have hfit : b.used + xs.length ≤ b.buffer.length := by
    simp only [BoundedQueue.available, toQueue, size, hlen] at hroom
    omega
  have hcontent : b.content = b.buffer.take b.used := by rw [content, h, List.drop_zero]
  -- the array is as long as before, and the new elements follow the old ones
  ext1
  · simp only [toQueue, size, append, List.length_append, List.length_take, List.length_drop,
      BoundedQueue.capacity_write]
    omega
  · rw [BoundedQueue.content_write_of_le _ hroom]
    simp only [toQueue, hcontent]
    simp only [content, append, List.drop_zero]
    apply List.take_left'
    simp only [List.length_append, List.length_take]
    omega

/-- `write` returns the number of elements it stored. -/
theorem write_fst (b : BasicFIFOBuffer α) (herr : b.error = false) (heof : b.eof = false)
    (xs : List α) : (b.write xs).1 = b.toQueue.writeCount xs := by
  have hin := b.inBounds
  have hlen := b.length_content
  have hsize := b.size_moveToFront
  simp only [BoundedQueue.writeCount, BoundedQueue.available, toQueue, hlen]
  unfold write
  split
  · omega
  · split
    next hw =>
      have : b.size = b.used := by simpa [isWritable, herr, heof] using hw
      simp [this]
    next =>
      -- both bounds of `write` are minima
      have hmin (n available : ℕ) :
          (if n > available then available else n) = min n available := by
        split <;> omega
      dsimp only
      rw [hmin]
      split
      · rw [hsize]
        simp only [moveToFront, Nat.sub_zero]
      · simp only [size] at *
        omega

/-- `write` writes to the queue. -/
theorem toQueue_write (b : BasicFIFOBuffer α) (herr : b.error = false) (heof : b.eof = false)
    (xs : List α) : (b.write xs).2.toQueue = b.toQueue.write xs := by
  have hlen := b.length_content
  have hcount := b.write_fst herr heof xs
  unfold write at hcount ⊢
  split
  next h0 =>
    rw [List.length_eq_zero_iff.mp h0]
    ext1 <;> simp
  next h0 =>
    rw [if_neg h0] at hcount
    split
    -- a full buffer stores nothing
    next hw =>
      have hfull : b.size = b.used := by simpa [isWritable, herr, heof] using hw
      ext1
      · simp
      · simp [BoundedQueue.available, toQueue, hlen, hfull]
    next hw =>
      rw [if_neg hw] at hcount
      dsimp only at hcount ⊢
      rw [hcount]
      -- neither of the two moves changes the queue
      have hb' : (if b.size - (b.start + b.used) < xs.length then b.moveToFront else b).toQueue =
          b.toQueue := by
        split
        · exact b.toQueue_moveToFront
        · rfl
      have hq := hb'
      rw [← toQueue_front] at hq
      rw [toQueue_append _ (start_front _), hq]
      · ext1
        · simp
        · simp only [BoundedQueue.content_write, BoundedQueue.writeCount, List.take_take]
          rw [Nat.min_comm xs.length, ← Nat.min_assoc, Nat.min_self, ← List.take_take,
            List.take_length]
      · rw [hq, List.length_take]
        exact Nat.le_trans (Nat.min_le_left _ _) (Nat.min_le_right _ _)

end BasicFIFOBuffer

end Poco

import Mathlib.Data.List.Basic
import Mathlib.Tactic.Common

/-!
# Bounded first-in first-out queues

A queue of at most `capacity` elements that is read from the front and written at the back. A
read returns as many elements as there are, up to the number asked for; a write stores as many
as there is room for. The bound is a field, so an overfull queue cannot be built.

## Main results

* `content_read` and `content_write`: what a read leaves and what a write stores, in terms of the
  content;
* `write_write`: consecutive writes store the concatenation, as far as it fits.
-/

/-- A queue of at most `capacity` elements, front first. -/
@[ext]
structure BoundedQueue (α : Type*) where
  /-- The largest number of elements the queue holds. -/
  capacity : ℕ
  /-- The elements held, front first. -/
  content : List α
  /-- The queue is never overfull. -/
  length_le : content.length ≤ capacity

namespace BoundedQueue

variable {α : Type*}

/-- The empty queue of a given capacity. -/
def empty (capacity : ℕ) : BoundedQueue α :=
  { capacity, content := [], length_le := Nat.zero_le _ }

/-- The number of elements that still fit. -/
def available (q : BoundedQueue α) : ℕ := q.capacity - q.content.length

/-- Take up to `n` elements off the front. -/
def read (q : BoundedQueue α) (n : ℕ) : List α × BoundedQueue α :=
  (q.content.take n,
    { q with
      content := q.content.drop n
      length_le := by
        rw [List.length_drop]
        exact Nat.le_trans (Nat.sub_le _ _) q.length_le })

/-- Store as many of `xs` at the back as fit. -/
def write (q : BoundedQueue α) (xs : List α) : BoundedQueue α :=
  { q with
    content := q.content ++ xs.take q.available
    length_le := by
      have := q.length_le
      simp only [List.length_append, List.length_take, available]
      omega }

/-- The number of elements of `xs` that `write` stores. -/
def writeCount (q : BoundedQueue α) (xs : List α) : ℕ := min xs.length q.available

@[simp] theorem capacity_empty (n : ℕ) : (empty n : BoundedQueue α).capacity = n := rfl

@[simp] theorem content_empty (n : ℕ) : (empty n : BoundedQueue α).content = [] := rfl

@[simp] theorem available_empty (n : ℕ) : (empty n : BoundedQueue α).available = n := rfl

@[simp] theorem read_fst (q : BoundedQueue α) (n : ℕ) : (q.read n).1 = q.content.take n := rfl

@[simp] theorem content_read (q : BoundedQueue α) (n : ℕ) :
    (q.read n).2.content = q.content.drop n := rfl

@[simp] theorem capacity_read (q : BoundedQueue α) (n : ℕ) :
    (q.read n).2.capacity = q.capacity := rfl

@[simp] theorem content_write (q : BoundedQueue α) (xs : List α) :
    (q.write xs).content = q.content ++ xs.take q.available := rfl

@[simp] theorem capacity_write (q : BoundedQueue α) (xs : List α) :
    (q.write xs).capacity = q.capacity := rfl

/-- A write that fits is an append. -/
theorem content_write_of_le (q : BoundedQueue α) {xs : List α} (h : xs.length ≤ q.available) :
    (q.write xs).content = q.content ++ xs := by
  rw [content_write, List.take_of_length_le h]

/-- Consecutive writes into a queue store the concatenation, as far as it fits. -/
theorem write_write (q : BoundedQueue α) (xs ys : List α) :
    (q.write xs).write ys = q.write (xs ++ ys) := by
  have hle := q.length_le
  have hroom : (q.write xs).available = q.available - xs.length := by
    simp only [available, capacity_write, content_write, List.length_append, List.length_take]
    omega
  ext1
  · rfl
  · rw [content_write, hroom, content_write, content_write, List.take_append, List.append_assoc]

/-- What is written into an empty queue is what fits. -/
@[simp] theorem content_write_empty (n : ℕ) (xs : List α) :
    ((empty n).write xs).content = xs.take n := by
  simp

end BoundedQueue

import Mathlib.Tactic.Common

/-!
# Pointers to one object

A pointer variable that owns an object: it is null, it points to the object, or it still holds the
address of the object after this has been deleted.

## Main definitions

* `Pointer.nonNull`, `Pointer.get` and `Pointer.delete`: what a program does with such a variable.
-/

/-- A pointer variable, and what has become of its object. -/
inductive Pointer (α : Type*)
  /-- The null pointer. -/
  | null
  /-- The address of an object that exists. -/
  | live (object : α)
  /-- The address of an object that has been deleted. -/
  | deleted
  deriving DecidableEq

namespace Pointer

variable {α ε : Type*}

/-- The test of a pointer in a condition: it is not null. -/
def nonNull : Pointer α → Bool
  | null => false
  | live _ => true
  | deleted => true

/-- Access to the object; `error` is what becomes of the program without one. -/
def get (p : Pointer α) (error : ε) : Except ε α :=
  match p with
  | live object => .ok object
  | _ => .error error

/-- The `delete` operator: nothing happens to a null pointer, and an object is not deleted twice. -/
def delete (p : Pointer α) (error : ε) : Except ε (Pointer α) :=
  match p with
  | null => .ok null
  | live _ => .ok deleted
  | deleted => .error error

@[simp] theorem nonNull_null : (null : Pointer α).nonNull = false := rfl

@[simp] theorem nonNull_live (object : α) : (live object).nonNull = true := rfl

@[simp] theorem delete_live (object : α) (error : ε) :
    (live object).delete error = .ok deleted := rfl

/-- A pointer that is not tested as null is the null pointer. -/
theorem eq_null_of_nonNull {p : Pointer α} (h : p.nonNull = false) : p = null := by
  cases p with
  | null => rfl
  | live object => cases h
  | deleted => cases h

end Pointer

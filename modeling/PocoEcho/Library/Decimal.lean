import Mathlib.Data.List.TakeWhile
import Mathlib.Data.Nat.Digits.Defs
import Mathlib.Tactic.Ring

/-!
# Decimal numbers in text

The number that a string of decimal digits denotes, and the loop of the C library that reads it:
digit by digit from the front, without ever exceeding a bound.

## Main results

* `value_append`: the value of two strings of digits behind each other;
* `accumulate_eq`: the loop computes the value, or the bound if the value is beyond it;
* `atoi_of_digits`: `atoi` of a string of digits.
-/

namespace Decimal

/-- `isdigit`: the characters from `0` to `9`. -/
def isDigit (c : UInt8) : Bool := 48 ≤ c && c ≤ 57

/-- `isspace` in the C locale. -/
def isSpace (c : UInt8) : Bool := c = 32 || (9 ≤ c && c ≤ 13)

/-- The number that a digit stands for. -/
def digit (c : UInt8) : ℕ := c.toNat - 48

/-- The number that a string of digits denotes. -/
def value (digits : List UInt8) : ℕ := Nat.ofDigits 10 (digits.reverse.map digit)

/-- The loop that reads the digits of a number, where no number exceeds the bound. -/
def accumulate (bound : ℕ) : ℕ → List UInt8 → ℕ
  | n, [] => n
  | n, c :: rest => accumulate bound (min (10 * n + digit c) bound) rest

/-- `INT_MAX`. -/
def intMax : ℕ := 2 ^ 31 - 1

/-- `atoi` of a C string: white space is skipped, a sign is honoured, and the digits behind it are
read up to the first other character. A value beyond the range of an `int` saturates. -/
def atoi (s : List UInt8) : ℤ :=
  match s.dropWhile isSpace with
  | 45 :: rest => -(accumulate (intMax + 1) 0 (rest.takeWhile isDigit) : ℤ)
  | 43 :: rest => accumulate intMax 0 (rest.takeWhile isDigit)
  | s => accumulate intMax 0 (s.takeWhile isDigit)

@[simp] theorem value_nil : value [] = 0 := rfl

theorem value_append (xs ys : List UInt8) :
    value (xs ++ ys) = value xs * 10 ^ ys.length + value ys := by
  unfold value
  rw [List.reverse_append, List.map_append, Nat.ofDigits_append, List.length_map,
    List.length_reverse, Nat.add_comm, Nat.mul_comm]

theorem value_cons (c : UInt8) (rest : List UInt8) :
    value (c :: rest) = digit c * 10 ^ rest.length + value rest :=
  value_append [c] rest

/-- The loop goes on from the number it has read, and stays at the bound once it is there. -/
theorem accumulate_eq {bound n : ℕ} (h : n ≤ bound) (digits : List UInt8) :
    accumulate bound n digits = min (n * 10 ^ digits.length + value digits) bound := by
  induction digits generalizing n with
  | nil =>
      show n = _
      rw [value_nil, List.length_nil]
      omega
  | cons c rest ih =>
      unfold accumulate
      rw [ih (Nat.min_le_right _ _), value_cons, List.length_cons]
      have hpow : 1 ≤ 10 ^ rest.length := Nat.one_le_pow _ _ (by omega)
      have hsplit : n * 10 ^ (rest.length + 1) + (digit c * 10 ^ rest.length + value rest) =
          (10 * n + digit c) * 10 ^ rest.length + value rest := by ring
      rw [hsplit]
      rcases Nat.le_total (10 * n + digit c) bound with hle | hle
      · rw [Nat.min_eq_left hle]
      · -- at the bound, the digits that follow do not matter
        have hbound : bound ≤ bound * 10 ^ rest.length := Nat.le_mul_of_pos_right _ hpow
        have hmore : bound * 10 ^ rest.length ≤ (10 * n + digit c) * 10 ^ rest.length :=
          Nat.mul_le_mul_right _ hle
        rw [Nat.min_eq_right hle]
        omega

/-- A digit is neither white space nor a sign. -/
theorem not_isSpace_of_isDigit {c : UInt8} (h : isDigit c = true) :
    isSpace c = false ∧ c ≠ 45 ∧ c ≠ 43 := by
  simp only [isDigit, Bool.and_eq_true, decide_eq_true_eq, UInt8.le_iff_toNat_le] at h
  obtain ⟨hlow, hhigh⟩ : 48 ≤ c.toNat ∧ c.toNat ≤ 57 := h
  have hne (n : ℕ) (hn : n < 48) : c ≠ UInt8.ofNat n := by
    rintro rfl
    rw [UInt8.toNat_ofNat'] at hlow
    omega
  refine ⟨?_, hne 45 (by omega), hne 43 (by omega)⟩
  simp only [isSpace, Bool.or_eq_false_iff, Bool.and_eq_false_iff, decide_eq_false_iff_not,
    UInt8.le_iff_toNat_le]
  refine ⟨hne 32 (by omega), .inr ?_⟩
  show ¬ c.toNat ≤ 13
  omega

/-- `atoi` of a string of digits is the number that it denotes, or the largest `int`. -/
theorem atoi_of_digits {s : List UInt8} (h : ∀ c ∈ s, isDigit c = true) :
    atoi s = (min (value s) intMax : ℕ) := by
  have hread : accumulate intMax 0 (s.takeWhile isDigit) = min (value s) intMax := by
    rw [List.takeWhile_eq_self_iff.mpr h, accumulate_eq (Nat.zero_le _), Nat.zero_mul, Nat.zero_add]
  rw [← hread]
  cases s with
  | nil => rfl
  | cons c rest =>
      obtain ⟨hspace, hminus, hplus⟩ := not_isSpace_of_isDigit (h c List.mem_cons_self)
      unfold atoi
      rw [List.dropWhile_cons_of_neg (by rw [hspace]; exact Bool.false_ne_true)]
      split
      next heq => exact absurd (List.cons.inj heq).1 hminus
      next heq => exact absurd (List.cons.inj heq).1 hplus
      next => rfl

end Decimal

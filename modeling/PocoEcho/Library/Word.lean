import Mathlib.Data.Nat.Digits.Defs
import Mathlib.Tactic.Common

/-!
# Four-byte words in memory

The object representation of a 32-bit integer: four bytes, least significant first. The bytes are
kept as such because a read that returns fewer than four bytes overwrites only the first of them.

## Main results

* `toNat_ofNat`: the value of an encoded number is the number modulo `2 ^ 32`;
* `toInt_ofNat`: a number below `2 ^ 31` is read back as a signed number;
* `overwrite_of_le`: four bytes overwrite the whole word.
-/

/-- Four bytes of memory, least significant first. -/
@[ext]
structure Word where
  /-- The bytes, in the order of their addresses. -/
  bytes : List UInt8
  /-- There are four of them. -/
  length_eq : bytes.length = 4
  deriving DecidableEq

namespace Word

/-- The representation of `n` modulo `2 ^ 32`. -/
def ofNat (n : ℕ) : Word :=
  { bytes := [UInt8.ofNat n, UInt8.ofNat (n / 256), UInt8.ofNat (n / 256 ^ 2),
      UInt8.ofNat (n / 256 ^ 3)]
    length_eq := rfl }

/-- The value as an unsigned number. -/
def toNat (w : Word) : ℕ := Nat.ofDigits 256 (w.bytes.map UInt8.toNat)

/-- The value as a signed number (two's complement). -/
def toInt (w : Word) : ℤ :=
  if w.toNat < 2 ^ 31 then w.toNat else (w.toNat : ℤ) - 2 ^ 32

/-- The value of the signed number as a 64-bit size: negative numbers become huge. -/
def toSize (w : Word) : ℕ :=
  if w.toNat < 2 ^ 31 then w.toNat else w.toNat + 2 ^ 64 - 2 ^ 32

/-- Overwrite the first bytes of the word with as many of `bs` as it holds. -/
def overwrite (w : Word) (bs : List UInt8) : Word :=
  { bytes := bs.take 4 ++ w.bytes.drop bs.length
    length_eq := by
      have := w.length_eq
      simp only [List.length_append, List.length_take, List.length_drop]
      omega }

/-- A word is the list of its four bytes. -/
theorem exists_bytes (w : Word) : ∃ a b c d, w.bytes = [a, b, c, d] := by
  obtain ⟨bytes, h⟩ := w
  match bytes, h with
  | [a, b, c, d], _ => exact ⟨a, b, c, d, rfl⟩

theorem toNat_lt (w : Word) : w.toNat < 2 ^ 32 := by
  obtain ⟨a, b, c, d, h⟩ := w.exists_bytes
  have ha := a.toNat_lt
  have hb := b.toNat_lt
  have hc := c.toNat_lt
  have hd := d.toNat_lt
  simp only [toNat, h, List.map_cons, List.map_nil, Nat.ofDigits_cons, Nat.ofDigits_nil]
  omega

/-- The value of an encoded number. -/
theorem toNat_ofNat (n : ℕ) : (ofNat n).toNat = n % 2 ^ 32 := by
  simp only [toNat, ofNat, List.map_cons, List.map_nil, Nat.ofDigits_cons, Nat.ofDigits_nil,
    UInt8.toNat_ofNat']
  omega

/-- A number below `2 ^ 31` is read back as itself. -/
theorem toInt_ofNat {n : ℕ} (h : n < 2 ^ 31) : (ofNat n).toInt = n := by
  have hn : (ofNat n).toNat = n := by
    rw [toNat_ofNat]
    omega
  rw [toInt, hn, if_pos h]

/-- As a size, a number below `2 ^ 32` is at least itself. -/
theorem le_toSize_ofNat {n : ℕ} (h : n < 2 ^ 32) : n ≤ (ofNat n).toSize := by
  have hn : (ofNat n).toNat = n := by
    rw [toNat_ofNat]
    omega
  rw [toSize, hn]
  split <;> omega

/-- As a size, a number whose remainder modulo `2 ^ 32` is below `2 ^ 31` is this remainder. -/
theorem toSize_ofNat {n : ℕ} (h : n % 2 ^ 32 < 2 ^ 31) : (ofNat n).toSize = n % 2 ^ 32 := by
  rw [toSize, toNat_ofNat, if_pos h]

/-- Read back as a signed number, a remainder from `2 ^ 31` on is negative. -/
theorem toInt_ofNat_neg {n : ℕ} (h : 2 ^ 31 ≤ n % 2 ^ 32) : (ofNat n).toInt < 0 := by
  rw [toInt, toNat_ofNat, if_neg (by omega)]
  omega

/-- Encoding is injective below `2 ^ 32`. -/
theorem ofNat_inj {m n : ℕ} (hm : m < 2 ^ 32) (hn : n < 2 ^ 32) (h : ofNat m = ofNat n) :
    m = n := by
  have := congrArg toNat h
  rw [toNat_ofNat, toNat_ofNat] at this
  omega

theorem toInt_lt (w : Word) : w.toInt < 2 ^ 31 := by
  have := w.toNat_lt
  unfold toInt
  split <;> omega

/-- A zero of which less than four bytes are overwritten is not negative. -/
theorem toInt_overwrite_nonneg {bs : List UInt8} (h : bs.length < 4) :
    0 ≤ ((ofNat 0).overwrite bs).toInt := by
  have hlt : ((ofNat 0).overwrite bs).toNat < 2 ^ 31 := by
    match bs, h with
    | [], _ => decide
    | [a], _ =>
        have ha := a.toNat_lt
        simp [toNat, overwrite, ofNat, Nat.ofDigits_cons]
        omega
    | [a, b], _ =>
        have ha := a.toNat_lt
        have hb := b.toNat_lt
        simp [toNat, overwrite, ofNat, Nat.ofDigits_cons]
        omega
    | [a, b, c], _ =>
        have ha := a.toNat_lt
        have hb := b.toNat_lt
        have hc := c.toNat_lt
        simp [toNat, overwrite, ofNat, Nat.ofDigits_cons]
        omega
  rw [toInt, if_pos hlt]
  exact Int.natCast_nonneg _

/-- Overwriting with nothing changes nothing. -/
@[simp] theorem overwrite_nil (w : Word) : w.overwrite [] = w := by
  ext1
  simp [overwrite]

/-- At least four bytes overwrite the whole word. -/
theorem overwrite_of_le (w : Word) {bs : List UInt8} (h : 4 ≤ bs.length) :
    (w.overwrite bs).bytes = bs.take 4 := by
  have hdrop : w.bytes.drop bs.length = [] := List.drop_eq_nil_of_le (w.length_eq.trans_le h)
  simp only [overwrite, hdrop, List.append_nil]

/-- What a word that is wholly overwritten held before does not matter. -/
theorem overwrite_eq_of_le (w w' : Word) {bs : List UInt8} (h : 4 ≤ bs.length) :
    w.overwrite bs = w'.overwrite bs := by
  ext1
  rw [overwrite_of_le w h, overwrite_of_le w' h]

/-- Overwriting a word with the bytes of another one. -/
@[simp] theorem overwrite_bytes (w v : Word) : w.overwrite v.bytes = v := by
  ext1
  rw [overwrite_of_le w v.length_eq.ge, List.take_of_length_le v.length_eq.le]

/-- The first bytes written come first. -/
theorem overwrite_isPrefix (w : Word) {bs : List UInt8} (h : bs.length ≤ 4) :
    bs <+: (w.overwrite bs).bytes :=
  ⟨w.bytes.drop bs.length, by simp [overwrite, List.take_of_length_le h]⟩

/-- The bytes behind those that are overwritten are kept. -/
theorem drop_overwrite (w : Word) {bs : List UInt8} (h : bs.length ≤ 4) :
    (w.overwrite bs).bytes.drop bs.length = w.bytes.drop bs.length := by
  simp only [overwrite, List.take_of_length_le h, List.drop_left' rfl]

/-- Overwriting a word with its own first bytes changes nothing. -/
theorem overwrite_of_isPrefix {w : Word} {bs : List UInt8} (h : bs <+: w.bytes) :
    w.overwrite bs = w := by
  obtain ⟨rest, hrest⟩ := h
  have hlen : bs.length ≤ 4 := by
    rw [← w.length_eq, ← hrest, List.length_append]
    omega
  ext1
  simp only [overwrite, ← hrest, List.drop_left' rfl, List.take_of_length_le hlen]

end Word

import Mathlib.Data.List.Basic
import Mathlib.Data.List.TakeWhile
import Mathlib.Tactic.Common

/-!
# C strings and arrays of characters

A `CString` is a list of characters without NUL; in memory a NUL follows it. A `CharArray` is a
`char[]` together with the mapped memory behind it, which functions on C strings run into when the
array holds no NUL.

## Main results

* `cString_eq_some_iff`: the string at an array is what precedes the first NUL in memory;
* `cString_of_mem`: a NUL inside the array shields the memory behind it.
-/

/-- A string of characters other than NUL. -/
@[ext]
structure CString where
  /-- The characters. -/
  chars : List UInt8
  /-- None of them is NUL. -/
  nul_notMem : 0 ∉ chars
  deriving DecidableEq

namespace CString

/-- The empty string. -/
def empty : CString := { chars := [], nul_notMem := List.not_mem_nil }

instance : Nonempty CString := ⟨empty⟩

/-- The characters in front of the first NUL of a list. -/
def ofPrefix (xs : List UInt8) : CString :=
  { chars := xs.takeWhile (· ≠ 0)
    nul_notMem := fun h => by simpa using List.mem_takeWhile_imp h }

/-- The string with its terminator, as it is stored. -/
def terminated (m : CString) : List UInt8 := m.chars ++ [0]

@[simp] theorem length_terminated (m : CString) :
    m.terminated.length = m.chars.length + 1 := by
  simp [terminated]

/-- A string in front of a NUL is the prefix of the list. -/
@[simp]
theorem ofPrefix_append (m : CString) (rest : List UInt8) :
    ofPrefix (m.chars ++ 0 :: rest) = m := by
  have hall : ∀ b ∈ m.chars, decide (b ≠ 0) = true := by
    intro b hb
    simpa using fun h : b = 0 => m.nul_notMem (h ▸ hb)
  ext1
  show (m.chars ++ 0 :: rest).takeWhile (· ≠ 0) = m.chars
  rw [List.takeWhile_append_of_pos hall]
  simp

/-- A list without NUL is the string. -/
theorem ofPrefix_of_notMem {xs : List UInt8} (h : 0 ∉ xs) : (ofPrefix xs).chars = xs := by
  refine List.takeWhile_eq_self_iff.mpr fun c hc => ?_
  simpa using fun hzero : c = 0 => h (hzero ▸ hc)

/-- A list that holds a NUL is a string, a NUL and a rest. -/
theorem eq_append_of_mem {xs : List UInt8} (h : 0 ∈ xs) :
    ∃ (m : CString) (rest : List UInt8), xs = m.chars ++ 0 :: rest := by
  obtain ⟨m, rest, hxs, hm⟩ := List.eq_append_cons_of_mem h
  exact ⟨⟨m, hm⟩, rest, hxs⟩

/-- A string in front of a NUL does not depend on what is behind the NUL. -/
theorem ofPrefix_take {xs : List UInt8} {n : ℕ} (h : 0 ∈ xs.take n) :
    ofPrefix (xs.take n) = ofPrefix xs := by
  obtain ⟨m, rest, htake⟩ := eq_append_of_mem h
  have hxs : xs = m.chars ++ 0 :: (rest ++ xs.drop n) := by
    conv_lhs => rw [← List.take_append_drop n xs, htake]
    simp
  rw [htake, hxs, ofPrefix_append, ofPrefix_append]

/-- A string in front of a NUL is shorter than the list. -/
theorem length_ofPrefix_lt {xs : List UInt8} (h : 0 ∈ xs) :
    (ofPrefix xs).chars.length < xs.length := by
  obtain ⟨m, rest, rfl⟩ := eq_append_of_mem h
  rw [ofPrefix_append, List.length_append, List.length_cons]
  omega

end CString

/-- An array of characters and the memory that is mapped behind it. -/
@[ext]
structure CharArray where
  /-- The characters of the array. -/
  data : List UInt8
  /-- The characters behind it, up to the end of the mapped memory. -/
  behind : List UInt8
  deriving DecidableEq

namespace CharArray

/-- The memory from the start of the array on. -/
def memory (a : CharArray) : List UInt8 := a.data ++ a.behind

/-- The C string at the array: what precedes the first NUL in memory. It is `none` when there is no
NUL up to the end of the mapped memory. -/
def cString (a : CharArray) : Option CString :=
  if 0 ∈ a.memory then some (CString.ofPrefix a.memory) else none

/-- Overwrite the first characters of the array. -/
def fill (a : CharArray) (bs : List UInt8) : CharArray :=
  { a with data := bs ++ a.data.drop bs.length }

/-- The string at an array is the NUL-free memory in front of a NUL. -/
theorem cString_eq_some_iff {a : CharArray} {m : CString} :
    a.cString = some m ↔ ∃ rest, a.memory = m.chars ++ 0 :: rest := by
  constructor
  · intro h
    unfold cString at h
    split at h
    next hmem =>
      obtain ⟨m', rest, hsplit⟩ := CString.eq_append_of_mem hmem
      rw [hsplit, CString.ofPrefix_append, Option.some.injEq] at h
      exact ⟨rest, h ▸ hsplit⟩
    next => cases h
  · rintro ⟨rest, hmem⟩
    rw [cString, hmem, if_pos (by simp), CString.ofPrefix_append]

/-- A NUL inside the array shields the memory behind it. -/
theorem cString_of_mem {a : CharArray} (h : 0 ∈ a.data) :
    a.cString = some (CString.ofPrefix a.data) := by
  obtain ⟨m, rest, hsplit⟩ := CString.eq_append_of_mem h
  rw [hsplit, CString.ofPrefix_append]
  exact cString_eq_some_iff.mpr ⟨rest ++ a.behind, by simp [memory, hsplit]⟩

end CharArray

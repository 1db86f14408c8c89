import PocoEcho.Library.Decimal

/-!
# Formatted input

An input stream that ends after finitely many characters, and the two kinds of extraction: a number
and a token. An extraction that fails puts the stream into a state in which every later one fails
without consuming anything; a number that is not extracted is zero.

## Main results

* `readInt_cases` and `readToken_cases`: what is extracted has been consumed, or the stream fails;
* `readInt_of_failed` and `readToken_of_failed`: nothing is extracted after a failure.
-/

open Decimal

/-- A stream of characters that ends. -/
@[ext]
structure Istream where
  /-- The characters that have not been consumed. -/
  unread : List UInt8
  /-- The fail state. -/
  failed : Bool
  deriving DecidableEq

namespace Istream

/-- A sign, if there is one, and what follows it. -/
def splitSign : List UInt8 → Bool × List UInt8
  | 45 :: rest => (true, rest)
  | 43 :: rest => (false, rest)
  | text => (false, text)

/-- The `int` that a sign and digits denote, if there are digits and it is in range. -/
def intOfDigits (negative : Bool) (digits : List UInt8) : Option ℤ :=
  if digits = [] then none
  else if negative then
    if value digits ≤ intMax + 1 then some (-value digits) else none
  else
    if value digits ≤ intMax then some (value digits) else none

/-- `operator>>` into an `int`. -/
def readInt (stream : Istream) : ℤ × Istream :=
  if stream.failed then (0, stream)
  else
    let (negative, text) := splitSign (stream.unread.dropWhile isSpace)
    match intOfDigits negative (text.takeWhile isDigit) with
    | none => (0, { unread := text.dropWhile isDigit, failed := true })
    | some n => (n, { unread := text.dropWhile isDigit, failed := false })

/-- `operator>>` into an array of characters: the token that is extracted, if any. -/
def readToken (stream : Istream) : Option (List UInt8) × Istream :=
  if stream.failed then (none, stream)
  else
    let text := stream.unread.dropWhile isSpace
    if text = [] then (none, { unread := [], failed := true })
    else
      (some (text.takeWhile (!isSpace ·)),
        { unread := text.dropWhile (!isSpace ·), failed := false })

/-- After a failure, no number is extracted and nothing is consumed. -/
theorem readInt_of_failed {stream : Istream} (h : stream.failed = true) :
    stream.readInt = (0, stream) := if_pos h

/-- After a failure, no token is extracted and nothing is consumed. -/
theorem readToken_of_failed {stream : Istream} (h : stream.failed = true) :
    stream.readToken = (none, stream) := if_pos h

theorem length_splitSign_le (text : List UInt8) : (splitSign text).2.length ≤ text.length := by
  unfold splitSign
  split
  · exact Nat.le_succ _
  · exact Nat.le_succ _
  · exact Nat.le_refl _

/-- Only digits denote a number. -/
theorem ne_nil_of_intOfDigits {negative : Bool} {digits : List UInt8} {n : ℤ}
    (h : intOfDigits negative digits = some n) : digits ≠ [] := by
  rintro rfl
  cases h

/-- Extracting a number consumes a digit at least, or the stream fails and the number is zero. -/
theorem readInt_cases (stream : Istream) :
    stream.readInt.2.failed = false ∧ stream.failed = false ∧
        stream.readInt.2.unread.length < stream.unread.length ∨
      stream.readInt.2.failed = true ∧ stream.readInt.1 = 0 ∧
        stream.readInt.2.unread.length ≤ stream.unread.length := by
  unfold readInt
  split
  next hfailed => exact .inr ⟨hfailed, rfl, Nat.le_refl _⟩
  next hfailed =>
    have hsign := length_splitSign_le (stream.unread.dropWhile isSpace)
    have hspace := (stream.unread.dropWhile_sublist isSpace).length_le
    have hsplit := congrArg List.length (List.takeWhile_append_dropWhile
      (p := isDigit) (l := (splitSign (stream.unread.dropWhile isSpace)).2))
    rw [List.length_append] at hsplit
    dsimp only
    split
    next => exact .inr ⟨rfl, rfl, by dsimp only; omega⟩
    next n hsome =>
      have hdigits := List.length_pos_iff.mpr (ne_nil_of_intOfDigits hsome)
      exact .inl ⟨rfl, Bool.eq_false_iff.mpr hfailed, by dsimp only; omega⟩

/-- Extracting a token consumes a character at least, or the stream fails. -/
theorem readToken_cases (stream : Istream) :
    (∃ token, stream.readToken.1 = some token ∧ stream.readToken.2.failed = false ∧
      stream.readToken.2.unread.length < stream.unread.length) ∨
    stream.readToken.1 = none ∧ stream.readToken.2.failed = true ∧
      stream.readToken.2.unread.length ≤ stream.unread.length := by
  unfold readToken
  split
  next hfailed => exact .inr ⟨rfl, hfailed, Nat.le_refl _⟩
  next =>
    have hspace := (stream.unread.dropWhile_sublist isSpace).length_le
    dsimp only
    split
    next => exact .inr ⟨rfl, rfl, Nat.zero_le _⟩
    next htext =>
      refine .inl ⟨_, rfl, rfl, ?_⟩
      -- the first character is no white space
      have hhead := List.head_dropWhile_not isSpace htext
      obtain ⟨c, rest, hcons⟩ := List.exists_cons_of_ne_nil htext
      simp only [hcons, List.head_cons] at hhead hspace ⊢
      rw [List.dropWhile_cons_of_pos (by simp [hhead])]
      have hrest := (rest.dropWhile_sublist (!isSpace ·)).length_le
      rw [List.length_cons] at hspace
      omega

end Istream

import PocoEcho.Library.Istream

/-!
# Words

White space separates the text of a stream into words, and extraction goes from word to word,
however they are laid out.

## Main definitions

* `Istream.words`: the words of a text;
* `Istream.Offers`: a stream from which words can be extracted.

## Main results

* `Istream.Offers.readToken` and `Istream.Offers.readInt`: the next word is extracted, and the
  others are left.
-/

open Decimal

namespace Istream

/-- The words of a text: what white space separates. -/
def words (text : List UInt8) : List (List UInt8) := (text.splitOnP isSpace).filter (· ≠ [])

/-- The number that a word denotes, all of it. -/
def intOfWord (word : List UInt8) : Option ℤ :=
  let (negative, digits) := splitSign word
  if digits.all isDigit then intOfDigits negative digits else none

/-- The stream has not failed, and these are the words of what has not been consumed. -/
structure Offers (stream : Istream) (ws : List (List UInt8)) : Prop where
  /-- No extraction has failed. -/
  not_failed : stream.failed = false
  /-- The words that are left. -/
  words_eq : words stream.unread = ws

@[simp] theorem words_nil : words [] = [] := by
  simp [words]

/-- White space in front of the words does not matter. -/
theorem words_cons_of_isSpace {c : UInt8} (h : isSpace c = true) (text : List UInt8) :
    words (c :: text) = words text := by
  simp [words, List.splitOnP_cons_eq_if_modifyHead, h]

@[simp] theorem words_dropWhile (text : List UInt8) :
    words (text.dropWhile isSpace) = words text := by
  induction text with
  | nil => rfl
  | cons c text ih =>
      cases hspace : isSpace c with
      | true => rw [List.dropWhile_cons_of_pos hspace, words_cons_of_isSpace hspace, ih]
      | false => rw [List.dropWhile_cons_of_neg (by simp [hspace])]

/-- What begins with a word is the word, and the other words. -/
theorem words_append {word rest : List UInt8} (hne : word ≠ [])
    (hword : ∀ c ∈ word, isSpace c = false) (hrest : ∀ c ∈ rest.head?, isSpace c = true) :
    words (word ++ rest) = word :: words rest := by
  cases rest with
  | nil => simp [words, List.splitOnP_eq_singleton hword, hne]
  | cons c rest =>
      have hspace : isSpace c = true := hrest c rfl
      rw [words_cons_of_isSpace hspace, words,
        List.splitOnP_append_cons_of_forall_mem hword c hspace,
        List.filter_cons_of_pos (by simp [hne]), words]

/-- A text that has words begins with white space and the first of them, which ends at white space
or with the text. -/
theorem exists_of_words_cons {text word : List UInt8} {ws : List (List UInt8)}
    (h : words text = word :: ws) :
    ∃ rest, text.dropWhile isSpace = word ++ rest ∧ word ≠ [] ∧
      (∀ c ∈ word, isSpace c = false) ∧ (∀ c ∈ rest.head?, isSpace c = true) ∧ words rest = ws := by
  rw [← words_dropWhile] at h
  have hne : text.dropWhile isSpace ≠ [] := by
    intro hnil
    rw [hnil, words_nil] at h
    cases h
  have hhead := List.head_dropWhile_not isSpace hne
  generalize text.dropWhile isSpace = rest at h hne hhead ⊢
  have hsplit := List.takeWhile_append_dropWhile (p := (!isSpace ·)) (l := rest)
  have hword : ∀ c ∈ rest.takeWhile (!isSpace ·), isSpace c = false := fun c hc => by
    simpa using List.mem_takeWhile_imp hc
  have hfirst : rest.takeWhile (!isSpace ·) ≠ [] := by
    obtain ⟨c, tail, rfl⟩ := List.exists_cons_of_ne_nil hne
    rw [List.head_cons] at hhead
    rw [List.takeWhile_cons_of_pos (by simp [hhead])]
    exact List.cons_ne_nil _ _
  have hlast : ∀ c ∈ (rest.dropWhile (!isSpace ·)).head?, isSpace c = true := by
    intro c hc
    have hstop := List.head?_dropWhile_not (!isSpace ·) rest
    rw [Option.mem_def.mp hc] at hstop
    simpa using hstop
  rw [← hsplit, words_append hfirst hword hlast] at h
  obtain ⟨hw, hws⟩ := List.cons.inj h
  exact ⟨_, by rw [← hw, hsplit], hw ▸ hfirst, hw ▸ hword, hlast, hws⟩

/-- What is taken and what is dropped of a text that begins with a word. -/
theorem takeWhile_append_of_head {p : UInt8 → Bool} {word rest : List UInt8}
    (hword : ∀ c ∈ word, p c = true) (hrest : ∀ c ∈ rest.head?, p c = false) :
    (word ++ rest).takeWhile p = word ∧ (word ++ rest).dropWhile p = rest := by
  rw [List.takeWhile_append_of_pos hword, List.dropWhile_append_of_pos hword]
  cases rest with
  | nil => exact ⟨List.append_nil word, rfl⟩
  | cons c rest =>
      have hstop : ¬ p c = true := by simp [hrest c rfl]
      rw [List.takeWhile_cons_of_neg hstop, List.dropWhile_cons_of_neg hstop, List.append_nil]
      exact ⟨rfl, rfl⟩

/-- The next word is extracted as a token. -/
theorem Offers.readToken {stream : Istream} {word : List UInt8} {ws : List (List UInt8)}
    (h : stream.Offers (word :: ws)) :
    stream.readToken.1 = some word ∧ stream.readToken.2.Offers ws := by
  obtain ⟨rest, hdrop, hne, hword, hrest, hws⟩ := exists_of_words_cons h.words_eq
  have hnil : word ++ rest ≠ [] := List.append_ne_nil_of_left_ne_nil hne rest
  have hall : ∀ c ∈ word, (!isSpace c) = true := fun c hc => by simp [hword c hc]
  have hstop : ∀ c ∈ rest.head?, (!isSpace c) = false := fun c hc => by simp [hrest c hc]
  obtain ⟨htake, hleft⟩ := takeWhile_append_of_head hall hstop
  have hread : stream.readToken = (some word, { unread := rest, failed := false }) := by
    simp only [Istream.readToken, h.not_failed, Bool.false_eq_true, if_false, hdrop, if_neg hnil,
      htake, hleft]
  rw [hread]
  exact ⟨rfl, rfl, hws⟩

/-- A sign is at the front of a word. -/
theorem splitSign_append {word : List UInt8} (hne : word ≠ []) (rest : List UInt8) :
    splitSign (word ++ rest) = ((splitSign word).1, (splitSign word).2 ++ rest) := by
  obtain ⟨c, tail, rfl⟩ := List.exists_cons_of_ne_nil hne
  by_cases hminus : c = 45
  · rw [hminus]
    rfl
  by_cases hplus : c = 43
  · rw [hplus]
    rfl
  have hnone (text : List UInt8) : splitSign (c :: text) = (false, c :: text) := by
    simp [splitSign, hminus, hplus]
  rw [List.cons_append, hnone, hnone, List.cons_append]

/-- The next word is extracted as the number that it denotes. -/
theorem Offers.readInt {stream : Istream} {word : List UInt8} {ws : List (List UInt8)} {n : ℤ}
    (h : stream.Offers (word :: ws)) (hword : intOfWord word = some n) :
    stream.readInt.1 = n ∧ stream.readInt.2.Offers ws := by
  obtain ⟨rest, hdrop, hne, -, hrest, hws⟩ := exists_of_words_cons h.words_eq
  simp only [intOfWord] at hword
  split at hword
  next hdigits =>
    -- white space is no digit
    have hstop : ∀ c ∈ rest.head?, isDigit c = false := by
      intro c hc
      by_contra hdigit
      have hspace := (not_isSpace_of_isDigit (Bool.of_not_eq_false hdigit)).1
      rw [hrest c hc] at hspace
      cases hspace
    obtain ⟨htake, hleft⟩ := takeWhile_append_of_head (List.all_eq_true.mp hdigits) hstop
    have hread : stream.readInt = (n, { unread := rest, failed := false }) := by
      simp only [Istream.readInt, h.not_failed, Bool.false_eq_true, if_false, hdrop,
        splitSign_append hne, htake, hleft, hword]
    rw [hread]
    exact ⟨rfl, rfl, hws⟩
  next => cases hword

end Istream

import Mathlib.Data.List.ReduceOption
import PocoEcho.Client.Runs
import PocoEcho.Server.CServer

/-!
# Echoes in a byte stream

How often a stream of echoes can be taken for a message. An iteration that displays a string in
memory without NUL has received a byte that begins a packet type, four bytes of length, the string
and a NUL. When each string displayed costs two more than its length, what the bytes behind an
offset of the stream can pay for is bounded (`budget`): the whole stream pays for its own messages
and for nothing else.

## Main results

* `budget_of_shown`: a string displayed from an offset uses up its cost;
* `eq_ofMessage_of_shown`: iterations that show all messages of a stream take one frame each.
-/

namespace PocoEcho

open Poco

/-- A message of the server that fits into its frame. -/
@[ext]
structure EchoedMessage where
  /-- The text. -/
  szMessage : CString
  /-- The frame of the text fits into the buffer. -/
  length_le : szMessage.chars.length ≤ 1015
  deriving DecidableEq

namespace EchoedMessage

/-- The number of characters. -/
def length (m : EchoedMessage) : ℕ := m.szMessage.chars.length

/-- The frame that `CMessageSendPacket::Write` produces. -/
def frame (m : EchoedMessage) : List UInt8 := CServer.reply m.szMessage

/-- The first byte of the length field. -/
def low (m : EchoedMessage) : UInt8 := UInt8.ofNat (m.length + 1)

/-- The second byte of the length field. -/
def high (m : EchoedMessage) : UInt8 := UInt8.ofNat ((m.length + 1) / 256)

/-- The frame, byte by byte. -/
theorem frame_eq (m : EchoedMessage) :
    m.frame = 0x11 :: 0 :: 0 :: 0 :: m.low :: m.high :: 0 :: 0 :: (m.szMessage.chars ++ [0]) := by
  have hle := m.length_le
  -- the upper half of the length is zero
  have h2 : (m.length + 1) / 256 ^ 2 = 0 := Nat.div_eq_of_lt (by simp only [length]; omega)
  have h3 : (m.length + 1) / 256 ^ 3 = 0 := Nat.div_eq_of_lt (by simp only [length]; omega)
  rw [frame, CServer.reply_of_length_le hle, messageFrame, CString.length_terminated, Word.ofNat,
    ← length, h2, h3]
  rfl

theorem length_frame (m : EchoedMessage) : m.frame.length = m.length + 9 := by
  simp [frame_eq, length]

end EchoedMessage

/-- The bytes that the server sends for the messages. -/
def stream (ms : List EchoedMessage) : List UInt8 := (ms.map EchoedMessage.frame).flatten

@[simp] theorem stream_nil : stream [] = [] := rfl

@[simp] theorem stream_cons (m : EchoedMessage) (ms : List EchoedMessage) :
    stream (m :: ms) = m.frame ++ stream ms := rfl

/-- What the messages cost. -/
def cost (ms : List EchoedMessage) : ℕ := (ms.map fun m => m.length + 2).sum

@[simp] theorem cost_nil : cost [] = 0 := rfl

@[simp] theorem cost_cons (m : EchoedMessage) (ms : List EchoedMessage) :
    cost (m :: ms) = m.length + 2 + cost ms := rfl

/-- What the bytes of a frame behind its first `k` can pay for. The type pays one, the length
one, and so do the characters; from behind the length on, one less when there are several, so that
a length of two bytes cannot be displayed at the expense of the text. -/
def frameBudget (n k : ℕ) : ℕ :=
  if k = 0 then n + 2 else if k ≤ 4 then n + 1 else min (max (n - 1) 1) (n + 8 - k)

theorem frameBudget_of_le {n k : ℕ} (hpos : 0 < k) (h : k ≤ 4) : frameBudget n k = n + 1 := by
  rw [frameBudget, if_neg (by omega), if_pos h]

theorem frameBudget_of_gt {n k : ℕ} (h : 4 < k) :
    frameBudget n k = min (max (n - 1) 1) (n + 8 - k) := by
  rw [frameBudget, if_neg (by omega), if_neg (by omega)]

/-- What the bytes of a stream behind its first `k` can pay for. -/
def budget : List EchoedMessage → ℕ → ℕ
  | [], _ => 0
  | m :: ms, k =>
      if k < m.length + 9 then frameBudget m.length k + cost ms else budget ms (k - (m.length + 9))

theorem budget_of_lt {m : EchoedMessage} {ms : List EchoedMessage} {k : ℕ}
    (h : k < m.length + 9) : budget (m :: ms) k = frameBudget m.length k + cost ms := by
  rw [budget, if_pos h]

theorem budget_of_ge {m : EchoedMessage} {ms : List EchoedMessage} {k : ℕ}
    (h : m.length + 9 ≤ k) : budget (m :: ms) k = budget ms (k - (m.length + 9)) := by
  rw [budget, if_neg (by omega)]

/-- The whole stream pays for the messages. -/
theorem budget_zero (ms : List EchoedMessage) : budget ms 0 = cost ms := by
  cases ms with
  | nil => rfl
  | cons m ms => rw [budget_of_lt (by omega), frameBudget, if_pos rfl, cost_cons]

/-- No part of the stream pays for more. -/
theorem budget_le_cost (ms : List EchoedMessage) (k : ℕ) : budget ms k ≤ cost ms := by
  induction ms generalizing k with
  | nil => exact Nat.le_refl _
  | cons m ms ih =>
      rcases Nat.lt_or_ge k (m.length + 9) with h | h
      · rw [budget_of_lt h, cost_cons, frameBudget]
        split_ifs <;> omega
      · rw [budget_of_ge h, cost_cons]
        have := ih (k - (m.length + 9))
        omega

/-- Behind its first byte, the stream no longer pays for all messages. -/
theorem budget_lt_cost {ms : List EchoedMessage} {k : ℕ} (hms : ms ≠ []) (hk : 0 < k) :
    budget ms k < cost ms := by
  obtain ⟨m, ms, rfl⟩ := List.exists_cons_of_ne_nil hms
  rcases Nat.lt_or_ge k (m.length + 9) with h | h
  · rw [budget_of_lt h, cost_cons, frameBudget]
    split_ifs <;> omega
  · rw [budget_of_ge h, cost_cons]
    have := budget_le_cost ms (k - (m.length + 9))
    omega

/-- Fewer bytes pay for less. -/
theorem budget_anti (ms : List EchoedMessage) {k k' : ℕ} (h : k ≤ k') :
    budget ms k' ≤ budget ms k := by
  induction ms generalizing k k' with
  | nil => exact Nat.le_refl _
  | cons m ms ih =>
      rcases Nat.lt_or_ge k (m.length + 9) with hk | hk
      · rw [budget_of_lt hk]
        rcases Nat.lt_or_ge k' (m.length + 9) with hk' | hk'
        · rw [budget_of_lt hk', frameBudget, frameBudget]
          split_ifs <;> omega
        · rw [budget_of_ge hk']
          exact (budget_le_cost ms _).trans (Nat.le_add_left _ _)
      · rw [budget_of_ge hk, budget_of_ge (hk.trans h)]
        exact ih (by omega)

/-! ## Where a string can be displayed from -/

/-- A string is what stands in front of the first NUL. -/
theorem chars_eq {s : CString} {c xs rest : List UInt8} (hc : 0 ∉ c)
    (h : c ++ 0 :: xs = s.chars ++ 0 :: rest) : s.chars = c := by
  have hpre := congrArg CString.ofPrefix h
  rw [CString.ofPrefix_append ⟨c, hc⟩, CString.ofPrefix_append] at hpre
  rw [← hpre]

/-- In front of a NUL at the start there is nothing. -/
theorem chars_eq_nil {s : CString} {xs rest : List UInt8}
    (h : 0 :: xs = s.chars ++ 0 :: rest) : s.chars = [] :=
  chars_eq (c := []) List.not_mem_nil h

/-- In front of a NUL in the second place there is the first byte. -/
theorem chars_eq_singleton {s : CString} {x : UInt8} {xs rest : List UInt8} (hx : x ≠ 0)
    (h : x :: 0 :: xs = s.chars ++ 0 :: rest) : s.chars = [x] :=
  chars_eq (c := [x]) (fun hmem => hx (List.mem_singleton.mp hmem).symm) h

/-- The stream from its first frame on, byte by byte. -/
theorem stream_cons_eq (m : EchoedMessage) (ms : List EchoedMessage) :
    stream (m :: ms) = 0x11 :: 0 :: 0 :: 0 :: m.low :: m.high :: 0 :: 0 ::
      (m.szMessage.chars ++ 0 :: stream ms) := by
  rw [stream_cons, m.frame_eq]
  simp only [List.cons_append, List.append_assoc, List.nil_append]

/-- The length field has a second byte only when the text is long. -/
theorem EchoedMessage.le_length_of_high {m : EchoedMessage} (h : m.high ≠ 0) :
    255 ≤ m.length := by
  by_contra hlt
  have hzero : (m.length + 1) / 256 = 0 := Nat.div_eq_of_lt (by omega)
  exact h (by rw [high, hzero]; rfl)

/-- A string that begins at the second byte of a length consists of this byte, and the text is
long. -/
theorem EchoedMessage.chars_eq_high {m : EchoedMessage} {s : CString} (hs : s.chars ≠ [])
    {xs rest : List UInt8} (h : m.high :: 0 :: xs = s.chars ++ 0 :: rest) :
    s.chars = [m.high] ∧ 255 ≤ m.length := by
  by_cases hhigh : m.high = 0
  · rw [hhigh] at h
    exact absurd (chars_eq_nil h) hs
  · exact ⟨chars_eq_singleton hhigh h, m.le_length_of_high hhigh⟩

/-- A string that is displayed from the start of a frame is its text, or the second byte of its
length. -/
theorem budget_of_type {m : EchoedMessage} {ms : List EchoedMessage} {j : ℕ} (hj : j ≤ 3)
    {s : CString} {rest : List UInt8} (hs : s.chars ≠ [])
    (h : (stream (m :: ms)).drop (j + 5) = s.chars ++ 0 :: rest) :
    budget (m :: ms) (j + 5 + s.chars.length + 1) + (s.chars.length + 2) ≤ cost (m :: ms) := by
  rw [stream_cons_eq] at h
  obtain rfl | rfl | rfl | rfl : j = 0 ∨ j = 1 ∨ j = 2 ∨ j = 3 := by omega
  -- the string begins at the second byte of the length, at one of its NUL bytes, or at the text
  · obtain ⟨hchars, hlong⟩ := EchoedMessage.chars_eq_high hs h
    rw [hchars, List.length_singleton, budget_of_lt (by omega), cost_cons,
      frameBudget_of_gt (by omega)]
    omega
  · exact absurd (chars_eq_nil h) hs
  · exact absurd (chars_eq_nil h) hs
  · have hchars := chars_eq m.szMessage.nul_notMem h
    rw [hchars, ← EchoedMessage.length, budget_of_ge (by omega), cost_cons]
    have := budget_le_cost ms (3 + 5 + m.length + 1 - (m.length + 9))
    omega

/-- A string that is displayed from the length field on is the end of the text. -/
theorem budget_of_length {m : EchoedMessage} {ms : List EchoedMessage} {j : ℕ} (hj : j ≤ 3)
    (hlong : 15 ≤ m.length) {s : CString} {rest : List UInt8}
    (h : (stream (m :: ms)).drop (4 + (j + 5)) = s.chars ++ 0 :: rest) :
    budget (m :: ms) (4 + (j + 5 + s.chars.length + 1)) + (s.chars.length + 2) ≤
      budget (m :: ms) 4 := by
  -- the type and the length are skipped, and `j + 1` characters of the text
  have htext : m.szMessage.chars.drop (j + 1) ++ 0 :: stream ms = s.chars ++ 0 :: rest := by
    have hle : j + 1 ≤ m.szMessage.chars.length := by
      simp only [EchoedMessage.length] at hlong
      omega
    rw [← h, stream_cons_eq, ← List.drop_append_of_le_length hle,
      show 4 + (j + 5) = (j + 1) + 8 from by omega]
    rfl
  have hchars : s.chars = m.szMessage.chars.drop (j + 1) :=
    chars_eq (fun hmem => m.szMessage.nul_notMem (List.mem_of_mem_drop hmem)) htext
  have hlen : s.chars.length = m.length - (j + 1) := by
    rw [hchars, List.length_drop, EchoedMessage.length]
  rw [hlen, budget_of_ge (by omega), budget_of_lt (by omega),
    frameBudget_of_le (by omega) (by omega)]
  have := budget_le_cost ms (4 + (j + 5 + (m.length - (j + 1)) + 1) - (m.length + 9))
  omega

/-- A string that is displayed across the start of a frame is its type byte, its length or the
second byte of the length. It costs a little more than the frame loses. -/
theorem budget_of_next {ms : List EchoedMessage} (hms : ∀ m ∈ ms, 0 < m.length) {d : ℕ}
    (hd : d ≤ 6) {s : CString} {rest : List UInt8} (hs : s.chars ≠ [])
    (h : (stream ms).drop d = s.chars ++ 0 :: rest) :
    budget ms (d + s.chars.length + 1) + (s.chars.length + 2) ≤
      cost ms + (2 - min d 1) := by
  cases ms with
  | nil => simp at h
  | cons m ms =>
      have hpos := hms m List.mem_cons_self
      rw [stream_cons_eq] at h
      obtain rfl | rfl | rfl | rfl | rfl | rfl | rfl :
        d = 0 ∨ d = 1 ∨ d = 2 ∨ d = 3 ∨ d = 4 ∨ d = 5 ∨ d = 6 := by omega
      · -- the type byte
        have hchars := chars_eq_singleton (by decide) h
        rw [hchars, List.length_singleton, budget_of_lt (by omega), cost_cons,
          frameBudget_of_le (by omega) (by omega)]
        omega
      · exact absurd (chars_eq_nil h) hs
      · exact absurd (chars_eq_nil h) hs
      · exact absurd (chars_eq_nil h) hs
      · -- the length
        by_cases hlow : m.low = 0
        · exact absurd (chars_eq_nil (by simpa [hlow] using h)) hs
        by_cases hhigh : m.high = 0
        · rw [hhigh] at h
          have hchars := chars_eq_singleton hlow h
          rw [hchars, List.length_singleton, budget_of_lt (by omega), cost_cons,
            frameBudget_of_gt (by omega)]
          omega
        · have hchars := chars_eq
            (c := [m.low, m.high]) (by simp [Ne.symm hlow, Ne.symm hhigh]) h
          have hlong := EchoedMessage.le_length_of_high hhigh
          rw [hchars, List.length_cons, List.length_singleton, budget_of_lt (by omega), cost_cons,
            frameBudget_of_gt (by omega)]
          omega
      · -- the second byte of the length
        obtain ⟨hchars, hlong⟩ := EchoedMessage.chars_eq_high hs h
        rw [hchars, List.length_singleton, budget_of_lt (by omega), cost_cons,
          frameBudget_of_gt (by omega)]
        omega
      · exact absurd (chars_eq_nil h) hs

/-- The stream from a place in the text of its first frame on. -/
theorem drop_stream_cons (m : EchoedMessage) (ms : List EchoedMessage) {i : ℕ}
    (h : i ≤ m.length) :
    (stream (m :: ms)).drop (i + 8) = m.szMessage.chars.drop i ++ 0 :: stream ms := by
  rw [← List.drop_append_of_le_length h, stream_cons_eq]
  rfl

/-- A string that is displayed from a place in the text on is the end of the text, or lies in the
next frame. -/
theorem budget_of_text {m : EchoedMessage} {ms : List EchoedMessage}
    (hms : ∀ m ∈ ms, 0 < m.length) {i j : ℕ} (hj : j ≤ 3) (hi : i < m.length) {s : CString}
    {rest : List UInt8} (hs : s.chars ≠ [])
    (h : (stream (m :: ms)).drop (i + 8 + (j + 5)) = s.chars ++ 0 :: rest) :
    budget (m :: ms) (i + 8 + (j + 5 + s.chars.length + 1)) + (s.chars.length + 2) ≤
      budget (m :: ms) (i + 8) := by
  have hbudget : budget (m :: ms) (i + 8) =
      min (max (m.length - 1) 1) (m.length - i) + cost ms := by
    rw [budget_of_lt (by omega), frameBudget_of_gt (by omega),
      show m.length + 8 - (i + 8) = m.length - i from by omega]
  rw [hbudget]
  -- the four bytes of the length reach beyond the text, or they do not
  rcases Nat.lt_or_ge m.length (i + (j + 5)) with hshort | hlong
  · obtain ⟨d, hd⟩ : ∃ d, i + (j + 5) = m.length + 1 + d := ⟨i + (j + 5) - (m.length + 1), by omega⟩
    have hdrop : (stream (m :: ms)).drop (i + 8 + (j + 5)) = (stream ms).drop d := by
      rw [show i + 8 + (j + 5) = (m.length + 8) + (d + 1) from by omega, ← List.drop_drop,
        drop_stream_cons m ms (Nat.le_refl _), EchoedMessage.length, List.drop_length]
      rfl
    have hnext := budget_of_next hms (by omega) hs (hdrop ▸ h)
    rw [budget_of_ge (by omega), show i + 8 + (j + 5 + s.chars.length + 1) - (m.length + 9) =
      d + s.chars.length + 1 from by omega]
    omega
  · have htext : m.szMessage.chars.drop (i + (j + 5)) ++ 0 :: stream ms = s.chars ++ 0 :: rest := by
      rw [← h, ← drop_stream_cons m ms hlong, Nat.add_right_comm]
    have hchars : s.chars = m.szMessage.chars.drop (i + (j + 5)) :=
      chars_eq (fun hmem => m.szMessage.nul_notMem (List.mem_of_mem_drop hmem)) htext
    have hlen : s.chars.length = m.length - (i + (j + 5)) := by
      rw [hchars, List.length_drop, EchoedMessage.length]
    rw [hlen, budget_of_ge (by omega)]
    have := budget_le_cost ms
      (i + 8 + (j + 5 + (m.length - (i + (j + 5))) + 1) - (m.length + 9))
    omega

/-- A byte with which the type of a packet begins that is displayed. -/
def IsTypeByte (x : UInt8) : Prop := x = 0x10 ∨ x = 0x11

theorem IsTypeByte.toNat {x : UInt8} (h : IsTypeByte x) : x.toNat = 16 ∨ x.toNat = 17 := by
  rcases h with rfl | rfl
  · exact .inl rfl
  · exact .inr rfl

theorem IsTypeByte.ne_zero {x : UInt8} (h : IsTypeByte x) : x ≠ 0 := by
  rcases h with rfl | rfl <;> decide

/-- The length field begins with such a byte only when the text is long enough to hold the bytes
behind it. -/
theorem EchoedMessage.le_length_of_low {m : EchoedMessage} (h : IsTypeByte m.low) :
    15 ≤ m.length := by
  have hle : m.length ≤ 1015 := m.length_le
  have hnat := h.toNat
  rw [low, UInt8.toNat_ofNat'] at hnat
  omega

/-- The second byte of the length is smaller. -/
theorem EchoedMessage.not_isTypeByte_high (m : EchoedMessage) : ¬ IsTypeByte m.high := by
  have hle : m.length ≤ 1015 := m.length_le
  intro h
  -- the second byte is at most 3
  have hnat := h.toNat
  rw [high, UInt8.toNat_ofNat'] at hnat
  omega

/-- A string that is displayed from a place in the first frame uses up its cost. -/
theorem budget_of_frame {m : EchoedMessage} {ms : List EchoedMessage}
    (hms : ∀ m ∈ ms, 0 < m.length) {k j : ℕ} (hk : k < m.length + 9) (hj : j ≤ 3) {x : UInt8}
    (hx : IsTypeByte x) (hhead : (stream (m :: ms))[k]? = some x) {s : CString}
    {rest : List UInt8} (hs : s.chars ≠ [])
    (h : (stream (m :: ms)).drop (k + (j + 5)) = s.chars ++ 0 :: rest) :
    budget (m :: ms) (k + (j + 5 + s.chars.length + 1)) + (s.chars.length + 2) ≤
      budget (m :: ms) k := by
  have hnul : (stream (m :: ms))[k]? ≠ some 0 := by
    rw [hhead]
    exact fun heq => hx.ne_zero (Option.some.inj heq)
  rcases Nat.lt_or_ge k 8 with hfield | htext
  · -- in the first two fields, only the type and the length hold other bytes than NUL
    have hget : ∀ n, n < 8 → (stream (m :: ms))[n]? =
        [0x11, 0, 0, 0, m.low, m.high, 0, 0][n]? := by
      intro n hn
      rw [stream_cons_eq]
      show ([0x11, 0, 0, 0, m.low, m.high, 0, 0] ++ (m.szMessage.chars ++ 0 :: stream ms))[n]? = _
      exact List.getElem?_append_left hn
    rw [hget k hfield] at hhead hnul
    obtain rfl | rfl | rfl | rfl | rfl | rfl | rfl | rfl :
      k = 0 ∨ k = 1 ∨ k = 2 ∨ k = 3 ∨ k = 4 ∨ k = 5 ∨ k = 6 ∨ k = 7 := by omega
    · rw [Nat.zero_add] at h ⊢
      rw [budget_zero]
      exact budget_of_type hj hs h
    · exact absurd rfl hnul
    · exact absurd rfl hnul
    · exact absurd rfl hnul
    · obtain rfl := Option.some.inj hhead
      exact budget_of_length hj (EchoedMessage.le_length_of_low hx) h
    · obtain rfl := Option.some.inj hhead
      exact absurd hx m.not_isTypeByte_high
    · exact absurd rfl hnul
    · exact absurd rfl hnul
  · obtain ⟨i, rfl⟩ : ∃ i, k = i + 8 := ⟨k - 8, by omega⟩
    have hi : i < m.length := by
      by_contra hge
      obtain rfl : i = m.length := by omega
      apply hnul
      have hdrop := drop_stream_cons m ms (Nat.le_refl m.length)
      rw [EchoedMessage.length, List.drop_length, List.nil_append] at hdrop
      rw [← List.head?_drop, EchoedMessage.length, hdrop]
      rfl
    exact budget_of_text hms hj hi hs h

/-- A string that is displayed uses up its cost. -/
theorem budget_of_shown {ms : List EchoedMessage} (hms : ∀ m ∈ ms, 0 < m.length) {k j : ℕ}
    (hj : j ≤ 3) {x : UInt8} (hx : IsTypeByte x) (hhead : (stream ms)[k]? = some x) {s : CString}
    {rest : List UInt8} (hs : s.chars ≠ [])
    (h : (stream ms).drop (k + (j + 5)) = s.chars ++ 0 :: rest) :
    budget ms (k + (j + 5 + s.chars.length + 1)) + (s.chars.length + 2) ≤ budget ms k := by
  induction ms generalizing k with
  | nil => simp at hhead
  | cons m ms ih =>
      have htail : ∀ m ∈ ms, 0 < m.length := fun m' hm' => hms m' (List.mem_cons_of_mem _ hm')
      -- the string begins in the first frame, or somewhere behind it
      rcases Nat.lt_or_ge k (m.length + 9) with hk | hk
      · exact budget_of_frame htail hk hj hx hhead hs h
      · obtain ⟨k, rfl⟩ : ∃ k', k = (m.length + 9) + k' := ⟨k - (m.length + 9), by omega⟩
        rw [stream_cons, ← m.length_frame] at hhead h
        rw [List.getElem?_append_right (Nat.le_add_right _ _), Nat.add_sub_cancel_left] at hhead
        rw [Nat.add_assoc, List.drop_append, List.drop_eq_nil_of_le (Nat.le_add_right _ _),
          Nat.add_sub_cancel_left, List.nil_append] at h
        have hshown := ih htail hhead h
        rw [budget_of_ge (by omega), budget_of_ge (by omega), Nat.add_sub_cancel_left,
          Nat.add_assoc, Nat.add_sub_cancel_left]
        exact hshown

/-! ## Iterations that show the messages of a stream -/

/-- The type of a frame is no empty read. -/
theorem messageType_ne : PacketType.message.word.bytes ≠ [] := by decide

/-- The type of a frame is a full read. -/
theorem length_messageType_le : PacketType.message.word.bytes.length ≤ 4 := by decide

/-- The rest of a frame fits into the buffer. -/
theorem EchoedMessage.rest_fits (m : EchoedMessage) :
    ∀ data ∈ some (m.frame.drop 4), data ≠ [] ∧ data.length ≤ maxBufferLength := by
  have hle : m.length ≤ 1015 := m.length_le
  intro data hdata
  obtain rfl := Option.some.inj hdata
  have hlen : (m.frame.drop 4).length = m.length + 5 := by
    rw [List.length_drop, m.length_frame]
    omega
  refine ⟨List.ne_nil_of_length_pos (by omega), ?_⟩
  rw [hlen, maxBufferLength]
  omega

namespace Iteration

/-- The iteration that takes the frame of a message. -/
def ofMessage (m : EchoedMessage) : Iteration :=
  { packetType := PacketType.message.word.bytes
    payload := some (m.frame.drop 4)
    packetType_ne := messageType_ne
    length_packetType_le := length_messageType_le
    payload_fits := m.rest_fits }

/-- It takes the whole frame. -/
theorem bytes_ofMessage (m : EchoedMessage) : (ofMessage m).bytes = m.frame := by
  rw [m.frame_eq]
  simp only [bytes, payloadBytes, ofMessage, m.frame_eq]
  rfl

theorem bytes_ne (it : Iteration) : it.bytes ≠ [] :=
  List.append_ne_nil_of_left_ne_nil it.packetType_ne _

/-- An iteration that takes a frame, its type with the first call, is the one above. -/
theorem eq_ofMessage {it : Iteration} {m : EchoedMessage} (hlen : it.packetType.length = 4)
    (h : it.bytes = m.frame) : it = ofMessage m := by
  rw [← bytes_ofMessage, bytes, bytes] at h
  obtain ⟨htype, hpayload⟩ := List.append_inj h (by rw [hlen]; rfl)
  ext1
  · exact htype
  · change it.payload.getD [] = m.frame.drop 4 at hpayload
    -- the rest of a frame is not empty, so something has arrived for it
    cases hnone : it.payload with
    | none =>
        have hlong := m.length_frame
        have hshort := congrArg List.length hpayload
        rw [hnone, List.length_drop] at hshort
        change 0 = _ at hshort
        omega
    | some data =>
        rw [hnone] at hpayload
        exact congrArg some hpayload

/-- What an iteration that displays `s` in memory without NUL has received: something that begins
like a type, a length, and the string with its NUL. -/
def Carries (it : Iteration) (s : CString) : Prop :=
  (∃ x ∈ it.packetType.head?, IsTypeByte x) ∧
    ∃ rest, it.payloadBytes.drop 4 = s.chars ++ 0 :: rest

/-- The string that an iteration displays, if any, was received, unless it is longer than any that
was sent. -/
def Shows (it : Iteration) (shown : Option CString) : Prop :=
  ∀ s ∈ shown, s.chars.length ≤ 1015 → it.Carries s

/-- What an iteration carries, in terms of the bytes that it takes. -/
theorem Carries.drop_bytes {it : Iteration} {s : CString} (h : it.Carries s) :
    ∃ x j rest, IsTypeByte x ∧ it.bytes.head? = some x ∧ it.packetType.length = j + 1 ∧ j ≤ 3 ∧
      it.bytes.drop (j + 5) = s.chars ++ 0 :: rest ∧
        j + 5 + (s.chars.length + 1) ≤ it.bytes.length := by
  obtain ⟨⟨x, hhead, hx⟩, rest, hrest⟩ := h
  obtain ⟨zs, hzs⟩ := List.head?_eq_some_iff.mp hhead
  have hle := it.length_packetType_le
  rw [hzs, List.length_cons] at hle
  have hdrop : it.bytes.drop (zs.length + 5) = s.chars ++ 0 :: rest := by
    rw [bytes, show zs.length + 5 = it.packetType.length + 4 by rw [hzs]; rfl, ← List.drop_drop,
      List.drop_left' rfl, hrest]
  refine ⟨x, zs.length, rest, hx, ?_, by rw [hzs, List.length_cons], by omega, hdrop, ?_⟩
  · rw [bytes, hzs]
    rfl
  · have hlength := congrArg List.length hdrop
    simp only [List.length_drop, List.length_append, List.length_cons] at hlength
    omega

end Iteration

/-- The messages that are shown from a place in the stream on cost no more than the stream can pay
from there on. -/
theorem cost_le_budget {ms : List EchoedMessage} (hms : ∀ m ∈ ms, 0 < m.length)
    {its : List Iteration} {shown : List (Option CString)}
    (h : List.Forall₂ Iteration.Shows its shown) {messages : List EchoedMessage}
    (hmessages : ∀ m ∈ messages, 0 < m.length)
    (hshown : shown.reduceOption = messages.map EchoedMessage.szMessage) {k : ℕ}
    (hk : (stream ms).drop k = (its.map Iteration.bytes).flatten) :
    cost messages ≤ budget ms k := by
  induction h generalizing k messages with
  | nil =>
      obtain rfl : messages = [] := List.map_eq_nil_iff.mp hshown.symm
      exact Nat.zero_le _
  | @cons it d its shown hit _ ih =>
      rw [List.map_cons, List.flatten_cons] at hk
      have hrest : (stream ms).drop (k + it.bytes.length) = (its.map Iteration.bytes).flatten := by
        rw [← List.drop_drop, hk, List.drop_left' rfl]
      cases d with
      | none =>
          rw [List.reduceOption_cons_of_none] at hshown
          -- nothing is displayed: the rest of the stream pays for less
          exact (ih hmessages hshown hrest).trans (budget_anti ms (Nat.le_add_right _ _))
      | some s =>
          rw [List.reduceOption_cons_of_some] at hshown
          obtain ⟨m, messages, rfl, rfl, htail⟩ := List.map_eq_cons_iff.mp hshown.symm
          have hpos := hmessages m List.mem_cons_self
          obtain ⟨x, j, rest, hx, hhead, hlen, hj, hdrop, hlong⟩ :=
            (hit _ rfl m.length_le).drop_bytes
          have hnext := ih (fun m' hm' => hmessages m' (List.mem_cons_of_mem _ hm')) htail.symm
            hrest
          rw [← EchoedMessage.length] at hlong
          -- the iteration starts at `k` and displays the string from its bytes
          have hget : (stream ms)[k]? = some x := by
            rw [← List.head?_drop, hk, List.head?_append_of_ne_nil _ it.bytes_ne, hhead]
          have hstring : (stream ms).drop (k + (j + 5)) =
              m.szMessage.chars ++ 0 :: (rest ++ (its.map Iteration.bytes).flatten) := by
            rw [← List.drop_drop, hk, List.drop_append_of_le_length (by omega), hdrop,
              List.append_assoc]
            rfl
          have hpaid := budget_of_shown hms hj hx hget (List.ne_nil_of_length_pos hpos) hstring
          have hanti := budget_anti ms (Nat.add_le_add_left hlong k)
          rw [← EchoedMessage.length, Nat.add_assoc (j + 5)] at hpaid
          rw [cost_cons]
          omega

/-- The first string of the stream is its first text only when it is looked for behind the first two
fields. -/
theorem eq_of_drop_stream {m : EchoedMessage} {ms : List EchoedMessage} {j : ℕ} (hj : j ≤ 3)
    (hpos : 0 < m.length) {rest : List UInt8}
    (h : (stream (m :: ms)).drop (j + 5) = m.szMessage.chars ++ 0 :: rest) : j = 3 := by
  have hne : m.szMessage.chars ≠ [] := List.ne_nil_of_length_pos hpos
  rw [stream_cons_eq] at h
  obtain rfl | rfl | rfl | rfl : j = 0 ∨ j = 1 ∨ j = 2 ∨ j = 3 := by omega
  · obtain ⟨hchars, hlong⟩ := EchoedMessage.chars_eq_high hne h
    rw [EchoedMessage.length, hchars, List.length_singleton] at hlong
    omega
  · exact absurd (chars_eq_nil h) hne
  · exact absurd (chars_eq_nil h) hne
  · rfl

/-- Iterations that show all messages of a stream take one frame each. -/
theorem eq_ofMessage_of_shown {its : List Iteration} {shown : List (Option CString)}
    (h : List.Forall₂ Iteration.Shows its shown) {ms : List EchoedMessage}
    (hms : ∀ m ∈ ms, 0 < m.length)
    (hshown : shown.reduceOption = ms.map EchoedMessage.szMessage)
    (hstream : stream ms = (its.map Iteration.bytes).flatten) :
    its = ms.map Iteration.ofMessage := by
  induction h generalizing ms with
  | nil =>
      obtain rfl : ms = [] := List.map_eq_nil_iff.mp hshown.symm
      rfl
  | @cons it d its shown hit hits ih =>
      rw [List.map_cons, List.flatten_cons] at hstream
      cases ms with
      -- an iteration takes at least one byte of the stream
      | nil => exact absurd (List.append_eq_nil_iff.mp hstream.symm).1 it.bytes_ne
      | cons m ms =>
          have htail : ∀ m ∈ ms, 0 < m.length := fun m' hm' => hms m' (List.mem_cons_of_mem _ hm')
          have hpos := hms m List.mem_cons_self
          cases d with
          | none =>
              -- what is behind the iteration no longer pays for all messages
              rw [List.reduceOption_cons_of_none] at hshown
              have hpaid := cost_le_budget hms hits hms hshown (k := it.bytes.length)
                (by rw [hstream, List.drop_left' rfl])
              have hless := budget_lt_cost (List.cons_ne_nil m ms)
                (List.length_pos_iff.mpr it.bytes_ne)
              omega
          | some s =>
              rw [List.reduceOption_cons_of_some, List.map_cons, List.cons.injEq] at hshown
              obtain ⟨rfl, hshown⟩ := hshown
              obtain ⟨x, j, rest, -, -, hlen, hj, hdrop, hlong⟩ :=
                (hit _ rfl m.length_le).drop_bytes
              rw [← EchoedMessage.length] at hlong
              have hstring : (stream (m :: ms)).drop (j + 5) =
                  m.szMessage.chars ++ 0 :: (rest ++ (its.map Iteration.bytes).flatten) := by
                rw [hstream, List.drop_append_of_le_length (by omega), hdrop, List.append_assoc]
                rfl
              obtain rfl : j = 3 := eq_of_drop_stream hj hpos hstring
              -- the iteration takes the whole frame, and nothing behind it
              have hframe : m.frame <+: stream (m :: ms) := List.prefix_append _ _
              have hbytes : it.bytes <+: stream (m :: ms) := hstream ▸ List.prefix_append _ _
              obtain ⟨extra, hextra⟩ := List.prefix_of_prefix_length_le hframe hbytes
                (by rw [m.length_frame]; omega)
              have hrest : stream ms = extra ++ (its.map Iteration.bytes).flatten := by
                rw [stream_cons, ← hextra, List.append_assoc] at hstream
                exact List.append_cancel_left hstream
              have hnone : extra = [] := by
                by_contra hne
                have hpaid := cost_le_budget htail hits htail hshown (k := extra.length)
                  (by rw [hrest, List.drop_left' rfl])
                have hms' : ms ≠ [] := by
                  rintro rfl
                  exact hne (List.append_eq_nil_iff.mp hrest.symm).1
                have hless := budget_lt_cost hms' (List.length_pos_iff.mpr hne)
                omega
              rw [hnone, List.append_nil] at hextra
              rw [List.map_cons, Iteration.eq_ofMessage hlen hextra.symm,
                ih htail hshown (by rw [hrest, hnone, List.nil_append])]

end PocoEcho

import PocoEcho.Network.Environment
import PocoEcho.Network.Packets

/-!
# The body of a MESSAGE

Server and client read what follows the packet type in the same way: a length into an uninitialised
`int`, then as many bytes into a fresh array of this length. Neither looks at the number of bytes
that a `read` returns.

## Main results

* `decode_of_neg` and `decode_of_nonneg`: the two outcomes of decoding;
* `decode_of_word` and `decode_of_append`: a length and as many bytes are decoded to these bytes;
* `decode_of_encodes`: a body that keeps to the grammar is decoded to its payload;
* `cString_messageArray`: a NUL among the bytes received ends the string, whatever memory holds.
-/

namespace PocoEcho

open Poco

namespace MessageBody

/-- Read a length and a message array off the buffer. -/
def decode (stray : Stray) (buffer : FIFOBuffer) : Except Fault (CharArray × FIFOBuffer) :=
  let (iLength, buffer) := readWord stray.word buffer
  -- a negative `int` is passed to `new char[]` unchecked
  match stray.newArray iLength.toInt with
  | .error fault => .error fault
  | .ok array =>
      -- however few bytes this returns, the array is used as a whole
      let (bytes, buffer) := buffer.read iLength.toInt.toNat
      .ok (array.fill bytes, buffer)

/-- The declared length that `decode` works with. -/
def declaredLength (stray : Stray) (buffer : FIFOBuffer) : ℤ :=
  (readWord stray.word buffer).1.toInt

/-- The payload bytes that are really there: at most as many as declared. -/
def receivedPayload (stray : Stray) (buffer : FIFOBuffer) : List UInt8 :=
  (buffer.content.drop 4).take (declaredLength stray buffer).toNat

/-- The message array: the payload received, then what the fresh memory held. -/
def messageArray (stray : Stray) (buffer : FIFOBuffer) : CharArray :=
  { data := receivedPayload stray buffer ++
      ((List.range (declaredLength stray buffer).toNat).map stray.fresh).drop
        (receivedPayload stray buffer).length
    behind := stray.behind }

/-- The message array in memory that is filled with one character. -/
theorem data_messageArray_filled (c : UInt8) (behind : List UInt8) (buffer : FIFOBuffer) :
    (messageArray (.filled c behind) buffer).data =
      receivedPayload (.filled c behind) buffer ++
        List.replicate ((declaredLength (.filled c behind) buffer).toNat -
          (receivedPayload (.filled c behind) buffer).length) c := by
  simp only [messageArray, Stray.filled, List.map_const', List.length_range, List.drop_replicate]

/-- The memory from the start of this array on. -/
theorem memory_messageArray_filled (c : UInt8) (behind : List UInt8) (buffer : FIFOBuffer) :
    (messageArray (.filled c behind) buffer).memory =
      receivedPayload (.filled c behind) buffer ++
        (List.replicate ((declaredLength (.filled c behind) buffer).toNat -
          (receivedPayload (.filled c behind) buffer).length) c ++ behind) := by
  rw [CharArray.memory, data_messageArray_filled, List.append_assoc]
  rfl

/-- A negative declared length leaves `Read` by an exception that it does not catch. -/
theorem decode_of_neg {stray : Stray} {buffer : FIFOBuffer} (h : declaredLength stray buffer < 0) :
    decode stray buffer = .error .badArrayNewLength := by
  have harray := stray.newArray_of_neg h
  simp only [declaredLength] at harray
  simp only [decode, harray]

/-- Any other declared length is taken at face value. -/
theorem decode_of_nonneg {stray : Stray} {buffer : FIFOBuffer}
    (h : 0 ≤ declaredLength stray buffer) :
    ∃ rest, decode stray buffer = .ok (messageArray stray buffer, rest) := by
  have harray := stray.newArray_of_nonneg h
  simp only [declaredLength] at harray
  simp only [decode, harray]
  exact ⟨_, rfl⟩

/-- Decoding never throws a `Poco::Exception`. -/
theorem decode_ne_pocoException (stray : Stray) (buffer : FIFOBuffer) :
    decode stray buffer ≠ .error .pocoException := by
  rcases lt_or_ge (declaredLength stray buffer) 0 with h | h
  · rw [decode_of_neg h]
    simp
  · obtain ⟨rest, hdecode⟩ := decode_of_nonneg h
    rw [hdecode]
    simp

/-- At most as many payload bytes are received as declared. -/
theorem length_receivedPayload_le (stray : Stray) (buffer : FIFOBuffer) :
    (receivedPayload stray buffer).length ≤ (declaredLength stray buffer).toNat := by
  simp only [receivedPayload, List.length_take]
  omega

/-- A word in front of the buffer is the declared length, and what follows it is the payload. -/
theorem receivedPayload_of_word (stray : Stray) {buffer : FIFOBuffer} {length : Word}
    {bytes : List UInt8} (h : buffer.content = length.bytes ++ bytes) :
    declaredLength stray buffer = length.toInt ∧
      receivedPayload stray buffer = bytes.take length.toInt.toNat := by
  obtain ⟨hword, hrest⟩ := readWord_of_append stray.word h
  have hlen : declaredLength stray buffer = length.toInt := by
    rw [declaredLength, hword]
  refine ⟨hlen, ?_⟩
  rw [receivedPayload, hlen, ← content_readWord stray.word, hrest]

/-- A length in front of the buffer is the declared length, and what follows it is the payload. -/
theorem receivedPayload_of_append (stray : Stray) {buffer : FIFOBuffer} {n : ℕ} (hn : n < 2 ^ 31)
    {bytes : List UInt8} (h : buffer.content = (Word.ofNat n).bytes ++ bytes) :
    declaredLength stray buffer = n ∧ receivedPayload stray buffer = bytes.take n := by
  have hword := receivedPayload_of_word stray h
  rwa [Word.toInt_ofNat hn, Int.toNat_natCast] at hword

/-- A word that declares as many bytes as the payload has, and the payload, are decoded to the
payload, whatever the local variable and the fresh memory hold. -/
theorem decode_of_word (stray : Stray) {buffer : FIFOBuffer} {length : Word}
    {payload rest : List UInt8} (hlength : length.toInt = payload.length)
    (h : buffer.content = length.bytes ++ (payload ++ rest)) :
    ∃ buffer', decode stray buffer =
      .ok ({ data := payload, behind := stray.behind }, buffer') := by
  obtain ⟨hlen, hpayload⟩ := receivedPayload_of_word stray h
  rw [hlength] at hlen
  rw [hlength, Int.toNat_natCast, List.take_left' rfl] at hpayload
  obtain ⟨buffer', hdecode⟩ := decode_of_nonneg (hlen ▸ Int.natCast_nonneg _)
  refine ⟨buffer', ?_⟩
  -- nothing of the fresh memory is left in the array
  rw [hdecode, messageArray, hpayload, hlen, Int.toNat_natCast,
    List.drop_eq_nil_of_le (by simp), List.append_nil]

/-- A declared length and as many payload bytes are decoded to these bytes, whatever the local
variable and the fresh memory hold. -/
theorem decode_of_append (stray : Stray) {buffer : FIFOBuffer} {payload rest : List UInt8}
    (hshort : payload.length < 2 ^ 31)
    (h : buffer.content = (Word.ofNat payload.length).bytes ++ (payload ++ rest)) :
    ∃ buffer', decode stray buffer =
      .ok ({ data := payload, behind := stray.behind }, buffer') :=
  decode_of_word stray (Word.toInt_ofNat hshort) h

/-- A NUL among the bytes received ends the string, whatever memory holds. -/
theorem cString_messageArray {stray : Stray} {buffer : FIFOBuffer}
    (h : 0 ∈ receivedPayload stray buffer) :
    (messageArray stray buffer).cString = some (.ofPrefix (receivedPayload stray buffer)) := by
  obtain ⟨m, rest, hsplit⟩ := CString.eq_append_of_mem h
  rw [CharArray.cString_eq_some_iff, hsplit, CString.ofPrefix_append]
  simp only [CharArray.memory, messageArray, hsplit, List.append_assoc, List.cons_append]
  exact ⟨_, rfl⟩

/-- The grammar of a message body: a length, as many payload bytes, of which one is NUL, and
anything behind them. -/
def Encodes (content payload : List UInt8) : Prop :=
  ∃ (length : Word) (rest : List UInt8), content = length.bytes ++ (payload ++ rest) ∧
    length.toInt = payload.length ∧ 0 ∈ payload

/-- The content is a message body. -/
def WellFormed (content : List UInt8) : Prop := ∃ payload, Encodes content payload

/-- A body that keeps to the grammar is decoded to its payload. -/
theorem decode_of_encodes (stray : Stray) {buffer : FIFOBuffer} {payload : List UInt8}
    (h : Encodes buffer.content payload) :
    ∃ buffer', decode stray buffer =
      .ok ({ data := payload, behind := stray.behind }, buffer') := by
  obtain ⟨length, rest, hcontent, hlength, -⟩ := h
  exact decode_of_word stray hlength hcontent

/-- The grammar, field by field: there are four bytes, the length in them is at least one and at
most the number of bytes behind them, and there is a NUL among as many of these bytes. -/
theorem wellFormed_iff {content : List UInt8} :
    WellFormed content ↔ ∃ length : Word, length.bytes <+: content ∧ 1 ≤ length.toInt ∧
      length.toInt ≤ ((content.drop 4).length : ℤ) ∧
        0 ∈ (content.drop 4).take length.toInt.toNat := by
  constructor
  · rintro ⟨payload, length, rest, rfl, hlength, hnul⟩
    have hpos := List.length_pos_of_mem hnul
    have hdrop : (length.bytes ++ (payload ++ rest)).drop 4 = payload ++ rest :=
      List.drop_left' length.length_eq
    refine ⟨length, List.prefix_append _ _, by omega, ?_, ?_⟩
    · rw [hdrop, hlength, List.length_append]
      omega
    · rwa [hdrop, hlength, Int.toNat_natCast, List.take_left' rfl]
  · rintro ⟨length, ⟨tail, rfl⟩, hpos, hle, hnul⟩
    rw [List.drop_left' length.length_eq] at hle hnul
    refine ⟨tail.take length.toInt.toNat, length, tail.drop length.toInt.toNat, ?_, ?_, hnul⟩
    · rw [List.take_append_drop]
    · rw [List.length_take]
      omega

end MessageBody

end PocoEcho

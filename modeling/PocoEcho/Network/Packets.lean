import PocoEcho.Library.Word
import PocoEcho.Poco.FIFOBuffer

/-!
# Packet types and frames

The constants of `Packets.h`, the packet types as they travel, and the layout of a MESSAGE frame:
four bytes of type, four bytes of length, and the payload.
-/

namespace PocoEcho

open Poco

/-- `MAX_BUFFER_LENGTH`: the size of every FIFO buffer of the programs. -/
def maxBufferLength : ℕ := 1024

/-- `ePacketType`. -/
inductive PacketType
  | kick
  | accept
  | message
  | packetEnd
  deriving DecidableEq

namespace PacketType

/-- The values of the enumerators. -/
def code : PacketType → ℕ
  | kick => 0x0F
  | accept => 0x10
  | message => 0x11
  | packetEnd => 0x12

/-- The enumerator as an object in memory and on the wire. -/
def word (t : PacketType) : Word := Word.ofNat t.code

/-- The enumerator that an `ePacketType` object holds; `none` for any other value. -/
def ofWord (w : Word) : Option PacketType :=
  if w = kick.word then some kick
  else if w = accept.word then some accept
  else if w = message.word then some message
  else if w = packetEnd.word then some packetEnd
  else none

/-- An object holds an enumerator exactly when it equals it. -/
theorem ofWord_eq_some_iff {w : Word} {t : PacketType} : ofWord w = some t ↔ w = t.word := by
  constructor
  · intro h
    unfold ofWord at h
    split_ifs at h with h1 h2 h3 h4 <;> cases h <;> assumption
  · rintro rfl
    cases t <;> decide

end PacketType

/-- Read a four-byte object off the front of a buffer. When fewer bytes are left, the others keep
what the object held before. -/
def readWord (w : Word) (buffer : FIFOBuffer) : Word × FIFOBuffer :=
  let (bytes, buffer) := buffer.read 4
  (w.overwrite bytes, buffer)

/-- The bytes of a MESSAGE frame with a given payload. -/
def messageFrame (payload : List UInt8) : List UInt8 :=
  PacketType.message.word.bytes ++ (Word.ofNat payload.length).bytes ++ payload

theorem length_messageFrame (payload : List UInt8) :
    (messageFrame payload).length = 8 + payload.length := by
  simp only [messageFrame, List.length_append, Word.length_eq]

@[simp] theorem readWord_fst (w : Word) (buffer : FIFOBuffer) :
    (readWord w buffer).1 = w.overwrite (buffer.content.take 4) := rfl

@[simp] theorem content_readWord (w : Word) (buffer : FIFOBuffer) :
    (readWord w buffer).2.content = buffer.content.drop 4 := rfl

/-- A word in front of the buffer is read whole, whatever the object held before. -/
theorem readWord_of_append (w : Word) {v : Word} {buffer : FIFOBuffer} {rest : List UInt8}
    (h : buffer.content = v.bytes ++ rest) :
    (readWord w buffer).1 = v ∧ (readWord w buffer).2.content = rest := by
  have hlen := v.length_eq
  simp only [readWord_fst, content_readWord, h]
  rw [List.take_left' hlen, List.drop_left' hlen, Word.overwrite_bytes]
  exact ⟨rfl, rfl⟩

end PocoEcho

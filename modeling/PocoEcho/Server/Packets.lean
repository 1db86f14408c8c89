import PocoEcho.Network.MessageBody

/-!
# The server's packets

`CMessagePacket`, which decodes a received MESSAGE, and `CMessageSendPacket`, which encodes the
echo (`server/src/packets`).

## Main results

* `CMessagePacket.read_eq`: `Read` never returns `false`; it succeeds or is left with an exception;
* `CMessageSendPacket.content_write`: `Write` appends as much of the frame as fits.
-/

namespace PocoEcho

open Poco

/-- `CMessagePacket` with the members it inherits from `CPacket`. -/
structure CMessagePacket (S : Type) where
  /-- `m_pSocket`. -/
  socket : Option S
  /-- `m_szMessage`. -/
  szMessage : Option CharArray

namespace CMessagePacket

variable {S : Type}

/-- `CMessagePacket::CMessagePacket`. -/
def new : CMessagePacket S := { socket := none, szMessage := none }

/-- `GetPacketType`. -/
def getPacketType (_packet : CMessagePacket S) : PacketType := .message

/-- `SetSocket`. -/
def setSocket (packet : CMessagePacket S) (socket : S) : CMessagePacket S :=
  { packet with socket := some socket }

/-- `Read`: the `try` block reads the length and the message array. -/
def read (stray : Stray) (packet : CMessagePacket S) (buffer : FIFOBuffer) :
    Except Fault (Bool × CMessagePacket S × FIFOBuffer) :=
  match MessageBody.decode stray buffer with
  | .ok (array, buffer) => .ok (true, { packet with szMessage := some array }, buffer)
  -- `catch (Exception)`
  | .error .pocoException => .ok (false, packet, buffer)
  | .error fault => .error fault

/-- `Read` never returns `false`: nothing in it throws what it catches. -/
theorem read_eq (stray : Stray) (packet : CMessagePacket S) (buffer : FIFOBuffer) :
    read stray packet buffer =
      (MessageBody.decode stray buffer).map fun p =>
        (true, { packet with szMessage := some p.1 }, p.2) := by
  unfold read
  rcases lt_or_ge (MessageBody.declaredLength stray buffer) 0 with h | h
  · rw [MessageBody.decode_of_neg h]
    rfl
  · obtain ⟨rest, hdecode⟩ := MessageBody.decode_of_nonneg h
    rw [hdecode]
    rfl

end CMessagePacket

/-- `CMessageSendPacket`. -/
structure CMessageSendPacket where
  /-- `m_szMessage`: a copy of the string, terminator included. -/
  szMessage : CString

namespace CMessageSendPacket

/-- `Write`. The numbers of bytes that the three `write` calls stored are not looked at. -/
def write (packet : CMessageSendPacket) (buffer : FIFOBuffer) : Bool × FIFOBuffer :=
  -- `m_szMessage` is set by the constructor and never null
  let messageLength := Word.ofNat (packet.szMessage.chars.length + 1)
  let buffer := buffer.write PacketType.message.word.bytes
  let buffer := buffer.write messageLength.bytes
  let buffer := buffer.write (packet.szMessage.terminated.take messageLength.toSize)
  (true, buffer)

/-- `Write` appends as much of the frame as fits. -/
theorem content_write (packet : CMessageSendPacket) (buffer : FIFOBuffer)
    (hlen : packet.szMessage.chars.length + 1 < 2 ^ 32) :
    (packet.write buffer).2.content =
      buffer.content ++ (messageFrame packet.szMessage.terminated).take buffer.available := by
  have htake : packet.szMessage.terminated.take
      (Word.ofNat (packet.szMessage.chars.length + 1)).toSize = packet.szMessage.terminated := by
    apply List.take_of_length_le
    rw [CString.length_terminated]
    exact Word.le_toSize_ofNat hlen
  simp only [write, htake, BoundedQueue.write_write, BoundedQueue.content_write, messageFrame,
    CString.length_terminated, List.append_assoc]

end CMessageSendPacket

end PocoEcho

import PocoEcho.Server.Echo

/-!
# The size of the echo

An echo is sent through a buffer of the size of the one that a request is received into. Its payload
is a part of the payload of the request, so it always fits.

## Main results

* `CMessageSendPacket.writesInFull`: a message of at most 1015 characters is written in full;
* `echo_fits_request`: the echo of a request is whole and not longer than the request.
-/

namespace PocoEcho

open Poco ServerLoop

variable {S : Type}

/-- The three `write` calls of `CMessageSendPacket::Write` store all the bytes they are given. -/
def CMessageSendPacket.WritesInFull (packet : CMessageSendPacket) (buffer : FIFOBuffer) : Prop :=
  let messageLength := Word.ofNat (packet.szMessage.chars.length + 1)
  let buffer₁ := buffer.write PacketType.message.word.bytes
  let buffer₂ := buffer₁.write messageLength.bytes
  buffer.writeCount PacketType.message.word.bytes = 4 ∧
    buffer₁.writeCount messageLength.bytes = 4 ∧
    buffer₂.writeCount (packet.szMessage.terminated.take messageLength.toSize) =
      packet.szMessage.chars.length + 1

/-- A message of at most 1015 characters is written in full into an empty buffer. -/
theorem CMessageSendPacket.writesInFull {packet : CMessageSendPacket}
    (h : packet.szMessage.chars.length ≤ 1015) :
    packet.WritesInFull (.empty maxBufferLength) := by
  have hsize := Word.le_toSize_ofNat (n := packet.szMessage.chars.length + 1) (by omega)
  have htype := PacketType.message.word.length_eq
  have hlength := (Word.ofNat (packet.szMessage.chars.length + 1)).length_eq
  refine ⟨?_, ?_, ?_⟩
  · rfl
  · simp [BoundedQueue.writeCount, BoundedQueue.available, htype, hlength, maxBufferLength]
  · simp [BoundedQueue.writeCount, BoundedQueue.available, htype, hlength, maxBufferLength]
    omega

namespace CServer

/-- A request that the server receives: a MESSAGE with a NUL among the payload bytes that are both
declared and received. -/
structure IsRequest (chunk : List UInt8) : Prop where
  /-- It fits into the buffer that it is received into. -/
  fits : chunk.length ≤ maxBufferLength
  /-- Its type is MESSAGE. -/
  type : chunk.take 4 = PacketType.message.word.bytes
  /-- There is a NUL among the first payload bytes. -/
  nul : 0 ∈ (chunk.drop 8).take (min (declaredBy chunk).toNat (chunk.length - 8))

namespace IsRequest

variable {chunk : List UInt8}

/-- The NUL is one of the payload bytes. -/
theorem nul_mem (h : IsRequest chunk) : 0 ∈ chunk.drop 8 := List.mem_of_mem_take h.nul

/-- The NUL is among the bytes declared, however many bytes there are. -/
theorem nul_mem_take (h : IsRequest chunk) :
    0 ∈ (chunk.drop 8).take (declaredBy chunk).toNat := by
  have hnul := h.nul
  rw [Nat.min_comm, ← List.take_take] at hnul
  exact List.mem_of_mem_take hnul

/-- A request contains more than type and length. -/
theorem length_gt (h : IsRequest chunk) : 8 < chunk.length := by
  have hpos := List.length_pos_of_mem h.nul_mem
  rw [List.length_drop] at hpos
  omega

/-- The text of a request is shorter than its payload. -/
theorem length_chars_lt (h : IsRequest chunk) :
    (CString.ofPrefix (chunk.drop 8)).chars.length < chunk.length - 8 := by
  rw [← List.length_drop]
  exact CString.length_ofPrefix_lt h.nul_mem

/-- The string that is decoded from a request is its text. -/
theorem exists_decode (h : IsRequest chunk) (stray : Stray) :
    ∃ szMessage rest, MessageBody.decode stray (chunkBody chunk) = .ok (szMessage, rest) ∧
      szMessage.cString = some (.ofPrefix (chunk.drop 8)) := by
  have hlong := h.length_gt
  have hlen := declaredLength_chunkBody h.fits hlong.le stray
  have hpayload := receivedPayload_chunkBody h.fits hlong.le stray
  have hnonneg : 0 ≤ declaredBy chunk := by
    by_contra hneg
    have hzero : (declaredBy chunk).toNat = 0 := by omega
    simpa [hzero] using h.nul_mem_take
  obtain ⟨rest, hdecode⟩ := MessageBody.decode_of_nonneg (hlen ▸ hnonneg)
  refine ⟨_, rest, hdecode, ?_⟩
  rw [MessageBody.cString_messageArray (hpayload ▸ h.nul_mem_take), hpayload,
    CString.ofPrefix_take h.nul_mem_take]

end IsRequest

end CServer

open CServer in
/-- The echo of a request: all three `write` calls store all they are given, so the reply is exactly
type, length, text and NUL; it is not longer than the request, and it is what the handlers send
unless a call on the socket fails before. -/
theorem echo_fits_request {chunk : List UInt8} (h : IsRequest chunk) :
    let message := CString.ofPrefix (chunk.drop 8)
    (CMessageSendPacket.mk message).WritesInFull (.empty maxBufferLength) ∧
      reply message = PacketType.message.word.bytes ++
        (Word.ofNat (message.chars.length + 1)).bytes ++ (message.chars ++ [0]) ∧
      (reply message).length ≤ chunk.length ∧
      ∀ (state : LoopState S) (client : S) (env : HandlerEnv),
        (handleData handlers state client chunk env).log.filterMap Event.sent = [reply message] ∨
          (handleData handlers state client chunk env).log.filterMap Event.sent = [] ∧
            env.throwsAt ≠ none := by
  intro message
  have hchars : message.chars.length < chunk.length - 8 := h.length_chars_lt
  have hfits := h.fits
  have hlong := h.length_gt
  have hshort : message.chars.length ≤ 1015 := by
    rw [maxBufferLength] at hfits
    omega
  have hreply : reply message = PacketType.message.word.bytes ++
      (Word.ofNat (message.chars.length + 1)).bytes ++ (message.chars ++ [0]) := by
    rw [reply_of_length_le hshort, messageFrame, CString.length_terminated]
    rfl
  refine ⟨CMessageSendPacket.writesInFull hshort, hreply, ?_, ?_⟩
  · rw [reply_of_length_le hshort, length_messageFrame, CString.length_terminated]
    omega
  · intro state client env
    have htype : chunkType state.packetType chunk = PacketType.message.word :=
      (chunkType_eq_iff (by omega)).mpr h.type
    obtain ⟨szMessage, rest, hdecode, hstring⟩ := h.exists_decode env.stray
    rw [log_handleData, htype]
    rcases packetHandler_of_cString env client hdecode hstring with hsent | ⟨hthrown, hthrows⟩
    · left
      rw [hsent]
      rfl
    · right
      rw [hthrown]
      exact ⟨rfl, hthrows⟩

/-- A frame that declares 2000 bytes and carries two is answered by ten bytes. -/
theorem echo_fits_request_of_large_length :
    let chunk : List UInt8 := [0x11, 0, 0, 0, 0xD0, 7, 0, 0, 0x41, 0]
    (CServer.reply (.ofPrefix (chunk.drop 8))).length ≤ chunk.length :=
  (echo_fits_request (S := Unit) ⟨by decide, by decide, by decide⟩).2.2.1

end PocoEcho

import PocoEcho.Client.CClient
import PocoEcho.Server.Packets

/-!
# Whole frames

`CMessageSendPacket::Write` reports success however little of the frame its three writes have
stored. It is all or nothing, and `CMessagePacket::Read` undoes it, exactly when the frame fits and
its length is an `int`.

## Main definitions

* `CMessageSendPacket.writeFromMemory`: `Write`, with the memory behind the array it reads from;
* `AllOrNothing`: what an encoder that can be relied on does.

## Main results

* `allOrNothing_iff_fits`: when `Write` is such an encoder.
-/

namespace PocoEcho

open Poco

/-- What `writeFrom` has stored. -/
theorem CClient.eq_write_of_writeFrom {buffer buffer' : FIFOBuffer} {pResult : CharArray}
    {length : ℕ} (h : CClient.writeFrom buffer pResult length = .ok buffer') :
    buffer' = buffer.write (pResult.memory.take length) := by
  unfold CClient.writeFrom at h
  split at h
  · cases h
  · exact (Except.ok.inj h).symm

namespace CMessageSendPacket

/-- `Write`, with the memory behind the array of the message: a negative length becomes a huge
`size_t`, and the last `write` then reads on behind the array. -/
def writeFromMemory (behind : List UInt8) (packet : CMessageSendPacket) (buffer : FIFOBuffer) :
    Except Fault (Bool × FIFOBuffer) :=
  let messageLength := Word.ofNat (packet.szMessage.chars.length + 1)
  let buffer := buffer.write PacketType.message.word.bytes
  let buffer := buffer.write messageLength.bytes
  let szMessage : CharArray := { data := packet.szMessage.terminated, behind }
  (CClient.writeFrom buffer szMessage messageLength.toSize).map fun buffer => (true, buffer)

/-- As long as the length is an `int`, the memory behind the array is not read. -/
theorem writeFromMemory_eq (behind : List UInt8) {packet : CMessageSendPacket} (buffer : FIFOBuffer)
    (hlen : packet.szMessage.chars.length + 1 < 2 ^ 31) :
    packet.writeFromMemory behind buffer = .ok (packet.write buffer) := by
  have hsize : (Word.ofNat (packet.szMessage.chars.length + 1)).toSize =
      packet.szMessage.terminated.length := by
    rw [Word.toSize_ofNat (by omega), CString.length_terminated]
    omega
  simp only [writeFromMemory, CClient.writeFrom, write, hsize, CharArray.memory,
    List.take_left' rfl, List.take_length, List.length_append]
  rw [if_neg (by omega)]
  rfl

/-- `Write` returns nothing but `true`; what it appends is the type, the length and what the last
`write` has read, as far as it fits. -/
theorem of_writeFromMemory {behind : List UInt8} {packet : CMessageSendPacket}
    {buffer buffer' : FIFOBuffer} {result : Bool}
    (h : packet.writeFromMemory behind buffer = .ok (result, buffer')) :
    result = true ∧ buffer'.content = buffer.content ++
      (PacketType.message.word.bytes ++ (Word.ofNat (packet.szMessage.chars.length + 1)).bytes ++
        (packet.szMessage.terminated ++ behind).take
          (Word.ofNat (packet.szMessage.chars.length + 1)).toSize).take buffer.available := by
  unfold writeFromMemory at h
  dsimp only at h
  cases hwrite : CClient.writeFrom _ _ _ with
  | error fault =>
      rw [hwrite] at h
      cases h
  | ok written =>
      rw [hwrite] at h
      obtain ⟨rfl, rfl⟩ := Prod.ext_iff.mp (Except.ok.inj h)
      refine ⟨rfl, ?_⟩
      rw [CClient.eq_write_of_writeFrom hwrite, BoundedQueue.write_write,
        BoundedQueue.write_write, BoundedQueue.content_write]
      rfl

end CMessageSendPacket

variable {S : Type}

/-- When the old content and the packet type are read, `Read` returns `true` and leaves an array
that holds the string. -/
def ReadsBack (stray : Stray) (packet : CMessagePacket S) (szMessage : CString) (used : ℕ)
    (buffer : FIFOBuffer) : Prop :=
  let body := (readWord stray.word (buffer.read used).2).2
  ∃ packet' buffer', packet.read stray body = .ok (true, packet', buffer') ∧
    packet'.szMessage.bind CharArray.cString = some szMessage

/-- `Write` returns `true` exactly when it has appended the frame, and then `Read` undoes it; when
the frame does not fit it returns `false` and appends nothing. -/
def AllOrNothing (stray : Stray) (received : CMessagePacket S) (behind : List UInt8)
    (packet : CMessageSendPacket) (buffer : FIFOBuffer) : Prop :=
  ∃ result buffer', packet.writeFromMemory behind buffer = .ok (result, buffer') ∧
    (result = true ↔
      buffer'.content = buffer.content ++ messageFrame packet.szMessage.terminated) ∧
    (result = true →
      ReadsBack stray received packet.szMessage buffer.content.length buffer') ∧
    (buffer.available < packet.szMessage.chars.length + 9 →
      result = false ∧ buffer'.content = buffer.content)

/-- Behind the old content and the type, `Read` finds the length and the message. -/
theorem content_behind_type {buffer : FIFOBuffer} {old payload : List UInt8} {w : Word}
    (h : buffer.content = old ++ messageFrame payload) :
    (readWord w (buffer.read old.length).2).2.content =
      (Word.ofNat payload.length).bytes ++ payload := by
  have htype : (buffer.read old.length).2.content = PacketType.message.word.bytes ++
      ((Word.ofNat payload.length).bytes ++ payload) := by
    rw [BoundedQueue.content_read, h, List.drop_left' rfl, messageFrame, List.append_assoc]
  exact (readWord_of_append w htype).2

/-- A whole frame whose length is an `int` is read back. -/
theorem readsBack_of_frame (stray : Stray) (packet : CMessagePacket S) {szMessage : CString}
    {old : List UInt8} {buffer : FIFOBuffer} (hlen : szMessage.chars.length + 1 < 2 ^ 31)
    (h : buffer.content = old ++ messageFrame szMessage.terminated) :
    ReadsBack stray packet szMessage old.length buffer := by
  have hcontent : (readWord stray.word (buffer.read old.length).2).2.content =
      (Word.ofNat szMessage.terminated.length).bytes ++ (szMessage.terminated ++ []) := by
    rw [List.append_nil]
    exact content_behind_type h
  have hshort : szMessage.terminated.length < 2 ^ 31 := by rwa [CString.length_terminated]
  obtain ⟨buffer', hdecode⟩ := MessageBody.decode_of_append stray hshort hcontent
  refine ⟨{ packet with szMessage := some ⟨szMessage.terminated, stray.behind⟩ }, buffer', ?_, ?_⟩
  · rw [CMessagePacket.read_eq, hdecode]
    rfl
  · refine CharArray.cString_eq_some_iff.mpr ⟨stray.behind, ?_⟩
    show szMessage.terminated ++ stray.behind = _
    rw [CString.terminated, List.append_assoc, List.singleton_append]

/-- A frame whose length is negative as an `int` is not read back. -/
theorem not_readsBack_of_neg (stray : Stray) (packet : CMessagePacket S) {szMessage : CString}
    {old : List UInt8} {buffer : FIFOBuffer}
    (hlen : (Word.ofNat (szMessage.chars.length + 1)).toInt < 0)
    (h : buffer.content = old ++ messageFrame szMessage.terminated) :
    ¬ ReadsBack stray packet szMessage old.length buffer := by
  rintro ⟨packet', buffer', hread, -⟩
  have hcontent := content_behind_type (w := stray.word) h
  rw [CString.length_terminated] at hcontent
  have hneg := (MessageBody.receivedPayload_of_word stray hcontent).1 ▸ hlen
  rw [CMessagePacket.read_eq, MessageBody.decode_of_neg hneg] at hread
  cases hread

/-- `Write` is all or nothing, and is undone by `Read`, if and only if the frame fits into the
buffer and its length is an `int`. -/
theorem allOrNothing_iff_fits (stray : Stray) (received : CMessagePacket S) (behind : List UInt8)
    (packet : CMessageSendPacket) (buffer : FIFOBuffer) :
    AllOrNothing stray received behind packet buffer ↔
      packet.szMessage.chars.length + 9 ≤ buffer.available ∧
        packet.szMessage.chars.length + 1 < 2 ^ 31 := by
  constructor
  · rintro ⟨result, buffer', hwrite, hwhole, hback, hnothing⟩
    obtain ⟨rfl, hcontent⟩ := CMessageSendPacket.of_writeFromMemory hwrite
    have hfits : packet.szMessage.chars.length + 9 ≤ buffer.available := by
      by_contra hshort
      exact Bool.noConfusion (hnothing (Nat.lt_of_not_le hshort)).1
    refine ⟨hfits, ?_⟩
    by_contra hlong
    have hframe := hwhole.mp rfl
    by_cases hneg : 2 ^ 31 ≤ (packet.szMessage.chars.length + 1) % 2 ^ 32
    · exact not_readsBack_of_neg stray received (Word.toInt_ofNat_neg hneg) hframe (hback rfl)
    · -- the length has been cut off: fewer characters than those of the message are written
      have hlength := congrArg List.length (hcontent.symm.trans hframe)
      rw [Word.toSize_ofNat (by omega)] at hlength
      simp only [List.length_append, List.length_take, length_messageFrame, Word.length_eq,
        CString.length_terminated] at hlength
      omega
  · rintro ⟨hfits, hlen⟩
    have hcontent : (packet.write buffer).2.content =
        buffer.content ++ messageFrame packet.szMessage.terminated := by
      rw [CMessageSendPacket.content_write packet buffer (by omega), List.take_of_length_le]
      rw [length_messageFrame, CString.length_terminated]
      omega
    refine ⟨true, _, CMessageSendPacket.writeFromMemory_eq behind buffer hlen, ?_, ?_, ?_⟩
    · exact iff_of_true rfl hcontent
    · intro _
      exact readsBack_of_frame stray received hlen hcontent
    · intro hshort
      omega

/-- A buffer with room for all but the last byte of the frame: `Write` returns `true`. -/
theorem not_allOrNothing_of_short_buffer :
    ¬ AllOrNothing (S := Unit) ⟨Word.ofNat 0, fun _ => 0, []⟩ .new [] ⟨⟨[65], by decide⟩⟩
      (BoundedQueue.empty 9) := by
  rintro ⟨result, buffer', hwrite, -, -, hnothing⟩
  obtain ⟨rfl, -⟩ := CMessageSendPacket.of_writeFromMemory hwrite
  exact Bool.noConfusion (hnothing (by decide)).1

end PocoEcho

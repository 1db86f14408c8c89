import PocoEcho.Server.CServer

/-!
# The grammar of messages on the server

`CMessagePacket::Read` is meant to accept a message body and to reject everything else. Since it
looks neither at the number of bytes that it reads nor at the sign of the length, and catches only
`Poco::Exception`, it never rejects anything.

## Main results

* `readMeetsGrammar_iff`: `Read` does what is meant exactly on the bodies of the grammar.
-/

namespace PocoEcho

open Poco MessageBody

variable {S : Type}

/-- `Read` accepts a message body and stores its payload; it rejects anything else without an
exception, and `Translate` yields no packet then. -/
def ReadMeetsGrammar (env : HandlerEnv) (client : S) (packet : CMessagePacket S)
    (buffer : FIFOBuffer) : Prop :=
  (∀ payload, Encodes buffer.content payload →
    ∃ packet' buffer', packet.read env.stray buffer = .ok (true, packet', buffer') ∧
      packet'.szMessage.map CharArray.data = some payload) ∧
  (¬ WellFormed buffer.content →
    (∃ packet' buffer', packet.read env.stray buffer = .ok (false, packet', buffer')) ∧
      ∃ log buffer',
        CPacketTranslator.translate env PacketType.message.word client buffer =
          ⟨log, .ok (none, buffer')⟩)

/-- `Read` never rejects anything. -/
theorem read_ne_false (stray : Stray) (packet packet' : CMessagePacket S)
    (buffer buffer' : FIFOBuffer) :
    packet.read stray buffer ≠ .ok (false, packet', buffer') := by
  intro h
  rw [CMessagePacket.read_eq] at h
  cases hdecode : decode stray buffer with
  | error fault =>
      rw [hdecode] at h
      cases h
  | ok p =>
      rw [hdecode] at h
      cases h

/-- `Read` accepts what keeps to the grammar, and stores the payload. -/
theorem read_of_encodes (stray : Stray) (packet : CMessagePacket S) {buffer : FIFOBuffer}
    {payload : List UInt8} (h : Encodes buffer.content payload) :
    ∃ packet' buffer', packet.read stray buffer = .ok (true, packet', buffer') ∧
      packet'.szMessage.map CharArray.data = some payload := by
  obtain ⟨buffer', hdecode⟩ := decode_of_encodes stray h
  rw [CMessagePacket.read_eq, hdecode]
  exact ⟨_, _, rfl, rfl⟩

/-- `Read` meets the grammar exactly on the bodies that keep to it. -/
theorem readMeetsGrammar_iff (env : HandlerEnv) (client : S) (packet : CMessagePacket S)
    (buffer : FIFOBuffer) :
    ReadMeetsGrammar env client packet buffer ↔ WellFormed buffer.content := by
  constructor
  · rintro ⟨-, hrejects⟩
    by_contra hmalformed
    obtain ⟨⟨packet', buffer', hread⟩, -⟩ := hrejects hmalformed
    exact read_ne_false env.stray packet packet' buffer buffer' hread
  · intro hwell
    refine ⟨?_, fun hmalformed => absurd hwell hmalformed⟩
    intro payload hpayload
    exact read_of_encodes env.stray packet hpayload

/-- The length `-1`: an exception that is no `Poco::Exception` leaves `Read`. -/
theorem not_readMeetsGrammar_of_negative :
    ∃ buffer : FIFOBuffer, buffer.content = [0xFF, 0xFF, 0xFF, 0xFF] ∧
      ¬ ReadMeetsGrammar .zero () .new buffer ∧
        CMessagePacket.read HandlerEnv.zero.stray (.new : CMessagePacket Unit) buffer =
          .error .badArrayNewLength := by
  refine ⟨(BoundedQueue.empty maxBufferLength).write [0xFF, 0xFF, 0xFF, 0xFF], rfl, ?_, rfl⟩
  rintro ⟨-, hrejects⟩
  have hmalformed : ¬ WellFormed ((BoundedQueue.empty maxBufferLength).write
      [0xFF, 0xFF, 0xFF, 0xFF]).content := by
    rw [wellFormed_iff]
    rintro ⟨length, hpre, hpositive, -⟩
    have hword : length = ⟨[0xFF, 0xFF, 0xFF, 0xFF], rfl⟩ :=
      Word.ext (hpre.eq_of_length length.length_eq)
    have hneg : length.toInt = -1 := by
      rw [hword]
      decide
    omega
  obtain ⟨⟨packet', buffer', hread⟩, -⟩ := hrejects hmalformed
  cases hread

end PocoEcho

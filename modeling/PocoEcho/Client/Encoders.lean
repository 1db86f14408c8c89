import PocoEcho.Client.CClient
import PocoEcho.Server.CServer

/-!
# The two encoders of a MESSAGE

`CMessageSendPacket::Write` counts the terminator once. On the client, `GetAction` counts it, and
`ListenAction` counts it again in the length field and once more in the number of characters that it
writes.

## Main results

* `content_of_listenAction`: the frame that the client sends, whatever lies behind the array;
* `not_encodersAgree`: it is never the frame of the server's encoder.
-/

namespace PocoEcho

open Poco

/-- The frame that the client sends for a message is the one of the server's encoder, and its
payload lies inside the array that `GetAction` has allocated. -/
def EncodersAgree (m : CString) (behind : List UInt8) : Prop :=
  ∃ buffer manager,
    CClient.listenAction ((CActionManager.new.storeMessage m behind).setActionType 1) =
      .ok (true, some buffer, manager) ∧
    buffer.content = ((CMessageSendPacket.mk m).write (.empty maxBufferLength)).2.content ∧
    (buffer.content.drop 8).length ≤ m.chars.length + 1

/-- A frame that is sent begins with the type and a length that counts the terminator twice. -/
theorem content_of_listenAction {m : CString} {behind : List UInt8} {sent : Bool}
    {buffer : FIFOBuffer} {manager : CActionManager}
    (h : CClient.listenAction ((CActionManager.new.storeMessage m behind).setActionType 1) =
      .ok (sent, some buffer, manager)) :
    ∃ payload, buffer.content = (PacketType.message.word.bytes ++
      (Word.ofNat (m.chars.length + 2)).bytes ++ payload).take maxBufferLength := by
  simp only [CClient.listenAction, CActionManager.popActionResult_storeMessage, ↓reduceIte,
    CClient.writeFrom] at h
  split at h
  · cases h
  · obtain ⟨-, h⟩ := Prod.mk.inj (Except.ok.inj h)
    obtain rfl := Option.some.inj (Prod.mk.inj h).1
    simp only [BoundedQueue.write_write, BoundedQueue.content_write_empty]
    exact ⟨_, rfl⟩

/-- The length field of a frame. -/
theorem lengthField_take (n : ℕ) (payload : List UInt8) :
    (((PacketType.message.word.bytes ++ (Word.ofNat n).bytes ++ payload).take
      maxBufferLength).drop 4).take 4 = (Word.ofNat n).bytes := by
  rw [List.drop_take, List.append_assoc, List.drop_left' (Word.length_eq _), List.take_take,
    List.take_left' (by rw [Word.length_eq]; rfl)]

/-- The two encoders disagree on every message, whatever lies behind the array: the client declares
one byte more than the server does. -/
theorem not_encodersAgree (m : CString) (behind : List UInt8) : ¬ EncodersAgree m behind := by
  rintro ⟨buffer, manager, hsent, hsame, -⟩
  obtain ⟨payload, hclient⟩ := content_of_listenAction hsent
  have hserver : ((CMessageSendPacket.mk m).write (.empty maxBufferLength)).2.content =
      (PacketType.message.word.bytes ++ (Word.ofNat (m.chars.length + 1)).bytes ++
        m.terminated.take (Word.ofNat (m.chars.length + 1)).toSize).take maxBufferLength := by
    simp only [CMessageSendPacket.write, BoundedQueue.write_write,
      BoundedQueue.content_write_empty]
  have hfield : (Word.ofNat (m.chars.length + 2)).bytes =
      (Word.ofNat (m.chars.length + 1)).bytes := by
    rw [← lengthField_take _ payload, ← hclient, hsame, hserver, lengthField_take]
  -- two lengths with the same encoding are the same modulo `2 ^ 32`
  have hvalue := congrArg Word.toNat (Word.ext hfield)
  rw [Word.toNat_ofNat, Word.toNat_ofNat] at hvalue
  omega

/-- The frames of "A": the client declares three bytes and sends four, two of which it has found
behind the array. -/
theorem frames_of_letter :
    (∃ buffer, CClient.listenAction
        ((CActionManager.new.storeMessage ⟨[0x41], by decide⟩ [7, 8]).setActionType 1) =
          .ok (true, some buffer, .new) ∧
        buffer.content = [0x11, 0, 0, 0, 3, 0, 0, 0, 0x41, 0, 7, 8]) ∧
      ((CMessageSendPacket.mk ⟨[0x41], by decide⟩).write (.empty maxBufferLength)).2.content =
        [0x11, 0, 0, 0, 2, 0, 0, 0, 0x41, 0] ∧
      ¬ EncodersAgree ⟨[0x41], by decide⟩ [7, 8] := by
  refine ⟨⟨_, rfl, rfl⟩, rfl, ?_⟩
  rintro ⟨buffer, manager, hsent, hsame, -⟩
  obtain ⟨payload, hclient⟩ := content_of_listenAction hsent
  have hfield := congrArg (fun l => (l.drop 4).take 4) (hclient.symm.trans hsame)
  simp only [lengthField_take] at hfield
  exact absurd hfield (by decide)

end PocoEcho

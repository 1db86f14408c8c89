import PocoEcho.Client.CClient
import PocoEcho.Library.Transfer
import PocoEcho.Server.CServer

/-!
# Sends that are cut short

`sendBytes` may put only a part of the buffer on the wire, or nothing. `CClient::ListenAction` only
asks whether its result is zero, `CServer::Packet_Message` ignores it, and either drops the buffer
with what was not sent.

## Main results

* `streams_whole_iff`: the streams consist of whole frames exactly when every `sendBytes` sends the
  whole buffer.
-/

namespace PocoEcho

open Poco

/-- The outcome of a call of `ListenAction` that has sent something. -/
structure SendReport where
  /-- The content of the buffer. -/
  frame : List UInt8
  /-- The bytes that `sendBytes` has put on the wire. -/
  sent : List UInt8
  /-- The message is reported as delivered. -/
  delivered : Bool
  deriving DecidableEq

namespace CClient

/-- `ListenAction`, when `sendBytes` returns `nCount`. -/
def listenActionSends (manager : CActionManager) (nCount : ℤ) :
    Except Fault (Option SendReport × CActionManager) :=
  (listenAction manager).map fun outcome =>
    let report := outcome.2.1.map fun buffer =>
      { frame := buffer.content
        sent := buffer.content.take nCount.toNat
        -- a short count passes for success, and so does a negative one
        delivered := decide (nCount ≠ 0) }
    (report, outcome.2.2)

/-- The frame that is sent for a message, with the memory behind its array. -/
def frame (szMessage : CString) (behind : List UInt8) : List UInt8 :=
  (PacketType.message.word.bytes ++ (Word.ofNat (szMessage.chars.length + 2)).bytes ++
    (szMessage.chars ++ 0 :: behind.take 2)).take maxBufferLength

end CClient

/-- A message that is entered on the console, and what `sendBytes` returns for it. -/
structure ConsoleSend where
  /-- The message. -/
  szMessage : CString
  /-- The memory behind the array that holds it. -/
  behind : List UInt8
  /-- The result of `sendBytes`. -/
  nCount : ℤ
  /-- What is copied into the buffer can be read. -/
  mapped : min (szMessage.chars.length + 3) (maxBufferLength - 8) ≤
    szMessage.chars.length + 1 + behind.length
  /-- The result is negative, or at least one and at most the number of bytes in the buffer. -/
  nCount_mem : nCount < 0 ∨ 1 ≤ nCount ∧ nCount ≤ (CClient.frame szMessage behind).length

namespace ConsoleSend

/-- The frame that is sent. -/
def frame (s : ConsoleSend) : List UInt8 := CClient.frame s.szMessage s.behind

/-- The frame begins with the type. -/
theorem frame_ne_nil (s : ConsoleSend) : s.frame ≠ [] := by
  have htype := PacketType.message.word.length_eq
  apply List.ne_nil_of_length_pos
  simp only [frame, CClient.frame, List.length_take, List.length_append, htype, maxBufferLength]
  omega

/-- The call of `sendBytes`. -/
def transfer (s : ConsoleSend) : Transfer UInt8 :=
  { frame := s.frame
    count := s.nCount
    frame_ne_nil := s.frame_ne_nil
    count_mem := s.nCount_mem }

/-- What `ListenAction` makes of it: the message passes for delivered. -/
def report (s : ConsoleSend) : SendReport :=
  { frame := s.frame
    sent := s.transfer.sent
    delivered := true }

/-- A message that is entered is sent as far as `sendBytes` goes, and is reported as delivered. -/
theorem listenActionSends_eq (s : ConsoleSend) (manager : CActionManager) :
    CClient.listenActionSends ((manager.storeMessage s.szMessage s.behind).setActionType 1)
      s.nCount = .ok (some s.report, .new) := by
  obtain ⟨buffer, hsent, hcontent⟩ :=
    CClient.listenAction_storeMessage manager s.szMessage s.mapped
  have hnonzero : s.nCount ≠ 0 := by
    have hmem := s.nCount_mem
    omega
  have hframe : s.frame = buffer.content := hcontent.symm
  have hreport : s.report =
      { frame := buffer.content
        sent := buffer.content.take s.nCount.toNat
        delivered := true } := by
    rw [← hframe]
    rfl
  rw [CClient.listenActionSends, hsent, hreport]
  simp only [Except.map, Option.map_some, decide_not, hnonzero, decide_false, Bool.not_false]

end ConsoleSend

/-- The messages are entered one after the other. -/
def CClient.sendAll : CActionManager → List ConsoleSend → Except Fault (List SendReport)
  | _, [] => .ok []
  | manager, s :: sends => do
      let (report, manager) ← listenActionSends
        ((manager.storeMessage s.szMessage s.behind).setActionType 1) s.nCount
      let reports ← sendAll manager sends
      return report.toList ++ reports

/-- Every message is sent and reported. -/
theorem CClient.sendAll_eq (manager : CActionManager) (sends : List ConsoleSend) :
    sendAll manager sends = .ok (sends.map ConsoleSend.report) := by
  induction sends generalizing manager with
  | nil => rfl
  | cons s sends ih =>
      rw [sendAll, s.listenActionSends_eq]
      show (sendAll .new sends >>= fun reports => pure ((some s.report).toList ++ reports)) = _
      rw [ih]
      rfl

/-- The stream is the concatenation of the frames that are reported as delivered. -/
def DeliveredWhole (reports : List SendReport) : Prop :=
  reports.flatMap SendReport.sent =
    (reports.filter SendReport.delivered).flatMap SendReport.frame

/-- The stream of the client is whole exactly when each message is sent in full. -/
theorem deliveredWhole_iff (sends : List ConsoleSend) :
    DeliveredWhole (sends.map ConsoleSend.report) ↔ ∀ s ∈ sends, s.nCount = s.frame.length := by
  have hsent : (sends.map ConsoleSend.report).flatMap SendReport.sent =
      Transfer.stream (sends.map ConsoleSend.transfer) := by
    rw [Transfer.stream, List.flatMap_map, List.flatMap_map]
    rfl
  have hdelivered : (sends.map ConsoleSend.report).filter SendReport.delivered =
      sends.map ConsoleSend.report :=
    List.filter_eq_self.mpr (List.forall_mem_map.mpr fun _ _ => rfl)
  have hframes : (sends.map ConsoleSend.report).flatMap SendReport.frame =
      Transfer.frames (sends.map ConsoleSend.transfer) := by
    rw [Transfer.frames, List.flatMap_map, List.flatMap_map]
    rfl
  rw [DeliveredWhole, hdelivered, hsent, hframes, Transfer.stream_eq_frames_iff,
    List.forall_mem_map]
  exact Iff.rfl

/-- A message packet that the server answers, and what `sendBytes` returns for the echo. -/
structure EchoSend {S : Type} (client : S) where
  /-- The packet. -/
  packet : CMessagePacket S
  /-- The array of the message. -/
  szMessage : CharArray
  /-- The string in the array. -/
  message : CString
  /-- Uninitialised memory. -/
  stray : Stray
  /-- The result of `sendBytes`. -/
  nCount : ℤ
  /-- The packet is from the client. -/
  socket_eq : packet.socket = some client
  /-- The packet holds the array. -/
  szMessage_eq : packet.szMessage = some szMessage
  /-- The string ends within mapped memory. -/
  cString_eq : szMessage.cString = some message
  /-- The result is negative, or at least one and at most the number of bytes in the buffer. -/
  nCount_mem : nCount < 0 ∨ 1 ≤ nCount ∧ nCount ≤ (CServer.reply message).length

/-- The buffers that a handler hands to `sendBytes`. -/
def HandlerEvent.handedOver {S : Type} : HandlerEvent S → Option (List UInt8)
  | .sendBytes _ data => some data
  | _ => none

namespace EchoSend

variable {S : Type} {client : S}

/-- The buffers that `Packet_Message` hands to `sendBytes`. -/
def handedOver (s : EchoSend client) : List (List UInt8) :=
  (CServer.packetMessage ⟨s.stray, none⟩ s.packet).log.filterMap HandlerEvent.handedOver

/-- One buffer is handed over, with the frame of the string. -/
theorem handedOver_eq (s : EchoSend client) : s.handedOver = [CServer.reply s.message] := by
  rw [handedOver, CServer.packetMessage, s.socket_eq, s.szMessage_eq]
  simp only [s.cString_eq]
  rfl

/-- The call of `sendBytes`. -/
def transfer (s : EchoSend client) : Transfer UInt8 :=
  { frame := CServer.reply s.message
    count := s.nCount
    frame_ne_nil := CServer.reply_ne_nil s.message
    count_mem := s.nCount_mem }

end EchoSend

/-- The stream is the concatenation of the buffers that `Packet_Message` hands to `sendBytes`. -/
def EchoesWhole {S : Type} {client : S} (sends : List (EchoSend client)) : Prop :=
  (sends.flatMap fun s => s.handedOver.flatMap (List.take s.nCount.toNat)) =
    sends.flatMap fun s => s.handedOver.flatten

/-- The stream of the echoes is whole exactly when each echo is sent in full. -/
theorem echoesWhole_iff {S : Type} {client : S} (sends : List (EchoSend client)) :
    EchoesWhole sends ↔ ∀ s ∈ sends, s.nCount = (CServer.reply s.message).length := by
  have hsent : (sends.flatMap fun s => s.handedOver.flatMap (List.take s.nCount.toNat)) =
      Transfer.stream (sends.map EchoSend.transfer) := by
    rw [Transfer.stream, List.flatMap_map]
    congr 1
    ext1 s
    rw [s.handedOver_eq, List.flatMap_singleton]
    rfl
  have hframes : (sends.flatMap fun s => s.handedOver.flatten) =
      Transfer.frames (sends.map EchoSend.transfer) := by
    rw [Transfer.frames, List.flatMap_map]
    congr 1
    ext1 s
    rw [s.handedOver_eq, List.flatten_singleton]
    rfl
  rw [EchoesWhole, hsent, hframes, Transfer.stream_eq_frames_iff, List.forall_mem_map]
  exact Iff.rfl

/-- The streams consist of whole frames exactly when every `sendBytes` sends the whole buffer: all
messages that are entered are reported as delivered, and all echoes are given up after one call. -/
theorem streams_whole_iff {S : Type} (client : S) :
    (∀ (manager : CActionManager) (sends : List ConsoleSend),
      ∃ reports, CClient.sendAll manager sends = .ok reports ∧
        (DeliveredWhole reports ↔ ∀ s ∈ sends, s.nCount = s.frame.length)) ∧
      ∀ sends : List (EchoSend client),
        EchoesWhole sends ↔ ∀ s ∈ sends, s.nCount = (CServer.reply s.message).length :=
  ⟨fun manager sends => ⟨_, CClient.sendAll_eq manager sends, deliveredWhole_iff sends⟩,
    echoesWhole_iff⟩

/-- The message `A`, of whose twelve bytes `nCount` are sent. -/
def ConsoleSend.ofCount (nCount : ℤ) (h : nCount < 0 ∨ 1 ≤ nCount ∧ nCount ≤ 12) : ConsoleSend :=
  { szMessage := ⟨[0x41], by decide⟩
    behind := [0, 0]
    nCount := nCount
    mapped := by decide
    nCount_mem := h }

/-- Of the first of two messages that are reported as delivered, five bytes are sent. -/
theorem not_deliveredWhole_of_short_count :
    ∃ (sends : List ConsoleSend) (reports : List SendReport),
      CClient.sendAll .new sends = .ok reports ∧ ¬ DeliveredWhole reports := by
  refine ⟨[.ofCount 5 (by decide), .ofCount 12 (by decide)], _, CClient.sendAll_eq _ _, ?_⟩
  unfold DeliveredWhole
  decide

end PocoEcho

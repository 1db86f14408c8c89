import PocoEcho.Network.Handler
import PocoEcho.Server.CWhiteList
import PocoEcho.Server.Packets

/-!
# The server's handlers

What the server does with a packet: `CPacketTranslator::Translate`, `CPacketHandler::ProcessPacket`
and `CServer`'s handlers.

## Main results

* `packetHandler_of_ne`: a packet of any other type than MESSAGE is ignored;
* `packetHandler_of_decode`: a MESSAGE is passed on and its C string is echoed;
* `packetHandler_of_error`: a MESSAGE with a negative length ends the handler by an exception.
-/

namespace PocoEcho

open Poco

variable {S : Type}

/-- `CPacketTranslator::Translate`: the packet, if there is one, and the rest of the buffer. -/
def CPacketTranslator.translate (env : HandlerEnv) (packetType : Word) (pClient : S)
    (pBuffer : FIFOBuffer) :
    Logged (HandlerEvent S) Fault (Option (CMessagePacket S) × FIFOBuffer) :=
  match PacketType.ofWord packetType with
  | some .message =>
      let pPacket := CMessagePacket.new.setSocket pClient
      match pPacket.read env.stray pBuffer with
      | .error fault => Logged.throw fault
      | .ok (true, pPacket, pBuffer) => pure (some pPacket, pBuffer)
      | .ok (false, _, pBuffer) => pure (none, pBuffer)
  | _ => do
      callOn env .unknownAddress pClient
      return (none, pBuffer)

namespace CServer

/-- The echo that `Packet_Message` sends for a message: the part of the frame that fits. -/
def reply (szMessage : CString) : List UInt8 :=
  ((CMessageSendPacket.mk szMessage).write (.empty maxBufferLength)).2.content

/-- `Packet_Message`. -/
def packetMessage (env : HandlerEnv) (pPacket : CMessagePacket S) :
    Logged (HandlerEvent S) Fault Unit :=
  match pPacket.socket, pPacket.szMessage with
  | some pClient, some szMessage => do
      callOn env .messagePeerAddress pClient
      match szMessage.cString with
      -- printing and measuring the string runs over the end of the mapped memory
      | none => Logged.throw .accessViolation
      | some szMessage => do
          callOn env .sendEcho pClient
          Logged.emit (.sendBytes pClient (reply szMessage))
  -- `assert(szMessage)`, or a null pointer
  | _, _ => Logged.throw .accessViolation

/-- `ProcessPacket`. -/
def processPacket (env : HandlerEnv) (pPacket : CMessagePacket S) :
    Logged (HandlerEvent S) Fault Unit :=
  match pPacket.getPacketType with
  | .message => packetMessage env pPacket
  | _ => pure ()

end CServer

/-- `CPacketHandler::ProcessPacket`. -/
def CPacketHandler.processPacket (env : HandlerEnv) (pClient : S) (pBuffer : FIFOBuffer)
    (packetType : Word) : Logged (HandlerEvent S) Fault FIFOBuffer := do
  let (pPacket, pBuffer) ← CPacketTranslator.translate env packetType pClient pBuffer
  match pPacket with
  | none => return pBuffer
  | some pPacket => do
      Logged.emit (.processPacket pClient ((pPacket.szMessage.map CharArray.data).getD []))
      CServer.processPacket env pPacket
      return pBuffer

namespace CServer

/-- `PacketHandler`. -/
def packetHandler : PacketHandler S := fun env pClientSocket pBuffer packetType =>
  CPacketHandler.processPacket env pClientSocket pBuffer packetType

/-- `ConnectHandler`. -/
def connectHandler : ConnectHandler S CWhiteList := fun env whiteList pClientSocket host => do
  callOn env .connectPeerAddress pClientSocket
  callOn env .connectLogPeerAddress pClientSocket
  return whiteList.isClientCanConnect host

/-- The handlers that `TryStart` registers. -/
def handlers : Handlers S CWhiteList :=
  { packetHandlerList := [packetHandler]
    connectHandler := some connectHandler }

/-- The echo of a message that fits is its frame. -/
theorem reply_eq (m : CString) (h : m.chars.length + 1 < 2 ^ 32) :
    reply m = (messageFrame m.terminated).take maxBufferLength := by
  rw [reply, CMessageSendPacket.content_write _ _ h]
  simp

/-- The echo of a message is never empty: the type always fits. -/
theorem reply_ne_nil (m : CString) : reply m ≠ [] := by
  have htype := PacketType.message.word.length_eq
  apply List.ne_nil_of_length_pos
  simp only [reply, CMessageSendPacket.write, BoundedQueue.write_write,
    BoundedQueue.content_write_empty, List.length_take, List.length_append, htype, maxBufferLength]
  omega

/-- The echo of a message of at most 1015 characters is its whole frame. -/
theorem reply_of_length_le {m : CString} (h : m.chars.length ≤ 1015) :
    reply m = messageFrame m.terminated := by
  rw [reply_eq m (by omega), List.take_of_length_le]
  rw [length_messageFrame, CString.length_terminated, maxBufferLength]
  omega

/-- Without a failing call, the connect handler asks the whitelist. -/
theorem connectHandler_of_none (stray : Stray) (whiteList : CWhiteList) (client : S)
    (host : String) :
    connectHandler ⟨stray, none⟩ whiteList client host =
      ⟨[], .ok (whiteList.isClientCanConnect host)⟩ := rfl

/-- What happens after a MESSAGE packet was decoded. -/
def onMessage (env : HandlerEnv) (client : S) (szMessage : CharArray) :
    Logged (HandlerEvent S) Fault Unit := do
  Logged.emit (.processPacket client szMessage.data)
  callOn env .messagePeerAddress client
  match szMessage.cString with
  | none => Logged.throw .accessViolation
  | some szMessage => do
      callOn env .sendEcho client
      Logged.emit (.sendBytes client (reply szMessage))

/-- A packet of any other type than MESSAGE is reported on the console and ignored. -/
theorem packetHandler_of_ne (env : HandlerEnv) (client : S) (buffer : FIFOBuffer)
    {packetType : Word} (h : packetType ≠ PacketType.message.word) :
    packetHandler env client buffer packetType =
      (do callOn env .unknownAddress client; return buffer) := by
  have hof : PacketType.ofWord packetType ≠ some .message :=
    fun hm => h (PacketType.ofWord_eq_some_iff.mp hm)
  simp only [packetHandler, CPacketHandler.processPacket, CPacketTranslator.translate]
  simp only [bind_assoc, pure_bind]

/-- A MESSAGE packet that is decoded is passed on. -/
theorem packetHandler_of_decode (env : HandlerEnv) (client : S) {buffer rest : FIFOBuffer}
    {szMessage : CharArray} (h : MessageBody.decode env.stray buffer = .ok (szMessage, rest)) :
    packetHandler env client buffer PacketType.message.word =
      (do onMessage env client szMessage; return rest) := by
  have hof : PacketType.ofWord PacketType.message.word = some .message := by decide
  simp only [packetHandler, CPacketHandler.processPacket, CPacketTranslator.translate, hof,
    CMessagePacket.read_eq, h, Except.map, pure_bind]
  simp only [processPacket, CMessagePacket.getPacketType, packetMessage, CMessagePacket.setSocket,
    Option.map_some, Option.getD_some, onMessage, bind_assoc]

/-- A MESSAGE packet that is not decoded ends the handler by an exception. -/
theorem packetHandler_of_error (env : HandlerEnv) (client : S) {buffer : FIFOBuffer}
    {fault : Fault} (h : MessageBody.decode env.stray buffer = .error fault) :
    packetHandler env client buffer PacketType.message.word = Logged.throw fault := by
  have hof : PacketType.ofWord PacketType.message.word = some .message := by decide
  simp only [packetHandler, CPacketHandler.processPacket, CPacketTranslator.translate, hof,
    CMessagePacket.read_eq, h, Except.map]
  rfl

end CServer

end PocoEcho

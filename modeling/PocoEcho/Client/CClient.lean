import PocoEcho.Client.CActionManager
import PocoEcho.Library.Logged
import PocoEcho.Network.MessageBody

/-!
# The client

`CClient::ListenAction`, which turns the pending action into a frame, and `CClient::PacketHandler`,
which displays what the server sends.

## Main results

* `listenAction_storeMessage`: the frame of a stored message;
* `displayMessage_of_decode`: what is displayed of a message.
-/

namespace PocoEcho

open Poco

/-- What the packet handler of the client does to the console. -/
inductive ConsoleEvent
  /-- A message of the server is displayed. -/
  | message (szMessage : CString)
  /-- A packet of unknown type is reported. -/
  | unknownPacket (packetType : Word)
  /-- The address for the message about the accepted connection cannot be obtained. -/
  | throws
  deriving DecidableEq

namespace CClient

/-- `FIFOBuffer::write` from an array in memory: only as many characters are read as fit. -/
def writeFrom (buffer : FIFOBuffer) (pResult : CharArray) (length : ℕ) :
    Except Fault FIFOBuffer :=
  if pResult.memory.length < min length buffer.available then .error .accessViolation
  else .ok (buffer.write (pResult.memory.take length))

/-- `ListenAction` up to `sendBytes`: its result, the buffer that is sent, if any, and the manager
without the pending action. -/
def listenAction (manager : CActionManager) :
    Except Fault (Bool × Option FIFOBuffer × CActionManager) :=
  match manager.popActionResult with
  | (none, manager) => .ok (true, none, manager)
  | (some (iActionType, pResult, iResultSize), manager) =>
      if iActionType = 1 then
        -- `GetAction` has counted the terminator already
        let iResultSize := iResultSize + 1
        let buffer := BoundedQueue.empty maxBufferLength
        let buffer := buffer.write PacketType.message.word.bytes
        let buffer := buffer.write (Word.ofNat iResultSize).bytes
        (writeFrom buffer pResult (iResultSize + 1)).map fun buffer => (true, some buffer, manager)
      else .ok (false, none, manager)

/-- The branch of `PacketHandler` for MESSAGE, which is also reached from the one for ACCEPT. -/
def displayMessage (stray : Stray) (pBuffer : FIFOBuffer) : Logged ConsoleEvent Fault FIFOBuffer :=
  match MessageBody.decode stray pBuffer with
  | .error fault => Logged.throw fault
  | .ok (szMessage, pBuffer) =>
      match szMessage.cString with
      -- printing the string runs over the end of the mapped memory
      | none => Logged.throw .accessViolation
      | some szMessage => do
          Logged.emit (.message szMessage)
          return pBuffer

/-- `PacketHandler`. -/
def packetHandler (env : HandlerEnv) (pBuffer : FIFOBuffer) (packetType : Word) :
    Logged ConsoleEvent Fault FIFOBuffer :=
  match PacketType.ofWord packetType with
  | some .accept =>
      -- there is no `break`
      if env.throwsAt = some .acceptAddress then ⟨[.throws], .error .pocoException⟩
      else displayMessage env.stray pBuffer
  | some .message => displayMessage env.stray pBuffer
  | _ => do
      Logged.emit (.unknownPacket packetType)
      return pBuffer

/-- The frame that is sent for a stored message: the length is one more than that of the array, and
one more character than this is written, as far as it fits. -/
theorem listenAction_storeMessage (manager : CActionManager) (m : CString) {behind : List UInt8}
    (hmapped : min (m.chars.length + 3) (maxBufferLength - 8) ≤
      m.chars.length + 1 + behind.length) :
    ∃ buffer, listenAction ((manager.storeMessage m behind).setActionType 1) =
        .ok (true, some buffer, .new) ∧
      buffer.content = (PacketType.message.word.bytes ++
        (Word.ofNat (m.chars.length + 2)).bytes ++
          (m.chars ++ 0 :: behind.take 2)).take maxBufferLength := by
  -- the array, and the two bytes behind it that are written as well
  have hmemory : (CharArray.mk (m.chars ++ [0]) behind).memory.take (m.chars.length + 3) =
      m.chars ++ 0 :: behind.take 2 := by
    rw [CharArray.memory, List.append_assoc, List.take_length_add_append]
    rfl
  have hlength : (CharArray.mk (m.chars ++ [0]) behind).memory.length =
      m.chars.length + 1 + behind.length := by
    rw [CharArray.memory, List.length_append, List.length_append, List.length_singleton]
  have hroom : (((BoundedQueue.empty maxBufferLength).write
      PacketType.message.word.bytes).write
        (Word.ofNat (m.chars.length + 2)).bytes).available = maxBufferLength - 8 := by
    rw [BoundedQueue.write_write, BoundedQueue.available, BoundedQueue.content_write_empty,
      List.length_take, List.length_append, Word.length_eq, Word.length_eq]
    rfl
  simp only [listenAction, CActionManager.popActionResult_storeMessage, ↓reduceIte, writeFrom,
    hmemory, hlength]
  rw [if_neg (by rw [hroom]; omega)]
  refine ⟨_, rfl, ?_⟩
  simp only [BoundedQueue.write_write, BoundedQueue.content_write_empty, List.append_assoc]

/-- A message with a negative length ends the handler by an exception. -/
theorem displayMessage_of_error {stray : Stray} {buffer : FIFOBuffer} {fault : Fault}
    (h : MessageBody.decode stray buffer = .error fault) :
    displayMessage stray buffer = Logged.throw fault := by
  simp only [displayMessage, h]

/-- The string of a message that is decoded is displayed if it lies in mapped memory. -/
theorem displayMessage_of_decode {stray : Stray} {buffer rest : FIFOBuffer} {szMessage : CharArray}
    (h : MessageBody.decode stray buffer = .ok (szMessage, rest)) :
    displayMessage stray buffer =
      ⟨(szMessage.cString.map ConsoleEvent.message).toList,
        match szMessage.cString with
        | none => .error .accessViolation
        | some _ => .ok rest⟩ := by
  simp only [displayMessage, h]
  cases szMessage.cString with
  | none => rfl
  | some m => rfl

end CClient

end PocoEcho

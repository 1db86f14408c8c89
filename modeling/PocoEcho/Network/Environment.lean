import PocoEcho.Library.CharArray
import PocoEcho.Library.Word

/-!
# What the programs do not control

The results of socket operations, the bytes found in memory that nobody has initialised, and the
ways in which a C++ function is left other than by returning.
-/

namespace PocoEcho

/-- How a function is left other than by returning. -/
inductive Fault
  /-- A `Poco::Exception` or a class derived from it. -/
  | pocoException
  /-- `std::bad_array_new_length`: a negative array length. It is no `Poco::Exception`. -/
  | badArrayNewLength
  /-- A use of memory that the program does not own, or a failed assertion: the process ends. -/
  | accessViolation
  deriving DecidableEq

/-- Whether `OnUpdate` is still in its loop, and how it was left otherwise. -/
inductive LoopStatus
  | running
  | exited
  | thrown (fault : Fault)
  deriving DecidableEq

/-- The calls on sockets that may throw, by their place in the source. -/
inductive CallSite
  /-- `select` at the head of the server loop. -/
  | select
  /-- `acceptConnection` in the server loop. -/
  | acceptConnection
  /-- `peerAddress()` for the local `clientAddress` of `CServer::ConnectHandler`. -/
  | connectPeerAddress
  /-- `peerAddress()` in the console message of `CServer::ConnectHandler`. -/
  | connectLogPeerAddress
  /-- `sendBytes` of the KICK packet. -/
  | sendKick
  /-- `close` of a kicked connection. -/
  | closeKicked
  /-- `sendBytes` of the ACCEPT packet. -/
  | sendAccept
  /-- `address()` in the console message of `CPacketTranslator::Translate`. -/
  | unknownAddress
  /-- `peerAddress()` in the console message of `CServer::Packet_Message`. -/
  | messagePeerAddress
  /-- `sendBytes` of the echo in `CServer::Packet_Message`. -/
  | sendEcho
  /-- `peerAddress()` in the console message of the drop loop. -/
  | dropPeerAddress
  /-- `address()` in the console message of `CClient::PacketHandler`. -/
  | acceptAddress
  deriving DecidableEq

/-- What a `receiveBytes` call comes to. -/
inductive ReceiveResult
  /-- Bytes were received; their number is returned. -/
  | bytes (data : List UInt8)
  /-- `0` is returned: the peer has shut the connection down. -/
  | shutdown
  /-- A negative number is returned: nothing has arrived on a non-blocking socket. -/
  | negative
  /-- A `Poco::Exception` is thrown. -/
  | throws
  deriving DecidableEq

/-- The bytes that a packet handler finds in memory which nobody has initialised. -/
structure Stray where
  /-- The content of the local variable `iLength`. -/
  word : Word
  /-- The content of the array that is allocated for the message. -/
  fresh : ℕ → UInt8
  /-- The mapped memory behind that array. -/
  behind : List UInt8

/-- `new char[n]`. -/
def Stray.newArray (stray : Stray) (n : ℤ) : Except Fault CharArray :=
  if n < 0 then .error .badArrayNewLength
  else .ok { data := (List.range n.toNat).map stray.fresh, behind := stray.behind }

/-- What one invocation of a handler meets: stray memory, and the call that throws, if any. -/
structure HandlerEnv where
  /-- The memory that nobody has initialised. -/
  stray : Stray
  /-- The call on a socket that throws. -/
  throwsAt : Option CallSite

/-- Memory that happens to be zero, and no call that throws. -/
def HandlerEnv.zero : HandlerEnv :=
  { stray := { word := Word.ofNat 0, fresh := fun _ => 0, behind := [0] }, throwsAt := none }

/-- Memory that holds zero in `iLength` and one character in every fresh array. -/
def Stray.filled (c : UInt8) (behind : List UInt8) : Stray :=
  { word := Word.ofNat 0, fresh := fun _ => c, behind }

theorem Stray.newArray_of_nonneg (stray : Stray) {n : ℤ} (h : 0 ≤ n) :
    stray.newArray n =
      .ok { data := (List.range n.toNat).map stray.fresh, behind := stray.behind } := by
  rw [newArray, if_neg (by omega)]

theorem Stray.newArray_of_neg (stray : Stray) {n : ℤ} (h : n < 0) :
    stray.newArray n = .error .badArrayNewLength := by
  rw [newArray, if_pos h]

end PocoEcho

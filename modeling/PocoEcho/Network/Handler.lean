import PocoEcho.Library.Logged
import PocoEcho.Network.Environment
import PocoEcho.Network.Packets

/-!
# Registered handlers

The types of the functions that are registered with a network object (`CNetwork.h`), and the
observable things they do.
-/

namespace PocoEcho

open Poco

/-- What a handler does to the outside. -/
inductive HandlerEvent (S : Type)
  /-- `CServer::ProcessPacket` is called with a MESSAGE packet of the client whose message array
  has the given characters. -/
  | processPacket (client : S) (message : List UInt8)
  /-- `sendBytes` is called on the socket of the client. -/
  | sendBytes (client : S) (data : List UInt8)
  /-- A call on the socket of the client throws. -/
  | throws (client : S)
  deriving DecidableEq

/-- The connection an event of a handler is about. -/
def HandlerEvent.socket {S : Type} : HandlerEvent S → S
  | processPacket client _ => client
  | sendBytes client _ => client
  | throws client => client

/-- A call on a socket that does nothing but may throw. -/
def callOn {S : Type} (env : HandlerEnv) (site : CallSite) (socket : S) :
    Logged (HandlerEvent S) Fault Unit :=
  if env.throwsAt = some site then ⟨[.throws socket], .error .pocoException⟩
  else ⟨[], .ok ()⟩

/-- `pfnPacketHandler`: the buffer is shared, so what the handler leaves of it is returned. -/
abbrev PacketHandler (S : Type) :=
  HandlerEnv → S → FIFOBuffer → Word → Logged (HandlerEvent S) Fault FIFOBuffer

/-- `pfnConnectHandler`, with the data `W` of the program that it looks up and the peer's host. -/
abbrev ConnectHandler (S W : Type) :=
  HandlerEnv → W → S → String → Logged (HandlerEvent S) Fault Bool

/-- The handlers registered with a server network object. -/
structure Handlers (S W : Type) where
  /-- `m_packetHandlerList`. -/
  packetHandlerList : List (PacketHandler S)
  /-- `m_pConnectHandler`; a null pointer until one is registered. -/
  connectHandler : Option (ConnectHandler S W)

/-- A call that does not throw does nothing. -/
@[simp] theorem callOn_none {S : Type} (stray : Stray) (site : CallSite) (socket : S) :
    callOn ⟨stray, none⟩ site socket = ⟨[], .ok ()⟩ := rfl

end PocoEcho

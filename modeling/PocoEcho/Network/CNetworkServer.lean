import Mathlib.Data.List.Basic
import Mathlib.Tactic.Common

/-!
# The server's network object

The members of `CNetworkServer` that decide who is served, and how they are set up. Handlers are
function pointers, and are compared as such.
-/

namespace PocoEcho

/-- `CNetworkServer`, with packet handlers at addresses `P` and connect handlers at addresses
`C`. -/
structure CNetworkServer (S P C : Type) where
  /-- `m_pSocket`. -/
  socket : Option S
  /-- `m_packetHandlerList`. -/
  packetHandlerList : List P
  /-- `m_pConnectHandler`. -/
  connectHandler : Option C

namespace CNetworkServer

variable {S P C : Type}

/-- `new CNetworkServer()`: the class has no constructor of its own, so the members that the base
class does not set are zero. -/
def new : CNetworkServer S P C :=
  { socket := none, packetHandlerList := [], connectHandler := none }

/-- `TryStart`, when `new ServerSocket` returns a listening socket or throws. -/
def tryStart (network : CNetworkServer S P C) (opened : Option S) :
    Bool × CNetworkServer S P C :=
  if network.socket.isSome then (false, network)
  else
    match opened with
    | none => (false, network)
    | some server => (true, { network with socket := some server })

/-- `RegisterSocketConnectHandler`. -/
def registerSocketConnectHandler (network : CNetworkServer S P C) (handlerFunction : C) :
    CNetworkServer S P C :=
  { network with connectHandler := some handlerFunction }

/-- `-1` as a `size_t`. -/
def notFound : ℕ := 0xFFFFFFFFFFFFFFFF

variable [DecidableEq P]

/-- `GetListIndexOfPacketHandler`. -/
def getListIndexOfPacketHandler (network : CNetworkServer S P C) (handlerFunction : P) : ℕ :=
  (network.packetHandlerList.idxOf? handlerFunction).getD notFound

/-- `AddPacketHandler`. -/
def addPacketHandler (network : CNetworkServer S P C) (handlerFunction : P) :
    CNetworkServer S P C :=
  if network.getListIndexOfPacketHandler handlerFunction ≠ notFound then network
  else { network with packetHandlerList := network.packetHandlerList ++ [handlerFunction] }

end CNetworkServer

end PocoEcho

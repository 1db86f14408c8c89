import PocoEcho.Network.CNetworkServer
import PocoEcho.Network.ServerLoop
import PocoEcho.Server.CServer

/-!
# The server program

`main` of the server loads the whitelist, starts the network object and runs it: from then on the
update thread is in `CNetworkServer::OnUpdate`, while the console adds and removes addresses. The
program is a machine whose steps are the calls of `main`, the calls of the console and the steps of
the server loop. The loop uses the handlers that are registered, and the connect handler looks up
the whitelist as it is at that moment.

## Main definitions

* `CServer.tryStart`: the registration of the handlers;
* `ServerProgram`, `ServerProgram.Input`, `ServerProgram.Event` and `serverProgram`: the machine.
-/

namespace PocoEcho

open Poco

namespace CServer

/-- The functions that are registered as packet handlers. -/
inductive PacketHandlerAddress
  | packetHandler
  deriving DecidableEq

/-- The functions that are registered as connect handlers. -/
inductive ConnectHandlerAddress
  | connectHandler
  deriving DecidableEq

/-- The server's network object. -/
abbrev Network (S : Type) := CNetworkServer S PacketHandlerAddress ConnectHandlerAddress

/-- The functions at the registered addresses. -/
def handlersOf {S : Type} (network : Network S) : Handlers S CWhiteList :=
  { packetHandlerList := network.packetHandlerList.map fun | .packetHandler => packetHandler
    connectHandler := network.connectHandler.map fun | .connectHandler => connectHandler }

/-- `TryStart`: its result, and the network object it leaves in `m_pNetwork`. -/
def tryStart {S : Type} (opened : Option S) : Bool × Network S :=
  let (started, network) := CNetworkServer.new.tryStart opened
  if started then
    (true, (network.addPacketHandler .packetHandler).registerSocketConnectHandler .connectHandler)
  else (false, network)

end CServer

/-- Where `main` stands. -/
inductive Stage
  | tryGetList
  | tryStart
  | run
  /-- `Run` has started the update thread, and the console is in use. -/
  | console
  | ended
  deriving DecidableEq

/-- The state of the server program. -/
structure ServerProgram (S : Type) where
  /-- Where `main` stands. -/
  stage : Stage
  /-- The whitelist. -/
  whiteList : CWhiteList
  /-- `m_pNetwork` of the server object. -/
  network : Option (CServer.Network S)
  /-- The update thread, once it has been started. -/
  loop : Option (LoopState S)

namespace ServerProgram

/-- The next call, with the outcomes that the program does not control. -/
inductive Input (S : Type)
  /-- `CWhiteList::TryGetList`. -/
  | tryGetList (created selected : Bool) (rows : List String)
  /-- `CServer::TryStart`. -/
  | tryStart (opened : Option S)
  /-- `CServer::Run`, with what is on the stack of the update thread. -/
  | run (packetType : Word)
  /-- `CWhiteList::Add`, called from the console. -/
  | add (strIp : String) (executed : Bool)
  /-- `CWhiteList::Remove`, called from the console. -/
  | remove (strIp : String) (executed : Bool)
  /-- A step of the update thread. -/
  | loop (input : PocoEcho.Input S Unit)

/-- What happens to the whitelist and on the sockets. -/
inductive Event (S : Type)
  /-- `TryGetList` has loaded these rows. -/
  | loaded (rows : List String)
  /-- `Add` returned `true`. -/
  | added (strIp : String)
  /-- `Remove` returned `true`. -/
  | removed (strIp : String)
  /-- The loop does something. -/
  | loop (event : PocoEcho.Event S)

/-- `main` before its first call. -/
def initial (S : Type) : ServerProgram S :=
  { stage := .tryGetList, whiteList := .new, network := none, loop := none }

variable {S : Type}

/-- `TryGetList` in `main`. -/
def tryGetList (program : ServerProgram S) (created selected : Bool) (rows : List String) :
    ServerProgram S × List (Event S) :=
  let (loaded, whiteList) := program.whiteList.tryGetList created selected rows
  if loaded then ({ program with stage := .tryStart, whiteList }, [.loaded rows])
  else ({ program with stage := .ended, whiteList }, [])

/-- `TryStart` in `main`. -/
def tryStart (program : ServerProgram S) (opened : Option S) : ServerProgram S :=
  let (started, network) := CServer.tryStart opened
  { program with stage := if started then .run else .ended, network := some network }

/-- `Run` in `main`, up to the start of the two threads. -/
def run (program : ServerProgram S) (packetType : Word) : ServerProgram S :=
  match program.network.bind (·.socket) with
  -- without a socket, `Run` returns at once
  | none => { program with stage := .ended }
  | some server =>
      { program with stage := .console, loop := some (LoopState.initial server packetType) }

/-- `Add` from the console. -/
def add (program : ServerProgram S) (strIp : String) (executed : Bool) :
    ServerProgram S × List (Event S) :=
  let (added, whiteList) := program.whiteList.add strIp executed
  ({ program with whiteList }, if added then [.added strIp] else [])

/-- `Remove` from the console. -/
def remove (program : ServerProgram S) (strIp : String) (executed : Bool) :
    ServerProgram S × List (Event S) :=
  let (removed, whiteList) := program.whiteList.remove strIp executed
  ({ program with whiteList }, if removed then [.removed strIp] else [])

/-- One step; `none` when the program does not wait for such an input. -/
def step [DecidableEq S] (program : ServerProgram S) (input : Input S) :
    Option (ServerProgram S × List (Event S)) :=
  match program.stage, input with
  | .tryGetList, .tryGetList created selected rows =>
      some (program.tryGetList created selected rows)
  | .tryStart, .tryStart opened => some (program.tryStart opened, [])
  | .run, .run packetType => some (program.run packetType, [])
  | .console, .add strIp executed => some (program.add strIp executed)
  | .console, .remove strIp executed => some (program.remove strIp executed)
  -- the update thread and the console take turns in any order
  | .console, .loop input =>
      match program.network, program.loop with
      | some network, some loop =>
          match network.socket with
          | some server =>
              -- the connect handler looks the host up in the whitelist of this moment
              (ServerLoop.step (CServer.handlersOf network) server loop
                (input.withWorld program.whiteList)).map fun (loop, events) =>
                  ({ program with loop := some loop }, events.map .loop)
          | none => none
      | _, _ => none
  | _, _ => none

/-- The socket library keeps its promises, and no call on a socket throws. -/
def Undisturbed (program : ServerProgram S) : Input S → Prop
  | .loop input => ∀ loop, program.loop = some loop →
      PocoEcho.Undisturbed loop (input.withWorld program.whiteList)
  | _ => True

/-- Whether an input is undisturbed is decidable. -/
instance decidableUndisturbed [DecidableEq S] (program : ServerProgram S) :
    ∀ input : Input S, Decidable (program.Undisturbed input)
  | .tryGetList _ _ _ => inferInstanceAs (Decidable True)
  | .tryStart _ => inferInstanceAs (Decidable True)
  | .run _ => inferInstanceAs (Decidable True)
  | .add _ _ => inferInstanceAs (Decidable True)
  | .remove _ _ => inferInstanceAs (Decidable True)
  | .loop input => inferInstanceAs (Decidable (∀ loop ∈ program.loop,
      PocoEcho.Undisturbed loop (input.withWorld program.whiteList)))

end ServerProgram

/-- The server program as a machine. -/
def serverProgram (S : Type) [DecidableEq S] :
    Machine (ServerProgram S) (ServerProgram.Input S) (ServerProgram.Event S) where
  step := ServerProgram.step

end PocoEcho

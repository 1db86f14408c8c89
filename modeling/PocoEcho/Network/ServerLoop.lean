import PocoEcho.Library.Machine
import PocoEcho.Library.Trace
import PocoEcho.Network.Handler

/-!
# The server loop

`CNetworkServer::OnUpdate` as a machine. A state holds the local variables of the function; what is
left of `readList` and `dropList` says where in the round it stands. A step handles one socket of
one of these lists, or one `select`. Inputs carry what the socket library, memory and the other
threads contribute, and the events record what the function does.

## Main definitions

* `LoopState`, `Input`, `Event` and `serverLoop`: the machine;
* `Admissible`: what the socket library promises about its results;
* `session c tr`: what happened on connection `c` since it was accepted.
-/

namespace PocoEcho

open Poco

/-- The local variables of `CNetworkServer::OnUpdate`. -/
structure LoopState (S : Type) where
  /-- `clients`; the listening socket is one of them. -/
  clients : List S
  /-- The local `packetType`, which all sockets share. -/
  packetType : Word
  /-- The sockets of `readList` that this round has yet to handle. -/
  readList : List S
  /-- `dropList`; once `readList` is done, the part of it that is still to be removed. -/
  dropList : List S
  /-- Where the function stands. -/
  status : LoopStatus
  deriving DecidableEq

/-- What the environment contributes to one step of the loop. -/
inductive Input (S W : Type)
  /-- `m_bCloseRequested` is found set at the head of the loop. -/
  | closeRequested
  /-- `select` returns `iCount` and leaves `ready` in `readList`, or throws. -/
  | select (iCount : ℕ) (ready : List S) (throwsAt : Option CallSite)
  /-- `acceptConnection` returns `client`, whose peer has the given host; `world` is the program
  data that the connect handler looks up at that moment. -/
  | accept (client : S) (host : String) (world : W) (env : HandlerEnv)
  /-- The result of `receiveBytes` on the next socket of `readList`. -/
  | receive (result : ReceiveResult) (env : HandlerEnv)
  /-- One iteration of the loop over `dropList`. -/
  | drop (throwsAt : Option CallSite)

/-- The input with other program data. -/
def Input.withWorld {S W W' : Type} (world : W') : Input S W → Input S W'
  | .closeRequested => .closeRequested
  | .select iCount ready throwsAt => .select iCount ready throwsAt
  | .accept client host _ env => .accept client host world env
  | .receive result env => .receive result env
  | .drop throwsAt => .drop throwsAt

/-- What the loop does, in the order in which it does it. -/
inductive Event (S : Type)
  /-- `acceptConnection` returned a connection of a peer with this host. -/
  | acceptConnection (client : S) (host : String)
  /-- The loop itself sends a packet type. -/
  | sendBytes (client : S) (data : List UInt8)
  /-- A connection is closed. -/
  | close (client : S)
  /-- `receiveBytes` returned. -/
  | receiveBytes (client : S) (result : ReceiveResult)
  /-- A registered packet handler is invoked. -/
  | packetHandler (client : S) (packetType : Word)
  /-- A handler does something. -/
  | handler (event : HandlerEvent S)
  /-- A connection is removed from `clients`. -/
  | erase (client : S)
  /-- `Exit` is called. -/
  | exit
  /-- A call on a socket throws. -/
  | throws (socket : S)
  deriving DecidableEq

namespace ServerLoop

variable {S W : Type}

/-- A call of the loop on a socket that does nothing but may throw. -/
def call (throwsAt : Option CallSite) (site : CallSite) (socket : S) :
    Logged (Event S) Fault Unit :=
  if throwsAt = some site then ⟨[.throws socket], .error .pocoException⟩
  else ⟨[], .ok ()⟩

/-- The decision of the connect handler; without one, everybody is admitted. -/
def connect (handlers : Handlers S W) (env : HandlerEnv) (world : W) (client : S) (host : String) :
    Logged (HandlerEvent S) Fault Bool :=
  match handlers.connectHandler with
  | none => pure true
  | some connectHandler => connectHandler env world client host

/-- The branch of the loop that accepts a connection. -/
def acceptClient (handlers : Handlers S W) (server : S) (state : LoopState S) (client : S)
    (host : String) (world : W) (env : HandlerEnv) : Logged (Event S) Fault (LoopState S) := do
  call env.throwsAt .acceptConnection server
  Logged.emit (.acceptConnection client host)
  -- the handler's own events go between the acceptance and the packet
  let admitted ← (connect handlers env world client host).mapLog .handler
  if admitted then
    call env.throwsAt .sendAccept client
    Logged.emit (.sendBytes client PacketType.accept.word.bytes)
    return { state with
      packetType := PacketType.accept.word, clients := state.clients ++ [client] }
  else
    call env.throwsAt .sendKick client
    Logged.emit (.sendBytes client PacketType.kick.word.bytes)
    call env.throwsAt .closeKicked client
    Logged.emit (.close client)
    return { state with packetType := PacketType.kick.word }

/-- Every registered handler in turn is invoked on the same buffer. -/
def dispatch (handlers : Handlers S W) (env : HandlerEnv) (client : S) (packetType : Word)
    (buffer : FIFOBuffer) : Logged (Event S) Fault FIFOBuffer :=
  handlers.packetHandlerList.foldlM
    (fun buffer handlerFunction => do
      Logged.emit (.packetHandler client packetType)
      -- each handler reads on where the one before it has stopped
      (handlerFunction env client buffer packetType).mapLog .handler)
    buffer

/-- What follows a `receiveBytes` that stored `data` in the fresh buffer. -/
def handleData (handlers : Handlers S W) (state : LoopState S) (client : S) (data : List UInt8)
    (env : HandlerEnv) : Logged (Event S) Fault (LoopState S) := do
  let buffer := (BoundedQueue.empty maxBufferLength).write data
  -- a short read leaves the upper bytes of the shared variable as they are
  let (packetType, buffer) := readWord state.packetType buffer
  let _ ← dispatch handlers env client packetType buffer
  return { state with packetType := packetType }

/-- The branch of the loop that receives from a client. -/
def receiveFrom (handlers : Handlers S W) (state : LoopState S) (client : S)
    (result : ReceiveResult) (env : HandlerEnv) : Logged (Event S) Fault (LoopState S) :=
  match result with
  | .throws => ⟨[.throws client], .error .pocoException⟩
  | .shutdown => do
      Logged.emit (.receiveBytes client .shutdown)
      return { state with dropList := state.dropList ++ [client] }
  -- -1 is neither 0 nor checked for: the empty buffer is handled
  | .negative => do
      Logged.emit (.receiveBytes client .negative)
      handleData handlers state client [] env
  | .bytes data => do
      Logged.emit (.receiveBytes client (.bytes data))
      handleData handlers state client data env

variable [DecidableEq S]

/-- One iteration of the loop over `dropList`. -/
def dropClient (state : LoopState S) (dropTarget : S) (throwsAt : Option CallSite) :
    Logged (Event S) Fault (LoopState S) := do
  if dropTarget ∈ state.clients then
    -- the peer's address is looked up for the console message
    call throwsAt .dropPeerAddress dropTarget
    Logged.emit (.erase dropTarget)
    return { state with clients := state.clients.erase dropTarget }
  else
    return state

/-- What the function does on an input; `none` when it does not wait for such an input. -/
def onUpdate (handlers : Handlers S W) (server : S) (state : LoopState S) (input : Input S W) :
    Option (Logged (Event S) Fault (LoopState S)) :=
  if state.status ≠ .running then none
  else
    match state.readList, state.dropList, input with
    -- the loop over `readList` goes first, then the one over `dropList`
    | readSocket :: rest, _, .accept client host world env =>
        if readSocket = server then
          some (acceptClient handlers server { state with readList := rest } client host world env)
        else none
    | readSocket :: rest, _, .receive result env =>
        if readSocket = server then none
        else some (receiveFrom handlers { state with readList := rest } readSocket result env)
    | [], dropTarget :: rest, .drop throwsAt =>
        some (dropClient { state with dropList := rest } dropTarget throwsAt)
    | [], [], .closeRequested =>
        -- the listening socket is in `clients`, too
        some ⟨state.clients.map .close ++ [.exit], .ok { state with status := .exited }⟩
    | [], [], .select iCount ready throwsAt =>
        some do
          call throwsAt .select server
          return if iCount = 0 then state else { state with readList := ready }
    | _, _, _ => none

/-- One step: an exception leaves the function for good. -/
def step (handlers : Handlers S W) (server : S) (state : LoopState S) (input : Input S W) :
    Option (LoopState S × List (Event S)) :=
  (onUpdate handlers server state input).map fun outcome =>
    match outcome.result with
    | .ok state' => (state', outcome.log)
    | .error fault => ({ state with status := .thrown fault }, outcome.log)

end ServerLoop

/-- `CNetworkServer::OnUpdate` with the given handlers, on a listening socket. -/
def serverLoop {S W : Type} [DecidableEq S] (handlers : Handlers S W) (server : S) :
    Machine (LoopState S) (Input S W) (Event S) where
  step := ServerLoop.step handlers server

/-- The state in which `OnUpdate` enters its loop: only the listening socket is in `clients`, and
`packetType` holds whatever was on the stack. -/
def LoopState.initial {S : Type} (server : S) (packetType : Word) : LoopState S :=
  { clients := [server], packetType, readList := [], dropList := [], status := .running }

/-- `OnUpdate` stands at the head of its loop. -/
def LoopState.AtHead {S : Type} (state : LoopState S) : Prop :=
  state.status = .running ∧ state.readList = [] ∧ state.dropList = []

/-- `OnUpdate` is about to receive from a client. -/
def LoopState.AtReceive {S : Type} (state : LoopState S) (client : S) : Prop :=
  state.status = .running ∧ state.readList.head? = some client

theorem LoopState.AtReceive.exists_readList {S : Type} {state : LoopState S} {client : S}
    (h : state.AtReceive client) :
    state.status = .running ∧ ∃ rest, state.readList = client :: rest :=
  ⟨h.1, List.head?_eq_some_iff.mp h.2⟩

/-- What the socket library promises: `select` returns distinct sockets of the list it was given,
an accepted connection differs from all live ones, and a blocking `receiveBytes` returns between
one byte and as many as fit into the buffer. -/
def Admissible {S W : Type} (state : LoopState S) : Input S W → Prop
  | .select _ ready _ => ready.Nodup ∧ ready ⊆ state.clients
  | .accept client _ _ _ => client ∉ state.clients
  | .receive (.bytes data) _ => data ≠ [] ∧ data.length ≤ maxBufferLength
  | .receive .negative _ => False
  | _ => True

/-- Whether an input is admissible is decidable. -/
instance decidableAdmissible {S W : Type} [DecidableEq S] (state : LoopState S) :
    ∀ input : Input S W, Decidable (Admissible state input)
  | .closeRequested => inferInstanceAs (Decidable True)
  | .select _ ready _ => inferInstanceAs (Decidable (ready.Nodup ∧ ready ⊆ state.clients))
  | .accept client _ _ _ => inferInstanceAs (Decidable (client ∉ state.clients))
  | .receive (.bytes data) _ =>
      inferInstanceAs (Decidable (data ≠ [] ∧ data.length ≤ maxBufferLength))
  | .receive .shutdown _ => inferInstanceAs (Decidable True)
  | .receive .negative _ => inferInstanceAs (Decidable False)
  | .receive .throws _ => inferInstanceAs (Decidable True)
  | .drop _ => inferInstanceAs (Decidable True)

/-- No call on a socket throws in this step. -/
def Input.NoThrow {S W : Type} : Input S W → Prop
  | .closeRequested => True
  | .select _ _ throwsAt => throwsAt = none
  | .accept _ _ _ env => env.throwsAt = none
  | .receive result env => result ≠ .throws ∧ env.throwsAt = none
  | .drop throwsAt => throwsAt = none

/-- Whether no call on a socket throws is decidable. -/
instance decidableNoThrow {S W : Type} : ∀ input : Input S W, Decidable input.NoThrow
  | .closeRequested => inferInstanceAs (Decidable True)
  | .select _ _ throwsAt => inferInstanceAs (Decidable (throwsAt = none))
  | .accept _ _ _ env => inferInstanceAs (Decidable (env.throwsAt = none))
  | .receive result env => inferInstanceAs (Decidable (result ≠ .throws ∧ env.throwsAt = none))
  | .drop throwsAt => inferInstanceAs (Decidable (throwsAt = none))

/-- An admissible input with which no call on a socket throws. -/
def Undisturbed {S W : Type} (state : LoopState S) (input : Input S W) : Prop :=
  Admissible state input ∧ input.NoThrow

/-- Whether an input is undisturbed is decidable. -/
instance decidableUndisturbed {S W : Type} [DecidableEq S] (state : LoopState S)
    (input : Input S W) : Decidable (Undisturbed state input) :=
  inferInstanceAs (Decidable (_ ∧ _))

namespace Event

variable {S : Type}

/-- The connection an event is about. -/
def socket : Event S → Option S
  | acceptConnection client _ => some client
  | sendBytes client _ => some client
  | close client => some client
  | receiveBytes client _ => some client
  | packetHandler client _ => some client
  | handler event => some event.socket
  | erase client => some client
  | exit => none
  | throws socket => some socket

/-- The event is the acceptance of a connection. -/
def isAccept : Event S → Bool
  | acceptConnection _ _ => true
  | _ => false

/-- The packet type with which a packet handler was invoked. -/
def handledType : Event S → Option Word
  | packetHandler _ packetType => some packetType
  | _ => none

/-- The bytes that were received. -/
def received : Event S → Option (List UInt8)
  | receiveBytes _ (.bytes data) => some data
  | _ => none

/-- The message array of a packet that was dispatched to `CServer::ProcessPacket`. -/
def processed : Event S → Option (List UInt8)
  | handler (.processPacket _ message) => some message
  | _ => none

/-- The bytes that were sent. -/
def sent : Event S → Option (List UInt8)
  | sendBytes _ data => some data
  | handler (.sendBytes _ data) => some data
  | _ => none

end Event

/-- The events on a connection. -/
def eventsOf {S : Type} [DecidableEq S] (client : S) (tr : List (Event S)) : List (Event S) :=
  tr.filter fun e => e.socket = some client

/-- What happened on a connection since it was last returned by `acceptConnection`. -/
def session {S : Type} [DecidableEq S] (client : S) (tr : List (Event S)) : List (Event S) :=
  Trace.sinceLast Event.isAccept (eventsOf client tr)

end PocoEcho

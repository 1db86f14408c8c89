import Mathlib.Logic.Function.Basic
import PocoEcho.Client.Connection
import PocoEcho.Client.Runs
import PocoEcho.Library.Channel
import PocoEcho.Server.Admission

/-!
# Server and clients

The server program and any number of client programs, each with a connection of its own. A step is
one of the server's `main`, console or update thread, of the update thread or the console thread of
a client, or it is a part of a connection being established. Between the programs are two streams
for each connection. A connection and the socket object of the server for it have the same name.

The console thread of a client takes one step from the message that is entered to its last byte that
is sent, and `sendBytes` takes its whole buffer at once everywhere. What else the results about the
system assume is said by `EchoSystem.Admissible`.

## Main definitions

* `Connection`: a client program and the two streams of its connection;
* `EchoSystem`, `EchoSystem.Input`, `EchoSystem.Event` and `echoSystem`: the machine;
* `EchoSystem.Admissible`: the conditions of the runs, given how the streams deliver;
* `EchoSystem.enteredBy` and `EchoSystem.displayedBy`: what the user of a client enters and sees.
-/

namespace PocoEcho

open Poco

/-- Where the client program of a connection stands. -/
inductive ClientPhase
  /-- It has not connected. -/
  | idle
  /-- `TryClientStart` has connected and waits for the packet type. -/
  | handshake
  /-- `Run` has started its threads: the update thread is in `OnUpdate`, or has been. -/
  | running (loop : ClientState)
  /-- It has ended, or has done something undefined. -/
  | ended
  deriving DecidableEq

/-- A client program and the two streams of its connection. -/
structure Connection where
  /-- Where the program stands. -/
  phase : ClientPhase
  /-- The action manager of the program. -/
  manager : CActionManager
  /-- What the client has sent and the server has not received. -/
  upstream : Channel UInt8
  /-- What the server has sent and the client has not received. -/
  downstream : Channel UInt8
  /-- The server has closed its end. -/
  serverClosed : Bool

namespace Connection

/-- Before the client program connects. -/
def initial : Connection :=
  { phase := .idle
    manager := .new
    upstream := .empty
    downstream := .empty
    serverClosed := false }

/-- The client has closed its end. -/
def clientClosed (connection : Connection) : Bool :=
  match connection.phase with
  | .running loop => !loop.socketLive
  | .ended => true
  | _ => false

/-- A client that is not connected has closed nothing. -/
theorem clientClosed_of_idle {connection : Connection} (h : connection.phase = .idle) :
    connection.clientClosed = false := by
  rw [clientClosed, h]

theorem clientClosed_of_handshake {connection : Connection} (h : connection.phase = .handshake) :
    connection.clientClosed = false := by
  rw [clientClosed, h]

/-- A client whose threads have been started closes its end with the socket. -/
theorem clientClosed_of_running {connection : Connection} {loop : ClientState}
    (h : connection.phase = .running loop) : connection.clientClosed = !loop.socketLive := by
  rw [clientClosed, h]

/-- What the server does on the connection. -/
def observe {S : Type} (connection : Connection) : Event S → Connection
  | .sendBytes _ data => { connection with downstream := connection.downstream.send data }
  | .handler (.sendBytes _ data) =>
      { connection with downstream := connection.downstream.send data }
  | .receiveBytes _ (.bytes data) =>
      { connection with upstream := connection.upstream.receive data.length }
  | .close _ => { connection with serverClosed := true }
  | _ => connection

/-- What the update thread of the client does on the connection. -/
def observeClient (connection : Connection) : ClientEvent ConsoleEvent → Connection
  | .receiveBytes (.bytes data) =>
      { connection with downstream := connection.downstream.receive data.length }
  | _ => connection

end Connection

/-- The server program, the client programs, and the network between them. -/
structure EchoSystem (S : Type) where
  /-- The server program. -/
  program : ServerProgram S
  /-- The connections that are established and that the server has not accepted yet. -/
  backlog : List S
  /-- The connections with their clients. -/
  connection : S → Connection

namespace EchoSystem

/-- What happens next. -/
inductive Input (S : Type)
  /-- The server program takes a step. -/
  | server (input : ServerProgram.Input S)
  /-- `connectNB` of the client returns. -/
  | connectNB (client : S)
  /-- `TryConnect` goes on behind `connectNB`, and `Run` follows, with what is on the stack of the
  update thread. -/
  | tryConnect (client : S) (attempt : ConnectAttempt) (packetType : Word)
  /-- The update thread of the client takes a step. -/
  | client (client : S) (input : ClientInput)
  /-- A message is entered on the console of the client, and `ListenAction` sends it: nothing comes
  between. -/
  | enter (client : S) (szMessage : CString) (behind : List UInt8)

/-- What happens in a step. -/
inductive Event (S : Type)
  /-- The server program does something. -/
  | server (event : ServerProgram.Event S)
  /-- The update thread of a client does something. -/
  | client (client : S) (event : ClientEvent ConsoleEvent)
  /-- `ListenAction` of a client has sent a message. -/
  | entered (client : S) (szMessage : CString)

/-- Nothing has been started. -/
def initial (S : Type) : EchoSystem S :=
  { program := .initial S, backlog := [], connection := fun _ => .initial }

variable {S : Type}

/-- The listening socket, from a successful `TryStart` on. -/
def serverSocket (system : EchoSystem S) : Option S := system.program.network.bind (·.socket)

/-- The update thread of the server has closed its sockets. -/
def Exited (system : EchoSystem S) : Prop :=
  ∃ loop ∈ system.program.loop, loop.status = .exited

instance decidableExited (system : EchoSystem S) : Decidable system.Exited :=
  inferInstanceAs (Decidable (∃ loop ∈ system.program.loop, loop.status = .exited))

/-- The connections that `acceptConnection` has returned. -/
def accepted (events : List (PocoEcho.Event S)) : List S :=
  events.filterMap fun
    | .acceptConnection client _ => some client
    | _ => none

variable [DecidableEq S]

/-- The system after the server has done something. -/
def observe (system : EchoSystem S) (program : ServerProgram S)
    (events : List (PocoEcho.Event S)) : EchoSystem S :=
  { program
    backlog := system.backlog.diff (accepted events)
    connection := fun client =>
      (eventsOf client events).foldl Connection.observe (system.connection client) }

/-- The system with another connection. -/
def setConnection (system : EchoSystem S) (client : S) (connection : Connection) : EchoSystem S :=
  { system with connection := Function.update system.connection client connection }

/-- `TryConnect` behind `connectNB`, and `Run`: where the program stands afterwards. -/
def tryConnect (attempt : ConnectAttempt) (packetType : Word) : ClientPhase :=
  match (CClient.new : CClient Unit).tryConnect () attempt with
  | .ok (some true, client) =>
      match client.run packetType with
      | some loop => .running loop
      -- `Run` has returned at once, and `main` goes on to its end
      | none => .ended
  | _ => .ended

/-- `GetAction` with a message and `ListenAction` in one step, with the update thread in the given
state: `poll` and `sendBytes` do not wait, and the whole frame is taken. -/
def enter (connection : Connection) (loop : ClientState) (szMessage : CString)
    (behind : List UInt8) : Connection :=
  match CClient.listenAction ((connection.manager.storeMessage szMessage behind).setActionType 1)
  with
  | .ok (_, some buffer, manager) =>
      -- a deleted socket is used, too, which is undefined
      if loop.socketLive then
        { connection with manager, upstream := connection.upstream.send buffer.content }
      else { connection with phase := .ended }
  | _ => { connection with phase := .ended }

/-- One step; `none` when nobody waits for such an input. -/
def step (system : EchoSystem S) (input : Input S) : Option (EchoSystem S × List (Event S)) :=
  match input with
  | .server input =>
      (ServerProgram.step system.program input).map fun (program, events) =>
        (system.observe program (ServerProgram.loopEvents events), events.map .server)
  | .connectNB client =>
      match system.serverSocket, (system.connection client).phase with
      | some server, .idle =>
          if client = server ∨ system.Exited then none
          else
            let connection := { system.connection client with phase := .handshake }
            some ({ system.setConnection client connection with
              backlog := system.backlog ++ [client] }, [])
      | _, _ => none
  | .tryConnect client attempt packetType =>
      match (system.connection client).phase with
      | .handshake =>
          let connection := (system.connection client).observeClient
            (.receiveBytes attempt.handshake.receiveBytes)
          some (system.setConnection client
            { connection with phase := tryConnect attempt packetType }, [])
      | _ => none
  | .client client input =>
      match (system.connection client).phase with
      | .running loop =>
          ((clientLoop CClient.handlers).step loop input).map fun (loop, events) =>
            let connection := events.foldl Connection.observeClient (system.connection client)
            (system.setConnection client { connection with phase := .running loop },
              events.map (.client client))
      | _ => none
  | .enter client szMessage behind =>
      match (system.connection client).phase with
      | .running loop =>
          some (system.setConnection client
            (enter (system.connection client) loop szMessage behind), [.entered client szMessage])
      | _ => none

end EchoSystem

/-- Server and clients as a machine. -/
def echoSystem (S : Type) [DecidableEq S] :
    Machine (EchoSystem S) (EchoSystem.Input S) (EchoSystem.Event S) where
  step := EchoSystem.step

/-! ## The conditions of the runs -/

/-- How a stream delivers: what a receive with this much room may return. -/
abbrev Delivery := Channel UInt8 → ℕ → List UInt8 → Prop

/-- What a receive from a stream whose sender may have closed it comes to. -/
def Delivery.Allows (delivery : Delivery) (channel : Channel UInt8) (closed : Bool) (room : ℕ) :
    ReceiveResult → Prop
  | .bytes data => delivery channel room data
  | .shutdown => channel.bytes = [] ∧ closed = true
  | .negative => channel.bytes = [] ∧ closed = false
  | .throws => False

namespace EchoSystem

variable {S : Type} [DecidableEq S]

/-- The socket is ready: there is a connection to accept, or something to receive, or the client has
closed its end. -/
def Readable (system : EchoSystem S) (socket : S) : Prop :=
  if system.serverSocket = some socket then system.backlog ≠ []
  else (system.connection socket).upstream.bytes ≠ [] ∨
    (system.connection socket).clientClosed = true

/-- What the loop of the server meets. -/
def LoopAdmissible (delivery : Delivery) (system : EchoSystem S) (loop : LoopState S) :
    PocoEcho.Input S Unit → Prop
  | .select _ ready _ => ∀ socket ∈ ready, system.Readable socket
  | .accept client _ _ _ => client ∈ system.backlog
  | .receive result _ => ∀ client ∈ loop.readList.head?,
      delivery.Allows (system.connection client).upstream (system.connection client).clientClosed
        maxBufferLength result
  | _ => True

/-- What the update thread of a client meets. -/
def ClientAdmissible (delivery : Delivery) (connection : Connection) : ClientInput → Prop
  | .closeRequested => True
  | .poll ready =>
      ready = true → connection.downstream.bytes ≠ [] ∨ connection.serverClosed = true
  | .pollThrows => False
  | .receiveType result =>
      delivery.Allows connection.downstream connection.serverClosed 4 result
  | .receivePayload result env =>
      delivery.Allows connection.downstream connection.serverClosed maxBufferLength result ∧
        env.throwsAt = none

/-- The conditions of the runs:
* no call on a socket throws;
* `select` and `poll` report only sockets that are ready, a receive returns nothing only at the end
  of a stream, and a negative value only when there is nothing, which the server never meets;
* the packet type of the handshake is not misread, that is uninitialised memory does not turn a
  receive of less than four bytes into ACCEPT;
* a message that is entered fits the buffer, the memory behind its array is mapped, and the socket
  of its client exists. -/
def Admissible (delivery : Delivery) (system : EchoSystem S) : Input S → Prop
  | .server input =>
      system.program.Undisturbed input ∧ match input with
        | .loop input => ∀ loop ∈ system.program.loop, system.LoopAdmissible delivery loop input
        | _ => True
  | .connectNB _ => True
  | .tryConnect client attempt _ =>
      attempt.handshake.connectNB = true ∧ attempt.handshake.poll ≠ none ∧
        delivery.Allows (system.connection client).downstream
          (system.connection client).serverClosed 4 attempt.handshake.receiveBytes ∧
        ¬ attempt.handshake.Misread attempt.packetType
  | .client client input => ClientAdmissible delivery (system.connection client) input
  | .enter client szMessage behind =>
      szMessage.chars.length ≤ 1015 ∧ 2 ≤ behind.length ∧
        (system.connection client).clientClosed = false

instance decidableAllows (delivery : Delivery)
    [∀ channel room data, Decidable (delivery channel room data)] (channel : Channel UInt8)
    (closed : Bool) (room : ℕ) :
    ∀ result, Decidable (delivery.Allows channel closed room result)
  | .bytes data => inferInstanceAs (Decidable (delivery channel room data))
  | .shutdown => inferInstanceAs (Decidable (channel.bytes = [] ∧ closed = true))
  | .negative => inferInstanceAs (Decidable (channel.bytes = [] ∧ closed = false))
  | .throws => inferInstanceAs (Decidable False)

instance decidableReadable (system : EchoSystem S) (socket : S) :
    Decidable (system.Readable socket) :=
  inferInstanceAs (Decidable (if system.serverSocket = some socket then system.backlog ≠ []
    else (system.connection socket).upstream.bytes ≠ [] ∨
      (system.connection socket).clientClosed = true))

section Decidable

variable (delivery : Delivery) [∀ channel room data, Decidable (delivery channel room data)]

instance decidableLoopAdmissible (system : EchoSystem S) (loop : LoopState S) :
    ∀ input, Decidable (system.LoopAdmissible delivery loop input)
  | .closeRequested => inferInstanceAs (Decidable True)
  | .select _ ready _ => inferInstanceAs (Decidable (∀ socket ∈ ready, system.Readable socket))
  | .accept client _ _ _ => inferInstanceAs (Decidable (client ∈ system.backlog))
  | .receive result _ => inferInstanceAs (Decidable (∀ client ∈ loop.readList.head?,
      delivery.Allows (system.connection client).upstream (system.connection client).clientClosed
        maxBufferLength result))
  | .drop _ => inferInstanceAs (Decidable True)

instance decidableClientAdmissible (connection : Connection) :
    ∀ input, Decidable (ClientAdmissible delivery connection input)
  | .closeRequested => inferInstanceAs (Decidable True)
  | .poll ready => inferInstanceAs (Decidable
      (ready = true → connection.downstream.bytes ≠ [] ∨ connection.serverClosed = true))
  | .pollThrows => inferInstanceAs (Decidable False)
  | .receiveType result => inferInstanceAs (Decidable
      (delivery.Allows connection.downstream connection.serverClosed 4 result))
  | .receivePayload result env => inferInstanceAs (Decidable
      (delivery.Allows connection.downstream connection.serverClosed maxBufferLength result ∧
        env.throwsAt = none))

/-- Whether an input is admissible is decidable when it is decidable what a receive may return. -/
instance decidableAdmissible (system : EchoSystem S) :
    ∀ input, Decidable (Admissible delivery system input)
  | .server input =>
      have : Decidable (match input with
          | .loop input => ∀ loop ∈ system.program.loop, system.LoopAdmissible delivery loop input
          | _ => True) := by
        cases input <;> infer_instance
      instDecidableAnd
  | .connectNB _ => inferInstanceAs (Decidable True)
  | .tryConnect client attempt _ => inferInstanceAs (Decidable
      (attempt.handshake.connectNB = true ∧ attempt.handshake.poll ≠ none ∧
        delivery.Allows (system.connection client).downstream
          (system.connection client).serverClosed 4 attempt.handshake.receiveBytes ∧
        ¬ attempt.handshake.Misread attempt.packetType))
  | .client client input =>
      inferInstanceAs (Decidable (ClientAdmissible delivery (system.connection client) input))
  | .enter client szMessage behind => inferInstanceAs (Decidable
      (szMessage.chars.length ≤ 1015 ∧ 2 ≤ behind.length ∧
        (system.connection client).clientClosed = false))

end Decidable

/-- The states that the system reaches under these conditions, when the streams deliver in the given
way. -/
abbrev Reaches (delivery : Delivery) : EchoSystem S → List (Event S) → Prop :=
  (echoSystem S).Reachable (Admissible delivery) (initial S)

/-! ## Weaker promises -/

section Mono

variable {delivery delivery' : Delivery}

omit [DecidableEq S] in
theorem allows_mono
    (h : ∀ channel room data, delivery channel room data → delivery' channel room data)
    {channel : Channel UInt8} {closed : Bool} {room : ℕ} {result : ReceiveResult}
    (hallows : delivery.Allows channel closed room result) :
    delivery'.Allows channel closed room result := by
  cases result with
  | bytes data => exact h _ _ _ hallows
  | shutdown => exact hallows
  | negative => exact hallows
  | throws => exact hallows

/-- What is admissible stays so when less is known about the streams. -/
theorem Admissible.mono
    (h : ∀ channel room data, delivery channel room data → delivery' channel room data)
    {system : EchoSystem S} {input : Input S} (hadm : Admissible delivery system input) :
    Admissible delivery' system input := by
  cases input with
  | server input =>
      refine ⟨hadm.1, ?_⟩
      cases input with
      | loop input =>
          intro loop hloop
          have hinput := hadm.2 loop hloop
          cases input with
          | receive result env => exact fun client hclient => allows_mono h (hinput client hclient)
          | _ => exact hinput
      | _ => trivial
  | connectNB client => trivial
  | tryConnect client attempt packetType =>
      exact ⟨hadm.1, hadm.2.1, allows_mono h hadm.2.2.1, hadm.2.2.2⟩
  | client client input =>
      cases input with
      | receiveType result => exact allows_mono h hadm
      | receivePayload result env => exact ⟨allows_mono h hadm.1, hadm.2⟩
      | _ => exact hadm
  | enter client szMessage behind => exact hadm

/-- A run in which each receive returns what was sent with one call is a run in which the streams
deliver. -/
theorem Reaches.delivers {system : EchoSystem S} {tr : List (Event S)}
    (h : Reaches Channel.DeliversSegment system tr) : Reaches Channel.Delivers system tr :=
  h.mono fun _ _ hadm => hadm.mono fun _ _ _ => Channel.DeliversSegment.delivers

end Mono

/-! ## What the users see -/

/-- What the server program does. -/
def Event.serverEvent : Event S → Option (ServerProgram.Event S)
  | server event => some event
  | _ => none

/-- What the server program has done. -/
def serverEvents (tr : List (Event S)) : List (ServerProgram.Event S) :=
  tr.filterMap Event.serverEvent

/-- The message that the user of a client enters. -/
def Event.enteredBy (client : S) : Event S → Option CString
  | entered client' szMessage => if client' = client then some szMessage else none
  | _ => none

/-- The string that a client displays as a message of the server. -/
def Event.displayedBy (client : S) : Event S → Option CString
  | .client client' event => if client' = client then event.displayed else none
  | _ => none

/-- The messages that the user of a client has entered. -/
def enteredBy (client : S) (tr : List (Event S)) : List CString :=
  tr.filterMap (Event.enteredBy client)

/-- The strings that a client has displayed. -/
def displayedBy (client : S) (tr : List (Event S)) : List CString :=
  tr.filterMap (Event.displayedBy client)

@[simp]
theorem enteredBy_append (client : S) (tr es : List (Event S)) :
    enteredBy client (tr ++ es) = enteredBy client tr ++ enteredBy client es :=
  List.filterMap_append

end EchoSystem

end PocoEcho

import PocoEcho.Library.Logged
import PocoEcho.Library.Machine
import PocoEcho.Network.Environment
import PocoEcho.Network.Packets

/-!
# The client loop

`CNetwork::OnUpdate` as a machine. An iteration waits for data, receives a packet type with one call
and the rest with another, and invokes the registered handlers. A step is one call on the socket, or
a close request that is found at the head of the waiting loop or behind it.

## Main definitions

* `ClientState`, `ClientInput`, `ClientEvent` and `clientLoop`: the machine;
* `ClientAdmissible`: what the socket library promises about its results.

## Main results

* `ClientLoop.branch_of_step`: what a step does, by where the function stands;
* `ClientLoop.progress_of_step`: the steps in which no call throws.
-/

namespace PocoEcho

open Poco

/-- Where in an iteration `OnUpdate` stands. -/
inductive ClientPoint
  /-- It waits for data. -/
  | poll
  /-- It is about to receive a packet type. -/
  | packetType
  /-- It is about to receive into the buffer. -/
  | payload
  deriving DecidableEq

/-- The local variables of `CNetwork::OnUpdate`, and what has become of its socket. -/
@[ext]
structure ClientState where
  /-- The local `packetType`, which is kept from one iteration to the next. -/
  packetType : Word
  /-- Where the function stands. -/
  point : ClientPoint
  /-- `Exit` has not deleted the socket yet. -/
  socketLive : Bool
  /-- Whether the function is still in its loop. -/
  status : LoopStatus
  deriving DecidableEq

/-- What the environment contributes to one step of the loop. -/
inductive ClientInput
  /-- `m_bCloseRequested` is found set. -/
  | closeRequested
  /-- `poll` says whether there is something to read. -/
  | poll (ready : Bool)
  /-- `poll` throws. -/
  | pollThrows
  /-- The result of the `receiveBytes` for the packet type. -/
  | receiveType (result : ReceiveResult)
  /-- The result of the `receiveBytes` into the buffer. -/
  | receivePayload (result : ReceiveResult) (env : HandlerEnv)

/-- What the loop does, in the order in which it does it; `H` are the events of the handlers. -/
inductive ClientEvent (H : Type)
  /-- `poll` returned. -/
  | poll (ready : Bool)
  /-- `receiveBytes` returned. -/
  | receiveBytes (result : ReceiveResult)
  /-- A registered packet handler is invoked. -/
  | packetHandler (packetType : Word)
  /-- A handler does something. -/
  | handler (event : H)
  /-- `Exit` is called. -/
  | exit
  /-- A call on the socket throws. -/
  | throws
  /-- A member function of the deleted socket is called. -/
  | useAfterDelete
  deriving DecidableEq

/-- `pfnPacketHandler` on the client, which has one socket only. -/
abbrev ClientHandler (H : Type) := HandlerEnv → FIFOBuffer → Word → Logged H Fault FIFOBuffer

namespace ClientLoop

variable {H : Type}

/-- `Exit` begins with `assert(m_pSocket)`, and deletes the socket. -/
def exit (state : ClientState) : Logged (ClientEvent H) Fault ClientState := do
  Logged.emit .exit
  if state.socketLive then return { state with socketLive := false }
  else Logged.throw .accessViolation

/-- What follows the loop. -/
def leave (state : ClientState) : Logged (ClientEvent H) Fault ClientState := do
  let state ← exit state
  return { state with status := .exited }

/-- The `try` block in a state: its handler calls `Exit` but does not leave the loop. -/
def tryCatch (state : ClientState) (block : Logged (ClientEvent H) Fault ClientState) :
    Logged (ClientEvent H) Fault ClientState :=
  match block.result with
  -- only `Poco::Exception` is caught, and the loop goes on without socket
  | .error .pocoException => do
      ⟨block.log, .ok ()⟩
      let state ← exit state
      return { state with point := .poll }
  | _ => block

/-- A call on the socket, which goes on using the socket when it has been deleted. -/
def onSocket (state : ClientState) (call : Logged (ClientEvent H) Fault ClientState) :
    Logged (ClientEvent H) Fault ClientState :=
  if state.socketLive then tryCatch state call
  else ⟨[.useAfterDelete], .error .accessViolation⟩

/-- Every registered handler in turn is invoked on the same buffer. -/
def dispatch (handlers : List (ClientHandler H)) (env : HandlerEnv) (packetType : Word)
    (buffer : FIFOBuffer) : Logged (ClientEvent H) Fault FIFOBuffer :=
  handlers.foldlM
    (fun buffer handlerFunction => do
      Logged.emit (.packetHandler packetType)
      (handlerFunction env buffer packetType).mapLog .handler)
    buffer

/-- The `receiveBytes` for the packet type. Its result is only compared with zero. -/
def receiveType (state : ClientState) (result : ReceiveResult) :
    Logged (ClientEvent H) Fault ClientState :=
  match result with
  | .throws => ⟨[.throws], .error .pocoException⟩
  | .shutdown => do
      Logged.emit (.receiveBytes .shutdown)
      leave state
  -- nothing is stored, but the second `receiveBytes` follows all the same
  | .negative => do
      Logged.emit (.receiveBytes .negative)
      return { state with point := .payload }
  | .bytes data => do
      Logged.emit (.receiveBytes (.bytes data))
      -- fewer than four bytes overwrite a part of the variable only
      return { state with packetType := state.packetType.overwrite data, point := .payload }

/-- What follows a `receiveBytes` that stored `data` in the fresh buffer. -/
def handleData (handlers : List (ClientHandler H)) (state : ClientState) (data : List UInt8)
    (env : HandlerEnv) : Logged (ClientEvent H) Fault ClientState := do
  let buffer := (BoundedQueue.empty maxBufferLength).write data
  let _ ← dispatch handlers env state.packetType buffer
  return { state with point := .poll }

/-- The `receiveBytes` into the buffer. -/
def receivePayload (handlers : List (ClientHandler H)) (state : ClientState)
    (result : ReceiveResult) (env : HandlerEnv) : Logged (ClientEvent H) Fault ClientState :=
  match result with
  | .throws => ⟨[.throws], .error .pocoException⟩
  | .shutdown => do
      Logged.emit (.receiveBytes .shutdown)
      leave state
  | .negative => do
      Logged.emit (.receiveBytes .negative)
      handleData handlers state [] env
  | .bytes data => do
      Logged.emit (.receiveBytes (.bytes data))
      handleData handlers state data env

/-- What the function does on an input; `none` when it does not wait for such an input. -/
def onUpdate (handlers : List (ClientHandler H)) (state : ClientState) (input : ClientInput) :
    Option (Logged (ClientEvent H) Fault ClientState) :=
  if state.status ≠ .running then none
  else
    match state.point, input with
    | .poll, .closeRequested => some (leave state)
    | .poll, .poll ready =>
        some (onSocket state do
          Logged.emit (.poll ready)
          return if ready then { state with point := .packetType } else state)
    | .poll, .pollThrows => some (onSocket state ⟨[.throws], .error .pocoException⟩)
    -- the flag is read once more behind the waiting loop
    | .packetType, .closeRequested => some (leave state)
    | .packetType, .receiveType result => some (onSocket state (receiveType state result))
    | .payload, .receivePayload result env =>
        some (onSocket state (receivePayload handlers state result env))
    | _, _ => none

/-- The state after a call, and its events: an exception that the `catch` does not stop leaves the
function for good. -/
def settle (state : ClientState) (outcome : Logged (ClientEvent H) Fault ClientState) :
    ClientState × List (ClientEvent H) :=
  match outcome.result with
  | .ok state' => (state', outcome.log)
  | .error fault => ({ state with status := .thrown fault }, outcome.log)

/-- One step. -/
def step (handlers : List (ClientHandler H)) (state : ClientState) (input : ClientInput) :
    Option (ClientState × List (ClientEvent H)) :=
  (onUpdate handlers state input).map (settle state)

end ClientLoop

/-- `CNetwork::OnUpdate` with the given handlers. -/
def clientLoop {H : Type} (handlers : List (ClientHandler H)) :
    Machine ClientState ClientInput (ClientEvent H) where
  step := ClientLoop.step handlers

/-- The state in which `OnUpdate` enters its loop; `packetType` holds whatever was on the stack. -/
def ClientState.initial (packetType : Word) : ClientState :=
  { packetType, point := .poll, socketLive := true, status := .running }

/-- What the socket library promises: a `receiveBytes` that receives something receives at least one
byte, and no more than there is room for. -/
def ClientAdmissible : ClientInput → Prop
  | .receiveType (.bytes data) => data ≠ [] ∧ data.length ≤ 4
  | .receivePayload (.bytes data) _ => data ≠ [] ∧ data.length ≤ maxBufferLength
  | _ => True

/-- Whether an input is admissible is decidable. -/
instance decidableClientAdmissible : ∀ input, Decidable (ClientAdmissible input)
  | .closeRequested => inferInstanceAs (Decidable True)
  | .poll _ => inferInstanceAs (Decidable True)
  | .pollThrows => inferInstanceAs (Decidable True)
  | .receiveType (.bytes data) => inferInstanceAs (Decidable (data ≠ [] ∧ data.length ≤ 4))
  | .receiveType .shutdown => inferInstanceAs (Decidable True)
  | .receiveType .negative => inferInstanceAs (Decidable True)
  | .receiveType .throws => inferInstanceAs (Decidable True)
  | .receivePayload (.bytes data) _ =>
      inferInstanceAs (Decidable (data ≠ [] ∧ data.length ≤ maxBufferLength))
  | .receivePayload .shutdown _ => inferInstanceAs (Decidable True)
  | .receivePayload .negative _ => inferInstanceAs (Decidable True)
  | .receivePayload .throws _ => inferInstanceAs (Decidable True)

/-- No call on the socket throws in this step. -/
def ClientInput.NoThrow : ClientInput → Prop
  | .closeRequested => True
  | .poll _ => True
  | .pollThrows => False
  | .receiveType result => result ≠ .throws
  | .receivePayload result env => result ≠ .throws ∧ env.throwsAt = none

/-- Whether no call on the socket throws is decidable. -/
instance decidableClientNoThrow : ∀ input : ClientInput, Decidable input.NoThrow
  | .closeRequested => inferInstanceAs (Decidable True)
  | .poll _ => inferInstanceAs (Decidable True)
  | .pollThrows => inferInstanceAs (Decidable False)
  | .receiveType result => inferInstanceAs (Decidable (result ≠ .throws))
  | .receivePayload result env =>
      inferInstanceAs (Decidable (result ≠ .throws ∧ env.throwsAt = none))

/-- An admissible input with which no call on the socket throws. -/
def ClientUndisturbed (_state : ClientState) (input : ClientInput) : Prop :=
  ClientAdmissible input ∧ input.NoThrow

/-- Whether an input is undisturbed is decidable. -/
instance decidableClientUndisturbed (state : ClientState) (input : ClientInput) :
    Decidable (ClientUndisturbed state input) :=
  inferInstanceAs (Decidable (_ ∧ _))

/-- The bytes that a `receiveBytes` stores. -/
def ReceiveResult.data : ReceiveResult → List UInt8
  | .bytes data => data
  | _ => []

namespace ClientEvent

variable {H : Type}

/-- What a `receiveBytes` returned, as long as the connection is open. -/
def received : ClientEvent H → Option ReceiveResult
  | receiveBytes .shutdown => none
  | receiveBytes result => some result
  | _ => none

/-- What a handler did. -/
def handled : ClientEvent H → Option H
  | handler event => some event
  | _ => none

end ClientEvent

namespace ClientLoop

variable {H : Type} {handlers : List (ClientHandler H)}

/-- The steps in which no call throws and no handler throws a `Poco::Exception`, from a state with
a live socket. -/
inductive Progress (handlers : List (ClientHandler H)) (state : ClientState) :
    ClientInput → ClientState → List (ClientEvent H) → Prop
  /-- A close request is found. -/
  | close (hpoint : state.point ≠ .payload) :
      Progress handlers state .closeRequested
        { state with socketLive := false, status := .exited } [.exit]
  /-- There is nothing to read, or something. -/
  | poll (hpoint : state.point = .poll) (ready : Bool) :
      Progress handlers state (.poll ready)
        { state with point := if ready then .packetType else .poll } [.poll ready]
  /-- The peer has shut the connection down when the packet type is to be received. -/
  | typeShutdown (hpoint : state.point = .packetType) :
      Progress handlers state (.receiveType .shutdown)
        { state with socketLive := false, status := .exited } [.receiveBytes .shutdown, .exit]
  /-- A packet type is received, or nothing is there. -/
  | type (hpoint : state.point = .packetType) {result : ReceiveResult}
      (hresult : result = .negative ∨ ∃ data, result = .bytes data) :
      Progress handlers state (.receiveType result)
        { state with packetType := state.packetType.overwrite result.data, point := .payload }
        [.receiveBytes result]
  /-- The peer has shut the connection down when the rest is to be received. -/
  | payloadShutdown (hpoint : state.point = .payload) (env : HandlerEnv) :
      Progress handlers state (.receivePayload .shutdown env)
        { state with socketLive := false, status := .exited } [.receiveBytes .shutdown, .exit]
  /-- The rest is received, or nothing is there, and the handlers return. -/
  | payload (hpoint : state.point = .payload) {result : ReceiveResult}
      (hresult : result = .negative ∨ ∃ data, result = .bytes data) {env : HandlerEnv}
      (hok : ∃ buffer, (dispatch handlers env state.packetType
        ((BoundedQueue.empty maxBufferLength).write result.data)).result = .ok buffer) :
      Progress handlers state (.receivePayload result env) { state with point := .poll }
        (.receiveBytes result :: (dispatch handlers env state.packetType
          ((BoundedQueue.empty maxBufferLength).write result.data)).log)
  /-- The rest is received, or nothing is there, and a handler does not return. -/
  | thrown (hpoint : state.point = .payload) {result : ReceiveResult}
      (hresult : result = .negative ∨ ∃ data, result = .bytes data) {env : HandlerEnv}
      {fault : Fault} (hfault : fault ≠ .pocoException)
      (herror : (dispatch handlers env state.packetType
        ((BoundedQueue.empty maxBufferLength).write result.data)).result = .error fault) :
      Progress handlers state (.receivePayload result env) { state with status := .thrown fault }
        (.receiveBytes result :: (dispatch handlers env state.packetType
          ((BoundedQueue.empty maxBufferLength).write result.data)).log)

/-- Handlers that are left by a `Poco::Exception` only when a call on the socket throws. -/
def Careful (handlers : List (ClientHandler H)) : Prop :=
  ∀ env packetType buffer, env.throwsAt = none →
    (dispatch handlers env packetType buffer).result ≠ .error .pocoException

/-- A `try` block that throws nothing the `catch` stops. -/
theorem tryCatch_of_ne {state : ClientState} {block : Logged (ClientEvent H) Fault ClientState}
    (h : block.result ≠ .error .pocoException) : tryCatch state block = block := by
  unfold tryCatch
  split
  next heq => exact absurd heq h
  next => rfl

/-- A call on a live socket that throws nothing the `catch` stops. -/
theorem onSocket_of_ne {state : ClientState} {block : Logged (ClientEvent H) Fault ClientState}
    (hlive : state.socketLive = true) (h : block.result ≠ .error .pocoException) :
    onSocket state block = block := by
  rw [onSocket, if_pos hlive, tryCatch_of_ne h]

/-- A call on a live socket that returns. -/
theorem settle_onSocket_of_ok {state state' : ClientState}
    {call : Logged (ClientEvent H) Fault ClientState} (hlive : state.socketLive = true)
    (h : call.result = .ok state') : settle state (onSocket state call) = (state', call.log) := by
  rw [onSocket_of_ne hlive (by rw [h]; simp), settle, h]

/-- Leaving the loop with a live socket. -/
theorem leave_of_live {state : ClientState} (hlive : state.socketLive = true) :
    (leave state : Logged (ClientEvent H) Fault ClientState) =
      ⟨[.exit], .ok { state with socketLive := false, status := .exited }⟩ := by
  simp only [leave, exit, hlive, if_true]
  rfl

/-- Leaving the loop with a live socket because the peer has shut the connection down. -/
theorem shutdown_of_live {state : ClientState} (hlive : state.socketLive = true) :
    (do
      Logged.emit (.receiveBytes .shutdown)
      leave state : Logged (ClientEvent H) Fault ClientState) =
      ⟨[.receiveBytes .shutdown, .exit],
        .ok { state with socketLive := false, status := .exited }⟩ := by
  rw [leave_of_live hlive]
  rfl

/-- Handling what was received, in terms of the handlers. -/
theorem handleData_eq (handlers : List (ClientHandler H)) (state : ClientState)
    (data : List UInt8) (env : HandlerEnv) :
    handleData handlers state data env =
      ⟨(dispatch handlers env state.packetType
          ((BoundedQueue.empty maxBufferLength).write data)).log,
        (dispatch handlers env state.packetType
          ((BoundedQueue.empty maxBufferLength).write data)).result.map
            fun _ => { state with point := .poll }⟩ := by
  rw [handleData]
  -- the handlers return, or `handleData` is left by their exception
  cases h : (dispatch handlers env state.packetType
      ((BoundedQueue.empty maxBufferLength).write data)).result with
  | error fault =>
      rw [Logged.bind_of_error h]
      rfl
  | ok buffer =>
      rw [Logged.bind_of_ok h]
      simp [Except.map]

/-- Receiving into the buffer, unless the connection is closed or the call throws. -/
theorem receivePayload_eq (handlers : List (ClientHandler H)) (state : ClientState)
    {result : ReceiveResult} (hresult : result = .negative ∨ ∃ data, result = .bytes data)
    (env : HandlerEnv) :
    receivePayload handlers state result env =
      ⟨.receiveBytes result :: (handleData handlers state result.data env).log,
        (handleData handlers state result.data env).result⟩ := by
  rcases hresult with rfl | ⟨data, rfl⟩ <;> rfl

/-- The branches of the function in a running state, each with where the function stands and what it
does. -/
inductive Branch (handlers : List (ClientHandler H)) (state : ClientState) :
    ClientInput → Logged (ClientEvent H) Fault ClientState → Prop
  /-- A close request is found. -/
  | close (hpoint : state.point ≠ .payload) :
      Branch handlers state .closeRequested (leave state)
  /-- `poll` returns. -/
  | poll (hpoint : state.point = .poll) (ready : Bool) :
      Branch handlers state (.poll ready)
        (onSocket state ⟨[.poll ready],
          .ok { state with point := if ready then .packetType else .poll }⟩)
  /-- `poll` throws. -/
  | pollThrows (hpoint : state.point = .poll) :
      Branch handlers state .pollThrows (onSocket state ⟨[.throws], .error .pocoException⟩)
  /-- The `receiveBytes` for the packet type. -/
  | type (hpoint : state.point = .packetType) (result : ReceiveResult) :
      Branch handlers state (.receiveType result) (onSocket state (receiveType state result))
  /-- The `receiveBytes` into the buffer. -/
  | payload (hpoint : state.point = .payload) (result : ReceiveResult) (env : HandlerEnv) :
      Branch handlers state (.receivePayload result env)
        (onSocket state (receivePayload handlers state result env))

/-- Whatever the function does, it does in one of its branches. -/
theorem branch_of_onUpdate {state : ClientState} {input : ClientInput}
    {outcome : Logged (ClientEvent H) Fault ClientState}
    (hup : onUpdate handlers state input = some outcome) :
    state.status = .running ∧ Branch handlers state input outcome := by
  unfold onUpdate at hup
  split at hup
  · cases hup
  next hrun =>
    refine ⟨by simpa using hrun, ?_⟩
    split at hup
    next hpoint =>
      obtain rfl := Option.some.inj hup
      exact .close (by simp [hpoint])
    next ready hpoint =>
      obtain rfl := Option.some.inj hup
      have hstate : (if ready then { state with point := .packetType } else state) =
          { state with point := if ready then .packetType else .poll } := by
        cases ready with
        | true => rfl
        | false => simp [← hpoint]
      rw [hstate]
      exact .poll hpoint ready
    next hpoint =>
      obtain rfl := Option.some.inj hup
      exact .pollThrows hpoint
    next hpoint =>
      obtain rfl := Option.some.inj hup
      exact .close (by simp [hpoint])
    next result hpoint =>
      obtain rfl := Option.some.inj hup
      exact .type hpoint result
    next result env hpoint =>
      obtain rfl := Option.some.inj hup
      exact .payload hpoint result env
    next => cases hup

/-- A step settles the outcome of a branch. -/
theorem branch_of_step {state : ClientState} {input : ClientInput}
    {p : ClientState × List (ClientEvent H)} (h : step handlers state input = some p) :
    state.status = .running ∧
      ∃ outcome, Branch handlers state input outcome ∧ settle state outcome = p := by
  obtain ⟨outcome, hup, hsettle⟩ := Option.map_eq_some_iff.mp h
  obtain ⟨hrun, hbranch⟩ := branch_of_onUpdate hup
  exact ⟨hrun, outcome, hbranch, hsettle⟩

/-- A loop that has been left takes no step. -/
theorem running_of_step {state : ClientState} {input : ClientInput}
    {p : ClientState × List (ClientEvent H)} (h : step handlers state input = some p) :
    state.status = .running :=
  (branch_of_step h).1

/-- Receiving into the buffer with careful handlers: they return, or the loop is left. -/
theorem settle_receivePayload (hcareful : Careful handlers) {state : ClientState}
    (hlive : state.socketLive = true) {result : ReceiveResult}
    (hresult : result = .negative ∨ ∃ data, result = .bytes data) {env : HandlerEnv}
    (henv : env.throwsAt = none) :
    settle state (onSocket state (receivePayload handlers state result env)) =
      (match (dispatch handlers env state.packetType
          ((BoundedQueue.empty maxBufferLength).write result.data)).result with
        | .ok _ => { state with point := .poll }
        | .error fault => { state with status := .thrown fault },
        .receiveBytes result :: (dispatch handlers env state.packetType
          ((BoundedQueue.empty maxBufferLength).write result.data)).log) := by
  have hpoco := hcareful env state.packetType
    ((BoundedQueue.empty maxBufferLength).write result.data) henv
  have hreceive := receivePayload_eq handlers state hresult env
  rw [handleData_eq] at hreceive
  cases hd : (dispatch handlers env state.packetType
      ((BoundedQueue.empty maxBufferLength).write result.data)).result with
  | error fault =>
      rw [hd] at hreceive hpoco
      have hfault : fault ≠ .pocoException := fun heq => hpoco (congrArg Except.error heq)
      rw [onSocket_of_ne hlive (by simpa [hreceive, Except.map] using hfault), hreceive]
      rfl
  | ok buffer =>
      rw [hd] at hreceive
      rw [onSocket_of_ne hlive (by simp [hreceive, Except.map]), hreceive]
      rfl

/-- Receiving into the buffer is one of the steps listed. -/
theorem progress_of_receivePayload (hcareful : Careful handlers) {state : ClientState}
    (hlive : state.socketLive = true) (hpoint : state.point = .payload) {result : ReceiveResult}
    (hresult : result = .negative ∨ ∃ data, result = .bytes data) {env : HandlerEnv}
    (henv : env.throwsAt = none) {state' : ClientState} {es : List (ClientEvent H)}
    (h : settle state (onSocket state (receivePayload handlers state result env)) =
      (state', es)) :
    Progress handlers state (.receivePayload result env) state' es := by
  rw [settle_receivePayload hcareful hlive hresult henv] at h
  cases hd : (dispatch handlers env state.packetType
      ((BoundedQueue.empty maxBufferLength).write result.data)).result with
  | error fault =>
      rw [hd] at h
      cases h
      have hpoco := hcareful env state.packetType
        ((BoundedQueue.empty maxBufferLength).write result.data) henv
      -- the `catch` would have stopped a `Poco::Exception`
      exact .thrown hpoint hresult (fun heq => hpoco (heq ▸ hd)) hd
  | ok buffer =>
      rw [hd] at h
      cases h
      exact .payload hpoint hresult ⟨buffer, hd⟩

/-- With careful handlers, the steps in which no call throws are the ones listed. -/
theorem progress_of_step (hcareful : Careful handlers) {state state' : ClientState}
    {input : ClientInput} {es : List (ClientEvent H)} (hlive : state.socketLive = true)
    (hinput : input.NoThrow) (hs : step handlers state input = some (state', es)) :
    Progress handlers state input state' es := by
  obtain ⟨-, outcome, hbranch, hsettle⟩ := branch_of_step hs
  cases hbranch with
  | close hpoint =>
      rw [leave_of_live hlive] at hsettle
      cases hsettle
      exact .close hpoint
  | poll hpoint ready =>
      rw [settle_onSocket_of_ok hlive rfl] at hsettle
      cases hsettle
      exact .poll hpoint ready
  | pollThrows => exact hinput.elim
  | type hpoint result =>
      cases result with
      | bytes data =>
          rw [settle_onSocket_of_ok hlive rfl] at hsettle
          cases hsettle
          exact .type hpoint (.inr ⟨data, rfl⟩)
      | shutdown =>
          rw [receiveType, shutdown_of_live hlive, settle_onSocket_of_ok hlive rfl] at hsettle
          cases hsettle
          exact .typeShutdown hpoint
      | negative =>
          rw [settle_onSocket_of_ok hlive rfl] at hsettle
          cases hsettle
          -- nothing received is the case of an empty read
          have hnegative := @Progress.type H handlers state hpoint .negative (.inl rfl)
          simp only [ReceiveResult.data, Word.overwrite_nil] at hnegative
          exact hnegative
      | throws => exact absurd rfl hinput
  | payload hpoint result env =>
      cases result with
      | bytes data =>
          exact progress_of_receivePayload hcareful hlive hpoint (.inr ⟨data, rfl⟩) hinput.2 hsettle
      | shutdown =>
          rw [receivePayload, shutdown_of_live hlive, settle_onSocket_of_ok hlive rfl] at hsettle
          cases hsettle
          exact .payloadShutdown hpoint env
      | negative =>
          exact progress_of_receivePayload hcareful hlive hpoint (.inl rfl) hinput.2 hsettle
      | throws => exact absurd rfl hinput.1

end ClientLoop

end PocoEcho

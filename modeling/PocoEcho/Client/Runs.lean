import PocoEcho.Client.CClient
import PocoEcho.Network.ClientLoop

/-!
# Runs of the client

`CClient` registers a single packet handler. What an iteration of `CNetwork::OnUpdate` displays is
therefore decided by the packet type that it ends up with and the bytes behind it.

## Main results

* `dispatch_handlers`: dispatching a packet is invoking the handler once;
* `progress_of_reaches`: the steps of a run in which no call throws;
* `run_iteration`: what one iteration comes to.
-/

namespace PocoEcho

open Poco

/-- The string that is displayed. -/
def ConsoleEvent.displayed : ConsoleEvent → Option CString
  | message szMessage => some szMessage
  | _ => none

/-- The string that a step of the client displays. -/
def ClientEvent.displayed (e : ClientEvent ConsoleEvent) : Option CString :=
  e.handled.bind ConsoleEvent.displayed

namespace CClient

open ClientLoop

/-- The handlers that `TryConnect` registers. -/
def handlers : List (ClientHandler ConsoleEvent) := [packetHandler]

/-- The packet types under which a message is displayed. -/
def displayTypes : List Word := [PacketType.accept.word, PacketType.message.word]

/-- Without a failing call, a packet of type ACCEPT is displayed like a MESSAGE. -/
theorem packetHandler_of_mem (stray : Stray) (buffer : FIFOBuffer) {packetType : Word}
    (h : packetType ∈ displayTypes) :
    packetHandler ⟨stray, none⟩ buffer packetType = displayMessage stray buffer := by
  rcases List.mem_pair.mp h with rfl | rfl
  · rfl
  · rfl

/-- A packet of any other type is reported. -/
theorem packetHandler_of_notMem (env : HandlerEnv) (buffer : FIFOBuffer) {packetType : Word}
    (h : packetType ∉ displayTypes) :
    packetHandler env buffer packetType = ⟨[.unknownPacket packetType], .ok buffer⟩ := by
  have haccept : PacketType.ofWord packetType ≠ some .accept :=
    fun heq => h (by simp [displayTypes, PacketType.ofWord_eq_some_iff.mp heq])
  have hmessage : PacketType.ofWord packetType ≠ some .message :=
    fun heq => h (by simp [displayTypes, PacketType.ofWord_eq_some_iff.mp heq])
  unfold packetHandler
  split
  next heq => exact absurd heq haccept
  next heq => exact absurd heq hmessage
  next => rfl

/-- Displaying a message never throws a `Poco::Exception`. -/
theorem displayMessage_ne (stray : Stray) (buffer : FIFOBuffer) :
    (displayMessage stray buffer).result ≠ .error .pocoException := by
  cases hdecode : MessageBody.decode stray buffer with
  | error fault =>
      rw [displayMessage_of_error hdecode]
      -- what `new char[]` throws is no `Poco::Exception`
      rintro heq
      obtain rfl := Except.error.inj heq
      exact MessageBody.decode_ne_pocoException stray buffer hdecode
  | ok p =>
      obtain ⟨szMessage, rest⟩ := p
      rw [displayMessage_of_decode hdecode]
      cases szMessage.cString <;> simp

/-- Dispatching a packet is invoking the handler once. -/
theorem dispatch_handlers (env : HandlerEnv) (packetType : Word) (buffer : FIFOBuffer) :
    dispatch handlers env packetType buffer =
      ⟨.packetHandler packetType :: (packetHandler env buffer packetType).log.map .handler,
        (packetHandler env buffer packetType).result⟩ := by
  simp only [dispatch, handlers, List.foldlM_cons, List.foldlM_nil, bind_pure, Logged.emit_bind,
    Logged.log_mapLog, Logged.result_mapLog]

theorem careful_handlers : Careful handlers := by
  intro env packetType buffer henv
  obtain ⟨stray, throwsAt⟩ := env
  obtain rfl : throwsAt = none := henv
  rw [dispatch_handlers]
  by_cases h : packetType ∈ displayTypes
  · rw [packetHandler_of_mem _ _ h]
    exact displayMessage_ne stray buffer
  · rw [packetHandler_of_notMem _ _ h]
    simp

/-- The states that the client reaches from the start of its loop when no call on the socket
throws, each with its trace. -/
abbrev Reaches (packetType : Word) : ClientState → List (ClientEvent ConsoleEvent) → Prop :=
  (clientLoop handlers).Reachable ClientUndisturbed (.initial packetType)

variable {packetType : Word} {state state' : ClientState} {tr es : List (ClientEvent ConsoleEvent)}

/-- As long as the loop runs, the socket has not been deleted. -/
theorem socketLive_of_reaches (h : Reaches packetType state tr) (hrun : state.status = .running) :
    state.socketLive = true := by
  revert hrun
  refine h.invariant (P := fun state _ => state.status = .running → state.socketLive = true)
    (fun _ => rfl) ?_
  intro s s' tr es input _ ih hinput hs hrun
  have hlive := ih (running_of_step hs)
  -- the steps that delete the socket end the loop
  cases progress_of_step careful_handlers hlive hinput.2 hs with
  | close => cases hrun
  | poll => exact hlive
  | typeShutdown => cases hrun
  | type => exact hlive
  | payloadShutdown => cases hrun
  | payload => exact hlive
  | thrown => cases hrun

/-- The steps of a run in which no call throws. -/
theorem progress_of_reaches (h : Reaches packetType state tr) {input : ClientInput}
    (hinput : ClientUndisturbed state input)
    (hs : (clientLoop handlers).step state input = some (state', es)) :
    Progress handlers state input state' es :=
  progress_of_step careful_handlers (socketLive_of_reaches h (running_of_step hs)) hinput.2 hs

end CClient

/-- What the two `receiveBytes` of an iteration return when data has arrived for the first one. -/
@[ext]
structure Iteration where
  /-- The bytes received for the packet type. -/
  packetType : List UInt8
  /-- The bytes received into the buffer; `none` when nothing has arrived yet. -/
  payload : Option (List UInt8)
  /-- At least one byte has arrived. -/
  packetType_ne : packetType ≠ []
  /-- No more bytes are asked for. -/
  length_packetType_le : packetType.length ≤ 4
  /-- The same holds of the buffer. -/
  payload_fits : ∀ data ∈ payload, data ≠ [] ∧ data.length ≤ maxBufferLength

namespace Iteration

/-- What the second `receiveBytes` returns. -/
def payloadResult (it : Iteration) : ReceiveResult :=
  match it.payload with
  | none => .negative
  | some data => .bytes data

/-- What the two calls return. -/
def results (it : Iteration) : List ReceiveResult := [.bytes it.packetType, it.payloadResult]

/-- The bytes that are received into the buffer. -/
def payloadBytes (it : Iteration) : List UInt8 := it.payload.getD []

/-- The bytes of the stream that the iteration takes. -/
def bytes (it : Iteration) : List UInt8 := it.packetType ++ it.payloadBytes

/-- The packet type that the handlers are given. -/
def word (it : Iteration) (stale : Word) : Word := stale.overwrite it.packetType

/-- The buffer that the handlers are given. -/
def buffer (it : Iteration) : FIFOBuffer :=
  (BoundedQueue.empty maxBufferLength).write it.payloadBytes

theorem data_payloadResult (it : Iteration) : it.payloadResult.data = it.payloadBytes := by
  unfold payloadResult payloadBytes
  cases it.payload <;> rfl

theorem received_payloadResult (it : Iteration) :
    (ClientEvent.receiveBytes it.payloadResult : ClientEvent ConsoleEvent).received =
      some it.payloadResult := by
  unfold payloadResult
  cases it.payload <;> rfl

theorem payloadResult_cases (it : Iteration) :
    it.payloadResult = .negative ∨ ∃ data, it.payloadResult = .bytes data := by
  unfold payloadResult
  cases it.payload with
  | none => exact .inl rfl
  | some data => exact .inr ⟨data, rfl⟩

/-- What happens in the iteration when memory holds `stray`. -/
def inputs (it : Iteration) (stray : Stray) : List ClientInput :=
  [.poll true, .receiveType (.bytes it.packetType), .receivePayload it.payloadResult ⟨stray, none⟩]

@[simp] theorem content_buffer (it : Iteration) : it.buffer.content = it.payloadBytes := by
  rw [buffer, BoundedQueue.content_write_empty]
  -- all that was received fits into the buffer
  apply List.take_of_length_le
  unfold payloadBytes
  cases h : it.payload with
  | none => exact Nat.zero_le _
  | some data => exact (it.payload_fits data h).2

end Iteration

namespace CClient

open ClientLoop

/-- The events of an iteration. -/
def eventsOf (it : Iteration) (stale : Word) (stray : Stray) : List (ClientEvent ConsoleEvent) :=
  .poll true :: .receiveBytes (.bytes it.packetType) :: .receiveBytes it.payloadResult ::
    .packetHandler (it.word stale) ::
      (packetHandler ⟨stray, none⟩ it.buffer (it.word stale)).log.map .handler

/-- The loop finds that there is something to read. -/
theorem step_poll (stale : Word) :
    (clientLoop handlers).step (.initial stale) (.poll true) =
      some (⟨stale, .packetType, true, .running⟩, [.poll true]) := rfl

/-- The packet type of an iteration is received. -/
theorem step_type (it : Iteration) (stale : Word) :
    (clientLoop handlers).step ⟨stale, .packetType, true, .running⟩
        (.receiveType (.bytes it.packetType)) =
      some (⟨it.word stale, .payload, true, .running⟩, [.receiveBytes (.bytes it.packetType)]) :=
  rfl

/-- An iteration is handled by the packet handler, which may end the loop. -/
theorem run_iteration (it : Iteration) (stale : Word) (stray : Stray) :
    (clientLoop handlers).run (.initial stale) (it.inputs stray) =
      some (match (packetHandler ⟨stray, none⟩ it.buffer (it.word stale)).result with
        | .ok _ => .initial (it.word stale)
        | .error fault => ⟨it.word stale, .payload, true, .thrown fault⟩,
        eventsOf it stale stray) := by
  have hpayload : (clientLoop handlers).step ⟨it.word stale, .payload, true, .running⟩
      (.receivePayload it.payloadResult ⟨stray, none⟩) =
        some (settle _ (onSocket _ (receivePayload handlers
          ⟨it.word stale, .payload, true, .running⟩ it.payloadResult ⟨stray, none⟩))) := rfl
  -- the handlers decide whether the loop goes on
  rw [settle_receivePayload careful_handlers rfl it.payloadResult_cases rfl, dispatch_handlers,
    it.data_payloadResult] at hpayload
  rw [Iteration.inputs, Machine.run_cons_of_step (step_poll stale),
    Machine.run_cons_of_step (step_type it stale), Machine.run_cons_of_step hpayload]
  simp only [Machine.run_nil, Option.map_some, List.append_nil]
  rfl

/-- The inputs of an iteration are admissible. -/
theorem admissible_inputs (it : Iteration) (stale : Word) (stray : Stray) :
    (clientLoop handlers).Admissible ClientUndisturbed (.initial stale) (it.inputs stray) := by
  have hpayload : ClientUndisturbed ⟨it.word stale, .payload, true, .running⟩
      (.receivePayload it.payloadResult ⟨stray, none⟩) := by
    unfold Iteration.payloadResult
    cases h : it.payload with
    | none => exact ⟨trivial, by simp, rfl⟩
    | some data => exact ⟨it.payload_fits data h, by simp, rfl⟩
  simp only [Iteration.inputs, Machine.Admissible, step_poll, step_type]
  refine ⟨⟨trivial, trivial⟩, ⟨⟨it.packetType_ne, it.length_packetType_le⟩, by rintro ⟨⟩⟩,
    hpayload, ?_⟩
  split <;> trivial

/-- An iteration that takes place at the end of a run. -/
theorem Reaches.iteration {packetType stale : Word} {tr : List (ClientEvent ConsoleEvent)}
    (h : Reaches packetType (.initial stale) tr) (it : Iteration) (stray : Stray) :
    Reaches packetType
      (match (packetHandler ⟨stray, none⟩ it.buffer (it.word stale)).result with
        | .ok _ => .initial (it.word stale)
        | .error fault => ⟨it.word stale, .payload, true, .thrown fault⟩)
      (tr ++ eventsOf it stale stray) :=
  h.run (it.inputs stray) (admissible_inputs it stale stray) (run_iteration it stale stray)

end CClient

end PocoEcho

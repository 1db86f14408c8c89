import PocoEcho.Network.ServerLoop.Steps
import PocoEcho.Server.CServer

/-!
# What the server does with a chunk

The server registers a single packet handler. Handling a chunk is therefore invoking it once, on
the bytes behind the packet type.

## Main results

* `handleData_handlers`: handling a chunk is invoking the handler once;
* `CServer.packetHandler_of_cString` and `CServer.packetHandler_other`: what the handler does;
* `decode_chunkBody_messageFrame`: a chunk that is one frame is decoded to its payload.
-/

namespace PocoEcho

open Poco ServerLoop

variable {S : Type}

/-- Handling a chunk is invoking the handler once. -/
theorem handleData_handlers (state : LoopState S) (client : S) (data : List UInt8)
    (env : HandlerEnv) :
    handleData CServer.handlers state client data env =
      ⟨.packetHandler client (chunkType state.packetType data) ::
          (CServer.packetHandler env client (chunkBody data)
            (chunkType state.packetType data)).log.map .handler,
        (CServer.packetHandler env client (chunkBody data)
          (chunkType state.packetType data)).result.map
            fun _ => { state with packetType := chunkType state.packetType data }⟩ := by
  rw [handleData_eq]
  simp only [dispatch, CServer.handlers, List.foldlM_cons, List.foldlM_nil, bind_pure,
    Logged.emit_bind]
  -- the handler leaves a buffer, which nobody reads, or an exception
  cases h : (CServer.packetHandler env client (chunkBody data)
      (chunkType state.packetType data)).result with
  | error fault =>
      rw [Logged.bind_of_error (e := fault) (by simpa using h)]
      rfl
  | ok buffer =>
      rw [Logged.bind_of_ok (a := buffer) (by simpa using h), Logged.log_pure, List.append_nil]
      rfl

/-- The log of handling a chunk. -/
theorem log_handleData (state : LoopState S) (client : S) (data : List UInt8) (env : HandlerEnv) :
    (handleData CServer.handlers state client data env).log =
      .packetHandler client (chunkType state.packetType data) ::
        (CServer.packetHandler env client (chunkBody data)
          (chunkType state.packetType data)).log.map .handler := by
  rw [handleData_handlers]

/-- The result of handling a chunk. -/
theorem result_handleData (state : LoopState S) (client : S) (data : List UInt8)
    (env : HandlerEnv) :
    (handleData CServer.handlers state client data env).result =
      (CServer.packetHandler env client (chunkBody data)
        (chunkType state.packetType data)).result.map
          fun _ => { state with packetType := chunkType state.packetType data } := by
  rw [handleData_handlers]

namespace CServer

/-- A computation that logs only events of one client. -/
def Concerns {α : Type} (client : S) (x : Logged (HandlerEvent S) Fault α) : Prop :=
  ∀ e ∈ x.log, e.socket = client

theorem Concerns.bind {α β : Type} {client : S} {x : Logged (HandlerEvent S) Fault α}
    {f : α → Logged (HandlerEvent S) Fault β} (hx : Concerns client x)
    (hf : ∀ a, Concerns client (f a)) : Concerns client (x >>= f) := by
  intro e he
  rcases Logged.mem_log_bind he with he | ⟨a, he⟩
  · exact hx e he
  · exact hf a e he

theorem concerns_pure {α : Type} (client : S) (a : α) :
    Concerns client (pure a : Logged (HandlerEvent S) Fault α) := by
  simp [Concerns]

theorem concerns_callOn (env : HandlerEnv) (site : CallSite) (client : S) :
    Concerns client (callOn env site client) := by
  unfold callOn
  split <;> simp [Concerns, HandlerEvent.socket]

/-- What the packet handler does concerns the client that sent the packet. -/
theorem concerns_packetHandler (env : HandlerEnv) (client : S) (buffer : FIFOBuffer)
    (packetType : Word) : Concerns client (packetHandler env client buffer packetType) := by
  by_cases htype : packetType = PacketType.message.word
  · subst htype
    cases hdecode : MessageBody.decode env.stray buffer with
    | error fault =>
        rw [packetHandler_of_error env client hdecode]
        simp [Concerns]
    | ok p =>
        obtain ⟨szMessage, rest⟩ := p
        rw [packetHandler_of_decode env client hdecode]
        -- `Packet_Message`, then the rest of the buffer is returned
        refine .bind ?_ fun _ => concerns_pure _ _
        refine .bind (by simp [Concerns, HandlerEvent.socket]) fun _ => ?_
        refine .bind (concerns_callOn _ _ _) fun _ => ?_
        cases szMessage.cString with
        | none => simp [Concerns]
        | some m =>
            refine .bind (concerns_callOn _ _ _) fun _ => ?_
            simp [Concerns, HandlerEvent.socket]
  · rw [packetHandler_of_ne env client buffer htype]
    exact .bind (concerns_callOn _ _ _) fun _ => concerns_pure _ _

/-- The handler of a decoded message whose string ends in mapped memory passes the message on and
echoes the string, unless a call on the socket fails before the echo is sent. -/
theorem packetHandler_of_cString (env : HandlerEnv) (client : S) {buffer rest : FIFOBuffer}
    {szMessage : CharArray} {m : CString}
    (hdecode : MessageBody.decode env.stray buffer = .ok (szMessage, rest))
    (hm : szMessage.cString = some m) :
    packetHandler env client buffer PacketType.message.word =
        ⟨[.processPacket client szMessage.data, .sendBytes client (reply m)], .ok rest⟩ ∨
      packetHandler env client buffer PacketType.message.word =
          ⟨[.processPacket client szMessage.data, .throws client], .error .pocoException⟩ ∧
        env.throwsAt ≠ none := by
  rw [packetHandler_of_decode env client hdecode, onMessage, hm, callOn, callOn]
  -- the calls for the console message and for the echo may fail
  by_cases haddr : env.throwsAt = some .messagePeerAddress
  · rw [if_pos haddr]
    exact .inr ⟨rfl, by simp [haddr]⟩
  by_cases hecho : env.throwsAt = some .sendEcho
  · rw [if_neg haddr, if_pos hecho]
    exact .inr ⟨rfl, by simp [hecho]⟩
  · rw [if_neg haddr, if_neg hecho]
    exact .inl rfl

/-- Without a failing call, the handler of a decoded message passes it on and echoes its string. -/
theorem packetHandler_message (stray : Stray) (client : S) {buffer rest : FIFOBuffer}
    {szMessage : CharArray} (hdecode : MessageBody.decode stray buffer = .ok (szMessage, rest)) :
    packetHandler ⟨stray, none⟩ client buffer PacketType.message.word =
      ⟨.processPacket client szMessage.data ::
          (szMessage.cString.map fun m => HandlerEvent.sendBytes client (reply m)).toList,
        match szMessage.cString with
        | none => .error .accessViolation
        | some _ => .ok rest⟩ := by
  rw [packetHandler_of_decode ⟨stray, none⟩ client hdecode, onMessage]
  simp only [Logged.emit_bind, callOn_none, Logged.mk_ok_bind]
  cases szMessage.cString with
  | none => rfl
  | some m => rfl

/-- The handler of any other packet does nothing, unless the call for the console message fails. -/
theorem packetHandler_other (env : HandlerEnv) (client : S) (buffer : FIFOBuffer)
    {packetType : Word} (h : packetType ≠ PacketType.message.word) :
    packetHandler env client buffer packetType = ⟨[], .ok buffer⟩ ∨
      packetHandler env client buffer packetType = ⟨[.throws client], .error .pocoException⟩ ∧
        env.throwsAt ≠ none := by
  rw [packetHandler_of_ne env client buffer h, callOn]
  by_cases haddr : env.throwsAt = some .unknownAddress
  · rw [if_pos haddr]
    exact .inr ⟨rfl, by simp [haddr]⟩
  · rw [if_neg haddr]
    exact .inl rfl

end CServer

/-- A chunk that is one MESSAGE frame is decoded to its payload, whatever memory holds. -/
theorem decode_chunkBody_messageFrame (stray : Stray) {payload : List UInt8}
    (h : (messageFrame payload).length ≤ maxBufferLength) :
    ∃ rest, MessageBody.decode stray (chunkBody (messageFrame payload)) =
      .ok ({ data := payload, behind := stray.behind }, rest) := by
  have hlen := length_messageFrame payload
  have hbody : (chunkBody (messageFrame payload)).content =
      (Word.ofNat payload.length).bytes ++ (payload ++ []) := by
    rw [content_chunkBody h, messageFrame, List.append_assoc,
      List.drop_left' PacketType.message.word.length_eq, List.append_nil]
  refine MessageBody.decode_of_append stray ?_ hbody
  simp only [maxBufferLength] at h
  omega

/-- A chunk that is one MESSAGE frame is handled as a MESSAGE, whatever was handled before. -/
theorem chunkType_messageFrame (stale : Word) (payload : List UInt8) :
    chunkType stale (messageFrame payload) = PacketType.message.word := by
  rw [messageFrame, List.append_assoc, chunkType_of_append]

/-- Handling one MESSAGE frame dispatches its payload and echoes the string in it. -/
theorem handleData_messageFrame (state : LoopState S) (client : S) {payload : List UInt8}
    (h : (messageFrame payload).length ≤ maxBufferLength) (hnul : 0 ∈ payload) (stray : Stray) :
    handleData CServer.handlers state client (messageFrame payload) ⟨stray, none⟩ =
      ⟨[.packetHandler client PacketType.message.word, .handler (.processPacket client payload),
          .handler (.sendBytes client (CServer.reply (.ofPrefix payload)))],
        .ok { state with packetType := PacketType.message.word }⟩ := by
  obtain ⟨rest, hdecode⟩ := decode_chunkBody_messageFrame stray h
  have hstring : (CharArray.mk payload stray.behind).cString = some (.ofPrefix payload) :=
    CharArray.cString_of_mem hnul
  have hhandler := CServer.packetHandler_message stray client hdecode
  rw [handleData_handlers, chunkType_messageFrame, hhandler, hstring]
  rfl

end PocoEcho

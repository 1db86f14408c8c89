import PocoEcho.Network.ServerLoop.Steps
import PocoEcho.Server.CServer

/-!
# Failing socket operations

`CNetwork::OnUpdate` of the client catches the exceptions of its socket operations; the server's
`CNetworkServer::OnUpdate` does not. Whichever operation on whichever socket throws, the exception
leaves the loop, and nobody is served any more.

## Main results

* `thrown_of_failure`: a step in which a socket operation throws ends the loop;
* `not_survivesFailure`: hence the failure of one client is never confined to it.
-/

namespace PocoEcho

open Poco ServerLoop

variable {S W : Type}

/-- The handler event is the failure of a socket operation. -/
def HandlerEvent.IsThrow (e : HandlerEvent S) : Prop := ∃ c, e = .throws c

/-- The event is the failure of a socket operation. -/
def Event.IsThrow (e : Event S) : Prop := ∃ c, e = .throws c ∨ e = .handler (.throws c)

theorem raisesAt_callOn (env : HandlerEnv) (site : CallSite) (socket : S) :
    (callOn env site socket).RaisesAt HandlerEvent.IsThrow .pocoException := by
  unfold callOn
  split
  · exact fun _ _ _ => rfl
  · exact Logged.raisesAt_pure _ _ ()

theorem raisesAt_call (throwsAt : Option CallSite) (site : CallSite) (socket : S) :
    (call throwsAt site socket).RaisesAt Event.IsThrow .pocoException := by
  unfold call
  split
  · exact fun _ _ _ => rfl
  · exact Logged.raisesAt_pure _ _ ()

theorem raisesAt_emit_event {e : Event S} (h : ¬ e.IsThrow) :
    (Logged.emit e : Logged (Event S) Fault Unit).RaisesAt Event.IsThrow .pocoException :=
  Logged.raisesAt_emit h

namespace CServer

/-- A failing socket operation leaves `PacketHandler` by its exception. -/
theorem raisesAt_packetHandler (env : HandlerEnv) (client : S) (buffer : FIFOBuffer)
    (packetType : Word) :
    (packetHandler env client buffer packetType).RaisesAt HandlerEvent.IsThrow .pocoException := by
  by_cases htype : packetType = PacketType.message.word
  · subst htype
    cases hdecode : MessageBody.decode env.stray buffer with
    | error fault =>
        rw [packetHandler_of_error env client hdecode]
        exact Logged.raisesAt_throw _ _ _
    | ok p =>
        obtain ⟨szMessage, rest⟩ := p
        rw [packetHandler_of_decode env client hdecode]
        refine .bind ?_ fun _ => Logged.raisesAt_pure _ _ _
        -- two calls may fail: `peerAddress` for the console, and `sendBytes`
        refine .bind (Logged.raisesAt_emit (by simp [HandlerEvent.IsThrow])) fun _ => ?_
        refine .bind (raisesAt_callOn _ _ _) fun _ => ?_
        cases szMessage.cString with
        | none => exact Logged.raisesAt_throw _ _ _
        | some m =>
            refine .bind (raisesAt_callOn _ _ _) fun _ => ?_
            exact Logged.raisesAt_emit (by simp [HandlerEvent.IsThrow])
  · rw [packetHandler_of_ne env client buffer htype]
    exact .bind (raisesAt_callOn _ _ _) fun _ => Logged.raisesAt_pure _ _ _

/-- A failing socket operation leaves `ConnectHandler` by its exception. -/
theorem raisesAt_connectHandler (env : HandlerEnv) (whiteList : CWhiteList) (client : S)
    (host : String) :
    (connectHandler env whiteList client host).RaisesAt HandlerEvent.IsThrow .pocoException :=
  .bind (raisesAt_callOn _ _ _) fun _ =>
    .bind (raisesAt_callOn _ _ _) fun _ => Logged.raisesAt_pure _ _ _

end CServer

/-- A translated handler computation raises at the failures it logs. -/
theorem raisesAt_mapLog_handler {α : Type} {x : Logged (HandlerEvent S) Fault α}
    (h : x.RaisesAt HandlerEvent.IsThrow .pocoException) :
    (x.mapLog Event.handler).RaisesAt Event.IsThrow .pocoException := by
  refine Logged.RaisesAt.mapLog fun e he hthrow => h e he ?_
  obtain ⟨c, hc | hc⟩ := hthrow
  · cases hc
  · exact ⟨c, Event.handler.inj hc⟩

theorem raisesAt_handleData (state : LoopState S) (client : S) (data : List UInt8)
    (env : HandlerEnv) :
    (handleData CServer.handlers state client data env).RaisesAt Event.IsThrow .pocoException := by
  rw [handleData_eq]
  refine .bind ?_ fun _ => Logged.raisesAt_pure _ _ _
  simp only [dispatch, CServer.handlers, List.foldlM_cons, List.foldlM_nil]
  refine .bind ?_ fun _ => Logged.raisesAt_pure _ _ _
  refine .bind (raisesAt_emit_event (by simp [Event.IsThrow])) fun _ => ?_
  exact raisesAt_mapLog_handler (CServer.raisesAt_packetHandler _ _ _ _)

variable [DecidableEq S] {server : S}

/-- A failing socket operation leaves the branch that it is in by its exception. -/
theorem raisesAt_onUpdate {state : LoopState S} {input : Input S CWhiteList}
    {outcome : Logged (Event S) Fault (LoopState S)}
    (h : onUpdate CServer.handlers server state input = some outcome) :
    outcome.RaisesAt Event.IsThrow .pocoException := by
  obtain ⟨-, hbranch⟩ := branch_of_onUpdate h
  cases hbranch with
  | accept hread client host world env =>
      refine .bind (raisesAt_call _ _ _) fun _ => ?_
      refine .bind (raisesAt_emit_event (by simp [Event.IsThrow])) fun _ => ?_
      refine .bind (raisesAt_mapLog_handler (CServer.raisesAt_connectHandler _ _ _ _))
        fun admitted => ?_
      cases admitted with
      | true =>
          refine .bind (raisesAt_call _ _ _) fun _ => ?_
          refine .bind (raisesAt_emit_event (by simp [Event.IsThrow])) fun _ => ?_
          exact Logged.raisesAt_pure _ _ _
      | false =>
          refine .bind (raisesAt_call _ _ _) fun _ => ?_
          refine .bind (raisesAt_emit_event (by simp [Event.IsThrow])) fun _ => ?_
          refine .bind (raisesAt_call _ _ _) fun _ => ?_
          refine .bind (raisesAt_emit_event (by simp [Event.IsThrow])) fun _ => ?_
          exact Logged.raisesAt_pure _ _ _
  | receive hread hclient result env =>
      cases result with
      | throws => exact fun _ _ _ => rfl
      | shutdown =>
          exact .bind (raisesAt_emit_event (by simp [Event.IsThrow]))
            fun _ => Logged.raisesAt_pure _ _ _
      | negative =>
          exact .bind (raisesAt_emit_event (by simp [Event.IsThrow]))
            fun _ => raisesAt_handleData _ _ _ _
      | bytes data =>
          exact .bind (raisesAt_emit_event (by simp [Event.IsThrow]))
            fun _ => raisesAt_handleData _ _ _ _
  | drop hread hdrop throwsAt =>
      unfold dropClient
      split
      · refine .bind (raisesAt_call _ _ _) fun _ => ?_
        refine .bind (raisesAt_emit_event (by simp [Event.IsThrow])) fun _ => ?_
        exact Logged.raisesAt_pure _ _ _
      · exact Logged.raisesAt_pure _ _ _
  | close hread hdrop =>
      -- closing the sockets and `Exit` do not throw
      intro e he hthrow
      obtain ⟨c, rfl | rfl⟩ := hthrow <;> simp at he
  | select hread hdrop iCount ready throwsAt =>
      exact .bind (raisesAt_call _ _ _) fun _ => Logged.raisesAt_pure _ _ _

/-- A step in which a socket operation throws ends the loop: no further input is handled. -/
theorem thrown_of_failure {state state' : LoopState S} {input : Input S CWhiteList}
    {es : List (Event S)}
    (hstep : (serverLoop CServer.handlers server).step state input = some (state', es))
    {e : Event S} (he : e ∈ es) (hthrow : e.IsThrow) :
    state' = { state with status := .thrown .pocoException } := by
  obtain ⟨outcome, hup, rfl, hend⟩ := outcome_of_step hstep
  -- the branch was left by an exception, and by no other one
  have hraise := raisesAt_onUpdate hup e he hthrow
  rcases hend with ⟨fault, hresult, rfl⟩ | hresult
  · obtain rfl := Except.error.inj (hresult.symm.trans hraise)
    rfl
  · rw [hresult] at hraise
    cases hraise

/-- What it would mean that the failure of a client is confined to it: the loop goes on, only this
client is removed from `clients`, and the other ready sockets of the round are still to be
handled. -/
structure SurvivesFailure (state state' : LoopState S) (client : S) : Prop where
  running : state'.status = .running
  clients_eq : state'.clients = state.clients.filter (· ≠ client)
  readList_eq : state'.readList = state.readList.tail

/-- The failure of a socket operation on a client is never confined to it: in every reachable state
and for every failing operation the exception leaves the loop, and no further input is handled. -/
theorem not_survivesFailure {packetType : Word} {state state' : LoopState S}
    {tr es : List (Event S)} {input : Input S CWhiteList} {client : S}
    (_hreach : (serverLoop CServer.handlers server).Reachable Admissible
      (LoopState.initial server packetType) state tr)
    (hstep : (serverLoop CServer.handlers server).step state input = some (state', es))
    (hfail : .throws client ∈ es ∨ .handler (.throws client) ∈ es) :
    ¬ SurvivesFailure state state' client ∧ state'.status = .thrown .pocoException ∧
      ∀ input', (serverLoop CServer.handlers server).step state' input' = none := by
  have hstate : state' = { state with status := .thrown .pocoException } := by
    rcases hfail with h | h
    · exact thrown_of_failure hstep h ⟨client, .inl rfl⟩
    · exact thrown_of_failure hstep h ⟨client, .inr rfl⟩
  subst hstate
  refine ⟨fun h => ?_, rfl, fun input' => ?_⟩
  · cases h.running
  · simp [serverLoop, step, onUpdate]

/-- Two clients have been accepted and both are ready. -/
def twoReady : LoopState ℕ :=
  { clients := [0, 1, 2], packetType := PacketType.accept.word, readList := [1, 2], dropList := []
    status := .running }

/-- The trace of the acceptance of two clients. -/
def twoReadyTrace : List (Event ℕ) :=
  [.acceptConnection 1 "a", .sendBytes 1 PacketType.accept.word.bytes, .acceptConnection 2 "a",
    .sendBytes 2 PacketType.accept.word.bytes]

theorem reachable_twoReady : (serverLoop CServer.handlers 0).Reachable Admissible
    (LoopState.initial 0 (Word.ofNat 0)) twoReady twoReadyTrace :=
  Machine.Reachable.run .init
    [.select 1 [0] none, .accept 1 "a" ⟨{"a"}⟩ .zero, .select 1 [0] none,
      .accept 2 "a" ⟨{"a"}⟩ .zero, .select 2 [1, 2] none]
    (by decide) (by decide)

/-- The connection of client 1 is reset while client 2 is ready. -/
theorem not_survivesFailure_of_reset :
    (serverLoop CServer.handlers 0).step twoReady (.receive .throws .zero) =
        some ({ twoReady with status := .thrown .pocoException }, [.throws 1]) ∧
      ¬ SurvivesFailure twoReady { twoReady with status := .thrown .pocoException } 1 :=
  have hstep : (serverLoop CServer.handlers 0).step twoReady (.receive .throws .zero) =
      some ({ twoReady with status := .thrown .pocoException }, [.throws 1]) := rfl
  ⟨hstep, (not_survivesFailure reachable_twoReady hstep (.inl (List.mem_singleton.mpr rfl))).1⟩

/-- A reset of the connection of client 1 is not confined to client 1. -/
theorem reset_not_confined :
    ¬ ∀ (state state' : LoopState ℕ) (tr es : List (Event ℕ)) (input : Input ℕ CWhiteList)
        (client : ℕ),
      (serverLoop CServer.handlers 0).Reachable Admissible
        (LoopState.initial 0 (Word.ofNat 0)) state tr →
      (serverLoop CServer.handlers 0).step state input = some (state', es) →
      (.throws client ∈ es ∨ .handler (.throws client) ∈ es) →
      SurvivesFailure state state' client := by
  intro h
  have hsurvives := h _ { twoReady with status := .thrown .pocoException } _ [.throws 1]
    (.receive .throws .zero) 1 reachable_twoReady rfl (.inl (List.mem_singleton.mpr rfl))
  cases hsurvives.running

end PocoEcho

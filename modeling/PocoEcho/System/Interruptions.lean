import PocoEcho.Network.Teardown
import PocoEcho.System.EchoSystem

/-!
# Exceptions in the loops

What an exception of a call on a socket does to the update threads. The one of the server does up to
there what it would do without exception, and nothing of it is sent but KICK. The one of a client
deletes its socket and goes on.

## Main definitions

* `Input.calm` and `ClientInput.calm`: the same input, and no call throws;
* `Input.Throws` and `ClientInput.Throws`: the first call throws.

## Main results

* `step_calm_of_progress`: a step of the server that no exception ends is one in which none throws;
* `passive_or_kick_of_error`: what the server has done when an exception leaves its loop;
* `clientLoop_of_throws` and `CClient.step_calm`: the same for a client.
-/

namespace PocoEcho

open Poco ServerLoop

/-! ## Inputs without exceptions -/

/-- The same memory, and no call throws. -/
def HandlerEnv.calm (env : HandlerEnv) : HandlerEnv := { env with throwsAt := none }

/-- The same input, if none of the calls behind the first one throws. -/
def Input.calm {S W : Type} : Input S W → Input S W
  | .closeRequested => .closeRequested
  | .select iCount ready _ => .select iCount ready none
  | .accept client host world env => .accept client host world env.calm
  | .receive result env => .receive result env.calm
  | .drop _ => .drop none

/-- The first call on a socket throws. -/
def Input.Throws {S W : Type} : Input S W → Prop
  | .select _ _ throwsAt => throwsAt = some .select
  | .accept _ _ _ env => env.throwsAt = some .acceptConnection
  | .receive result _ => result = .throws
  | _ => False

/-- The same input, if the handlers do not throw. -/
def ClientInput.calm : ClientInput → ClientInput
  | .receivePayload result env => .receivePayload result env.calm
  | input => input

/-- The call on the socket throws. -/
def ClientInput.Throws : ClientInput → Prop
  | .pollThrows => True
  | .receiveType result => result = .throws
  | .receivePayload result _ => result = .throws
  | _ => False

/-- Whether the first call throws is decidable. -/
instance decidableThrows {S W : Type} : ∀ input : Input S W, Decidable input.Throws
  | .closeRequested => inferInstanceAs (Decidable False)
  | .select _ _ throwsAt => inferInstanceAs (Decidable (throwsAt = some .select))
  | .accept _ _ _ env => inferInstanceAs (Decidable (env.throwsAt = some .acceptConnection))
  | .receive result _ => inferInstanceAs (Decidable (result = .throws))
  | .drop _ => inferInstanceAs (Decidable False)

/-- Whether the call on the socket of a client throws is decidable. -/
instance decidableClientThrows : ∀ input : ClientInput, Decidable input.Throws
  | .closeRequested => inferInstanceAs (Decidable False)
  | .poll _ => inferInstanceAs (Decidable False)
  | .pollThrows => inferInstanceAs (Decidable True)
  | .receiveType result => inferInstanceAs (Decidable (result = .throws))
  | .receivePayload result _ => inferInstanceAs (Decidable (result = .throws))

theorem Input.calm_withWorld {S W W' : Type} (input : Input S W) (world : W') :
    (input.withWorld world).calm = input.calm.withWorld world := by
  cases input <;> rfl

theorem Input.throws_withWorld {S W W' : Type} {input : Input S W} {world : W'} :
    (input.withWorld world).Throws ↔ input.Throws := by
  cases input <;> rfl

/-! ## The server -/

section Server

variable {S : Type}

theorem interrupts_callOn (env : HandlerEnv) (site : CallSite) (socket : S) :
    (callOn env site socket).Interrupts .pocoException (callOn env.calm site socket) := by
  unfold callOn
  split
  · exact .inr rfl
  · exact .inl rfl

theorem interrupts_call (throwsAt : Option CallSite) (site : CallSite) (socket : S) :
    (call throwsAt site socket).Interrupts .pocoException (call none site socket) := by
  unfold call
  split
  · exact .inr rfl
  · exact .inl rfl

/-- `PacketHandler` is interrupted by the call that throws. -/
theorem CServer.interrupts_packetHandler (env : HandlerEnv) (client : S) (buffer : FIFOBuffer)
    (packetType : Word) :
    (packetHandler env client buffer packetType).Interrupts .pocoException
      (packetHandler env.calm client buffer packetType) := by
  by_cases htype : packetType = PacketType.message.word
  · subst htype
    cases hdecode : MessageBody.decode env.stray buffer with
    | error fault =>
        rw [packetHandler_of_error env client hdecode,
          packetHandler_of_error env.calm client hdecode]
        exact .refl _ _
    | ok p =>
        obtain ⟨szMessage, rest⟩ := p
        rw [packetHandler_of_decode env client hdecode,
          packetHandler_of_decode env.calm client hdecode]
        refine .bind ?_ fun _ => .refl _ _
        refine .bind (.refl _ _) fun _ => .bind (interrupts_callOn _ _ _) fun _ => ?_
        cases szMessage.cString with
        | none => exact .refl _ _
        | some m => exact .bind (interrupts_callOn _ _ _) fun _ => .refl _ _
  · rw [packetHandler_of_ne env client buffer htype,
      packetHandler_of_ne env.calm client buffer htype]
    exact .bind (interrupts_callOn _ _ _) fun _ => .refl _ _

/-- `ConnectHandler` is interrupted by the call that throws. -/
theorem CServer.interrupts_connectHandler (env : HandlerEnv) (whiteList : CWhiteList) (client : S)
    (host : String) :
    (connectHandler env whiteList client host).Interrupts .pocoException
      (connectHandler env.calm whiteList client host) :=
  .bind (interrupts_callOn _ _ _) fun _ => .bind (interrupts_callOn _ _ _) fun _ => .refl _ _

theorem interrupts_handleData (state : LoopState S) (client : S) (data : List UInt8)
    (env : HandlerEnv) :
    (handleData CServer.handlers state client data env).Interrupts .pocoException
      (handleData CServer.handlers state client data env.calm) := by
  rw [handleData_eq, handleData_eq]
  refine .bind ?_ fun _ => .refl _ _
  simp only [dispatch, CServer.handlers, List.foldlM_cons, List.foldlM_nil]
  refine .bind ?_ fun _ => .refl _ _
  exact .bind (.refl _ _) fun _ => (CServer.interrupts_packetHandler _ _ _ _).mapLog _

variable [DecidableEq S] {server : S} {state state' : LoopState S} {input : Input S CWhiteList}

/-- The update thread is interrupted by the call that throws. -/
theorem interrupts_onUpdate {outcome : Logged (Event S) Fault (LoopState S)}
    (h : onUpdate CServer.handlers server state input = some outcome) :
    ∃ outcome', onUpdate CServer.handlers server state input.calm = some outcome' ∧
      outcome.Interrupts .pocoException outcome' := by
  obtain ⟨hrun, hbranch⟩ := branch_of_onUpdate h
  cases hbranch with
  | accept hread client host world env =>
      refine ⟨_, onUpdate_of_branch hrun (.accept hread client host world env.calm), ?_⟩
      refine .bind (interrupts_call _ _ _) fun _ => .bind (.refl _ _) fun _ => ?_
      refine .bind ((CServer.interrupts_connectHandler _ _ _ _).mapLog _) fun admitted => ?_
      cases admitted with
      | true => exact .bind (interrupts_call _ _ _) fun _ => .refl _ _
      | false =>
          refine .bind (interrupts_call _ _ _) fun _ => .bind (.refl _ _) fun _ => ?_
          exact .bind (interrupts_call _ _ _) fun _ => .refl _ _
  | receive hread hclient result env =>
      refine ⟨_, onUpdate_of_branch hrun (.receive hread hclient result env.calm), ?_⟩
      cases result with
      | throws => exact .refl _ _
      | shutdown => exact .refl _ _
      | negative => exact .bind (.refl _ _) fun _ => interrupts_handleData _ _ _ _
      | bytes data => exact .bind (.refl _ _) fun _ => interrupts_handleData _ _ _ _
  | drop hread hdrop throwsAt =>
      refine ⟨_, onUpdate_of_branch hrun (.drop hread hdrop none), ?_⟩
      unfold dropClient
      split
      · exact .bind (interrupts_call _ _ _) fun _ => .refl _ _
      · exact .refl _ _
  | close hread hdrop => exact ⟨_, onUpdate_of_branch hrun (.close hread hdrop), .refl _ _⟩
  | select hread hdrop iCount ready throwsAt =>
      refine ⟨_, onUpdate_of_branch hrun (.select hread hdrop iCount ready none), ?_⟩
      exact .bind (interrupts_call _ _ _) fun _ => .refl _ _

/-- A step that no exception ends is the one in which no call throws. -/
theorem step_calm_of_progress {es : List (Event S)}
    (hs : step CServer.handlers server state input = some (state', es))
    (h : Progress CServer.handlers server state input state' es) :
    step CServer.handlers server state input.calm = some (state', es) := by
  obtain ⟨outcome, hup, rfl, ⟨fault, -, rfl⟩ | hok⟩ := outcome_of_step hs
  · exact absurd rfl (h.not_thrown fault)
  · obtain ⟨outcome', hup', rfl | herr⟩ := interrupts_onUpdate hup
    · simp only [step, hup', Option.map_some, hok]
    · rw [hok] at herr
      cases herr

end Server

section Interrupted

variable {S : Type}

/-! ## What has been done before an exception -/

/-- The event may take something off the way to the server, and does nothing else to a connection.
-/
def Event.Passive (e : Event S) : Prop :=
  ∀ connection : Connection, ∃ upstream, connection.observe e = { connection with upstream }

/-- Only what is sent, and closing, changes more than what is on its way to the server. -/
theorem passive_of_sent {e : Event S} (hsent : e.sent = none)
    (hclose : ∀ client, e ≠ .close client) : e.Passive := by
  intro connection
  cases e with
  | sendBytes client data => cases hsent
  | handler event =>
      cases event with
      | sendBytes client data => cases hsent
      | processPacket client message => exact ⟨connection.upstream, rfl⟩
      | throws client => exact ⟨connection.upstream, rfl⟩
  | receiveBytes client result =>
      cases result with
      | bytes data => exact ⟨_, rfl⟩
      | shutdown => exact ⟨connection.upstream, rfl⟩
      | negative => exact ⟨connection.upstream, rfl⟩
      | throws => exact ⟨connection.upstream, rfl⟩
  | close client => exact absurd rfl (hclose client)
  | acceptConnection client host => exact ⟨connection.upstream, rfl⟩
  | packetHandler client packetType => exact ⟨connection.upstream, rfl⟩
  | erase client => exact ⟨connection.upstream, rfl⟩
  | exit => exact ⟨connection.upstream, rfl⟩
  | throws socket => exact ⟨connection.upstream, rfl⟩

theorem passive_throws (socket : S) : (Event.throws socket).Passive :=
  passive_of_sent rfl (by simp)

/-- The event is that a handler sends something. -/
def HandlerEvent.Sends (e : HandlerEvent S) : Prop := (Event.handler e).sent ≠ none

theorem not_sends_of_mem_callOn {env : HandlerEnv} {site : CallSite} {socket : S}
    {e : HandlerEvent S} (h : e ∈ (callOn env site socket).log) : ¬ e.Sends := by
  unfold callOn at h
  split at h
  · obtain rfl := List.mem_singleton.mp h
    exact not_not.mpr rfl
  · cases h

/-- Sending the echo is the last thing that `PacketHandler` does. -/
theorem CServer.last_packetHandler (env : HandlerEnv) (client : S) (buffer : FIFOBuffer)
    (packetType : Word) : (packetHandler env client buffer packetType).Last HandlerEvent.Sends := by
  by_cases htype : packetType = PacketType.message.word
  · subst htype
    cases hdecode : MessageBody.decode env.stray buffer with
    | error fault =>
        rw [packetHandler_of_error env client hdecode]
        exact Logged.last_throw _ _
    | ok p =>
        obtain ⟨szMessage, rest⟩ := p
        rw [packetHandler_of_decode env client hdecode]
        refine Logged.Last.map (.bind ?_ fun _ => .bind ?_ fun _ => ?_) _
        · intro e he
          obtain rfl := List.mem_singleton.mp he
          exact not_not.mpr rfl
        · exact fun e he => not_sends_of_mem_callOn he
        · cases szMessage.cString with
          | none => exact Logged.last_throw _ _
          | some m =>
              exact .bind (fun e he => not_sends_of_mem_callOn he) fun _ => Logged.last_emit _ _
  · rw [packetHandler_of_ne env client buffer htype]
    exact .bind (fun e he => not_sends_of_mem_callOn he) fun _ => Logged.last_pure _ _

theorem last_handleData (state : LoopState S) (client : S) (data : List UInt8) (env : HandlerEnv) :
    (handleData CServer.handlers state client data env).Last fun e => ¬ e.Passive := by
  have hhandler : ∀ e : HandlerEvent S, ¬ (Event.handler e).Passive → e.Sends := by
    intro e hloud hsent
    exact hloud (passive_of_sent hsent (by simp))
  rw [handleData_eq]
  refine .map ?_ _
  simp only [dispatch, CServer.handlers, List.foldlM_cons, List.foldlM_nil]
  refine .map (.bind ?_ fun _ => .mapLog ?_) _
  · intro e he
    obtain rfl := List.mem_singleton.mp he
    exact not_not.mpr (passive_of_sent rfl (by simp))
  · intro err herr e he hloud
    exact CServer.last_packetHandler _ _ _ _ err herr e he (hhandler e hloud)

/-- An exception while a connection is accepted comes before anything has been sent, or behind KICK.
-/
theorem log_acceptClient_of_error {state : LoopState S} {server client : S} {host : String}
    {world : CWhiteList} {env : HandlerEnv} {fault : Fault}
    (h : (acceptClient CServer.handlers server state client host world env).result = .error fault) :
    (∀ e ∈ (acceptClient CServer.handlers server state client host world env).log, e.Passive) ∨
      (acceptClient CServer.handlers server state client host world env).log =
        [.acceptConnection client host, .sendBytes client PacketType.kick.word.bytes,
          .throws client] := by
  have haccept : (Event.acceptConnection client host : Event S).Passive :=
    passive_of_sent rfl (by simp)
  unfold acceptClient at h ⊢
  by_cases hacceptThrows : env.throwsAt = some .acceptConnection
  · rw [call_of_eq hacceptThrows]
    exact .inl (by simpa using passive_throws server)
  rw [call_of_ne hacceptThrows, Logged.mk_ok_bind, Logged.emit_bind] at h ⊢
  cases hconnect : (connect CServer.handlers env world client host).result with
  | error fault =>
      -- the connect handler sends nothing
      have hlog : ∀ e ∈ (connect CServer.handlers env world client host).log, ¬ e.Sends := by
        intro e he
        rcases Logged.mem_log_bind he with he | ⟨_, he⟩
        · exact not_sends_of_mem_callOn he
        · rcases Logged.mem_log_bind he with he | ⟨_, he⟩
          · exact not_sends_of_mem_callOn he
          · cases he
      rw [Logged.bind_of_error (by simpa using hconnect)]
      refine .inl ?_
      simp only [List.nil_append, Logged.log_mapLog, List.mem_cons, List.mem_map,
        forall_eq_or_imp, forall_exists_index, and_imp, forall_apply_eq_imp_iff₂]
      exact ⟨haccept, fun e he => passive_of_sent (not_not.mp (hlog e he)) (by simp)⟩
  | ok admitted =>
      have hmap : (connect CServer.handlers env world client host).mapLog Event.handler =
          ⟨[], .ok admitted⟩ := by
        rw [(connect_ok hconnect).1]
        rfl
      rw [hmap, Logged.mk_ok_bind] at h ⊢
      cases admitted with
      | true =>
          by_cases hsend : env.throwsAt = some .sendAccept
          · simp [call_of_eq hsend, passive_throws, haccept]
          · simp only [↓reduceIte, call_of_ne hsend] at h
            cases h
      | false =>
          by_cases hsend : env.throwsAt = some .sendKick
          · simp [call_of_eq hsend, passive_throws, haccept]
          · by_cases hclose : env.throwsAt = some .closeKicked
            · simp [call_of_ne hsend, call_of_eq hclose]
            · simp only [Bool.false_eq_true, ↓reduceIte, call_of_ne hsend, call_of_ne hclose] at h
              cases h

variable [DecidableEq S] {server : S} {state : LoopState S} {input : Input S CWhiteList}
  {outcome : Logged (Event S) Fault (LoopState S)}

/-- An exception in the update thread comes before anything has been sent, or behind KICK. -/
theorem passive_or_kick_of_error (hup : onUpdate CServer.handlers server state input = some outcome)
    {fault : Fault} (herr : outcome.result = .error fault) :
    (∀ e ∈ outcome.log, e.Passive) ∨
      ∃ client host world env, input = .accept client host world env ∧ outcome.log =
        [.acceptConnection client host, .sendBytes client PacketType.kick.word.bytes,
          .throws client] := by
  have hlast : outcome.Last (fun e => ¬ e.Passive) → ∀ e ∈ outcome.log, e.Passive :=
    fun hlast e he => not_not.mp (hlast fault herr e he)
  have hcall : ∀ (throwsAt : Option CallSite) (site : CallSite) (socket : S),
      ∀ e ∈ (call throwsAt site socket).log, ¬ ¬ e.Passive := by
    intro throwsAt site socket e he
    unfold call at he
    split at he
    · obtain rfl := List.mem_singleton.mp he
      exact not_not.mpr (passive_throws socket)
    · cases he
  obtain ⟨-, hbranch⟩ := branch_of_onUpdate hup
  cases hbranch with
  | accept hread client host world env =>
      exact (log_acceptClient_of_error herr).imp id
        fun hlog => ⟨client, host, world, env, rfl, hlog⟩
  | @receive client _ hread hclient result env =>
      have hreceived : ∀ e ∈ [(.receiveBytes client result : Event S)], ¬ ¬ e.Passive := by
        intro e he
        obtain rfl := List.mem_singleton.mp he
        exact not_not.mpr (passive_of_sent rfl (by simp))
      cases result with
      | throws => exact .inl (by simpa [receiveFrom] using passive_throws client)
      | shutdown => cases herr
      | negative => exact .inl (hlast (.bind hreceived fun _ => last_handleData _ _ _ _))
      | bytes data => exact .inl (hlast (.bind hreceived fun _ => last_handleData _ _ _ _))
  | drop hread hdrop throwsAt =>
      refine .inl (hlast ?_)
      unfold dropClient
      split
      · exact .bind (hcall _ _ _) fun _ => .map (Logged.last_emit _ _) _
      · exact Logged.last_pure _ _
  | close hread hdrop => cases herr
  | select hread hdrop iCount ready throwsAt =>
      exact .inl (hlast (.bind (hcall _ _ _) fun _ => Logged.last_pure _ _))

/-- The first call of the step throws, and nothing has been done. -/
theorem error_of_throws (hup : onUpdate CServer.handlers server state input = some outcome)
    (hthrows : input.Throws) :
    outcome.result = .error .pocoException ∧ ∀ e ∈ outcome.log, e.Passive := by
  obtain ⟨-, hbranch⟩ := branch_of_onUpdate hup
  cases hbranch with
  | accept hread client host world env =>
      have hcall : env.throwsAt = some .acceptConnection := hthrows
      rw [acceptClient, call_of_eq hcall, Logged.mk_error_bind]
      exact ⟨rfl, by simpa using passive_throws server⟩
  | @receive client _ hread hclient result env =>
      obtain rfl : result = .throws := hthrows
      exact ⟨rfl, by simpa [receiveFrom] using passive_throws client⟩
  | drop => exact hthrows.elim
  | close => exact hthrows.elim
  | select hread hdrop iCount ready throwsAt =>
      have hcall : throwsAt = some .select := hthrows
      rw [call_of_eq hcall, Logged.mk_error_bind]
      exact ⟨rfl, by simpa using passive_throws server⟩

end Interrupted

/-! ## The client -/

section Client

open ClientLoop

variable {H : Type} {handlers : List (ClientHandler H)} {loop loop' : ClientState}
  {input : ClientInput} {es : List (ClientEvent H)}

/-- An exception on a live socket makes the update thread delete it and go on. -/
theorem clientLoop_of_throws (hlive : loop.socketLive = true) (hthrows : input.Throws)
    (hs : (clientLoop handlers).step loop input = some (loop', es)) :
    loop' = { loop with socketLive := false, point := .poll } ∧ es = [.throws, .exit] := by
  obtain ⟨-, outcome, hbranch, hsettle⟩ := branch_of_step hs
  have hcaught : settle loop (onSocket loop ⟨[.throws], .error .pocoException⟩) = (loop', es) →
      loop' = { loop with socketLive := false, point := .poll } ∧ es = [.throws, .exit] := by
    intro heq
    rw [settle_onSocket_of_pocoException hlive rfl] at heq
    obtain ⟨rfl, rfl⟩ := Prod.mk.inj heq
    exact ⟨rfl, rfl⟩
  cases hbranch with
  | close => exact hthrows.elim
  | poll => exact hthrows.elim
  | pollThrows => exact hcaught hsettle
  | type hpoint result =>
      obtain rfl : result = .throws := hthrows
      exact hcaught hsettle
  | payload hpoint result env =>
      obtain rfl : result = .throws := hthrows
      exact hcaught hsettle

/-- Without socket, the update thread does nothing any more but fail. -/
theorem clientLoop_of_dead (hdead : loop.socketLive = false)
    (hs : (clientLoop handlers).step loop input = some (loop', es)) :
    loop'.socketLive = false ∧ (es = [.exit] ∨ es = [.useAfterDelete]) := by
  obtain ⟨-, outcome, hbranch, hsettle⟩ := branch_of_step hs
  cases hbranch with
  | close =>
      simp only [leave, exit, hdead] at hsettle
      cases hsettle
      exact ⟨hdead, .inl rfl⟩
  | _ =>
      -- the branch begins with a call on the socket
      simp only [onSocket, hdead] at hsettle
      cases hsettle
      exact ⟨hdead, .inr rfl⟩

end Client

/-- While the client handles messages only, no exception leaves its handlers. -/
theorem CClient.step_calm {loop : ClientState} {input : ClientInput}
    (htype : loop.point = .payload → loop.packetType = PacketType.message.word) :
    (clientLoop handlers).step loop input.calm = (clientLoop handlers).step loop input := by
  cases input with
  | receivePayload result env =>
      by_cases hpoint : loop.point = .payload
      · have hdispatch : ∀ buffer,
            ClientLoop.dispatch handlers env.calm loop.packetType buffer =
              ClientLoop.dispatch handlers env loop.packetType buffer := by
          intro buffer
          rw [dispatch_handlers, dispatch_handlers, htype hpoint]
          rfl
        simp only [clientLoop, ClientLoop.step, ClientLoop.onUpdate, hpoint, ClientInput.calm,
          ClientLoop.receivePayload, ClientLoop.handleData, hdispatch]
      · simp [clientLoop, ClientLoop.step, ClientLoop.onUpdate, hpoint, ClientInput.calm]
  | closeRequested => rfl
  | poll => rfl
  | pollThrows => rfl
  | receiveType => rfl

end PocoEcho

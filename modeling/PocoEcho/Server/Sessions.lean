import PocoEcho.Server.Dispatch

/-!
# What a step adds to a session

A session is what happened on a connection since it was accepted. A step of the loop either adds
nothing of interest to the session of a client, or starts it, or extends it by a received chunk and
what the handlers make of it.

## Main results

* `Progress.session_cases`: the three kinds of steps;
* `session_append_quiet` and `session_append_accept`: how they extend or start a session.
-/

namespace PocoEcho

open Poco ServerLoop

variable {S : Type} [DecidableEq S] {server client : S}

theorem eventsOf_append (client : S) (tr es : List (Event S)) :
    eventsOf client (tr ++ es) = eventsOf client tr ++ eventsOf client es :=
  List.filter_append ..

theorem eventsOf_eq_self {es : List (Event S)} (h : ∀ e ∈ es, e.socket = some client) :
    eventsOf client es = es :=
  List.filter_eq_self.mpr fun e he => by simpa using h e he

/-- A session without a new acceptance goes on. -/
theorem session_append (tr : List (Event S)) {es : List (Event S)}
    (h : ∀ e ∈ es, e.socket = some client → e.isAccept = false) :
    session client (tr ++ es) = session client tr ++ eventsOf client es := by
  rw [session, eventsOf_append, Trace.sinceLast_append_of_not]
  · rfl
  · intro e he
    obtain ⟨hmem, hsocket⟩ := List.mem_filter.mp he
    exact h e hmem (by simpa using hsocket)

/-- An acceptance starts a session. -/
theorem session_append_accept (tr : List (Event S)) (client : S) (host : String)
    {es : List (Event S)} (hsocket : ∀ e ∈ es, e.socket = some client)
    (haccept : ∀ e ∈ es, e.isAccept = false) :
    session client (tr ++ .acceptConnection client host :: es) =
      .acceptConnection client host :: es := by
  have hself : eventsOf client (.acceptConnection client host :: es) =
      .acceptConnection client host :: es :=
    eventsOf_eq_self fun e he => by
      rcases List.mem_cons.mp he with rfl | he
      · rfl
      · exact hsocket e he
  rw [session, eventsOf_append, hself]
  exact Trace.sinceLast_append_cons _ _ rfl haccept

/-- Nothing of interest happens on the connection: it is not accepted, nothing is received from it
or sent to it, and no packet of it is processed. -/
def Quiet (client : S) (es : List (Event S)) : Prop :=
  ∀ e ∈ es, e.socket = some client →
    e.isAccept = false ∧ e.received = none ∧ e.processed = none ∧ e.sent = none

omit [DecidableEq S] in
/-- Events on other sockets are quiet. -/
theorem quiet_of_socket_ne {other : S} (hne : other ≠ client) {es : List (Event S)}
    (h : ∀ e ∈ es, e.socket = some other) : Quiet client es := by
  intro e he hsocket
  rw [h e he, Option.some.injEq] at hsocket
  exact absurd hsocket hne

theorem Quiet.session_append {es : List (Event S)} (h : Quiet client es) (tr : List (Event S)) :
    session client (tr ++ es) = session client tr ++ eventsOf client es :=
  PocoEcho.session_append tr fun e he hsocket => (h e he hsocket).1

/-- What is counted in a session does not change in quiet steps. -/
theorem Quiet.filterMap_eventsOf {α : Type} {es : List (Event S)} (h : Quiet client es)
    {f : Event S → Option α}
    (hf : ∀ e : Event S, e.received = none ∧ e.processed = none ∧ e.sent = none → f e = none) :
    (eventsOf client es).filterMap f = [] := by
  refine List.filterMap_eq_nil_iff.mpr fun e he => ?_
  obtain ⟨hmem, hsocket⟩ := List.mem_filter.mp he
  exact hf e (h e hmem (by simpa using hsocket)).2

omit [DecidableEq S] in
/-- The connect handler that returns has done nothing to the outside. -/
theorem connect_ok {env : HandlerEnv} {whiteList : CWhiteList} {host : String} {admitted : Bool}
    (h : (connect CServer.handlers env whiteList client host).result = .ok admitted) :
    connect CServer.handlers env whiteList client host = ⟨[], .ok admitted⟩ ∧
      admitted = whiteList.isClientCanConnect host := by
  have hunfold : connect CServer.handlers env whiteList client host =
      (do
        callOn env .connectPeerAddress client
        callOn env .connectLogPeerAddress client
        return whiteList.isClientCanConnect host) := rfl
  rw [hunfold, callOn, callOn] at h ⊢
  -- either call may fail, but then the handler has not returned
  by_cases haddr : env.throwsAt = some .connectPeerAddress
  · rw [if_pos haddr] at h
    cases h
  by_cases hlog : env.throwsAt = some .connectLogPeerAddress
  · rw [if_neg haddr, if_pos hlog] at h
    cases h
  · rw [if_neg haddr, if_neg hlog] at h ⊢
    obtain rfl := Except.ok.inj h
    exact ⟨rfl, rfl⟩

omit [DecidableEq S] in
/-- All that handling a chunk logs concerns the client. -/
theorem socket_of_mem_handleData {state : LoopState S} {data : List UInt8} {env : HandlerEnv}
    {e : Event S} (h : e ∈ (handleData CServer.handlers state client data env).log) :
    e.socket = some client ∧ e.isAccept = false := by
  rw [log_handleData, List.mem_cons, List.mem_map] at h
  rcases h with rfl | ⟨event, hevent, rfl⟩
  · exact ⟨rfl, rfl⟩
  · exact ⟨congrArg some (CServer.concerns_packetHandler env client _ _ event hevent), rfl⟩

omit [DecidableEq S] in
/-- So does the `receiveBytes` before it. -/
theorem socket_of_mem_receive {state : LoopState S} {data : List UInt8} {env : HandlerEnv}
    {result : ReceiveResult} :
    ∀ e ∈ Event.receiveBytes client result ::
      (handleData CServer.handlers state client data env).log,
      e.socket = some client ∧ e.isAccept = false := by
  intro e he
  rcases List.mem_cons.mp he with rfl | he
  · exact ⟨rfl, rfl⟩
  · exact socket_of_mem_handleData he

/-- A received chunk and what the handlers make of it extend the session. -/
theorem session_append_receive (tr : List (Event S)) (state : LoopState S) (client : S)
    (data : List UInt8) (env : HandlerEnv) :
    session client (tr ++ .receiveBytes client (.bytes data) ::
        (handleData CServer.handlers state client data env).log) =
      session client tr ++ .receiveBytes client (.bytes data) ::
        (handleData CServer.handlers state client data env).log := by
  rw [session_append, eventsOf_eq_self]
  · exact fun e he => (socket_of_mem_receive e he).1
  · exact fun e he _ => (socket_of_mem_receive e he).2

omit [DecidableEq S] in
/-- Handling a chunk receives nothing more. -/
theorem received_handleData (state : LoopState S) (client : S) (data : List UInt8)
    (env : HandlerEnv) :
    (handleData CServer.handlers state client data env).log.filterMap Event.received = [] := by
  refine List.filterMap_eq_nil_iff.mpr fun e he => ?_
  rcases mem_log_handleData he with ⟨packetType, rfl⟩ | ⟨event, rfl⟩ <;> rfl

/-- What a step adds to the session of a client. -/
theorem ServerLoop.Progress.session_cases {state state' : LoopState S} {input : Input S CWhiteList}
    {es : List (Event S)} (hclient : client ≠ server) (hadm : Admissible state input)
    (h : Progress CServer.handlers server state input state' es) :
    Quiet client es ∧ (client ∈ state'.clients → client ∈ state.clients) ∨
    (∃ host, es = [.acceptConnection client host,
      .sendBytes client PacketType.accept.word.bytes]) ∨
    (client ∉ state'.clients ∧ ∃ host, es = [.acceptConnection client host,
      .sendBytes client PacketType.kick.word.bytes, .close client]) ∨
    (client ∈ state.readList ∧ state'.clients = state.clients ∧
      ∃ (state₀ : LoopState S) (data : List UInt8) (env : HandlerEnv),
        input = .receive (.bytes data) env ∧
        (handleData CServer.handlers state₀ client data env).result = .ok state' ∧
        es = .receiveBytes client (.bytes data) ::
          (handleData CServer.handlers state₀ client data env).log) := by
  -- which connection the step is about decides what it adds to the session
  cases h with
  | close hhead =>
      refine .inl ⟨fun e he _ => ?_, id⟩
      rcases List.mem_append.mp he with he | he
      · obtain ⟨s, -, rfl⟩ := List.mem_map.mp he
        exact ⟨rfl, rfl, rfl, rfl⟩
      · obtain rfl := List.mem_singleton.mp he
        exact ⟨rfl, rfl, rfl, rfl⟩
  | select hhead iCount ready throwsAt => exact .inl ⟨fun e he => by simp at he, id⟩
  | @admitted hrun rest hread newClient host world env hconnect =>
      rw [(connect_ok hconnect).1]
      by_cases hnew : newClient = client
      · subst hnew
        exact .inr (.inl ⟨host, rfl⟩)
      · refine .inl ⟨quiet_of_socket_ne hnew (by simp [Event.socket]), fun hmem => ?_⟩
        rcases List.mem_append.mp hmem with hmem | hmem
        · exact hmem
        · exact absurd (List.mem_singleton.mp hmem).symm hnew
  | @kick hrun rest hread newClient host world env hconnect =>
      rw [(connect_ok hconnect).1]
      by_cases hnew : newClient = client
      · subst hnew
        exact .inr (.inr (.inl ⟨hadm, host, rfl⟩))
      · exact .inl ⟨quiet_of_socket_ne hnew (by simp [Event.socket]), id⟩
  | shutdown hrun hread hne env =>
      refine .inl ⟨fun e he _ => ?_, id⟩
      obtain rfl := List.mem_singleton.mp he
      exact ⟨rfl, rfl, rfl, rfl⟩
  | negative => exact hadm.elim
  | @receive hrun sender rest hread hne data env _ hdata =>
      have hclients : state'.clients = state.clients := by rw [state_handleData hdata]
      by_cases hsender : sender = client
      · subst hsender
        exact .inr (.inr (.inr ⟨by simp [hread], hclients, _, data, env, rfl, hdata, rfl⟩))
      · exact .inl ⟨quiet_of_socket_ne hsender fun e he => (socket_of_mem_receive e he).1,
          fun hmem => hclients ▸ hmem⟩
  | erase hrun hread hdrop hmem throwsAt =>
      refine .inl ⟨fun e he _ => ?_, List.mem_of_mem_erase⟩
      obtain rfl := List.mem_singleton.mp he
      exact ⟨rfl, rfl, rfl, rfl⟩
  | missing hrun hread hdrop hmem throwsAt => exact .inl ⟨fun e he => by simp at he, id⟩

/-- When no call on a socket throws, only the handling of a chunk is left by an exception. -/
theorem fault_of_undisturbed {state : LoopState S} {input : Input S CWhiteList}
    {outcome : Logged (Event S) Fault (LoopState S)} {fault : Fault}
    (hadm : Undisturbed state input)
    (hup : onUpdate CServer.handlers server state input = some outcome)
    (herr : outcome.result = .error fault) :
    ∃ sender rest data stray, state.readList = sender :: rest ∧ sender ≠ server ∧
      input = .receive (.bytes data) ⟨stray, none⟩ ∧
      (handleData CServer.handlers { state with readList := rest } sender data
        ⟨stray, none⟩).result = .error fault ∧
      outcome.log = .receiveBytes sender (.bytes data) ::
        (handleData CServer.handlers { state with readList := rest } sender data
          ⟨stray, none⟩).log := by
  obtain ⟨hadm, hthrow⟩ := hadm
  obtain ⟨-, hbranch⟩ := branch_of_onUpdate hup
  -- without a failing call, only the handling of a chunk may not return
  cases hbranch with
  | accept hread newClient host world env =>
      obtain ⟨stray, throwsAt⟩ := env
      obtain rfl : throwsAt = none := hthrow
      simp only [acceptClient, connect, CServer.handlers, CServer.connectHandler_of_none] at herr
      cases hcan : world.isClientCanConnect host <;> rw [hcan] at herr <;> cases herr
  | @receive sender rest hread hclient result env =>
      obtain ⟨stray, throwsAt⟩ := env
      obtain ⟨hresult, rfl⟩ : result ≠ .throws ∧ throwsAt = none := hthrow
      cases result with
      | throws => exact absurd rfl hresult
      | shutdown => cases herr
      | negative => exact hadm.elim
      | bytes data => exact ⟨sender, rest, data, stray, hread, hclient, rfl, herr, rfl⟩
  | drop hread hdrop throwsAt =>
      obtain rfl : throwsAt = none := hthrow
      unfold dropClient at herr
      split at herr <;> cases herr
  | close hread hdrop => cases herr
  | select hread hdrop iCount ready throwsAt =>
      obtain rfl : throwsAt = none := hthrow
      cases herr

end PocoEcho

import PocoEcho.Network.ServerLoop

/-!
# What a step of the server loop does

`Branch` lists the branches of `OnUpdate`, each with its guards and what it does. `Progress` lists
the steps that stay inside the function or leave it normally, each with its successor state and its
events. Every other step is left by an exception (`thrown_or_progress`). The invariants of the loop
are case analyses over this list.
-/

namespace PocoEcho

open Poco

namespace ServerLoop

variable {S W : Type} {handlers : Handlers S W} {server : S}

/-- A call that does not throw does nothing. -/
theorem call_of_ne {throwsAt : Option CallSite} {site : CallSite} {socket : S}
    (h : throwsAt ≠ some site) : call throwsAt site socket = ⟨[], .ok ()⟩ := by
  rw [call, if_neg h]

/-- A call that throws says so. -/
theorem call_of_eq {throwsAt : Option CallSite} {site : CallSite} {socket : S}
    (h : throwsAt = some site) :
    call throwsAt site socket = ⟨[.throws socket], .error .pocoException⟩ := by
  rw [call, if_pos h]

/-- After a call that may throw, a computation that returns has made the call without exception. -/
theorem call_bind_ok {α : Type} {throwsAt : Option CallSite} {site : CallSite} {socket : S}
    {f : Unit → Logged (Event S) Fault α} {a : α}
    (h : (call throwsAt site socket >>= f).result = .ok a) :
    call throwsAt site socket >>= f = f () := by
  by_cases hthrow : throwsAt = some site
  · rw [call_of_eq hthrow] at h
    cases h
  · rw [call_of_ne hthrow]
    rfl

/-- Dispatching a packet logs nothing but the invocations and what the handlers do. -/
theorem mem_log_dispatch {env : HandlerEnv} {client : S} {packetType : Word} {buffer : FIFOBuffer}
    {e : Event S} (h : e ∈ (dispatch handlers env client packetType buffer).log) :
    e = .packetHandler client packetType ∨ ∃ event, e = .handler event := by
  unfold dispatch at h
  generalize handlers.packetHandlerList = list at h
  -- one handler after the other, on what the one before it has left of the buffer
  induction list generalizing buffer with
  | nil => simp at h
  | cons handlerFunction list ih =>
      rw [List.foldlM_cons] at h
      rcases Logged.mem_log_bind h with h | ⟨buffer', h⟩
      · rcases Logged.mem_log_bind h with h | ⟨_, h⟩
        · exact .inl (by simpa using h)
        · obtain ⟨event, -, rfl⟩ := List.mem_map.mp h
          exact .inr ⟨event, rfl⟩
      · exact ih h

/-- The packet type under which a chunk is handled: its first bytes, and where it is shorter than
four bytes, what was left in the variable. -/
def chunkType (stale : Word) (data : List UInt8) : Word :=
  stale.overwrite ((data.take maxBufferLength).take 4)

/-- The buffer that the handlers of a chunk are given. -/
def chunkBody (data : List UInt8) : FIFOBuffer :=
  (((BoundedQueue.empty maxBufferLength).write data).read 4).2

@[simp] theorem content_chunkBody {data : List UInt8} (h : data.length ≤ maxBufferLength) :
    (chunkBody data).content = data.drop 4 := by
  simp [chunkBody, List.take_of_length_le h]

/-- A chunk that starts with a type is handled under this type. -/
theorem chunkType_of_append (stale v : Word) (rest : List UInt8) :
    chunkType stale (v.bytes ++ rest) = v := by
  have hlen := v.length_eq
  have htake : ((v.bytes ++ rest).take maxBufferLength).take 4 = v.bytes := by
    rw [List.take_take, List.take_left' (by simp [maxBufferLength, hlen])]
  rw [chunkType, htake, Word.overwrite_bytes]

/-- A chunk of at least four bytes is handled under the type that its first four bytes are. -/
theorem chunkType_eq_iff {stale v : Word} {data : List UInt8} (h : 4 ≤ data.length) :
    chunkType stale data = v ↔ data.take 4 = v.bytes := by
  have htake : (data.take maxBufferLength).take 4 = data.take 4 := by
    rw [List.take_take]
    rfl
  have hbytes : (chunkType stale data).bytes = data.take 4 := by
    rw [chunkType, htake, Word.overwrite_of_le _ (by simpa using h), List.take_take]
    rfl
  rw [Word.ext_iff, hbytes]

/-- Handling a chunk is dispatching it under its type. -/
theorem handleData_eq (state : LoopState S) (client : S) (data : List UInt8) (env : HandlerEnv) :
    handleData handlers state client data env =
      (do
        let _ ← dispatch handlers env client (chunkType state.packetType data) (chunkBody data)
        return { state with packetType := chunkType state.packetType data }) := by
  simp [handleData, readWord, chunkType, chunkBody]

/-- Handling a chunk logs nothing but the invocations and what the handlers do. -/
theorem mem_log_handleData {state : LoopState S} {client : S} {data : List UInt8}
    {env : HandlerEnv} {e : Event S} (h : e ∈ (handleData handlers state client data env).log) :
    (∃ packetType, e = .packetHandler client packetType) ∨ ∃ event, e = .handler event := by
  rw [handleData_eq] at h
  rcases Logged.mem_log_bind h with h | ⟨_, h⟩
  · exact (mem_log_dispatch h).imp (fun h => ⟨_, h⟩) id
  · simp at h

/-- Handling a chunk changes nothing but the packet type. -/
theorem state_handleData {state state' : LoopState S} {client : S} {data : List UInt8}
    {env : HandlerEnv} (h : (handleData handlers state client data env).result = .ok state') :
    state' = { state with packetType := chunkType state.packetType data } := by
  rw [handleData_eq] at h
  cases hd : (dispatch handlers env client (chunkType state.packetType data)
      (chunkBody data)).result with
  | error fault =>
      rw [Logged.bind_of_error hd] at h
      cases h
  | ok buffer =>
      rw [Logged.bind_of_ok hd] at h
      exact (Except.ok.inj h).symm

variable [DecidableEq S]

/-- The steps that no exception ends. -/
inductive Progress (handlers : Handlers S W) (server : S) (state : LoopState S) :
    Input S W → LoopState S → List (Event S) → Prop
  /-- A close request: every socket of `clients` is closed, then `Exit` is called. -/
  | close (hhead : state.AtHead) :
      Progress handlers server state .closeRequested { state with status := .exited }
        (state.clients.map .close ++ [.exit])
  /-- A round begins, or the head of the loop is passed once more. -/
  | select (hhead : state.AtHead) (iCount : ℕ) (ready : List S) (throwsAt : Option CallSite) :
      Progress handlers server state (.select iCount ready throwsAt)
        { state with readList := if iCount = 0 then [] else ready } []
  /-- A connection is admitted. -/
  | admitted (hrun : state.status = .running) {rest : List S}
      (hread : state.readList = server :: rest) {client : S} {host : String} {world : W}
      {env : HandlerEnv} (hconnect : (connect handlers env world client host).result = .ok true) :
      Progress handlers server state (.accept client host world env)
        { state with
          packetType := PacketType.accept.word
          clients := state.clients ++ [client]
          readList := rest }
        (.acceptConnection client host ::
          ((connect handlers env world client host).log.map .handler ++
            [.sendBytes client PacketType.accept.word.bytes]))
  /-- A connection is kicked. -/
  | kick (hrun : state.status = .running) {rest : List S} (hread : state.readList = server :: rest)
      {client : S} {host : String} {world : W} {env : HandlerEnv}
      (hconnect : (connect handlers env world client host).result = .ok false) :
      Progress handlers server state (.accept client host world env)
        { state with packetType := PacketType.kick.word, readList := rest }
        (.acceptConnection client host ::
          ((connect handlers env world client host).log.map .handler ++
            [.sendBytes client PacketType.kick.word.bytes, .close client]))
  /-- A client has shut its connection down. -/
  | shutdown (hrun : state.status = .running) {client : S} {rest : List S}
      (hread : state.readList = client :: rest) (hclient : client ≠ server) (env : HandlerEnv) :
      Progress handlers server state (.receive .shutdown env)
        { state with readList := rest, dropList := state.dropList ++ [client] }
        [.receiveBytes client .shutdown]
  /-- Nothing has arrived; the handlers are invoked nevertheless. -/
  | negative (hrun : state.status = .running) {client : S} {rest : List S}
      (hread : state.readList = client :: rest) (hclient : client ≠ server) (env : HandlerEnv)
      {state' : LoopState S}
      (hdata : (handleData handlers { state with readList := rest } client [] env).result =
        .ok state') :
      Progress handlers server state (.receive .negative env) state'
        (.receiveBytes client .negative ::
          (handleData handlers { state with readList := rest } client [] env).log)
  /-- A chunk of bytes is handled. -/
  | receive (hrun : state.status = .running) {client : S} {rest : List S}
      (hread : state.readList = client :: rest) (hclient : client ≠ server) (data : List UInt8)
      (env : HandlerEnv) {state' : LoopState S}
      (hdata : (handleData handlers { state with readList := rest } client data env).result =
        .ok state') :
      Progress handlers server state (.receive (.bytes data) env) state'
        (.receiveBytes client (.bytes data) ::
          (handleData handlers { state with readList := rest } client data env).log)
  /-- A connection of `dropList` is removed from `clients`. -/
  | erase (hrun : state.status = .running) (hread : state.readList = []) {client : S}
      {rest : List S} (hdrop : state.dropList = client :: rest) (hmem : client ∈ state.clients)
      (throwsAt : Option CallSite) :
      Progress handlers server state (.drop throwsAt)
        { state with dropList := rest, clients := state.clients.erase client } [.erase client]
  /-- A connection of `dropList` is not in `clients`. -/
  | missing (hrun : state.status = .running) (hread : state.readList = []) {client : S}
      {rest : List S} (hdrop : state.dropList = client :: rest) (hmem : client ∉ state.clients)
      (throwsAt : Option CallSite) :
      Progress handlers server state (.drop throwsAt) { state with dropList := rest } []

/-- The accepting branch, when it returns. -/
theorem progress_acceptClient {state state' : LoopState S} {rest : List S} {client : S}
    {host : String} {world : W} {env : HandlerEnv} (hrun : state.status = .running)
    (hread : state.readList = server :: rest)
    (hok : (acceptClient handlers server { state with readList := rest } client host world
      env).result = .ok state') :
    Progress handlers server state (.accept client host world env) state'
      (acceptClient handlers server { state with readList := rest } client host world env).log := by
  unfold acceptClient at hok ⊢
  have hcall := call_bind_ok hok
  rw [hcall] at hok ⊢
  -- the decision of the connect handler splits the branch
  cases hconnect : (connect handlers env world client host).result with
  | error fault =>
      rw [Logged.emit_bind, Logged.bind_of_error (by simpa using hconnect)] at hok
      cases hok
  | ok admitted =>
      have hmap : ((connect handlers env world client host).mapLog Event.handler).result =
          .ok admitted := by simpa using hconnect
      rw [Logged.emit_bind, Logged.bind_of_ok hmap] at hok ⊢
      cases admitted with
      | true =>
          simp only [↓reduceIte] at hok ⊢
          -- `sendBytes` of the ACCEPT packet returns
          have hsend := call_bind_ok hok
          rw [hsend] at hok ⊢
          obtain rfl := Except.ok.inj hok
          exact .admitted hrun hread hconnect
      | false =>
          simp only [Bool.false_eq_true, ↓reduceIte] at hok ⊢
          have hsend := call_bind_ok hok
          rw [hsend, Logged.emit_bind] at hok ⊢
          -- `close` of the kicked connection returns
          have hclose := call_bind_ok hok
          rw [hclose] at hok ⊢
          obtain rfl := Except.ok.inj hok
          exact .kick hrun hread hconnect

/-- The receiving branch, when it returns. -/
theorem progress_receiveFrom {state state' : LoopState S} {client : S} {rest : List S}
    {result : ReceiveResult} {env : HandlerEnv} (hrun : state.status = .running)
    (hread : state.readList = client :: rest) (hclient : client ≠ server)
    (hok : (receiveFrom handlers { state with readList := rest } client result env).result =
      .ok state') :
    Progress handlers server state (.receive result env) state'
      (receiveFrom handlers { state with readList := rest } client result env).log := by
  cases result with
  | throws => cases hok
  | shutdown =>
      obtain rfl := Except.ok.inj hok
      exact .shutdown hrun hread hclient env
  | negative => exact .negative hrun hread hclient env hok
  | bytes data => exact .receive hrun hread hclient data env hok

/-- An iteration of the drop loop, when it returns. -/
theorem progress_dropClient {state state' : LoopState S} {client : S} {rest : List S}
    {throwsAt : Option CallSite} (hrun : state.status = .running) (hread : state.readList = [])
    (hdrop : state.dropList = client :: rest)
    (hok : (dropClient { state with dropList := rest } client throwsAt).result = .ok state') :
    Progress handlers server state (.drop throwsAt) state'
      (dropClient { state with dropList := rest } client throwsAt).log := by
  unfold dropClient at hok ⊢
  split at hok
  next hmem =>
    rw [if_pos hmem]
    have hcall := call_bind_ok hok
    rw [hcall] at hok ⊢
    obtain rfl := Except.ok.inj hok
    exact .erase hrun hread hdrop hmem throwsAt
  next hmem =>
    rw [if_neg hmem]
    obtain rfl := Except.ok.inj hok
    exact .missing hrun hread hdrop hmem throwsAt

/-- The branches of the function in a running state, each with its guards and what it does. -/
inductive Branch (handlers : Handlers S W) (server : S) (state : LoopState S) :
    Input S W → Logged (Event S) Fault (LoopState S) → Prop
  /-- The listening socket is ready: a connection is accepted. -/
  | accept {rest : List S} (hread : state.readList = server :: rest) (client : S) (host : String)
      (world : W) (env : HandlerEnv) :
      Branch handlers server state (.accept client host world env)
        (acceptClient handlers server { state with readList := rest } client host world env)
  /-- A client is ready: something is received from it. -/
  | receive {client : S} {rest : List S} (hread : state.readList = client :: rest)
      (hclient : client ≠ server) (result : ReceiveResult) (env : HandlerEnv) :
      Branch handlers server state (.receive result env)
        (receiveFrom handlers { state with readList := rest } client result env)
  /-- The round is over: its dropped sockets are removed. -/
  | drop (hread : state.readList = []) {dropTarget : S} {rest : List S}
      (hdrop : state.dropList = dropTarget :: rest) (throwsAt : Option CallSite) :
      Branch handlers server state (.drop throwsAt)
        (dropClient { state with dropList := rest } dropTarget throwsAt)
  /-- The head of the loop finds a close request. -/
  | close (hread : state.readList = []) (hdrop : state.dropList = []) :
      Branch handlers server state .closeRequested
        ⟨state.clients.map .close ++ [.exit], .ok { state with status := .exited }⟩
  /-- The head of the loop finds none. -/
  | select (hread : state.readList = []) (hdrop : state.dropList = []) (iCount : ℕ)
      (ready : List S) (throwsAt : Option CallSite) :
      Branch handlers server state (.select iCount ready throwsAt)
        (do
          call throwsAt .select server
          return if iCount = 0 then state else { state with readList := ready })

/-- Whatever the function does, it does in one of its branches. -/
theorem branch_of_onUpdate {state : LoopState S} {input : Input S W}
    {outcome : Logged (Event S) Fault (LoopState S)}
    (hup : onUpdate handlers server state input = some outcome) :
    state.status = .running ∧ Branch handlers server state input outcome := by
  unfold onUpdate at hup
  split at hup
  · cases hup
  next hrun =>
    refine ⟨by simpa using hrun, ?_⟩
    split at hup
    next readSocket rest client host world env hread =>
      split at hup
      next heq =>
        subst heq
        obtain rfl := Option.some.inj hup
        exact .accept hread client host world env
      next => cases hup
    next readSocket rest result env hread =>
      split at hup
      next => cases hup
      next hne =>
        obtain rfl := Option.some.inj hup
        exact .receive hread hne result env
    next dropTarget rest throwsAt hread hdrop =>
      obtain rfl := Option.some.inj hup
      exact .drop hread hdrop throwsAt
    next hread hdrop =>
      obtain rfl := Option.some.inj hup
      exact .close hread hdrop
    next iCount ready throwsAt hread hdrop =>
      obtain rfl := Option.some.inj hup
      exact .select hread hdrop iCount ready throwsAt
    next => cases hup

/-- The branches are what the function does. -/
theorem onUpdate_of_branch {state : LoopState S} {input : Input S W}
    {outcome : Logged (Event S) Fault (LoopState S)} (hrun : state.status = .running)
    (hbranch : Branch handlers server state input outcome) :
    onUpdate handlers server state input = some outcome := by
  unfold onUpdate
  rw [if_neg (not_not.mpr hrun)]
  cases hbranch with
  | accept hread => simp only [hread, if_true]
  | receive hread hclient => simp only [hread, if_neg hclient]
  | drop hread hdrop => simp only [hread, hdrop]
  | close hread hdrop => simp only [hread, hdrop]
  | select hread hdrop => simp only [hread, hdrop]

/-- Every input that the function accepts and that no exception ends is one of the listed steps. -/
theorem progress_of_ok {state state' : LoopState S} {input : Input S W}
    {outcome : Logged (Event S) Fault (LoopState S)}
    (hup : onUpdate handlers server state input = some outcome)
    (hok : outcome.result = .ok state') :
    Progress handlers server state input state' outcome.log := by
  obtain ⟨hrun, hbranch⟩ := branch_of_onUpdate hup
  cases hbranch with
  | accept hread client host world env => exact progress_acceptClient hrun hread hok
  | receive hread hclient result env => exact progress_receiveFrom hrun hread hclient hok
  | drop hread hdrop throwsAt => exact progress_dropClient hrun hread hdrop hok
  | close hread hdrop =>
      obtain rfl := Except.ok.inj hok
      exact .close ⟨hrun, hread, hdrop⟩
  | select hread hdrop iCount ready throwsAt =>
      have hcall := call_bind_ok hok
      rw [hcall] at hok ⊢
      -- a `select` that returns 0 starts the loop anew
      have hstate : (if iCount = 0 then state else { state with readList := ready }) =
          { state with readList := if iCount = 0 then [] else ready } := by
        split
        · rw [← hread]
        · rfl
      rw [hstate] at hok ⊢
      obtain rfl := Except.ok.inj hok
      exact .select ⟨hrun, hread, hdrop⟩ iCount ready throwsAt

/-- A branch that returns is a step. -/
theorem step_of_ok {state state' : LoopState S} {input : Input S W} {es : List (Event S)}
    (h : onUpdate handlers server state input = some ⟨es, .ok state'⟩) :
    (serverLoop handlers server).step state input = some (state', es) := by
  simp only [serverLoop, step, h, Option.map_some]

/-- A branch that is left by an exception ends the loop. -/
theorem step_of_error {state : LoopState S} {input : Input S W} {es : List (Event S)}
    {fault : Fault} (h : onUpdate handlers server state input = some ⟨es, .error fault⟩) :
    (serverLoop handlers server).step state input =
      some ({ state with status := .thrown fault }, es) := by
  simp only [serverLoop, step, h, Option.map_some]

/-- A running loop whose next ready socket is a client handles the chunk received from it. -/
theorem step_receive (handlers : Handlers S W) (state : LoopState S) {client : S} {rest : List S}
    (hrun : state.status = .running) (hread : state.readList = client :: rest)
    (hclient : client ≠ server) (data : List UInt8) (env : HandlerEnv) :
    (serverLoop handlers server).step state (.receive (.bytes data) env) =
      some (match (handleData handlers { state with readList := rest } client data env).result with
        | .ok state' => state'
        | .error fault => { state with status := .thrown fault },
        .receiveBytes client (.bytes data) ::
          (handleData handlers { state with readList := rest } client data env).log) := by
  have hup : onUpdate handlers server state (.receive (.bytes data) env) =
      some (receiveFrom handlers { state with readList := rest } client (.bytes data) env) := by
    simp [onUpdate, hrun, hread, hclient]
  cases hresult : (handleData handlers { state with readList := rest } client data env).result with
  | ok state' => exact step_of_ok (hup.trans (by rw [receiveFrom, Logged.emit_bind, hresult]))
  | error fault => exact step_of_error (hup.trans (by rw [receiveFrom, Logged.emit_bind, hresult]))

/-- A step ends with what the function has done: it is left by an exception, or it returns. -/
theorem outcome_of_step {state state' : LoopState S} {input : Input S W} {es : List (Event S)}
    (h : step handlers server state input = some (state', es)) :
    ∃ outcome, onUpdate handlers server state input = some outcome ∧ es = outcome.log ∧
      ((∃ fault, outcome.result = .error fault ∧
          state' = { state with status := .thrown fault }) ∨ outcome.result = .ok state') := by
  obtain ⟨outcome, hup, heq⟩ := Option.map_eq_some_iff.mp h
  refine ⟨outcome, hup, ?_⟩
  cases hresult : outcome.result with
  | error fault =>
      rw [hresult] at heq
      obtain ⟨rfl, rfl⟩ := Prod.mk.inj heq
      exact ⟨rfl, .inl ⟨fault, rfl, rfl⟩⟩
  | ok next =>
      rw [hresult] at heq
      obtain ⟨rfl, rfl⟩ := Prod.mk.inj heq
      exact ⟨rfl, .inr rfl⟩

/-- A step is left by an exception or is one of the listed ones. -/
theorem thrown_or_progress {state state' : LoopState S} {input : Input S W} {es : List (Event S)}
    (h : step handlers server state input = some (state', es)) :
    (∃ fault outcome, onUpdate handlers server state input = some outcome ∧
        outcome.result = .error fault ∧ es = outcome.log ∧
        state' = { state with status := .thrown fault }) ∨
      Progress handlers server state input state' es := by
  obtain ⟨outcome, hup, rfl, ⟨fault, hresult, rfl⟩ | hresult⟩ := outcome_of_step h
  · exact .inl ⟨fault, outcome, hup, hresult, rfl, rfl⟩
  · exact .inr (progress_of_ok hup hresult)

/-- The listed steps are steps of a running loop. -/
theorem Progress.running {state state' : LoopState S} {input : Input S W} {es : List (Event S)}
    (h : Progress handlers server state input state' es) : state.status = .running := by
  cases h with
  | close hhead => exact hhead.1
  | select hhead => exact hhead.1
  | admitted hrun => exact hrun
  | kick hrun => exact hrun
  | shutdown hrun => exact hrun
  | negative hrun => exact hrun
  | receive hrun => exact hrun
  | erase hrun => exact hrun
  | missing hrun => exact hrun

/-- Only a close request ends the loop without exception. -/
theorem Progress.running_or_exited {state state' : LoopState S} {input : Input S W}
    {es : List (Event S)} (h : Progress handlers server state input state' es) :
    state'.status = .running ∨
      state'.status = .exited ∧ state'.clients = state.clients ∧
        es = state.clients.map .close ++ [.exit] := by
  have hrun := h.running
  cases h with
  | close => exact .inr ⟨rfl, rfl, rfl⟩
  | negative _ _ _ _ hdata =>
      rw [state_handleData hdata]
      exact .inl hrun
  | receive _ _ _ _ _ hdata =>
      rw [state_handleData hdata]
      exact .inl hrun
  | _ => exact .inl hrun

/-- The listed steps do not leave the function by an exception. -/
theorem Progress.not_thrown {state state' : LoopState S} {input : Input S W} {es : List (Event S)}
    (h : Progress handlers server state input state' es) (fault : Fault) :
    state'.status ≠ .thrown fault := by
  intro hthrown
  rcases h.running_or_exited with hrun | ⟨hexit, -⟩
  · rw [hthrown] at hrun
    cases hrun
  · rw [hthrown] at hexit
    cases hexit

/-- The invariant rule of the loop: what holds initially and is preserved by the steps that no
exception ends holds of every reachable state that no exception has left. -/
theorem invariant_of_progress {adm : LoopState S → Input S W → Prop} {s₀ : LoopState S}
    {P : LoopState S → List (Event S) → Prop} (hinit : P s₀ [])
    (hstep : ∀ {s s' tr es i}, P s tr → adm s i → Progress handlers server s i s' es →
      P s' (tr ++ es))
    {state : LoopState S} {tr : List (Event S)}
    (h : (serverLoop handlers server).Reachable adm s₀ state tr) :
    P state tr ∨ ∃ fault, state.status = .thrown fault := by
  refine h.invariant (P := fun state tr => P state tr ∨ ∃ fault, state.status = .thrown fault)
    (.inl hinit) ?_
  intro s s' tr es i _ hinv hadm hs
  -- an exception ends the run, and no step follows it
  rcases thrown_or_progress hs with ⟨fault, _, _, _, _, rfl⟩ | hprog
  · exact .inr ⟨fault, rfl⟩
  · rcases hinv with hinv | ⟨fault, hthrown⟩
    · exact .inl (hstep hinv hadm hprog)
    · rw [hprog.running] at hthrown
      cases hthrown

end ServerLoop

end PocoEcho

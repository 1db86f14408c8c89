import PocoEcho.System.Whitelist

/-!
# Accepting and receiving at once

`select` returns the sockets from which something can be received, and the server then handles them
one after another. Nothing that happens meanwhile takes away what has been seen there: no `accept`
and no `receiveBytes` of the server waits. Whether its `sendBytes` waits for a client that does not
read is another matter: here it never does.

## Main definitions

* `EchoSystem.ReadsReady`: every socket that is still to be handled in a round is ready.

## Main results

* `EchoSystem.Reaches.readsReady`: this holds in every reachable state;
* `EchoSystem.server_receives_at_once`: the server can take its next step.
-/

namespace PocoEcho

open Poco ServerLoop

namespace EchoSystem

variable {S : Type} [DecidableEq S] {system system' : EchoSystem S} {tr es : List (Event S)}
  {client : S}

/-! ## The round of the server -/

/-- Every socket that is still to be handled in this round is ready, unless an exception has ended
the round. -/
def ReadsReady (system : EchoSystem S) : Prop :=
  ∀ loop ∈ system.program.loop, loop.status = .running →
    ∀ socket ∈ loop.readList, system.Readable socket

omit [DecidableEq S] in
/-- Unless something is received from the client, it has as much on its way as before. -/
theorem upstream_foldl_observe {events : List (PocoEcho.Event S)} {connection : Connection}
    (hsocket : ∀ e ∈ events, e.socket = some client)
    (h : ∀ data, .receiveBytes client (.bytes data) ∉ events) :
    (events.foldl Connection.observe connection).upstream = connection.upstream := by
  induction events generalizing connection with
  | nil => rfl
  | cons e events ih =>
      rw [List.foldl_cons, ih (fun e' he' => hsocket e' (List.mem_cons_of_mem e he'))
        fun data hmem => h data (List.mem_cons_of_mem e hmem)]
      unfold Connection.observe
      split
      next => rfl
      next => rfl
      next s data =>
        -- the event is about this connection
        obtain rfl := Option.some.inj (hsocket _ List.mem_cons_self)
        exact absurd List.mem_cons_self (h data)
      next => rfl
      next => rfl

theorem upstream_observe {program : ServerProgram S} {events : List (PocoEcho.Event S)}
    (h : ∀ data, .receiveBytes client (.bytes data) ∉ events) :
    ((system.observe program events).connection client).upstream =
      (system.connection client).upstream :=
  upstream_foldl_observe (fun _ he => by simpa using (List.mem_filter.mp he).2)
    fun data hmem => h data (List.mem_of_mem_filter hmem)

/-- What the server receives, it receives from the socket that it handles. -/
theorem head_of_received {server socket : S} {loop loop' : LoopState S}
    {input : PocoEcho.Input S CWhiteList} {events : List (PocoEcho.Event S)} {data : List UInt8}
    (h : Progress CServer.handlers server loop input loop' events)
    (hmem : .receiveBytes socket (.bytes data) ∈ events) : loop.readList.head? = some socket := by
  cases h with
  | close => simp at hmem
  | select => simp at hmem
  | admitted => simp at hmem
  | kick => simp at hmem
  | shutdown => simp at hmem
  | negative _ hread =>
      rw [hread]
      exact (socket_of_mem_receive _ hmem).1.symm
  | receive _ hread =>
      rw [hread]
      exact (socket_of_mem_receive _ hmem).1.symm
  | erase => simp at hmem
  | missing => simp at hmem

/-! ## The update threads of the clients -/

omit [DecidableEq S] in
/-- What a stream delivers is what the client expects of its socket. -/
theorem ClientAdmissible.undisturbed {connection : Connection} {input : ClientInput}
    (h : ClientAdmissible Channel.Delivers connection input) (loop : ClientState) :
    ClientUndisturbed loop input := by
  refine ⟨?_, h.noThrow⟩
  cases input with
  | closeRequested => trivial
  | poll ready => trivial
  | pollThrows => trivial
  | receiveType result =>
      cases result with
      | bytes data => exact ⟨h.1, h.2.1⟩
      | _ => trivial
  | receivePayload result env =>
      cases result with
      | bytes data => exact ⟨h.1.1, h.1.2.1⟩
      | _ => trivial

/-- The update thread of a client does what it could do by itself. -/
theorem Reaches.clientLoop (h : Reaches Channel.Delivers system tr) :
    ∀ client loop, (system.connection client).phase = .running loop →
      ∃ packetType tr', CClient.Reaches packetType loop tr' := by
  refine h.invariant (P := fun system _ => ∀ client loop,
    (system.connection client).phase = .running loop →
      ∃ packetType tr', CClient.Reaches packetType loop tr')
    (fun client loop hphase => by cases hphase) ?_
  intro system system' tr es input _ ih hadm hs client loop hphase
  generalize hphase' : (system'.connection client).phase = phase' at hphase
  have hstep := phaseStep_of_step hs client
  rw [hphase'] at hstep
  cases hstep with
  | same => exact ih client loop hphase
  | connectNB => cases hphase
  | tryConnect _ attempt packetType =>
      obtain ⟨-, -, -, hread⟩ := hadm
      by_cases haccepted : attempt.handshake.Accepted
      · rw [tryConnect_of_accepted haccepted] at hphase
        obtain rfl := ClientPhase.running.inj hphase
        exact ⟨packetType, [], .init⟩
      · rw [tryConnect_of_not_accepted haccepted hread] at hphase
        cases hphase
  | client hbefore hstep =>
      obtain ⟨packetType, tr', hreach⟩ := ih client _ hbefore
      obtain rfl := ClientPhase.running.inj hphase
      exact ⟨packetType, _, hreach.step (ClientAdmissible.undisturbed hadm _) hstep⟩
  | ended => cases hphase

/-! ## The round of the server -/

/-- The socket is as ready as before. -/
theorem Readable.of_eq {socket : S} (h : system.Readable socket)
    (hserver : system'.serverSocket = system.serverSocket)
    (hbacklog : system.serverSocket = some socket → system.backlog ≠ [] → system'.backlog ≠ [])
    (hup : system.serverSocket ≠ some socket → (system.connection socket).upstream.bytes ≠ [] →
      (system'.connection socket).upstream.bytes ≠ [])
    (hclosed : (system.connection socket).clientClosed = true →
      (system'.connection socket).clientClosed = true) : system'.Readable socket := by
  unfold Readable at h ⊢
  rw [hserver]
  split at h
  next heq =>
    rw [if_pos heq]
    exact hbacklog heq h
  next hne =>
    rw [if_neg hne]
    exact h.imp (hup hne) hclosed

/-- A step of the loop leaves what is still to be handled in this round as ready as it was. -/
theorem ReadsReady.of_progress {loop loop' : LoopState S} {events : List (PocoEcho.Event S)}
    {server : S} {past : List (PocoEcho.Event S)} {input : PocoEcho.Input S Unit}
    {whiteList : CWhiteList} {delivery : Delivery} (h : system.ReadsReady)
    (hloop : system.program.loop = some loop) (hserver : system.serverSocket = some server)
    (hlists : ClientsInv server loop past) (hadm : system.LoopAdmissible delivery loop input)
    (hprog : Progress CServer.handlers server loop (input.withWorld whiteList) loop' events) :
    (system.afterLoop loop' events).ReadsReady := by
  have hready := h loop hloop hprog.running
  have hnodup := hlists.readList_nodup
  -- nothing is received from the rest of the round, and it is not accepted from twice
  have hrest : ∀ {head : S} {rest : List S}, loop.readList = head :: rest →
      (head ≠ server → accepted events = []) →
      ∀ socket ∈ rest, (system.afterLoop loop' events).Readable socket := by
    intro head rest hread haccepted socket hsocket
    rw [hread] at hnodup hready
    -- a round has no socket twice
    have hne : socket ≠ head := by
      rintro rfl
      exact (List.nodup_cons.mp hnodup).1 hsocket
    refine (hready socket (List.mem_cons_of_mem _ hsocket)).of_eq rfl ?_ ?_ ?_
    · intro heq hbacklog
      rw [hserver, Option.some.injEq] at heq
      have hnil := haccepted (by rintro rfl; exact hne heq.symm)
      simpa only [observe, hnil, List.diff_nil] using hbacklog
    · intro _ hup
      -- what is received comes from the head of the round, which is another socket
      rw [upstream_observe fun data hmem => ?_]
      · exact hup
      · have hhead := head_of_received hprog hmem
        rw [hread] at hhead
        exact hne (Option.some.inj hhead).symm
    · exact fun hclosed => (clientClosed_observe _ _ _).trans hclosed
  generalize hinput : input.withWorld whiteList = input' at hprog
  intro loop'' hmem _
  obtain rfl := Option.some.inj hmem
  cases hprog with
  | close hhead => simp [hhead.2.1]
  | select hhead iCount ready throwsAt =>
      rw [afterLoop, observe_nil]
      intro socket hsocket
      -- a new round has the sockets that `select` has found ready
      have hselected : socket ∈ ready := by
        change socket ∈ (if iCount = 0 then [] else ready) at hsocket
        split at hsocket
        · simp at hsocket
        · exact hsocket
      cases input <;> cases hinput
      exact hadm socket hselected
  -- what follows takes the head off the round
  | admitted _ hread => exact hrest hread fun hne => absurd rfl hne
  | kick _ hread => exact hrest hread fun hne => absurd rfl hne
  | shutdown _ hread => exact hrest hread fun _ => rfl
  | negative _ hread _ _ hdata =>
      rw [state_handleData hdata]
      exact hrest hread fun _ => accepted_eq_nil fun e he => (socket_of_mem_receive e he).2
  | receive _ hread _ _ _ hdata =>
      rw [state_handleData hdata]
      exact hrest hread fun _ => accepted_eq_nil fun e he => (socket_of_mem_receive e he).2
  | erase _ hread => simp [hread]
  | missing _ hread => simp [hread]

/-- A client whose update thread takes a step has not closed its end. -/
theorem Reaches.clientClosed_of_step (h : Reaches Channel.Delivers system tr) {loop : ClientState}
    (hphase : (system.connection client).phase = .running loop)
    (hrun : loop.status = .running) : (system.connection client).clientClosed = false := by
  obtain ⟨packetType, tr', hreach⟩ := Reaches.clientLoop h client loop hphase
  rw [Connection.clientClosed_of_running hphase, CClient.socketLive_of_reaches hreach hrun]
  rfl

/-- A step of a client program leaves every socket as ready as it was. -/
theorem Reaches.readable_of_step (hreach : Reaches Channel.Delivers system tr) {input : Input S}
    (hinput : ∀ i, input ≠ .server i)
    (hs : (echoSystem S).step system input = some (system', es)) {socket : S}
    (h : system.Readable socket) : system'.Readable socket := by
  -- the connection of the client keeps what is on its way up, and is not opened again
  have hset : ∀ {client : S} {connection : Connection},
      ((system.connection client).upstream.bytes ≠ [] → connection.upstream.bytes ≠ []) →
      ((system.connection client).clientClosed = true → connection.clientClosed = true) →
        (system.setConnection client connection).Readable socket := by
    intro client connection hup hclosed
    have hcases : (system.setConnection client connection).connection socket =
        if socket = client then connection else system.connection socket :=
      Function.update_apply ..
    refine h.of_eq rfl (fun _ h => h) (fun _ h => ?_) fun h => ?_
    · rw [hcases]
      split
      next heq => exact hup (heq ▸ h)
      next => exact h
    · rw [hcases]
      split
      next heq => exact hclosed (heq ▸ h)
      next => exact h
  cases ClientStep.of_step hs hinput with
  | @connectNB user _ _ hphase =>
      -- the backlog has only become longer
      have hready := @hset user { system.connection user with phase := .handshake } id
        (fun hclosed => by rw [Connection.clientClosed_of_idle hphase] at hclosed; cases hclosed)
      exact hready.of_eq rfl (fun _ _ => by simp) (fun _ => id) id
  | tryConnect hphase attempt =>
      refine hset (fun hup => ?_) fun hclosed => ?_
      · rwa [← upstream_observeClient _ (.receiveBytes attempt.handshake.receiveBytes)] at hup
      · rw [Connection.clientClosed_of_handshake hphase] at hclosed
        cases hclosed
  | @client _ _ _ _ events hphase hstep =>
      refine hset (fun hup => ?_) fun hclosed => ?_
      · rwa [← upstream_foldl_observeClient _ events] at hup
      · -- the loop runs, so the socket exists
        have hopen := Reaches.clientClosed_of_step hreach hphase (ClientLoop.running_of_step hstep)
        rw [hopen] at hclosed
        cases hclosed
  | enter hphase szMessage behind =>
      refine hset (fun hup => ?_) fun hclosed => ?_
      · unfold enter
        split
        next =>
          split
          next => simp [hup]
          next => exact hup
        next => exact hup
      · unfold enter
        split
        next =>
          split
          next hlive =>
            rw [Connection.clientClosed_of_running hphase, hlive] at hclosed
            cases hclosed
          next => rfl
        next => rfl

/-- In every reachable state, however the streams deliver, the rest of the round is ready. -/
theorem Reaches.readsReady (h : Reaches Channel.Delivers system tr) : system.ReadsReady := by
  refine h.invariant (P := fun system _ => system.ReadsReady)
    (by simp [ReadsReady, initial, ServerProgram.initial]) ?_
  intro system system' tr es input hreach hready hadm hs
  by_cases hinput : ∃ i, input = .server i
  · obtain ⟨i, rfl⟩ := hinput
    obtain ⟨⟨program', events⟩, hstep, hp⟩ := Option.map_eq_some_iff.mp hs
    obtain ⟨rfl, -⟩ := Prod.mk.inj hp
    rcases silentStep_or_loopTurn (Reaches.program hreach) hadm hstep with
      ⟨past, hsilent, hnetwork⟩ | ⟨⟨turn⟩⟩
    · rw [hsilent.loopEvents_eq, observe_nil]
      intro loop hloop hrun socket hsocket
      rcases hsilent.loop_cases with
        ⟨hsame, -, hnet⟩ | ⟨-, hnone | ⟨-, server, packetType, -, hstart⟩⟩
      · have hbefore := hready loop (hsame ▸ hloop) hrun socket hsocket
        refine hbefore.of_eq ?_ (fun _ => id) (fun _ => id) id
        rw [serverSocket, serverSocket, hnet]
      · simp [hnone] at hloop
      · rw [hstart] at hloop
        obtain rfl := Option.some.inj hloop
        -- a loop that starts has no round yet
        simp [LoopState.initial] at hsocket
    · rw [turn.observe_eq]
      rcases thrown_or_progress turn.step_eq with ⟨fault, -, -, -, -, hthrown⟩ | hprog
      · -- there is no round any more
        intro loop hloop hrun
        obtain rfl := Option.some.inj hloop
        rw [hthrown] at hrun
        cases hrun
      · exact hready.of_progress turn.loop_eq turn.serverSocket_eq turn.lists turn.admissible hprog
  · have hother := not_exists.mp hinput
    intro loop hloop hrun socket hsocket
    obtain ⟨i, rfl, -⟩ | ⟨-, hprogram, -⟩ := serverEvents_of_step hs
    · exact absurd rfl (hother i)
    · rw [hprogram] at hloop
      exact Reaches.readable_of_step hreach hother hs (hready loop hloop hrun socket hsocket)

/-! ## The next step of the server -/

/-- When the update thread waits for an input that can come, it can take a step. -/
theorem exists_step_of_waits {delivery : Delivery} (hreach : Reaches delivery system tr)
    {loop : LoopState S} (hloop : system.program.loop = some loop) {server : S}
    (hnetwork : system.program.network = some (ServerProgram.started server))
    {input : PocoEcho.Input S Unit}
    (hwaits :
      onUpdate CServer.handlers server loop (input.withWorld system.program.whiteList) ≠ none)
    (hundisturbed : Undisturbed loop (input.withWorld system.program.whiteList))
    (hadm : system.LoopAdmissible delivery loop input) :
    ∃ loop' events, Admissible delivery system (.server (.loop input)) ∧
      (echoSystem S).step system (.server (.loop input)) =
        some (system.afterLoop loop' events, (events.map .loop).map .server) ∧
      (serverLoop CServer.handlers server).step loop
        (input.withWorld system.program.whiteList) = some (loop', events) := by
  have hstage := (ServerProgram.programInv_of_reachable hreach.program).stage_eq (by simp [hloop])
  -- the console is at work, since the loop has been started
  obtain ⟨outcome, hup⟩ := Option.ne_none_iff_exists'.mp hwaits
  obtain ⟨⟨loop', events⟩, hs⟩ : ∃ p, (serverLoop CServer.handlers server).step loop
      (input.withWorld system.program.whiteList) = some p := ⟨_, congrArg (Option.map _) hup⟩
  refine ⟨loop', events, ⟨?_, ?_⟩, ?_, hs⟩
  · intro loop'' hmem
    obtain rfl := Option.some.inj (hloop.symm.trans hmem)
    exact hundisturbed
  · intro loop'' hmem
    obtain rfl := Option.some.inj (hloop.symm.trans hmem)
    exact hadm
  · change (ServerProgram.step system.program (.loop input)).map _ = _
    have hprogram : ServerProgram.step system.program (.loop input) =
        some ({ system.program with loop := some loop' }, events.map .loop) :=
      ServerProgram.step_loop hstage hnetwork hloop hs
    simp only [hprogram, Option.map_some, ServerProgram.loopEvents_map_loop]

/-- A connection that waits to be accepted is not a client. -/
theorem Reaches.fresh (h : Reaches Channel.Delivers system tr) {loop : LoopState S}
    (hloop : system.program.loop = some loop) (hmem : client ∈ system.backlog) :
    client ∉ loop.clients := by
  intro hclient
  have hinv := Reaches.whitelistInv h
  obtain ⟨server, hnetwork, hne⟩ := Reaches.connected h client (hinv.waiting client hmem).1
  exact hinv.notMem_of_admitted ((ServerProgram.admissionInv_of_reachable h.program).clients loop
    server hloop hnetwork client hclient hne) hmem

/-- What the update thread of the server meets as long as its round is not over: a connection to
accept, something to receive, or a connection to drop. -/
theorem exists_input_of_round {delivery : Delivery} {server : S} {loop : LoopState S}
    {whiteList : CWhiteList} (hrun : loop.status = .running)
    (hround : loop.readList ≠ [] ∨ loop.dropList ≠ [])
    (hserver : system.serverSocket = some server)
    (hready : ∀ socket ∈ loop.readList, system.Readable socket)
    (hfresh : ∀ client ∈ system.backlog, client ∉ loop.clients)
    (hdelivers : ∀ socket, (system.connection socket).upstream.bytes ≠ [] → ∃ data,
      data ≠ [] ∧ data.length ≤ maxBufferLength ∧
        delivery (system.connection socket).upstream maxBufferLength data) :
    ∃ input : PocoEcho.Input S Unit,
      onUpdate CServer.handlers server loop (input.withWorld whiteList) ≠ none ∧
      Undisturbed loop (input.withWorld whiteList) ∧ system.LoopAdmissible delivery loop input ∧
      ∀ socket ∈ loop.readList.head?, socket ≠ server →
        (system.connection socket).upstream.bytes ≠ [] → ∃ data,
          input = .receive (.bytes data) .zero ∧
            delivery (system.connection socket).upstream maxBufferLength data := by
  cases hread : loop.readList with
  | cons socket rest =>
      have hreadable := hready socket (by rw [hread]; exact List.mem_cons_self)
      have hhead : ∀ user ∈ (socket :: rest).head?, user = socket := by simp [eq_comm]
      by_cases hsocket : socket = server
      · subst hsocket
        rw [Readable, if_pos hserver] at hreadable
        -- the listening socket is ready: a connection can be accepted
        obtain ⟨new, backlog, hbacklog⟩ := List.exists_cons_of_ne_nil hreadable
        have hmem : new ∈ system.backlog := by rw [hbacklog]; exact List.mem_cons_self
        exact ⟨.accept new "" () .zero, by simp [onUpdate, hrun, hread, Input.withWorld],
          ⟨hfresh new hmem, rfl⟩, hmem, fun user huser hne => absurd (hhead user huser) hne⟩
      · rw [Readable, if_neg (by rw [hserver]; simpa using Ne.symm hsocket)] at hreadable
        by_cases hnil : (system.connection socket).upstream.bytes = []
        · -- the client has shut its connection down
          have hclosed := hreadable.resolve_left (not_not.mpr hnil)
          refine ⟨.receive .shutdown .zero,
            by simp [onUpdate, hrun, hread, hsocket, Input.withWorld],
            ⟨trivial, by simp [Input.NoThrow, Input.withWorld, HandlerEnv.zero]⟩, ?_, ?_⟩
          · rw [LoopAdmissible, hread]
            exact fun user huser => hhead user huser ▸ ⟨hnil, hclosed⟩
          · exact fun user huser _ hbytes => absurd (hhead user huser ▸ hnil) hbytes
        · obtain ⟨data, hne, hle, hdata⟩ := hdelivers socket hnil
          refine ⟨.receive (.bytes data) .zero,
            by simp [onUpdate, hrun, hread, hsocket, Input.withWorld],
            ⟨⟨hne, hle⟩, by simp [Input.NoThrow, Input.withWorld, HandlerEnv.zero]⟩, ?_, ?_⟩
          · rw [LoopAdmissible, hread]
            exact fun user huser => hhead user huser ▸ hdata
          · exact fun user huser _ _ => ⟨data, rfl, hhead user huser ▸ hdata⟩
  | nil =>
      -- the round is over, but connections are still to be dropped
      obtain ⟨socket, rest, hdrop⟩ :=
        List.exists_cons_of_ne_nil (hround.resolve_left (not_not.mpr hread))
      exact ⟨.drop none, by simp [onUpdate, hrun, hread, hdrop, Input.withWorld], ⟨trivial, rfl⟩,
        trivial, by simp⟩

/-- In every run in which no call on a socket throws, no handshake is misread, sends take all at
once without waiting, and a message is entered and sent in one step while its client has its socket
(`Admissible`), however the streams divide what is sent: as long as the update thread of the server
is in its loop, every socket that it has still to handle in this round is ready, so that no accept
and no receive waits, and it can take its next step before any client does. -/
theorem server_receives_at_once (h : Reaches Channel.Delivers system tr) {loop : LoopState S}
    (hloop : system.program.loop = some loop) (hrun : loop.status = .running) :
    (∀ socket ∈ loop.readList, system.Readable socket) ∧
      ∃ input system' es, Admissible Channel.Delivers system (.server (.loop input)) ∧
        (echoSystem S).step system (.server (.loop input)) = some (system', es) := by
  have hready := Reaches.readsReady h loop hloop hrun
  refine ⟨hready, ?_⟩
  obtain ⟨server, packetType, hnetwork, -⟩ :=
    (ServerProgram.programInv_of_reachable h.program).loop_reaches loop hloop
  have hserver : system.serverSocket = some server := by rw [serverSocket, hnetwork]; rfl
  suffices hinput : ∃ input : PocoEcho.Input S Unit,
      onUpdate CServer.handlers server loop (input.withWorld system.program.whiteList) ≠ none ∧
      Undisturbed loop (input.withWorld system.program.whiteList) ∧
      system.LoopAdmissible Channel.Delivers loop input by
    obtain ⟨input, hwaits, hundisturbed, hadm⟩ := hinput
    obtain ⟨loop', events, hadm', hstep, -⟩ :=
      exists_step_of_waits h hloop hnetwork hwaits hundisturbed hadm
    exact ⟨input, _, _, hadm', hstep⟩
  by_cases hround : loop.readList ≠ [] ∨ loop.dropList ≠ []
  · obtain ⟨input, hwaits, hundisturbed, hadm, -⟩ := exists_input_of_round hrun hround hserver
      hready (fun client hmem => Reaches.fresh h hloop hmem) fun socket hbytes =>
        Channel.exists_delivers hbytes (by decide)
    exact ⟨input, hwaits, hundisturbed, hadm⟩
  · -- `select` has a timeout
    obtain ⟨hread, hdrop⟩ := not_or.mp hround
    exact ⟨.select 0 [] none, by simp [onUpdate, hrun, not_not.mp hread, not_not.mp hdrop,
      Input.withWorld], ⟨⟨List.nodup_nil, by simp⟩, rfl⟩, by simp [LoopAdmissible]⟩

set_option maxRecDepth 4000 in
theorem server_receives_at_once_of_letter :
    ∃ system tr loop, (echoSystem ℕ).run (initial ℕ) (letterInputs.take 9) = some (system, tr) ∧
      system.program.loop = some loop ∧ loop.readList = [1] ∧ system.Readable 1 := by
  have hmap : ((echoSystem ℕ).run (initial ℕ) (letterInputs.take 9)).map (fun p =>
      p.1.program.loop) =
        some (some ⟨[0, 1], PacketType.accept.word, [1], [], .running⟩) := by decide
  obtain ⟨⟨system, tr⟩, hrun, hloop⟩ := Option.map_eq_some_iff.mp hmap
  have hinit : Reaches Channel.Delivers (initial ℕ) [] := .init
  have hreach := hinit.run (letterInputs.take 9) (by decide) hrun
  exact ⟨system, tr, _, hrun, hloop, rfl,
    (server_receives_at_once hreach hloop rfl).1 1 (by decide)⟩

end EchoSystem

end PocoEcho

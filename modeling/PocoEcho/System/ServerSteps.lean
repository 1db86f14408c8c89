import PocoEcho.System.Situation

/-!
# Steps of the server

The steps of the server program keep the invariant of the system. A step of `main` or the console
does not concern the connections. A step of the update thread accepts a connection, answers a frame,
or does not concern the streams.

## Main results

* `EchoSystem.Inv.of_server`: every step of the server program keeps the invariant.
-/

namespace PocoEcho

open Poco ServerLoop

namespace EchoSystem

variable {S : Type} [DecidableEq S] {system : EchoSystem S} {queue : S → List CString}

/-- The event does not concern the streams of a connection, unless it closes it. -/
def Silent (e : PocoEcho.Event S) : Prop :=
  (∃ client, e = .close client) ∨ ∀ connection : Connection, connection.observe e = connection

omit [DecidableEq S] in
/-- Silent events may close the server's end, and do nothing else to a connection. -/
theorem foldl_observe_of_silent {events : List (PocoEcho.Event S)} (h : ∀ e ∈ events, Silent e)
    (connection : Connection) :
    ∃ closed, events.foldl Connection.observe connection =
        { connection with serverClosed := closed } ∧
      (connection.serverClosed = true → closed = true) := by
  induction events generalizing connection with
  | nil => exact ⟨connection.serverClosed, rfl, id⟩
  | cons e events ih =>
      have hevents := fun e' he' => h e' (List.mem_cons_of_mem e he')
      rw [List.foldl_cons]
      rcases h e List.mem_cons_self with ⟨client, rfl⟩ | hsame
      · obtain ⟨closed, heq, hclosed⟩ := ih hevents { connection with serverClosed := true }
        exact ⟨closed, heq, fun _ => hclosed rfl⟩
      · rw [hsame connection]
        exact ih hevents connection

/-- A step of `main` or the console keeps the invariant. -/
theorem Inv.of_silentStep (hinv : Inv system queue) (hconnected : Connected system)
    {program' : ServerProgram S} {past es : List (ServerProgram.Event S)}
    (h : ServerProgram.SilentStep system.program program' past es)
    (hnetwork : system.program.network ≠ none → program'.network = system.program.network) :
    Inv (system.observe program' (ServerProgram.loopEvents es)) queue := by
  rw [h.loopEvents_eq, observe_nil]
  -- the update thread of the server goes on, or starts with the listening socket
  have hcases : program'.loop = system.program.loop ∨ system.program.loop = none ∧
      (program'.loop = none ∨ ∃ server packetType,
        program'.network = some (ServerProgram.started server) ∧
        program'.loop = some (LoopState.initial server packetType)) := by
    rcases h.loop_cases with ⟨hloop, -⟩ | ⟨hnone, hloop | ⟨-, hstart⟩⟩
    · exact .inl hloop
    · exact .inr ⟨hnone, .inl hloop⟩
    · exact .inr ⟨hnone, .inr hstart⟩
  have hsocket : ∀ server, system.serverSocket = some server →
      ({ system with program := program' } : EchoSystem S).serverSocket = some server := by
    intro server hserver
    have hsome : system.program.network ≠ none := by
      intro hnone
      simp [serverSocket, hnone] at hserver
    rw [serverSocket, hnetwork hsome]
    exact hserver
  -- a loop that starts has only the listening socket among its clients
  have hclients : ∀ client, client ∈ ({ system with program := program' } : EchoSystem S).clients →
      client ∈ system.clients ∨
        ({ system with program := program' } : EchoSystem S).serverSocket = some client := by
    intro client hmem
    rcases hcases with hloop | ⟨-, hnone | ⟨server, packetType, hnet, hstart⟩⟩
    · rw [clients, hloop] at hmem
      exact .inl hmem
    · simp [clients, hnone] at hmem
    · rw [clients, hstart] at hmem
      obtain rfl := List.mem_singleton.mp hmem
      exact .inr (by rw [serverSocket, hnet]; rfl)
  have hkept : ∀ client ∈ system.clients,
      client ∈ ({ system with program := program' } : EchoSystem S).clients := by
    intro client hmem
    rcases hcases with hloop | ⟨hnone, -⟩
    · rwa [clients, hloop]
    · simp [clients, hnone] at hmem
  refine
    { nodup := hinv.nodup
      fresh := ?_
      dropped := ?_
      not_thrown := ?_
      situation := fun client => ?_ }
  · intro client hbacklog hmem
    rcases hclients client hmem with hmem | hserver
    · exact hinv.fresh client hbacklog hmem
    -- nobody connects under the name of the listening socket
    · have hphase := hinv.phase_of_mem_backlog hbacklog
      obtain ⟨server, hnet, hne⟩ := hconnected client hphase
      have hsame := hsocket server (by rw [serverSocket, hnet]; rfl)
      rw [hserver, Option.some.injEq] at hsame
      exact hne hsame
  · intro client hmem
    rcases hcases with hloop | ⟨-, hnone | ⟨server, packetType, -, hstart⟩⟩
    · rw [dropList, hloop] at hmem
      exact hinv.dropped client hmem
    · simp [dropList, hnone] at hmem
    · simp [dropList, hstart, LoopState.initial] at hmem
  · intro loop hmem
    rcases hcases with hloop | ⟨-, hnone | ⟨server, packetType, -, hstart⟩⟩
    · exact hinv.not_thrown loop (hloop ▸ hmem)
    · simp [hnone] at hmem
    · rw [hstart, Option.mem_some_iff] at hmem
      subst hmem
      simp [LoopState.initial]
  · obtain ⟨up, down, hsituation, hqueue⟩ := hinv.situation client
    exact ⟨up, down, hsituation.frame _ rfl id Iff.rfl (hclients client) (fun h _ => hkept client h)
      hsocket, hqueue⟩

/-! ## Steps of the update thread -/

section LoopSteps

variable {loop loop' : LoopState S} {events : List (PocoEcho.Event S)}

/-- The system after a step of the update thread of the server. -/
abbrev afterLoop (system : EchoSystem S) (loop' : LoopState S)
    (events : List (PocoEcho.Event S)) : EchoSystem S :=
  system.observe { system.program with loop := some loop' } events

/-- A step of the update thread in which nothing is sent or received keeps the invariant. -/
theorem Inv.of_silentLoop (hinv : Inv system queue) (hloop : system.program.loop = some loop)
    (haccepted : accepted events = []) (hevents : ∀ e ∈ events, Silent e)
    (hclients : ∀ client ∈ loop'.clients, client ∈ loop.clients)
    (hkept : ∀ client ∈ loop.clients, client ∉ loop'.clients →
      (system.connection client).clientClosed = true)
    (hdropped : ∀ client ∈ loop'.dropList, client ∉ loop.dropList →
      (system.connection client).clientClosed = true)
    (hstatus : ∀ fault, loop'.status ≠ .thrown fault) :
    Inv (system.afterLoop loop' events) queue := by
  have hbacklog : (system.afterLoop loop' events).backlog = system.backlog := by
    simp only [observe, haccepted, List.diff_nil]
  have hold : system.clients = loop.clients := by rw [clients, hloop]; rfl
  refine
    { nodup := hbacklog ▸ hinv.nodup
      fresh := ?_
      dropped := ?_
      not_thrown := ?_
      situation := fun client => ?_ }
  · intro client hwaits hmem
    rw [hbacklog] at hwaits
    exact hinv.fresh client hwaits (hold ▸ hclients client hmem)
  · intro client hmem
    rw [clientClosed_observe]
    by_cases hdrop : client ∈ loop.dropList
    · exact hinv.dropped client (by rw [dropList, hloop]; exact hdrop)
    · exact hdropped client hmem hdrop
  · intro loop'' hmem fault
    obtain rfl := Option.some.inj hmem
    exact hstatus fault
  · obtain ⟨up, down, hsituation, hqueue⟩ := hinv.situation client
    -- the stream of no client changes, but its connection may be closed
    obtain ⟨closed, hconnection, hclosed⟩ := foldl_observe_of_silent
      (fun e he => hevents e (List.mem_of_mem_filter he) : ∀ e ∈ eventsOf client events, Silent e)
      (system.connection client)
    refine ⟨up, down,
      hsituation.frame closed hconnection hclosed (by rw [hbacklog]) ?_ ?_ fun _ => id, hqueue⟩
    · exact fun hmem => .inl (hold ▸ hclients client hmem)
    · -- a client is forgotten only when it has closed its end
      intro hmem hopen
      by_contra hgone
      rw [hkept client (hold ▸ hmem) hgone] at hopen
      cases hopen

/-- A step of the update thread that accepts a connection keeps the invariant. -/
theorem Inv.of_accept (hinv : Inv system queue) (hloop : system.program.loop = some loop)
    {client : S} (haccepted : accepted events = [client])
    (hevents : ∀ e ∈ events, e.socket = some client)
    (hclients : ∀ s, s ≠ client → (s ∈ loop'.clients ↔ s ∈ loop.clients))
    (hdropped : loop'.dropList = loop.dropList)
    (hstatus : ∀ fault, loop'.status ≠ .thrown fault)
    (hsituation : ∀ {up down}, Situation system client up down →
      Situation (system.afterLoop loop' events) client up down) :
    Inv (system.afterLoop loop' events) queue := by
  have hbacklog : (system.afterLoop loop' events).backlog = system.backlog.erase client := by
    simp only [observe, haccepted, List.diff_cons, List.diff_nil]
  have hold : system.clients = loop.clients := by rw [clients, hloop]; rfl
  refine
    { nodup := hbacklog ▸ hinv.nodup.erase client
      fresh := ?_
      dropped := ?_
      not_thrown := ?_
      situation := fun other => ?_ }
  · intro other hwaits hmem
    rw [hbacklog, hinv.nodup.mem_erase_iff] at hwaits
    -- the connection has left the backlog when it becomes a client
    exact hinv.fresh other hwaits.2 (hold ▸ (hclients other hwaits.1).mp hmem)
  · intro other hmem
    rw [clientClosed_observe]
    change other ∈ loop'.dropList at hmem
    refine hinv.dropped other ?_
    rw [dropList, hloop]
    rwa [hdropped] at hmem
  · intro loop'' hmem fault
    obtain rfl := Option.some.inj hmem
    exact hstatus fault
  · obtain ⟨up, down, hbefore, hqueue⟩ := hinv.situation other
    refine ⟨up, down, ?_, hqueue⟩
    by_cases hne : other = client
    · subst hne
      exact hsituation hbefore
    · refine hbefore.frame (system.connection other).serverClosed
        (connection_observe_of_ne hevents hne) id ?_ ?_ ?_ fun _ => id
      · rw [hbacklog, List.mem_erase_of_ne hne]
      · exact fun hmem => .inl (hold ▸ (hclients other hne).mp hmem)
      · exact fun hmem _ => (hclients other hne).mpr (hold ▸ hmem)

/-- Receiving a frame of a client and answering it keeps the invariant. -/
theorem Inv.of_frame (hinv : Inv system queue) (hloop : system.program.loop = some loop)
    {server client : S} {rest : List S} (hread : loop.readList = client :: rest)
    (hclient : system.serverSocket ≠ some client) (hmem : client ∈ loop.clients)
    (hrun : loop.status = .running) (hne : client ≠ server) {data : List UInt8}
    (hdata : (system.connection client).upstream.DeliversSegment maxBufferLength data)
    (stray : Stray)
    (hs : (serverLoop CServer.handlers server).step loop (.receive (.bytes data) ⟨stray, none⟩) =
      some (loop', events)) : Inv (system.afterLoop loop' events) queue := by
  have hold : system.clients = loop.clients := by rw [clients, hloop]; rfl
  obtain ⟨up, down, hsituation, hqueue⟩ := hinv.situation client
  -- only a connected client has something to be received
  cases hsituation with
  | idle hphase hup hdown hbacklog hserver => exact absurd (hserver (hold ▸ hmem)) hclient
  | waiting hphase hup hdown hbacklog => exact absurd (hold ▸ hmem) (hinv.fresh client hbacklog)
  | admitted hphase hup => exact absurd hdata (Channel.not_deliversSegment_of_nil hup _ _)
  | kicked hphase hup => exact absurd hdata (Channel.not_deliversSegment_of_nil hup _ _)
  | ended hphase hup => exact absurd hdata (Channel.not_deliversSegment_of_nil hup _ _)
  | @running state up down hphase hup hdown hbacklog hclients =>
      -- the first frame on its way is received as a whole
      rcases up with _ | ⟨m, up⟩
      · have hnil := List.forall₂_nil_left_iff.mp hup
        exact absurd hdata (Channel.not_deliversSegment_of_nil hnil _ _)
      obtain ⟨segment, segments, hframe, hrest, hsegments⟩ := List.forall₂_cons_left_iff.mp hup
      obtain rfl : data = segment := by
        rw [((Channel.deliversSegment_cons_iff hsegments).mp hdata).2,
          List.take_of_length_le hframe.1]
      obtain ⟨tail, hstep⟩ := step_of_isClientFrame hrun hread hne hframe stray
      obtain ⟨rfl, rfl⟩ := Prod.mk.inj (Option.some.inj (hs.symm.trans hstep))
      -- it is answered on the same connection, and nothing else happens
      have hevents : ∀ e ∈ ([.receiveBytes client (.bytes data),
          .packetHandler client PacketType.message.word,
          .handler (.processPacket client (m.szMessage.chars ++ 0 :: tail)),
          .handler (.sendBytes client m.frame)] : List (PocoEcho.Event S)),
          e.socket = some client := by
        simp [PocoEcho.Event.socket, HandlerEvent.socket]
      refine
        { nodup := hinv.nodup
          fresh := fun other hwaits hother => hinv.fresh other hwaits (hold ▸ hother)
          dropped := fun other hdrop => ?_
          not_thrown := fun loop' hmem' fault => ?_
          situation := fun other => ?_ }
      · rw [clientClosed_observe]
        exact hinv.dropped other (by rw [dropList, hloop]; exact hdrop)
      · obtain rfl := Option.some.inj hmem'
        simp [hrun]
      · by_cases hother : other = client
        -- the message is on its way back
        · subst hother
          refine ⟨up, down ++ [m], ?_, ?_⟩
          · have hconnection := congrArg
              (List.foldl Connection.observe (system.connection other)) (eventsOf_eq_self hevents)
            have hupstream := Channel.segments_receive_length hsegments
              (ne_nil_of_forall₂ hrest)
            refine .running ((phase_observe _ _ _).trans hphase) ?_ ?_ hbacklog
              fun hlive => hold ▸ hclients hlive
            · simp only [observe, hconnection]
              exact hupstream ▸ hrest
            · simp only [observe, hconnection]
              exact hdown.send m
          · rw [hqueue, List.append_assoc, List.singleton_append]
        · obtain ⟨up', down', hsituation', hqueue'⟩ := hinv.situation other
          refine ⟨up', down', hsituation'.frame (system.connection other).serverClosed
            (connection_observe_of_ne hevents hother) id Iff.rfl ?_ ?_ fun _ => id, hqueue'⟩
          · exact fun hmem' => .inl (hold ▸ hmem')
          · exact fun hmem' _ => hold ▸ hmem'

/-- Accepting a connection and sending one packet on it. -/
theorem Inv.of_answer (hinv : Inv system queue) (hloop : system.program.loop = some loop)
    {client : S} (hwaits : client ∈ system.backlog) (host : String) {t : PacketType}
    (hevents : events = [.acceptConnection client host, .sendBytes client t.word.bytes] ∨
      events = [.acceptConnection client host, .sendBytes client t.word.bytes, .close client])
    (hanswer : t = .accept ∧ loop'.clients = loop.clients ++ [client] ∨
      t = .kick ∧ loop'.clients = loop.clients)
    (hdropped : loop'.dropList = loop.dropList)
    (hstatus : ∀ fault, loop'.status ≠ .thrown fault) :
    Inv (system.afterLoop loop' events) queue := by
  have haccepted : accepted events = [client] := by
    rcases hevents with rfl | rfl <;> rfl
  have hsocket : ∀ e ∈ events, e.socket = some client := by
    rcases hevents with rfl | rfl <;> simp [PocoEcho.Event.socket]
  refine hinv.of_accept hloop haccepted hsocket ?_ hdropped hstatus ?_
  · intro s hs
    rcases hanswer with ⟨-, hclients⟩ | ⟨-, hclients⟩
    · simp [hclients, hs]
    · rw [hclients]
  -- the packet is all that is sent on the connection
  · intro up down hsituation
    have hgone : client ∉ (system.afterLoop loop' events).backlog := by
      simp only [observe, haccepted, List.diff_cons, List.diff_nil]
      exact hinv.nodup.not_mem_erase
    have hphase' : ((system.afterLoop loop' events).connection client).phase =
        (system.connection client).phase := phase_observe _ _ _
    have hconnection : (system.afterLoop loop' events).connection client =
        events.foldl Connection.observe (system.connection client) :=
      congrArg (List.foldl Connection.observe (system.connection client)) (eventsOf_eq_self hsocket)
    have hup' : ((system.afterLoop loop' events).connection client).upstream =
        (system.connection client).upstream := by
      rw [hconnection]
      rcases hevents with rfl | rfl <;> rfl
    have hdown' : ((system.afterLoop loop' events).connection client).downstream =
        (system.connection client).downstream.send t.word.bytes := by
      rw [hconnection]
      rcases hevents with rfl | rfl <;> rfl
    cases hsituation with
    | idle hphase hup hdown hbacklog => exact absurd hwaits hbacklog
    | waiting hphase hup hdown hbacklog =>
        have hsegments : ((system.afterLoop loop' events).connection client).downstream.segments =
            [t.word.bytes] := by rw [hdown', Channel.segments_send, hdown, List.nil_append]
        rcases hanswer with ⟨rfl, hclients⟩ | ⟨rfl, -⟩
        · refine .admitted (hphase'.trans hphase) (hup' ▸ hup) hsegments hgone ?_
          show client ∈ loop'.clients
          simp [hclients]
        · exact .kicked (hphase'.trans hphase) (hup' ▸ hup) hsegments hgone
    | admitted hphase hup hdown hbacklog => exact absurd hwaits hbacklog
    | kicked hphase hup hdown hbacklog => exact absurd hwaits hbacklog
    | running hphase hup hdown hbacklog => exact absurd hwaits hbacklog
    | ended hphase hup => exact .ended (hphase'.trans hphase) (hup' ▸ hup)

/-- A step of the update thread keeps the invariant. -/
theorem Inv.of_loop (hinv : Inv system queue) (hloop : system.program.loop = some loop)
    {server : S} (hserver : system.serverSocket = some server)
    {past : List (PocoEcho.Event S)} (hlists : ClientsInv server loop past)
    {input : PocoEcho.Input S Unit} {whiteList : CWhiteList}
    (hundisturbed : Undisturbed loop (input.withWorld whiteList))
    (hadm : system.LoopAdmissible Channel.DeliversSegment loop input)
    (hs : (serverLoop CServer.handlers server).step loop (input.withWorld whiteList) =
      some (loop', events)) : Inv (system.afterLoop loop' events) queue := by
  obtain ⟨outcome, hup, -, -⟩ := outcome_of_step hs
  obtain ⟨hrun, hbranch⟩ := branch_of_onUpdate hup
  by_cases hreceive : ∃ data env, input = .receive (.bytes data) env
  · obtain ⟨data, ⟨stray, throwsAt⟩, rfl⟩ := hreceive
    obtain rfl : throwsAt = none := hundisturbed.2.2
    cases hbranch with
    | @receive client rest hread hclient =>
        have hmem : client ∈ loop.clients := hlists.readList_subset (by rw [hread]; simp)
        have hother : system.serverSocket ≠ some client := by
          rw [hserver, ne_eq, Option.some.injEq]
          exact hclient.symm
        exact hinv.of_frame hloop hread hother hmem hrun hclient (hadm client (by rw [hread]; rfl))
          stray hs
  · rcases thrown_or_progress hs with ⟨fault, outcome, hup, herr, -, -⟩ | hprog
    · -- only the handling of a chunk is left by an exception
      obtain ⟨sender, rest, data, stray, -, -, hinput, -⟩ :=
        fault_of_undisturbed hundisturbed hup herr
      cases input <;> cases hinput
      exact absurd ⟨_, _, rfl⟩ hreceive
    · have hstatus := hprog.not_thrown
      generalize hinput : input.withWorld whiteList = input' at hprog hundisturbed
      cases hprog with
      | close hhead =>
          -- the end of the loop closes the connections
          have haccepted : accepted (loop.clients.map .close ++ [.exit]) = [] := by
            simp [accepted, List.filterMap_append, List.filterMap_map]
          refine hinv.of_silentLoop hloop haccepted ?_ (fun _ => id)
            (fun _ h hgone => absurd h hgone) (fun _ h hnew => absurd h hnew) hstatus
          intro e he
          rcases List.mem_append.mp he with he | he
          · obtain ⟨client, -, rfl⟩ := List.mem_map.mp he
            exact .inl ⟨client, rfl⟩
          · obtain rfl := List.mem_singleton.mp he
            exact .inr fun _ => rfl
      | select hhead iCount ready throwsAt =>
          exact hinv.of_silentLoop hloop rfl (by simp) (fun _ => id)
            (fun _ h hgone => absurd h hgone) (fun _ h hnew => absurd h hnew) hstatus
      | @admitted _ rest hread client host world env hconnect =>
          have hwaits : client ∈ system.backlog := by
            cases input <;> cases hinput
            exact hadm
          refine hinv.of_answer hloop hwaits host (.inl ?_) (.inl ⟨rfl, rfl⟩) rfl hstatus
          rw [(connect_ok hconnect).1]
          rfl
      | @kick _ rest hread client host world env hconnect =>
          have hwaits : client ∈ system.backlog := by
            cases input <;> cases hinput
            exact hadm
          refine hinv.of_answer hloop hwaits host (.inr ?_) (.inr ⟨rfl, rfl⟩) rfl hstatus
          rw [(connect_ok hconnect).1]
          rfl
      | @shutdown _ client rest hread hclient env =>
          -- an empty receive means that the client has closed its end
          have hclosed : (system.connection client).clientClosed = true := by
            cases input <;> cases hinput
            exact (hadm client (by rw [hread]; rfl)).2
          refine hinv.of_silentLoop hloop rfl ?_ (fun _ => id) (fun _ h hgone => absurd h hgone) ?_
            hstatus
          · intro e he
            obtain rfl := List.mem_singleton.mp he
            exact .inr fun _ => rfl
          · intro other hmem hnew
            rcases List.mem_append.mp hmem with hmem | hmem
            · exact absurd hmem hnew
            · exact List.mem_singleton.mp hmem ▸ hclosed
      | negative => exact hundisturbed.1.elim
      | receive _ hread hclient data env =>
          cases input <;> cases hinput
          exact absurd ⟨_, _, rfl⟩ hreceive
      | @erase _ hread client rest hdrop hmem throwsAt =>
          refine hinv.of_silentLoop hloop rfl ?_ (fun _ => List.mem_of_mem_erase) ?_ ?_ hstatus
          · intro e he
            obtain rfl := List.mem_singleton.mp he
            exact .inr fun _ => rfl
          · intro other hother hgone
            -- the connection that is removed is the one that was to be dropped
            obtain rfl : other = client := by
              by_contra hne
              exact hgone ((List.mem_erase_of_ne hne).mpr hother)
            exact hinv.dropped other (by rw [dropList, hloop]; simp [hdrop])
          · exact fun _ h hnew => absurd (hdrop ▸ List.mem_cons_of_mem _ h) hnew
      | @missing _ hread client rest hdrop hmem throwsAt =>
          exact hinv.of_silentLoop hloop rfl (by simp) (fun _ => id)
            (fun _ h hgone => absurd h hgone)
            (fun _ h hnew => absurd (hdrop ▸ List.mem_cons_of_mem _ h) hnew) hstatus

/-- No exception ends a step of the update thread. -/
theorem Inv.progress_of_loop (hinv : Inv system queue) (hloop : system.program.loop = some loop)
    {server : S} (hserver : system.serverSocket = some server)
    {past : List (PocoEcho.Event S)} (hlists : ClientsInv server loop past)
    {input : PocoEcho.Input S Unit} {whiteList : CWhiteList}
    (hundisturbed : Undisturbed loop (input.withWorld whiteList))
    (hadm : system.LoopAdmissible Channel.DeliversSegment loop input)
    (hs : (serverLoop CServer.handlers server).step loop (input.withWorld whiteList) =
      some (loop', events)) :
    Progress CServer.handlers server loop (input.withWorld whiteList) loop' events := by
  have hnext := hinv.of_loop hloop hserver hlists hundisturbed hadm hs
  rcases thrown_or_progress hs with ⟨fault, -, -, -, -, hthrown⟩ | hprog
  · exact absurd (congrArg LoopState.status hthrown) (hnext.not_thrown loop' rfl fault)
  · exact hprog

end LoopSteps

/-- A step of the update thread of the server, with what is known about the thread. -/
structure LoopTurn (delivery : Delivery) (system : EchoSystem S) (input : ServerProgram.Input S)
    (program' : ServerProgram S) (es : List (ServerProgram.Event S)) : Type where
  /-- The listening socket. -/
  server : S
  /-- The thread before and after the step. -/
  loop : LoopState S
  loop' : LoopState S
  /-- What it meets, and what it does. -/
  loopInput : PocoEcho.Input S Unit
  events : List (PocoEcho.Event S)
  /-- What it has done before. -/
  past : List (PocoEcho.Event S)
  input_eq : input = .loop loopInput
  network_eq : system.program.network = some (ServerProgram.started server)
  loop_eq : system.program.loop = some loop
  lists : ClientsInv server loop past
  undisturbed : Undisturbed loop (loopInput.withWorld system.program.whiteList)
  admissible : system.LoopAdmissible delivery loop loopInput
  step_eq : (serverLoop CServer.handlers server).step loop
    (loopInput.withWorld system.program.whiteList) = some (loop', events)
  program_eq : program' = { system.program with loop := some loop' }
  events_eq : es = events.map .loop

theorem LoopTurn.serverSocket_eq {delivery : Delivery} {input : ServerProgram.Input S}
    {program' : ServerProgram S} {es : List (ServerProgram.Event S)}
    (h : LoopTurn delivery system input program' es) : system.serverSocket = some h.server := by
  rw [serverSocket, h.network_eq]
  rfl

/-- The system after the step. -/
theorem LoopTurn.observe_eq {delivery : Delivery} {input : ServerProgram.Input S}
    {program' : ServerProgram S} {es : List (ServerProgram.Event S)}
    (h : LoopTurn delivery system input program' es) :
    system.observe program' (ServerProgram.loopEvents es) = system.afterLoop h.loop' h.events := by
  obtain ⟨server, loop, loop', loopInput, events, past, -, -, -, -, -, -, -, rfl, rfl⟩ := h
  rw [ServerProgram.loopEvents_map_loop]

/-- A step of the server program is one of `main` or the console, or one of the update thread. -/
theorem silentStep_or_loopTurn {delivery : Delivery} {past : List (ServerProgram.Event S)}
    (hreach :
      (serverProgram S).Reachable ServerProgram.Undisturbed (.initial S) system.program past)
    {input : ServerProgram.Input S} (hadm : Admissible delivery system (.server input))
    {program' : ServerProgram S} {es : List (ServerProgram.Event S)}
    (hs : (serverProgram S).step system.program input = some (program', es)) :
    (∃ past, ServerProgram.SilentStep system.program program' past es ∧
        (system.program.network ≠ none → program'.network = system.program.network)) ∨
      Nonempty (LoopTurn delivery system input program' es) := by
  have hprogram := ServerProgram.programInv_of_reachable hreach
  rcases ServerProgram.silent_or_loopStep hprogram hs with hsilent | hloopStep
  · exact .inl ⟨_, hsilent, ServerProgram.network_of_step hreach hs⟩
  · obtain ⟨input', server, loop, loop', events, rfl, hnetwork, hloop, hstep, rfl, rfl⟩ := hloopStep
    obtain ⟨server', packetType, hnetwork', hloopReach⟩ := hprogram.loop_reaches loop hloop
    obtain rfl : server = server' :=
      ServerProgram.started_injective (Option.some.inj (hnetwork.symm.trans hnetwork'))
    -- no exception has left a loop that takes a step
    have hlists := (clientsInv_of_reachable hloopReach.reachable).resolve_right
      (not_exists.mpr fun fault hthrown => by simp [ServerLoop.step, onUpdate, hthrown] at hstep)
    exact .inr ⟨server, loop, loop', input', events, _, rfl, hnetwork, hloop, hlists,
      hadm.1 loop hloop, hadm.2 loop hloop, hstep, rfl, rfl⟩

/-- Every step of the server program keeps the invariant. -/
theorem Inv.of_server (hinv : Inv system queue) (hconnected : Connected system)
    {past : List (ServerProgram.Event S)}
    (hreach :
      (serverProgram S).Reachable ServerProgram.Undisturbed (.initial S) system.program past)
    {input : ServerProgram.Input S}
    (hadm : Admissible Channel.DeliversSegment system (.server input))
    {program' : ServerProgram S} {es : List (ServerProgram.Event S)}
    (hs : (serverProgram S).step system.program input = some (program', es)) :
    Inv (system.observe program' (ServerProgram.loopEvents es)) queue := by
  rcases silentStep_or_loopTurn hreach hadm hs with ⟨past, hsilent, hnetwork⟩ | ⟨⟨turn⟩⟩
  · exact hinv.of_silentStep hconnected hsilent hnetwork
  · rw [turn.observe_eq]
    exact hinv.of_loop turn.loop_eq turn.serverSocket_eq turn.lists turn.undisturbed
      turn.admissible turn.step_eq

end EchoSystem

end PocoEcho

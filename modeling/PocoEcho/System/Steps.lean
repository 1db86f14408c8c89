import PocoEcho.Library.Simulation
import PocoEcho.System.EchoSystem

/-!
# What a step can be

Each step belongs to one program and leaves the others alone. In particular the server program does
what it could do without the clients.

## Main definitions

* `EchoSystem.ClientStep`: what a step of a client program does;
* `EchoSystem.PhaseStep`: where a client program stands after a step;
* `EchoSystem.Connected`: what is known of the clients that have connected.

## Main results

* `EchoSystem.clientStep_of_step`, `EchoSystem.serverEvents_of_step` and
  `EchoSystem.phaseStep_of_step`: what a step can be;
* `EchoSystem.Reaches.program`: the server program by itself;
* `EchoSystem.Reaches.connected`: clients connect to a server that has been started.
-/

namespace PocoEcho

open Poco

/-! ## The server program -/

namespace ServerProgram

variable {S : Type} [DecidableEq S]

/-- A step leaves the network object alone, unless it is `TryStart`, which is not reached again. -/
theorem network_cases {program program' : ServerProgram S} {es : List (Event S)} {input : Input S}
    (hs : (serverProgram S).step program input = some (program', es)) :
    program'.stage ≠ .tryGetList ∧
      (program'.network = program.network ∧
          (program'.stage = .tryStart → program.stage = .tryGetList) ∨
        program.stage = .tryStart ∧ program'.stage ≠ .tryStart ∧
          ∃ opened, program'.network = some (CServer.tryStart opened).2) := by
  change step program input = some (program', es) at hs
  unfold step at hs
  split at hs
  next created selected rows hstage =>
    obtain rfl : (program.tryGetList created selected rows).1 = program' :=
      congrArg Prod.fst (Option.some.inj hs)
    unfold tryGetList
    split
    split <;> exact ⟨by simp, .inl ⟨rfl, fun _ => hstage⟩⟩
  next opened hstage =>
    obtain rfl : program.tryStart opened = program' := congrArg Prod.fst (Option.some.inj hs)
    have hstarted : (program.tryStart opened).network = some (CServer.tryStart opened).2 := rfl
    cases opened <;> exact ⟨by simp [tryStart, tryStart_eq], .inr ⟨hstage,
      by simp [tryStart, tryStart_eq], _, hstarted⟩⟩
  next packetType hstage =>
    obtain rfl : program.run packetType = program' := congrArg Prod.fst (Option.some.inj hs)
    unfold run
    split <;> exact ⟨by simp, .inl ⟨rfl, by simp⟩⟩
  next strIp executed hstage =>
    obtain rfl : (program.add strIp executed).1 = program' := congrArg Prod.fst (Option.some.inj hs)
    simp [add, hstage]
  next strIp executed hstage =>
    obtain rfl : (program.remove strIp executed).1 = program' :=
      congrArg Prod.fst (Option.some.inj hs)
    simp [remove, hstage]
  next input' hstage =>
    split at hs
    next network loop hnetwork hloop =>
      split at hs
      next =>
        obtain ⟨p, -, hp⟩ := Option.map_eq_some_iff.mp hs
        obtain rfl : { program with loop := some p.1 } = program' := congrArg Prod.fst hp
        simp [hstage]
      next => cases hs
    next => cases hs
  next => cases hs

/-- A step of the update thread is one of the program. -/
theorem step_loop {program : ServerProgram S} (hstage : program.stage = .console) {server : S}
    (hnetwork : program.network = some (started server)) {loop loop' : LoopState S}
    (hloop : program.loop = some loop) {input : PocoEcho.Input S Unit}
    {events : List (PocoEcho.Event S)}
    (hs : (serverLoop CServer.handlers server).step loop (input.withWorld program.whiteList) =
      some (loop', events)) :
    (serverProgram S).step program (.loop input) =
      some ({ program with loop := some loop' }, events.map .loop) := by
  change step program (.loop input) = _
  rw [step.eq_def]
  simp only [hstage, hnetwork, hloop]
  exact congrArg (Option.map _) hs

/-- What the program does for the update thread is a step of the update thread. -/
theorem exists_of_step_loop {program program' : ServerProgram S} {past es : List (Event S)}
    (hinv : ProgramInv program past) {input : PocoEcho.Input S Unit}
    (hs : (serverProgram S).step program (.loop input) = some (program', es)) :
    program.stage = .console ∧ ∃ server loop loop' events,
      program.network = some (started server) ∧ program.loop = some loop ∧
      (serverLoop CServer.handlers server).step loop (input.withWorld program.whiteList) =
        some (loop', events) ∧
      program' = { program with loop := some loop' } ∧ es = events.map .loop := by
  change step program (.loop input) = _ at hs
  generalize hinput : Input.loop input = input' at hs
  unfold step at hs
  split at hs
  next => cases hinput
  next => cases hinput
  next => cases hinput
  next => cases hinput
  next => cases hinput
  next input'' hstage =>
    obtain rfl := Input.loop.inj hinput
    -- the handlers of the started network object are those of the server
    obtain ⟨server, hnetwork⟩ := hinv.network_eq (.inr hstage)
    split at hs
    next network loop hsome hloop =>
      obtain rfl : network = started server := Option.some.inj (hsome.symm.trans hnetwork)
      obtain ⟨⟨loop', events⟩, hstep, hp⟩ := Option.map_eq_some_iff.mp hs
      obtain ⟨rfl, rfl⟩ := Prod.mk.inj hp
      exact ⟨hstage, server, loop, loop', events, hnetwork, hloop, hstep, rfl, rfl⟩
    next => cases hs
  next => cases hs

/-- When an exception has left the update thread, only the console goes on. -/
theorem step_of_thrown {program program' : ServerProgram S} {es : List (Event S)} {input : Input S}
    (hstage : program.stage = .console) {loop : LoopState S} (hloop : program.loop = some loop)
    {fault : Fault} (hstatus : loop.status = .thrown fault)
    (hs : (serverProgram S).step program input = some (program', es)) :
    program'.stage = .console ∧ program'.network = program.network ∧
      program'.loop = program.loop ∧ loopEvents es = [] := by
  change step program input = _ at hs
  rw [step.eq_def] at hs
  cases input with
  | add strIp executed =>
      simp only [hstage] at hs
      obtain rfl := congrArg Prod.fst (Option.some.inj hs)
      obtain rfl := congrArg Prod.snd (Option.some.inj hs)
      refine ⟨hstage, rfl, rfl, ?_⟩
      simp only [add]
      generalize program.whiteList.add strIp executed = p
      split <;> rfl
  | remove strIp executed =>
      simp only [hstage] at hs
      obtain rfl := congrArg Prod.fst (Option.some.inj hs)
      obtain rfl := congrArg Prod.snd (Option.some.inj hs)
      refine ⟨hstage, rfl, rfl, ?_⟩
      simp only [remove]
      generalize program.whiteList.remove strIp executed = p
      split <;> rfl
  | loop input =>
      simp only [hstage] at hs
      split at hs
      next network loop' hsome hloop' =>
        obtain rfl := Option.some.inj (hloop.symm.trans hloop')
        split at hs
        next => simp [ServerLoop.step, ServerLoop.onUpdate, hstatus] at hs
        next => cases hs
      next => cases hs
  | tryGetList created selected rows => simp [hstage] at hs
  | tryStart opened => simp [hstage] at hs
  | run packetType => simp [hstage] at hs

/-- Before `TryStart` there is no network object. -/
theorem network_eq_none {program : ServerProgram S} {tr : List (Event S)}
    (h : (serverProgram S).Reachable Undisturbed (initial S) program tr)
    (hstage : program.stage = .tryGetList ∨ program.stage = .tryStart) :
    program.network = none := by
  revert hstage
  refine h.invariant (P := fun program _ =>
    program.stage = .tryGetList ∨ program.stage = .tryStart → program.network = none)
    (fun _ => rfl) ?_
  intro program program' tr es input _ ih _ hs hstage
  obtain ⟨hne, ⟨hnetwork, hbefore⟩ | ⟨-, hne', -⟩⟩ := network_cases hs
  · rw [hnetwork]
    exact ih (.inl (hbefore (hstage.resolve_left hne)))
  · exact absurd hstage (not_or.mpr ⟨hne, hne'⟩)

/-- The network object stays the one that `TryStart` has left. -/
theorem network_of_step {program program' : ServerProgram S} {tr es : List (Event S)}
    {input : Input S} (h : (serverProgram S).Reachable Undisturbed (initial S) program tr)
    (hs : (serverProgram S).step program input = some (program', es))
    (hnetwork : program.network ≠ none) : program'.network = program.network := by
  obtain ⟨-, hsame | ⟨hstage, -⟩⟩ := network_cases hs
  · exact hsame.1
  · exact absurd (network_eq_none h (.inr hstage)) hnetwork

/-- A network object with a socket has been started. -/
theorem network_eq_started {program : ServerProgram S} {tr : List (Event S)}
    (h : (serverProgram S).Reachable Undisturbed (initial S) program tr) {server : S}
    (hsocket : program.network.bind (·.socket) = some server) :
    program.network = some (started server) := by
  have hcases : ∀ network, program.network = some network →
      network = .new ∨ ∃ server, network = started server := by
    refine h.invariant (P := fun program _ => ∀ network, program.network = some network →
      network = .new ∨ ∃ server, network = started server) (by simp [initial]) ?_
    intro program program' tr es input _ ih _ hs network hnetwork
    obtain ⟨-, hsame | ⟨-, -, opened, hstarted⟩⟩ := network_cases hs
    · exact ih network (hsame.1.symm.trans hnetwork)
    · obtain rfl := Option.some.inj (hnetwork.symm.trans hstarted)
      rw [tryStart_eq]
      cases opened with
      | none => exact .inl rfl
      | some server => exact .inr ⟨server, rfl⟩
  obtain ⟨network, hnetwork, hsome⟩ := Option.bind_eq_some_iff.mp hsocket
  rcases hcases network hnetwork with rfl | ⟨server', rfl⟩
  · cases hsome
  · rw [hnetwork, ← Option.some.inj hsome]

end ServerProgram

namespace EchoSystem

variable {S : Type} {delivery : Delivery}

@[simp]
theorem serverEvents_append (tr es : List (Event S)) :
    serverEvents (tr ++ es) = serverEvents tr ++ serverEvents es :=
  List.filterMap_append

@[simp]
theorem serverEvents_map_server (events : List (ServerProgram.Event S)) :
    serverEvents (events.map .server) = events := by
  simp [serverEvents, List.filterMap_map, Function.comp_def, Event.serverEvent]

@[simp]
theorem serverEvents_map_client (client : S) (events : List (ClientEvent ConsoleEvent)) :
    serverEvents (events.map (.client client)) = [] := by
  simp [serverEvents, List.filterMap_map, Function.comp_def, Event.serverEvent]

/-! ## The connections -/

section Connections

variable [DecidableEq S] {system : EchoSystem S}

/-- Without an event, only the program has changed. -/
theorem observe_nil (system : EchoSystem S) (program : ServerProgram S) :
    system.observe program [] = { system with program } := by
  simp [observe, accepted, eventsOf]

omit [DecidableEq S] in
/-- Where nothing is accepted, nothing leaves the backlog. -/
theorem accepted_eq_nil {events : List (PocoEcho.Event S)} (h : ∀ e ∈ events, e.isAccept = false) :
    accepted events = [] := by
  refine List.filterMap_eq_nil_iff.mpr fun e he => ?_
  have hno := h e he
  split
  next => cases hno
  next => rfl

/-- Events on other connections leave the connection alone. -/
theorem connection_observe_of_ne {program : ServerProgram S} {events : List (PocoEcho.Event S)}
    {client other : S} (hevents : ∀ e ∈ events, e.socket = some other) (hne : client ≠ other) :
    (system.observe program events).connection client = system.connection client := by
  have hnil : eventsOf client events = [] := by
    refine List.filter_eq_nil_iff.mpr fun e he => ?_
    simp [hevents e he, hne.symm]
  simp only [observe, hnil, List.foldl_nil]

omit [DecidableEq S] in
/-- The server does not decide where the client program stands. -/
theorem phase_foldl_observe (connection : Connection) (events : List (PocoEcho.Event S)) :
    (events.foldl Connection.observe connection).phase = connection.phase := by
  induction events generalizing connection with
  | nil => rfl
  | cons e events ih =>
      rw [List.foldl_cons, ih]
      unfold Connection.observe
      split <;> rfl

theorem phase_observe (program : ServerProgram S) (events : List (PocoEcho.Event S)) (client : S) :
    ((system.observe program events).connection client).phase =
      (system.connection client).phase :=
  phase_foldl_observe _ _

theorem clientClosed_observe (program : ServerProgram S) (events : List (PocoEcho.Event S))
    (client : S) :
    ((system.observe program events).connection client).clientClosed =
      (system.connection client).clientClosed := by
  rw [Connection.clientClosed, Connection.clientClosed, phase_observe]

@[simp]
theorem connection_setConnection_self (system : EchoSystem S) (client : S)
    (connection : Connection) :
    (system.setConnection client connection).connection client = connection :=
  Function.update_self ..

theorem connection_setConnection_of_ne (system : EchoSystem S) {client other : S}
    (h : other ≠ client) (connection : Connection) :
    (system.setConnection client connection).connection other = system.connection other :=
  Function.update_of_ne h ..

/-- What the client receives does not change what it has sent. -/
theorem upstream_observeClient (connection : Connection) (event : ClientEvent ConsoleEvent) :
    (connection.observeClient event).upstream = connection.upstream := by
  unfold Connection.observeClient
  split <;> rfl

theorem upstream_foldl_observeClient (connection : Connection)
    (events : List (ClientEvent ConsoleEvent)) :
    (events.foldl Connection.observeClient connection).upstream = connection.upstream := by
  induction events generalizing connection with
  | nil => rfl
  | cons e events ih => rw [List.foldl_cons, ih, upstream_observeClient]

omit [DecidableEq S] in
/-- A program whose console is used goes on or ends. -/
theorem phase_enter (connection : Connection) (loop : ClientState) (szMessage : CString)
    (behind : List UInt8) : (enter connection loop szMessage behind).phase = connection.phase ∨
      (enter connection loop szMessage behind).phase = .ended := by
  unfold enter
  split
  next =>
    split
    next => exact .inl rfl
    next => exact .inr rfl
  next => exact .inr rfl

end Connections

/-! ## The steps -/

variable [DecidableEq S] {system system' : EchoSystem S} {tr es : List (Event S)} {client : S}

/-- What a step of a client program does. -/
inductive ClientStep (system : EchoSystem S) : Input S → EchoSystem S → List (Event S) → Prop
  /-- It connects. -/
  | connectNB {client server : S} (hserver : system.serverSocket = some server)
      (hphase : (system.connection client).phase = .idle) (hne : client ≠ server) :
      ClientStep system (.connectNB client)
        { system.setConnection client { system.connection client with phase := .handshake } with
          backlog := system.backlog ++ [client] } []
  /-- `TryConnect` goes on. -/
  | tryConnect {client : S} (hphase : (system.connection client).phase = .handshake)
      (attempt : ConnectAttempt) (packetType : Word) :
      ClientStep system (.tryConnect client attempt packetType)
        (system.setConnection client
          { (system.connection client).observeClient
              (.receiveBytes attempt.handshake.receiveBytes) with
            phase := EchoSystem.tryConnect attempt packetType }) []
  /-- The update thread takes a step. -/
  | client {client : S} {loop loop' : ClientState} {input : ClientInput}
      {events : List (ClientEvent ConsoleEvent)}
      (hphase : (system.connection client).phase = .running loop)
      (hstep : (clientLoop CClient.handlers).step loop input = some (loop', events)) :
      ClientStep system (.client client input)
        (system.setConnection client
          { events.foldl Connection.observeClient (system.connection client) with
            phase := .running loop' }) (events.map (.client client))
  /-- The console is used. -/
  | enter {client : S} {loop : ClientState}
      (hphase : (system.connection client).phase = .running loop) (szMessage : CString)
      (behind : List UInt8) :
      ClientStep system (.enter client szMessage behind)
        (system.setConnection client
          (EchoSystem.enter (system.connection client) loop szMessage behind))
        [.entered client szMessage]

/-- A step is one of the server program or of a client program. -/
theorem clientStep_of_step {input : Input S}
    (hs : (echoSystem S).step system input = some (system', es)) :
    (∃ i, input = .server i) ∨ ClientStep system input system' es := by
  change step system input = some (system', es) at hs
  cases input with
  | server i => exact .inl ⟨i, rfl⟩
  | connectNB client =>
      simp only [step] at hs
      split at hs
      next server hserver hphase =>
        split at hs
        next => cases hs
        next hfree =>
          obtain ⟨rfl, rfl⟩ := Prod.mk.inj (Option.some.inj hs)
          exact .inr (.connectNB hserver hphase (not_or.mp hfree).1)
      next => cases hs
  | tryConnect client attempt packetType =>
      simp only [step] at hs
      split at hs
      next hphase =>
        obtain ⟨rfl, rfl⟩ := Prod.mk.inj (Option.some.inj hs)
        exact .inr (.tryConnect hphase attempt packetType)
      next => cases hs
  | client client input =>
      simp only [step] at hs
      split at hs
      next loop hphase =>
        obtain ⟨⟨loop', events⟩, hstep, hp⟩ := Option.map_eq_some_iff.mp hs
        obtain ⟨rfl, rfl⟩ := Prod.mk.inj hp
        exact .inr (.client hphase hstep)
      next => cases hs
  | enter client szMessage behind =>
      simp only [step] at hs
      split at hs
      next loop hphase =>
        obtain ⟨rfl, rfl⟩ := Prod.mk.inj (Option.some.inj hs)
        exact .inr (.enter hphase szMessage behind)
      next => cases hs

theorem ClientStep.of_step {input : Input S}
    (hs : (echoSystem S).step system input = some (system', es))
    (hinput : ∀ i, input ≠ .server i) : ClientStep system input system' es :=
  (clientStep_of_step hs).resolve_left (not_exists.mpr hinput)

/-- What a client program does is a step, unless it connects to a server that has been closed. -/
theorem ClientStep.step_eq {input : Input S} (h : ClientStep system input system' es)
    (hopen : ∀ client, input = .connectNB client → ¬ system.Exited) :
    (echoSystem S).step system input = some (system', es) := by
  change step system input = _
  cases h with
  | connectNB hserver hphase hne =>
      simp only [step, hserver, hphase]
      rw [if_neg (not_or.mpr ⟨hne, hopen _ rfl⟩)]
  | tryConnect hphase => simp only [step, hphase]
  | client hphase hstep =>
      simp only [step, hphase]
      exact congrArg (Option.map _) hstep
  | enter hphase => simp only [step, hphase]

/-- A step is one of the server program, or leaves it alone. -/
theorem serverEvents_of_step {system system' : EchoSystem S} {input : Input S}
    {es : List (Event S)} (hs : (echoSystem S).step system input = some (system', es)) :
    (∃ i, input = .server i ∧
        (serverProgram S).step system.program i = some (system'.program, serverEvents es)) ∨
      (∀ i, input ≠ .server i) ∧ system'.program = system.program ∧ serverEvents es = [] := by
  rcases clientStep_of_step hs with ⟨i, rfl⟩ | hclient
  · obtain ⟨⟨program, events⟩, hstep, hp⟩ := Option.map_eq_some_iff.mp hs
    obtain ⟨rfl, rfl⟩ := Prod.mk.inj hp
    refine .inl ⟨i, rfl, ?_⟩
    rw [serverEvents_map_server]
    exact hstep
  · refine .inr ?_
    cases hclient with
    | connectNB => exact ⟨by simp, rfl, rfl⟩
    | tryConnect => exact ⟨by simp, rfl, rfl⟩
    | client => exact ⟨by simp, rfl, serverEvents_map_client _ _⟩
    | enter => exact ⟨by simp, rfl, rfl⟩

/-- The server program does what it could do by itself. -/
theorem Reaches.program {system : EchoSystem S} {tr : List (Event S)}
    (h : Reaches delivery system tr) :
    (serverProgram S).Reachable ServerProgram.Undisturbed (.initial S) system.program
      (serverEvents tr) := by
  refine h.project (f := EchoSystem.program) rfl ?_
  intro system system' es input hadm hs
  rcases serverEvents_of_step hs with ⟨i, rfl, hstep⟩ | ⟨-, hprogram, hnil⟩
  · exact .single hadm.1 hstep
  · change Machine.Matched _ _ _ _ (serverEvents es)
    rw [hprogram, hnil]
    exact .refl _

/-- Where a client program stands after a step. -/
inductive PhaseStep (system : EchoSystem S) (client : S) : Input S → ClientPhase → Prop
  /-- It does not take the step, or it stays where it is. -/
  | same {input : Input S} : PhaseStep system client input (system.connection client).phase
  /-- It connects. -/
  | connectNB {server : S} (hserver : system.serverSocket = some server) (hne : client ≠ server) :
      PhaseStep system client (.connectNB client) .handshake
  /-- `TryConnect` goes on. -/
  | tryConnect (hphase : (system.connection client).phase = .handshake) (attempt : ConnectAttempt)
      (packetType : Word) : PhaseStep system client (.tryConnect client attempt packetType)
        (tryConnect attempt packetType)
  /-- The update thread takes a step. -/
  | client {loop loop' : ClientState} {input : ClientInput}
      {events : List (ClientEvent ConsoleEvent)}
      (hphase : (system.connection client).phase = .running loop)
      (hstep : (clientLoop CClient.handlers).step loop input = some (loop', events)) :
      PhaseStep system client (.client client input) (.running loop')
  /-- The console ends it. -/
  | ended {loop : ClientState} {szMessage : CString} {behind : List UInt8}
      (hphase : (system.connection client).phase = .running loop) :
      PhaseStep system client (.enter client szMessage behind) .ended

theorem phaseStep_of_step {input : Input S}
    (hs : (echoSystem S).step system input = some (system', es)) (client : S) :
    PhaseStep system client input (system'.connection client).phase := by
  rcases clientStep_of_step hs with ⟨i, rfl⟩ | hclient
  · obtain ⟨⟨program, events⟩, -, hp⟩ := Option.map_eq_some_iff.mp hs
    obtain ⟨rfl, -⟩ := Prod.mk.inj hp
    rw [phase_observe]
    exact .same
  -- the step of a client concerns this one, or another one
  have hother : ∀ {user : S} {connection : Connection}, client ≠ user →
      PhaseStep system client input
        ((system.setConnection user connection).connection client).phase := by
    intro user connection hne
    rw [connection_setConnection_of_ne system hne]
    exact .same
  cases hclient with
  | @connectNB user _ hserver _ hne =>
      by_cases heq : client = user
      · subst heq
        change PhaseStep system client _ ((system.setConnection client _).connection client).phase
        rw [connection_setConnection_self]
        exact .connectNB hserver hne
      · exact hother heq
  | @tryConnect user hphase attempt packetType =>
      by_cases heq : client = user
      · subst heq
        rw [connection_setConnection_self]
        exact .tryConnect hphase attempt packetType
      · exact hother heq
  | @client user _ _ _ _ hphase hstep =>
      by_cases heq : client = user
      · subst heq
        rw [connection_setConnection_self]
        exact .client hphase hstep
      · exact hother heq
  | @enter user loop hphase szMessage behind =>
      by_cases heq : client = user
      · subst heq
        rw [connection_setConnection_self]
        rcases phase_enter (system.connection client) loop szMessage behind with hsame | hended
        · rw [hsame]
          exact .same
        · rw [hended]
          exact .ended hphase
      · exact hother heq

/-- Only the server and the console of a client change what the client has on its way to the
server. -/
theorem upstream_of_step {input : Input S} (hserver : ∀ i, input ≠ .server i)
    (henter : ∀ szMessage behind, input ≠ .enter client szMessage behind)
    (hs : (echoSystem S).step system input = some (system', es)) :
    (system'.connection client).upstream = (system.connection client).upstream := by
  have hset : ∀ {user : S} {connection : Connection},
      (client = user → connection.upstream = (system.connection user).upstream) →
        ((system.setConnection user connection).connection client).upstream =
          (system.connection client).upstream := by
    intro user connection hsame
    by_cases hne : client = user
    · subst hne
      rw [connection_setConnection_self, hsame rfl]
    · rw [connection_setConnection_of_ne system hne]
  rcases clientStep_of_step hs with ⟨i, rfl⟩ | hclient
  · exact absurd rfl (hserver i)
  cases hclient with
  | @connectNB user =>
      exact @hset user { system.connection user with phase := .handshake } fun _ => rfl
  | tryConnect => exact hset fun _ => upstream_observeClient _ _
  | @client _ _ _ _ events => exact hset fun _ => upstream_foldl_observeClient _ events
  | enter _ szMessage behind =>
      refine hset ?_
      rintro rfl
      exact absurd rfl (henter szMessage behind)

/-- Clients have connected to a server that has been started, and not to themselves. -/
def Connected (system : EchoSystem S) : Prop :=
  ∀ client, (system.connection client).phase ≠ .idle →
    ∃ server, system.program.network = some (ServerProgram.started server) ∧ client ≠ server

/-- Clients connect when the server has been started, and not to themselves. -/
theorem Connected.of_step (h : Connected system) {past : List (ServerProgram.Event S)}
    (hprogram :
      (serverProgram S).Reachable ServerProgram.Undisturbed (.initial S) system.program past)
    {input : Input S} (hs : (echoSystem S).step system input = some (system', es)) :
    Connected system' := by
  intro client hphase
  -- the network object stays as it is
  have hkeep : ∀ {server}, system.program.network = some (ServerProgram.started server) →
      system'.program.network = some (ServerProgram.started server) := by
    intro server hnetwork
    rcases serverEvents_of_step hs with ⟨i, -, hstep⟩ | ⟨-, hsame, -⟩
    · rw [ServerProgram.network_of_step hprogram hstep (by simp [hnetwork]), hnetwork]
    · rw [hsame, hnetwork]
  have hbefore : (system.connection client).phase ≠ .idle → ∃ server,
      system'.program.network = some (ServerProgram.started server) ∧ client ≠ server := by
    intro hne
    obtain ⟨server, hnetwork, hother⟩ := h client hne
    exact ⟨server, hkeep hnetwork, hother⟩
  have hstep := phaseStep_of_step hs client
  generalize (system'.connection client).phase = phase' at hphase hstep
  cases hstep with
  | same => exact hbefore hphase
  | connectNB hserver hne =>
      exact ⟨_, hkeep (ServerProgram.network_eq_started hprogram hserver), hne⟩
  | tryConnect hwaits => exact hbefore (by simp [hwaits])
  | client hrunning => exact hbefore (by simp [hrunning])
  | ended hrunning => exact hbefore (by simp [hrunning])

theorem Reaches.connected (h : Reaches delivery system tr) : Connected system :=
  h.invariant (P := fun system _ => Connected system) (fun _ hphase => absurd rfl hphase)
    fun hreach ih _ hs => ih.of_step (Reaches.program hreach) hs

/-- A client that has connected does not have the name of the listening socket. -/
theorem Reaches.serverSocket_ne (h : Reaches delivery system tr)
    (hphase : (system.connection client).phase ≠ .idle) : system.serverSocket ≠ some client := by
  obtain ⟨server, hnetwork, hne⟩ := Reaches.connected h client hphase
  rw [serverSocket, hnetwork]
  simpa [ServerProgram.started] using hne.symm

end EchoSystem

end PocoEcho

import PocoEcho.System.Accounting
import PocoEcho.System.Interruptions

/-!
# Safety in spite of exceptions

Any call on a socket may throw in the update threads and while a client connects. An exception in
the update thread of the server ends it, and one in the update thread of a client makes it lose its
socket. A run with exceptions is compared with one in which nothing throws: there, the client closes
its end instead, and the update thread of the server takes no more steps. Nobody sees more in the
run with exceptions. The console threads meet no exception, as they send only while the socket
exists.

## Main definitions

* `EchoSystem.MayFail`: what the socket library promises when any call may throw;
* `EchoSystem.Calm`: what is known of a system in which nothing has thrown;
* `EchoSystem.Resembles`: a system is what has become of another one because of exceptions.

## Main results

* `EchoSystem.Resembles.step`: steps of the system are those of the other one, or exceptions;
* `EchoSystem.displays_entered_despite_failures`: what is displayed.
-/

namespace PocoEcho

open Poco ServerLoop

/-! ## A connection with exceptions and one without -/

namespace Connection

variable {S : Type} {connection calm : Connection}

/-- What has become of a connection because of exceptions: the client has closed its end, as it has
without them, or the connection is the same but for what is on its way to the server. -/
def Resembles (connection calm : Connection) : Prop :=
  connection.clientClosed = true ∧ calm.clientClosed = true ∨
    connection = { calm with upstream := connection.upstream }

theorem Resembles.clientClosed_eq (h : connection.Resembles calm) :
    connection.clientClosed = calm.clientClosed := by
  rcases h with ⟨hclosed, hcalm⟩ | hsame
  · rw [hclosed, hcalm]
  · rw [hsame]
    rfl

theorem Resembles.eq_of_open (h : connection.Resembles calm)
    (hopen : connection.clientClosed = false) :
    connection = { calm with upstream := connection.upstream } := by
  refine h.resolve_left fun hclosed => ?_
  rw [hclosed.1] at hopen
  cases hopen

/-- The server does the same on both. -/
theorem Resembles.of_server (h : connection.Resembles calm)
    (hup : connection.upstream = calm.upstream) (events : List (Event S)) :
    (events.foldl observe connection).Resembles (events.foldl observe calm) ∧
      (events.foldl observe connection).upstream = (events.foldl observe calm).upstream := by
  rcases h with ⟨hclosed, hcalm⟩ | hsame
  · refine ⟨.inl ⟨?_, ?_⟩, ?_⟩
    · rwa [clientClosed, EchoSystem.phase_foldl_observe]
    · rwa [clientClosed, EchoSystem.phase_foldl_observe]
    · clear hclosed hcalm
      induction events generalizing connection calm with
      | nil => exact hup
      | cons e events ih =>
          refine ih ?_
          unfold Connection.observe
          split <;> simp [hup]
  · rw [hup] at hsame
    subst hsame
    exact ⟨.inr rfl, rfl⟩

/-- What the server does before an exception may concern one of them only. -/
theorem Resembles.of_passive (h : connection.Resembles calm) {events : List (Event S)}
    (hpassive : ∀ e ∈ events, e.Passive) : (events.foldl observe connection).Resembles calm := by
  induction events generalizing connection with
  | nil => exact h
  | cons e events ih =>
      refine ih ?_ fun e' he' => hpassive e' (List.mem_cons_of_mem _ he')
      obtain ⟨upstream, heq⟩ := hpassive e List.mem_cons_self connection
      rw [heq]
      rcases h with hclosed | hsame
      · exact .inl hclosed
      · right
        rw [hsame]

/-- The update thread of the client does the same on both. -/
theorem observeClient_upstream (connection : Connection) (upstream : Channel UInt8)
    (events : List (ClientEvent ConsoleEvent)) :
    events.foldl observeClient { connection with upstream } =
      { events.foldl observeClient connection with upstream } := by
  induction events generalizing connection with
  | nil => rfl
  | cons e events ih =>
      have hevent : ({ connection with upstream } : Connection).observeClient e =
          { connection.observeClient e with upstream } := by
        unfold observeClient
        split <;> rfl
      rw [List.foldl_cons, List.foldl_cons, hevent, ih]

end Connection

namespace EchoSystem

variable {S : Type}

/-- The same input, if none of the calls behind the first one throws. -/
def Input.calm : Input S → Input S
  | .server (.loop input) => .server (.loop input.calm)
  | .client user input => .client user input.calm
  | input => input

/-- The first call on a socket throws. -/
def Input.Throws : Input S → Prop
  | .server (.loop input) => input.Throws
  | .tryConnect _ attempt _ => attempt.handshake.receiveBytes = .throws
  | .client _ input => input.Throws
  | _ => False

instance decidableThrows : ∀ input : Input S, Decidable input.Throws
  | .server (.loop input) => inferInstanceAs (Decidable input.Throws)
  | .server (.tryGetList _ _ _) => inferInstanceAs (Decidable False)
  | .server (.tryStart _) => inferInstanceAs (Decidable False)
  | .server (.run _) => inferInstanceAs (Decidable False)
  | .server (.add _ _) => inferInstanceAs (Decidable False)
  | .server (.remove _ _) => inferInstanceAs (Decidable False)
  | .connectNB _ => inferInstanceAs (Decidable False)
  | .tryConnect _ attempt _ =>
      inferInstanceAs (Decidable (attempt.handshake.receiveBytes = .throws))
  | .client _ input => inferInstanceAs (Decidable input.Throws)
  | .enter _ _ _ => inferInstanceAs (Decidable False)

variable [DecidableEq S]

/-- What the socket library promises when any call of the update threads may throw: nothing about a
call that throws, and about the others what it promises otherwise. -/
def MayFail (delivery : Delivery) (system : EchoSystem S) (input : Input S) : Prop :=
  input.Throws ∨ Admissible delivery system input.calm

instance decidableMayFail (delivery : Delivery)
    [∀ channel room data, Decidable (delivery channel room data)] (system : EchoSystem S)
    (input : Input S) : Decidable (MayFail delivery system input) :=
  inferInstanceAs (Decidable (_ ∨ _))

/-! ## A system in which nothing has thrown -/

/-- What is known of a system in which nothing has thrown, with the messages that each user waits
for. -/
structure Calm (system : EchoSystem S) (queue : S → List CString) : Prop where
  inv : Inv system queue
  connected : Connected system
  program : ∃ past, (serverProgram S).Reachable ServerProgram.Undisturbed (.initial S)
    system.program past

variable {system system' calm calm' : EchoSystem S} {queue : S → List CString}
  {es : List (Event S)} {input : Input S} {client : S}

/-- It takes the steps of the service. -/
theorem Calm.step (h : Calm system queue) (hadm : Admissible Channel.DeliversSegment system input)
    (hs : (echoSystem S).step system input = some (system', es)) :
    ∃ queue', Calm system' queue' ∧ Machine.Matched (fifoService S CString) (fun _ _ => True) queue
      queue' (es.filterMap Event.service) := by
  obtain ⟨past, hprogram⟩ := h.program
  obtain ⟨queue', hinv, hmatched⟩ := h.inv.of_step h.connected hprogram hadm hs
  refine ⟨queue', ⟨hinv, h.connected.of_step hprogram hs, ?_⟩, hmatched⟩
  rcases serverEvents_of_step hs with ⟨i, rfl, hstep⟩ | ⟨-, hsame, -⟩
  · exact ⟨_, hprogram.step hadm.1 hstep⟩
  · exact ⟨past, hsame ▸ hprogram⟩

/-- The connection of a client that has connected may change, as long as the invariant holds. -/
theorem Calm.setConnection (h : Calm system queue) {connection : Connection}
    (hphase : (system.connection client).phase ≠ .idle)
    (hinv : Inv (system.setConnection client connection) queue) :
    Calm (system.setConnection client connection) queue where
  inv := hinv
  connected other hother := by
    by_cases hne : other = client
    · exact hne ▸ h.connected client hphase
    · rw [connection_setConnection_of_ne system hne] at hother
      exact h.connected other hother
  program := h.program

/-! ## Exceptions in the update thread of the server -/

/-- What an exception in the update thread of the server has done. -/
structure Failure (system : EchoSystem S) (program' : ServerProgram S)
    (es : List (ServerProgram.Event S)) : Prop where
  stage : system.program.stage = .console
  exists_loop : ∃ loop events, system.program.loop = some loop ∧ loop.status = .running ∧
    program' = { system.program with loop := some { loop with status := .thrown .pocoException } } ∧
    es = events.map .loop ∧
    -- nothing has been sent, or KICK
    ((∀ e ∈ events, e.Passive) ∨ ∃ client ∈ system.backlog, ∃ host, events =
      [.acceptConnection client host, .sendBytes client PacketType.kick.word.bytes, .throws client])

/-- A step of the update thread of the server is one in which nothing throws, or an exception. -/
theorem Calm.loopStep (h : Calm system queue) {input : PocoEcho.Input S Unit}
    (hmay : MayFail Channel.DeliversSegment system (.server (.loop input)))
    {program' : ServerProgram S} {es : List (ServerProgram.Event S)}
    (hs : (serverProgram S).step system.program (.loop input) = some (program', es)) :
    Admissible Channel.DeliversSegment system (.server (.loop input.calm)) ∧
        (serverProgram S).step system.program (.loop input.calm) = some (program', es) ∨
      Failure system program' es := by
  obtain ⟨past, hprogram⟩ := h.program
  obtain ⟨hstage, server, loop, loop', events, hnetwork, hloop, hstep, rfl, rfl⟩ :=
    ServerProgram.exists_of_step_loop (ServerProgram.programInv_of_reachable hprogram) hs
  obtain ⟨outcome, hup, rfl, ⟨fault, herr, rfl⟩ | hok⟩ := outcome_of_step hstep
  · right
    have hrun := (branch_of_onUpdate hup).1
    rcases hmay with hthrows | hadm
    · obtain ⟨hpoco, hpassive⟩ := error_of_throws hup (Input.throws_withWorld.mpr hthrows)
      obtain rfl := Except.error.inj (herr.symm.trans hpoco)
      exact ⟨hstage, loop, outcome.log, hloop, hrun, rfl, rfl, .inl hpassive⟩
    · -- without exception of a call, the step would not have been left
      have hpoco : fault = .pocoException := by
        obtain ⟨outcome', hup', rfl | hpoco⟩ := interrupts_onUpdate hup
        · rw [Input.calm_withWorld] at hup'
          have hcalm : (serverLoop CServer.handlers server).step loop
              (input.calm.withWorld system.program.whiteList) =
                some ({ loop with status := .thrown fault }, outcome.log) := by
            refine (congrArg (Option.map _) hup').trans ?_
            simp only [Option.map_some, herr]
          have hinv := h.inv.of_server h.connected hprogram hadm
            (ServerProgram.step_loop hstage hnetwork hloop hcalm)
          exact absurd rfl (hinv.not_thrown _ rfl fault)
        · exact Except.error.inj (herr.symm.trans hpoco)
      subst hpoco
      refine ⟨hstage, loop, outcome.log, hloop, hrun, rfl, rfl, ?_⟩
      refine (passive_or_kick_of_error hup herr).imp id ?_
      rintro ⟨client, host, world, env, heq, hlog⟩
      refine ⟨client, ?_, host, hlog⟩
      cases input <;> cases heq
      exact hadm.2 loop hloop
  · left
    have hprog := progress_of_ok hup hok
    have hcalm := step_calm_of_progress hstep hprog
    rw [Input.calm_withWorld] at hcalm
    refine ⟨hmay.resolve_left fun hthrows => ?_,
      ServerProgram.step_loop hstage hnetwork hloop hcalm⟩
    have herr := (error_of_throws hup (Input.throws_withWorld.mpr hthrows)).1
    rw [hok] at herr
    cases herr

/-! ## A system with exceptions and one without -/

/-- The server programs of a system and of one in which nothing has thrown. -/
inductive ServerResembles (system calm : EchoSystem S) : Prop
  /-- No exception has left the update thread. -/
  | runs (hprogram : system.program = calm.program) (hbacklog : system.backlog = calm.backlog)
      (hup : ∀ client, (system.connection client).upstream = (calm.connection client).upstream)
  /-- An exception has left it; without exception it takes no more steps either. -/
  | failed {loop : LoopState S} (hstage : system.program.stage = .console)
      (hnetwork : system.program.network = calm.program.network)
      (hloop : system.program.loop = some loop) (hstatus : loop.status = .thrown .pocoException)
      (hopen : ¬ calm.Exited)

/-- What has become of a system because of exceptions. -/
structure Resembles (system calm : EchoSystem S) : Prop where
  server : ServerResembles system calm
  connection : ∀ client, (system.connection client).Resembles (calm.connection client)

omit [DecidableEq S] in
theorem Resembles.serverSocket_eq (h : Resembles system calm) :
    system.serverSocket = calm.serverSocket := by
  rw [serverSocket, serverSocket]
  cases h.server with
  | runs hprogram => rw [hprogram]
  | failed _ hnetwork => rw [hnetwork]

omit [DecidableEq S] in
/-- A step that concerns one client only. -/
theorem Resembles.update (h : Resembles system calm) (user : S)
    (hprogram : system'.program = system.program) (hprogram' : calm'.program = calm.program)
    (hbacklog : system.backlog = calm.backlog → system'.backlog = calm'.backlog)
    (hother : ∀ other, other ≠ user → system'.connection other = system.connection other ∧
      calm'.connection other = calm.connection other)
    (hnew : (system'.connection user).Resembles (calm'.connection user))
    (hup : (system.connection user).upstream = (calm.connection user).upstream →
      (system'.connection user).upstream = (calm'.connection user).upstream) :
    Resembles system' calm' where
  server := by
    cases h.server with
    | runs hprograms hbacklogs hups =>
        refine .runs (by rw [hprogram, hprogram', hprograms]) (hbacklog hbacklogs) fun other => ?_
        by_cases hne : other = user
        · subst hne
          exact hup (hups other)
        · rw [(hother other hne).1, (hother other hne).2]
          exact hups other
    | failed hstage hnetwork hloop hstatus hopen =>
        refine .failed (hprogram ▸ hstage) (by rw [hprogram, hprogram', hnetwork])
          (hprogram ▸ hloop) hstatus ?_
        rwa [Exited, hprogram']
  connection other := by
    by_cases hne : other = user
    · subst hne
      exact hnew
    · rw [(hother other hne).1, (hother other hne).2]
      exact h.connection other

/-- One connection changes in both systems. -/
theorem Resembles.setConnection (h : Resembles system calm) (user : S)
    {connection connection' : Connection} (hnew : connection.Resembles connection')
    (hup : (system.connection user).upstream = (calm.connection user).upstream →
      connection.upstream = connection'.upstream) :
    Resembles (system.setConnection user connection) (calm.setConnection user connection') := by
  refine h.update user rfl rfl id (fun other hother => ?_) ?_ fun hbefore => ?_
  · exact ⟨connection_setConnection_of_ne system hother _,
      connection_setConnection_of_ne calm hother _⟩
  · rwa [connection_setConnection_self, connection_setConnection_self]
  · rw [connection_setConnection_self, connection_setConnection_self]
    exact hup hbefore

/-- What the server meets does not depend on how the clients have been left. -/
theorem admissible_server_congr {delivery : Delivery} (hprogram : system.program = calm.program)
    (hbacklog : system.backlog = calm.backlog)
    (hup : ∀ client, (system.connection client).upstream = (calm.connection client).upstream)
    (hclosed : ∀ client,
      (system.connection client).clientClosed = (calm.connection client).clientClosed)
    {input : ServerProgram.Input S} (h : Admissible delivery system (.server input)) :
    Admissible delivery calm (.server input) := by
  refine ⟨hprogram ▸ h.1, ?_⟩
  cases input with
  | loop input =>
      intro loop hloop
      have hadm := h.2 loop (hprogram ▸ hloop)
      cases input with
      | select iCount ready throwsAt =>
          intro socket hsocket
          have hready := hadm socket hsocket
          rwa [Readable, serverSocket, hprogram, hbacklog, hup, hclosed] at hready
      | accept client host world env =>
          have hwaits : client ∈ system.backlog := hadm
          exact (hbacklog ▸ hwaits : client ∈ calm.backlog)
      | receive result env =>
          intro client hclient
          have hallows := hadm client hclient
          rwa [hup, hclosed] at hallows
      | closeRequested => trivial
      | drop throwsAt => trivial
  | _ => trivial

/-! ## Steps of the server -/

section Server

variable {i : ServerProgram.Input S} {program' : ServerProgram S}
  {events : List (ServerProgram.Event S)}

/-- Both server programs take the step. -/
theorem Resembles.observe (h : Resembles system calm) (hbacklog : system.backlog = calm.backlog)
    (hup : ∀ client, (system.connection client).upstream = (calm.connection client).upstream)
    (program' : ServerProgram S) (events : List (PocoEcho.Event S)) :
    Resembles (system.observe program' events) (calm.observe program' events) where
  server := .runs rfl (by simp only [EchoSystem.observe, hbacklog]) fun client =>
    ((h.connection client).of_server (hup client) _).2
  connection client := ((h.connection client).of_server (hup client) _).1

/-- An exception in the update thread of the server is no step without exceptions, unless KICK has
been sent. -/
theorem Resembles.of_failure (h : Resembles system calm) (hcalm : Calm calm queue)
    (hup : ∀ client, (system.connection client).upstream = (calm.connection client).upstream)
    (hfailure : Failure calm program' events) :
    ∃ calm', Resembles (system.observe program' (ServerProgram.loopEvents events)) calm' ∧
      Calm calm' queue := by
  obtain ⟨hstage, loop, loopEvents, hloop, hrun, rfl, rfl, hsent⟩ := hfailure
  rw [ServerProgram.loopEvents_map_loop]
  have hopen : ¬ calm.Exited := by
    rintro ⟨loop', hmem, hexited⟩
    obtain rfl := Option.some.inj (hloop.symm.trans hmem)
    rw [hrun] at hexited
    cases hexited
  rcases hsent with hpassive | ⟨client, hwaits, host, rfl⟩
  · refine ⟨calm, ⟨.failed hstage rfl rfl rfl hopen, fun other => ?_⟩, hcalm⟩
    exact (h.connection other).of_passive fun e he => hpassive e (List.mem_of_mem_filter he)
  · -- without exception, the packet is sent, but the connection is not closed
    have hprogram : { calm.program with loop := some loop } = calm.program := by rw [← hloop]
    have hinv : Inv (calm.afterLoop loop
        [.acceptConnection client host, .sendBytes client PacketType.kick.word.bytes]) queue :=
      hcalm.inv.of_answer hloop hwaits host (.inl rfl) (.inr ⟨rfl, rfl⟩) rfl
        (hcalm.inv.not_thrown loop hloop)
    rw [afterLoop, hprogram] at hinv
    refine ⟨calm.observe calm.program
      [.acceptConnection client host, .sendBytes client PacketType.kick.word.bytes],
      ⟨.failed hstage rfl rfl rfl hopen, fun other => ?_⟩, hinv, fun other hphase => ?_,
      hcalm.program⟩
    · have hsplit : eventsOf other ([.acceptConnection client host,
          .sendBytes client PacketType.kick.word.bytes, .throws client] : List (PocoEcho.Event S)) =
          eventsOf other [.acceptConnection client host,
            .sendBytes client PacketType.kick.word.bytes] ++ eventsOf other [.throws client] :=
        List.filter_append [_, _] [_]
      have hkicked := ((h.connection other).of_server (hup other) (eventsOf other
        [.acceptConnection client host, .sendBytes client PacketType.kick.word.bytes])).1
      simp only [EchoSystem.observe, hsplit, List.foldl_append]
      refine hkicked.of_passive fun e he => ?_
      obtain rfl := List.mem_singleton.mp (List.mem_of_mem_filter he)
      exact passive_throws client
    · rw [phase_observe] at hphase
      exact hcalm.connected other hphase

/-- A step of the server program. -/
theorem Resembles.of_server (h : Resembles system calm) (hcalm : Calm calm queue)
    (hmay : MayFail Channel.DeliversSegment system (.server i))
    (hs : (serverProgram S).step system.program i = some (program', events)) :
    ∃ calm' queue', Resembles (system.observe program' (ServerProgram.loopEvents events)) calm' ∧
      Calm calm' queue' ∧
      Machine.Matched (fifoService S CString) (fun _ _ => True) queue queue' [] := by
  cases h.server with
  | runs hprogram hbacklog hup =>
      rw [hprogram] at hs
      have hclosed := fun client => (h.connection client).clientClosed_eq
      -- where nothing throws, the other system takes the same step
      have hfollow : ∀ i', Admissible Channel.DeliversSegment system (.server i') →
          (serverProgram S).step calm.program i' = some (program', events) →
          ∃ calm' queue',
            Resembles (system.observe program' (ServerProgram.loopEvents events)) calm' ∧
            Calm calm' queue' ∧
            Machine.Matched (fifoService S CString) (fun _ _ => True) queue queue' [] := by
        intro i' hadm hstep
        have hcalmStep : (echoSystem S).step calm (.server i') =
            some (calm.observe program' (ServerProgram.loopEvents events),
              events.map .server) := by
          change (ServerProgram.step calm.program i').map _ = _
          exact congrArg (Option.map _) hstep
        obtain ⟨queue', hcalm', hmatched⟩ := hcalm.step
          (admissible_server_congr hprogram hbacklog hup hclosed hadm) hcalmStep
        rw [filterMap_service_server] at hmatched
        exact ⟨_, queue', h.observe hbacklog hup program' _, hcalm', hmatched⟩
      cases i with
      | loop input =>
          have hmay' : MayFail Channel.DeliversSegment calm (.server (.loop input)) :=
            hmay.imp id (admissible_server_congr hprogram hbacklog hup hclosed)
          rcases hcalm.loopStep hmay' hs with ⟨hadm, hstep⟩ | hfailure
          · refine hfollow (.loop input.calm) ?_ hstep
            exact admissible_server_congr hprogram.symm hbacklog.symm
              (fun client => (hup client).symm) (fun client => (hclosed client).symm) hadm
          · obtain ⟨calm', hresembles, hcalm'⟩ := h.of_failure hcalm hup hfailure
            exact ⟨calm', queue, hresembles, hcalm', .refl queue⟩
      | tryGetList created selected rows => exact hfollow _ (hmay.resolve_left id) hs
      | tryStart opened => exact hfollow _ (hmay.resolve_left id) hs
      | run packetType => exact hfollow _ (hmay.resolve_left id) hs
      | add strIp executed => exact hfollow _ (hmay.resolve_left id) hs
      | remove strIp executed => exact hfollow _ (hmay.resolve_left id) hs
  | failed hstage hnetwork hloop hstatus hopen =>
      -- the console goes on
      obtain ⟨hstage', hnetwork', hloop', hnil⟩ :=
        ServerProgram.step_of_thrown hstage hloop hstatus hs
      rw [hnil, observe_nil]
      exact ⟨calm, queue, ⟨.failed hstage' (hnetwork'.trans hnetwork) (hloop'.trans hloop) hstatus
        hopen, h.connection⟩, hcalm, .refl queue⟩

end Server

/-! ## Steps of a client -/

section Clients

/-- The conclusion of a step: the system without exceptions goes on, and its users notice the
same. -/
def Follows (system' : EchoSystem S) (queue : S → List CString) (es : List (Event S)) : Prop :=
  ∃ calm' queue', Resembles system' calm' ∧ Calm calm' queue' ∧
    Machine.Matched (fifoService S CString) (fun _ _ => True) queue queue'
      (es.filterMap Event.service)

omit [DecidableEq S] in
/-- A client of which nothing has been lost is the same without exceptions. -/
theorem Resembles.connection_eq (h : Resembles system calm)
    (hopen : (system.connection client).clientClosed = false) :
    system.connection client =
      { calm.connection client with upstream := (system.connection client).upstream } :=
  (h.connection client).eq_of_open hopen

/-- A client connects. -/
theorem Resembles.of_connectNB (h : Resembles system calm) (hcalm : Calm calm queue)
    (hs : (echoSystem S).step system (.connectNB client) = some (system', es)) :
    Follows system' queue es := by
  have hstill : ¬ system.Exited := by
    intro hexited
    change step system (.connectNB client) = _ at hs
    simp only [step, hexited, or_true, if_true] at hs
    split at hs <;> cases hs
  cases ClientStep.of_step hs (by simp) with
  | connectNB hserver hphase hne =>
    have hsame := h.connection_eq (Connection.clientClosed_of_idle hphase)
    have hphase' : (calm.connection client).phase = .idle := by
      rw [hsame] at hphase
      exact hphase
    have hopen : ¬ calm.Exited := by
      cases h.server with
      | runs hprogram => rwa [Exited, ← hprogram]
      | failed _ _ _ _ hopen => exact hopen
    have hstep := (ClientStep.connectNB (h.serverSocket_eq ▸ hserver) hphase' hne).step_eq
      fun _ _ => hopen
    have hadm : Admissible Channel.DeliversSegment calm (.connectNB client) := trivial
    obtain ⟨queue', hcalm', hmatched⟩ := hcalm.step hadm hstep
    refine ⟨_, queue', ?_, hcalm', hmatched⟩
    refine h.update client rfl rfl (fun hbacklog => ?_) (fun other hother => ?_) ?_ fun hup => ?_
    · exact congrArg (· ++ [client]) hbacklog
    · exact ⟨connection_setConnection_of_ne system hother _,
        connection_setConnection_of_ne calm hother _⟩
    · rw [connection_setConnection_self, connection_setConnection_self]
      right
      rw [hsame]
    · rw [connection_setConnection_self, connection_setConnection_self]
      exact hup

/-- The rest of `TryConnect`, and `Run`. -/
theorem Resembles.of_tryConnect (h : Resembles system calm) (hcalm : Calm calm queue)
    {attempt : ConnectAttempt} {packetType : Word}
    (hmay : MayFail Channel.DeliversSegment system (.tryConnect client attempt packetType))
    (hs : (echoSystem S).step system (.tryConnect client attempt packetType) =
      some (system', es)) : Follows system' queue es := by
  cases ClientStep.of_step hs (by simp) with
  | tryConnect hphase =>
    have hsame := h.connection_eq (Connection.clientClosed_of_handshake hphase)
    have hphase' : (calm.connection client).phase = .handshake := by
      rw [hsame] at hphase
      exact hphase
    rcases hmay with hthrows | hadm
    · -- the program ends; without exception it does the same
      obtain ⟨up, down, hsituation, hqueue⟩ := hcalm.inv.situation client
      obtain ⟨rfl, rfl, hup, -⟩ := hsituation.of_handshake hphase'
      have hthrows : attempt.handshake.receiveBytes = .throws := hthrows
      have hended : tryConnect attempt packetType = .ended := by
        refine tryConnect_of_not_accepted ?_ ?_ packetType
        · rintro ⟨-, -, haccept⟩
          cases hthrows.symm.trans haccept
        · rintro ⟨-, -, ⟨hnegative, -⟩ | ⟨data, hdata, -⟩⟩
          · cases hthrows.symm.trans hnegative
          · cases hthrows.symm.trans hdata
      rw [hthrows, hended]
      have hsituation' : Situation (calm.setConnection client
          { calm.connection client with phase := .ended }) client [] [] := by
        refine .ended ?_ ?_
        · rw [connection_setConnection_self]
        · rw [connection_setConnection_self]
          exact hup
      have hinv := hcalm.inv.of_setConnection (by simp [hphase'])
        (Connection.clientClosed_of_handshake hphase') hsituation'
      rw [← hqueue, Function.update_eq_self] at hinv
      refine ⟨_, queue, ?_, hcalm.setConnection (by simp [hphase']) hinv, .refl queue⟩
      exact h.setConnection client (.inl ⟨rfl, rfl⟩) id
    · obtain ⟨hconnect, hpoll, hallows, hread⟩ := hadm
      rw [hsame] at hallows
      have hadm' :
          Admissible Channel.DeliversSegment calm (.tryConnect client attempt packetType) :=
        ⟨hconnect, hpoll, hallows, hread⟩
      obtain ⟨queue', hcalm', hmatched⟩ := hcalm.step hadm'
        ((ClientStep.tryConnect hphase' attempt packetType).step_eq (by simp))
      refine ⟨_, queue', h.setConnection client (.inr ?_) fun hup => ?_, hcalm', hmatched⟩
      · have hobserve := Connection.observeClient_upstream (calm.connection client)
          (system.connection client).upstream [.receiveBytes attempt.handshake.receiveBytes]
        rw [← hsame] at hobserve
        simp only [List.foldl_cons, List.foldl_nil] at hobserve
        rw [hobserve]
      · exact (upstream_observeClient _ _).trans (hup.trans (upstream_observeClient _ _).symm)

omit [DecidableEq S] in
/-- A client that has lost its socket displays nothing any more. -/
theorem filterMap_service_of_dead {events : List (ClientEvent ConsoleEvent)}
    (h : events = [.exit] ∨ events = [.useAfterDelete] ∨ events = [.throws, .exit]) :
    (events.map (Event.client client)).filterMap Event.service = [] := by
  rcases h with rfl | rfl | rfl <;> rfl

/-- A step of the update thread of a client. -/
theorem Resembles.of_client (h : Resembles system calm) (hcalm : Calm calm queue)
    {input : ClientInput} (hmay : MayFail Channel.DeliversSegment system (.client client input))
    (hs : (echoSystem S).step system (.client client input) = some (system', es)) :
    Follows system' queue es := by
  cases ClientStep.of_step hs (by simp) with
  | @client _ loop loop' _ events hphase hstep =>
    have hupstream := upstream_foldl_observeClient (system.connection client) events
    cases hlive : loop.socketLive with
    | false =>
        -- nothing is left to lose
        obtain ⟨hdead, hevents⟩ := clientLoop_of_dead hlive hstep
        have hclosed : (system.connection client).clientClosed = true := by
          rw [Connection.clientClosed_of_running hphase, hlive]
          rfl
        have hclosed' := (h.connection client).clientClosed_eq.symm.trans hclosed
        rw [Follows, filterMap_service_of_dead (hevents.imp_right .inl)]
        refine ⟨calm, queue, ?_, hcalm, .refl queue⟩
        refine h.update client rfl rfl id (fun other hother => ?_) (.inl ⟨?_, hclosed'⟩)
          fun hup => ?_
        · exact ⟨connection_setConnection_of_ne system hother _, rfl⟩
        · rw [connection_setConnection_self, Connection.clientClosed_of_running rfl, hdead]
          rfl
        · rw [connection_setConnection_self]
          exact hupstream.trans hup
    | true =>
        have hopen : (system.connection client).clientClosed = false := by
          rw [Connection.clientClosed_of_running hphase, hlive]
          rfl
        have hsame := h.connection_eq hopen
        have hphase' : (calm.connection client).phase = .running loop := by
          rw [hsame] at hphase
          exact hphase
        obtain ⟨up, down, hsituation, hqueue⟩ := hcalm.inv.situation client
        obtain ⟨hup, hdown, hbacklog, hclients⟩ := hsituation.of_running hphase'
        rcases hmay with hthrows | hadm
        · -- the socket is deleted; without exception the client closes it
          obtain ⟨rfl, rfl⟩ := clientLoop_of_throws hlive hthrows hstep
          have hsituation' : Situation (calm.setConnection client { calm.connection client with
              phase := .running { loop with socketLive := false, status := .exited } }) client up
              down := by
            refine .running (congrArg Connection.phase (connection_setConnection_self ..)) ?_ ?_
              hbacklog (by rintro ⟨⟩)
            · rw [connection_setConnection_self]
              exact hup
            · rw [connection_setConnection_self]
              exact hdown.leave
          have hinv := hcalm.inv.of_setConnection (by simp [hphase'])
            ((h.connection client).clientClosed_eq.symm.trans hopen) hsituation'
          rw [← hqueue, Function.update_eq_self] at hinv
          rw [Follows, filterMap_service_of_dead (.inr (.inr rfl))]
          refine ⟨_, queue, ?_, hcalm.setConnection (by simp [hphase']) hinv, .refl queue⟩
          exact h.setConnection client (.inl ⟨rfl, rfl⟩) id
        · have hadm' : Admissible Channel.DeliversSegment calm (.client client input.calm) := by
            have hconnection : ClientAdmissible Channel.DeliversSegment (system.connection client)
              input.calm := hadm
            rw [hsame] at hconnection
            cases input with
            | closeRequested => trivial
            | poll ready => exact hconnection
            | pollThrows => exact hconnection
            | receiveType result => exact hconnection
            | receivePayload result env => exact hconnection
          have hstep' := (CClient.step_calm fun hpoint => (hdown.payload hpoint).1).trans hstep
          obtain ⟨queue', hcalm', hmatched⟩ := hcalm.step hadm'
            ((ClientStep.client hphase' hstep').step_eq (by simp))
          refine ⟨_, queue', h.setConnection client (.inr ?_) fun hbefore => ?_, hcalm', hmatched⟩
          · have hobserve := Connection.observeClient_upstream (calm.connection client)
              (system.connection client).upstream events
            rw [← hsame] at hobserve
            rw [hobserve]
          · exact hupstream.trans (hbefore.trans (upstream_foldl_observeClient _ events).symm)

omit [DecidableEq S] in
/-- What is entered is sent on both. -/
theorem enter_upstream (connection : Connection) (upstream : Channel UInt8) (loop : ClientState)
    (szMessage : CString) (behind : List UInt8) :
    enter { connection with upstream } loop szMessage behind =
      { enter connection loop szMessage behind with
        upstream := (enter { connection with upstream } loop szMessage behind).upstream } := by
  unfold enter
  simp only
  split
  · split <;> rfl
  · rfl

/-- A message is entered. -/
theorem Resembles.of_enter (h : Resembles system calm) (hcalm : Calm calm queue)
    {szMessage : CString} {behind : List UInt8}
    (hmay : MayFail Channel.DeliversSegment system (.enter client szMessage behind))
    (hs : (echoSystem S).step system (.enter client szMessage behind) = some (system', es)) :
    Follows system' queue es := by
  obtain ⟨hle, hbehind, hopen⟩ := hmay.resolve_left id
  cases ClientStep.of_step hs (by simp) with
  | @enter _ loop hphase =>
    have hsame := h.connection_eq hopen
    have hphase' : (calm.connection client).phase = .running loop := by
      rw [hsame] at hphase
      exact hphase
    have hadm' : Admissible Channel.DeliversSegment calm (.enter client szMessage behind) :=
      ⟨hle, hbehind, (h.connection client).clientClosed_eq.symm.trans hopen⟩
    obtain ⟨queue', hcalm', hmatched⟩ := hcalm.step hadm'
      ((ClientStep.enter hphase' szMessage behind).step_eq (by simp))
    have henter := enter_upstream (calm.connection client) (system.connection client).upstream loop
      szMessage behind
    rw [← hsame] at henter
    refine ⟨_, queue', h.setConnection client (.inr henter) fun hbefore => ?_, hcalm', hmatched⟩
    rw [hbefore] at hsame
    rw [hsame]

end Clients

/-! ## Runs -/

/-- A step of a system with exceptions: without them it goes on as well, or stays as it is, and its
users notice the same. -/
theorem Resembles.step (h : Resembles system calm) (hcalm : Calm calm queue)
    (hmay : MayFail Channel.DeliversSegment system input)
    (hs : (echoSystem S).step system input = some (system', es)) : Follows system' queue es := by
  cases input with
  | server input =>
      obtain ⟨⟨program', events⟩, hstep, hp⟩ := Option.map_eq_some_iff.mp hs
      obtain ⟨rfl, rfl⟩ := Prod.mk.inj hp
      rw [Follows, filterMap_service_server]
      exact h.of_server hcalm hmay hstep
  | connectNB client => exact h.of_connectNB hcalm hs
  | tryConnect client attempt packetType => exact h.of_tryConnect hcalm hmay hs
  | client client input => exact h.of_client hcalm hmay hs
  | enter client szMessage behind => exact h.of_enter hcalm hmay hs

end EchoSystem

end PocoEcho

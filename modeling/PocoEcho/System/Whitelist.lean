import PocoEcho.System.Accounting

/-!
# Only whitelisted peers

The whitelist of the server decides which clients run, however the streams divide what is sent, as
long as no handshake is misread. A client program starts its threads only when it has received
ACCEPT, and the server sends ACCEPT only on a connection that it has accepted while the host of the
peer was whitelisted. Each connection is accepted once, so a client that is turned away never enters
a message and never displays one.

## Main definitions

* `EchoSystem.WhitelistInv`: the invariant of the system for admission.

## Main results

* `EchoSystem.only_whitelisted_run`: the threads of a client run only if it has been admitted.
-/

namespace PocoEcho

open Poco ServerLoop

namespace EchoSystem

variable {S : Type}

/-- The client program whose threads take the step. -/
def Event.user : Event S → Option S
  | .server _ => none
  | .client user _ => some user
  | .entered user _ => some user

/-- The connection has not been accepted. -/
def NeverAccepted (tr : List (ServerProgram.Event S)) (client : S) : Prop :=
  ∀ e ∈ tr, ¬ ServerProgram.IsAcceptOf client e

/-- What holds of every connection with regard to admission. -/
structure WhitelistInv (system : EchoSystem S) (tr : List (Event S)) : Prop where
  /-- A connection waits to be accepted once, and has not been accepted before. -/
  nodup : system.backlog.Nodup
  waiting : ∀ client ∈ system.backlog,
    (system.connection client).phase ≠ .idle ∧ NeverAccepted (serverEvents tr) client
  /-- Nothing has happened on a connection that is not established. -/
  idle : ∀ client, (system.connection client).phase = .idle →
    NeverAccepted (serverEvents tr) client ∧ (system.connection client).upstream.bytes = [] ∧
      (system.connection client).downstream.bytes = []
  /-- A client that waits for the packet type is going to receive ACCEPT only if it is admitted. -/
  handshake : ∀ client, (system.connection client).phase = .handshake →
    (system.connection client).upstream.bytes = [] ∧
      (client ∈ system.backlog ∧ (system.connection client).downstream.bytes = [] ∨
        client ∉ system.backlog ∧
          ((system.connection client).downstream.bytes = PacketType.kick.word.bytes ∨
            (system.connection client).downstream.bytes = PacketType.accept.word.bytes ∧
              ServerProgram.AdmittedIn (serverEvents tr) client))
  /-- No connection is accepted twice. -/
  once : ∀ past client host future,
    serverEvents tr = past ++ .loop (.acceptConnection client host) :: future →
      NeverAccepted future client
  /-- The threads of a client take steps only if the client has been admitted. -/
  admitted : ∀ client, (∃ loop, (system.connection client).phase = .running loop) ∨
    (∃ e ∈ tr, e.user = some client) → ServerProgram.AdmittedIn (serverEvents tr) client

theorem whitelistInv_initial : WhitelistInv (initial S) [] where
  nodup := List.nodup_nil
  waiting := by simp [initial]
  idle client _ := ⟨by simp [NeverAccepted, serverEvents], rfl, rfl⟩
  handshake client h := by cases h
  once past client host future h := by simp [serverEvents] at h
  admitted client h := by
    rcases h with ⟨loop, h⟩ | ⟨e, he, -⟩
    · cases h
    · cases he

variable [DecidableEq S] {system system' : EchoSystem S} {tr es : List (Event S)} {client : S}

omit [DecidableEq S] in
/-- An admitted connection is not waiting. -/
theorem WhitelistInv.notMem_of_admitted (hinv : WhitelistInv system tr)
    (h : ServerProgram.AdmittedIn (serverEvents tr) client) : client ∉ system.backlog := by
  obtain ⟨before, host, after, heq, -, -⟩ := h
  exact fun hmem => (hinv.waiting client hmem).2 _ (by rw [heq]; simp) ⟨host, rfl⟩

/-! ## Steps of the server -/

section LoopSteps

variable {loop loop' : LoopState S} {events : List (PocoEcho.Event S)} {server : S}
  {input : PocoEcho.Input S Unit} {whiteList : CWhiteList}

/-- From a connection on which nothing has been sent and that is open, nothing is received. -/
theorem not_receive_of_quiet (hup : (system.connection client).upstream.bytes = [])
    (hopen : (system.connection client).clientClosed = false) {rest : List S}
    (hread : loop.readList = client :: rest)
    (hundisturbed : Undisturbed loop (input.withWorld whiteList))
    (hadm : system.LoopAdmissible Channel.Delivers loop input) (result : ReceiveResult)
    (env : HandlerEnv) : input ≠ .receive result env := by
  rintro rfl
  have hallows := hadm client (by rw [hread]; rfl)
  cases result with
  | bytes data =>
      obtain ⟨hne, -, hprefix⟩ := hallows
      rw [hup] at hprefix
      exact hne (List.prefix_nil.mp hprefix)
  | shutdown =>
      rw [hallows.2] at hopen
      cases hopen
  | negative => exact hundisturbed.1
  | throws => exact hallows

/-- Such a connection is left alone, unless the server accepts it or closes it. -/
theorem connection_afterLoop_of_quiet (hup : (system.connection client).upstream.bytes = [])
    (hopen : (system.connection client).clientClosed = false)
    (hundisturbed : Undisturbed loop (input.withWorld whiteList))
    (hadm : system.LoopAdmissible Channel.Delivers loop input)
    (hs : (serverLoop CServer.handlers server).step loop (input.withWorld whiteList) =
      some (loop', events)) (hnew : ∀ host, .acceptConnection client host ∉ events) :
    ∃ closed, (system.afterLoop loop' events).connection client =
      { system.connection client with serverClosed := closed } := by
  have hreceive : ∀ {rest result env}, loop.readList = client :: rest →
      input.withWorld whiteList ≠ .receive result env := by
    intro rest result env hread hinput
    cases input <;> cases hinput
    exact not_receive_of_quiet hup hopen hread hundisturbed hadm result env rfl
  have hsilent : ∀ e ∈ events, e.socket = some client → Silent e := by
    intro e hmem hsocket
    rcases thrown_or_progress hs with ⟨fault, outcome, hup, herr, rfl, -⟩ | hprog
    · -- the exception has left the handling of a chunk of another client
      obtain ⟨sender, rest, data, stray, hread, -, hinput, -, hlog⟩ :=
        fault_of_undisturbed hundisturbed hup herr
      rw [hlog] at hmem
      obtain rfl := Option.some.inj ((socket_of_mem_receive e hmem).1.symm.trans hsocket)
      exact absurd hinput (hreceive hread)
    · generalize hinput : input.withWorld whiteList = input' at hprog hundisturbed
      cases hprog with
      | close hhead =>
          rcases List.mem_append.mp hmem with hmem | hmem
          · obtain ⟨s, -, rfl⟩ := List.mem_map.mp hmem
            exact .inl ⟨s, rfl⟩
          · obtain rfl := List.mem_singleton.mp hmem
            exact .inr fun _ => rfl
      | select => simp at hmem
      | @admitted _ _ _ new host _ _ hconnect =>
          rw [(connect_ok hconnect).1] at hmem
          have hne : new ≠ client := by
            rintro rfl
            exact hnew host List.mem_cons_self
          have hsocket' : e.socket = some new := by
            simp only [List.map_nil, List.nil_append, List.mem_cons, List.not_mem_nil,
              or_false] at hmem
            rcases hmem with rfl | rfl <;> rfl
          exact absurd (Option.some.inj (hsocket'.symm.trans hsocket)) hne
      | @kick _ _ _ new host _ _ hconnect =>
          rw [(connect_ok hconnect).1] at hmem
          have hne : new ≠ client := by
            rintro rfl
            exact hnew host List.mem_cons_self
          have hsocket' : e.socket = some new := by
            simp only [List.map_nil, List.nil_append, List.mem_cons, List.not_mem_nil,
              or_false] at hmem
            rcases hmem with rfl | rfl | rfl <;> rfl
          exact absurd (Option.some.inj (hsocket'.symm.trans hsocket)) hne
      | shutdown _ hread =>
          obtain rfl := List.mem_singleton.mp hmem
          obtain rfl := Option.some.inj hsocket
          exact absurd hinput (hreceive hread)
      | negative => exact hundisturbed.1.elim
      | receive _ hread =>
          obtain rfl := Option.some.inj ((socket_of_mem_receive e hmem).1.symm.trans hsocket)
          exact absurd hinput (hreceive hread)
      | erase =>
          obtain rfl := List.mem_singleton.mp hmem
          exact .inr fun _ => rfl
      | missing => simp at hmem
  have hevents : ∀ e ∈ eventsOf client events, Silent e := fun e he =>
    hsilent e (List.mem_of_mem_filter he) (by simpa using (List.mem_filter.mp he).2)
  obtain ⟨closed, heq, -⟩ := foldl_observe_of_silent hevents (system.connection client)
  exact ⟨closed, heq⟩

/-- A connection that is accepted has waited for it. -/
theorem mem_backlog_of_accept (hundisturbed : Undisturbed loop (input.withWorld whiteList))
    (hadm : system.LoopAdmissible Channel.Delivers loop input)
    (hs : (serverLoop CServer.handlers server).step loop (input.withWorld whiteList) =
      some (loop', events)) {host : String} (hmem : .acceptConnection client host ∈ events) :
    client ∈ system.backlog := by
  rcases thrown_or_progress hs with ⟨fault, outcome, hup, herr, rfl, -⟩ | hprog
  · obtain ⟨sender, rest, data, stray, -, -, -, -, hlog⟩ :=
      fault_of_undisturbed hundisturbed hup herr
    rw [hlog] at hmem
    cases (socket_of_mem_receive _ hmem).2
  · generalize hinput : input.withWorld whiteList = input' at hprog hundisturbed
    cases hprog with
    | close => simp at hmem
    | select => simp at hmem
    | @admitted _ _ _ new host' _ _ hconnect =>
        rw [(connect_ok hconnect).1] at hmem
        obtain ⟨rfl, -⟩ : client = new ∧ host = host' := by simpa using hmem
        cases input <;> cases hinput
        exact hadm
    | @kick _ _ _ new host' _ _ hconnect =>
        rw [(connect_ok hconnect).1] at hmem
        obtain ⟨rfl, -⟩ : client = new ∧ host = host' := by simpa using hmem
        cases input <;> cases hinput
        exact hadm
    | shutdown => simp at hmem
    | negative => exact hundisturbed.1.elim
    | receive => cases (socket_of_mem_receive _ hmem).2
    | erase => simp at hmem
    | missing => simp at hmem

/-- The server does not make a client program take a step. -/
theorem WhitelistInv.admitted_before (hinv : WhitelistInv system tr) {program' : ServerProgram S}
    {events : List (PocoEcho.Event S)} {es : List (ServerProgram.Event S)}
    (h : (∃ loop, ((system.observe program' events).connection client).phase = .running loop) ∨
      ∃ e ∈ tr ++ es.map .server, e.user = some client) :
    ServerProgram.AdmittedIn (serverEvents tr) client := by
  refine hinv.admitted client ?_
  rcases h with ⟨loop, hphase⟩ | ⟨e, hmem, huser⟩
  · rw [phase_observe] at hphase
    exact .inl ⟨loop, hphase⟩
  · rcases List.mem_append.mp hmem with hmem | hmem
    · exact .inr ⟨e, hmem, huser⟩
    · obtain ⟨event, -, rfl⟩ := List.mem_map.mp hmem
      cases huser

/-- A step in which nothing is accepted keeps the invariant. -/
theorem WhitelistInv.of_not_accept (hinv : WhitelistInv system tr) {program' : ServerProgram S}
    {events : List (PocoEcho.Event S)} {es : List (ServerProgram.Event S)}
    (hes : ∀ client, NeverAccepted es client) (haccepted : accepted events = [])
    (hquiet : ∀ client, (system.connection client).upstream.bytes = [] →
      (system.connection client).clientClosed = false →
      ∃ closed, (system.observe program' events).connection client =
        { system.connection client with serverClosed := closed }) :
    WhitelistInv (system.observe program' events) (tr ++ es.map .server) := by
  have hbacklog : (system.observe program' events).backlog = system.backlog := by
    simp only [observe, haccepted, List.diff_nil]
  refine
    { nodup := hbacklog ▸ hinv.nodup
      waiting := fun client hmem => ?_
      idle := fun client hphase => ?_
      handshake := fun client hphase => ?_
      once := fun past client host future hsplit => ?_
      admitted := fun client h => ?_ }
  all_goals rw [serverEvents_append, serverEvents_map_server] at *
  · obtain ⟨hphase, hnever⟩ := hinv.waiting client (hbacklog ▸ hmem)
    rw [phase_observe]
    exact ⟨hphase, List.forall_mem_append.mpr ⟨hnever, hes client⟩⟩
  · rw [phase_observe] at hphase
    obtain ⟨hnever, hup, hdown⟩ := hinv.idle client hphase
    obtain ⟨closed, heq⟩ := hquiet client hup (Connection.clientClosed_of_idle hphase)
    rw [heq]
    exact ⟨List.forall_mem_append.mpr ⟨hnever, hes client⟩, hup, hdown⟩
  · rw [phase_observe] at hphase
    obtain ⟨hup, hcases⟩ := hinv.handshake client hphase
    obtain ⟨closed, heq⟩ := hquiet client hup (Connection.clientClosed_of_handshake hphase)
    rw [heq, hbacklog]
    refine ⟨hup, hcases.imp_right fun h => ⟨h.1, h.2.imp_right fun h => ?_⟩⟩
    exact ⟨h.1, h.2.append (hes client)⟩
  · rcases Trace.append_eq_append_cons hsplit with ⟨mid, hpast, rfl⟩ | ⟨mid, -, hmid⟩
    · exact List.forall_mem_append.mpr ⟨hinv.once past client host mid hpast, hes client⟩
    · exact absurd ⟨host, rfl⟩ (hes client _ (by rw [hmid]; simp))
  · exact (hinv.admitted_before h).append (hes client)

/-- A step in which a connection is accepted and answered keeps the invariant. -/
theorem WhitelistInv.of_accept (hinv : WhitelistInv system tr) {program' : ServerProgram S}
    {host : String} {rest : List (PocoEcho.Event S)} {t : PacketType}
    (hwaits : client ∈ system.backlog)
    (hrest : rest = [.sendBytes client t.word.bytes] ∨
      rest = [.sendBytes client t.word.bytes, .close client])
    (htype : t = .kick ∨ t = .accept ∧ host ∈ ServerProgram.whitelistAfter (serverEvents tr)) :
    WhitelistInv (system.observe program' (.acceptConnection client host :: rest))
      (tr ++ ((PocoEcho.Event.acceptConnection client host :: rest).map .loop).map .server) := by
  have hsocket : ∀ e ∈ PocoEcho.Event.acceptConnection client host :: rest,
      e.socket = some client := by
    rcases hrest with rfl | rfl <;> simp [PocoEcho.Event.socket]
  have hlast : NeverAccepted (rest.map ServerProgram.Event.loop) client := by
    rintro e hmem ⟨host', rfl⟩
    rcases hrest with rfl | rfl <;> simp at hmem
  have hothers : ∀ other ≠ client, NeverAccepted
      ((PocoEcho.Event.acceptConnection client host :: rest).map ServerProgram.Event.loop)
      other := by
    rintro other hne e hmem ⟨host', rfl⟩
    obtain ⟨event, hevent, heq⟩ := List.mem_map.mp hmem
    obtain rfl := ServerProgram.Event.loop.inj heq
    exact hne (Option.some.inj (hsocket _ hevent))
  have hbacklog : (system.observe program' (.acceptConnection client host :: rest)).backlog =
      system.backlog.erase client := by
    have haccepted : accepted (.acceptConnection client host :: rest) = [client] := by
      rcases hrest with rfl | rfl <;> rfl
    simp only [observe, haccepted, List.diff_cons, List.diff_nil]
  have hconnection : (system.observe program' (.acceptConnection client host :: rest)).connection
      client = (PocoEcho.Event.acceptConnection client host :: rest).foldl Connection.observe
        (system.connection client) :=
    congrArg (List.foldl Connection.observe (system.connection client)) (eventsOf_eq_self hsocket)
  have hnew := hinv.waiting client hwaits
  refine
    { nodup := hbacklog ▸ hinv.nodup.erase client
      waiting := fun other hmem => ?_
      idle := fun other hphase => ?_
      handshake := fun other hphase => ?_
      once := fun past other host' future hsplit => ?_
      admitted := fun other h => ?_ }
  all_goals rw [serverEvents_append, serverEvents_map_server] at *
  · rw [hbacklog, hinv.nodup.mem_erase_iff] at hmem
    obtain ⟨hphase, hnever⟩ := hinv.waiting other hmem.2
    rw [phase_observe]
    exact ⟨hphase, List.forall_mem_append.mpr ⟨hnever, hothers other hmem.1⟩⟩
  · rw [phase_observe] at hphase
    have hne : other ≠ client := by
      rintro rfl
      exact hnew.1 hphase
    rw [connection_observe_of_ne hsocket hne]
    obtain ⟨hnever, hstreams⟩ := hinv.idle other hphase
    exact ⟨List.forall_mem_append.mpr ⟨hnever, hothers other hne⟩, hstreams⟩
  · rw [phase_observe] at hphase
    obtain ⟨hup, hcases⟩ := hinv.handshake other hphase
    by_cases hne : other = client
    · -- the packet is all that is sent on the connection
      subst hne
      obtain ⟨-, hdown⟩ := hcases.resolve_right fun h => h.1 hwaits
      have hgone : other ∉ system.backlog.erase other := hinv.nodup.not_mem_erase
      have hstreams : ((system.observe program' (.acceptConnection other host :: rest)).connection
            other).upstream = (system.connection other).upstream ∧
          ((system.observe program' (.acceptConnection other host :: rest)).connection
            other).downstream = (system.connection other).downstream.send t.word.bytes := by
        rw [hconnection]
        rcases hrest with rfl | rfl <;> exact ⟨rfl, rfl⟩
      rw [hbacklog, hstreams.1, hstreams.2, Channel.bytes_send, hdown, List.nil_append]
      refine ⟨hup, .inr ⟨hgone, ?_⟩⟩
      rcases htype with rfl | ⟨rfl, hlisted⟩
      · exact .inl rfl
      · exact .inr ⟨rfl, serverEvents tr, host, _, rfl, hlast, hlisted⟩
    · rw [connection_observe_of_ne hsocket hne, hbacklog, List.mem_erase_of_ne hne]
      refine ⟨hup, hcases.imp_right fun h => ⟨h.1, h.2.imp_right fun h => ⟨h.1, ?_⟩⟩⟩
      exact h.2.append (hothers other hne)
  · rcases Trace.append_eq_append_cons hsplit with ⟨mid, hpast, rfl⟩ | ⟨mid, -, hmid⟩
    · have hne : other ≠ client := by
        rintro rfl
        exact hnew.2 _ (by rw [hpast]; simp) ⟨host', rfl⟩
      exact List.forall_mem_append.mpr ⟨hinv.once past other host' mid hpast, hothers other hne⟩
    · -- the acceptance is the first event of the step
      rcases mid with _ | ⟨x, mid⟩
      · rw [List.map_cons, List.nil_append] at hmid
        obtain ⟨heq, rfl⟩ := List.cons.inj hmid
        obtain ⟨rfl, -⟩ := PocoEcho.Event.acceptConnection.inj (ServerProgram.Event.loop.inj heq)
        exact hlast
      · rw [List.map_cons, List.cons_append] at hmid
        obtain ⟨-, hmid⟩ := List.cons.inj hmid
        by_cases hne : other = client
        · exact absurd ⟨host', rfl⟩ (hlast _ (by rw [hmid, hne]; simp))
        · exact absurd ⟨host', rfl⟩ (hothers other hne _ (by rw [List.map_cons, hmid]; simp))
  · have hbefore := hinv.admitted_before h
    have hne : other ≠ client := by
      rintro rfl
      exact hinv.notMem_of_admitted hbefore hwaits
    exact hbefore.append (hothers other hne)

end LoopSteps

/-- Every step of the server program keeps the invariant. -/
theorem WhitelistInv.of_server (hinv : WhitelistInv system tr)
    (hreach : Reaches Channel.Delivers system tr) {input : ServerProgram.Input S}
    (hadm : Admissible Channel.Delivers system (.server input)) {program' : ServerProgram S}
    {es : List (ServerProgram.Event S)}
    (hs : (serverProgram S).step system.program input = some (program', es)) :
    WhitelistInv (system.observe program' (ServerProgram.loopEvents es))
      (tr ++ es.map .server) := by
  rcases silentStep_or_loopTurn (Reaches.program hreach) hadm hs with ⟨past, hsilent, -⟩ | ⟨⟨turn⟩⟩
  · refine hinv.of_not_accept ?_ (by rw [hsilent.loopEvents_eq]; rfl) fun client _ _ => ?_
    · rintro client e hmem ⟨host, rfl⟩
      exact ServerProgram.loop_notMem hsilent.loopEvents_eq _ hmem
    · rw [hsilent.loopEvents_eq, observe_nil]
      exact ⟨_, rfl⟩
  · obtain ⟨server, loop, loop', input, events, past, rfl, hnetwork, hloop, hlists, hundisturbed,
      hmeets, hstep, rfl, rfl⟩ := turn
    rw [ServerProgram.loopEvents_map_loop]
    have hprogram := ServerProgram.programInv_of_reachable hreach.program
    have hlist := hprogram.whiteList_eq (by rw [hprogram.stage_eq (by simp [hloop])]; decide)
    cases admissionStep_of_step hlists hundisturbed hstep with
    | admitted hfresh hhost hclients =>
        exact hinv.of_accept (t := .accept) (mem_backlog_of_accept hundisturbed hmeets hstep
          List.mem_cons_self)
          (.inl rfl) (.inr ⟨rfl, hlist ▸ hhost⟩)
    | kicked hfresh hhost hclients =>
        exact hinv.of_accept (t := .kick) (mem_backlog_of_accept hundisturbed hmeets hstep
          List.mem_cons_self)
          (.inr rfl) (.inl rfl)
    | other hclients hes =>
        have hno : ∀ client host, .acceptConnection client host ∉ events := by
          intro client host hmem
          cases (hes _ hmem).1
        refine hinv.of_not_accept ?_ (accepted_eq_nil fun e he => (hes e he).1)
          fun client hup hopen =>
            connection_afterLoop_of_quiet hup hopen hundisturbed hmeets hstep (hno client)
        rintro client e hmem ⟨host, rfl⟩
        exact hno client host (by simpa using hmem)

/-! ## Steps of the clients -/

/-- A client whose threads run, or whose program has ended, keeps the invariant if it has been
admitted. -/
theorem WhitelistInv.of_setConnection (hinv : WhitelistInv system tr) {connection : Connection}
    (hphase : (system.connection client).phase ≠ .idle)
    (hphase' : connection.phase ≠ .idle ∧ connection.phase ≠ .handshake)
    (hserver : serverEvents es = []) (huser : ∀ e ∈ es, e.user = some client)
    (hadmitted : (∃ loop, connection.phase = .running loop) ∨ es ≠ [] →
      ServerProgram.AdmittedIn (serverEvents tr) client) :
    WhitelistInv (system.setConnection client connection) (tr ++ es) := by
  have hother : ∀ {other}, other ≠ client →
      (system.setConnection client connection).connection other = system.connection other :=
    fun hne => connection_setConnection_of_ne system hne connection
  refine
    { nodup := hinv.nodup
      waiting := fun other hmem => ?_
      idle := fun other hidle => ?_
      handshake := fun other hwaits => ?_
      once := ?_
      admitted := fun other h => ?_ }
  all_goals rw [serverEvents_append, hserver, List.append_nil] at *
  · obtain ⟨hne, hnever⟩ := hinv.waiting other hmem
    refine ⟨?_, hnever⟩
    by_cases heq : other = client
    · rw [heq, connection_setConnection_self]
      exact hphase'.1
    · rwa [hother heq]
  · by_cases heq : other = client
    · rw [heq, connection_setConnection_self] at hidle
      exact absurd hidle hphase'.1
    · rw [hother heq] at hidle ⊢
      exact hinv.idle other hidle
  · by_cases heq : other = client
    · rw [heq, connection_setConnection_self] at hwaits
      exact absurd hwaits hphase'.2
    · rw [hother heq] at hwaits ⊢
      exact hinv.handshake other hwaits
  · exact hinv.once
  · by_cases heq : other = client
    · subst heq
      rw [connection_setConnection_self] at h
      rcases h with hrunning | ⟨e, hmem, he⟩
      · exact hadmitted (.inl hrunning)
      · rcases List.mem_append.mp hmem with hmem | hmem
        · exact hinv.admitted other (.inr ⟨e, hmem, he⟩)
        · exact hadmitted (.inr (List.ne_nil_of_mem hmem))
    · rw [hother heq] at h
      refine hinv.admitted other (h.imp_right fun h => ?_)
      obtain ⟨e, hmem, he⟩ := h
      refine ⟨e, ?_, he⟩
      refine (List.mem_append.mp hmem).resolve_right fun hmem => heq ?_
      exact Option.some.inj (he.symm.trans (huser e hmem))

/-- A client that connects waits to be accepted. -/
theorem WhitelistInv.of_connectNB (hinv : WhitelistInv system tr)
    (hs : (echoSystem S).step system (.connectNB client) = some (system', es)) :
    WhitelistInv system' (tr ++ es) := by
  cases ClientStep.of_step hs (by simp) with
  | connectNB _ hphase =>
    rw [List.append_nil]
    obtain ⟨hnever, hup, hdown⟩ := hinv.idle client hphase
    have hnew : client ∉ system.backlog := fun hmem => (hinv.waiting client hmem).1 hphase
    refine
      { nodup := ?_
        waiting := fun other hmem => ?_
        idle := fun other hidle => ?_
        handshake := fun other hwaits => ?_
        once := hinv.once
        admitted := fun other h => ?_ }
    · exact List.nodup_append.mpr ⟨hinv.nodup, List.nodup_singleton _, by
        rintro a ha b hb rfl
        exact hnew (List.mem_singleton.mp hb ▸ ha)⟩
    · by_cases heq : other = client
      · subst heq
        rw [connection_setConnection_self]
        exact ⟨by simp, hnever⟩
      · rw [connection_setConnection_of_ne system heq]
        exact hinv.waiting other (by simpa [heq] using hmem)
    · by_cases heq : other = client
      · rw [heq, connection_setConnection_self] at hidle
        cases hidle
      · rw [connection_setConnection_of_ne system heq] at hidle ⊢
        exact hinv.idle other hidle
    · by_cases heq : other = client
      · subst heq
        rw [connection_setConnection_self]
        exact ⟨hup, .inl ⟨by simp, hdown⟩⟩
      · rw [connection_setConnection_of_ne system heq] at hwaits ⊢
        simpa [heq] using hinv.handshake other hwaits
    · by_cases heq : other = client
      · subst heq
        rw [connection_setConnection_self] at h
        rcases h with ⟨loop, hrunning⟩ | h
        · cases hrunning
        · exact hinv.admitted other (.inr h)
      · rw [connection_setConnection_of_ne system heq] at h
        exact hinv.admitted other h

/-- A client starts its threads only if it has received ACCEPT. -/
theorem WhitelistInv.of_tryConnect (hinv : WhitelistInv system tr) {attempt : ConnectAttempt}
    {packetType : Word}
    (hadm : Admissible Channel.Delivers system (.tryConnect client attempt packetType))
    (hs : (echoSystem S).step system (.tryConnect client attempt packetType) =
      some (system', es)) : WhitelistInv system' (tr ++ es) := by
  cases ClientStep.of_step hs (by simp) with
  | tryConnect hphase =>
    obtain ⟨-, -, hallows, hread⟩ := hadm
    by_cases haccepted : attempt.handshake.Accepted
    · rw [tryConnect_of_accepted haccepted]
      refine hinv.of_setConnection (by simp [hphase]) (by simp) rfl (by simp) fun _ => ?_
      rw [haccepted.2.2] at hallows
      obtain ⟨-, -, hprefix⟩ := hallows
      -- the client has received ACCEPT, so this is what has been sent
      obtain ⟨-, ⟨-, hdown⟩ | ⟨-, hdown | ⟨-, hadmitted⟩⟩⟩ := hinv.handshake client hphase
      · rw [hdown, List.prefix_nil] at hprefix
        exact absurd hprefix (by decide)
      · rw [hdown] at hprefix
        exact absurd hprefix (by decide)
      · exact hadmitted
    · rw [tryConnect_of_not_accepted haccepted hread]
      exact hinv.of_setConnection (by simp [hphase]) (by simp) rfl (by simp) (by simp)

/-- The threads of a client that has been admitted. -/
theorem WhitelistInv.of_client (hinv : WhitelistInv system tr) {input : ClientInput}
    (hs : (echoSystem S).step system (.client client input) = some (system', es)) :
    WhitelistInv system' (tr ++ es) := by
  cases ClientStep.of_step hs (by simp) with
  | @client _ loop _ _ _ hphase =>
    refine hinv.of_setConnection (by simp [hphase]) (by simp) (serverEvents_map_client _ _) ?_
      fun _ => hinv.admitted client (.inl ⟨loop, hphase⟩)
    intro e he
    obtain ⟨event, -, rfl⟩ := List.mem_map.mp he
    rfl

/-- The console of a client that has been admitted. -/
theorem WhitelistInv.of_enter (hinv : WhitelistInv system tr) {szMessage : CString}
    {behind : List UInt8}
    (hs : (echoSystem S).step system (.enter client szMessage behind) = some (system', es)) :
    WhitelistInv system' (tr ++ es) := by
  cases ClientStep.of_step hs (by simp) with
  | @enter _ loop hphase =>
    refine hinv.of_setConnection (by simp [hphase]) ?_ rfl (by simp [Event.user])
      fun _ => hinv.admitted client (.inl ⟨loop, hphase⟩)
    rcases phase_enter (system.connection client) loop szMessage behind with heq | heq
    · rw [heq, hphase]
      simp
    · rw [heq]
      simp

/-- The invariant holds in every run. -/
theorem Reaches.whitelistInv (h : Reaches Channel.Delivers system tr) :
    WhitelistInv system tr := by
  refine h.invariant (P := WhitelistInv) whitelistInv_initial ?_
  intro system system' tr es input hreach hinv hadm hs
  cases input with
  | server input =>
      obtain ⟨⟨program, events⟩, hstep, hp⟩ := Option.map_eq_some_iff.mp hs
      obtain ⟨rfl, rfl⟩ := Prod.mk.inj hp
      exact hinv.of_server hreach hadm hstep
  | connectNB client => exact hinv.of_connectNB hs
  | tryConnect client attempt packetType => exact hinv.of_tryConnect hadm hs
  | client client input => exact hinv.of_client hs
  | enter client szMessage behind => exact hinv.of_enter hs

/-- In every run in which no call on a socket throws, no handshake is misread, and a message is
entered and sent in one step while its client has its socket (`Admissible`), however the streams
divide what is sent. The threads of a client run, and a message is entered on its console or
displayed by it, only when the server has accepted its connection while the host of the peer was
whitelisted. When a connection has been accepted while the host was not, the threads of the client
never take a step. -/
theorem only_whitelisted_run (h : Reaches Channel.Delivers system tr) :
    (∀ client loop, (system.connection client).phase = .running loop →
      ServerProgram.AdmittedIn (serverEvents tr) client) ∧
    (∀ e ∈ tr, ∀ client, e.user = some client →
      ServerProgram.AdmittedIn (serverEvents tr) client) ∧
    (∀ past client host future,
      serverEvents tr = past ++ .loop (.acceptConnection client host) :: future →
      host ∉ ServerProgram.whitelistAfter past →
        (∀ loop, (system.connection client).phase ≠ .running loop) ∧
          ∀ e ∈ tr, e.user ≠ some client) := by
  have hinv := h.whitelistInv
  refine ⟨fun client loop hphase => hinv.admitted client (.inl ⟨loop, hphase⟩),
    fun e he client huser => hinv.admitted client (.inr ⟨e, he, huser⟩), ?_⟩
  intro past client host future hsplit hhost
  have hrefused : ¬ ServerProgram.AdmittedIn (serverEvents tr) client := by
    rintro ⟨before, host', after, heq, hafter, hlisted⟩
    -- there is one acceptance of this connection only
    rcases Trace.append_eq_append_cons (heq.symm.trans hsplit) with ⟨mid, -, rfl⟩ | ⟨mid, rfl, hmid⟩
    · exact hinv.once past client host _ hsplit _ (by simp) ⟨host', rfl⟩
    · rcases mid with _ | ⟨x, mid⟩
      · obtain ⟨hsame, -⟩ := List.cons.inj hmid
        obtain ⟨-, rfl⟩ :=
          PocoEcho.Event.acceptConnection.inj (ServerProgram.Event.loop.inj hsame)
        exact hhost (by rwa [List.append_nil])
      · obtain ⟨-, rfl⟩ := List.cons.inj hmid
        exact hafter _ (by simp) ⟨host, rfl⟩
  exact ⟨fun loop hphase => hrefused (hinv.admitted client (.inl ⟨loop, hphase⟩)),
    fun e he huser => hrefused (hinv.admitted client (.inr ⟨e, he, huser⟩))⟩

set_option maxRecDepth 4000 in
theorem only_whitelisted_run_of_letter :
    ∃ system tr, (echoSystem ℕ).run (initial ℕ) letterInputs = some (system, tr) ∧
      displayedBy 1 tr = [letter] ∧
      ServerProgram.AdmittedIn (serverEvents tr) 1 := by
  have hmap : ((echoSystem ℕ).run (initial ℕ) letterInputs).map (fun p =>
      (displayedBy 1 p.2, (p.1.connection 1).phase)) =
      some ([letter], .running ⟨PacketType.message.word, .poll, true, .running⟩) := by
    decide
  obtain ⟨⟨system, tr⟩, hrun, h⟩ := Option.map_eq_some_iff.mp hmap
  obtain ⟨hdisplayed, hphase⟩ := Prod.mk.inj h
  have hinit : Reaches Channel.Delivers (initial ℕ) [] := .init
  have hreach := hinit.run letterInputs (by decide) hrun
  exact ⟨system, tr, hrun, hdisplayed, (only_whitelisted_run hreach).1 1 _ hphase⟩

end EchoSystem

end PocoEcho

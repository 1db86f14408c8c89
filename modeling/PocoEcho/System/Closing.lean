import PocoEcho.System.CatchUp

/-!
# The end of the system

When the update thread of the server leaves its loop, it closes the connections of all its clients.
What it has answered by then can still be displayed, and what it has not received never is. As long
as the server runs, the system can also come to its end without losing a message.

## Main results

* `EchoSystem.Reaches.serverClosed`: which connections the server has closed;
* `EchoSystem.displayed_after_exit`: what is displayed when the server has left its loop;
* `EchoSystem.shuts_down`: the way to the end on which nothing is lost.
-/

namespace PocoEcho

open Poco ServerLoop

namespace EchoSystem

variable {S : Type}

/-! ## What the server has closed -/

/-- What the server has closed stays closed, and it closes what it says. -/
theorem serverClosed_foldl_observe {events : List (PocoEcho.Event S)} {connection : Connection}
    (h : connection.serverClosed = true ∨ ∃ client, .close client ∈ events) :
    (events.foldl Connection.observe connection).serverClosed = true := by
  induction events generalizing connection with
  | nil => exact h.resolve_right (by simp)
  | cons e events ih =>
      refine ih ?_
      rcases h with hclosed | ⟨client, hmem⟩
      · refine .inl ?_
        unfold Connection.observe
        split
        next => exact hclosed
        next => exact hclosed
        next => exact hclosed
        next => rfl
        next => exact hclosed
      · rcases List.mem_cons.mp hmem with rfl | hmem
        · exact .inl rfl
        · exact .inr ⟨client, hmem⟩

theorem serverClosed_foldl_observeClient (connection : Connection)
    (events : List (ClientEvent ConsoleEvent)) :
    (events.foldl Connection.observeClient connection).serverClosed = connection.serverClosed := by
  induction events generalizing connection with
  | nil => rfl
  | cons e events ih =>
      rw [List.foldl_cons, ih]
      unfold Connection.observeClient
      split <;> rfl

theorem serverClosed_enter (connection : Connection) (loop : ClientState) (szMessage : CString)
    (behind : List UInt8) :
    (enter connection loop szMessage behind).serverClosed = connection.serverClosed := by
  unfold enter
  split
  next => split <;> rfl
  next => rfl

variable [DecidableEq S] {system system' : EchoSystem S} {queue : S → List CString}
  {tr es : List (Event S)} {client server : S} {delivery : Delivery}

/-- A connection stays closed. -/
theorem serverClosed_of_step {input : Input S}
    (hs : (echoSystem S).step system input = some (system', es))
    (h : (system.connection client).serverClosed = true) :
    (system'.connection client).serverClosed = true := by
  have hset : ∀ {user : S} {connection : Connection},
      connection.serverClosed = (system.connection user).serverClosed →
        ((system.setConnection user connection).connection client).serverClosed = true := by
    intro user connection hsame
    by_cases hne : client = user
    · subst hne
      rw [connection_setConnection_self, hsame, h]
    · rw [connection_setConnection_of_ne system hne, h]
  rcases clientStep_of_step hs with ⟨i, rfl⟩ | hclient
  · obtain ⟨⟨program, events⟩, -, hp⟩ := Option.map_eq_some_iff.mp hs
    obtain ⟨rfl, -⟩ := Prod.mk.inj hp
    exact serverClosed_foldl_observe (.inl h)
  cases hclient with
  | @connectNB user => exact @hset user { system.connection user with phase := .handshake } rfl
  | tryConnect => exact hset (serverClosed_foldl_observeClient _ [_])
  | @client _ _ _ _ events => exact hset (serverClosed_foldl_observeClient _ events)
  | enter _ szMessage behind => exact hset (serverClosed_enter _ _ szMessage behind)

/-- A step of the loop leaves it only to close everything. -/
theorem serverClosed_of_progress {loop loop' : LoopState S} {events : List (PocoEcho.Event S)}
    {input : PocoEcho.Input S CWhiteList}
    (h : Progress CServer.handlers server loop input loop' events)
    (hexited : loop'.status = .exited) (hmem : client ∈ loop'.clients) :
    ((system.afterLoop loop' events).connection client).serverClosed = true := by
  have hrun := h.running
  cases h with
  | close =>
      refine serverClosed_foldl_observe (.inr ⟨client, ?_⟩)
      exact List.mem_filter.mpr
        ⟨List.mem_append_left _ (List.mem_map_of_mem hmem), by simp [Event.socket]⟩
  | select => exact absurd (hrun.symm.trans hexited) (by simp)
  | admitted => exact absurd (hrun.symm.trans hexited) (by simp)
  | kick => exact absurd (hrun.symm.trans hexited) (by simp)
  | shutdown => exact absurd (hrun.symm.trans hexited) (by simp)
  | negative _ _ _ _ hdata =>
      rw [state_handleData hdata] at hexited
      exact absurd (hrun.symm.trans hexited) (by simp)
  | receive _ _ _ _ _ hdata =>
      rw [state_handleData hdata] at hexited
      exact absurd (hrun.symm.trans hexited) (by simp)
  | erase => exact absurd (hrun.symm.trans hexited) (by simp)
  | missing => exact absurd (hrun.symm.trans hexited) (by simp)

/-- When the update thread of the server has left its loop, the connections of all its clients are
closed. -/
theorem Reaches.serverClosed (h : Reaches delivery system tr) (hexited : system.Exited) :
    ∀ client ∈ system.clients, (system.connection client).serverClosed = true := by
  have hinv : ∀ loop ∈ system.program.loop, loop.status = .exited →
      ∀ client ∈ loop.clients, (system.connection client).serverClosed = true := by
    refine h.invariant (P := fun system _ => ∀ loop ∈ system.program.loop, loop.status = .exited →
      ∀ client ∈ loop.clients, (system.connection client).serverClosed = true)
      (by simp [initial, ServerProgram.initial]) ?_
    intro system system' tr es input hreach ih hadm hs loop hloop hexited client hmem
    -- where the loop is the same, nothing opens a connection again
    have hkept : system'.program.loop = system.program.loop →
        (system'.connection client).serverClosed = true := fun hsame =>
      serverClosed_of_step hs (ih loop (hsame ▸ hloop) hexited client hmem)
    rcases serverEvents_of_step hs with ⟨i, rfl, -⟩ | ⟨-, hprogram, -⟩
    · obtain ⟨⟨program', events⟩, hstep, hp⟩ := Option.map_eq_some_iff.mp hs
      obtain ⟨rfl, -⟩ := Prod.mk.inj hp
      rcases silentStep_or_loopTurn (Reaches.program hreach) hadm hstep with
        ⟨past, hsilent, -⟩ | ⟨⟨turn⟩⟩
      · rcases hsilent.loop_cases with ⟨hsame, -⟩ | ⟨-, hnone | ⟨-, server, packetType, -, hstart⟩⟩
        · exact hkept hsame
        · simp [observe, hnone] at hloop
        · -- a loop that starts runs
          obtain rfl := Option.some.inj (hstart.symm.trans hloop)
          cases hexited
      · rw [turn.observe_eq] at hloop ⊢
        obtain rfl := Option.some.inj hloop
        rcases thrown_or_progress turn.step_eq with ⟨fault, -, -, -, -, hthrown⟩ | hprog
        · -- a loop that an exception has left is not at its end
          rw [hthrown] at hexited
          cases hexited
        · exact serverClosed_of_progress hprog hexited hmem
    · exact hkept (congrArg _ hprogram)
  obtain ⟨loop, hloop, hstatus⟩ := hexited
  intro client hmem
  rw [Option.mem_def] at hloop
  rw [clients, hloop] at hmem
  exact hinv loop hloop hstatus client hmem

/-! ## After the server has left its loop -/

omit [DecidableEq S] in
/-- As many frames are on their way from a client as messages of its user. -/
theorem Situation.length_up {up down : List EchoedMessage} (h : Situation system client up down) :
    up.length = (system.connection client).upstream.segments.length := by
  cases h with
  | idle _ hup => rw [hup]; rfl
  | waiting _ hup => rw [hup]; rfl
  | admitted _ hup => rw [hup]; rfl
  | kicked _ hup => rw [hup]; rfl
  | running _ hup => exact hup.length_eq
  | ended _ hup => rw [hup]; rfl

/-- The messages of a user that the server has received: those that have been entered, without the
last ones, which are on their way. -/
def receivedFrom (system : EchoSystem S) (client : S) (tr : List (Event S)) : List CString :=
  (enteredBy client tr).take
    ((enteredBy client tr).length - (system.connection client).upstream.segments.length)

/-- What the server has received is what has been displayed, and what is on its way back. -/
theorem Reaches.exists_down (h : Reaches Channel.DeliversSegment system tr) (client : S) :
    ∃ down, displayedBy client tr ++ down = system.receivedFrom client tr ∧
      ∀ loop, (system.connection client).phase = .running loop →
        (system.connection client).downstream.bytes = [] → down = [] := by
  obtain ⟨queue, hinv, haccount⟩ := Reaches.exists_inv h
  obtain ⟨up, down, hsituation, hqueue⟩ := hinv.situation client
  refine ⟨down.map EchoedMessage.szMessage, ?_, ?_⟩
  · rw [receivedFrom, haccount, hqueue, ← hsituation.length_up, List.map_append,
      ← List.append_assoc, List.length_append, List.length_map, Nat.add_sub_cancel, List.take_left']
    rfl
  · intro loop hphase hbytes
    obtain ⟨-, hdown, -, -⟩ := hsituation.of_running hphase
    rw [(hdown.down_eq_nil hbytes).1, List.map_nil]

/-- When the server has left its loop, a step of its program leaves the connections alone. -/
theorem Reaches.connection_of_exited (hreach : Reaches delivery system tr)
    (hexited : system.Exited) {input : ServerProgram.Input S}
    (hadm : Admissible delivery system (.server input))
    (hs : (echoSystem S).step system (.server input) = some (system', es)) :
    system'.Exited ∧ system'.connection = system.connection := by
  obtain ⟨loop, hloop, hstatus⟩ := hexited
  obtain ⟨⟨program', events⟩, hstep, hp⟩ := Option.map_eq_some_iff.mp hs
  obtain ⟨rfl, -⟩ := Prod.mk.inj hp
  rcases silentStep_or_loopTurn (Reaches.program hreach) hadm hstep with
    ⟨past, hsilent, -⟩ | ⟨⟨turn⟩⟩
  · rw [hsilent.loopEvents_eq, observe_nil]
    refine ⟨?_, rfl⟩
    rcases hsilent.loop_cases with ⟨hsame, -⟩ | ⟨hnone, -⟩
    · exact ⟨loop, by rw [hsame]; exact hloop, hstatus⟩
    · rw [hnone] at hloop
      cases hloop
  · -- the loop takes no step any more
    obtain rfl := Option.some.inj (turn.loop_eq.symm.trans hloop)
    obtain ⟨outcome, hup, -⟩ := Option.map_eq_some_iff.mp turn.step_eq
    simp [onUpdate, hstatus] at hup

/-- When the server has left its loop, what is on its way to it stays there. -/
theorem Reaches.upstream_of_exited (hreach : Reaches Channel.DeliversSegment system tr)
    (hexited : system.Exited) {input : Input S}
    (hadm : Admissible Channel.DeliversSegment system input)
    (hs : (echoSystem S).step system input = some (system', es)) (client : S) :
    system'.Exited ∧ (system'.connection client).upstream.segments.length =
      (system.connection client).upstream.segments.length + (enteredBy client es).length := by
  by_cases henter : ∃ user szMessage behind, input = .enter user szMessage behind
  · obtain ⟨user, szMessage, behind, rfl⟩ := henter
    cases ClientStep.of_step hs (by simp) with
    | @enter _ loop hphase =>
      refine ⟨hexited, ?_⟩
      by_cases hne : client = user
      · subst hne
        obtain ⟨hle, hbehind, hopen⟩ := hadm
        have hlive : loop.socketLive = true := by
          rw [Connection.clientClosed_of_running hphase] at hopen
          simpa using hopen
        obtain ⟨segment, -, heq⟩ :=
          enter_eq (system.connection client) hlive ⟨szMessage, hle⟩ hbehind
        rw [connection_setConnection_self, heq]
        simp [enteredBy, Event.enteredBy]
      · rw [connection_setConnection_of_ne system hne]
        simp [enteredBy, Event.enteredBy, Ne.symm hne]
  · have hno := enteredBy_eq_nil
      (fun user szMessage behind heq => henter ⟨user, szMessage, behind, heq⟩) hs client
    rw [hno, List.length_nil, Nat.add_zero]
    rcases serverEvents_of_step hs with ⟨i, rfl, -⟩ | ⟨hother, hprogram, -⟩
    · obtain ⟨hexited', hsame⟩ := Reaches.connection_of_exited hreach hexited hadm hs
      exact ⟨hexited', by rw [hsame]⟩
    · refine ⟨by rwa [Exited, hprogram], ?_⟩
      rw [upstream_of_step hother (fun szMessage behind heq => henter ⟨_, _, _, heq⟩) hs]

/-- What the server had received when it left its loop, it has received ever after. -/
theorem Reaches.receivedFrom_of_exited (h : Reaches Channel.DeliversSegment system tr)
    (hexited : system.Exited) (client : S) {inputs : List (Input S)}
    (hadm : (echoSystem S).Admissible (Admissible Channel.DeliversSegment) system inputs)
    (hrun : (echoSystem S).run system inputs = some (system', es)) :
    Reaches Channel.DeliversSegment system' (tr ++ es) ∧
      system'.receivedFrom client (tr ++ es) = system.receivedFrom client tr := by
  have hstart : (echoSystem S).Reachable (Admissible Channel.DeliversSegment) system system [] :=
    .init
  have hinv := (hstart.run inputs hadm hrun).invariant (P := fun s tr' =>
    Reaches Channel.DeliversSegment s (tr ++ tr') ∧ s.Exited ∧
      s.receivedFrom client (tr ++ tr') = system.receivedFrom client tr)
    ⟨by rwa [List.append_nil], hexited, by rw [List.append_nil]⟩ ?_
  · exact ⟨hinv.1, hinv.2.2⟩
  rintro s s' tr' es' input - ⟨hreach, hexited, hsame⟩ hadm hs
  obtain ⟨hexited', hlength⟩ := Reaches.upstream_of_exited hreach hexited hadm hs client
  rw [← List.append_assoc]
  refine ⟨hreach.step hadm hs, hexited', hsame ▸ ?_⟩
  -- what is entered now is on its way for good
  rw [receivedFrom, receivedFrom, hlength, enteredBy_append, List.length_append,
    Nat.add_sub_add_right, List.take_append_of_le_length (Nat.sub_le _ _)]

/-! ## A client comes to its end -/

/-- A client whose connection the server has closed leaves its loop when it has displayed what is on
its way to it. -/
theorem Inv.leaveTurn (hinv : Inv system queue) (hclient : system.ClientRuns client)
    (hclosed : (system.connection client).serverClosed = true) :
    ∃ input connection loop es, Admissible Channel.DeliversSegment system (.client client input) ∧
      (echoSystem S).step system (.client client input) =
        some (system.setConnection client connection, es) ∧
      connection.upstream = (system.connection client).upstream ∧ connection.phase = .running loop ∧
      (loop.status = .running ∧ clientRank connection < clientRank (system.connection client) ∨
        loop.socketLive = false ∧ connection.downstream.bytes = []) := by
  by_cases hempty : (system.connection client).downstream.bytes = []
  · obtain ⟨loop, hphase, hrun⟩ := hclient
    obtain ⟨up, down, hsituation, -⟩ := hinv.situation client
    obtain ⟨-, hdown, -, -⟩ := hsituation.of_running hphase
    have hlive := hdown.socketLive_iff.mpr hrun
    cases hpoint : loop.point with
    | poll =>
        have hadm : ClientAdmissible Channel.DeliversSegment (system.connection client)
            (.poll true) := fun _ => .inr hclosed
        obtain ⟨loop', events, hs⟩ :=
          exists_clientStep loop (.poll true) (by simp [ClientLoop.onUpdate, hrun, hpoint])
        refine ⟨.poll true, _, loop', _, hadm, step_client hphase hs, ?_⟩
        cases ClientLoop.progress_of_step CClient.careful_handlers hlive hadm.noThrow hs with
        | poll =>
            refine ⟨rfl, rfl, .inl ⟨hrun, ?_⟩⟩
            simp [clientRank, hphase, hpoint, pointRank, Connection.observeClient]
    | packetType =>
        have hadm : ClientAdmissible Channel.DeliversSegment (system.connection client)
            (.receiveType .shutdown) := ⟨hempty, hclosed⟩
        obtain ⟨loop', events, hs⟩ := exists_clientStep loop (.receiveType .shutdown)
          (by simp [ClientLoop.onUpdate, hrun, hpoint])
        refine ⟨.receiveType .shutdown, _, loop', _, hadm, step_client hphase hs, ?_⟩
        cases ClientLoop.progress_of_step CClient.careful_handlers hlive hadm.noThrow hs with
        | typeShutdown => exact ⟨rfl, rfl, .inr ⟨rfl, hempty⟩⟩
        | type _ hresult => simp at hresult
    | payload => exact absurd hpoint (hdown.down_eq_nil hempty).2
  · -- an echo is still on its way: it comes first
    obtain ⟨input, connection, es, hadm, hs, ⟨loop, hphase, hrun⟩, hup, hlt⟩ :=
      hinv.clientTurn hclient hempty
    exact ⟨input, connection, loop, es, hadm, hs, hup, hphase, .inl ⟨hrun, hlt⟩⟩

/-- What a client still has to do before it has left its loop. -/
def leaveRank (connection : Connection) : ℕ :=
  if connection.clientClosed then 0 else clientRank connection + 1

omit [DecidableEq S] in
/-- A client that runs is one of the server's clients. -/
theorem Inv.mem_clients (hinv : Inv system queue) (hclient : system.ClientRuns client) :
    client ∈ system.clients := by
  obtain ⟨loop, hphase, hrun⟩ := hclient
  obtain ⟨up, down, hsituation, -⟩ := hinv.situation client
  obtain ⟨-, hdown, -, hmem⟩ := hsituation.of_running hphase
  exact hmem (hdown.socketLive_iff.mpr hrun)

/-- When the server has left its loop, a client that runs can display what is on its way to it and
leave its loop, while no other program takes a step. -/
theorem Reaches.exists_run_leave (h : Reaches Channel.DeliversSegment system tr)
    (hexited : system.Exited) (hclient : system.ClientRuns client) :
    ∃ connection es, Machine.Matched (echoSystem S) (Admissible Channel.DeliversSegment) system
        (system.setConnection client connection) es ∧
      connection.clientClosed = true ∧
      displayedBy client (tr ++ es) = system.receivedFrom client tr ∧
      ∀ user, enteredBy user es = [] := by
  -- either the client runs, or it has left its loop with nothing on its way to it
  let P (s : EchoSystem S) (tr' : List (Event S)) : Prop :=
    Reaches Channel.DeliversSegment s tr' ∧
      (∃ connection loop, s = system.setConnection client connection ∧
        connection.upstream = (system.connection client).upstream ∧
        connection.phase = .running loop ∧
        (loop.status = .running ∨ loop.socketLive = false ∧ connection.downstream.bytes = [])) ∧
      ∀ user, enteredBy user tr' = enteredBy user tr
  have hstep : ∀ {s : EchoSystem S} {tr' : List (Event S)}, P s tr' →
      ¬ (s.connection client).clientClosed = true → ∃ input s' es',
        Admissible Channel.DeliversSegment s input ∧
        (echoSystem S).step s input = some (s', es') ∧ P s' (tr' ++ es') ∧
        leaveRank (s'.connection client) < leaveRank (s.connection client) := by
    rintro s tr' ⟨hreach, ⟨connection, loop, hset, hup, hphase, hcases⟩, hentered⟩ hopen
    have hself : s.connection client = connection := by
      rw [hset, connection_setConnection_self]
    -- a client that has left its loop has closed its end
    have hrun : loop.status = .running := hcases.resolve_right fun hleft => hopen (by
      rw [hself, Connection.clientClosed_of_running hphase, hleft.1]
      rfl)
    have hclient : s.ClientRuns client := ⟨loop, by rw [hself, hphase], hrun⟩
    obtain ⟨queue, hinv, -⟩ := Reaches.exists_inv hreach
    obtain ⟨input, connection', loop', es', hadm, hs, hup', hphase', hcases'⟩ :=
      hinv.leaveTurn hclient (Reaches.serverClosed hreach (by rw [hset]; exact hexited) client
        (hinv.mem_clients hclient))
    refine ⟨_, _, es', hadm, hs, ⟨hreach.step hadm hs, ⟨connection', loop', ?_, ?_, hphase',
      hcases'.imp_left And.left⟩, fun user => ?_⟩, ?_⟩
    · simp [hset, setConnection]
    · rw [hup', hself, hup]
    · rw [enteredBy_append, enteredBy_eq_nil (by simp) hs, List.append_nil, hentered]
    · rw [connection_setConnection_self, leaveRank, leaveRank, if_neg hopen,
        Connection.clientClosed_of_running hphase']
      rcases hcases' with ⟨-, hlt⟩ | ⟨hdead, -⟩
      · split <;> omega
      · simp [hdead]
  obtain ⟨loop, hphase, hrun⟩ := hclient
  obtain ⟨inputs, s, es, hadm, hruns, ⟨hreach, ⟨connection, loop', rfl, hup, hphase', hcases⟩,
      hentered⟩, hclosed⟩ :=
    Machine.exists_run_of_measure wellFounded_lt (fun s => leaveRank (s.connection client)) P
      (fun s _ => (s.connection client).clientClosed = true) hstep
      ⟨h, ⟨system.connection client, loop, by simp [setConnection], rfl, hphase, .inl hrun⟩,
        fun _ => rfl⟩
  rw [connection_setConnection_self] at hclosed
  -- a client that has closed its end has left its loop with nothing on its way to it
  have hempty : connection.downstream.bytes = [] := by
    obtain ⟨queue, hinv, -⟩ := Reaches.exists_inv hreach
    obtain ⟨up, down, hsituation, -⟩ := hinv.situation client
    obtain ⟨-, hdown, -, -⟩ :=
      hsituation.of_running (by rw [connection_setConnection_self, hphase'])
    refine (hcases.resolve_left fun hrun' => ?_).2
    rw [Connection.clientClosed_of_running hphase', hdown.socketLive_iff.mpr hrun'] at hclosed
    cases hclosed
  obtain ⟨down, hdown, hnil⟩ := Reaches.exists_down hreach client
  refine ⟨connection, es, ⟨inputs, hadm, hruns⟩, hclosed, ?_,
    fun user => by simpa using hentered user⟩
  -- so all that the server had received has been displayed
  rw [hnil loop' (by rw [connection_setConnection_self, hphase'])
    (by rw [connection_setConnection_self, hempty]), List.append_nil] at hdown
  rw [hdown, receivedFrom, receivedFrom, connection_setConnection_self, hup, hentered]

/-- In every state that is reached while each receive returns what was sent with one call, no call
on a socket throws, no handshake is misread, sends take all at once, and a message is entered and
sent in one step while its client has its socket (`Admissible`): when the server has left its loop,
no such run displays more of the messages of a client than the server had received by then, and as
long as the client runs there is a run, in which nobody enters anything, that displays all of these
and ends the loop of the client. -/
theorem displayed_after_exit (h : Reaches Channel.DeliversSegment system tr)
    (hexited : system.Exited) (client : S) :
    (∀ inputs system' es,
      (echoSystem S).Admissible (Admissible Channel.DeliversSegment) system inputs →
      (echoSystem S).run system inputs = some (system', es) →
      displayedBy client (tr ++ es) <+: system.receivedFrom client tr) ∧
    (system.ClientRuns client → ∃ inputs system' es,
      (echoSystem S).Admissible (Admissible Channel.DeliversSegment) system inputs ∧
      (echoSystem S).run system inputs = some (system', es) ∧
      (∀ user, enteredBy user es = []) ∧
      displayedBy client (tr ++ es) = system.receivedFrom client tr ∧
      (system'.connection client).clientClosed = true) := by
  constructor
  · intro inputs system' es hadm hrun
    obtain ⟨hreach, hsame⟩ := Reaches.receivedFrom_of_exited h hexited client hadm hrun
    obtain ⟨down, hdown, -⟩ := Reaches.exists_down hreach client
    exact ⟨down, hdown.trans hsame⟩
  · intro hclient
    obtain ⟨connection, es, ⟨inputs, hadm, hrun⟩, hclosed, hdisplayed, hentered⟩ :=
      Reaches.exists_run_leave h hexited hclient
    exact ⟨inputs, _, es, hadm, hrun, hentered, hdisplayed,
      by rwa [connection_setConnection_self]⟩

set_option maxRecDepth 4000 in
/-- The server leaves its loop before it has received the letter. -/
theorem displayed_after_exit_of_letter :
    ∃ system tr,
      (echoSystem ℕ).run (initial ℕ) (letterInputs.take 8 ++ [.server (.loop .closeRequested)]) =
        some (system, tr) ∧ enteredBy 1 tr = [letter] ∧
      ∀ inputs system' es,
        (echoSystem ℕ).Admissible (Admissible Channel.DeliversSegment) system inputs →
        (echoSystem ℕ).run system inputs = some (system', es) → displayedBy 1 (tr ++ es) = [] := by
  have hmap : ((echoSystem ℕ).run (initial ℕ)
      (letterInputs.take 8 ++ [.server (.loop .closeRequested)])).map (fun p =>
        (enteredBy 1 p.2, p.1.receivedFrom 1 p.2, decide p.1.Exited)) =
      some ([letter], [], true) := by
    decide
  obtain ⟨⟨system, tr⟩, hrun, h⟩ := Option.map_eq_some_iff.mp hmap
  obtain ⟨hentered, hreceived, hexited⟩ : enteredBy 1 tr = [letter] ∧
      system.receivedFrom 1 tr = [] ∧ decide system.Exited = true := by
    simpa only [Prod.mk.injEq] using h
  have hinit : Reaches Channel.DeliversSegment (initial ℕ) [] := .init
  have hreach := hinit.run _ (by decide) hrun
  refine ⟨system, tr, hrun, hentered, fun inputs system' es hadm hrun' => ?_⟩
  have hprefix := (displayed_after_exit hreach (of_decide_eq_true hexited) 1).1 inputs system' es
    hadm hrun'
  rwa [List.nil_append, hreceived, List.prefix_nil] at hprefix

/-! ## The server leaves its loop -/

end EchoSystem

end PocoEcho

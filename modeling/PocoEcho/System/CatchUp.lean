import Mathlib.Data.Prod.Lex
import Mathlib.Order.WellFounded
import PocoEcho.System.Progress

/-!
# Nobody waits in vain

As long as the server and the client of a message run, nothing can prevent the message from being
displayed: the threads can go on, in some order, until the client has displayed all messages that
were entered on its console. The server first serves the other sockets of its round, and these are
all ready.

## Main definitions

* `EchoSystem.ServerRuns` and `EchoSystem.ClientRuns`: the update threads are in their loops;
* `EchoSystem.rank`: what is left to do before the client has displayed everything.

## Main results

* `EchoSystem.catches_up`: all messages of a client can still be displayed.
-/

namespace PocoEcho

open Poco ServerLoop

namespace EchoSystem

variable {S : Type} [DecidableEq S] {system system' : EchoSystem S} {queue : S → List CString}
  {tr es : List (Event S)} {client server : S}

/-- The update thread of the server is in its loop. -/
def ServerRuns (system : EchoSystem S) : Prop :=
  ∃ loop ∈ system.program.loop, loop.status = .running

/-- The update thread of the client is in its loop. -/
def ClientRuns (system : EchoSystem S) (client : S) : Prop :=
  ∃ loop, (system.connection client).phase = .running loop ∧ loop.status = .running

/-! ## What is left to do -/

/-- How long the server is busy before it receives from the client: with the rest of the round, and
with the next round if the client is not in this one. -/
def serverRank (client : S) (loop : LoopState S) : ℕ :=
  if client ∈ loop.readList then loop.readList.length
  else 2 * loop.readList.length + loop.dropList.length + 2

/-- How many calls on the socket the client needs for the rest of an iteration, after this one. -/
def pointRank : ClientPoint → ℕ
  | .poll => 2
  | .packetType => 1
  | .payload => 0

theorem pointRank_le (point : ClientPoint) : pointRank point ≤ 2 := by
  cases point <;> decide

/-- How many calls on the socket the client needs for what is on its way to it. -/
def clientRank (connection : Connection) : ℕ :=
  match connection.phase with
  | .running loop => 3 * connection.downstream.segments.length + pointRank loop.point
  | _ => 0

/-- What is left to do before the client has displayed everything: first the server receives what
the client has sent, then the client receives the echoes. -/
def rank (client : S) (system : EchoSystem S) : ℕ ×ₗ ℕ :=
  toLex ((system.connection client).upstream.segments.length,
    if (system.connection client).upstream.segments = [] then
      clientRank (system.connection client)
    else (system.program.loop.map (serverRank client)).getD 0)

/-- A step of the server comes closer: it receives from the client, or comes closer to it. -/
theorem rank_lt_of_server {loop loop' : LoopState S} (hloop : system.program.loop = some loop)
    (hloop' : system'.program.loop = some loop')
    (hup : (system.connection client).upstream.segments ≠ [])
    (h : (system'.connection client).upstream.segments.length <
        (system.connection client).upstream.segments.length ∨
      (system'.connection client).upstream = (system.connection client).upstream ∧
        serverRank client loop' < serverRank client loop) :
    rank client system' < rank client system := by
  rw [rank, rank, Prod.Lex.toLex_lt_toLex]
  refine h.imp id fun h => ?_
  obtain ⟨hsame, hlt⟩ := h
  refine ⟨by rw [hsame], ?_⟩
  simpa only [hsame, if_neg hup, hloop, hloop', Option.map_some, Option.getD_some] using hlt

/-- A step of the client comes closer, once the server has received everything. -/
theorem rank_lt_of_client {connection : Connection}
    (hup : (system.connection client).upstream.segments = [])
    (hsame : connection.upstream = (system.connection client).upstream)
    (hlt : clientRank connection < clientRank (system.connection client)) :
    rank client (system.setConnection client connection) < rank client system := by
  rw [rank, rank, Prod.Lex.toLex_lt_toLex, connection_setConnection_self]
  exact .inr ⟨by rw [hsame], by simpa only [hsame, if_pos hup] using hlt⟩

/-! ## The turn of the server -/

/-- When a socket of the round is handled, the round goes on behind it. -/
theorem progress_cons {loop loop' : LoopState S} {input : PocoEcho.Input S CWhiteList}
    {events : List (PocoEcho.Event S)} {socket : S} {rest : List S}
    (h : Progress CServer.handlers server loop input loop' events)
    (hread : loop.readList = socket :: rest) :
    loop'.status = .running ∧ loop'.readList = rest ∧
      loop'.dropList.length ≤ loop.dropList.length + 1 := by
  -- in each branch that handles a socket, it is the first one
  have htail : ∀ {socket' : S} {rest' : List S}, loop.readList = socket' :: rest' →
      rest' = rest := fun hread' => (List.cons.inj (hread'.symm.trans hread)).2
  cases h with
  | close hhead => simp [hhead.2.1] at hread
  | select hhead => simp [hhead.2.1] at hread
  | admitted hrun hread' hconnect => exact ⟨hrun, htail hread', Nat.le_succ _⟩
  | kick hrun hread' hconnect => exact ⟨hrun, htail hread', Nat.le_succ _⟩
  | shutdown hrun hread' hclient env => exact ⟨hrun, htail hread', by simp⟩
  | negative hrun hread' hclient env hdata =>
      rw [state_handleData hdata]
      exact ⟨hrun, htail hread', Nat.le_succ _⟩
  | receive hrun hread' hclient data env hdata =>
      rw [state_handleData hdata]
      exact ⟨hrun, htail hread', Nat.le_succ _⟩
  | erase hrun hread' => simp [hread'] at hread
  | missing hrun hread' => simp [hread'] at hread

/-- As long as the round is not over, each step brings its end closer. -/
theorem roundStep {loop loop' : LoopState S} {input : PocoEcho.Input S CWhiteList}
    {events : List (PocoEcho.Event S)}
    (h : Progress CServer.handlers server loop input loop' events)
    (hround : loop.readList ≠ [] ∨ loop.dropList ≠ []) :
    loop'.status = .running ∧ loop'.readList = loop.readList.tail ∧
      2 * loop'.readList.length + loop'.dropList.length <
        2 * loop.readList.length + loop.dropList.length := by
  cases hread : loop.readList with
  | cons socket rest =>
      obtain ⟨hrun, hread', hdrop⟩ := progress_cons h hread
      refine ⟨hrun, hread', ?_⟩
      rw [hread', List.length_cons]
      omega
  | nil =>
      have hdrop := hround.resolve_left (not_not.mpr hread)
      cases h with
      | close hatHead => exact absurd hatHead.2.2 hdrop
      | select hatHead => exact absurd hatHead.2.2 hdrop
      | admitted _ hread' => simp [hread] at hread'
      | kick _ hread' => simp [hread] at hread'
      | shutdown _ hread' => simp [hread] at hread'
      | negative _ hread' => simp [hread] at hread'
      | receive _ hread' => simp [hread] at hread'
      | erase hrun _ hdrop' => simp [hrun, hread, hdrop']
      | missing hrun _ hdrop' => simp [hrun, hread, hdrop']

/-- As long as the round is not over, each step in which the client is not handled brings the server
closer to the client. -/
theorem serverRank_lt_of_progress {loop loop' : LoopState S} {input : PocoEcho.Input S CWhiteList}
    {events : List (PocoEcho.Event S)}
    (h : Progress CServer.handlers server loop input loop' events)
    (hhead : loop.readList.head? ≠ some client)
    (hround : loop.readList ≠ [] ∨ loop.dropList ≠ []) :
    serverRank client loop' < serverRank client loop := by
  obtain ⟨-, hread', hlt⟩ := roundStep h hround
  rw [hread'] at hlt
  rw [serverRank, serverRank, hread']
  cases hread : loop.readList with
  | nil =>
      rw [hread] at hlt
      simpa using hlt
  | cons socket rest =>
      rw [hread] at hlt hhead
      have hne : client ≠ socket := by
        rintro rfl
        exact hhead List.head?_cons
      rw [List.tail_cons, List.length_cons] at hlt ⊢
      by_cases hmem : client ∈ rest
      · rw [if_pos hmem, if_pos (List.mem_cons_of_mem _ hmem)]
        exact Nat.lt_succ_self _
      · rw [if_neg hmem, if_neg (List.mem_cons.not.mpr (not_or.mpr ⟨hne, hmem⟩))]
        omega

/-- What is known about the lists of the update thread. -/
theorem Inv.lists (hinv : Inv system queue) {delivery : Delivery}
    (hreach : Reaches delivery system tr) {loop : LoopState S}
    (hloop : system.program.loop = some loop) :
    ∃ server past, system.program.network = some (ServerProgram.started server) ∧
      ClientsInv server loop past := by
  obtain ⟨server, packetType, hnetwork, hloopReach⟩ :=
    (ServerProgram.programInv_of_reachable hreach.program).loop_reaches loop hloop
  exact ⟨server, _, hnetwork, (clientsInv_of_reachable hloopReach.reachable).resolve_right
    (not_exists.mpr (hinv.not_thrown loop hloop))⟩

/-- The update thread of the server meets what it waits for. -/
theorem Inv.exists_turn (hinv : Inv system queue)
    (hreach : Reaches Channel.DeliversSegment system tr) {loop : LoopState S}
    (hloop : system.program.loop = some loop)
    (hnetwork : system.program.network = some (ServerProgram.started server))
    {past : List (PocoEcho.Event S)} (hlists : ClientsInv server loop past)
    {input : PocoEcho.Input S Unit}
    (hwaits :
      onUpdate CServer.handlers server loop (input.withWorld system.program.whiteList) ≠ none)
    (hundisturbed : Undisturbed loop (input.withWorld system.program.whiteList))
    (hadm : system.LoopAdmissible Channel.DeliversSegment loop input) :
    ∃ loop' events, Admissible Channel.DeliversSegment system (.server (.loop input)) ∧
      (echoSystem S).step system (.server (.loop input)) =
        some (system.afterLoop loop' events, (events.map .loop).map .server) ∧
      Progress CServer.handlers server loop (input.withWorld system.program.whiteList) loop'
        events := by
  have hserver : system.serverSocket = some server := by rw [serverSocket, hnetwork]; rfl
  obtain ⟨loop', events, hadm', hstep, hs⟩ :=
    exists_step_of_waits hreach hloop hnetwork hwaits hundisturbed hadm
  exact ⟨loop', events, hadm', hstep,
    hinv.progress_of_loop hloop hserver hlists hundisturbed hadm hs⟩

omit [DecidableEq S] in
/-- What has been sent by a client and not been received begins with a frame. -/
theorem Inv.exists_segment (hinv : Inv system queue) {user : S} {segment : List UInt8}
    {segments : List (List UInt8)}
    (hup : (system.connection user).upstream.segments = segment :: segments) :
    ∃ m, IsClientFrame m segment ∧ ∀ s ∈ segments, s ≠ [] := by
  obtain ⟨up, down, hsituation, -⟩ := hinv.situation user
  cases hsituation with
  | idle _ hnil => cases hup.symm.trans hnil
  | waiting _ hnil => cases hup.symm.trans hnil
  | admitted _ hnil => cases hup.symm.trans hnil
  | kicked _ hnil => cases hup.symm.trans hnil
  | running _ hframes =>
      rw [hup] at hframes
      obtain ⟨m, up, hframe, hrest, rfl⟩ := List.forall₂_cons_right_iff.mp hframes
      exact ⟨m, hframe, ne_nil_of_forall₂ hrest⟩
  | ended _ hnil => cases hup.symm.trans hnil

/-- What the update thread of the server meets as long as its round is not over. -/
theorem Inv.exists_input (hinv : Inv system queue) (hreach : Reaches Channel.Delivers system tr)
    {loop : LoopState S} (hloop : system.program.loop = some loop) (hrun : loop.status = .running)
    (hserver : system.serverSocket = some server)
    (hround : loop.readList ≠ [] ∨ loop.dropList ≠ []) :
    ∃ input : PocoEcho.Input S Unit,
      onUpdate CServer.handlers server loop (input.withWorld system.program.whiteList) ≠ none ∧
      Undisturbed loop (input.withWorld system.program.whiteList) ∧
      system.LoopAdmissible Channel.DeliversSegment loop input ∧
      ∀ socket ∈ loop.readList.head?, socket ≠ server →
        (system.connection socket).upstream.bytes ≠ [] → ∃ data,
          input = .receive (.bytes data) .zero ∧
            (system.connection socket).upstream.DeliversSegment maxBufferLength data := by
  refine exists_input_of_round hrun hround hserver (Reaches.readsReady hreach loop hloop hrun)
    (fun client hmem => Reaches.fresh hreach hloop hmem) fun socket hbytes => ?_
  obtain ⟨segment, segments, hsegments⟩ :
      ∃ s ss, (system.connection socket).upstream.segments = s :: ss := by
    refine List.exists_cons_of_ne_nil fun hnil => hbytes ?_
    rw [Channel.bytes, hnil, List.flatten_nil]
  obtain ⟨m, hframe, -⟩ := hinv.exists_segment hsegments
  exact Channel.exists_deliversSegment hsegments hframe.ne_nil (by decide)

/-- What the server receives is no longer on its way. -/
theorem upstream_of_receive {loop loop' : LoopState S} {data : List UInt8} {env : HandlerEnv}
    {events : List (PocoEcho.Event S)} {socket : S} {rest : List S}
    (hread : loop.readList = socket :: rest)
    (h : Progress CServer.handlers server loop (.receive (.bytes data) env) loop' events) :
    ((system.afterLoop loop' events).connection socket).upstream =
      (system.connection socket).upstream.receive data.length := by
  cases h with
  | receive _ hread' =>
      obtain ⟨rfl, rfl⟩ := List.cons.inj (hread.symm.trans hread')
      simp only [observe]
      rw [eventsOf_eq_self fun e he => (socket_of_mem_receive e he).1, List.foldl_cons,
        upstream_foldl_observe fun e he => (socket_of_mem_handleData he).1]
      · rfl
      -- the handlers receive nothing
      · intro data hmem
        rcases mem_log_handleData hmem with ⟨packetType, heq⟩ | ⟨event, heq⟩ <;> cases heq

/-- As long as something is on its way from the client, the server can come closer to receiving it.
-/
theorem Inv.serverTurn (hinv : Inv system queue)
    (hreach : Reaches Channel.DeliversSegment system tr)
    (hruns : system.ServerRuns) (hclient : system.ClientRuns client)
    (hup : (system.connection client).upstream.segments ≠ []) :
    ∃ input system' es, Admissible Channel.DeliversSegment system (.server input) ∧
      (echoSystem S).step system (.server input) = some (system', es) ∧ system'.ServerRuns ∧
      (∀ user, (system'.connection user).phase = (system.connection user).phase) ∧
      rank client system' < rank client system := by
  obtain ⟨loop, hloop, hrun⟩ := hruns
  obtain ⟨server, past, hnetwork, hlists⟩ := hinv.lists hreach hloop
  have hserver : system.serverSocket = some server := by rw [serverSocket, hnetwork]; rfl
  obtain ⟨state, hphase, hstate⟩ := hclient
  have hother : client ≠ server := by
    rintro rfl
    exact Reaches.serverSocket_ne hreach (by simp [hphase]) hserver
  -- it is enough to find what the update thread meets
  suffices h : ∃ input : PocoEcho.Input S Unit,
      onUpdate CServer.handlers server loop (input.withWorld system.program.whiteList) ≠ none ∧
      Undisturbed loop (input.withWorld system.program.whiteList) ∧
      system.LoopAdmissible Channel.DeliversSegment loop input ∧
      ∀ loop' events, Progress CServer.handlers server loop
          (input.withWorld system.program.whiteList) loop' events →
        loop'.status = .running ∧
          (((system.afterLoop loop' events).connection client).upstream.segments.length <
              (system.connection client).upstream.segments.length ∨
            ((system.afterLoop loop' events).connection client).upstream =
                (system.connection client).upstream ∧
              serverRank client loop' < serverRank client loop) by
    obtain ⟨input, hwaits, hundisturbed, hadm, hnext⟩ := h
    obtain ⟨loop', events, hadm', hstep, hprog⟩ :=
      hinv.exists_turn hreach hloop hnetwork hlists hwaits hundisturbed hadm
    obtain ⟨hrun', hcloser⟩ := hnext loop' events hprog
    exact ⟨_, _, _, hadm', hstep, ⟨loop', rfl, hrun'⟩, phase_observe _ _,
      rank_lt_of_server hloop rfl hup hcloser⟩
  by_cases hround : loop.readList ≠ [] ∨ loop.dropList ≠ []
  · obtain ⟨input, hwaits, hundisturbed, hadm, hreceive⟩ :=
      hinv.exists_input hreach.delivers hloop hrun hserver hround
    refine ⟨input, hwaits, hundisturbed, hadm, fun loop' events hprog => ?_⟩
    -- nothing is received from the client as long as it is not the head of the round
    by_cases hhead : loop.readList.head? = some client
    · obtain ⟨rest, hread⟩ := List.head?_eq_some_iff.mp hhead
      obtain ⟨segment, segments, hsegments⟩ := List.exists_cons_of_ne_nil hup
      obtain ⟨m, hframe, hrest⟩ := hinv.exists_segment hsegments
      have hbytes : (system.connection client).upstream.bytes ≠ [] := by
        simp [Channel.bytes, hsegments, hframe.ne_nil]
      obtain ⟨data, rfl, hdata⟩ := hreceive client hhead hother hbytes
      obtain rfl : data = segment :=
        ((Channel.deliversSegment_cons_iff hsegments).mp hdata).2.trans
          (List.take_of_length_le hframe.1)
      refine ⟨(progress_cons hprog hread).1, .inl ?_⟩
      rw [upstream_of_receive hread hprog, Channel.segments_receive_length hsegments hrest,
        hsegments]
      exact Nat.lt_succ_self _
    · exact ⟨(roundStep hprog hround).1,
        .inr ⟨upstream_observe fun data hmem => hhead (head_of_received hprog hmem),
          serverRank_lt_of_progress hprog hhead hround⟩⟩
  · -- the next round is one for the client alone
    obtain ⟨hread, hdrop⟩ := not_or.mp hround
    rw [not_not] at hread hdrop
    refine ⟨.select 1 [client] none, by simp [onUpdate, hrun, hread, hdrop, Input.withWorld],
      ⟨⟨List.nodup_singleton _, ?_⟩, rfl⟩, ?_, fun loop' events hprog => ?_⟩
    · obtain ⟨up, down, hsituation, -⟩ := hinv.situation client
      obtain ⟨-, hdown, -, hmem⟩ := hsituation.of_running hphase
      have hmem := hmem (hdown.socketLive_iff.mpr hstate)
      rw [clients, hloop] at hmem
      simpa using hmem
    · intro user huser
      obtain rfl := List.mem_singleton.mp huser
      rw [Readable, if_neg (by rw [hserver]; simpa using hother.symm)]
      obtain ⟨segment, segments, hsegments⟩ := List.exists_cons_of_ne_nil hup
      obtain ⟨m, hframe, -⟩ := hinv.exists_segment hsegments
      exact .inl (by simp [Channel.bytes, hsegments, hframe.ne_nil])
    · cases hprog with
      | select =>
          refine ⟨hrun, .inr ⟨upstream_observe (by simp), ?_⟩⟩
          simp [serverRank, hread, hdrop]

/-! ## The turn of the client -/

omit [DecidableEq S] in
/-- There are as many segments on their way to the client as echoes. -/
theorem length_segments {loop : ClientState} {down : List EchoedMessage}
    {downstream : Channel UInt8} {closed : Bool} (h : Receiving loop down downstream closed) :
    downstream.segments.length = down.length := by
  rw [h.segments_eq]
  cases hpoint : loop.point with
  | poll => simp [expectedSegments]
  | packetType => simp [expectedSegments]
  | payload =>
      obtain ⟨m, ms, rfl⟩ := List.exists_cons_of_ne_nil (h.payload hpoint).2
      simp [expectedSegments]

/-- A step of the update thread of the client is one of the system. -/
theorem step_client {loop loop' : ClientState}
    (hphase : (system.connection client).phase = .running loop) {input : ClientInput}
    {events : List (ClientEvent ConsoleEvent)}
    (hs : (clientLoop CClient.handlers).step loop input = some (loop', events)) :
    (echoSystem S).step system (.client client input) =
      some (system.setConnection client
        { events.foldl Connection.observeClient (system.connection client) with
          phase := .running loop' }, events.map (.client client)) := by
  change step system (.client client input) = _
  simp only [step, hphase, hs, Option.map_some]

/-- When the update thread of the client waits for an input, it takes a step on it. -/
theorem exists_clientStep (loop : ClientState) (input : ClientInput)
    (h : ClientLoop.onUpdate CClient.handlers loop input ≠ none) :
    ∃ loop' events, (clientLoop CClient.handlers).step loop input = some (loop', events) := by
  obtain ⟨outcome, hup⟩ := Option.ne_none_iff_exists'.mp h
  exact ⟨_, _, congrArg (Option.map _) hup⟩

/-- As long as echoes are on their way to the client, it can come closer to displaying them. -/
theorem Inv.clientTurn (hinv : Inv system queue) (hclient : system.ClientRuns client)
    (hdownstream : (system.connection client).downstream.bytes ≠ []) :
    ∃ input connection es, Admissible Channel.DeliversSegment system (.client client input) ∧
      (echoSystem S).step system (.client client input) =
        some (system.setConnection client connection, es) ∧
      (∃ loop, connection.phase = .running loop ∧ loop.status = .running) ∧
      connection.upstream = (system.connection client).upstream ∧
      clientRank connection < clientRank (system.connection client) := by
  obtain ⟨loop, hphase, hrun⟩ := hclient
  obtain ⟨up, down, hsituation, -⟩ := hinv.situation client
  obtain ⟨-, hdown, -, -⟩ := hsituation.of_running hphase
  -- something on its way to the client is an echo, or the part of one
  obtain ⟨m, ms, rfl⟩ : ∃ m ms, down = m :: ms := by
    refine List.exists_cons_of_ne_nil ?_
    rintro rfl
    have hempty := List.length_eq_zero_iff.mp (length_segments hdown)
    exact hdownstream (by rw [Channel.bytes, hempty]; rfl)
  -- it is enough to find the next input of the update thread: it displays a message, or goes on to
  suffices h : ∃ input, ClientAdmissible Channel.DeliversSegment (system.connection client) input ∧
      ∃ loop' events, (clientLoop CClient.handlers).step loop input = some (loop', events) ∧
        loop'.status = .running ∧
        (events.filterMap ClientEvent.displayed = [] →
          pointRank loop'.point < pointRank loop.point) by
    obtain ⟨input, hadm, loop', events, hs, hrun', hcloser⟩ := h
    obtain ⟨shown, down', downstream', hsplit, hshown, hobserve, hnext⟩ := hdown.step hadm hs
    have hstep := step_client hphase hs
    rw [hobserve] at hstep
    refine ⟨input, _, _, hadm, hstep, ⟨loop', rfl, hrun'⟩, rfl, ?_⟩
    simp only [clientRank, hphase, length_segments hnext, length_segments hdown, hsplit]
    have hle := pointRank_le loop'.point
    cases shown with
    | none =>
        -- nothing is displayed, but the next receive is closer
        have hlt := hcloser hshown
        simp only [Option.toList_none, List.nil_append]
        omega
    | some m' =>
        -- one echo less is on its way, which outweighs any point of the loop
        simp only [Option.toList_some, List.length_append, List.length_singleton]
        omega
  have hlive := hdown.socketLive_iff.mpr hrun
  have hsegments := hdown.segments_eq
  cases hpoint : loop.point with
  | poll =>
      obtain ⟨loop', events, hs⟩ :=
        exists_clientStep loop (.poll true) (by simp [ClientLoop.onUpdate, hrun, hpoint])
      have hadm : ClientAdmissible Channel.DeliversSegment (system.connection client)
          (.poll true) := by
        -- `poll` may return, since an echo has arrived
        refine fun _ => .inl fun hnil => ?_
        have := (hdown.down_eq_nil hnil).1
        cases this
      refine ⟨_, hadm, loop', events, hs, ?_⟩
      cases ClientLoop.progress_of_step CClient.careful_handlers hlive hadm.noThrow hs with
      | poll => exact ⟨hrun, fun _ => by simp [pointRank]⟩
  | packetType =>
      have hadm : ClientAdmissible Channel.DeliversSegment (system.connection client)
          (.receiveType (.bytes PacketType.message.word.bytes)) := by
        rw [hpoint] at hsegments
        refine (Channel.deliversSegment_cons_iff hsegments).mpr ⟨by decide, ?_⟩
        -- the first four bytes of the frame are the packet type MESSAGE
        rw [m.frame_eq]
        rfl
      obtain ⟨loop', events, hs⟩ :=
        exists_clientStep loop (.receiveType (.bytes PacketType.message.word.bytes))
          (by simp [ClientLoop.onUpdate, hrun, hpoint])
      refine ⟨_, hadm, loop', events, hs, ?_⟩
      cases ClientLoop.progress_of_step CClient.careful_handlers hlive hadm.noThrow hs with
      | type => exact ⟨hrun, fun _ => by simp [pointRank]⟩
  | payload =>
      rw [hpoint] at hsegments
      have hadm : ClientAdmissible Channel.DeliversSegment (system.connection client)
          (.receivePayload (.bytes (m.frame.drop 4)) .zero) :=
        ⟨(Channel.deliversSegment_cons_iff hsegments).mpr
          ⟨m.drop_frame.1, (List.take_of_length_le m.drop_frame.2).symm⟩, rfl⟩
      obtain ⟨loop', events, hs⟩ :=
        exists_clientStep loop (.receivePayload (.bytes (m.frame.drop 4)) .zero)
          (by simp [ClientLoop.onUpdate, hrun, hpoint])
      refine ⟨_, hadm, loop', events, hs, ?_⟩
      obtain ⟨rest, hdispatch⟩ := CClient.dispatch_echo m HandlerEnv.zero.stray
      rw [← (hdown.payload hpoint).1] at hdispatch
      cases ClientLoop.progress_of_step CClient.careful_handlers hlive hadm.noThrow hs with
      | payload =>
          -- the message is displayed
          refine ⟨hrun, fun hnil => ?_⟩
          rw [ReceiveResult.data, show HandlerEnv.zero = ⟨HandlerEnv.zero.stray, none⟩ from rfl,
            hdispatch] at hnil
          cases hnil
      | thrown _ _ _ herror =>
          rw [ReceiveResult.data, show HandlerEnv.zero = ⟨HandlerEnv.zero.stray, none⟩ from rfl,
            hdispatch] at herror
          cases herror

/-! ## The run -/

/-- Only the step in which a message is entered enters one. -/
theorem enteredBy_eq_nil {input : Input S}
    (hinput : ∀ user szMessage behind, input ≠ .enter user szMessage behind)
    (hs : (echoSystem S).step system input = some (system', es)) (user : S) :
    enteredBy user es = [] := by
  rcases clientStep_of_step hs with ⟨i, rfl⟩ | hclient
  · obtain ⟨⟨program, events⟩, -, hp⟩ := Option.map_eq_some_iff.mp hs
    obtain ⟨-, rfl⟩ := Prod.mk.inj hp
    simp [enteredBy, List.filterMap_map, Function.comp_def, Event.enteredBy]
  cases hclient with
  | connectNB => rfl
  | tryConnect => rfl
  | client => simp [enteredBy, List.filterMap_map, Function.comp_def, Event.enteredBy]
  | enter _ szMessage behind => exact absurd rfl (hinput _ szMessage behind)

/-- The server and all clients that run go on to run, and the client can come closer to displaying
everything. -/
theorem Reaches.catchUpStep (hreach : Reaches Channel.DeliversSegment system tr)
    (hserver : system.ServerRuns) (hclient : system.ClientRuns client)
    (hbehind : displayedBy client tr ≠ enteredBy client tr) :
    ∃ input system' es, Admissible Channel.DeliversSegment system input ∧
      (echoSystem S).step system input = some (system', es) ∧ system'.ServerRuns ∧
      (∀ user, system.ClientRuns user → system'.ClientRuns user) ∧
      (∀ user, enteredBy user es = []) ∧ rank client system' < rank client system := by
  obtain ⟨queue, hinv, haccount⟩ := Reaches.exists_inv hreach
  -- the service still owes the user an answer
  have hqueue : queue client ≠ [] := by
    intro hnil
    rw [haccount, hnil, List.append_nil] at hbehind
    exact hbehind rfl
  by_cases hup : (system.connection client).upstream.segments = []
  · -- what the user waits for is on its way back
    have hdownstream : (system.connection client).downstream.bytes ≠ [] := by
      obtain ⟨loop, hphase, -⟩ := hclient
      obtain ⟨up, down, hsituation, heq⟩ := hinv.situation client
      obtain ⟨hframes, hdown, -, -⟩ := hsituation.of_running hphase
      rw [hup, List.forall₂_nil_right_iff] at hframes
      intro hnil
      exact hqueue (by rw [heq, hframes, (hdown.down_eq_nil hnil).1]; rfl)
    obtain ⟨input, connection, es, hadm, hs, hrun, hsame, hlt⟩ :=
      hinv.clientTurn hclient hdownstream
    refine ⟨_, _, es, hadm, hs, hserver, fun user huser => ?_, enteredBy_eq_nil (by simp) hs,
      rank_lt_of_client hup hsame hlt⟩
    by_cases hne : user = client
    · subst hne
      rwa [ClientRuns, connection_setConnection_self]
    · rwa [ClientRuns, connection_setConnection_of_ne system hne]
  · -- something of the client is still on its way to the server
    obtain ⟨input, system', es, hadm, hs, hserver', hphase, hlt⟩ :=
      hinv.serverTurn hreach hserver hclient hup
    exact ⟨_, system', es, hadm, hs, hserver', fun user huser => by rwa [ClientRuns, hphase],
      enteredBy_eq_nil (by simp) hs, hlt⟩

/-- As long as the server and a client run, the client can display everything, while nobody enters
anything, and the other threads go on to run. -/
theorem Reaches.exists_run_catchUp (h : Reaches Channel.DeliversSegment system tr)
    (hserver : system.ServerRuns) (hclient : system.ClientRuns client) :
    ∃ inputs system' es,
      (echoSystem S).Admissible (Admissible Channel.DeliversSegment) system inputs ∧
      (echoSystem S).run system inputs = some (system', es) ∧ system'.ServerRuns ∧
      (∀ user, system.ClientRuns user → system'.ClientRuns user) ∧
      (∀ user, enteredBy user es = []) ∧ displayedBy client (tr ++ es) = enteredBy client tr := by
  -- the threads go on to run, and nothing is entered
  let P (system' : EchoSystem S) (tr' : List (Event S)) : Prop :=
    Reaches Channel.DeliversSegment system' tr' ∧ system'.ServerRuns ∧
      (∀ user, system.ClientRuns user → system'.ClientRuns user) ∧
      ∀ user, enteredBy user tr' = enteredBy user tr
  have hstep : ∀ {s : EchoSystem S} {tr' : List (Event S)}, P s tr' →
      displayedBy client tr' ≠ enteredBy client tr' → ∃ input s' es',
        Admissible Channel.DeliversSegment s input ∧
        (echoSystem S).step s input = some (s', es') ∧ P s' (tr' ++ es') ∧
        rank client s' < rank client s := by
    rintro s tr' ⟨hreach, hserver, hkeep, hentered⟩ hbehind
    obtain ⟨input, s', es', hadm, hs, hserver', hkeep', hnil, hlt⟩ :=
      Reaches.catchUpStep hreach hserver (hkeep client hclient) hbehind
    refine ⟨input, s', es', hadm, hs, ⟨hreach.step hadm hs, hserver',
      fun user huser => hkeep' user (hkeep user huser), fun user => ?_⟩, hlt⟩
    rw [enteredBy_append, hnil, List.append_nil, hentered]
  obtain ⟨inputs, s', es, hadm, hrun, ⟨-, hserver', hkeep, hentered⟩, hgoal⟩ :=
    Machine.exists_run_of_measure wellFounded_lt (rank client) P
      (fun _ tr' => displayedBy client tr' = enteredBy client tr') hstep
      ⟨h, hserver, fun _ => id, fun _ => rfl⟩
  refine ⟨inputs, s', es, hadm, hrun, hserver', hkeep, fun user => ?_,
    hgoal.trans (hentered client)⟩
  simpa using hentered user

/-- In every state that is reached while each receive returns what was sent with one call, no call
on a socket throws, no handshake is misread, sends take all at once, and a message is entered and
sent in one step while its client has its socket (`Admissible`): as long as the server and a client
run, there is a continuation of the run, in which nobody enters anything, after which the client has
displayed all messages that were entered on its console. -/
theorem catches_up (h : Reaches Channel.DeliversSegment system tr) (hserver : system.ServerRuns)
    (hclient : system.ClientRuns client) :
    ∃ inputs system' es,
      (echoSystem S).Admissible (Admissible Channel.DeliversSegment) system inputs ∧
      (echoSystem S).run system inputs = some (system', es) ∧
      (∀ user, enteredBy user es = []) ∧
      displayedBy client (tr ++ es) = enteredBy client tr := by
  obtain ⟨inputs, system', es, hadm, hrun, -, -, hentered, hdisplayed⟩ :=
    Reaches.exists_run_catchUp h hserver hclient
  exact ⟨inputs, system', es, hadm, hrun, hentered, hdisplayed⟩

set_option maxRecDepth 4000 in
theorem catches_up_of_letter :
    ∃ system tr inputs system' es,
      (echoSystem ℕ).run (initial ℕ) (letterInputs.take 8) = some (system, tr) ∧
      displayedBy 1 tr = [] ∧ (echoSystem ℕ).run system inputs = some (system', es) ∧
      displayedBy 1 (tr ++ es) = [letter] := by
  have hmap : ((echoSystem ℕ).run (initial ℕ) (letterInputs.take 8)).map (fun p =>
      (enteredBy 1 p.2, displayedBy 1 p.2, (p.1.connection 1).phase,
        p.1.program.loop.map LoopState.status)) =
      some ([letter], [], .running (.initial (Word.ofNat 0)), some .running) := by
    decide
  obtain ⟨⟨system, tr⟩, hrun, h⟩ := Option.map_eq_some_iff.mp hmap
  obtain ⟨hentered, hdisplayed, hphase, hloop⟩ : enteredBy 1 tr = [letter] ∧
      displayedBy 1 tr = [] ∧ (system.connection 1).phase = .running (.initial (Word.ofNat 0)) ∧
      system.program.loop.map LoopState.status = some .running := by
    simpa only [Prod.mk.injEq] using h
  have hinit : Reaches Channel.DeliversSegment (initial ℕ) [] := .init
  have hreach := hinit.run (letterInputs.take 8) (by decide) hrun
  have hclient : system.ClientRuns 1 := ⟨_, hphase, rfl⟩
  obtain ⟨inputs, system', es, -, hrun', -, hshown⟩ :=
    catches_up hreach (Option.map_eq_some_iff.mp hloop) hclient
  exact ⟨system, tr, inputs, system', es, hrun, hdisplayed, hrun', hshown.trans hentered⟩

end EchoSystem

end PocoEcho

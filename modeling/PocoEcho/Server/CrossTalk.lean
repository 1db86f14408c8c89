import PocoEcho.Network.ServerLoop.Clients
import PocoEcho.Server.Failure
import PocoEcho.Server.Sessions

/-!
# No cross-talk

When every chunk is one complete frame, the shared loop serves each client as if it were alone:
what is written to the client after its ACCEPT packet are the echoes of its own MESSAGE frames, in
the order in which it sent them.

## Main results

* `echoes_of_frames`: the sends to each client, in every state of every run.
-/

namespace PocoEcho

open Poco ServerLoop

variable {S : Type}

/-- One complete frame: a MESSAGE with a NUL-terminated payload, or any other type. -/
def IsFrame (data : List UInt8) : Prop :=
  (∃ payload, 0 ∈ payload ∧ data = messageFrame payload) ∨
    4 ≤ data.length ∧ data.take 4 ≠ PacketType.message.word.bytes

/-- The echo of a frame: type, length, and the payload up to and including its first NUL. -/
def echoOf (data : List UInt8) : Option (List UInt8) :=
  if data.take 4 = PacketType.message.word.bytes then
    some (messageFrame (CString.ofPrefix (data.drop 8)).terminated)
  else none

/-- The echo of a MESSAGE frame. -/
theorem echoOf_messageFrame (payload : List UInt8) :
    echoOf (messageFrame payload) = some (messageFrame (CString.ofPrefix payload).terminated) := by
  have htake : (messageFrame payload).take 4 = PacketType.message.word.bytes := by
    rw [messageFrame, List.append_assoc, List.take_left' (Word.length_eq _)]
  have hdrop : (messageFrame payload).drop 8 = payload := by
    rw [messageFrame, List.drop_left' (by simp [Word.length_eq])]
  rw [echoOf, if_pos htake, hdrop]

/-- The string in a payload is shorter than the payload. -/
theorem length_ofPrefix_lt {payload : List UInt8} (h : 0 ∈ payload) :
    (CString.ofPrefix payload).chars.length < payload.length := by
  obtain ⟨m, rest, rfl⟩ := CString.eq_append_of_mem h
  rw [CString.ofPrefix_append, List.length_append, List.length_cons]
  omega

/-- The echo of the payload of a frame that fits is whole. -/
theorem reply_ofPrefix {payload : List UInt8} (h : 0 ∈ payload)
    (hfits : (messageFrame payload).length ≤ maxBufferLength) :
    CServer.reply (.ofPrefix payload) = messageFrame (CString.ofPrefix payload).terminated := by
  have hlen := length_ofPrefix_lt h
  rw [length_messageFrame, maxBufferLength] at hfits
  exact CServer.reply_of_length_le (by omega)

/-- What handling a frame sends, and that it is left by an exception only when a call on the socket
throws. -/
theorem handleData_frame (state : LoopState S) (client : S) {data : List UInt8}
    (hframe : IsFrame data) (hfits : data.length ≤ maxBufferLength) (env : HandlerEnv) :
    ((handleData CServer.handlers state client data env).Announces Event.IsThrow) ∧
      ∀ state', (handleData CServer.handlers state client data env).result = .ok state' →
        (handleData CServer.handlers state client data env).log.filterMap Event.sent =
          (echoOf data).toList := by
  rcases hframe with ⟨payload, hnul, rfl⟩ | ⟨hlong, htype⟩
  -- a MESSAGE: its payload is decoded and echoed
  · obtain ⟨rest, hdecode⟩ := decode_chunkBody_messageFrame env.stray hfits
    have hstring : (CharArray.mk payload env.stray.behind).cString = some (.ofPrefix payload) :=
      CharArray.cString_of_mem hnul
    simp only [Logged.Announces, log_handleData, result_handleData, chunkType_messageFrame]
    rcases CServer.packetHandler_of_cString env client hdecode hstring with h | ⟨h, -⟩
    · rw [h, echoOf_messageFrame, ← reply_ofPrefix hnul hfits]
      exact ⟨fun _ herr => by simp [Except.map] at herr, fun _ _ => rfl⟩
    · rw [h]
      exact ⟨fun _ _ => ⟨.handler (.throws client), by simp, client, .inr rfl⟩,
        fun _ hok => by simp [Except.map] at hok⟩
  -- any other type: nothing is sent
  · have hne : chunkType state.packetType data ≠ PacketType.message.word :=
      fun h => htype ((chunkType_eq_iff hlong).mp h)
    simp only [Logged.Announces, log_handleData, result_handleData]
    rcases CServer.packetHandler_other env client (chunkBody data) hne with h | ⟨h, -⟩
    · rw [h, echoOf, if_neg htype]
      exact ⟨fun _ herr => by simp [Except.map] at herr, fun _ _ => rfl⟩
    · rw [h]
      exact ⟨fun _ _ => ⟨.handler (.throws client), by simp, client, .inr rfl⟩,
        fun _ hok => by simp [Except.map] at hok⟩

theorem announces_callOn (env : HandlerEnv) (site : CallSite) (socket : S) :
    (callOn env site socket).Announces HandlerEvent.IsThrow := by
  unfold callOn
  split
  · exact fun _ _ => ⟨.throws socket, by simp, socket, rfl⟩
  · exact Logged.announces_pure _ ()

theorem announces_call (throwsAt : Option CallSite) (site : CallSite) (socket : S) :
    (call throwsAt site socket).Announces Event.IsThrow := by
  unfold call
  split
  · exact fun _ _ => ⟨.throws socket, by simp, socket, .inl rfl⟩
  · exact Logged.announces_pure _ ()

/-- The connect handler is left by an exception only when a call on the socket throws. -/
theorem announces_connect (env : HandlerEnv) (whiteList : CWhiteList) (client : S)
    (host : String) :
    ((connect CServer.handlers env whiteList client host).mapLog Event.handler).Announces
      Event.IsThrow := by
  apply Logged.Announces.mapLog
  -- the handler asks twice for the peer's address, and fails only there
  have hconnect : (connect CServer.handlers env whiteList client host).Announces
      HandlerEvent.IsThrow :=
    .bind (announces_callOn _ _ _) fun _ =>
      .bind (announces_callOn _ _ _) fun _ => Logged.announces_pure _ _
  intro err herr
  obtain ⟨e, he, c, rfl⟩ := hconnect err herr
  exact ⟨_, he, c, .inr rfl⟩

variable [DecidableEq S] {server client : S}

/-- As long as every chunk is one frame, the loop is left by an exception only when a call on a
socket throws. -/
theorem announces_onUpdate {state : LoopState S} {input : Input S CWhiteList}
    {outcome : Logged (Event S) Fault (LoopState S)} (hadm : Admissible state input)
    (hframes : ∀ data ∈ outcome.log.filterMap Event.received, IsFrame data)
    (h : onUpdate CServer.handlers server state input = some outcome) :
    outcome.Announces Event.IsThrow := by
  obtain ⟨-, hbranch⟩ := branch_of_onUpdate h
  cases hbranch with
  | accept hread client host world env =>
      refine .bind (announces_call _ _ _) fun _ => ?_
      refine .bind (Logged.announces_emit _ _) fun _ => ?_
      refine .bind (announces_connect _ _ _ _) fun admitted => ?_
      cases admitted with
      | true =>
          refine .bind (announces_call _ _ _) fun _ => ?_
          exact .bind (Logged.announces_emit _ _) fun _ => Logged.announces_pure _ _
      | false =>
          refine .bind (announces_call _ _ _) fun _ => ?_
          refine .bind (Logged.announces_emit _ _) fun _ => ?_
          refine .bind (announces_call _ _ _) fun _ => ?_
          exact .bind (Logged.announces_emit _ _) fun _ => Logged.announces_pure _ _
  | @receive sender rest hread hclient result env =>
      cases result with
      | throws => exact fun _ _ => ⟨.throws sender, by simp [receiveFrom], sender, .inl rfl⟩
      | shutdown => exact .bind (Logged.announces_emit _ _) fun _ => Logged.announces_pure _ _
      | negative => exact hadm.elim
      | bytes data =>
          -- only here a handler is invoked: the chunk is a frame by assumption
          have hframe : IsFrame data := hframes data (by simp [receiveFrom, Event.received])
          refine .bind (Logged.announces_emit _ _) fun _ => ?_
          exact (handleData_frame _ _ hframe hadm.2 env).1
  | drop hread hdrop throwsAt =>
      unfold dropClient
      split
      · refine .bind (announces_call _ _ _) fun _ => ?_
        exact .bind (Logged.announces_emit _ _) fun _ => Logged.announces_pure _ _
      · exact Logged.announces_pure _ _
  | close hread hdrop => exact fun _ herr => by cases herr
  | select hread hdrop iCount ready throwsAt =>
      exact .bind (announces_call _ _ _) fun _ => Logged.announces_pure _ _

/-- What the session of a client looks like when every chunk is one frame. -/
inductive SessionInv (client : S) (state : LoopState S) (tr : List (Event S)) : Prop
  /-- The client was admitted, and was sent the echoes of what it has sent. -/
  | admitted (host : String) (post : List (Event S))
      (hsession : session client tr = .acceptConnection client host ::
        .sendBytes client PacketType.accept.word.bytes :: post)
      (haccept : ∀ e ∈ post, e ≠ .sendBytes client PacketType.accept.word.bytes)
      (hecho : post.filterMap Event.sent = (post.filterMap Event.received).filterMap echoOf)
  /-- The client was not admitted. -/
  | absent (hclient : client ∉ state.clients)
      (haccept : ∀ e ∈ session client tr, e ≠ .sendBytes client PacketType.accept.word.bytes)

/-- Steps that are quiet for a client keep its session. -/
theorem SessionInv.quiet {state state' : LoopState S} {tr es : List (Event S)}
    (h : SessionInv client state tr) (hquiet : Quiet client es)
    (hclients : client ∈ state'.clients → client ∈ state.clients) :
    SessionInv client state' (tr ++ es) := by
  have hes : ∀ e ∈ eventsOf client es, e ≠ .sendBytes client PacketType.accept.word.bytes := by
    rintro e he rfl
    obtain ⟨hmem, hsocket⟩ := List.mem_filter.mp he
    have := (hquiet _ hmem (by simpa using hsocket)).2.2.2
    cases this
  have hreceived := hquiet.filterMap_eventsOf (f := Event.received) fun e h => h.1
  have hsent := hquiet.filterMap_eventsOf (f := Event.sent) fun e h => h.2.2
  cases h with
  | admitted host post hsession haccept hecho =>
      refine .admitted host (post ++ eventsOf client es) ?_ ?_ ?_
      · rw [hquiet.session_append, hsession]
        rfl
      · intro e he
        exact (List.mem_append.mp he).elim (haccept e) (hes e)
      · rw [List.filterMap_append, List.filterMap_append, hreceived, hsent, List.append_nil,
          List.append_nil, hecho]
  | absent hclient haccept =>
      refine .absent (fun hmem => hclient (hclients hmem)) fun e he => ?_
      rw [hquiet.session_append] at he
      exact (List.mem_append.mp he).elim (haccept e) (hes e)

/-- A step that no exception ends keeps the session of every client as described. -/
theorem sessionInv_progress {state state' : LoopState S} {tr es : List (Event S)}
    {input : Input S CWhiteList} (hclient : client ≠ server) (hadm : Admissible state input)
    (hframes : ∀ data ∈ es.filterMap Event.received, IsFrame data)
    (hlists : ClientsInv server state tr) (hinv : SessionInv client state tr)
    (h : Progress CServer.handlers server state input state' es) :
    SessionInv client state' (tr ++ es) := by
  rcases h.session_cases hclient hadm with ⟨hquiet, hclients⟩ | ⟨host, rfl⟩ | ⟨habsent, host, rfl⟩ |
    ⟨hread, hclients, state₀, data, env, rfl, hok, rfl⟩
  -- nothing of interest, an acceptance, a kick, or a chunk of the client
  · exact hinv.quiet hquiet hclients
  · refine .admitted host [] ?_ (by simp) rfl
    exact session_append_accept tr client host (by simp [Event.socket]) (by simp [Event.isAccept])
  · refine .absent habsent ?_
    have hne : PacketType.kick.word.bytes ≠ PacketType.accept.word.bytes := by decide
    rw [session_append_accept tr client host (by simp [Event.socket]) (by simp [Event.isAccept])]
    simp [hne]
  · have hmem : client ∈ state.clients := hlists.readList_subset hread
    have hframe : IsFrame data := hframes data (by simp [Event.received])
    have hsent := (handleData_frame state₀ client hframe hadm.2 env).2 _ hok
    have hlog : ∀ e ∈ (handleData CServer.handlers state₀ client data env).log,
        e ≠ .sendBytes client PacketType.accept.word.bytes := by
      intro e he
      rcases mem_log_handleData he with ⟨packetType, rfl⟩ | ⟨event, rfl⟩ <;> simp
    cases hinv with
    -- nothing is received from whoever is not among the clients
    | absent habsent => exact absurd hmem habsent
    | admitted host post hsession haccept hecho =>
        refine .admitted host (post ++ .receiveBytes client (.bytes data) ::
          (handleData CServer.handlers state₀ client data env).log) ?_ ?_ ?_
        · rw [session_append_receive, hsession]
          rfl
        · intro e he
          rcases List.mem_append.mp he with he | he
          · exact haccept e he
          · rcases List.mem_cons.mp he with rfl | he
            · simp
            · exact hlog e he
        · simp only [List.filterMap_append, List.filterMap_cons, Event.received, Event.sent,
            received_handleData, hsent, hecho]
          cases echoOf data <;> simp

/-- When no call on a socket throws and every chunk is one frame, the loop goes on, and every
session is as described. -/
theorem sessionInv_of_reachable {packetType : Word} {state : LoopState S} {tr : List (Event S)}
    (h : (serverLoop CServer.handlers server).Reachable Admissible
      (LoopState.initial server packetType) state tr)
    (hframes : ∀ data ∈ tr.filterMap Event.received, IsFrame data)
    (hthrow : ∀ e ∈ tr, ¬ e.IsThrow) :
    (∀ fault, state.status ≠ .thrown fault) ∧
      ∀ client, client ≠ server → SessionInv client state tr := by
  induction h with
  | init =>
      refine ⟨fun fault h => ?_, fun client hclient => .absent ?_ ?_⟩
      · cases h
      · simpa [LoopState.initial] using hclient
      · simp [session, eventsOf]
  | @step s s' tr es i hreach hadm hs ih =>
      rw [List.filterMap_append] at hframes
      obtain ⟨hstatus, hinv⟩ := ih (fun data hdata => hframes data (List.mem_append_left _ hdata))
        fun e he => hthrow e (List.mem_append_left _ he)
      have hframes' : ∀ data ∈ es.filterMap Event.received, IsFrame data :=
        fun data hdata => hframes data (List.mem_append_right _ hdata)
      rcases thrown_or_progress hs with ⟨fault, outcome, hup, herr, rfl, -⟩ | hprog
      -- an exception would have come from a call on a socket
      · obtain ⟨e, he, hthrown⟩ := announces_onUpdate hadm hframes' hup fault herr
        exact absurd hthrown (hthrow e (List.mem_append_right _ he))
      · have hlists : ClientsInv server s tr :=
          (clientsInv_of_reachable hreach).resolve_right (not_exists.mpr hstatus)
        refine ⟨fun fault h => ?_, fun client hclient =>
          sessionInv_progress hclient hadm hframes' hlists (hinv client hclient) hprog⟩
        exact hprog.not_thrown fault h

/-- In every run in which no call on a socket throws and every chunk is one complete frame, the
loop goes on, and what is sent to each client after its ACCEPT packet are the echoes of the MESSAGE
frames that this client has sent, in this order, and nothing else. -/
theorem echoes_of_frames {packetType : Word} {state : LoopState S} {tr : List (Event S)}
    (h : (serverLoop CServer.handlers server).Reachable Admissible
      (LoopState.initial server packetType) state tr)
    (hframes : ∀ data ∈ tr.filterMap Event.received, IsFrame data)
    (hthrow : ∀ e ∈ tr, ¬ e.IsThrow) :
    (∀ fault, state.status ≠ .thrown fault) ∧
      ∀ client, client ≠ server → ∀ pre post,
        session client tr = pre ++ .sendBytes client PacketType.accept.word.bytes :: post →
        post.filterMap Event.sent = (post.filterMap Event.received).filterMap echoOf := by
  obtain ⟨hstatus, hinv⟩ := sessionInv_of_reachable h hframes hthrow
  refine ⟨hstatus, fun client hclient pre post hsplit => ?_⟩
  cases hinv client hclient with
  | absent _ haccept =>
      exact absurd rfl (haccept (.sendBytes client PacketType.accept.word.bytes) (by simp [hsplit]))
  | admitted host post' hsession haccept hecho =>
      rw [hsession] at hsplit
      -- the ACCEPT packet is sent right after the acceptance, and only then
      rcases pre with _ | ⟨e₁, _ | ⟨e₂, pre⟩⟩
      · simp at hsplit
      · simp only [List.singleton_append, List.cons.injEq, true_and] at hsplit
        obtain ⟨-, rfl⟩ := hsplit
        exact hecho
      · simp only [List.cons_append, List.cons.injEq] at hsplit
        exact absurd rfl (haccept (.sendBytes client PacketType.accept.word.bytes)
          (by simp [hsplit.2.2]))

/-- What handling a MESSAGE frame with one character does. -/
def echoTrace (client : ℕ) (c : UInt8) : List (Event ℕ) :=
  [.receiveBytes client (.bytes (messageFrame [c, 0])),
    .packetHandler client PacketType.message.word, .handler (.processPacket client [c, 0]),
    .handler (.sendBytes client (messageFrame [c, 0]))]

/-- Two clients send a MESSAGE in the same round; what the first one is sent. -/
theorem echoes_of_frames_of_two :
    (echoTrace 1 0x41).filterMap Event.sent =
      ((echoTrace 1 0x41).filterMap Event.received).filterMap echoOf := by
  have hrun : (serverLoop CServer.handlers 0).run twoReady
      [.receive (.bytes (messageFrame [0x41, 0])) .zero,
        .receive (.bytes (messageFrame [0x42, 0])) .zero] =
      some ({ twoReady with packetType := PacketType.message.word, readList := [] },
        echoTrace 1 0x41 ++ echoTrace 2 0x42) := rfl
  have hreach := reachable_twoReady.run _ (by decide) hrun
  refine (echoes_of_frames hreach ?_ ?_).2 1 (by decide) [.acceptConnection 1 "a"] _ rfl
  · intro data hdata
    have hdata : data ∈ [messageFrame [0x41, 0], messageFrame [0x42, 0]] := hdata
    simp only [List.mem_cons, List.not_mem_nil, or_false] at hdata
    rcases hdata with rfl | rfl
    · exact .inl ⟨[0x41, 0], by simp, rfl⟩
    · exact .inl ⟨[0x42, 0], by simp, rfl⟩
  · rintro e he ⟨c, rfl | rfl⟩ <;> simp [twoReadyTrace, echoTrace] at he

end PocoEcho

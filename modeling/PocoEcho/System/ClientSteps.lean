import PocoEcho.System.ServerSteps

/-!
# Steps of a client

The steps of a client program keep the invariant of the system. They change what the user of this
client waits for when a message is entered or displayed, and nothing for anybody else.

## Main results

* `EchoSystem.Inv.of_connectNB`, `EchoSystem.Inv.of_tryConnect`, `EchoSystem.Inv.of_client` and
  `EchoSystem.Inv.of_enter`: the steps of a client program keep the invariant.
-/

namespace PocoEcho

open Poco

namespace EchoSystem

variable {S : Type} [DecidableEq S] {system system' : EchoSystem S} {queue : S → List CString}
  {client : S} {es : List (Event S)}

/-- A step of a client that has connected and has not closed its end keeps the invariant if the
situation of its own connection is as it should be. -/
theorem Inv.of_setConnection (hinv : Inv system queue) {connection : Connection}
    (hphase : (system.connection client).phase ≠ .idle)
    (hopen : (system.connection client).clientClosed = false) {up down : List EchoedMessage}
    (hsituation : Situation (system.setConnection client connection) client up down) :
    Inv (system.setConnection client connection)
      (Function.update queue client ((down ++ up).map EchoedMessage.szMessage)) where
  nodup := hinv.nodup
  fresh := hinv.fresh
  dropped other hdrop := by
    have hclosed := hinv.dropped other hdrop
    have hne : other ≠ client := by
      rintro rfl
      rw [hclosed] at hopen
      cases hopen
    rwa [connection_setConnection_of_ne system hne]
  not_thrown := hinv.not_thrown
  situation other := by
    by_cases hne : other = client
    · subst hne
      exact ⟨up, down, hsituation, Function.update_self ..⟩
    · obtain ⟨up', down', hbefore, hqueue⟩ := hinv.situation other
      refine ⟨up', down', hbefore.frame (system.connection other).serverClosed ?_ id Iff.rfl .inl
        (fun h _ => h) fun _ => id, ?_⟩
      · exact connection_setConnection_of_ne system hne connection
      · rw [Function.update_of_ne hne, hqueue]

/-- A client connects. -/
theorem Inv.of_connectNB (hinv : Inv system queue)
    (hs : (echoSystem S).step system (.connectNB client) = some (system', es)) :
    Inv system' queue ∧ es = [] := by
  cases ClientStep.of_step hs (by simp) with
  | connectNB hserver hphase hne =>
    refine ⟨?_, rfl⟩
    -- the connection is new to the server
    obtain ⟨up, down, hsituation, hqueue⟩ := hinv.situation client
    obtain ⟨rfl, rfl, hup, hdown, hbacklog, hclients⟩ := hsituation.of_idle hphase
    have hnew : client ∉ system.clients := by
      intro hmem
      rw [hclients hmem, Option.some.injEq] at hserver
      exact hne hserver
    refine
      { nodup := ?_
        fresh := ?_
        dropped := ?_
        not_thrown := hinv.not_thrown
        situation := ?_ }
    · -- the connection waits in the backlog once
      exact List.nodup_append.mpr ⟨hinv.nodup, List.nodup_singleton _, by
        rintro a ha b hb rfl
        exact hbacklog (List.mem_singleton.mp hb ▸ ha)⟩
    · intro other hother
      rcases List.mem_append.mp hother with hother | hother
      · exact hinv.fresh other hother
      · exact List.mem_singleton.mp hother ▸ hnew
    · intro other hdrop
      have hclosed := hinv.dropped other hdrop
      -- nothing has been dropped of a connection that has just been made
      have hother : other ≠ client := by
        rintro rfl
        rw [Connection.clientClosed_of_idle hphase] at hclosed
        cases hclosed
      rwa [connection_setConnection_of_ne system hother]
    · intro other
      by_cases heq : other = client
      · subst heq
        refine ⟨[], [], .waiting ?_ ?_ ?_ (by simp), hqueue⟩
        · rw [connection_setConnection_self]
        · rw [connection_setConnection_self]
          exact hup
        · rw [connection_setConnection_self]
          exact hdown
      · -- the others see one more connection that waits, and nothing else
        obtain ⟨up', down', hbefore, hqueue'⟩ := hinv.situation other
        refine ⟨up', down', hbefore.frame (system.connection other).serverClosed ?_ id ?_ .inl
          (fun h _ => h) fun _ => id, hqueue'⟩
        · exact connection_setConnection_of_ne system heq _
        · simp [heq]

/-! ## The handshake -/

omit [DecidableEq S] in
/-- A client that receives ACCEPT starts its threads. -/
theorem tryConnect_of_accepted {attempt : ConnectAttempt} (h : attempt.handshake.Accepted)
    (packetType : Word) : tryConnect attempt packetType = .running (.initial packetType) := by
  have hfinal := (attempt.handshake.finalType_eq_accept_iff attempt.packetType).mpr (.inl h)
  rw [tryConnect, CClient.tryConnect_of_accept () hfinal]
  rfl

omit [DecidableEq S] in
/-- A client that does not receive ACCEPT ends, unless it misreads the packet type. -/
theorem tryConnect_of_not_accepted {attempt : ConnectAttempt} (h : ¬ attempt.handshake.Accepted)
    (hread : ¬ attempt.handshake.Misread attempt.packetType) (packetType : Word) :
    tryConnect attempt packetType = .ended := by
  have hfinal : attempt.handshake.finalType attempt.packetType ≠ some PacketType.accept.word :=
    fun heq => ((attempt.handshake.finalType_eq_accept_iff attempt.packetType).mp heq).elim h hread
  rw [tryConnect, CClient.tryConnect_eq, if_neg hfinal]
  rfl

/-- The rest of `TryConnect`, and `Run`. -/
theorem Inv.of_tryConnect (hinv : Inv system queue) {attempt : ConnectAttempt} {packetType : Word}
    (hadm : Admissible Channel.DeliversSegment system (.tryConnect client attempt packetType))
    (hs : (echoSystem S).step system (.tryConnect client attempt packetType) =
      some (system', es)) : Inv system' queue ∧ es = [] := by
  cases ClientStep.of_step hs (by simp) with
  | tryConnect hphase =>
    refine ⟨?_, rfl⟩
    obtain ⟨hconnect, hpoll, hallows, hread⟩ := hadm
    obtain ⟨up, down, hsituation, hqueue⟩ := hinv.situation client
    obtain ⟨rfl, rfl, hup, hcases⟩ := hsituation.of_handshake hphase
    have hnil : queue = Function.update queue client
        ((([] : List EchoedMessage) ++ []).map EchoedMessage.szMessage) := by
      rw [← hqueue, Function.update_eq_self]
    rw [hnil]
    refine hinv.of_setConnection (by simp [hphase]) (Connection.clientClosed_of_handshake hphase) ?_
    by_cases haccepted : attempt.handshake.Accepted
    · have htry := tryConnect_of_accepted haccepted packetType
      rw [haccepted.2.2] at hallows ⊢
      -- ACCEPT can only have come from a server that has admitted the client
      rcases hcases with ⟨-, hdown⟩ | ⟨hbacklog, hclients, hdown⟩ | ⟨-, hdown⟩
      · exact absurd hallows (Channel.not_deliversSegment_of_nil hdown _ _)
      · have hreceived := Channel.segments_receive_length hdown (by simp)
        refine .running (by rw [connection_setConnection_self, htry]) ?_ ?_ hbacklog
          fun _ => hclients
        · rw [connection_setConnection_self]
          exact hup ▸ .nil
        · rw [connection_setConnection_self]
          exact
            { segments_eq := hreceived
              not_thrown := by simp [ClientState.initial]
              socketLive_iff := by simp [ClientState.initial]
              payload := by rintro ⟨⟩
              packetType := by rintro ⟨⟩ }
      · -- what a server has sent that kicks the client is KICK
        have heq := ((Channel.deliversSegment_cons_iff hdown).mp hallows).2
        exact absurd heq (by decide)
    · -- the client ends, and nothing of it is on its way to the server
      have htry := tryConnect_of_not_accepted haccepted hread packetType
      refine .ended (by rw [connection_setConnection_self, htry]) ?_
      rw [connection_setConnection_self]
      exact (congrArg Channel.segments (upstream_observeClient _ _)).trans hup

/-! ## The threads of the client -/

/-- A step of the update thread of a client displays the message that its user has waited for the
longest, or none. -/
theorem Inv.of_client (hinv : Inv system queue) {input : ClientInput}
    (hadm : Admissible Channel.DeliversSegment system (.client client input))
    (hs : (echoSystem S).step system (.client client input) = some (system', es)) :
    ∃ (events : List (ClientEvent ConsoleEvent)) (ms : List CString),
      es = events.map (.client client) ∧
      queue client = events.filterMap ClientEvent.displayed ++ ms ∧
      (events.filterMap ClientEvent.displayed).length ≤ 1 ∧
      Inv system' (Function.update queue client ms) := by
  cases ClientStep.of_step hs (by simp) with
  | @client _ loop loop' _ events hphase hstep =>
    obtain ⟨up, down, hsituation, hqueue⟩ := hinv.situation client
    obtain ⟨hup, hdown, hbacklog, hclients⟩ := hsituation.of_running hphase
    -- what is displayed has been the first echo on its way
    obtain ⟨shown, down', downstream', rfl, hshown, hobserve, hnext⟩ := hdown.step hadm hstep
    refine ⟨events, (down' ++ up).map EchoedMessage.szMessage, rfl, ?_, ?_, ?_⟩
    · rw [hqueue, hshown, ← List.map_append, List.append_assoc]
    · rw [hshown, List.length_map]
      cases shown <;> simp
    · have hlive := hdown.socketLive_iff.mpr (ClientLoop.running_of_step hstep)
      refine hinv.of_setConnection (by simp [hphase]) ?_ ?_
      · rw [Connection.clientClosed_of_running hphase, hlive]
        rfl
      · refine .running (by rw [connection_setConnection_self]) ?_ ?_ hbacklog
          fun _ => hclients hlive
        · rw [connection_setConnection_self, hobserve]
          exact hup
        · rw [connection_setConnection_self, hobserve]
          exact hnext

/-- A message that is entered is one more that the user waits for. -/
theorem Inv.of_enter (hinv : Inv system queue) {szMessage : CString} {behind : List UInt8}
    {delivery : Delivery}
    (hadm : Admissible delivery system (.enter client szMessage behind))
    (hs : (echoSystem S).step system (.enter client szMessage behind) = some (system', es)) :
    es = [.entered client szMessage] ∧
      Inv system' (Function.update queue client (queue client ++ [szMessage])) := by
  cases ClientStep.of_step hs (by simp) with
  | @enter _ loop hphase =>
    obtain ⟨hle, hbehind, hopen⟩ := hadm
    refine ⟨rfl, ?_⟩
    have hlive : loop.socketLive = true := by
      rw [Connection.clientClosed_of_running hphase] at hopen
      simpa using hopen
    obtain ⟨up, down, hsituation, hqueue⟩ := hinv.situation client
    obtain ⟨hup, hdown, hbacklog, hclients⟩ := hsituation.of_running hphase
    obtain ⟨segment, hframe, henter⟩ :=
      enter_eq (system.connection client) hlive ⟨szMessage, hle⟩ hbehind
    -- the frame goes behind all that is on its way to the server
    have hqueue' : queue client ++ [szMessage] =
        (down ++ (up ++ [EchoedMessage.mk szMessage hle])).map EchoedMessage.szMessage := by
      simp [hqueue]
    rw [hqueue']
    refine hinv.of_setConnection (by simp [hphase]) hopen ?_
    rw [henter]
    refine .running ?_ ?_ ?_ hbacklog hclients
    · rw [connection_setConnection_self]
      exact hphase
    · rw [connection_setConnection_self]
      exact List.rel_append hup (.cons hframe .nil)
    · rw [connection_setConnection_self]
      exact hdown

end EchoSystem

end PocoEcho

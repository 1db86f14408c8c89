import PocoEcho.Client.Reassembly
import PocoEcho.Server.Dispatch

/-!
# The way of a message and its echo

A message that is entered on the client's console is encoded by `ListenAction`, decoded and encoded
once more by the server, and displayed by the client. The two encoders count the terminator
differently and the first one sends what it finds behind the message, but each decoder stops at the
first NUL.

## Main results

* `handleData_of_terminated`: the server takes the message off the client's frame;
* `run_ofMessage`: the client displays the message that it takes off the server's frame;
* `round_trip`: the two together.
-/

namespace PocoEcho

open Poco

/-- The frame of a stored message that fits: the message, its terminator, and some of the memory
behind it. -/
theorem content_of_storeMessage (manager : CActionManager) {m : CString}
    (hle : m.chars.length ≤ 1015) {behind : List UInt8} (hbehind : 2 ≤ behind.length) :
    ∃ buffer stray, CClient.listenAction ((manager.storeMessage m behind).setActionType 1) =
        .ok (true, some buffer, .new) ∧
      buffer.content = PacketType.message.word.bytes ++
        ((Word.ofNat (m.chars.length + 2)).bytes ++ (m.chars ++ 0 :: stray)) ∧
      buffer.content.length ≤ maxBufferLength := by
  have hmapped : m.chars.length + 3 ≤ m.chars.length + 1 + behind.length := by omega
  obtain ⟨buffer, hsent, hcontent⟩ :=
    CClient.listenAction_storeMessage manager m ((Nat.min_le_left _ _).trans hmapped)
  refine ⟨buffer, (behind.take 2).take (1015 - m.chars.length), hsent, ?_,
    hcontent ▸ List.length_take_le _ _⟩
  have htype := PacketType.message.word.length_eq
  have hfield := (Word.ofNat (m.chars.length + 2)).length_eq
  have hroom : maxBufferLength - 4 - 4 = m.chars.length + (1015 - m.chars.length + 1) := by
    rw [maxBufferLength]
    omega
  -- the two fields and the terminated message fit; what is found behind them may be cut off
  rw [hcontent, List.append_assoc, List.take_append, List.take_append, htype, hfield, hroom,
    List.take_of_length_le (by rw [htype, maxBufferLength]; omega),
    List.take_of_length_le (by rw [hfield, maxBufferLength]; omega), List.take_length_add_append,
    List.take_succ_cons]

/-- Handling a MESSAGE whose declared length covers a string and its terminator. -/
theorem handleData_of_terminated {S : Type} (state : LoopState S) (client : S) {m : CString}
    {n : ℕ} (hn : m.chars.length < n) (hn' : n < 2 ^ 31) {tail : List UInt8}
    (hfits : (PacketType.message.word.bytes ++
      ((Word.ofNat n).bytes ++ (m.chars ++ 0 :: tail))).length ≤ maxBufferLength)
    (stray : Stray) :
    ∃ rest, ServerLoop.handleData CServer.handlers state client
        (PacketType.message.word.bytes ++ ((Word.ofNat n).bytes ++ (m.chars ++ 0 :: tail)))
        ⟨stray, none⟩ =
      ⟨[.packetHandler client PacketType.message.word,
          .handler (.processPacket client (m.chars ++ 0 :: rest)),
          .handler (.sendBytes client (CServer.reply m))],
        .ok { state with packetType := PacketType.message.word }⟩ := by
  have hbody : (ServerLoop.chunkBody (PacketType.message.word.bytes ++
      ((Word.ofNat n).bytes ++ (m.chars ++ 0 :: tail)))).content =
        (Word.ofNat n).bytes ++ (m.chars ++ 0 :: tail) := by
    rw [ServerLoop.content_chunkBody hfits, List.drop_left' PacketType.message.word.length_eq]
  have htype := ServerLoop.chunkType_of_append state.packetType PacketType.message.word
    ((Word.ofNat n).bytes ++ (m.chars ++ 0 :: tail))
  generalize PacketType.message.word.bytes ++ ((Word.ofNat n).bytes ++ (m.chars ++ 0 :: tail)) =
    chunk at hbody htype
  obtain ⟨hlen, hpayload⟩ := MessageBody.receivedPayload_of_append stray hn' hbody
  -- the declared length reaches beyond the terminator
  have hreceived : MessageBody.receivedPayload stray (ServerLoop.chunkBody chunk) =
      m.chars ++ 0 :: tail.take (n - m.chars.length - 1) := by
    obtain ⟨k, rfl⟩ : ∃ k, n = m.chars.length + (k + 1) := ⟨n - m.chars.length - 1, by omega⟩
    rw [hpayload, List.take_length_add_append, List.take_succ_cons]
    congr 3
    omega
  have hnonneg : 0 ≤ MessageBody.declaredLength stray (ServerLoop.chunkBody chunk) := by
    rw [hlen]
    exact Int.natCast_nonneg n
  obtain ⟨buffer, hdecode⟩ := MessageBody.decode_of_nonneg hnonneg
  have hstring : (MessageBody.messageArray stray (ServerLoop.chunkBody chunk)).cString =
      some m := by
    rw [MessageBody.cString_messageArray (by simp [hreceived]), hreceived,
      CString.ofPrefix_append]
  obtain ⟨rest, hdata⟩ : ∃ rest,
      (MessageBody.messageArray stray (ServerLoop.chunkBody chunk)).data =
        m.chars ++ 0 :: rest := by
    simp only [MessageBody.messageArray, hreceived, List.append_assoc, List.cons_append]
    exact ⟨_, rfl⟩
  have hhandler := CServer.packetHandler_message stray client hdecode
  rw [hstring, hdata] at hhandler
  refine ⟨rest, ?_⟩
  ext1
  · rw [log_handleData, htype, hhandler]
    rfl
  · rw [result_handleData, htype, hhandler]
    rfl

/-- The client displays the message that it takes off the server's frame, whatever it finds in
memory. -/
theorem run_ofMessage (m : EchoedMessage) (stale : Word) (stray : Stray) :
    (clientLoop CClient.handlers).run (.initial stale)
        [.poll true, .receiveType (.bytes (m.frame.take 4)),
          .receivePayload (.bytes (m.frame.drop 4)) ⟨stray, none⟩] =
      some (.initial PacketType.message.word,
        [.poll true, .receiveBytes (.bytes (m.frame.take 4)),
          .receiveBytes (.bytes (m.frame.drop 4)), .packetHandler PacketType.message.word,
          .handler (.message m.szMessage)]) := by
  have htype : m.frame.take 4 = PacketType.message.word.bytes := by
    rw [m.frame_eq]
    rfl
  have hword : (Iteration.ofMessage m).word stale = PacketType.message.word :=
    Word.overwrite_bytes _ _
  have hrun := CClient.run_iteration (Iteration.ofMessage m) stale stray
  obtain ⟨rest, hhandler⟩ := CClient.packetHandler_rest stray m
    (Iteration.ofMessage m).content_buffer
  rw [CClient.eventsOf, hword, hhandler] at hrun
  rw [htype]
  exact hrun

/-- The frame that `ListenAction` builds for a stored message is decoded by the server, as a MESSAGE
packet whose array holds the message and its terminator. The server sends the whole frame of the
message, which the client reads in two parts and displays. -/
def RoundTrips {S : Type} [DecidableEq S] (m : CString) (manager : CActionManager)
    (behind : List UInt8) (server client : S) (state : LoopState S) (serverStray : Stray)
    (stale : Word) (clientStray : Stray) : Prop :=
  ∃ buffer rest,
    CClient.listenAction ((manager.storeMessage m behind).setActionType 1) =
      .ok (true, some buffer, .new) ∧
    (serverLoop CServer.handlers server).step state
        (.receive (.bytes buffer.content) ⟨serverStray, none⟩) =
      some ({ state with
          readList := state.readList.tail, packetType := PacketType.message.word },
        [.receiveBytes client (.bytes buffer.content),
          .packetHandler client PacketType.message.word,
          .handler (.processPacket client (m.chars ++ 0 :: rest)),
          .handler (.sendBytes client (messageFrame m.terminated))]) ∧
    (clientLoop CClient.handlers).run (.initial stale)
        [.poll true, .receiveType (.bytes ((messageFrame m.terminated).take 4)),
          .receivePayload (.bytes ((messageFrame m.terminated).drop 4)) ⟨clientStray, none⟩] =
      some (.initial PacketType.message.word,
        [.poll true, .receiveBytes (.bytes ((messageFrame m.terminated).take 4)),
          .receiveBytes (.bytes ((messageFrame m.terminated).drop 4)),
          .packetHandler PacketType.message.word, .handler (.message m)])

/-- Every message that fits comes back to the client, from any state of the server in which it is
about to receive from the client, and whatever server and client find in memory. -/
theorem round_trip {S : Type} [DecidableEq S] {server client : S} (hclient : client ≠ server)
    {state : LoopState S} (hstate : state.AtReceive client) {m : CString}
    (hle : m.chars.length ≤ 1015) {behind : List UInt8} (hbehind : 2 ≤ behind.length)
    (manager : CActionManager) (serverStray clientStray : Stray) (stale : Word) :
    RoundTrips m manager behind server client state serverStray stale clientStray := by
  obtain ⟨buffer, tail, hsent, hcontent, hfits⟩ := content_of_storeMessage manager hle hbehind
  obtain ⟨hrun, readRest, hread⟩ := hstate.exists_readList
  rw [hcontent] at hfits
  obtain ⟨rest, hdata⟩ := handleData_of_terminated { state with readList := readRest } client
    (by omega) (by omega) hfits serverStray
  -- the server's turn, then the client's
  have hstep := ServerLoop.step_receive CServer.handlers state hrun hread hclient buffer.content
    ⟨serverStray, none⟩
  rw [hcontent, hdata, ← hcontent] at hstep
  have hreply : CServer.reply m = messageFrame m.terminated := CServer.reply_of_length_le hle
  refine ⟨buffer, rest, hsent, ?_, ?_⟩
  · rw [hstep, hread, hreply]
    rfl
  · have hdisplay := run_ofMessage ⟨m, hle⟩ stale clientStray
    simp only [EchoedMessage.frame, hreply] at hdisplay
    exact hdisplay

/-- The message "A" on a server that is about to receive from its only client. -/
theorem round_trip_of_letter :
    RoundTrips ⟨[0x41], by decide⟩ .new [7, 8] 0 1
      { clients := [0, 1], packetType := PacketType.accept.word, readList := [1], dropList := []
        status := .running }
      HandlerEnv.zero.stray (Word.ofNat 0) HandlerEnv.zero.stray :=
  round_trip (by decide) ⟨rfl, rfl⟩ (by decide) (by decide) .new _ _ _

end PocoEcho

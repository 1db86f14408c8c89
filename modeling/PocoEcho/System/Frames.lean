import PocoEcho.RoundTrip
import PocoEcho.System.Steps

/-!
# Messages on the streams

What becomes of a message on its way when each receive returns what was sent with one call: the
console thread of the client sends a frame, the server answers it with the echo, and the update
thread of the client takes the echo in two parts and displays the message.

## Main definitions

* `IsClientFrame`: the frames that `ListenAction` sends for a message;
* `Receiving`: where the update thread of a client stands, given the echoes on their way to it.

## Main results

* `EchoSystem.enter_eq`, `step_of_isClientFrame` and `Receiving.step`: the three parts of the way.
-/

namespace PocoEcho

open Poco

/-- A frame that `ListenAction` sends for the message: its declared length covers the terminator and
one more byte, and behind the terminator is what was found in memory. -/
def IsClientFrame (m : EchoedMessage) (segment : List UInt8) : Prop :=
  segment.length ≤ maxBufferLength ∧ ∃ stray, segment = PacketType.message.word.bytes ++
    ((Word.ofNat (m.szMessage.chars.length + 2)).bytes ++ (m.szMessage.chars ++ 0 :: stray))

namespace IsClientFrame

variable {m : EchoedMessage} {segment : List UInt8}

theorem ne_nil (h : IsClientFrame m segment) : segment ≠ [] := by
  obtain ⟨-, stray, rfl⟩ := h
  apply List.ne_nil_of_length_pos
  rw [List.length_append, Word.length_eq]
  omega

end IsClientFrame

/-- The frames of the messages are not empty. -/
theorem ne_nil_of_forall₂ {up : List EchoedMessage} {segments : List (List UInt8)}
    (h : List.Forall₂ IsClientFrame up segments) : ∀ s ∈ segments, s ≠ [] := by
  induction h with
  | nil => simp
  | cons hframe _ ih =>
      intro s hs
      rcases List.mem_cons.mp hs with rfl | hs
      · exact hframe.ne_nil
      · exact ih s hs

/-- Nothing is on its way up exactly when no message is. -/
theorem bytes_eq_nil_iff {up : List EchoedMessage} {channel : Channel UInt8}
    (h : List.Forall₂ IsClientFrame up channel.segments) : channel.bytes = [] ↔ up = [] := by
  rw [Channel.bytes]
  generalize channel.segments = segments at h
  cases h with
  | nil => exact iff_of_true rfl rfl
  | cons hframe _ => simp [hframe.ne_nil]

/-! ## The console thread of the client -/

/-- A message that is entered while the socket exists is sent as a frame. -/
theorem EchoSystem.enter_eq (connection : Connection) {loop : ClientState}
    (hlive : loop.socketLive = true) (m : EchoedMessage) {behind : List UInt8}
    (hbehind : 2 ≤ behind.length) :
    ∃ segment, IsClientFrame m segment ∧
      EchoSystem.enter connection loop m.szMessage behind =
        { connection with manager := .new, upstream := connection.upstream.send segment } := by
  obtain ⟨buffer, stray, hsent, hcontent, hfits⟩ :=
    content_of_storeMessage connection.manager m.length_le hbehind
  refine ⟨buffer.content, ⟨hfits, stray, hcontent⟩, ?_⟩
  simp only [EchoSystem.enter, hsent, hlive, if_true]

/-! ## The server -/

/-- A frame of a client that is received whole is answered with the echo of its message. -/
theorem step_of_isClientFrame {S : Type} [DecidableEq S] {server client : S} {loop : LoopState S}
    {rest : List S} (hrun : loop.status = .running) (hread : loop.readList = client :: rest)
    (hclient : client ≠ server) {m : EchoedMessage} {segment : List UInt8}
    (h : IsClientFrame m segment) (stray : Stray) :
    ∃ tail,
      (serverLoop CServer.handlers server).step loop (.receive (.bytes segment) ⟨stray, none⟩) =
      some ({ loop with readList := rest, packetType := PacketType.message.word },
        [.receiveBytes client (.bytes segment),
          .packetHandler client PacketType.message.word,
          .handler (.processPacket client (m.szMessage.chars ++ 0 :: tail)),
          .handler (.sendBytes client m.frame)]) := by
  obtain ⟨hfits, behind, rfl⟩ := h
  have hle := m.length_le
  obtain ⟨tail, hdata⟩ := handleData_of_terminated { loop with readList := rest } client
    (by omega) (by omega) hfits stray
  have hstep := ServerLoop.step_receive CServer.handlers loop hrun hread hclient
    (PacketType.message.word.bytes ++ ((Word.ofNat (m.szMessage.chars.length + 2)).bytes ++
      (m.szMessage.chars ++ 0 :: behind))) ⟨stray, none⟩
  rw [hdata] at hstep
  exact ⟨tail, hstep⟩

/-! ## The update thread of the client -/

/-- The rest of an echo, behind the packet type. -/
theorem EchoedMessage.drop_frame (m : EchoedMessage) :
    m.frame.drop 4 ≠ [] ∧ (m.frame.drop 4).length ≤ maxBufferLength := by
  have hle := m.length_le
  refine ⟨?_, ?_⟩
  · rw [m.frame_eq]
    exact List.cons_ne_nil _ _
  · rw [List.length_drop, m.length_frame, EchoedMessage.length, maxBufferLength]
    omega

/-- The segments on their way to a client that stands at this point, when these echoes are. -/
def expectedSegments (point : ClientPoint) (down : List EchoedMessage) : List (List UInt8) :=
  match point, down with
  -- the packet type of the first echo has been received
  | .payload, m :: ms => m.frame.drop 4 :: ms.map EchoedMessage.frame
  | _, ms => ms.map EchoedMessage.frame

/-- The update thread of the client receives the echoes, from a downstream that holds them. -/
structure Receiving (loop : ClientState) (down : List EchoedMessage) (downstream : Channel UInt8)
    (serverClosed : Bool) : Prop where
  /-- The echoes are on their way, and nothing else is. -/
  segments_eq : downstream.segments = expectedSegments loop.point down
  /-- No exception has left the loop. -/
  not_thrown : ∀ fault, loop.status ≠ .thrown fault
  /-- The socket exists as long as the loop runs, and no longer. -/
  socketLive_iff : loop.socketLive = true ↔ loop.status = .running
  /-- The packet type of an echo has been received. -/
  payload : loop.point = .payload → loop.packetType = PacketType.message.word ∧ down ≠ []
  /-- `poll` has seen something to read. -/
  packetType : loop.point = .packetType → down ≠ [] ∨ serverClosed = true

namespace Receiving

variable {loop : ClientState} {down : List EchoedMessage} {downstream : Channel UInt8}
  {serverClosed : Bool}

/-- One more echo is sent. -/
theorem send (h : Receiving loop down downstream serverClosed) (m : EchoedMessage) :
    Receiving loop (down ++ [m]) (downstream.send m.frame) serverClosed where
  segments_eq := by
    rw [Channel.segments_send, h.segments_eq]
    cases hpoint : loop.point with
    | poll => simp [expectedSegments]
    | packetType => simp [expectedSegments]
    | payload =>
        obtain ⟨m', ms, rfl⟩ := List.exists_cons_of_ne_nil (h.payload hpoint).2
        simp [expectedSegments]
  not_thrown := h.not_thrown
  socketLive_iff := h.socketLive_iff
  payload hpoint := ⟨(h.payload hpoint).1, by simp⟩
  packetType _ := .inl (by simp)

/-- The server closes its end. -/
theorem close (h : Receiving loop down downstream serverClosed) :
    Receiving loop down downstream true :=
  { h with packetType := fun _ => .inr rfl }

/-- The client closes its end. -/
theorem leave (h : Receiving loop down downstream serverClosed) :
    Receiving { loop with socketLive := false, status := .exited } down downstream
      serverClosed where
  segments_eq := h.segments_eq
  not_thrown := by simp
  socketLive_iff := by simp
  payload := h.payload
  packetType := h.packetType

/-- Where nothing is on its way, no echo is, and the packet type of none has been received. -/
theorem down_eq_nil (h : Receiving loop down downstream serverClosed)
    (hbytes : downstream.bytes = []) : down = [] ∧ loop.point ≠ .payload := by
  rw [Channel.bytes, h.segments_eq] at hbytes
  cases down with
  | nil => exact ⟨rfl, fun hpoint => (h.payload hpoint).2 rfl⟩
  | cons m ms =>
      -- the frame is there, or the part of it behind the packet type
      cases hpoint : loop.point <;> rw [hpoint] at hbytes <;>
        simp [expectedSegments, m.frame_eq] at hbytes

/-- The first receive of an iteration returns the packet type of the first echo. -/
theorem type_of_delivers (h : Receiving loop down downstream serverClosed)
    (hpoint : loop.point = .packetType) {data : List UInt8}
    (hdata : downstream.DeliversSegment 4 data) :
    data = PacketType.message.word.bytes ∧
      Receiving { loop with
        packetType := loop.packetType.overwrite data, point := .payload } down
        (downstream.receive data.length) serverClosed := by
  have hsegments := h.segments_eq
  rw [hpoint] at hsegments
  cases down with
  | nil => exact absurd hdata (Channel.not_deliversSegment_of_nil hsegments _ _)
  | cons m ms =>
      -- the frame is longer than the four bytes that are asked for, so its rest stays on the stream
      have htake : m.frame.take 4 = PacketType.message.word.bytes := by
        rw [m.frame_eq]
        rfl
      obtain rfl : data = PacketType.message.word.bytes :=
        ((Channel.deliversSegment_cons_iff hsegments).mp hdata).2.trans htake
      have hlt : PacketType.message.word.bytes.length < m.frame.length := by
        rw [Word.length_eq, m.length_frame]
        omega
      refine ⟨rfl, ?_⟩
      refine
        { segments_eq := ?_
          not_thrown := h.not_thrown
          socketLive_iff := h.socketLive_iff
          payload := fun _ => ⟨Word.overwrite_bytes _ _, List.cons_ne_nil _ _⟩
          packetType := by rintro ⟨⟩ }
      rw [Channel.segments_receive_of_lt hsegments hlt]
      rfl

/-- The second receive returns the rest of the echo. -/
theorem payload_of_delivers (h : Receiving loop down downstream serverClosed)
    (hpoint : loop.point = .payload) {data : List UInt8}
    (hdata : downstream.DeliversSegment maxBufferLength data) :
    ∃ m ms, down = m :: ms ∧ data = m.frame.drop 4 ∧
      Receiving { loop with point := .poll } ms (downstream.receive data.length) serverClosed := by
  obtain ⟨m, ms, rfl⟩ := List.exists_cons_of_ne_nil (h.payload hpoint).2
  have hsegments := h.segments_eq
  rw [hpoint] at hsegments
  obtain rfl : data = m.frame.drop 4 := by
    rw [((Channel.deliversSegment_cons_iff hsegments).mp hdata).2,
      List.take_of_length_le m.drop_frame.2]
  refine ⟨m, ms, rfl, rfl, ?_⟩
  refine
    { segments_eq := ?_
      not_thrown := h.not_thrown
      socketLive_iff := h.socketLive_iff
      payload := by rintro ⟨⟩
      packetType := by rintro ⟨⟩ }
  rw [Channel.segments_receive_length hsegments]
  · rfl
  · intro s hs
    -- what is left are whole frames, none of which is empty
    obtain ⟨m', -, rfl⟩ := List.mem_map.mp hs
    rw [m'.frame_eq]
    exact List.cons_ne_nil _ _

end Receiving

/-- The handlers of the client display the message of an echo. -/
theorem CClient.dispatch_echo (m : EchoedMessage) (stray : Stray) :
    ∃ rest, ClientLoop.dispatch CClient.handlers ⟨stray, none⟩ PacketType.message.word
        ((BoundedQueue.empty maxBufferLength).write (m.frame.drop 4)) =
      ⟨[.packetHandler PacketType.message.word, .handler (.message m.szMessage)], .ok rest⟩ := by
  have hcontent : ((BoundedQueue.empty maxBufferLength).write (m.frame.drop 4)).content =
      m.frame.drop 4 := (Iteration.ofMessage m).content_buffer
  obtain ⟨rest, hhandler⟩ := CClient.packetHandler_rest stray m hcontent
  refine ⟨rest, ?_⟩
  rw [CClient.dispatch_handlers, hhandler]
  rfl

/-- No call of the client throws on an admissible input. -/
theorem EchoSystem.ClientAdmissible.noThrow {delivery : Delivery} {connection : Connection}
    {input : ClientInput} (h : ClientAdmissible delivery connection input) : input.NoThrow := by
  cases input with
  | closeRequested => trivial
  | poll ready => trivial
  | pollThrows => exact h
  | receiveType result =>
      rintro rfl
      exact h
  | receivePayload result env =>
      refine ⟨?_, h.2⟩
      rintro rfl
      exact h.1

/-- A step of the update thread takes at most one echo off the stream, and displays it. -/
theorem Receiving.step {loop loop' : ClientState} {down : List EchoedMessage}
    {connection : Connection} {input : ClientInput} {es : List (ClientEvent ConsoleEvent)}
    (h : Receiving loop down connection.downstream connection.serverClosed)
    (hadm : EchoSystem.ClientAdmissible Channel.DeliversSegment connection input)
    (hs : (clientLoop CClient.handlers).step loop input = some (loop', es)) :
    ∃ (shown : Option EchoedMessage) (down' : List EchoedMessage) (downstream' : Channel UInt8),
      down = shown.toList ++ down' ∧
      es.filterMap ClientEvent.displayed = shown.toList.map EchoedMessage.szMessage ∧
      es.foldl Connection.observeClient connection =
        { connection with downstream := downstream' } ∧
      Receiving loop' down' downstream' connection.serverClosed := by
  have hlive := h.socketLive_iff.mpr (ClientLoop.running_of_step hs)
  cases ClientLoop.progress_of_step CClient.careful_handlers hlive hadm.noThrow hs with
  -- nothing is received until `poll` has returned
  | close hpoint => exact ⟨none, down, connection.downstream, rfl, rfl, rfl, h.leave⟩
  | poll hpoint ready =>
      refine ⟨none, down, connection.downstream, rfl, rfl, rfl, ?_⟩
      cases ready with
      | false => exact { h with
          segments_eq := by rw [h.segments_eq, hpoint]; rfl
          payload := by rintro ⟨⟩
          packetType := by rintro ⟨⟩ }
      -- `poll` has seen an echo, or the end of the stream
      | true => exact { h with
          segments_eq := by rw [h.segments_eq, hpoint]; rfl
          payload := by rintro ⟨⟩
          packetType := fun _ => (hadm rfl).imp_left fun hbytes hnil => hbytes (by
            rw [Channel.bytes, h.segments_eq, hpoint, hnil]
            rfl) }
  | typeShutdown hpoint =>
      exact ⟨none, down, connection.downstream, rfl, rfl, rfl, h.leave⟩
  | @type hpoint result hresult =>
      rcases hresult with rfl | ⟨data, rfl⟩
      · -- something was there to read, and it has not gone away
        obtain ⟨hbytes, hopen⟩ := hadm
        rcases h.packetType hpoint with hdown | hclosed
        · exact absurd (h.down_eq_nil hbytes).1 hdown
        · rw [hclosed] at hopen
          cases hopen
      · exact ⟨none, down, _, rfl, rfl, rfl, (h.type_of_delivers hpoint hadm).2⟩
  | payloadShutdown hpoint env => exact absurd hpoint (h.down_eq_nil hadm.1.1).2
  | @payload hpoint result hresult env hok =>
      rcases hresult with rfl | ⟨data, rfl⟩
      · exact absurd hpoint (h.down_eq_nil hadm.1.1).2
      · obtain ⟨stray, throwsAt⟩ := env
        obtain ⟨hdata, rfl⟩ : connection.downstream.DeliversSegment maxBufferLength data ∧
          throwsAt = none := hadm
        obtain ⟨m, ms, rfl, rfl, hnext⟩ := h.payload_of_delivers hpoint hdata
        obtain ⟨rest, hdispatch⟩ := CClient.dispatch_echo m stray
        rw [(h.payload hpoint).1] at hnext ⊢
        rw [ReceiveResult.data, hdispatch]
        -- the echo has been read as a whole, and is displayed
        exact ⟨some m, ms, _, rfl, rfl, rfl, hnext⟩
  | @thrown hpoint result hresult env fault hfault herror =>
      rcases hresult with rfl | ⟨data, rfl⟩
      · exact absurd hpoint (h.down_eq_nil hadm.1.1).2
      · obtain ⟨stray, throwsAt⟩ := env
        obtain ⟨hdata, rfl⟩ : connection.downstream.DeliversSegment maxBufferLength data ∧
          throwsAt = none := hadm
        obtain ⟨m, ms, rfl, rfl, -⟩ := h.payload_of_delivers hpoint hdata
        -- the handlers return
        obtain ⟨rest, hdispatch⟩ := CClient.dispatch_echo m stray
        rw [(h.payload hpoint).1, ReceiveResult.data, hdispatch] at herror
        cases herror

end PocoEcho

import PocoEcho.Server.Runs
import PocoEcho.Server.Sessions

/-!
# Chunks and messages

The server gives each chunk a buffer of its own, reads one packet type off it and forgets the rest:
it does no reassembly. The messages that a client sends are therefore dispatched, whatever
uninitialised memory holds, exactly when every chunk happens to be one frame.

## Main results

* `processed_of_frames`: chunks that are frames are dispatched one by one;
* `exists_run`: in memory without NUL, a packet that is dispatched uses up a whole frame;
* `reassembles_iff`: the two together.
-/

namespace PocoEcho

open Poco ServerLoop

/-- The payload of a well-formed MESSAGE frame: it ends in NUL, and its length is a positive
`int`. -/
structure Message where
  /-- The bytes of the payload. -/
  payload : List UInt8
  /-- The last one is NUL. -/
  getLast_eq : payload.getLast? = some 0
  /-- Their number can be declared. -/
  length_lt : payload.length < 2 ^ 31

namespace Message

/-- The bytes of the frame. -/
def frame (m : Message) : List UInt8 := messageFrame m.payload

theorem nul_mem (m : Message) : 0 ∈ m.payload :=
  List.mem_of_getLast? m.getLast_eq

end Message

variable {S : Type} [DecidableEq S] {server client : S}

/-- The chunks received on a connection since it was accepted. -/
def receivedFrom (client : S) (tr : List (Event S)) : List (List UInt8) :=
  (session client tr).filterMap Event.received

/-- The message arrays dispatched to `CServer::ProcessPacket` for a connection since it was
accepted. -/
def processedFor (client : S) (tr : List (Event S)) : List (List UInt8) :=
  (session client tr).filterMap Event.processed

/-- An exception has left the loop in a step on the client. -/
def CrashedOn (client : S) (state : LoopState S) (tr : List (Event S)) : Prop :=
  (∃ fault, state.status = .thrown fault) ∧ tr.getLast?.bind Event.socket = some client

/-- All chunks have been received from the client, or an exception has left the loop while one of
them was handled. -/
def Delivered (client : S) (chunks : List (List UInt8)) (state : LoopState S)
    (tr : List (Event S)) : Prop :=
  receivedFrom client tr = chunks ∨
    receivedFrom client tr <+: chunks ∧ CrashedOn client state tr

/-- In every run in which no call on a socket throws, the packets dispatched for the client are the
messages when the chunks have been delivered, whatever uninitialised memory holds. -/
def Reassembles (server client : S) (chunks : List (List UInt8)) (messages : List Message) :
    Prop :=
  ∀ packetType state tr, Reaches server packetType state tr → Delivered client chunks state tr →
    processedFor client tr = messages.map Message.payload

/-! ## Chunks that are frames -/

/-- Quiet steps change neither what was received nor what was processed. -/
theorem Quiet.receivedFrom_append {es : List (Event S)} (h : Quiet client es)
    (tr : List (Event S)) :
    receivedFrom client (tr ++ es) = receivedFrom client tr ∧
      processedFor client (tr ++ es) = processedFor client tr := by
  simp only [receivedFrom, processedFor, h.session_append, List.filterMap_append]
  rw [h.filterMap_eventsOf fun e he => he.1, h.filterMap_eventsOf fun e he => he.2.1]
  simp

/-- When a connection is accepted, nothing has been received or processed yet. -/
theorem receivedFrom_append_accept (tr : List (Event S)) (client : S) (host : String)
    (es : List (Event S)) (h : ∀ e ∈ es, e.socket = some client ∧ e.isAccept = false ∧
      e.received = none ∧ e.processed = none) :
    receivedFrom client (tr ++ .acceptConnection client host :: es) = [] ∧
      processedFor client (tr ++ .acceptConnection client host :: es) = [] := by
  have hsession := session_append_accept tr client host (fun e he => (h e he).1)
    fun e he => (h e he).2.1
  simp only [receivedFrom, processedFor, hsession, List.filterMap_eq_nil_iff, List.mem_cons,
    forall_eq_or_imp]
  exact ⟨⟨rfl, fun e he => (h e he).2.2.1⟩, rfl, fun e he => (h e he).2.2.2⟩

/-- What a handled chunk adds. -/
theorem receivedFrom_append_receive (tr : List (Event S)) (state : LoopState S) (client : S)
    (data : List UInt8) (env : HandlerEnv) :
    receivedFrom client (tr ++ .receiveBytes client (.bytes data) ::
        (handleData CServer.handlers state client data env).log) =
      receivedFrom client tr ++ [data] ∧
    processedFor client (tr ++ .receiveBytes client (.bytes data) ::
        (handleData CServer.handlers state client data env).log) =
      processedFor client tr ++
        (handleData CServer.handlers state client data env).log.filterMap Event.processed := by
  simp only [receivedFrom, processedFor, session_append_receive, List.filterMap_append,
    List.filterMap_cons, Event.received, Event.processed, received_handleData, and_self]

omit [DecidableEq S] in
/-- The events of a handled chunk end with one on the client. -/
theorem getLast?_append_receive (tr : List (Event S)) (state : LoopState S) (client : S)
    (data : List UInt8) (env : HandlerEnv) :
    (tr ++ .receiveBytes client (.bytes data) ::
      (handleData CServer.handlers state client data env).log).getLast?.bind Event.socket =
        some client := by
  rw [List.getLast?_append_of_ne_nil _ (List.cons_ne_nil _ _),
    List.getLast?_eq_some_getLast (List.cons_ne_nil _ _), Option.bind_some]
  exact (socket_of_mem_receive _ (List.getLast_mem (List.cons_ne_nil _ _))).1

/-- Messages whose last frame was just received. -/
theorem exists_concat_of_map_frame {ms : List Message} {chunks : List (List UInt8)}
    {data : List UInt8} (h : chunks ++ [data] = ms.map Message.frame) :
    ∃ ms' m, ms = ms' ++ [m] ∧ chunks = ms'.map Message.frame ∧ data = m.frame := by
  obtain ⟨ms', last, rfl, hms', hlast⟩ := List.map_eq_append_iff.mp h.symm
  obtain ⟨m, rfl, hm⟩ := List.map_eq_singleton_iff.mp hlast
  exact ⟨ms', m, rfl, hms'.symm, hm.symm⟩

/-- As long as the chunks received from a client are frames, their payloads are dispatched one by
one, and no exception leaves the loop in a step on the client. -/
theorem processed_of_frames {packetType : Word} {state : LoopState S} {tr : List (Event S)}
    (hclient : client ≠ server) (h : Reaches server packetType state tr) :
    ∀ ms : List Message, receivedFrom client tr = ms.map Message.frame →
      processedFor client tr = ms.map Message.payload ∧ ¬ CrashedOn client state tr := by
  induction h with
  | init =>
      intro ms hms
      obtain rfl : ms = [] := by simpa [receivedFrom, session, eventsOf, eq_comm] using hms
      refine ⟨rfl, fun hcrash => ?_⟩
      obtain ⟨fault, hthrown⟩ := hcrash.1
      cases hthrown
  | @step s s' tr es i hreach hadm hs ih =>
      intro ms hms
      rcases thrown_or_progress hs with ⟨fault, outcome, hup, herr, rfl, rfl⟩ | hprog
      -- an exception leaves the loop: was the chunk one of the client?
      · obtain ⟨sender, rest, data, stray, -, -, rfl, hfault, hlog⟩ :=
          fault_of_undisturbed hadm hup herr
        rw [hlog] at hms ⊢
        by_cases hsender : sender = client
        · subst hsender
          -- a whole frame is handled without exception
          obtain ⟨hreceived, -⟩ := receivedFrom_append_receive tr { s with readList := rest } sender
            data ⟨stray, none⟩
          rw [hreceived] at hms
          obtain ⟨-, m, -, -, rfl⟩ := exists_concat_of_map_frame hms
          rw [Message.frame, handleData_messageFrame _ _ hadm.1.2 m.nul_mem] at hfault
          cases hfault
        · have hquiet : Quiet client (.receiveBytes sender (.bytes data) ::
              (handleData CServer.handlers { s with readList := rest } sender data
                ⟨stray, none⟩).log) :=
            quiet_of_socket_ne hsender fun e he => (socket_of_mem_receive e he).1
          obtain ⟨hreceived, hprocessed⟩ := hquiet.receivedFrom_append tr
          rw [hreceived] at hms
          rw [hprocessed]
          refine ⟨(ih ms hms).1, fun hcrash => hsender ?_⟩
          have := hcrash.2
          rw [getLast?_append_receive, Option.some.injEq] at this
          exact this
      · refine ⟨?_, fun hcrash => hcrash.1.elim hprog.not_thrown⟩
        -- the step is quiet, or starts the session, or handles a chunk of the client
        rcases hprog.session_cases hclient hadm.1 with ⟨hquiet, -⟩ | ⟨host, rfl⟩ | ⟨-, host, rfl⟩ |
          ⟨-, -, state₀, data, env, rfl, hok, rfl⟩
        · obtain ⟨hreceived, hprocessed⟩ := hquiet.receivedFrom_append tr
          rw [hreceived] at hms
          rw [hprocessed]
          exact (ih ms hms).1
        · obtain ⟨hreceived, hprocessed⟩ := receivedFrom_append_accept tr client host
            [.sendBytes client PacketType.accept.word.bytes]
            (by simp [Event.socket, Event.isAccept, Event.received, Event.processed])
          rw [hreceived, eq_comm, List.map_eq_nil_iff] at hms
          rw [hprocessed, hms]
          rfl
        · obtain ⟨hreceived, hprocessed⟩ := receivedFrom_append_accept tr client host
            [.sendBytes client PacketType.kick.word.bytes, .close client]
            (by simp [Event.socket, Event.isAccept, Event.received, Event.processed])
          rw [hreceived, eq_comm, List.map_eq_nil_iff] at hms
          rw [hprocessed, hms]
          rfl
        · obtain ⟨stray, throwsAt⟩ := env
          obtain rfl : throwsAt = none := hadm.2.2
          obtain ⟨hreceived, hprocessed⟩ := receivedFrom_append_receive tr state₀ client data
            ⟨stray, none⟩
          rw [hreceived] at hms
          obtain ⟨ms', m, rfl, hms', rfl⟩ := exists_concat_of_map_frame hms
          rw [hprocessed, (ih ms' hms').1, Message.frame,
            handleData_messageFrame _ _ hadm.1.2 m.nul_mem, List.map_append]
          rfl

/-! ## Chunks that are not frames -/

/-- When the packets dispatched end in NUL, their frames are no longer than the chunks, and when
they are as long, each chunk is as long as its frame. -/
def Fits (chunks packets : List (List UInt8)) : Prop :=
  (∀ p ∈ packets, p.getLast? = some 0) →
    (packets.map fun p => 8 + p.length).sum ≤ (chunks.map List.length).sum ∧
      ((packets.map fun p => 8 + p.length).sum = (chunks.map List.length).sum →
        chunks.map List.length = packets.map fun p => 8 + p.length)

/-- A chunk without packet leaves bytes over. -/
theorem Fits.cons_none {chunk : List UInt8} {chunks packets : List (List UInt8)}
    (hchunk : chunk ≠ []) (h : Fits chunks packets) : Fits (chunk :: chunks) packets := by
  intro hnul
  obtain ⟨hle, -⟩ := h hnul
  have hpos := List.length_pos_iff.mpr hchunk
  rw [List.map_cons, List.sum_cons]
  exact ⟨by omega, fun heq => by omega⟩

/-- A packet that ends in NUL uses up its chunk. -/
theorem Fits.cons_some {chunk p : List UInt8} {chunks packets : List (List UInt8)}
    (hp : p.getLast? = some 0 → 8 + p.length ≤ chunk.length) (h : Fits chunks packets) :
    Fits (chunk :: chunks) (p :: packets) := by
  intro hnul
  have hp := hp (hnul p List.mem_cons_self)
  obtain ⟨hle, heq⟩ := h fun q hq => hnul q (List.mem_cons_of_mem _ hq)
  simp only [List.map_cons, List.sum_cons, List.cons.injEq]
  exact ⟨by omega, fun hsum => ⟨by omega, heq (by omega)⟩⟩

theorem fits_nil {chunks : List (List UInt8)} (hchunks : ∀ chunk ∈ chunks, chunk ≠ []) :
    Fits chunks [] := by
  induction chunks with
  | nil => exact fun _ => ⟨Nat.le_refl _, fun _ => rfl⟩
  | cons chunk chunks ih =>
      exact .cons_none (hchunks chunk List.mem_cons_self)
        (ih fun c hc => hchunks c (List.mem_cons_of_mem _ hc))

omit [DecidableEq S] in
/-- A chunk handled where fresh arrays hold no NUL: the loop is left by an exception and nothing is
dispatched, or at most one packet is dispatched, which ends in NUL only when the chunk contains its
whole frame. -/
theorem handleData_filled (state : LoopState S) (client : S) {chunk : List UInt8}
    (hfits : chunk.length ≤ maxBufferLength) :
    ((∃ fault, (handleData CServer.handlers state client chunk
        ⟨.filled 1 [0], none⟩).result = .error fault) ∧
      (handleData CServer.handlers state client chunk
        ⟨.filled 1 [0], none⟩).log.filterMap Event.processed = []) ∨
    ((handleData CServer.handlers state client chunk ⟨.filled 1 [0], none⟩).result =
        .ok { state with packetType := chunkType state.packetType chunk } ∧
      ∃ packet : Option (List UInt8),
        (handleData CServer.handlers state client chunk
          ⟨.filled 1 [0], none⟩).log.filterMap Event.processed = packet.toList ∧
        ∀ p ∈ packet, p.getLast? = some 0 → 8 + p.length ≤ chunk.length) := by
  rw [log_handleData, result_handleData]
  -- only a MESSAGE with a length that is not negative is dispatched
  by_cases htype : chunkType state.packetType chunk = PacketType.message.word
  · rw [htype]
    rcases lt_or_ge (MessageBody.declaredLength (.filled 1 [0]) (chunkBody chunk)) 0 with
      hneg | hnonneg
    · rw [CServer.packetHandler_of_error ⟨.filled 1 [0], none⟩ client
        (MessageBody.decode_of_neg hneg)]
      exact .inl ⟨⟨_, rfl⟩, rfl⟩
    · obtain ⟨rest, hdecode⟩ := MessageBody.decode_of_nonneg hnonneg
      have hmem : 0 ∈ (MessageBody.messageArray (.filled 1 [0]) (chunkBody chunk)).memory := by
        simp [MessageBody.memory_messageArray_filled]
      have hstring : (MessageBody.messageArray (.filled 1 [0]) (chunkBody chunk)).cString =
          some (.ofPrefix _) := if_pos hmem
      rw [CServer.packetHandler_message _ client hdecode, hstring]
      refine .inr ⟨rfl, some (MessageBody.messageArray (.filled 1 [0]) (chunkBody chunk)).data,
        rfl, ?_⟩
      rintro p hp hnul
      obtain rfl := Option.some.inj hp
      -- what was not received is filled with ones, so all of it was received
      have hle := MessageBody.length_receivedPayload_le (.filled 1 [0]) (chunkBody chunk)
      have hreceived : (MessageBody.receivedPayload (.filled 1 [0]) (chunkBody chunk)).length ≤
          chunk.length - 8 := by
        rw [MessageBody.receivedPayload, content_chunkBody hfits, List.drop_drop,
          List.length_take, List.length_drop]
        omega
      rw [MessageBody.data_messageArray_filled] at hnul ⊢
      generalize MessageBody.receivedPayload (.filled 1 [0]) (chunkBody chunk) = P at *
      generalize (MessageBody.declaredLength (.filled 1 [0]) (chunkBody chunk)).toNat = L at *
      rcases Nat.eq_zero_or_pos (L - P.length) with hzero | hpos
      · rw [hzero, List.replicate_zero, List.append_nil] at hnul ⊢
        have := List.length_pos_of_mem (List.mem_of_getLast? hnul)
        omega
      · obtain ⟨n, hn⟩ : ∃ n, L - P.length = n + 1 := ⟨L - P.length - 1, by omega⟩
        rw [hn, List.replicate_succ', ← List.append_assoc, List.getLast?_concat] at hnul
        cases hnul
  · rcases CServer.packetHandler_other ⟨.filled 1 [0], none⟩ client (chunkBody chunk) htype with
      h | ⟨-, h⟩
    · rw [h]
      exact .inr ⟨rfl, none, rfl, by simp⟩
    · exact absurd rfl h

/-- From the head of the loop, any chunks of an admitted client can be delivered in memory without
NUL, and the packets dispatched for them use up whole frames. -/
theorem exists_run {packetType : Word} (hclient : client ≠ server) (chunks : List (List UInt8))
    (hchunks : ∀ chunk ∈ chunks, chunk ≠ [] ∧ chunk.length ≤ maxBufferLength)
    {state : LoopState S} {tr : List (Event S)} (h : Reaches server packetType state tr)
    (hhead : state.AtHead) (hmem : client ∈ state.clients) :
    ∃ state' tr' taken rest packets, Reaches server packetType state' tr' ∧
      chunks = taken ++ rest ∧ (rest = [] ∨ CrashedOn client state' tr') ∧
      receivedFrom client tr' = receivedFrom client tr ++ taken ∧
      processedFor client tr' = processedFor client tr ++ packets ∧ Fits chunks packets := by
  induction chunks generalizing state tr with
  | nil =>
      exact ⟨state, tr, [], [], [], h, rfl, .inl rfl, by simp, by simp, fits_nil (by simp)⟩
  | cons chunk chunks ih =>
      have hchunk := hchunks chunk List.mem_cons_self
      -- one round for each chunk, in memory without NUL
      obtain ⟨hreceived, hprocessed⟩ := receivedFrom_append_receive tr state client chunk
        ⟨.filled 1 [0], none⟩
      rcases handleData_filled state client hchunk.2 with ⟨⟨fault, herr⟩, hnone⟩ |
        ⟨hok, packet, hpacket, hfits⟩
      · -- the loop is left while it handles this chunk
        refine ⟨_, _, [chunk], chunks, [], h.receive_error hhead hmem hclient hchunk _ herr, rfl,
          .inr ⟨⟨fault, rfl⟩, getLast?_append_receive _ _ _ _ _⟩, hreceived, ?_, ?_⟩
        · rw [hprocessed, hnone]
        · exact fits_nil fun c hc => (hchunks c hc).1
      · have hnext := h.receive hhead hmem hclient hchunk _ hok
        obtain ⟨state', tr', taken, rest, packets, hreach, rfl, hrest, hreceived', hprocessed',
          hfits'⟩ := ih (fun c hc => hchunks c (List.mem_cons_of_mem _ hc)) hnext hhead hmem
        refine ⟨state', tr', chunk :: taken, rest, packet.toList ++ packets, hreach, rfl, hrest,
          ?_, ?_, ?_⟩
        · rw [hreceived', hreceived, List.append_assoc]
          rfl
        · rw [hprocessed', hprocessed, hpacket, List.append_assoc]
        · cases packet with
          | none => exact hfits'.cons_none hchunk.1
          | some p => exact hfits'.cons_some (hfits p rfl)

/-- The frames of messages, as chunks, are as long as the chunks that carry the same bytes. -/
theorem eq_frames_of_fits {chunks : List (List UInt8)} {messages : List Message}
    (hflatten : chunks.flatten = (messages.map Message.frame).flatten)
    (hfits : Fits chunks (messages.map Message.payload)) :
    chunks = messages.map Message.frame := by
  have hlengths : (messages.map Message.frame).map List.length =
      (messages.map Message.payload).map fun p => 8 + p.length := by
    simp only [List.map_map]
    exact List.map_congr_left fun m _ => length_messageFrame m.payload
  have hnul : ∀ p ∈ messages.map Message.payload, p.getLast? = some 0 := by
    intro p hp
    obtain ⟨m, -, rfl⟩ := List.mem_map.mp hp
    exact m.getLast_eq
  have hsum := congrArg List.length hflatten
  rw [List.length_flatten, List.length_flatten, hlengths] at hsum
  -- the same bytes, cut at the same places
  exact List.eq_iff_flatten_eq.mpr ⟨hflatten, by rw [hlengths]; exact (hfits hnul).2 hsum.symm⟩

/-- Messages that are dispatched exactly, whatever uninitialised memory holds, arrive one frame a
chunk. -/
theorem eq_frames_of_reassembles (hclient : client ≠ server) {chunks : List (List UInt8)}
    (hchunks : ∀ chunk ∈ chunks, chunk ≠ [] ∧ chunk.length ≤ maxBufferLength)
    {messages : List Message}
    (hflatten : chunks.flatten = (messages.map Message.frame).flatten)
    (h : Reassembles server client chunks messages) : chunks = messages.map Message.frame := by
  obtain ⟨state, tr, taken, rest, packets, hreach, rfl, hrest, hreceived, hprocessed, hfits⟩ :=
    exists_run hclient chunks hchunks (reaches_admitted (Word.ofNat 0) hclient "") ⟨rfl, rfl, rfl⟩
      (by simp [LoopState.admitted])
  obtain ⟨hreceived₀, hprocessed₀⟩ := receivedFrom_append_accept [] client ""
    [.sendBytes client PacketType.accept.word.bytes]
    (by simp [Event.socket, Event.isAccept, Event.received, Event.processed])
  rw [List.nil_append] at hreceived₀ hprocessed₀
  rw [hreceived₀, List.nil_append] at hreceived
  rw [hprocessed₀, List.nil_append] at hprocessed
  -- this run has to dispatch the messages as well
  have hdelivered : Delivered client (taken ++ rest) state tr := by
    rcases hrest with rfl | hcrash
    · exact .inl (by rw [hreceived, List.append_nil])
    · exact .inr ⟨hreceived ▸ List.prefix_append _ _, hcrash⟩
  have hpackets := h _ _ _ hreach hdelivered
  rw [hprocessed] at hpackets
  exact eq_frames_of_fits hflatten (hpackets ▸ hfits)

/-- The messages of a client are dispatched exactly, in every run and whatever uninitialised memory
holds, if and only if each chunk is one frame. -/
theorem reassembles_iff (hclient : client ≠ server) {chunks : List (List UInt8)}
    (hchunks : ∀ chunk ∈ chunks, chunk ≠ [] ∧ chunk.length ≤ maxBufferLength)
    {messages : List Message}
    (hflatten : chunks.flatten = (messages.map Message.frame).flatten) :
    Reassembles server client chunks messages ↔ chunks = messages.map Message.frame := by
  refine ⟨eq_frames_of_reassembles hclient hchunks hflatten, ?_⟩
  rintro rfl packetType state tr hreach (hreceived | ⟨hpre, hcrash⟩)
  · exact (processed_of_frames hclient hreach messages hreceived).1
  -- a run that has received only some of the frames has not crashed
  · obtain ⟨rest, hrest⟩ := hpre
    obtain ⟨ms, _, -, hms, -⟩ := List.map_eq_append_iff.mp hrest.symm
    exact absurd hcrash (processed_of_frames hclient hreach ms hms.symm).2

/-- A message of one character. -/
def Message.ofChar (c : UInt8) : Message :=
  { payload := [c, 0], getLast_eq := rfl, length_lt := by simp }

/-- Two messages, one chunk each. -/
theorem reassembles_of_two :
    Reassembles 0 1 [(Message.ofChar 0x41).frame, (Message.ofChar 0x42).frame]
      [.ofChar 0x41, .ofChar 0x42] := by
  refine (reassembles_iff ?_ ?_ ?_).mpr ?_
  · decide
  · decide
  · rfl
  · rfl

/-- Two messages that arrive in one chunk. -/
theorem not_reassembles_of_coalesced :
    ¬ Reassembles 0 1 [(Message.ofChar 0x41).frame ++ (Message.ofChar 0x42).frame]
      [.ofChar 0x41, .ofChar 0x42] := by
  intro h
  have hframes := eq_frames_of_reassembles (by decide) (by decide) (by decide) h
  exact absurd (congrArg List.length hframes) (by decide)

end PocoEcho

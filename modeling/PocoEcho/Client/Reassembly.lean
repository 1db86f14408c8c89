import PocoEcho.Client.Framing

/-!
# What the client displays

The client reads a packet type with one call and whatever has arrived behind it with another, and
forgets what the handler leaves of that: it does no reassembly. The echoes that the server sends are
therefore displayed, whatever memory holds, when each of them is read by one iteration, four bytes
first and then exactly its rest; and for messages with a text there is no other way.

## Main results

* `displayed_of_frames`: echoes that are read one by one are displayed one by one;
* `exists_run`: in memory without NUL, iterations display what they carry;
* `displays_frames_and_only`: the two together.
-/

namespace PocoEcho

open Poco

namespace CClient

open ClientLoop

/-- What the calls of `receiveBytes` have returned while the connection was open. -/
def readsOf (tr : List (ClientEvent ConsoleEvent)) : List ReceiveResult :=
  tr.filterMap ClientEvent.received

/-- The strings displayed. -/
def displayedIn (tr : List (ClientEvent ConsoleEvent)) : List CString :=
  tr.filterMap ClientEvent.displayed

/-- An exception has left the loop. -/
def Crashed (state : ClientState) : Prop := ∃ fault, state.status = .thrown fault

/-- The calls of `receiveBytes` have returned what the iterations say, all of it or until an
exception left the loop. -/
def Delivered (its : List Iteration) (state : ClientState)
    (tr : List (ClientEvent ConsoleEvent)) : Prop :=
  readsOf tr = its.flatMap Iteration.results ∨
    readsOf tr <+: its.flatMap Iteration.results ∧ Crashed state

/-- In every run in which no call on the socket throws, the messages have been displayed when the
iterations have taken place, whatever memory holds and however long the loop waits for data. -/
def Displays (its : List Iteration) (messages : List EchoedMessage) : Prop :=
  ∀ packetType state tr, Reaches packetType state tr → Delivered its state tr →
    displayedIn tr = messages.map EchoedMessage.szMessage

variable {packetType : Word} {state : ClientState} {tr : List (ClientEvent ConsoleEvent)}

/-! ## Echoes that are read one by one -/

/-- The rest of an echo is displayed, whatever memory holds. -/
theorem packetHandler_rest (stray : Stray) (m : EchoedMessage) {buffer : FIFOBuffer}
    (h : buffer.content = m.frame.drop 4) :
    ∃ rest, packetHandler ⟨stray, none⟩ buffer PacketType.message.word =
      ⟨[.message m.szMessage], .ok rest⟩ := by
  have hle := m.length_le
  have hcontent : buffer.content =
      (Word.ofNat m.szMessage.terminated.length).bytes ++ (m.szMessage.terminated ++ []) := by
    rw [h, EchoedMessage.frame, CServer.reply_of_length_le hle, messageFrame, List.append_assoc,
      List.drop_left' PacketType.message.word.length_eq, List.append_nil]
  obtain ⟨rest, hdecode⟩ := MessageBody.decode_of_append stray
    (by rw [CString.length_terminated]; omega) hcontent
  -- the string ends with the NUL that the server has sent
  have hstring : (CharArray.mk m.szMessage.terminated stray.behind).cString = some m.szMessage :=
    CharArray.cString_eq_some_iff.mpr ⟨stray.behind, by simp [CharArray.memory, CString.terminated]⟩
  refine ⟨rest, ?_⟩
  rw [packetHandler_of_mem _ _ (by simp [displayTypes]), displayMessage_of_decode hdecode, hstring]
  rfl

/-- What the calls of `receiveBytes` return when each echo is read by one iteration. -/
def frameReads (ms : List EchoedMessage) : List ReceiveResult :=
  ms.flatMap fun m => (Iteration.ofMessage m).results

/-- What the call for a packet type returns then. -/
def typeRead : ReceiveResult := .bytes PacketType.message.word.bytes

theorem frameReads_concat (ms : List EchoedMessage) (m : EchoedMessage) :
    frameReads (ms ++ [m]) = frameReads ms ++ [typeRead] ++ [.bytes (m.frame.drop 4)] := by
  simp [frameReads, typeRead, Iteration.results, Iteration.payloadResult, Iteration.ofMessage]

/-- The last of these reads is the rest of an echo. -/
theorem exists_concat_of_frameReads {reads : List ReceiveResult} {result : ReceiveResult}
    {ms : List EchoedMessage} (h : reads ++ [result] = frameReads ms) :
    ∃ ms' m, ms = ms' ++ [m] ∧ reads = frameReads ms' ++ [typeRead] ∧
      result = .bytes (m.frame.drop 4) := by
  induction ms using List.reverseRecOn with
  | nil => simp [frameReads] at h
  | append_singleton ms m _ =>
      rw [frameReads_concat] at h
      obtain ⟨hreads, hresult⟩ := List.append_inj' h rfl
      exact ⟨ms, m, rfl, hreads, List.singleton_inj.mp hresult⟩

/-- A part of these reads ends behind an echo or behind a packet type. -/
theorem prefix_frameReads {reads : List ReceiveResult} {ms : List EchoedMessage}
    (h : reads <+: frameReads ms) :
    ∃ ms', reads = frameReads ms' ∨ reads = frameReads ms' ++ [typeRead] := by
  induction ms using List.reverseRecOn with
  | nil => exact ⟨[], .inl (List.prefix_nil.mp h)⟩
  | append_singleton ms m ih =>
      rw [frameReads_concat] at h
      -- all of the reads, or the last one is missing, or the last two
      rcases List.prefix_concat_iff.mp h with rfl | h
      · exact ⟨ms ++ [m], .inl (frameReads_concat ms m).symm⟩
      · rcases List.prefix_concat_iff.mp h with rfl | h
        · exact ⟨ms, .inr rfl⟩
        · exact ih h

/-- The client has read whole echoes and has displayed them, or it has read the type of one more. -/
structure InStep (state : ClientState) (tr : List (ClientEvent ConsoleEvent)) : Prop where
  /-- Between two echoes, all of them have been displayed. -/
  between : ∀ ms, readsOf tr = frameReads ms →
    displayedIn tr = ms.map EchoedMessage.szMessage ∧ ¬ Crashed state ∧ state.point ≠ .payload
  /-- Behind a packet type, the rest of the echo is to be read. -/
  within : ∀ ms, readsOf tr = frameReads ms ++ [typeRead] →
    displayedIn tr = ms.map EchoedMessage.szMessage ∧ ¬ Crashed state ∧ state.point = .payload ∧
      state.packetType = PacketType.message.word

theorem not_crashed_of_running (h : state.status = .running) : ¬ Crashed state := by
  rintro ⟨fault, hfault⟩
  rw [h] at hfault
  cases hfault

theorem not_crashed_of_exited (h : state.status = .exited) : ¬ Crashed state := by
  rintro ⟨fault, hfault⟩
  rw [h] at hfault
  cases hfault

/-- A step that receives and displays nothing keeps the client in step. -/
theorem InStep.quiet {state' : ClientState} {es : List (ClientEvent ConsoleEvent)}
    (h : InStep state tr) (hes : es.filterMap ClientEvent.received = [] ∧
      es.filterMap ClientEvent.displayed = []) (htype : state'.packetType = state.packetType)
    (hpoint : state'.point = .payload ↔ state.point = .payload) (hcrash : ¬ Crashed state') :
    InStep state' (tr ++ es) := by
  have hreads : readsOf (tr ++ es) = readsOf tr := by
    rw [readsOf, List.filterMap_append, hes.1, List.append_nil, readsOf]
  have hdisplayed : displayedIn (tr ++ es) = displayedIn tr := by
    rw [displayedIn, List.filterMap_append, hes.2, List.append_nil, displayedIn]
  constructor
  · intro ms hms
    rw [hreads] at hms
    rw [hdisplayed, Ne, hpoint]
    exact ⟨(h.between ms hms).1, hcrash, (h.between ms hms).2.2⟩
  · intro ms hms
    rw [hreads] at hms
    rw [hdisplayed, hpoint, htype]
    exact ⟨(h.within ms hms).1, hcrash, (h.within ms hms).2.2⟩

/-- A packet type that is read keeps the client in step. -/
theorem InStep.type (h : InStep state tr) (hpoint : state.point = .packetType)
    (hrun : state.status = .running) {result : ReceiveResult}
    (hresult : result = .negative ∨ ∃ data, result = .bytes data) :
    InStep { state with packetType := state.packetType.overwrite result.data, point := .payload }
      (tr ++ [.receiveBytes result]) := by
  have hreads : readsOf (tr ++ [.receiveBytes result]) = readsOf tr ++ [result] := by
    rcases hresult with rfl | ⟨data, rfl⟩ <;> simp [readsOf, ClientEvent.received]
  have hdisplayed : displayedIn (tr ++ [.receiveBytes result]) = displayedIn tr := by
    simp [displayedIn, ClientEvent.displayed, ClientEvent.handled]
  constructor
  · intro ms hms
    rw [hreads] at hms
    -- the reads before were not at an end: the client would be behind a packet type
    obtain ⟨ms', -, -, htyped, -⟩ := exists_concat_of_frameReads hms
    have hpayload := (h.within ms' htyped).2.2.1
    rw [hpoint] at hpayload
    cases hpayload
  · intro ms hms
    rw [hreads] at hms
    obtain ⟨hbefore, hlast⟩ := List.append_inj' hms rfl
    obtain rfl := List.singleton_inj.mp hlast
    rw [hdisplayed]
    exact ⟨(h.between ms hbefore).1, not_crashed_of_running hrun, rfl, Word.overwrite_bytes _ _⟩

/-- What the handlers log is not received. -/
theorem received_dispatch (env : HandlerEnv) (packetType : Word) (buffer : FIFOBuffer) :
    (dispatch handlers env packetType buffer).log.filterMap ClientEvent.received = [] := by
  rw [dispatch_handlers, List.filterMap_eq_nil_iff]
  intro e he
  rcases List.mem_cons.mp he with rfl | he
  · rfl
  · obtain ⟨event, -, rfl⟩ := List.mem_map.mp he
    rfl

/-- The rest of an echo that is read is displayed, and keeps the client in step. -/
theorem InStep.payload (h : InStep state tr) (hrun : state.status = .running)
    (hpoint : state.point = .payload) {result : ReceiveResult}
    (hresult : result = .negative ∨ ∃ data, result = .bytes data) (stray : Stray) :
    InStep
      (match (dispatch handlers ⟨stray, none⟩ state.packetType
          ((BoundedQueue.empty maxBufferLength).write result.data)).result with
        | .ok _ => { state with point := .poll }
        | .error fault => { state with status := .thrown fault })
      (tr ++ .receiveBytes result :: (dispatch handlers ⟨stray, none⟩ state.packetType
        ((BoundedQueue.empty maxBufferLength).write result.data)).log) := by
  have hreads : readsOf (tr ++ .receiveBytes result :: (dispatch handlers ⟨stray, none⟩
      state.packetType ((BoundedQueue.empty maxBufferLength).write result.data)).log) =
        readsOf tr ++ [result] := by
    have hnone := received_dispatch ⟨stray, none⟩ state.packetType
      ((BoundedQueue.empty maxBufferLength).write result.data)
    rcases hresult with rfl | ⟨data, rfl⟩ <;>
      simp [readsOf, ClientEvent.received, hnone]
  constructor
  · intro ms hms
    rw [hreads] at hms
    -- what was read is the rest of an echo, under the type read before
    obtain ⟨ms', m, rfl, htyped, rfl⟩ := exists_concat_of_frameReads hms
    obtain ⟨hdisplayed, -, -, htype⟩ := h.within ms' htyped
    have hcontent : ((BoundedQueue.empty maxBufferLength).write (m.frame.drop 4)).content =
        m.frame.drop 4 := (Iteration.ofMessage m).content_buffer
    obtain ⟨rest, hhandler⟩ := packetHandler_rest stray m hcontent
    simp only [ReceiveResult.data, htype, dispatch_handlers, hhandler]
    refine ⟨?_, not_crashed_of_running hrun, by simp⟩
    rw [displayedIn, List.filterMap_append, ← displayedIn, hdisplayed, List.map_append]
    rfl
  · intro ms hms
    rw [hreads] at hms
    obtain ⟨hbefore, -⟩ := List.append_inj' hms rfl
    exact absurd hpoint (h.between ms hbefore).2.2

/-- The client starts in step. -/
theorem inStep_initial (packetType : Word) : InStep (.initial packetType) [] := by
  constructor
  · intro ms hms
    obtain rfl : ms = [] := by
      cases ms with
      | nil => rfl
      | cons m ms => cases hms
    exact ⟨rfl, not_crashed_of_running rfl, by simp [ClientState.initial]⟩
  · intro ms hms
    exact absurd hms.symm (List.append_ne_nil_of_right_ne_nil _ (List.cons_ne_nil _ _))

/-- A client that reads one echo after the other displays one after the other. -/
theorem inStep_of_reaches (h : Reaches packetType state tr) : InStep state tr := by
  induction h with
  | init => exact inStep_initial packetType
  | @step s s' tr es input hreach hinput hs ih =>
      have hrun := running_of_step hs
      cases progress_of_reaches hreach hinput hs with
      | close hpoint => exact ih.quiet ⟨rfl, rfl⟩ rfl Iff.rfl (not_crashed_of_exited rfl)
      | poll hpoint ready =>
          refine ih.quiet ⟨rfl, rfl⟩ rfl ?_ (not_crashed_of_running hrun)
          cases ready <;> simp [hpoint]
      | typeShutdown hpoint => exact ih.quiet ⟨rfl, rfl⟩ rfl Iff.rfl (not_crashed_of_exited rfl)
      | type hpoint hresult => exact ih.type hpoint hrun hresult
      | payloadShutdown hpoint env =>
          exact ih.quiet ⟨rfl, rfl⟩ rfl Iff.rfl (not_crashed_of_exited rfl)
      | @payload hpoint result hresult env hok =>
          obtain ⟨stray, throwsAt⟩ := env
          obtain rfl : throwsAt = none := hinput.2.2
          obtain ⟨buffer, hbuffer⟩ := hok
          have hnext := ih.payload hrun hpoint hresult stray
          rw [hbuffer] at hnext
          exact hnext
      | @thrown hpoint result hresult env fault hfault herror =>
          obtain ⟨stray, throwsAt⟩ := env
          obtain rfl : throwsAt = none := hinput.2.2
          have hnext := ih.payload hrun hpoint hresult stray
          rw [herror] at hnext
          exact hnext

/-- Echoes that are read one by one are displayed one by one. -/
theorem displayed_of_frames (messages : List EchoedMessage) :
    Displays (messages.map Iteration.ofMessage) messages := by
  intro packetType state tr h hdelivered
  have hstep := inStep_of_reaches h
  rw [Delivered, List.flatMap_map] at hdelivered
  rcases hdelivered with hreads | ⟨hpre, hcrash⟩
  · exact (hstep.between messages hreads).1
  · obtain ⟨ms, hms | hms⟩ := prefix_frameReads hpre
    · exact absurd hcrash (hstep.between ms hms).2.1
    · exact absurd hcrash (hstep.within ms hms).2.1

/-! ## Other ways of reading echoes -/

/-- Memory without NUL for as long as any text of an echo. -/
def nulFree : Stray := .filled 1 (List.replicate 1016 1 ++ [0])

/-- In such memory, a string that is displayed and no longer than any text was received. -/
theorem exists_string_of_nulFree {buffer rest : FIFOBuffer} {szMessage : CharArray} {s : CString}
    (hdecode : MessageBody.decode nulFree buffer = .ok (szMessage, rest))
    (hs : szMessage.cString = some s) (hshort : s.chars.length ≤ 1015) :
    ∃ tail, buffer.content.drop 4 = s.chars ++ 0 :: tail := by
  have hnonneg : 0 ≤ MessageBody.declaredLength nulFree buffer := by
    by_contra hneg
    rw [MessageBody.decode_of_neg (by omega)] at hdecode
    cases hdecode
  obtain ⟨rest', hdecode'⟩ := MessageBody.decode_of_nonneg hnonneg
  rw [hdecode'] at hdecode
  obtain ⟨rfl, rfl⟩ := Prod.mk.inj (Except.ok.inj hdecode)
  obtain ⟨tail, hmemory⟩ := CharArray.cString_eq_some_iff.mp hs
  rw [nulFree, MessageBody.memory_messageArray_filled, ← nulFree] at hmemory
  have hreceived : MessageBody.receivedPayload nulFree buffer <+: buffer.content.drop 4 :=
    List.take_prefix _ _
  generalize MessageBody.receivedPayload nulFree buffer = received at hmemory hreceived
  obtain ⟨unread, hunread⟩ := hreceived
  -- a NUL among the bytes received ends the string there
  by_cases hnul : 0 ∈ received
  · obtain ⟨s', tail', rfl⟩ := CString.eq_append_of_mem hnul
    rw [List.append_assoc, List.cons_append] at hmemory
    have hchars := chars_eq s'.nul_notMem hmemory
    exact ⟨tail' ++ unread, by rw [← hunread, hchars, List.append_assoc, List.cons_append]⟩
  · -- the string runs through the memory behind what was received
    rw [← List.append_assoc, ← List.append_assoc] at hmemory
    have hone : ∀ n, (0 : UInt8) ∉ List.replicate n 1 :=
      fun n hmem => absurd (List.eq_of_mem_replicate hmem) (by decide)
    have hchars := chars_eq (by simp only [List.mem_append, hnul, hone, or_self, not_false_iff])
      hmemory
    rw [hchars] at hshort
    simp only [List.length_append, List.length_replicate] at hshort
    omega

/-- A type under which something is displayed begins with the byte that was received for it. -/
theorem isTypeByte_of_word {it : Iteration} {stale : Word} (h : it.word stale ∈ displayTypes) :
    ∃ x ∈ it.packetType.head?, IsTypeByte x := by
  obtain ⟨x, zs, hzs⟩ := List.exists_cons_of_ne_nil it.packetType_ne
  refine ⟨x, by rw [hzs]; rfl, ?_⟩
  have hpre : it.packetType <+: (it.word stale).bytes :=
    stale.overwrite_isPrefix it.length_packetType_le
  -- the first byte received is the first byte of the type
  obtain ⟨tail, htail⟩ := hpre
  rw [hzs, List.cons_append] at htail
  rcases List.mem_pair.mp h with h | h
  · rw [h] at htail
    exact .inl (List.cons.inj htail).1
  · rw [h] at htail
    exact .inr (List.cons.inj htail).1

/-- What an iteration displays in memory without NUL. -/
theorem exists_shown (it : Iteration) (stale : Word) :
    ∃ shown : Option CString,
      (packetHandler ⟨nulFree, none⟩ it.buffer (it.word stale)).log.filterMap
        ConsoleEvent.displayed = shown.toList ∧ it.Shows shown := by
  by_cases htype : it.word stale ∈ displayTypes
  · rw [packetHandler_of_mem _ _ htype]
    cases hdecode : MessageBody.decode nulFree it.buffer with
    | error fault =>
        rw [displayMessage_of_error hdecode]
        exact ⟨none, rfl, by simp [Iteration.Shows]⟩
    | ok p =>
        obtain ⟨szMessage, rest⟩ := p
        rw [displayMessage_of_decode hdecode]
        refine ⟨szMessage.cString, ?_, fun s hs hshort => ⟨isTypeByte_of_word htype, ?_⟩⟩
        · cases szMessage.cString <;> rfl
        · rw [← it.content_buffer]
          exact exists_string_of_nulFree hdecode hs hshort
  · rw [packetHandler_of_notMem _ _ htype]
    exact ⟨none, rfl, by simp [Iteration.Shows]⟩

/-- What an iteration adds to the reads and to what is displayed. -/
theorem append_eventsOf (tr : List (ClientEvent ConsoleEvent)) (it : Iteration) (stale : Word)
    (stray : Stray) :
    readsOf (tr ++ eventsOf it stale stray) = readsOf tr ++ it.results ∧
      displayedIn (tr ++ eventsOf it stale stray) = displayedIn tr ++
        (packetHandler ⟨stray, none⟩ it.buffer (it.word stale)).log.filterMap
          ConsoleEvent.displayed := by
  have hpayload := it.received_payloadResult
  have htype : (ClientEvent.receiveBytes (.bytes it.packetType) :
      ClientEvent ConsoleEvent).received = some (.bytes it.packetType) := rfl
  rw [eventsOf]
  generalize (packetHandler ⟨stray, none⟩ it.buffer (it.word stale)).log = log
  have hreceived : (log.map (ClientEvent.handler (H := ConsoleEvent))).filterMap
      ClientEvent.received = [] := by
    simp [ClientEvent.received]
  have hdisplayed : (log.map (ClientEvent.handler (H := ConsoleEvent))).filterMap
      ClientEvent.displayed = log.filterMap ConsoleEvent.displayed := by
    rw [List.filterMap_map]
    rfl
  constructor
  · rw [readsOf, List.filterMap_append, ← readsOf, List.filterMap_cons_none rfl,
      List.filterMap_cons_some htype, List.filterMap_cons_some hpayload,
      List.filterMap_cons_none rfl, hreceived]
    rfl
  · rw [displayedIn, List.filterMap_append, ← displayedIn, ← hdisplayed]
    rfl

/-- Iterations may display nothing. -/
theorem shows_none (its : List Iteration) :
    List.Forall₂ Iteration.Shows its (its.map fun _ => none) := by
  induction its with
  | nil => exact .nil
  | cons it its ih => exact .cons (by simp [Iteration.Shows]) ih

/-- From the head of the loop, any iterations can take place in memory without NUL, unless an
exception leaves the loop on the way. -/
theorem exists_run (its : List Iteration) {stale : Word}
    (h : Reaches packetType (.initial stale) tr) :
    ∃ state' tr' shown, Reaches packetType state' tr' ∧
      (readsOf tr' = readsOf tr ++ its.flatMap Iteration.results ∨
        readsOf tr' <+: readsOf tr ++ its.flatMap Iteration.results ∧ Crashed state') ∧
      displayedIn tr' = displayedIn tr ++ shown.reduceOption ∧
      List.Forall₂ Iteration.Shows its shown := by
  induction its generalizing stale tr with
  | nil => exact ⟨.initial stale, tr, [], h, .inl (by simp), by simp, .nil⟩
  | cons it its ih =>
      obtain ⟨shown, hlog, hshown⟩ := exists_shown it stale
      have hnext := h.iteration it nulFree
      obtain ⟨hreads, hdisplayed⟩ := append_eventsOf tr it stale nulFree
      rw [hlog] at hdisplayed
      -- either the handler returns, and the loop stands at its head again, or it is left
      cases hresult : (packetHandler ⟨nulFree, none⟩ it.buffer (it.word stale)).result with
      | error fault =>
          -- the loop is left, and nothing more is displayed
          rw [hresult] at hnext
          refine ⟨_, _, shown :: its.map fun _ => none, hnext, .inr ⟨?_, fault, rfl⟩, ?_,
            .cons hshown (shows_none its)⟩
          · rw [hreads, List.flatMap_cons, ← List.append_assoc]
            exact List.prefix_append _ _
          · have hnone : (its.map fun _ => (none : Option CString)).reduceOption = [] := by
              rw [List.map_const', List.reduceOption_replicate_none]
            rw [hdisplayed]
            cases shown with
            | none => rw [List.reduceOption_cons_of_none, hnone]; rfl
            | some s => rw [List.reduceOption_cons_of_some, hnone]; rfl
      | ok buffer =>
          rw [hresult] at hnext
          obtain ⟨state', tr', shown', hreach, hdelivered, hdisplayed', hshown'⟩ := ih hnext
          rw [hreads] at hdelivered
          rw [hdisplayed] at hdisplayed'
          refine ⟨state', tr', shown :: shown', hreach, ?_, ?_, .cons hshown hshown'⟩
          · rw [List.flatMap_cons, ← List.append_assoc]
            exact hdelivered
          · rw [hdisplayed', List.append_assoc]
            cases shown <;> rfl

/-- Messages with a text that are displayed, whatever memory holds, are read one by one. -/
theorem eq_ofMessage_of_displays {its : List Iteration} {messages : List EchoedMessage}
    (hpos : ∀ m ∈ messages, 0 < m.length)
    (hstream : (its.map Iteration.bytes).flatten = stream messages)
    (h : Displays its messages) : its = messages.map Iteration.ofMessage := by
  obtain ⟨state, tr, shown, hreach, hdelivered, hdisplayed, hshown⟩ :=
    exists_run its (.init : Reaches (Word.ofNat 0) _ _)
  -- this run has to display the messages as well
  have hmessages := h _ state tr hreach hdelivered
  rw [hdisplayed] at hmessages
  exact eq_ofMessage_of_shown hshown hpos hmessages hstream.symm

/-- Messages are displayed one by one, whatever memory holds, when each echo is read by one
iteration, four bytes first; messages with a text, in no other case. -/
theorem displays_frames_and_only {its : List Iteration} {messages : List EchoedMessage}
    (hstream : (its.map Iteration.bytes).flatten = stream messages) :
    (its = messages.map Iteration.ofMessage → Displays its messages) ∧
      ((∀ m ∈ messages, 0 < m.length) → Displays its messages →
        its = messages.map Iteration.ofMessage) := by
  constructor
  · rintro rfl
    exact displayed_of_frames messages
  · exact fun hpos => eq_ofMessage_of_displays hpos hstream

/-- A message of one character. -/
def letter (c : UInt8) (h : c ≠ 0) : EchoedMessage :=
  { szMessage := ⟨[c], by simpa using h.symm⟩, length_le := by simp }

/-- Two echoes, one iteration each. -/
theorem displays_frames_and_only_of_two :
    Displays ([letter 0x41 (by decide), letter 0x42 (by decide)].map Iteration.ofMessage)
      [letter 0x41 (by decide), letter 0x42 (by decide)] :=
  (displays_frames_and_only (by decide)).1 rfl

/-- The iteration that takes two echoes at once. -/
def coalesced : Iteration :=
  { packetType := [0x11, 0, 0, 0]
    payload := some [2, 0, 0, 0, 0x41, 0, 0x11, 0, 0, 0, 2, 0, 0, 0, 0x42, 0]
    packetType_ne := by decide
    length_packetType_le := by decide
    payload_fits := by decide }

/-- Two echoes that arrive together. -/
theorem not_displays_of_coalesced :
    ([coalesced].map Iteration.bytes).flatten =
        stream [letter 0x41 (by decide), letter 0x42 (by decide)] ∧
      ¬ Displays [coalesced] [letter 0x41 (by decide), letter 0x42 (by decide)] := by
  have hstream : ([coalesced].map Iteration.bytes).flatten =
      stream [letter 0x41 (by decide), letter 0x42 (by decide)] := by decide
  refine ⟨hstream, fun h => ?_⟩
  have heq := eq_ofMessage_of_displays (by decide) hstream h
  exact absurd (congrArg List.length heq) (by decide)

end CClient

end PocoEcho

import PocoEcho.Client.Runs

/-!
# The grammar of packets on the client

`CClient::PacketHandler` is meant to display the messages that keep to the grammar and nothing else.
Since the branch for ACCEPT has no `break`, and decoding looks neither at the number of bytes read
nor at the sign of the length, it displays or faults on every other MESSAGE and on every ACCEPT.

## Main results

* `handlerMeetsGrammar_iff`: the packets on which the handler does what is meant.
-/

namespace PocoEcho

open Poco MessageBody

/-- The handler displays the text of a MESSAGE that keeps to the grammar. On any other packet it
displays nothing and is left by no exception other than a `Poco::Exception`; one of another type
moreover stays in the buffer. -/
def HandlerMeetsGrammar (env : HandlerEnv) (buffer : FIFOBuffer) (packetType : Word) : Prop :=
  let outcome := CClient.packetHandler env buffer packetType
  let displayed := outcome.log.filterMap ConsoleEvent.displayed
  (packetType = PacketType.message.word → ∀ payload, Encodes buffer.content payload →
    displayed = [.ofPrefix payload] ∧ ∃ buffer', outcome.result = .ok buffer') ∧
  (packetType = PacketType.message.word → ¬ WellFormed buffer.content →
    displayed = [] ∧ ∀ fault, outcome.result = .error fault → fault = .pocoException) ∧
  (packetType ≠ PacketType.message.word →
    displayed = [] ∧ (outcome.result = .ok buffer ∨ outcome.result = .error .pocoException))

/-- The packets on which the handler does what is meant: a MESSAGE that keeps to the grammar, an
ACCEPT for which `address()` throws, and those of any other type. -/
def HandledAsMeant (env : HandlerEnv) (buffer : FIFOBuffer) (packetType : Word) : Prop :=
  (packetType = PacketType.message.word → WellFormed buffer.content) ∧
    (packetType = PacketType.accept.word → env.throwsAt = some .acceptAddress)

namespace CClient

/-- The handler on a MESSAGE. -/
theorem packetHandler_message (env : HandlerEnv) (buffer : FIFOBuffer) :
    packetHandler env buffer PacketType.message.word = displayMessage env.stray buffer := rfl

/-- The handler on an ACCEPT goes on as on a MESSAGE, unless `address()` throws. -/
theorem packetHandler_accept (env : HandlerEnv) (buffer : FIFOBuffer) :
    packetHandler env buffer PacketType.accept.word =
      if env.throwsAt = some .acceptAddress then ⟨[.throws], .error .pocoException⟩
      else displayMessage env.stray buffer := rfl

/-- The branch for MESSAGE displays a message or is left by a fault that is no `Poco::Exception`. -/
theorem displays_or_faults (stray : Stray) (buffer : FIFOBuffer) :
    (displayMessage stray buffer).log.filterMap ConsoleEvent.displayed ≠ [] ∨
      ∃ fault, (displayMessage stray buffer).result = .error fault ∧ fault ≠ .pocoException := by
  cases hresult : (displayMessage stray buffer).result with
  | error fault =>
      right
      refine ⟨fault, rfl, ?_⟩
      rintro rfl
      exact displayMessage_ne stray buffer hresult
  | ok buffer' =>
      left
      cases hdecode : decode stray buffer with
      | error fault => simp [displayMessage_of_error hdecode, Logged.throw] at hresult
      | ok p =>
          rw [displayMessage_of_decode hdecode] at hresult ⊢
          cases hstring : p.1.cString with
          | none => simp [hstring] at hresult
          | some m => simp [ConsoleEvent.displayed]

/-- A message that keeps to the grammar is displayed up to its first NUL. -/
theorem displayMessage_of_encodes (stray : Stray) {buffer : FIFOBuffer} {payload : List UInt8}
    (h : Encodes buffer.content payload) :
    ∃ buffer', displayMessage stray buffer = ⟨[.message (.ofPrefix payload)], .ok buffer'⟩ := by
  obtain ⟨buffer', hdecode⟩ := decode_of_encodes stray h
  obtain ⟨_, _, _, _, hnul⟩ := h
  refine ⟨buffer', ?_⟩
  rw [displayMessage_of_decode hdecode, CharArray.cString_of_mem hnul]
  rfl

/-- Where the branch for MESSAGE displays nothing, it is left by a fault that is no
`Poco::Exception`. -/
theorem not_quiet (stray : Stray) (buffer : FIFOBuffer) :
    ¬ ((displayMessage stray buffer).log.filterMap ConsoleEvent.displayed = [] ∧
      ∀ fault, (displayMessage stray buffer).result = .error fault → fault = .pocoException) := by
  rintro ⟨hdisplayed, hfault⟩
  rcases displays_or_faults stray buffer with h | ⟨fault, hresult, hne⟩
  · exact h hdisplayed
  · exact hne (hfault fault hresult)

end CClient

open CClient in
/-- The packets on which the handler does what is meant. -/
theorem handlerMeetsGrammar_iff (env : HandlerEnv) (buffer : FIFOBuffer) (packetType : Word) :
    HandlerMeetsGrammar env buffer packetType ↔ HandledAsMeant env buffer packetType := by
  constructor
  · rintro ⟨-, hmalformed, hother⟩
    constructor
    · rintro rfl
      by_contra h
      exact not_quiet env.stray buffer (hmalformed rfl h)
    · rintro rfl
      by_contra hthrows
      obtain ⟨hdisplayed, hresult⟩ := hother (by decide)
      rw [packetHandler_accept, if_neg hthrows] at hdisplayed hresult
      refine not_quiet env.stray buffer ⟨hdisplayed, ?_⟩
      intro fault hfault
      rcases hresult with hok | herror
      · simp [hok] at hfault
      · exact Except.error.inj (hfault.symm.trans herror)
  · rintro ⟨hmessage, haccept⟩
    refine ⟨?_, fun h hmalformed => absurd (hmessage h) hmalformed, ?_⟩
    · rintro rfl payload hpayload
      obtain ⟨buffer', hdisplay⟩ := displayMessage_of_encodes env.stray hpayload
      rw [packetHandler_message, hdisplay]
      exact ⟨rfl, buffer', rfl⟩
    · intro hne
      by_cases h : packetType = PacketType.accept.word
      · subst h
        rw [packetHandler_accept, if_pos (haccept rfl)]
        exact ⟨rfl, .inr rfl⟩
      · rw [packetHandler_of_notMem env buffer (by simp [displayTypes, h, hne])]
        exact ⟨rfl, .inl rfl⟩

/-- An ACCEPT that is followed by a message body displays it. -/
theorem not_handlerMeetsGrammar_of_accept :
    ∃ buffer : FIFOBuffer, buffer.content = [2, 0, 0, 0, 0x41, 0] ∧
      ¬ HandlerMeetsGrammar .zero buffer PacketType.accept.word ∧
        (CClient.packetHandler .zero buffer PacketType.accept.word).log =
          [.message ⟨[0x41], by decide⟩] := by
  refine ⟨(BoundedQueue.empty maxBufferLength).write [2, 0, 0, 0, 0x41, 0], rfl, ?_, rfl⟩
  rintro ⟨-, -, hother⟩
  exact absurd (hother (by decide)).1 (by decide)

end PocoEcho

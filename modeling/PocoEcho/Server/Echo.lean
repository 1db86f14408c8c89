import PocoEcho.Server.Dispatch
import PocoEcho.Server.Runs

/-!
# What the echo depends on

The array for a message is allocated with the declared length and filled with the bytes received.
When fewer bytes than declared were received and none of them is NUL, the string that is echoed
extends into memory that the client has not sent.

## Main results

* `echoConfined_iff`: the bytes sent in reaction to a chunk are a function of the chunk exactly
  for the chunks that are `EchoDetermined`.
-/

namespace PocoEcho

open Poco ServerLoop

variable {S : Type} [DecidableEq S] {server client : S}

/-- The bytes sent in reaction to a chunk; `none` when the loop is not about to receive. -/
def reaction (server : S) (state : LoopState S) (chunk : List UInt8) (stray : Stray) :
    Option (List UInt8) :=
  ((serverLoop CServer.handlers server).step state (.receive (.bytes chunk) ⟨stray, none⟩)).map
    fun outcome => (outcome.2.filterMap Event.sent).flatten

/-- In some run the loop is about to receive from the client. -/
def CanReceive (server client : S) (state : LoopState S) : Prop :=
  ∃ packetType tr, (serverLoop CServer.handlers server).Reachable Admissible
    (LoopState.initial server packetType) state tr ∧ state.AtReceive client

/-- What the server sends in reaction to a chunk of the client does not depend on the run or on
uninitialised memory. -/
def EchoConfined (server client : S) (chunk : List UInt8) : Prop :=
  ∀ state state' stray stray', CanReceive server client state → CanReceive server client state' →
    reaction server state chunk stray = reaction server state' chunk stray'

/-- The length that a chunk of at least eight bytes declares. -/
def declaredBy (chunk : List UInt8) : ℤ :=
  ((Word.ofNat 0).overwrite ((chunk.drop 4).take 4)).toInt

/-- The chunk is not handled as a MESSAGE, or it contains the whole length field, and this is
negative or the payload received contains a NUL. -/
def EchoDetermined (chunk : List UInt8) : Prop :=
  ¬ chunk.take 4 <+: PacketType.message.word.bytes ∨
    8 ≤ chunk.length ∧
      (declaredBy chunk < 0 ∨ 0 ∈ (chunk.drop 8).take (declaredBy chunk).toNat)

/-- The bytes sent in reaction to a chunk are those that the handler sends. -/
theorem reaction_eq {state : LoopState S} (hstate : state.AtReceive client)
    (hclient : client ≠ server) (chunk : List UInt8) (stray : Stray) :
    reaction server state chunk stray =
      some ((CServer.packetHandler ⟨stray, none⟩ client (chunkBody chunk)
        (chunkType state.packetType chunk)).log.filterMap fun e =>
          Event.sent (.handler e)).flatten := by
  obtain ⟨hrun, rest, hread⟩ := hstate.exists_readList
  rw [reaction, step_receive _ _ hrun hread hclient, Option.map_some, log_handleData]
  simp only [List.filterMap_cons, Event.sent, List.filterMap_map]
  rfl

/-- Nothing is sent in reaction to a chunk that is not handled as a MESSAGE. -/
theorem reaction_of_ne {state : LoopState S} (hstate : state.AtReceive client)
    (hclient : client ≠ server) {chunk : List UInt8}
    (htype : chunkType state.packetType chunk ≠ PacketType.message.word) (stray : Stray) :
    reaction server state chunk stray = some [] := by
  rw [reaction_eq hstate hclient]
  rcases CServer.packetHandler_other ⟨stray, none⟩ client (chunkBody chunk) htype with h | ⟨-, h⟩
  · rw [h]
    rfl
  · exact absurd rfl h

/-- The echo of a chunk that is handled as a MESSAGE. -/
theorem reaction_of_message {state : LoopState S} (hstate : state.AtReceive client)
    (hclient : client ≠ server) {chunk : List UInt8}
    (htype : chunkType state.packetType chunk = PacketType.message.word) {stray : Stray}
    (hlen : 0 ≤ MessageBody.declaredLength stray (chunkBody chunk)) {m : CString}
    (hm : (MessageBody.messageArray stray (chunkBody chunk)).cString = some m) :
    reaction server state chunk stray = some (CServer.reply m) := by
  obtain ⟨rest, hdecode⟩ := MessageBody.decode_of_nonneg hlen
  rw [reaction_eq hstate hclient, htype, CServer.packetHandler_message stray client hdecode, hm]
  simp [Event.sent]

/-- Nothing is sent in reaction to a MESSAGE with a negative length: it ends the loop. -/
theorem reaction_of_neg {state : LoopState S} (hstate : state.AtReceive client)
    (hclient : client ≠ server) {chunk : List UInt8}
    (htype : chunkType state.packetType chunk = PacketType.message.word) {stray : Stray}
    (hlen : MessageBody.declaredLength stray (chunkBody chunk) < 0) :
    reaction server state chunk stray = some [] := by
  have hdecode := MessageBody.decode_of_neg hlen
  rw [reaction_eq hstate hclient, htype,
    CServer.packetHandler_of_error ⟨stray, none⟩ client hdecode]
  rfl

/-- The bytes sent in reaction to a chunk that determines them. -/
def determinedEcho (chunk : List UInt8) : List UInt8 :=
  if chunk.take 4 = PacketType.message.word.bytes ∧ 0 ≤ declaredBy chunk then
    CServer.reply (.ofPrefix ((chunk.drop 8).take (declaredBy chunk).toNat))
  else []

/-- A chunk whose first bytes are not those of MESSAGE is never handled as a MESSAGE. -/
theorem chunkType_ne_message {chunk : List UInt8}
    (h : ¬ chunk.take 4 <+: PacketType.message.word.bytes) (stale : Word) :
    chunkType stale chunk ≠ PacketType.message.word := by
  intro htype
  have htake : (chunk.take maxBufferLength).take 4 = chunk.take 4 := by
    rw [List.take_take]
    rfl
  refine h (htype ▸ ?_)
  rw [chunkType, htake]
  exact Word.overwrite_isPrefix _ (by simp)

/-- The length that is declared by a chunk which contains the whole length field. -/
theorem declaredLength_chunkBody {chunk : List UInt8} (hfits : chunk.length ≤ maxBufferLength)
    (h : 8 ≤ chunk.length) (stray : Stray) :
    MessageBody.declaredLength stray (chunkBody chunk) = declaredBy chunk := by
  have hword : stray.word.overwrite ((chunk.drop 4).take 4) =
      (Word.ofNat 0).overwrite ((chunk.drop 4).take 4) :=
    Word.overwrite_eq_of_le _ _ (by simp; omega)
  rw [MessageBody.declaredLength, readWord_fst, content_chunkBody hfits, hword, declaredBy]

/-- The payload of a chunk which contains the whole length field. -/
theorem receivedPayload_chunkBody {chunk : List UInt8} (hfits : chunk.length ≤ maxBufferLength)
    (h : 8 ≤ chunk.length) (stray : Stray) :
    MessageBody.receivedPayload stray (chunkBody chunk) =
      (chunk.drop 8).take (declaredBy chunk).toNat := by
  rw [MessageBody.receivedPayload, declaredLength_chunkBody hfits h, content_chunkBody hfits,
    List.drop_drop]

/-- A chunk that determines the echo is answered by this echo in every run. -/
theorem reaction_of_determined {chunk : List UInt8} (hfits : chunk.length ≤ maxBufferLength)
    (h : EchoDetermined chunk) {state : LoopState S} (hstate : state.AtReceive client)
    (hclient : client ≠ server) (stray : Stray) :
    reaction server state chunk stray = some (determinedEcho chunk) := by
  by_cases hpre : chunk.take 4 <+: PacketType.message.word.bytes
  · obtain ⟨hlong, hdet⟩ := h.resolve_left (not_not.mpr hpre)
    -- the whole type is there, and it is MESSAGE
    have htake : chunk.take 4 = PacketType.message.word.bytes :=
      hpre.eq_of_length (by rw [List.length_take, Word.length_eq]; omega)
    have htype : chunkType state.packetType chunk = PacketType.message.word :=
      (chunkType_eq_iff (by omega)).mpr htake
    have hlen := declaredLength_chunkBody hfits hlong stray
    rcases lt_or_ge (declaredBy chunk) 0 with hneg | hnonneg
    · rw [reaction_of_neg hstate hclient htype (hlen ▸ hneg), determinedEcho,
        if_neg fun hc => absurd hc.2 (by omega)]
    · have hnul := hdet.resolve_left (by omega)
      rw [← receivedPayload_chunkBody hfits hlong stray] at hnul
      -- the NUL ends the string inside the payload received
      rw [reaction_of_message hstate hclient htype (hlen ▸ hnonneg)
        (MessageBody.cString_messageArray hnul), determinedEcho,
        if_pos ⟨htake, hnonneg⟩, receivedPayload_chunkBody hfits hlong]
  · have htake : chunk.take 4 ≠ PacketType.message.word.bytes :=
      fun heq => hpre (heq ▸ List.prefix_rfl)
    rw [reaction_of_ne hstate hclient (chunkType_ne_message hpre _), determinedEcho,
      if_neg fun hc => htake hc.1]

/-- The lengths of two messages with the same echo are equal. -/
theorem length_eq_of_reply_eq {m m' : CString} (hm : m.chars.length + 1 < 2 ^ 32)
    (hm' : m'.chars.length + 1 < 2 ^ 32) (h : CServer.reply m = CServer.reply m') :
    m.chars.length = m'.chars.length := by
  -- the length field of the echo tells the length of the message
  have hfield : ∀ x : CString, x.chars.length + 1 < 2 ^ 32 →
      ((CServer.reply x).drop 4).take 4 = (Word.ofNat (x.chars.length + 1)).bytes := by
    intro x hx
    rw [CServer.reply_eq x hx, messageFrame, CString.length_terminated, List.drop_take,
      List.append_assoc, List.drop_left' (Word.length_eq _), List.take_take,
      List.take_left' (by rw [Word.length_eq]; rfl)]
  have hword : Word.ofNat (m.chars.length + 1) = Word.ofNat (m'.chars.length + 1) :=
    Word.ext (by rw [← hfield m hm, ← hfield m' hm', h])
  have := Word.ofNat_inj hm hm' hword
  omega

/-- In zeroed memory, a string without NUL ends with the bytes received. -/
theorem cString_zeroed {buffer : FIFOBuffer}
    (hnul : 0 ∉ MessageBody.receivedPayload (.filled 0 [0]) buffer) :
    ∃ m, (MessageBody.messageArray (.filled 0 [0]) buffer).cString = some m ∧
      m.chars.length = (MessageBody.receivedPayload (.filled 0 [0]) buffer).length := by
  refine ⟨⟨_, hnul⟩, CharArray.cString_eq_some_iff.mpr ⟨?_, ?_⟩, rfl⟩
  · exact List.replicate ((MessageBody.declaredLength (.filled 0 [0]) buffer).toNat -
      (MessageBody.receivedPayload (.filled 0 [0]) buffer).length) 0
  · rw [MessageBody.memory_messageArray_filled, ← List.replicate_succ, ← List.replicate_succ']

/-- In memory filled with another character, it extends over the end of the array. -/
theorem cString_filled {buffer : FIFOBuffer}
    (hnul : 0 ∉ MessageBody.receivedPayload (.filled 65 [65, 0]) buffer) :
    ∃ m, (MessageBody.messageArray (.filled 65 [65, 0]) buffer).cString = some m ∧
      m.chars.length = (MessageBody.declaredLength (.filled 65 [65, 0]) buffer).toNat + 1 := by
  have hmem := MessageBody.memory_messageArray_filled 65 [65, 0] buffer
  have hle := MessageBody.length_receivedPayload_le (.filled 65 [65, 0]) buffer
  generalize MessageBody.receivedPayload (.filled 65 [65, 0]) buffer = P at *
  generalize (MessageBody.declaredLength (.filled 65 [65, 0]) buffer).toNat = L at *
  have hall : (0 : UInt8) ∉ P ++ (List.replicate (L - P.length) 65 ++ [65]) := by
    simp [hnul]
  refine ⟨⟨_, hall⟩, CharArray.cString_eq_some_iff.mpr ⟨[], ?_⟩, ?_⟩
  · rw [hmem]
    simp
  · simp only [List.length_append, List.length_replicate, List.length_cons, List.length_nil]
    omega

/-- A chunk that may be handled as a MESSAGE but does not determine its echo: with a zero in the
variable `iLength`, the declared length is not negative and no NUL was received. -/
theorem not_nul_of_not_determined {chunk : List UInt8} (hfits : chunk.length ≤ maxBufferLength)
    (h : ¬ EchoDetermined chunk) (c : UInt8) (behind : List UInt8) :
    0 ≤ MessageBody.declaredLength (.filled c behind) (chunkBody chunk) ∧
      0 ∉ MessageBody.receivedPayload (.filled c behind) (chunkBody chunk) := by
  rw [EchoDetermined, not_or, not_and_or, not_or] at h
  rcases lt_or_ge chunk.length 8 with hshort | hlong
  -- a part of the length field, on top of a zero, is not negative
  · have hbody : (chunkBody chunk).content.length < 4 := by
      rw [content_chunkBody hfits, List.length_drop]
      omega
    constructor
    · rw [MessageBody.declaredLength, readWord_fst]
      exact Word.toInt_overwrite_nonneg (by rw [List.length_take]; omega)
    · rw [MessageBody.receivedPayload, List.drop_eq_nil_of_le hbody.le, List.take_nil]
      exact List.not_mem_nil
  · obtain ⟨hnonneg, hnul⟩ := h.2.resolve_left (not_not.mpr hlong)
    rw [declaredLength_chunkBody hfits hlong, receivedPayload_chunkBody hfits hlong]
    exact ⟨by omega, hnul⟩

/-- After a MESSAGE of the client, the loop may receive from it again. -/
theorem canReceive_after_message (hclient : client ≠ server) :
    CanReceive server client { LoopState.admitted server client with
      packetType := PacketType.message.word, readList := [client] } := by
  have hmem : client ∈ (LoopState.admitted server client).clients := by
    simp [LoopState.admitted]
  have hhandled := (reaches_admitted (Word.ofNat 0) hclient "").receive ⟨rfl, rfl, rfl⟩ hmem
    hclient (by decide) HandlerEnv.zero.stray
    (congrArg Logged.result
      (handleData_messageFrame (LoopState.admitted server client) client
        (by decide : (messageFrame [0]).length ≤ maxBufferLength) (by simp) HandlerEnv.zero.stray))
  exact ⟨_, _, (hhandled.select ⟨rfl, rfl, rfl⟩ client hmem).reachable, rfl, rfl⟩

/-- A chunk that does not determine its echo is answered differently for different contents of
the memory that the client has not filled. -/
theorem not_echoConfined {chunk : List UInt8} (hfits : chunk.length ≤ maxBufferLength)
    (hclient : client ≠ server) (h : ¬ EchoDetermined chunk) :
    ¬ EchoConfined server client chunk := by
  intro hconfined
  have hcan := canReceive_after_message hclient
  obtain ⟨_, _, -, hstate⟩ := id hcan
  have hpre : chunk.take 4 <+: PacketType.message.word.bytes :=
    not_not.mp (not_or.mp h).1
  have htype : chunkType PacketType.message.word chunk = PacketType.message.word := by
    rw [chunkType, List.take_of_length_le hfits, Word.overwrite_of_isPrefix hpre]
  obtain ⟨hnonneg, hnul⟩ := not_nul_of_not_determined hfits h 0 [0]
  obtain ⟨hnonneg', hnul'⟩ := not_nul_of_not_determined hfits h 65 [65, 0]
  -- the same chunk, once in zeroed memory and once in memory without NUL
  obtain ⟨m, hm, hlen⟩ := cString_zeroed hnul
  obtain ⟨m', hm', hlen'⟩ := cString_filled hnul'
  have hecho := hconfined _ _ (.filled 0 [0]) (.filled 65 [65, 0]) hcan hcan
  rw [reaction_of_message hstate hclient htype hnonneg hm,
    reaction_of_message hstate hclient htype hnonneg' hm', Option.some.injEq] at hecho
  -- both runs find the same declared length, and at most as many payload bytes
  have hL : MessageBody.declaredLength (.filled 65 [65, 0]) (chunkBody chunk) =
    MessageBody.declaredLength (.filled 0 [0]) (chunkBody chunk) := rfl
  have hle := MessageBody.length_receivedPayload_le (.filled 0 [0]) (chunkBody chunk)
  have hlt : MessageBody.declaredLength (.filled 0 [0]) (chunkBody chunk) < 2 ^ 31 :=
    Word.toInt_lt _
  rw [hL] at hlen'
  have hlength := length_eq_of_reply_eq (by omega) (by omega) hecho
  omega

/-- The bytes that the server sends in reaction to a chunk are a function of the chunk exactly
when the chunk determines them. -/
theorem echoConfined_iff {chunk : List UInt8} (hfits : chunk.length ≤ maxBufferLength)
    (hclient : client ≠ server) :
    EchoConfined server client chunk ↔ EchoDetermined chunk := by
  constructor
  · intro hconfined
    by_contra h
    exact not_echoConfined hfits hclient h hconfined
  · rintro h state state' stray stray' ⟨_, _, -, hstate⟩ ⟨_, _, -, hstate'⟩
    rw [reaction_of_determined hfits h hstate hclient,
      reaction_of_determined hfits h hstate' hclient]

/-- The echo of a whole frame is determined, and so is the missing echo of an unknown type. -/
theorem echoConfined_iff_of_frame :
    (EchoConfined 0 1 [0x11, 0, 0, 0, 2, 0, 0, 0, 0x41, 0] ↔
        EchoDetermined [0x11, 0, 0, 0, 2, 0, 0, 0, 0x41, 0]) ∧
      EchoDetermined [0x11, 0, 0, 0, 2, 0, 0, 0, 0x41, 0] :=
  ⟨echoConfined_iff (by decide) (by decide), by unfold EchoDetermined; decide⟩

/-- A frame that declares five bytes but carries one is answered with the memory behind it. -/
theorem not_echoConfined_of_short_payload :
    ¬ EchoConfined 0 1 [0x11, 0, 0, 0, 5, 0, 0, 0, 0x41] :=
  not_echoConfined (by decide) (by decide) (by unfold EchoDetermined; decide)

end PocoEcho

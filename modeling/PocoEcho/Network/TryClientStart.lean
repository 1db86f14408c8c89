import PocoEcho.Network.CNetwork
import PocoEcho.Network.Packets

/-!
# The handshake of the client

`CNetwork::TryClientStart` connects, waits for data and receives a packet type into an uninitialised
variable. Of what `receiveBytes` returns, it looks only at whether it is zero.

## Main definitions

* `Handshake`: what the calls on the socket come to;
* `CNetwork.tryClientStart`: the function.

## Main results

* `handshakeDecided_iff`: the start succeeds exactly when the peer has sent ACCEPT, unless the bytes
  that were not received happen to complete it.
-/

namespace PocoEcho

/-- What the calls on the socket come to. -/
structure Handshake where
  /-- `connectNB` returns. -/
  connectNB : Bool
  /-- What `poll` returns, if it does not throw; it is `false` after `MAX_TIMEOUT` seconds. -/
  poll : Option Bool
  /-- The result of `receiveBytes`. -/
  receiveBytes : ReceiveResult
  /-- A call that receives something receives from one to four bytes. -/
  length_le : ∀ data, receiveBytes = .bytes data → data ≠ [] ∧ data.length ≤ 4

namespace Handshake

/-- The peer has delivered the four bytes of ACCEPT. -/
def Accepted (handshake : Handshake) : Prop :=
  handshake.connectNB = true ∧ handshake.poll ≠ none ∧
    handshake.receiveBytes = .bytes PacketType.accept.word.bytes

/-- Nothing is received, or less than four bytes, and the variable holds ACCEPT all the same. -/
def Misread (handshake : Handshake) (packetType : Word) : Prop :=
  handshake.connectNB = true ∧ handshake.poll ≠ none ∧
    (handshake.receiveBytes = .negative ∧ packetType = PacketType.accept.word ∨
      ∃ data, handshake.receiveBytes = .bytes data ∧ data.length < 4 ∧
        packetType.overwrite data = PacketType.accept.word)

/-- The test of the variable `packetType`; otherwise "Access denied." is thrown. -/
def check (packetType : Word) : Except Fault Unit :=
  if packetType ≠ PacketType.accept.word then .error .pocoException else .ok ()

/-- The `try` block: what becomes of the socket, and whether the block is left by an exception. -/
def tryBlock (handshake : Handshake) (packetType : Word) : SocketState × Except Fault Unit :=
  if !handshake.connectNB then (.created, .error .pocoException)
  else
    match handshake.poll with
    | none => (.connected, .error .pocoException)
    -- the call goes on after a timeout as it does when there is something to receive
    | some _ =>
        (.connected,
          match handshake.receiveBytes with
          | .throws => .error .pocoException
          -- "Server closed the connection."
          | .shutdown => .error .pocoException
          | .negative => check packetType
          | .bytes data => check (packetType.overwrite data))

end Handshake

namespace CNetwork

variable {P : Type}

/-- `TryClientStart`; `packetType` is what the uninitialised variable holds. The result is `none` if
`Close` waits in `join`. -/
def tryClientStart (isServer : Bool) (packetType : Word) (handshake : Handshake)
    (network : CNetwork P) : Except Fault (Option Bool × CNetwork P) :=
  if isServer || network.socket.nonNull then .ok (some false, network)
  else
    let (socket, result) := handshake.tryBlock packetType
    let network := { network with socket := .live socket }
    match result with
    | .ok () => .ok (some true, network)
    -- `catch (Exception e)`
    | .error .pocoException => do
        let thread ←
          if network.thread.nonNull then network.thread.delete Fault.accessViolation
          else .ok network.thread
        let (closed, network) ← { network with thread }.close
        return (closed.map fun _ => false, network)
    | .error fault => .error fault

/-- The result of a start tells whether the peer has accepted, and a start that fails leaves the
object as it was. -/
def HandshakeDecided (packetType : Word) (handshake : Handshake) (network : CNetwork P) : Prop :=
  ∃ started, network.tryClientStart false packetType handshake =
      .ok (some started, if started then { network with socket := .live .connected } else network) ∧
    (started = true ↔ handshake.Accepted)

end CNetwork

namespace Handshake

/-- The test succeeds or throws. -/
theorem check_eq (packetType : Word) :
    check packetType =
      if packetType = PacketType.accept.word then .ok () else .error .pocoException := by
  simp only [check, ne_eq, ite_not]

/-- The variable after the calls, if none of them throws and the connection is still open. -/
def finalType (handshake : Handshake) (packetType : Word) : Option Word :=
  if handshake.connectNB = true ∧ handshake.poll ≠ none then
    match handshake.receiveBytes with
    | .negative => some packetType
    | .bytes data => some (packetType.overwrite data)
    | _ => none
  else none

/-- The block succeeds when the variable holds ACCEPT in the end, and is left by a `Poco::Exception`
otherwise. -/
theorem tryBlock_eq (handshake : Handshake) (packetType : Word) :
    (handshake.tryBlock packetType).2 =
        (if handshake.finalType packetType = some PacketType.accept.word then .ok ()
        else .error .pocoException) ∧
      (handshake.finalType packetType = some PacketType.accept.word →
        (handshake.tryBlock packetType).1 = .connected) := by
  obtain ⟨connectNB, poll, receiveBytes, hfits⟩ := handshake
  cases connectNB with
  | false => simp [tryBlock, finalType]
  | true =>
      cases poll with
      | none => simp [tryBlock, finalType]
      | some ready =>
          cases receiveBytes with
          | bytes data => simp [tryBlock, finalType, check_eq]
          | shutdown => simp [tryBlock, finalType]
          | negative => simp [tryBlock, finalType, check_eq]
          | throws => simp [tryBlock, finalType]

/-- The variable holds ACCEPT in the end because this was received, or by accident. -/
theorem finalType_eq_accept_iff (handshake : Handshake) (packetType : Word) :
    handshake.finalType packetType = some PacketType.accept.word ↔
      handshake.Accepted ∨ handshake.Misread packetType := by
  obtain ⟨connectNB, poll, receiveBytes, hfits⟩ := handshake
  simp only [finalType, Accepted, Misread]
  by_cases hcalls : connectNB = true ∧ poll ≠ none
  · rw [if_pos hcalls]
    simp only [hcalls.1, hcalls.2, ne_eq, not_false_eq_true, true_and]
    cases receiveBytes with
    | bytes data =>
        simp only [Option.some.injEq, ReceiveResult.bytes.injEq, reduceCtorEq, false_and, false_or]
        have hle := (hfits data rfl).2
        constructor
        · intro hword
          rcases Nat.lt_or_eq_of_le hle with hshort | hfour
          · exact .inr ⟨data, rfl, hshort, hword⟩
          -- four bytes overwrite the whole variable
          · left
            rw [← hword, Word.overwrite_of_le _ hfour.ge, List.take_of_length_le hfour.le]
        · rintro (rfl | ⟨_, rfl, -, hword⟩)
          · exact Word.overwrite_bytes _ _
          · exact hword
    | shutdown => simp
    | negative => simp
    | throws => simp
  · rw [if_neg hcalls]
    constructor
    · intro h
      cases h
    · rintro (⟨hconnect, hpoll, -⟩ | ⟨hconnect, hpoll, -⟩)
      · exact absurd ⟨hconnect, hpoll⟩ hcalls
      · exact absurd ⟨hconnect, hpoll⟩ hcalls

/-- What was received by accident is not ACCEPT. -/
theorem not_accepted_of_misread {handshake : Handshake} {packetType : Word}
    (h : handshake.Misread packetType) : ¬ handshake.Accepted := by
  rintro ⟨-, -, haccept⟩
  obtain ⟨-, -, ⟨hnegative, -⟩ | ⟨data, hdata, hshort, -⟩⟩ := h
  · rw [haccept] at hnegative
    cases hnegative
  · rw [haccept, ReceiveResult.bytes.injEq] at hdata
    rw [← hdata, Word.length_eq] at hshort
    omega

/-- Whether the type is misread is decidable. -/
instance decidableMisread (handshake : Handshake) (packetType : Word) :
    Decidable (handshake.Misread packetType) :=
  decidable_of_iff
    (handshake.finalType packetType = some PacketType.accept.word ∧
      handshake.receiveBytes ≠ .bytes PacketType.accept.word.bytes) <| by
    constructor
    · rintro ⟨hfinal, hne⟩
      exact ((handshake.finalType_eq_accept_iff packetType).mp hfinal).resolve_left
        fun haccepted => hne haccepted.2.2
    · intro h
      refine ⟨(handshake.finalType_eq_accept_iff packetType).mpr (.inr h), fun heq => ?_⟩
      exact not_accepted_of_misread h ⟨h.1, h.2.1, heq⟩

end Handshake

namespace CNetwork

variable {P : Type}

/-- A start from the initial state succeeds when the variable holds ACCEPT in the end; otherwise the
object returns to the initial state. -/
theorem tryClientStart_idle (packetType : Word) (handshake : Handshake) (handlers : List P) :
    (idle handlers).tryClientStart false packetType handshake =
      if handshake.finalType packetType = some PacketType.accept.word then
        .ok (some true, { idle handlers with socket := .live .connected })
      else .ok (some false, idle handlers) := by
  obtain ⟨hresult, hsocket⟩ := handshake.tryBlock_eq packetType
  by_cases hfinal : handshake.finalType packetType = some PacketType.accept.word
  · rw [if_pos hfinal] at hresult ⊢
    simp only [tryClientStart, hresult, hsocket hfinal]
    rfl
  · rw [if_neg hfinal] at hresult ⊢
    have hclose : close { idle handlers with socket := .live (handshake.tryBlock packetType).1 } =
      .ok (some true, idle handlers) := close_of_live rfl rfl
    simp only [tryClientStart, hresult]
    rw [if_neg (by simp [idle]), if_neg (by simp [idle])]
    -- there is no thread to be deleted, so the `catch` handler only calls `Close`
    show (close { idle handlers with socket := .live (handshake.tryBlock packetType).1 } >>=
      fun p => Except.ok (p.1.map fun _ => false, p.2)) = _
    rw [hclose]
    rfl

end CNetwork

/-- From the initial state, the start is decided as is meant unless the type is misread; a server
object, and one that has a socket, is not started and not changed. -/
theorem handshakeDecided_iff {P : Type} (packetType : Word) (handshake : Handshake)
    (handlers : List P) :
    ((CNetwork.idle handlers).HandshakeDecided packetType handshake ↔
        ¬ handshake.Misread packetType) ∧
      ∀ (isServer : Bool) (network : CNetwork P),
        isServer = true ∨ network.socket ≠ .null →
          network.tryClientStart isServer packetType handshake = .ok (some false, network) := by
  have hfinal := handshake.finalType_eq_accept_iff packetType
  constructor
  · rw [CNetwork.HandshakeDecided, CNetwork.tryClientStart_idle]
    constructor
    · rintro ⟨started, hstart, haccepted⟩ hmisread
      rw [if_pos (hfinal.mpr (.inr hmisread))] at hstart
      have htrue : true = started := Option.some.inj (Prod.mk.inj (Except.ok.inj hstart)).1
      exact Handshake.not_accepted_of_misread hmisread (haccepted.mp htrue.symm)
    · intro hread
      by_cases haccepted : handshake.Accepted
      · refine ⟨true, ?_, iff_of_true rfl haccepted⟩
        rw [if_pos (hfinal.mpr (.inl haccepted)), if_pos rfl]
      · refine ⟨false, ?_, iff_of_false Bool.false_ne_true haccepted⟩
        rw [if_neg (fun h => (hfinal.mp h).elim haccepted hread), if_neg Bool.false_ne_true]
  · intro isServer network h
    have hdeclined : (isServer || network.socket.nonNull) = true := by
      rcases h with rfl | hsocket
      · rfl
      · cases hnull : network.socket.nonNull with
        | false => exact absurd (Pointer.eq_null_of_nonNull hnull) hsocket
        | true => exact Bool.or_true _
    rw [CNetwork.tryClientStart, if_pos hdeclined]

/-- Two bytes of ACCEPT have arrived and the variable happens to hold ACCEPT: the start succeeds. -/
theorem not_handshakeDecided_of_short_read :
    ∃ handshake : Handshake, handshake.receiveBytes = .bytes [0x10, 0] ∧
      ¬ (CNetwork.idle ([] : List Unit)).HandshakeDecided PacketType.accept.word handshake := by
  refine ⟨⟨true, some true, .bytes [0x10, 0], by simp⟩, rfl, ?_⟩
  rintro ⟨started, hstart, haccepted⟩
  cases started with
  | true => exact absurd (haccepted.mp rfl).2.2 (by decide)
  | false => cases hstart

end PocoEcho

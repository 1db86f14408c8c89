import PocoEcho.Client.COption
import PocoEcho.Network.ClientLoop
import PocoEcho.Network.HandlerList
import PocoEcho.Network.TryClientStart

/-!
# The client's connection

`CClient::TryConnect` and `CClient::Disconnect`, and the network objects that exist. `TryConnect`
reports success whatever `TryClientStart` says, and forgets the network object of an earlier call.

## Main definitions

* `CClient.tryConnect`, `CClient.run` and `CClient.disconnect`;
* `CClient.SessionKept`: what is expected of the calls of a session;
* `CClient.ConnectsWhenFree`: `TryConnect` is called while there is no network object, and the
  server accepts.

## Main results

* `sessionKept_iff_connectsWhenFree`: when a session is as expected.
-/

namespace PocoEcho

/-- The network objects of `CClient`. -/
structure CClient (P : Type) where
  /-- `m_pNetwork`. -/
  network : Option (CNetwork P)
  /-- The objects that have not been deleted and that no pointer leads to any more. -/
  lost : List (CNetwork P)

/-- What a call of `TryConnect` meets. -/
structure ConnectAttempt where
  /-- The arguments. -/
  address : ServerAddress
  /-- What the uninitialised variable of `TryClientStart` holds. -/
  packetType : Word
  /-- What the calls on the socket come to. -/
  handshake : Handshake

/-- A call of the session. -/
inductive SessionCall
  /-- `TryConnect`. -/
  | tryConnect (attempt : ConnectAttempt)
  /-- `Disconnect`. -/
  | disconnect

namespace CNetwork

variable {P : Type}

/-- `if (IsInitialized()) Close()`, and the destructor; `none` if `Close` waits in `join`. -/
def closeIfInitialized (network : CNetwork P) : Except Fault (Option (CNetwork P)) :=
  if network.socket.nonNull then do
    let (closed, network) ← network.close
    return closed.map fun _ => network
  else .ok (some network)

end CNetwork

namespace CClient

variable {P : Type} [DecidableEq P]

/-- `CClient::CClient`. -/
def new : CClient P := { network := none, lost := [] }

/-- The number of network objects that exist. -/
def live (client : CClient P) : ℕ := client.network.toList.length + client.lost.length

/-- `TryConnect` behind its assertions, with the address of `CClient::PacketHandler`; the result is
`none` if it does not return. -/
def tryConnect (packetHandler : P) (attempt : ConnectAttempt) (client : CClient P) :
    Except Fault (Option Bool × CClient P) := do
  -- the pointer to the new object overwrites the one to the old object
  let lost := client.network.toList ++ client.lost
  let (started, network) ←
    (CNetwork.idle []).tryClientStart false attempt.packetType attempt.handshake
  match started with
  | none => return (none, { network := some network, lost })
  | some started =>
      let network := if started then network.addPacketHandler packetHandler else network
      -- a failure is only printed
      return (some true, { network := some network, lost })

/-- `Run` up to the start of its threads, with what is on the stack of the update thread; `none` if
it returns at once. -/
def run (client : CClient P) (packetType : Word) : Option ClientState :=
  match client.network with
  | none => none
  | some network => if network.socket.nonNull then some (.initial packetType) else none

/-- `Disconnect`; the result is `none` if it does not return. -/
def disconnect (client : CClient P) : Except Fault (Option Bool × CClient P) :=
  match client.network with
  | none => .ok (some false, client)
  | some network => do
      match ← network.closeIfInitialized with
      | none => return (none, client)
      | some network =>
          match ← network.closeIfInitialized with
          | none => return (none, client)
          | some _ => return (some true, { client with network := none })

/-- A call of the session. -/
def call (packetHandler : P) (client : CClient P) :
    SessionCall → Except Fault (Option Bool × CClient P)
  | .tryConnect attempt => client.tryConnect packetHandler attempt
  | .disconnect => client.disconnect

/-- The network object is initialised, and the handler is registered once. -/
def Connected (packetHandler : P) (client : CClient P) : Prop :=
  ∃ network, client.network = some network ∧ network.socket.nonNull = true ∧
    network.packetHandlerList.count packetHandler = 1

/-- What is expected of a call that returns. -/
def CallKept (packetHandler : P) (client : CClient P) (result : Bool) (client' : CClient P) :
    SessionCall → Prop
  | .tryConnect _ =>
      (result = true ↔ client'.Connected packetHandler) ∧
        (result = false → client'.network = none) ∧ client'.live ≤ 1
  | .disconnect => (result = true ↔ 0 < client.live) ∧ client'.network = none ∧ client'.live = 0

/-- Every call of the session returns, and does what is expected of it. -/
def SessionKept (packetHandler : P) (client : CClient P) : List SessionCall → Prop
  | [] => True
  | c :: calls =>
      ∃ result client', client.call packetHandler c = .ok (some result, client') ∧
        client.CallKept packetHandler result client' c ∧ client'.SessionKept packetHandler calls

/-- `TryConnect` is called while there is no network object, and the variable of the handshake holds
ACCEPT in the end. -/
def ConnectsNow (client : CClient P) : SessionCall → Prop
  | .tryConnect attempt =>
      client.network = none ∧
        (attempt.handshake.Accepted ∨ attempt.handshake.Misread attempt.packetType)
  | .disconnect => True

/-- So it is in every call of the session. -/
def ConnectsWhenFree (packetHandler : P) (client : CClient P) : List SessionCall → Prop
  | [] => True
  | c :: calls =>
      client.ConnectsNow c ∧ ∀ result client',
        client.call packetHandler c = .ok (result, client') →
          client'.ConnectsWhenFree packetHandler calls

/-- The connected client. -/
def connected (packetHandler : P) : CClient P :=
  { network := some { CNetwork.idle [packetHandler] with socket := .live .connected }, lost := [] }

/-- `TryConnect` returns `true`, whether the server accepts or not. -/
theorem tryConnect_eq (packetHandler : P) (attempt : ConnectAttempt) (client : CClient P) :
    client.tryConnect packetHandler attempt =
      .ok (some true,
        { network := some
            (if attempt.handshake.finalType attempt.packetType = some PacketType.accept.word then
              { CNetwork.idle [packetHandler] with socket := .live .connected }
            else CNetwork.idle [])
          lost := client.network.toList ++ client.lost }) := by
  unfold tryConnect
  rw [CNetwork.tryClientStart_idle]
  split
  · rfl
  · rfl

/-- The connected client is connected. -/
theorem connected_connected (packetHandler : P) :
    (connected packetHandler).Connected packetHandler :=
  ⟨_, rfl, rfl, List.count_singleton_self⟩

/-- A free client to which the server is connected. -/
theorem tryConnect_of_accept (packetHandler : P) {attempt : ConnectAttempt}
    (h : attempt.handshake.finalType attempt.packetType = some PacketType.accept.word) :
    (new : CClient P).tryConnect packetHandler attempt =
      .ok (some true, connected packetHandler) := by
  rw [tryConnect_eq, if_pos h]
  rfl

omit [DecidableEq P] in
/-- `Disconnect` of a connected client deletes the network object. -/
theorem disconnect_connected (packetHandler : P) :
    (connected packetHandler).disconnect = .ok (some true, new) := rfl

/-- A call that meets the condition does what is expected of it, and leaves a free or connected
client behind. -/
theorem callKept_of_connectsNow (packetHandler : P) {client : CClient P} {c : SessionCall}
    (hclient : client = .new ∨ client = connected packetHandler) (h : client.ConnectsNow c) :
    ∃ result client', client.call packetHandler c = .ok (some result, client') ∧
      client.CallKept packetHandler result client' c ∧
        (client' = .new ∨ client' = connected packetHandler) := by
  cases c with
  | tryConnect attempt =>
      obtain ⟨hfree, haccept⟩ := h
      have hnew : client = .new := by
        apply hclient.resolve_right
        rintro rfl
        cases hfree
      subst hnew
      have hfinal := (attempt.handshake.finalType_eq_accept_iff attempt.packetType).mpr haccept
      refine ⟨true, _, tryConnect_of_accept packetHandler hfinal, ⟨?_, ?_, ?_⟩, .inr rfl⟩
      · exact iff_of_true rfl (connected_connected packetHandler)
      · intro hfailed
        cases hfailed
      · exact Nat.le_refl 1
  | disconnect =>
      rcases hclient with rfl | rfl
      · refine ⟨false, .new, rfl, ⟨?_, rfl, rfl⟩, .inl rfl⟩
        exact iff_of_false Bool.false_ne_true (Nat.lt_irrefl 0)
      · refine ⟨true, .new, disconnect_connected packetHandler, ⟨?_, rfl, rfl⟩, .inl rfl⟩
        exact iff_of_true rfl Nat.zero_lt_one

/-- A call of a free or connected client that does what is expected of it meets the condition. -/
theorem connectsNow_of_callKept (packetHandler : P) {client client' : CClient P} {c : SessionCall}
    {result : Bool} (hclient : client = .new ∨ client = connected packetHandler)
    (hcall : client.call packetHandler c = .ok (some result, client'))
    (hkept : client.CallKept packetHandler result client' c) : client.ConnectsNow c := by
  cases c with
  | tryConnect attempt =>
      obtain ⟨hiff, -, hlive⟩ := hkept
      have heq := (tryConnect_eq packetHandler attempt client).symm.trans hcall
      obtain ⟨hresult, rfl⟩ := Prod.ext_iff.mp (Except.ok.inj heq)
      obtain rfl : true = result := Option.some.inj hresult
      rcases hclient with rfl | rfl
      · refine ⟨rfl, (attempt.handshake.finalType_eq_accept_iff attempt.packetType).mp ?_⟩
        by_contra hfinal
        -- the server does not accept, and there is no socket
        obtain ⟨network, hnetwork, hsocket, -⟩ := hiff.mp rfl
        obtain rfl := Option.some.inj hnetwork
        rw [if_neg hfinal] at hsocket
        cases hsocket
      · -- the network object of the connected client is lost
        exact absurd hlive (by simp [live, connected])
  | disconnect => trivial

end CClient

/-- A session that begins with a free client is as expected if and only if `TryConnect` is only
called while there is no network object and the server accepts. -/
theorem sessionKept_iff_connectsWhenFree {P : Type} [DecidableEq P] (packetHandler : P)
    (calls : List SessionCall) :
    CClient.SessionKept packetHandler .new calls ↔
      CClient.ConnectsWhenFree packetHandler .new calls := by
  have hgeneral : ∀ client : CClient P, client = .new ∨ client = .connected packetHandler →
      (client.SessionKept packetHandler calls ↔ client.ConnectsWhenFree packetHandler calls) := by
    induction calls with
    | nil => exact fun _ _ => Iff.rfl
    | cons c calls ih =>
        intro client hclient
        constructor
        · rintro ⟨result, client', hcall, hkept, hrest⟩
          have hnow := CClient.connectsNow_of_callKept packetHandler hclient hcall hkept
          obtain ⟨result', next, hnext, -, hvalid⟩ :=
            CClient.callKept_of_connectsNow packetHandler hclient hnow
          obtain rfl : client' = next :=
            (Prod.ext_iff.mp (Except.ok.inj (hcall.symm.trans hnext))).2
          refine ⟨hnow, fun result'' client'' hcall'' => ?_⟩
          obtain rfl : client' = client'' :=
            (Prod.ext_iff.mp (Except.ok.inj (hcall.symm.trans hcall''))).2
          exact (ih client' hvalid).mp hrest
        · rintro ⟨hnow, hrest⟩
          obtain ⟨result, client', hcall, hkept, hclient'⟩ :=
            CClient.callKept_of_connectsNow packetHandler hclient hnow
          exact ⟨result, client', hcall, hkept, (ih client' hclient').mpr (hrest _ _ hcall)⟩
  exact hgeneral .new (.inl rfl)

/-- No server answers: `TryConnect` returns `true` all the same. -/
theorem not_sessionKept_of_refused :
    ¬ CClient.SessionKept () .new
      [.tryConnect ⟨⟨⟨[49], by decide⟩, 28220, by decide⟩, Word.ofNat 0,
        ⟨false, none, .throws, by simp⟩⟩] := by
  rintro ⟨result, client', hcall, hkept, -⟩
  obtain ⟨-, haccept⟩ := CClient.connectsNow_of_callKept () (.inl rfl) hcall hkept
  simp [Handshake.Accepted, Handshake.Misread] at haccept

end PocoEcho

import PocoEcho.Library.Pointer
import PocoEcho.Network.Environment

/-!
# The network object

The members of `CNetwork`, `CNetwork::Exit` step by step, and what the update thread does to them.
Another thread may take steps of its own between any two of these.

## Main definitions

* `CNetwork`: the members;
* `ExitPoint.step` and `CNetwork.exit`: `Exit`, one statement at a time and as a whole;
* `CNetwork.close`: `Close`, when nothing happens in between;
* `UpdatePoint.step`: the update thread, as far as it concerns the members.

## Main results

* `CNetwork.exit_of_live` and `CNetwork.close_of_live`: both reset the object;
* `UpdatePoint.Fits.step`: what the members are while nobody else changes the pointers.
-/

namespace PocoEcho

/-- What a `StreamSocket` object stands for. -/
inductive SocketState
  /-- It has been created. -/
  | created
  /-- It is connected to the peer. -/
  | connected
  /-- It has been closed. -/
  | closed
  deriving DecidableEq

/-- `CNetwork`, with packet handlers at addresses `P`. -/
@[ext]
structure CNetwork (P : Type) where
  /-- `m_pSocket`. -/
  socket : Pointer SocketState
  /-- `m_packetHandlerList`. -/
  packetHandlerList : List P
  /-- `m_pThread`. -/
  thread : Pointer Unit
  /-- `m_bCloseRequested`. -/
  closeRequested : Bool
  deriving DecidableEq

/-- Where `Exit` stands. -/
inductive ExitPoint
  /-- `assert(m_pSocket)`. -/
  | assertSocket
  /-- `m_pSocket->close()`. -/
  | closeSocket
  /-- `delete m_pSocket`. -/
  | deleteSocket
  /-- `m_pSocket = nullptr`. -/
  | resetSocket
  /-- `m_bCloseRequested = false`. -/
  | resetFlag
  /-- The test of `m_pThread`. -/
  | testThread
  /-- `delete m_pThread`. -/
  | deleteThread
  /-- `m_pThread = nullptr`. -/
  | resetThread
  deriving DecidableEq

/-- One statement of `Exit`: where it stands afterwards, if it has not returned, and the members. -/
def ExitPoint.step {P : Type} (point : ExitPoint) (network : CNetwork P) :
    Except Fault (Option ExitPoint × CNetwork P) :=
  match point with
  | .assertSocket =>
      if network.socket.nonNull then .ok (some .closeSocket, network)
      else .error .accessViolation
  | .closeSocket => do
      let _ ← network.socket.get Fault.accessViolation
      return (some .deleteSocket, { network with socket := .live .closed })
  | .deleteSocket => do
      let socket ← network.socket.delete Fault.accessViolation
      return (some .resetSocket, { network with socket })
  | .resetSocket => .ok (some .resetFlag, { network with socket := .null })
  | .resetFlag => .ok (some .testThread, { network with closeRequested := false })
  | .testThread =>
      if network.thread.nonNull then .ok (some .deleteThread, network) else .ok (none, network)
  | .deleteThread => do
      let thread ← network.thread.delete Fault.accessViolation
      return (some .resetThread, { network with thread })
  | .resetThread => .ok (none, { network with thread := .null })

namespace CNetwork

variable {P : Type}

/-- `CNetwork::CNetwork`, with handlers that may have been added since. -/
def idle (packetHandlerList : List P) : CNetwork P :=
  { socket := .null, packetHandlerList, thread := .null, closeRequested := false }

/-- The object after a successful start and `StartUpdateThread`. -/
def running (packetHandlerList : List P) : CNetwork P :=
  { socket := .live .connected, packetHandlerList, thread := .live (), closeRequested := false }

/-- At most `n` statements of `Exit` from a point on. -/
def exitFrom : ℕ → ExitPoint → CNetwork P → Except Fault (CNetwork P)
  | 0, _, network => .ok network
  | n + 1, point, network =>
      match point.step network with
      | .error fault => .error fault
      | .ok (none, network) => .ok network
      | .ok (some point, network) => exitFrom n point network

/-- `Exit`, which has eight statements. -/
def exit (network : CNetwork P) : Except Fault (CNetwork P) :=
  exitFrom 8 .assertSocket network

/-- `Close`, as long as no other thread interferes: its result is `none` if it waits in `join` for
the update thread. -/
def close (network : CNetwork P) : Except Fault (Option Bool × CNetwork P) :=
  if !network.socket.nonNull then .ok (some false, network)
  else if network.thread.nonNull then do
    let network := { network with closeRequested := true }
    let _ ← network.thread.get Fault.accessViolation
    return (none, network)
  else do
    let network ← network.exit
    return (some true, network)

/-- `Exit` with a socket and without a thread resets the object. -/
theorem exit_of_live {network : CNetwork P} {socket : SocketState}
    (hsocket : network.socket = .live socket) (hthread : network.thread = .null) :
    network.exit = .ok (idle network.packetHandlerList) := by
  obtain ⟨_, packetHandlerList, _, closeRequested⟩ := network
  subst hsocket hthread
  rfl

/-- `Close` with a socket and without a thread resets the object. -/
theorem close_of_live {network : CNetwork P} {socket : SocketState}
    (hsocket : network.socket = .live socket) (hthread : network.thread = .null) :
    network.close = .ok (some true, idle network.packetHandlerList) := by
  have hnonNull : network.socket.nonNull = true := by rw [hsocket, Pointer.nonNull_live]
  have hnull : network.thread.nonNull = false := by rw [hthread, Pointer.nonNull_null]
  simp only [close, hnonNull, hnull, exit_of_live hsocket hthread]
  rfl

end CNetwork

/-- Where the update thread stands. -/
inductive UpdatePoint
  /-- In the loop of `OnUpdate`. -/
  | loop
  /-- In `Exit`. -/
  | exit (point : ExitPoint)
  /-- `OnUpdate` has returned. -/
  | finished
  deriving DecidableEq

namespace UpdatePoint

variable {P : Type}

/-- One step of the update thread. In the loop, it finds the close request or uses the socket; then
it may find that the peer has closed the connection. -/
def step (point : UpdatePoint) (peerClosed : Bool) (network : CNetwork P) :
    Option (Except Fault (UpdatePoint × CNetwork P)) :=
  match point with
  | loop =>
      if network.closeRequested then some (.ok (exit .assertSocket, network))
      else some do
        let _ ← network.socket.get Fault.accessViolation
        return (if peerClosed then exit .assertSocket else loop, network)
  | exit point => some do
      let (next, network) ← point.step network
      return (next.elim finished exit, network)
  | finished => none

/-- What the pointers are at each point while no other thread changes them. -/
def Fits (network : CNetwork P) : UpdatePoint → Prop
  | loop => network.socket = .live .connected ∧ network.thread = .live ()
  | exit .assertSocket => network.socket = .live .connected ∧ network.thread = .live ()
  | exit .closeSocket => network.socket = .live .connected ∧ network.thread = .live ()
  | exit .deleteSocket => network.socket = .live .closed ∧ network.thread = .live ()
  | exit .resetSocket => network.socket = .deleted ∧ network.thread = .live ()
  | exit .resetFlag => network.socket = .null ∧ network.thread = .live ()
  | exit .testThread => network.socket = .null ∧ network.thread = .live ()
  | exit .deleteThread => network.socket = .null ∧ network.thread = .live ()
  | exit .resetThread => network.socket = .null ∧ network.thread = .deleted
  | finished => network.socket = .null ∧ network.thread = .null

/-- What a step of the update thread leaves as it was. -/
structure Keeps (network network' : CNetwork P) : Prop where
  /-- The handlers. -/
  packetHandlerList : network'.packetHandlerList = network.packetHandlerList
  /-- The flag, unless it is reset. -/
  closeRequested :
    network'.closeRequested = network.closeRequested ∨ network'.closeRequested = false
  /-- A null pointer to the socket. -/
  socket : network.socket = .null → network'.socket = .null
  /-- A socket that has ended. -/
  ended : network.socket ≠ .live .connected → network'.socket ≠ .live .connected
  /-- A socket that does not exist any more. -/
  gone : (∀ socket, network.socket ≠ .live socket) → ∀ socket, network'.socket ≠ .live socket
  /-- The pointer to a thread object that exists: it is not null at once. -/
  thread : network.thread = .live () → network'.thread ≠ .null

/-- A step of the update thread on pointers as it left them does not fail, and leaves them as is
expected at the next point. -/
theorem Fits.step {network : CNetwork P} {point : UpdatePoint} {peerClosed : Bool}
    {outcome : Except Fault (UpdatePoint × CNetwork P)} (h : Fits network point)
    (hs : point.step peerClosed network = some outcome) :
    ∃ point' network', outcome = .ok (point', network') ∧ Fits network' point' ∧
      Keeps network network' := by
  obtain ⟨socket, packetHandlerList, thread, closeRequested⟩ := network
  cases point with
  | loop =>
      obtain ⟨rfl, rfl⟩ : socket = .live .connected ∧ thread = .live () := h
      cases closeRequested <;> cases peerClosed <;> cases hs <;>
        exact ⟨_, _, rfl, ⟨rfl, rfl⟩, ⟨rfl, .inl rfl, id, id, id, fun _ => by simp⟩⟩
  | exit point =>
      cases point <;> obtain ⟨hsocket, hthread⟩ := h <;> cases hsocket <;> cases hthread <;>
        cases hs <;>
          exact ⟨_, _, rfl, ⟨rfl, rfl⟩, ⟨rfl, by simp, by simp, by simp, by simp, by simp⟩⟩
  | finished => cases hs

/-- The pointers fit whatever the flag is. -/
theorem fits_setFlag {network : CNetwork P} {point : UpdatePoint} (closeRequested : Bool) :
    Fits { network with closeRequested } point ↔ Fits network point := by
  cases point with
  | loop => exact Iff.rfl
  | exit point => cases point <;> exact Iff.rfl
  | finished => exact Iff.rfl

/-- Without a thread object, the update thread has finished. -/
theorem Fits.eq_finished {network : CNetwork P} {point : UpdatePoint} (h : Fits network point)
    (hthread : network.thread = .null) : point = finished := by
  cases point with
  | loop => simp [Fits, hthread] at h
  | exit point => cases point <;> simp [Fits, hthread] at h
  | finished => rfl

/-- In the loop, the update thread stays there or calls `Exit`, and changes no member. -/
theorem eq_of_step_loop {network network' : CNetwork P} {point' : UpdatePoint} {peerClosed : Bool}
    (hs : loop.step peerClosed network = some (.ok (point', network'))) :
    network' = network ∧ (point' = loop ∨ point' = exit .assertSocket) := by
  obtain ⟨socket, packetHandlerList, thread, closeRequested⟩ := network
  cases closeRequested with
  | true =>
      cases hs
      exact ⟨rfl, .inr rfl⟩
  | false =>
      cases socket with
      | null => cases hs
      | live object =>
          cases peerClosed with
          | true =>
              cases hs
              exact ⟨rfl, .inr rfl⟩
          | false =>
              cases hs
              exact ⟨rfl, .inl rfl⟩
      | deleted => cases hs

/-- The socket exists until it is deleted in its turn. -/
theorem live_of_step {network network' : CNetwork P} {point point' : UpdatePoint}
    {peerClosed : Bool} (hne : point ≠ exit .deleteSocket) (hfits : Fits network point)
    (hlive : ∃ socket, network.socket = .live socket)
    (hs : point.step peerClosed network = some (.ok (point', network'))) :
    ∃ socket, network'.socket = .live socket := by
  obtain ⟨socket, packetHandlerList, thread, closeRequested⟩ := network
  obtain ⟨object, hobject⟩ := hlive
  obtain rfl : socket = .live object := hobject
  cases point with
  | loop =>
      obtain ⟨rfl, -⟩ := eq_of_step_loop hs
      exact ⟨object, rfl⟩
  | exit point =>
      cases point with
      | assertSocket =>
          cases hs
          exact ⟨object, rfl⟩
      | closeSocket =>
          cases hs
          exact ⟨.closed, rfl⟩
      | deleteSocket => exact absurd rfl hne
      | resetSocket => cases hfits.1
      | resetFlag => cases hfits.1
      | testThread => cases hfits.1
      | deleteThread => cases hfits.1
      | resetThread => cases hfits.1
  | finished => cases hs

/-- `Exit` does not lead back into the loop. -/
theorem ne_loop_of_step {network network' : CNetwork P} {point point' : UpdatePoint}
    {peerClosed : Bool} (hne : point ≠ loop)
    (hs : point.step peerClosed network = some (.ok (point', network'))) : point' ≠ loop := by
  cases point with
  | loop => exact absurd rfl hne
  | exit point =>
      rintro rfl
      simp only [step, Option.some.injEq] at hs
      cases hpoint : point.step network with
      | error fault =>
          rw [hpoint] at hs
          cases hs
      | ok p =>
          obtain ⟨next, network''⟩ := p
          rw [hpoint] at hs
          cases next <;> cases hs
  | finished => cases hs

end UpdatePoint

end PocoEcho

import PocoEcho.System.Frames

/-!
# Where a connection stands

What is on its way on a connection, and what the server and the client know about it, when each
receive returns what was sent with one call. The invariant of the system says this of every
connection, with the messages that are on their way up and down.

## Main definitions

* `EchoSystem.Situation`: where a connection stands;
* `EchoSystem.Inv`: the invariant of the system, with the messages that each user waits for.

## Main results

* `EchoSystem.Situation.frame`: a step that does not concern the connection.
-/

namespace PocoEcho

open Poco

namespace EchoSystem

variable {S : Type}

/-! ## The invariant -/

/-- The vector `clients` of the update thread of the server. -/
def clients (system : EchoSystem S) : List S := (system.program.loop.map LoopState.clients).getD []

/-- The vector `dropList` of the update thread of the server. -/
def dropList (system : EchoSystem S) : List S :=
  (system.program.loop.map LoopState.dropList).getD []

/-- Where a connection stands, with the messages on their way to the server and the echoes on their
way back. -/
inductive Situation (system : EchoSystem S) (client : S) :
    List EchoedMessage → List EchoedMessage → Prop
  /-- The client has not connected. -/
  | idle (hphase : (system.connection client).phase = .idle)
      (hup : (system.connection client).upstream.segments = [])
      (hdown : (system.connection client).downstream.segments = [])
      (hbacklog : client ∉ system.backlog)
      (hclients : client ∈ system.clients → system.serverSocket = some client) :
      Situation system client [] []
  /-- The server has not accepted the connection yet. -/
  | waiting (hphase : (system.connection client).phase = .handshake)
      (hup : (system.connection client).upstream.segments = [])
      (hdown : (system.connection client).downstream.segments = [])
      (hbacklog : client ∈ system.backlog) : Situation system client [] []
  /-- ACCEPT is on its way. -/
  | admitted (hphase : (system.connection client).phase = .handshake)
      (hup : (system.connection client).upstream.segments = [])
      (hdown : (system.connection client).downstream.segments = [PacketType.accept.word.bytes])
      (hbacklog : client ∉ system.backlog) (hclients : client ∈ system.clients) :
      Situation system client [] []
  /-- KICK is on its way. -/
  | kicked (hphase : (system.connection client).phase = .handshake)
      (hup : (system.connection client).upstream.segments = [])
      (hdown : (system.connection client).downstream.segments = [PacketType.kick.word.bytes])
      (hbacklog : client ∉ system.backlog) : Situation system client [] []
  /-- The client is connected, or has been. -/
  | running {loop : ClientState} {up down : List EchoedMessage}
      (hphase : (system.connection client).phase = .running loop)
      (hup : List.Forall₂ IsClientFrame up (system.connection client).upstream.segments)
      (hdown : Receiving loop down (system.connection client).downstream
        (system.connection client).serverClosed)
      (hbacklog : client ∉ system.backlog)
      (hclients : loop.socketLive = true → client ∈ system.clients) :
      Situation system client up down
  /-- The client has not been connected, and its program has ended. -/
  | ended (hphase : (system.connection client).phase = .ended)
      (hup : (system.connection client).upstream.segments = []) : Situation system client [] []

/-- The invariant of the system, with the messages that each user waits for. -/
structure Inv (system : EchoSystem S) (queue : S → List CString) : Prop where
  /-- A connection waits to be accepted once, and is not a client before. -/
  nodup : system.backlog.Nodup
  fresh : ∀ client ∈ system.backlog, client ∉ system.clients
  /-- Only connections that their clients have closed are dropped. -/
  dropped : ∀ client ∈ system.dropList, (system.connection client).clientClosed = true
  /-- No exception has left the loop of the server. -/
  not_thrown : ∀ loop ∈ system.program.loop, ∀ fault, loop.status ≠ .thrown fault
  /-- A user waits for what is on its way. -/
  situation : ∀ client, ∃ up down, Situation system client up down ∧
    queue client = (down ++ up).map EchoedMessage.szMessage

theorem inv_initial : Inv (initial S) fun _ => [] where
  nodup := List.nodup_nil
  fresh := by simp [initial]
  dropped := by simp [dropList, initial, ServerProgram.initial]
  not_thrown := by simp [initial, ServerProgram.initial]
  situation client := by
    refine ⟨[], [], .idle rfl rfl rfl (by simp [initial]) ?_, rfl⟩
    simp [clients, initial, ServerProgram.initial]

section Phases

variable {system : EchoSystem S} {client : S} {up down : List EchoedMessage}

/-- Before the client connects. -/
theorem Situation.of_idle (h : Situation system client up down)
    (hphase : (system.connection client).phase = .idle) :
    up = [] ∧ down = [] ∧ (system.connection client).upstream.segments = [] ∧
      (system.connection client).downstream.segments = [] ∧ client ∉ system.backlog ∧
      (client ∈ system.clients → system.serverSocket = some client) := by
  cases h with
  | idle _ hup hdown hbacklog hclients => exact ⟨rfl, rfl, hup, hdown, hbacklog, hclients⟩
  | waiting hother => cases hphase.symm.trans hother
  | admitted hother => cases hphase.symm.trans hother
  | kicked hother => cases hphase.symm.trans hother
  | running hother => cases hphase.symm.trans hother
  | ended hother => cases hphase.symm.trans hother

/-- While the client waits for the packet type. -/
theorem Situation.of_handshake (h : Situation system client up down)
    (hphase : (system.connection client).phase = .handshake) :
    up = [] ∧ down = [] ∧ (system.connection client).upstream.segments = [] ∧
      (client ∈ system.backlog ∧ (system.connection client).downstream.segments = [] ∨
        client ∉ system.backlog ∧ client ∈ system.clients ∧
          (system.connection client).downstream.segments = [PacketType.accept.word.bytes] ∨
        client ∉ system.backlog ∧
          (system.connection client).downstream.segments = [PacketType.kick.word.bytes]) := by
  cases h with
  | idle hother => cases hphase.symm.trans hother
  | waiting _ hup hdown hbacklog => exact ⟨rfl, rfl, hup, .inl ⟨hbacklog, hdown⟩⟩
  | admitted _ hup hdown hbacklog hclients =>
      exact ⟨rfl, rfl, hup, .inr (.inl ⟨hbacklog, hclients, hdown⟩)⟩
  | kicked _ hup hdown hbacklog => exact ⟨rfl, rfl, hup, .inr (.inr ⟨hbacklog, hdown⟩)⟩
  | running hother => cases hphase.symm.trans hother
  | ended hother => cases hphase.symm.trans hother

/-- When the threads of the client have been started. -/
theorem Situation.of_running (h : Situation system client up down) {loop : ClientState}
    (hphase : (system.connection client).phase = .running loop) :
    List.Forall₂ IsClientFrame up (system.connection client).upstream.segments ∧
      Receiving loop down (system.connection client).downstream
        (system.connection client).serverClosed ∧
      client ∉ system.backlog ∧ (loop.socketLive = true → client ∈ system.clients) := by
  cases h with
  | idle hother => cases hphase.symm.trans hother
  | waiting hother => cases hphase.symm.trans hother
  | admitted hother => cases hphase.symm.trans hother
  | kicked hother => cases hphase.symm.trans hother
  | running hother hup hdown hbacklog hclients =>
      obtain rfl := ClientPhase.running.inj (hphase.symm.trans hother)
      exact ⟨hup, hdown, hbacklog, hclients⟩
  | ended hother => cases hphase.symm.trans hother

end Phases

/-- A connection that waits to be accepted has been established. -/
theorem Inv.phase_of_mem_backlog {system : EchoSystem S} {queue : S → List CString}
    (h : Inv system queue) {client : S} (hmem : client ∈ system.backlog) :
    (system.connection client).phase ≠ .idle := by
  intro hphase
  obtain ⟨up, down, hsituation, -⟩ := h.situation client
  obtain ⟨-, -, -, -, hbacklog, -⟩ := hsituation.of_idle hphase
  exact hbacklog hmem

/-- A step that does not concern the connection, except that the server may close it, and may drop
it if the client has closed it. -/
theorem Situation.frame {system system' : EchoSystem S} {client : S} {up down : List EchoedMessage}
    (h : Situation system client up down) (closed : Bool)
    (hconnection : system'.connection client =
      { system.connection client with serverClosed := closed })
    (hclosed : (system.connection client).serverClosed = true → closed = true)
    (hbacklog : client ∈ system'.backlog ↔ client ∈ system.backlog)
    (hclients : client ∈ system'.clients →
      client ∈ system.clients ∨ system'.serverSocket = some client)
    (hkept : client ∈ system.clients → (system.connection client).clientClosed = false →
      client ∈ system'.clients)
    (hsocket : ∀ server, system.serverSocket = some server →
      system'.serverSocket = some server) : Situation system' client up down := by
  have hphase' : (system'.connection client).phase = (system.connection client).phase := by
    rw [hconnection]
  have hup' : (system'.connection client).upstream = (system.connection client).upstream := by
    rw [hconnection]
  have hdown' : (system'.connection client).downstream =
      (system.connection client).downstream := by rw [hconnection]
  cases h with
  | idle hphase hup hdown hnew hserver =>
      refine .idle (hphase'.trans hphase) (hup' ▸ hup) (hdown' ▸ hdown) (hbacklog.not.mpr hnew) ?_
      exact fun hmem => (hclients hmem).elim (fun hmem => hsocket client (hserver hmem)) id
  | waiting hphase hup hdown hwaits =>
      exact .waiting (hphase'.trans hphase) (hup' ▸ hup) (hdown' ▸ hdown) (hbacklog.mpr hwaits)
  | admitted hphase hup hdown hnew hmem =>
      refine .admitted (hphase'.trans hphase) (hup' ▸ hup) (hdown' ▸ hdown)
        (hbacklog.not.mpr hnew) (hkept hmem (Connection.clientClosed_of_handshake hphase))
  | kicked hphase hup hdown hnew =>
      exact .kicked (hphase'.trans hphase) (hup' ▸ hup) (hdown' ▸ hdown) (hbacklog.not.mpr hnew)
  | running hphase hup hdown hnew hmem =>
      refine .running (hphase'.trans hphase) (hup' ▸ hup) ?_ (hbacklog.not.mpr hnew) ?_
      · rw [hconnection]
        -- closing the server's end does not matter to what has been sent
        cases hc : closed with
        | true => exact hdown.close
        | false =>
            have hopen : (system.connection client).serverClosed = false :=
              Bool.eq_false_iff.mpr fun htrue => by
                rw [hclosed htrue] at hc
                cases hc
            exact hopen ▸ hdown
      · intro hlive
        refine hkept (hmem hlive) ?_
        rw [Connection.clientClosed_of_running hphase, hlive]
        rfl
  | ended hphase hup => exact .ended (hphase'.trans hphase) (hup' ▸ hup)

end EchoSystem

end PocoEcho

import PocoEcho.Network.ServerLoop.Steps
import PocoEcho.Server.CServer

/-!
# Building runs

Runs of the server in which nothing fails: connections of whitelisted peers are accepted one after
the other, and each round handles a single client. They serve to show that the conditions under
which the server behaves well are necessary.

## Main results

* `Reaches.accept`: one more connection is admitted;
* `Reaches.select` and `Reaches.receive`: a client is ready, and a chunk of it is handled.
-/

namespace PocoEcho

open Poco ServerLoop

variable {S : Type} [DecidableEq S] {server client : S} {packetType : Word}
  {state state' : LoopState S} {tr : List (Event S)}

/-- The states that the server reaches from the start of its loop when no call on a socket
throws, each with its trace. -/
abbrev Reaches (server : S) (packetType : Word) : LoopState S → List (Event S) → Prop :=
  (serverLoop CServer.handlers server).Reachable Undisturbed (LoopState.initial server packetType)

/-- What happens when no call on a socket throws is possible. -/
theorem Reaches.reachable (h : Reaches server packetType state tr) :
    (serverLoop CServer.handlers server).Reachable Admissible
      (LoopState.initial server packetType) state tr :=
  h.mono fun _ _ hadm => hadm.1

omit [DecidableEq S] in
theorem LoopState.atHead_initial (server : S) (packetType : Word) :
    (LoopState.initial server packetType).AtHead := ⟨rfl, rfl, rfl⟩

/-- A round begins in which a single socket is ready. -/
theorem Reaches.select (h : Reaches server packetType state tr) (hhead : state.AtHead)
    (client : S) (hmem : client ∈ state.clients) :
    Reaches server packetType { state with readList := [client] } tr := by
  obtain ⟨hrun, hread, hdrop⟩ := hhead
  have hstep : (serverLoop CServer.handlers server).step state (.select 1 [client] none) =
      some ({ state with readList := [client] }, []) := by
    apply step_of_ok
    simp only [onUpdate, hrun, hread, hdrop, ne_eq, not_true_eq_false, ↓reduceIte]
    rfl
  have hadm : Undisturbed (W := CWhiteList) state (.select 1 [client] none) :=
    ⟨⟨List.nodup_singleton _, by simpa using hmem⟩, rfl⟩
  simpa using h.step hadm hstep

/-- A connection from a whitelisted host is admitted. -/
theorem Reaches.accept (h : Reaches server packetType state tr) (hhead : state.AtHead)
    (hserver : server ∈ state.clients) (hfresh : client ∉ state.clients) (host : String) :
    Reaches server packetType
      { state with
        packetType := PacketType.accept.word, clients := state.clients ++ [client] }
      (tr ++ [.acceptConnection client host,
        .sendBytes client PacketType.accept.word.bytes]) := by
  have hselect := h.select hhead server hserver
  obtain ⟨hrun, hread, hdrop⟩ := hhead
  refine hselect.step (i := .accept client host ⟨{host}⟩ .zero) ⟨hfresh, rfl⟩ (step_of_ok ?_)
  have hcan : (⟨{host}⟩ : CWhiteList).isClientCanConnect host = true := by simp
  simp only [onUpdate, hrun, ne_eq, not_true_eq_false, ↓reduceIte, acceptClient, connect,
    CServer.handlers, HandlerEnv.zero, CServer.connectHandler_of_none, hcan]
  rw [hread]
  rfl

/-- A round in which a client is ready handles a chunk of it, which may end the loop. -/
theorem Reaches.chunk (h : Reaches server packetType state tr) (hhead : state.AtHead)
    (hmem : client ∈ state.clients) (hclient : client ≠ server) {chunk : List UInt8}
    (hchunk : chunk ≠ [] ∧ chunk.length ≤ maxBufferLength) (stray : Stray) :
    Reaches server packetType
      (match (handleData CServer.handlers state client chunk ⟨stray, none⟩).result with
        | .ok state' => state'
        | .error fault => { state with readList := [client], status := .thrown fault })
      (tr ++ .receiveBytes client (.bytes chunk) ::
        (handleData CServer.handlers state client chunk ⟨stray, none⟩).log) := by
  have hstate : { state with readList := [] } = state := by rw [← hhead.2.1]
  have hstep := step_receive CServer.handlers { state with readList := [client] } hhead.1 rfl
    hclient chunk ⟨stray, none⟩
  simp only [hstate] at hstep
  have hadm : Undisturbed (W := CWhiteList) { state with readList := [client] }
      (.receive (.bytes chunk) ⟨stray, none⟩) := ⟨hchunk, by simp, rfl⟩
  exact (h.select hhead client hmem).step hadm hstep

/-- The handlers of the chunk return. -/
theorem Reaches.receive (h : Reaches server packetType state tr) (hhead : state.AtHead)
    (hmem : client ∈ state.clients) (hclient : client ≠ server) {chunk : List UInt8}
    (hchunk : chunk ≠ [] ∧ chunk.length ≤ maxBufferLength) (stray : Stray)
    (hok : (handleData CServer.handlers state client chunk ⟨stray, none⟩).result = .ok state') :
    Reaches server packetType state'
      (tr ++ .receiveBytes client (.bytes chunk) ::
        (handleData CServer.handlers state client chunk ⟨stray, none⟩).log) := by
  have hreach := h.chunk hhead hmem hclient hchunk stray
  rwa [hok] at hreach

/-- They do not, and the loop is left. -/
theorem Reaches.receive_error (h : Reaches server packetType state tr) (hhead : state.AtHead)
    (hmem : client ∈ state.clients) (hclient : client ≠ server) {chunk : List UInt8}
    (hchunk : chunk ≠ [] ∧ chunk.length ≤ maxBufferLength) (stray : Stray) {fault : Fault}
    (herr : (handleData CServer.handlers state client chunk ⟨stray, none⟩).result =
      .error fault) :
    Reaches server packetType { state with readList := [client], status := .thrown fault }
      (tr ++ .receiveBytes client (.bytes chunk) ::
        (handleData CServer.handlers state client chunk ⟨stray, none⟩).log) := by
  have hreach := h.chunk hhead hmem hclient hchunk stray
  rwa [herr] at hreach

/-- The head of the loop after the acceptance of one connection. -/
def LoopState.admitted (server client : S) : LoopState S :=
  { clients := [server, client], packetType := PacketType.accept.word, readList := []
    dropList := [], status := .running }

/-- A connection from a whitelisted host is admitted to a server without clients. -/
theorem reaches_admitted (packetType : Word) (hclient : client ≠ server) (host : String) :
    Reaches server packetType (LoopState.admitted server client)
      [.acceptConnection client host, .sendBytes client PacketType.accept.word.bytes] :=
  Reaches.accept .init (LoopState.atHead_initial server packetType) (List.mem_singleton.mpr rfl)
    (by simpa [LoopState.initial] using hclient) host

end PocoEcho

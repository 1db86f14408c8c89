import PocoEcho.Server.Dispatch
import PocoEcho.Server.Runs

/-!
# Isolation of the clients

All sockets share the variable into which the server reads packet types. A chunk of less than four
bytes overwrites only a part of it, so the type it is handled under depends on what other clients
have done before.

## Main results

* `typeIsolated_iff`: the type of a chunk depends on nothing but what happened on the client's own
  connection exactly when the chunk contains a whole type.
-/

namespace PocoEcho

open Poco ServerLoop

variable {S : Type} [DecidableEq S] {server client : S}

/-- The packet types under which a chunk is handled; `none` when the loop is not about to
receive. -/
def dispatchedTypes (server : S) (state : LoopState S) (chunk : List UInt8) (env : HandlerEnv) :
    Option (List Word) :=
  ((serverLoop CServer.handlers server).step state (.receive (.bytes chunk) env)).map
    fun outcome => outcome.2.filterMap Event.handledType

/-- After any two histories that differ only in events of other sockets, the chunk that is received
next from the client is handled under the same type. -/
def TypeIsolated (server client : S) (chunk : List UInt8) : Prop :=
  ∀ packetType packetType' state state' tr tr' env env',
    (serverLoop CServer.handlers server).Reachable Admissible
      (LoopState.initial server packetType) state tr →
    (serverLoop CServer.handlers server).Reachable Admissible
      (LoopState.initial server packetType') state' tr' →
    state.AtReceive client → state'.AtReceive client →
    eventsOf client tr = eventsOf client tr' →
    dispatchedTypes server state chunk env = dispatchedTypes server state' chunk env'

/-- A chunk is handled under one type, which depends on the shared variable. -/
theorem dispatchedTypes_eq {state : LoopState S} (hstate : state.AtReceive client)
    (hclient : client ≠ server) (chunk : List UInt8) (env : HandlerEnv) :
    dispatchedTypes server state chunk env = some [chunkType state.packetType chunk] := by
  obtain ⟨hrun, rest, hread⟩ := hstate.exists_readList
  have hhandler : ∀ events : List (HandlerEvent S),
      (events.map Event.handler).filterMap Event.handledType = [] := by
    intro events
    rw [List.filterMap_map]
    exact List.filterMap_eq_nil_iff.mpr fun _ _ => rfl
  rw [dispatchedTypes, step_receive _ _ hrun hread hclient, Option.map_some, log_handleData]
  simp only [List.filterMap_cons, Event.handledType, hhandler]

/-- Another client has left a type of its own in the shared variable. -/
def LoopState.overwritten (server client other : S) : LoopState S :=
  { clients := [server, client, other], packetType := Word.ofNat 0x01000000, readList := []
    dropList := [], status := .running }

/-- A packet of unknown type of another client, received after the client was admitted. -/
theorem reaches_overwritten {other : S} (hclient : client ≠ server) (hother : other ≠ server)
    (hne : other ≠ client) :
    Reaches server (Word.ofNat 0) (LoopState.overwritten server client other)
      [.acceptConnection client "", .sendBytes client PacketType.accept.word.bytes,
        .acceptConnection other "", .sendBytes other PacketType.accept.word.bytes,
        .receiveBytes other (.bytes [0, 0, 0, 1]),
        .packetHandler other (Word.ofNat 0x01000000)] := by
  have hfresh : other ∉ (LoopState.admitted server client).clients := by
    simp [LoopState.admitted, hother, hne]
  have htwo := (reaches_admitted (Word.ofNat 0) hclient "").accept ⟨rfl, rfl, rfl⟩
    (by simp [LoopState.admitted]) hfresh ""
  have hchunk : ([0, 0, 0, 1] : List UInt8) ≠ [] ∧
      ([0, 0, 0, 1] : List UInt8).length ≤ maxBufferLength := by decide
  exact htwo.receive ⟨rfl, rfl, rfl⟩ (by simp [LoopState.admitted]) hother hchunk
    HandlerEnv.zero.stray rfl

/-- A shorter chunk may be handled under a type that another client has left. -/
theorem not_typeIsolated {other : S} (hclient : client ≠ server) (hother : other ≠ server)
    (hne : other ≠ client) {chunk : List UInt8} (hshort : chunk.length < 4) :
    ¬ TypeIsolated server client chunk := by
  intro hisolated
  -- once the client is alone, once another one has sent a packet before
  have halone := (reaches_admitted (Word.ofNat 0) hclient "").select ⟨rfl, rfl, rfl⟩
    client (by simp [LoopState.admitted])
  have hother := (reaches_overwritten hclient hother hne).select ⟨rfl, rfl, rfl⟩
    client (by simp [LoopState.overwritten])
  have htypes := hisolated _ _ _ _ _ _ .zero .zero halone.reachable hother.reachable
    ⟨rfl, rfl⟩ ⟨rfl, rfl⟩ (by simp [eventsOf, Event.socket, hne])
  -- nothing has happened on the client's own connection in the meantime
  rw [dispatchedTypes_eq ⟨rfl, rfl⟩ hclient, dispatchedTypes_eq ⟨rfl, rfl⟩ hclient] at htypes
  have htake : (chunk.take maxBufferLength).take 4 = chunk := by
    rw [List.take_take, List.take_of_length_le (by simp [maxBufferLength]; omega)]
  -- the last byte of the variable is the one that was there before
  have hlast : PacketType.accept.word.bytes.drop chunk.length =
      (Word.ofNat 0x01000000).bytes.drop chunk.length := by
    rw [← Word.drop_overwrite _ (by omega), ← Word.drop_overwrite (Word.ofNat _) (by omega)]
    simpa [chunkType, htake, LoopState.admitted, LoopState.overwritten] using
      congrArg (fun types => types.map fun w => w.map fun w => w.bytes.drop chunk.length) htypes
  have hdiffer : ∀ n < 4, PacketType.accept.word.bytes.drop n ≠
      (Word.ofNat 0x01000000).bytes.drop n := by decide
  exact hdiffer _ hshort hlast

/-- The packet type under which a chunk is handled is independent of what happens on other
sockets exactly when the chunk contains a whole type. -/
theorem typeIsolated_iff {other : S} (hclient : client ≠ server) (hother : other ≠ server)
    (hne : other ≠ client) (chunk : List UInt8) :
    TypeIsolated server client chunk ↔ 4 ≤ chunk.length := by
  constructor
  · intro hisolated
    by_contra hshort
    exact not_typeIsolated hclient hother hne (by omega) hisolated
  · intro hlong _ _ state state' _ _ env env' _ _ hstate hstate' _
    have hbytes : 4 ≤ ((chunk.take maxBufferLength).take 4).length := by
      simp only [List.length_take, maxBufferLength]
      omega
    -- four bytes replace whatever is in the variable
    rw [dispatchedTypes_eq hstate hclient, dispatchedTypes_eq hstate' hclient, chunkType,
      chunkType, Word.overwrite_eq_of_le _ state'.packetType hbytes]

/-- Whole types are isolated, among three sockets. -/
theorem typeIsolated_iff_of_type :
    (TypeIsolated 0 1 [0x11, 0, 0, 0] ↔ 4 ≤ ([0x11, 0, 0, 0] : List UInt8).length) ∧
      4 ≤ ([0x11, 0, 0, 0] : List UInt8).length :=
  ⟨typeIsolated_iff (by decide) (by decide : 2 ≠ 0) (by decide) _, by decide⟩

/-- The type of a chunk of one byte depends on another client. -/
theorem not_typeIsolated_of_byte : ¬ TypeIsolated 0 1 [0x11] :=
  not_typeIsolated (by decide) (by decide : 2 ≠ 0) (by decide) (by decide)

end PocoEcho

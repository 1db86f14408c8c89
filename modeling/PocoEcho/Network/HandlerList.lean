import PocoEcho.Library.Registry
import PocoEcho.Network.CNetwork
import PocoEcho.Network.CNetworkServer

/-!
# The list of packet handlers

`AddPacketHandler`, `RemovePacketHandler` and `GetListIndexOfPacketHandler`, with the widths of
their integers: the loop counts in an `int`, the position is returned as a `size_t`, and the one
caller compares it as such while the other one narrows it to an `int` first.

## Main definitions

* `CNetwork.getListIndexOfPacketHandler`, `CNetwork.addPacketHandler` and
  `CNetwork.removePacketHandler`;
* `CNetwork.callAll`: a sequence of calls.

## Main results

* `CNetwork.addPacketHandler_eq` and `CNetwork.removePacketHandler_eq`: on lists whose positions are
  `int`s, the calls are those of an insertion-ordered set;
* `packetHandlerList_eq_registered`: what the list holds after any sequence of calls.
-/

namespace PocoEcho

namespace CNetwork

variable {P : Type} [DecidableEq P]

/-- `-1` as a `size_t`. -/
def notFound : BitVec 64 := -1

/-- The loop of `GetListIndexOfPacketHandler` from `i` on, with what the list holds from there. -/
def indexFrom (handlerFunction : P) (i : BitVec 32) : List P → BitVec 64
  | [] => notFound
  | handler :: rest =>
      -- the `int` is extended with its sign
      if handler = handlerFunction then i.signExtend 64 else indexFrom handlerFunction (i + 1) rest

/-- `GetListIndexOfPacketHandler`. -/
def getListIndexOfPacketHandler (network : CNetwork P) (handlerFunction : P) : BitVec 64 :=
  indexFrom handlerFunction 0 network.packetHandlerList

/-- `AddPacketHandler`. -/
def addPacketHandler (network : CNetwork P) (handlerFunction : P) : CNetwork P :=
  if network.getListIndexOfPacketHandler handlerFunction ≠ notFound then network
  else { network with packetHandlerList := network.packetHandlerList ++ [handlerFunction] }

/-- `erase(begin() + iIndex)`: only an element of the list can be erased. -/
def eraseAt (list : List P) (iIndex : BitVec 32) : Except Fault (List P) :=
  if 0 ≤ iIndex.toInt ∧ iIndex.toInt < list.length then .ok (list.eraseIdx iIndex.toInt.toNat)
  else .error .accessViolation

/-- `RemovePacketHandler`. -/
def removePacketHandler (network : CNetwork P) (handlerFunction : P) :
    Except Fault (CNetwork P) :=
  -- the position is narrowed to an `int` before it is compared
  let iIndex := (network.getListIndexOfPacketHandler handlerFunction).setWidth 32
  if iIndex = -1 then .ok network
  else do
    let packetHandlerList ← eraseAt network.packetHandlerList iIndex
    return { network with packetHandlerList }

/-- One call. -/
def call (network : CNetwork P) : Registry.Call P → Except Fault (CNetwork P)
  | .add handlerFunction => .ok (network.addPacketHandler handlerFunction)
  | .remove handlerFunction => network.removePacketHandler handlerFunction

/-- A sequence of calls. -/
def callAll (network : CNetwork P) (calls : List (Registry.Call P)) : Except Fault (CNetwork P) :=
  calls.foldlM call network

/-- A natural number that is an `int` keeps its value as a `size_t`. -/
theorem signExtend_ofNat {n : ℕ} (h : n < 2 ^ 31) :
    (BitVec.ofNat 32 n).signExtend 64 = BitVec.ofNat 64 n := by
  apply BitVec.eq_of_toInt_eq
  rw [BitVec.toInt_signExtend_of_le (by omega), BitVec.toInt_ofNat', BitVec.toInt_ofNat',
    Int.bmod_eq_of_le (by omega) (by omega), Int.bmod_eq_of_le (by omega) (by omega)]

/-- The loop returns the place of the handler, counted from where it started. -/
theorem indexFrom_of_mem {handlerFunction : P} {list : List P} {i : ℕ}
    (hlen : i + list.length ≤ 2 ^ 31) (h : handlerFunction ∈ list) :
    indexFrom handlerFunction (BitVec.ofNat 32 i) list =
      BitVec.ofNat 64 (i + list.idxOf handlerFunction) := by
  induction list generalizing i with
  | nil => exact absurd h List.not_mem_nil
  | cons handler rest ih =>
      rw [List.length_cons] at hlen
      unfold indexFrom
      by_cases heq : handler = handlerFunction
      · rw [if_pos heq, signExtend_ofNat (by omega), heq, List.idxOf_cons_self, Nat.add_zero]
      · have hrest : handlerFunction ∈ rest := List.mem_of_ne_of_mem (Ne.symm heq) h
        have hi : BitVec.ofNat 32 i + 1 = BitVec.ofNat 32 (i + 1) := by
          rw [BitVec.ofNat_add]
          rfl
        rw [if_neg heq, hi, ih (by omega) hrest, List.idxOf_cons_ne rest heq]
        congr 1
        omega

/-- The loop finds nothing in a list without the handler. -/
theorem indexFrom_of_notMem {handlerFunction : P} {list : List P} (i : BitVec 32)
    (h : handlerFunction ∉ list) : indexFrom handlerFunction i list = notFound := by
  induction list generalizing i with
  | nil => rfl
  | cons handler rest ih =>
      rw [List.mem_cons, not_or] at h
      unfold indexFrom
      rw [if_neg (Ne.symm h.1), ih _ h.2]

section
variable {network : CNetwork P} {handlerFunction : P}

/-- The position of a registered handler. -/
theorem getListIndexOfPacketHandler_of_mem (hlen : network.packetHandlerList.length < 2 ^ 31)
    (h : handlerFunction ∈ network.packetHandlerList) :
    network.getListIndexOfPacketHandler handlerFunction =
      BitVec.ofNat 64 (network.packetHandlerList.idxOf handlerFunction) := by
  have hindex := indexFrom_of_mem (i := 0) (by omega) h
  rwa [Nat.zero_add] at hindex

theorem getListIndexOfPacketHandler_of_notMem (h : handlerFunction ∉ network.packetHandlerList) :
    network.getListIndexOfPacketHandler handlerFunction = notFound :=
  indexFrom_of_notMem 0 h

/-- No position is taken for the one that means "not found". -/
theorem getListIndexOfPacketHandler_eq_notFound_iff
    (hlen : network.packetHandlerList.length < 2 ^ 31) :
    network.getListIndexOfPacketHandler handlerFunction = notFound ↔
      handlerFunction ∉ network.packetHandlerList := by
  refine ⟨fun heq h => ?_, getListIndexOfPacketHandler_of_notMem⟩
  have hidx := List.idxOf_lt_length_of_mem h
  rw [getListIndexOfPacketHandler_of_mem hlen h] at heq
  have := congrArg BitVec.toNat heq
  rw [BitVec.toNat_ofNat, show notFound.toNat = 2 ^ 64 - 1 from rfl] at this
  omega

/-- The position of a registered handler, as an `int`. -/
theorem toInt_setWidth_of_mem (hlen : network.packetHandlerList.length < 2 ^ 31)
    (h : handlerFunction ∈ network.packetHandlerList) :
    ((network.getListIndexOfPacketHandler handlerFunction).setWidth 32).toInt =
      network.packetHandlerList.idxOf handlerFunction := by
  have hidx := List.idxOf_lt_length_of_mem h
  rw [getListIndexOfPacketHandler_of_mem hlen h, BitVec.setWidth_ofNat_of_le (by omega),
    BitVec.toInt_ofNat', Int.bmod_eq_of_le (by omega) (by omega)]

/-- Nor is a position taken for it when both are narrowed to an `int`. -/
theorem setWidth_eq_neg_one_iff (hlen : network.packetHandlerList.length < 2 ^ 31) :
    (network.getListIndexOfPacketHandler handlerFunction).setWidth 32 = -1 ↔
      handlerFunction ∉ network.packetHandlerList := by
  constructor
  · intro heq h
    have hint := toInt_setWidth_of_mem hlen h
    rw [heq, show (-1 : BitVec 32).toInt = -1 from rfl] at hint
    omega
  · intro h
    rw [getListIndexOfPacketHandler_of_notMem h]
    rfl

/-- `AddPacketHandler` is the insertion. -/
theorem addPacketHandler_eq (hlen : network.packetHandlerList.length < 2 ^ 31) :
    network.addPacketHandler handlerFunction =
      { network with
        packetHandlerList := Registry.insert network.packetHandlerList handlerFunction } := by
  unfold addPacketHandler
  by_cases h : handlerFunction ∈ network.packetHandlerList
  · rw [if_pos (mt (getListIndexOfPacketHandler_eq_notFound_iff hlen).mp (not_not.mpr h)),
      Registry.insert_of_mem h]
  · rw [if_neg (not_not.mpr (getListIndexOfPacketHandler_of_notMem h)),
      Registry.insert_of_notMem h]

/-- `RemovePacketHandler` erases the handler, and never anything else. -/
theorem removePacketHandler_eq (hlen : network.packetHandlerList.length < 2 ^ 31) :
    network.removePacketHandler handlerFunction =
      .ok { network with
            packetHandlerList := network.packetHandlerList.erase handlerFunction } := by
  unfold removePacketHandler
  by_cases h : handlerFunction ∈ network.packetHandlerList
  · have hidx := List.idxOf_lt_length_of_mem h
    have hint := toInt_setWidth_of_mem hlen h
    have herase : eraseAt network.packetHandlerList
        ((network.getListIndexOfPacketHandler handlerFunction).setWidth 32) =
          .ok (network.packetHandlerList.erase handlerFunction) := by
      rw [eraseAt, hint, if_pos (by omega), Int.toNat_natCast, List.erase_eq_eraseIdx_of_idxOf rfl]
    simp only [mt (setWidth_eq_neg_one_iff hlen).mp (not_not.mpr h), if_false, herase]
    rfl
  · simp only [(setWidth_eq_neg_one_iff hlen).mpr h, if_true, List.erase_of_not_mem h]

/-- A call is one on the insertion-ordered set. -/
theorem call_eq (hlen : network.packetHandlerList.length < 2 ^ 31) (c : Registry.Call P) :
    network.call c =
      .ok { network with packetHandlerList := Registry.apply network.packetHandlerList c } := by
  cases c with
  | add handlerFunction => exact congrArg Except.ok (addPacketHandler_eq hlen)
  | remove handlerFunction => exact removePacketHandler_eq hlen

end

/-- A sequence of calls is one on the insertion-ordered set, as long as positions are `int`s. -/
theorem callAll_eq {network : CNetwork P} {calls : List (Registry.Call P)}
    (hlen : ∀ before network', before <+: calls →
      callAll { network with packetHandlerList := [] } before = .ok network' →
        network'.packetHandlerList.length < 2 ^ 31) :
    callAll { network with packetHandlerList := [] } calls =
      .ok { network with packetHandlerList := Registry.run calls } := by
  induction calls using List.reverseRecOn with
  | nil => rfl
  | append_singleton calls c ih =>
      have hcalls := ih fun before network' hbefore =>
        hlen before network' (hbefore.trans (List.prefix_append calls [c]))
      have hshort := hlen calls _ (List.prefix_append calls [c]) hcalls
      rw [Registry.run_append]
      unfold callAll at hcalls ⊢
      rw [List.foldlM_append, hcalls]
      show ([c].foldlM call _ : Except Fault (CNetwork P)) = _
      rw [List.foldlM_cons, call_eq hshort]
      rfl

/-- A call makes the list longer by one at most. -/
theorem length_le_of_call {network network' : CNetwork P} {c : Registry.Call P}
    (h : network.call c = .ok network') :
    network'.packetHandlerList.length ≤ network.packetHandlerList.length + 1 := by
  cases c with
  | add handlerFunction =>
      obtain rfl := Except.ok.inj h
      unfold addPacketHandler
      split
      · omega
      · rw [List.length_append, List.length_singleton]
  | remove handlerFunction =>
      simp only [call, removePacketHandler] at h
      split at h
      · obtain rfl := Except.ok.inj h
        omega
      · unfold eraseAt at h
        split at h
        · obtain rfl := Except.ok.inj h
          exact (List.length_eraseIdx_le _ _).trans (Nat.le_succ _)
        · cases h

/-- The list is not longer than the sequence of calls. -/
theorem length_le_of_callAll {network network' : CNetwork P} {calls : List (Registry.Call P)}
    (h : network.callAll calls = .ok network') :
    network'.packetHandlerList.length ≤ network.packetHandlerList.length + calls.length := by
  induction calls generalizing network with
  | nil =>
      obtain rfl := Except.ok.inj h
      rfl
  | cons c calls ih =>
      unfold callAll at h
      rw [List.foldlM_cons] at h
      cases hc : network.call c with
      | error fault =>
          rw [hc] at h
          cases h
      | ok next =>
          rw [hc] at h
          have hstep := length_le_of_call hc
          have hrest := ih h
          rw [List.length_cons]
          omega

/-- The two models of `AddPacketHandler` agree: the one of the server's object leaves the widths
out. -/
theorem packetHandlerList_addPacketHandler {S C : Type} {network : CNetwork P}
    {server : CNetworkServer S P C} (handlerFunction : P)
    (hlist : network.packetHandlerList = server.packetHandlerList)
    (hlen : network.packetHandlerList.length < 2 ^ 31) :
    (network.addPacketHandler handlerFunction).packetHandlerList =
      (server.addPacketHandler handlerFunction).packetHandlerList := by
  rw [addPacketHandler_eq hlen, hlist]
  rw [hlist] at hlen
  unfold CNetworkServer.addPacketHandler CNetworkServer.getListIndexOfPacketHandler
  by_cases h : handlerFunction ∈ server.packetHandlerList
  · obtain ⟨i, hi⟩ := Option.isSome_iff_exists.mp (List.isSome_idxOf?.mpr h)
    obtain ⟨hlt, -⟩ := List.idxOf?_eq_some_iff.mp hi
    have hne : i ≠ CNetworkServer.notFound := by
      rw [CNetworkServer.notFound]
      omega
    rw [hi, Option.getD_some, if_pos hne]
    exact Registry.insert_of_mem h
  · rw [List.idxOf?_eq_none_iff.mpr h, Option.getD_none, if_neg (not_not.mpr rfl)]
    exact Registry.insert_of_notMem h

end CNetwork

/-- After any sequence of `AddPacketHandler` and `RemovePacketHandler` calls, the list holds the
handlers whose last effective call is an addition, each once and in the order of these additions;
only valid positions have been erased, and none is taken for the value that means "not found". -/
theorem packetHandlerList_eq_registered {P : Type} [DecidableEq P] (network : CNetwork P)
    (calls : List (Registry.Call P))
    (hlen : ∀ before network', before <+: calls →
      CNetwork.callAll { network with packetHandlerList := [] } before = .ok network' →
        network'.packetHandlerList.length < 2 ^ 31) :
    ∃ network' : CNetwork P,
      CNetwork.callAll { network with packetHandlerList := [] } calls = .ok network' ∧
      network' = { network with packetHandlerList := network'.packetHandlerList } ∧
      network'.packetHandlerList.Nodup ∧
      (∀ handler, handler ∈ network'.packetHandlerList ↔ ∃ n, Registry.AddedAt calls handler n) ∧
      network'.packetHandlerList.Pairwise (Registry.Precedes calls) ∧
      (∀ handler ∈ network'.packetHandlerList, network'.addPacketHandler handler = network') ∧
      (∀ handler ∉ network'.packetHandlerList,
        network'.removePacketHandler handler = .ok network') ∧
      ∀ handler,
        (network'.getListIndexOfPacketHandler handler = CNetwork.notFound ↔
          handler ∉ network'.packetHandlerList) ∧
        ((network'.getListIndexOfPacketHandler handler).setWidth 32 = -1 ↔
          handler ∉ network'.packetHandlerList) := by
  have hrun := CNetwork.callAll_eq hlen
  have hshort : (Registry.run calls).length < 2 ^ 31 := hlen calls _ List.prefix_rfl hrun
  refine ⟨_, hrun, rfl, Registry.nodup_run calls, fun _ => Registry.mem_run_iff,
    Registry.pairwise_run calls, ?_, ?_, ?_⟩
  · intro handler h
    rw [CNetwork.addPacketHandler_eq hshort, Registry.insert_of_mem h]
  · intro handler h
    rw [CNetwork.removePacketHandler_eq hshort, List.erase_of_not_mem h]
  · intro handler
    exact ⟨CNetwork.getListIndexOfPacketHandler_eq_notFound_iff hshort,
      CNetwork.setWidth_eq_neg_one_iff hshort⟩

/-- Two handlers, the first of which is removed and added again. -/
theorem packetHandlerList_eq_registered_of_readded :
    ∃ network' : CNetwork ℕ,
      (CNetwork.idle []).callAll [.add 1, .add 2, .remove 1, .add 1] = .ok network' ∧
        network'.packetHandlerList.Nodup ∧
          network'.packetHandlerList.Pairwise
            (Registry.Precedes [.add 1, .add 2, .remove 1, .add 1]) := by
  obtain ⟨network', hrun, -, hnodup, -, hpairwise, -⟩ :=
    packetHandlerList_eq_registered (CNetwork.idle []) [.add 1, .add 2, .remove 1, .add 1]
      (by
        intro before network' hbefore hcalls
        have hle := CNetwork.length_le_of_callAll hcalls
        have hshort := hbefore.length_le
        simp only [List.length_cons, List.length_nil] at hle hshort
        omega)
  exact ⟨network', hrun, hnodup, hpairwise⟩

end PocoEcho

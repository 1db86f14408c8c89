import Mathlib.Data.List.Nodup
import PocoEcho.Network.ServerLoop.Steps

/-!
# The client list

The vector `clients` of the server loop grows while the ready list of a round is walked and shrinks
in a second loop. This module relates it to what happened: at the head of the loop it holds the
listening socket and, in order of acceptance, the connections that were accepted with ACCEPT and
whose `receiveBytes` has not returned 0.

The results hold for any registered handlers.

## Main results

* `clientsInv_of_reachable`: the invariant `ClientsInv` of every state in which the loop runs;
* `clients_representation`: the client list at the head of the loop, in the drop loop and after it.
-/

namespace PocoEcho

open Poco ServerLoop

variable {S W : Type} [DecidableEq S] {handlers : Handlers S W} {server : S}

/-- How one event changes the connections that were accepted with ACCEPT and have not been shut
down. -/
def trackConnected (connected : List S) : Event S → List S
  | .sendBytes client data =>
      if data = PacketType.accept.word.bytes then connected ++ [client] else connected
  | .receiveBytes client .shutdown => connected.filter (· ≠ client)
  | _ => connected

/-- The connections that were accepted with ACCEPT and whose `receiveBytes` has not returned 0, in
order of acceptance. -/
def connected (tr : List (Event S)) : List S := tr.foldl trackConnected []

theorem connected_append (tr es : List (Event S)) :
    connected (tr ++ es) = es.foldl trackConnected (connected tr) := by
  simp [connected]

/-- Events that track nothing leave the connections as they are. -/
theorem foldl_trackConnected_of_forall {l : List S} {es : List (Event S)}
    (h : ∀ e ∈ es, trackConnected l e = l) : es.foldl trackConnected l = l := by
  induction es with
  | nil => rfl
  | cons e es ih =>
      rw [List.foldl_cons, h e (by simp)]
      exact ih fun x hx => h x (by simp [hx])

/-- What handlers do tracks nothing. -/
theorem foldl_trackConnected_handler (l : List S) (events : List (HandlerEvent S)) :
    (events.map Event.handler).foldl trackConnected l = l := by
  refine foldl_trackConnected_of_forall fun e he => ?_
  obtain ⟨event, -, rfl⟩ := List.mem_map.mp he
  rfl

/-- Handling a chunk tracks nothing. -/
theorem foldl_trackConnected_handleData (l : List S) (state : LoopState S) (client : S)
    (data : List UInt8) (env : HandlerEnv) :
    (handleData handlers state client data env).log.foldl trackConnected l = l := by
  refine foldl_trackConnected_of_forall fun e he => ?_
  rcases mem_log_handleData he with ⟨packetType, rfl⟩ | ⟨event, rfl⟩ <;> rfl

/-- The invariant of the lists of the loop. -/
structure ClientsInv (server : S) (state : LoopState S) (tr : List (Event S)) : Prop where
  /-- No socket is listed twice. -/
  nodup : state.clients.Nodup
  /-- The sockets still to be handled are distinct clients. -/
  readList_nodup : state.readList.Nodup
  readList_subset : state.readList ⊆ state.clients
  /-- The sockets to be dropped are distinct clients. -/
  dropList_nodup : state.dropList.Nodup
  dropList_subset : state.dropList ⊆ state.clients
  /-- A socket to be dropped has been handled in this round. -/
  disjoint : ∀ s ∈ state.dropList, s ∉ state.readList
  /-- The listening socket is not to be dropped. -/
  server_notMem : server ∉ state.dropList
  /-- Apart from the sockets to be dropped, the list is what the trace says. -/
  live : state.clients.filter (· ∉ state.dropList) = server :: connected tr

theorem clientsInv_initial (server : S) (packetType : Word) :
    ClientsInv server (LoopState.initial server packetType) [] where
  nodup := by simp [LoopState.initial]
  readList_nodup := by simp [LoopState.initial]
  readList_subset := by simp [LoopState.initial]
  dropList_nodup := by simp [LoopState.initial]
  dropList_subset := by simp [LoopState.initial]
  disjoint := by simp [LoopState.initial]
  server_notMem := by simp [LoopState.initial]
  live := by simp [LoopState.initial, connected]

/-- The events of an admission add the connection. -/
theorem connected_admitted (tr : List (Event S)) (client : S) (host : String)
    (events : List (HandlerEvent S)) :
    connected (tr ++ (.acceptConnection client host :: (events.map .handler ++
      [.sendBytes client PacketType.accept.word.bytes]))) = connected tr ++ [client] := by
  rw [connected_append, List.foldl_cons, List.foldl_append]
  simp only [trackConnected, foldl_trackConnected_handler, List.foldl_cons, List.foldl_nil,
    ↓reduceIte]

/-- The events of a kick add nothing. -/
theorem connected_kick (tr : List (Event S)) (client : S) (host : String)
    (events : List (HandlerEvent S)) :
    connected (tr ++ (.acceptConnection client host :: (events.map .handler ++
      [.sendBytes client PacketType.kick.word.bytes, .close client]))) = connected tr := by
  have hne : PacketType.kick.word.bytes ≠ PacketType.accept.word.bytes := by decide
  rw [connected_append, List.foldl_cons, List.foldl_append]
  simp only [trackConnected, foldl_trackConnected_handler, List.foldl_cons, List.foldl_nil, hne,
    ↓reduceIte]

/-- The events of a handled chunk add nothing. -/
theorem connected_handleData (tr : List (Event S)) (state : LoopState S) (client : S)
    {result : ReceiveResult} (hresult : result ≠ .shutdown) (data : List UInt8)
    (env : HandlerEnv) :
    connected (tr ++ (.receiveBytes client result ::
      (handleData handlers state client data env).log)) = connected tr := by
  rw [connected_append, List.foldl_cons, foldl_trackConnected_handleData]
  cases result with
  | shutdown => exact absurd rfl hresult
  | _ => rfl

/-- Handling the next ready socket of a round keeps the invariant when it only changes the packet
type. -/
theorem ClientsInv.readList_tail {state : LoopState S} {tr tr' : List (Event S)}
    (hinv : ClientsInv server state tr) {client : S} {rest : List S}
    (hread : state.readList = client :: rest) (hconn : connected tr' = connected tr)
    (packetType : Word) :
    ClientsInv server { state with packetType := packetType, readList := rest } tr' where
  nodup := hinv.nodup
  readList_nodup := by
    have := hinv.readList_nodup
    rw [hread] at this
    exact this.of_cons
  readList_subset := by
    have := hinv.readList_subset
    rw [hread] at this
    exact List.subset_of_cons_subset this
  dropList_nodup := hinv.dropList_nodup
  dropList_subset := hinv.dropList_subset
  disjoint := by
    intro s hs hmem
    exact hinv.disjoint s hs (hread ▸ List.mem_cons_of_mem _ hmem)
  server_notMem := hinv.server_notMem
  live := by rw [hconn]; exact hinv.live

/-- A step that no exception ends keeps the invariant. -/
theorem clientsInv_progress {state state' : LoopState S} {tr es : List (Event S)}
    {input : Input S W} (hinv : ClientsInv server state tr) (hadm : Admissible state input)
    (h : Progress handlers server state input state' es) :
    ClientsInv server state' (tr ++ es) := by
  cases h with
  -- closing the sockets changes none of the lists
  | close hhead =>
      have hconn : connected (tr ++ (state.clients.map .close ++ [.exit])) = connected tr := by
        rw [connected_append]
        refine foldl_trackConnected_of_forall fun e he => ?_
        rcases List.mem_append.mp he with he | he
        · obtain ⟨s, -, rfl⟩ := List.mem_map.mp he
          rfl
        · obtain rfl := List.mem_singleton.mp he
          rfl
      exact { hinv with live := hconn ▸ hinv.live }
  -- a new round: `select` promises distinct sockets of the list
  | select hhead iCount ready throwsAt =>
      obtain ⟨hrun, hread, hdrop⟩ := hhead
      obtain ⟨hnodup, hsubset⟩ := hadm
      rw [List.append_nil]
      refine { hinv with readList_nodup := ?_, readList_subset := ?_, disjoint := ?_ }
      · dsimp only
        split
        · exact List.nodup_nil
        · exact hnodup
      · dsimp only
        split
        · exact List.nil_subset _
        · exact hsubset
      · simp [hdrop]
  -- an admitted connection is fresh, so it is neither listed nor to be dropped
  | @admitted hrun rest hread client host world env hconnect =>
      have hfresh : client ∉ state.clients := hadm
      have hkept : client ∉ state.dropList := fun h => hfresh (hinv.dropList_subset h)
      have hold := hinv.readList_tail hread (rfl : connected tr = _) PacketType.accept.word
      refine { hold with
        nodup := ?_, readList_subset := ?_, dropList_subset := ?_, live := ?_ }
      · exact List.nodup_append.mpr ⟨hinv.nodup, List.nodup_singleton _, by
          rintro a ha b hb rfl
          exact hfresh (List.mem_singleton.mp hb ▸ ha)⟩
      · exact fun s hs => List.mem_append_left _ (hold.readList_subset hs)
      · exact fun s hs => List.mem_append_left _ (hinv.dropList_subset hs)
      · rw [connected_admitted, List.filter_append, hinv.live]
        simp [hkept]
  | @kick hrun rest hread client host world env hconnect =>
      exact hinv.readList_tail hread (connected_kick tr client host _) PacketType.kick.word
  -- the socket moves from the front of `readList` to the end of `dropList`
  | @shutdown hrun client rest hread hclient env =>
      have hmem : client ∈ state.readList := by simp [hread]
      have hnew : client ∉ state.dropList := fun h => hinv.disjoint client h hmem
      have hrest : client ∉ rest := by
        have := hinv.readList_nodup
        rw [hread] at this
        exact (List.nodup_cons.mp this).1
      have hold := hinv.readList_tail hread (rfl : connected tr = _) state.packetType
      refine { hold with
        dropList_nodup := ?_, dropList_subset := ?_, disjoint := ?_, server_notMem := ?_,
        live := ?_ }
      · exact List.nodup_append.mpr ⟨hinv.dropList_nodup, List.nodup_singleton _, by
          rintro a ha b hb rfl
          exact hnew (List.mem_singleton.mp hb ▸ ha)⟩
      · intro s hs
        rcases List.mem_append.mp hs with hs | hs
        · exact hinv.dropList_subset hs
        · exact hinv.readList_subset (List.mem_singleton.mp hs ▸ hmem)
      · intro s hs
        rcases List.mem_append.mp hs with hs | hs
        · exact hold.disjoint s hs
        · exact List.mem_singleton.mp hs ▸ hrest
      · intro hs
        rcases List.mem_append.mp hs with hs | hs
        · exact hinv.server_notMem hs
        · exact hclient (List.mem_singleton.mp hs).symm
      -- it is no longer connected, and filtered out of `clients` by the longer `dropList`
      · have hconn : connected (tr ++ [Event.receiveBytes client .shutdown]) =
            (connected tr).filter (· ≠ client) := by
          simp [connected_append, trackConnected]
        have hsplit : state.clients.filter (· ∉ state.dropList ++ [client]) =
            (state.clients.filter (· ∉ state.dropList)).filter (· ≠ client) := by
          rw [List.filter_filter]
          refine List.filter_congr fun s _ => ?_
          simp [and_comm]
        rw [hconn]
        simp only [hsplit, hinv.live]
        rw [List.filter_cons_of_pos (by simpa using hclient.symm)]
  | @negative hrun client rest hread hclient env _ hdata =>
      rw [state_handleData hdata]
      exact hinv.readList_tail hread (connected_handleData tr _ client (by simp) [] env) _
  | @receive hrun client rest hread hclient data env _ hdata =>
      rw [state_handleData hdata]
      exact hinv.readList_tail hread (connected_handleData tr _ client (by simp) data env) _
  -- what `dropList` loses, `clients` loses as well
  | @erase hrun hread client rest hdrop hmem throwsAt =>
      have hnodup := hinv.dropList_nodup
      rw [hdrop, List.nodup_cons] at hnodup
      have hsub := hinv.dropList_subset
      rw [hdrop] at hsub
      have hconn : connected (tr ++ [Event.erase client]) = connected tr := by
        simp [connected_append, trackConnected]
      refine
        { nodup := hinv.nodup.erase _
          readList_nodup := hinv.readList_nodup
          readList_subset := by simp [hread]
          dropList_nodup := hnodup.2
          dropList_subset := ?_
          disjoint := by simp [hread]
          server_notMem := fun h => hinv.server_notMem (hdrop ▸ List.mem_cons_of_mem _ h)
          live := ?_ }
      · intro s hs
        have hne : s ≠ client := fun h => hnodup.1 (h ▸ hs)
        exact (List.mem_erase_of_ne hne).mpr (hsub (List.mem_cons_of_mem _ hs))
      · rw [hconn, ← hinv.live, hdrop, hinv.nodup.erase_eq_filter, List.filter_filter]
        refine List.filter_congr fun s _ => ?_
        by_cases hs : s = client <;> simp [hs]
  -- a socket to be dropped is always listed
  | @missing hrun hread client rest hdrop hmem throwsAt =>
      exact absurd (hinv.dropList_subset (hdrop ▸ List.mem_cons_self)) hmem

/-- Every state in which no exception has left the loop satisfies the invariant. -/
theorem clientsInv_of_reachable {packetType : Word} {state : LoopState S} {tr : List (Event S)}
    (h : (serverLoop handlers server).Reachable Admissible (LoopState.initial server packetType)
      state tr) :
    ClientsInv server state tr ∨ ∃ fault, state.status = .thrown fault := by
  exact invariant_of_progress (clientsInv_initial server packetType)
    (fun hinv hadm hprog => clientsInv_progress hinv hadm hprog) h

/-- The drop loop removes exactly the sockets of `dropList` and keeps the order of the others. -/
theorem run_drops (state : LoopState S) (hrun : state.status = .running)
    (hread : state.readList = []) (hnodup : state.clients.Nodup)
    (hsub : state.dropList ⊆ state.clients) (hdrops : state.dropList.Nodup) :
    (serverLoop handlers server).run state (state.dropList.map fun _ => .drop none) =
      some ({ state with
        dropList := [], clients := state.clients.filter (· ∉ state.dropList) },
        state.dropList.map .erase) := by
  obtain ⟨clients, packetType, readList, dropList, status⟩ := state
  dsimp only at *
  subst hrun hread
  -- one iteration for each socket, on the list that the one before it has left
  induction dropList generalizing clients with
  | nil => simp
  | cons client rest ih =>
      have hmem : client ∈ clients := hsub List.mem_cons_self
      rw [List.nodup_cons] at hdrops
      have hstep : (serverLoop handlers server).step
          ⟨clients, packetType, [], client :: rest, .running⟩ (.drop none) =
          some (⟨clients.erase client, packetType, [], rest, .running⟩, [.erase client]) := by
        apply step_of_ok
        simp only [onUpdate, dropClient, if_pos hmem]
        rfl
      have hsub' : rest ⊆ clients.erase client := by
        intro s hs
        have hne : s ≠ client := fun h => hdrops.1 (h ▸ hs)
        exact (List.mem_erase_of_ne hne).mpr (hsub (List.mem_cons_of_mem _ hs))
      rw [List.map_cons, Machine.run_cons_of_step hstep, ih _ (hnodup.erase _) hsub' hdrops.2]
      simp only [Option.map_some, List.map_cons, List.singleton_append, Option.some.injEq,
        Prod.mk.injEq, LoopState.mk.injEq, and_true]
      -- without duplicates, erasing one by one is filtering
      rw [hnodup.erase_eq_filter, List.filter_filter]
      refine List.filter_congr fun s _ => ?_
      by_cases hs : s = client <;> simp [hs]

/-- When the loop has ended on a close request, every socket of `clients` has been closed. -/
theorem closed_of_exited {packetType : Word} {state : LoopState S} {tr : List (Event S)}
    (h : (serverLoop handlers server).Reachable Admissible (LoopState.initial server packetType)
      state tr) (hexit : state.status = .exited) :
    ∀ s ∈ state.clients, .close s ∈ tr := by
  -- the loop is only left normally by the step that closes the sockets
  have hinv := invariant_of_progress
    (P := fun state tr => state.status = .exited → ∀ s ∈ state.clients, .close s ∈ tr)
    (fun h => by cases h) (fun {s s' tr es i} _ _ hprog hexit => ?_) h
  · rcases hinv with hinv | ⟨fault, hthrown⟩
    · exact hinv hexit
    · rw [hexit] at hthrown
      cases hthrown
  · rcases hprog.running_or_exited with hrun | ⟨-, hclients, rfl⟩
    · rw [hrun] at hexit
      cases hexit
    · intro c hc
      rw [hclients] at hc
      simp only [List.mem_append, List.mem_map]
      exact .inr (.inl ⟨c, hc, rfl⟩)

/-- At the head of the loop, `clients` holds the listening socket exactly once and first, then the
connections accepted with ACCEPT whose `receiveBytes` has not returned 0, in order of acceptance.
The drop loop removes exactly `dropList`, in which the listening socket never is. After a close
request every socket of `clients` has been closed. -/
theorem clients_representation {packetType : Word} {state : LoopState S} {tr : List (Event S)}
    (h : (serverLoop handlers server).Reachable Admissible (LoopState.initial server packetType)
      state tr) :
    (state.AtHead → state.clients = server :: connected tr ∧ state.clients.Nodup) ∧
    (state.status = .running → server ∈ state.clients ∧ server ∉ state.dropList) ∧
    (state.status = .running → state.readList = [] →
      (serverLoop handlers server).run state (state.dropList.map fun _ => .drop none) =
        some ({ state with
          dropList := [], clients := state.clients.filter (· ∉ state.dropList) },
          state.dropList.map .erase)) ∧
    (state.status = .exited → ∀ s ∈ state.clients, .close s ∈ tr) := by
  refine ⟨?_, ?_, ?_, closed_of_exited h⟩
  -- an exception is excluded by each part's own hypothesis
  all_goals
    rcases clientsInv_of_reachable h with hinv | ⟨fault, hthrown⟩
  · rintro ⟨-, -, hdrop⟩
    refine ⟨?_, hinv.nodup⟩
    simpa [hdrop] using hinv.live
  · rintro ⟨hrun, -, -⟩
    rw [hrun] at hthrown
    cases hthrown
  · refine fun _ => ⟨?_, hinv.server_notMem⟩
    have hmem : server ∈ state.clients.filter (· ∉ state.dropList) := by
      rw [hinv.live]
      exact List.mem_cons_self
    exact List.mem_of_mem_filter hmem
  · intro hrun
    rw [hrun] at hthrown
    cases hthrown
  · exact fun hrun hread =>
      run_drops state hrun hread hinv.nodup hinv.dropList_subset hinv.dropList_nodup
  · intro hrun
    rw [hrun] at hthrown
    cases hthrown

/-- Two connections are accepted and the first is shut down. -/
theorem clients_representation_of_two :
    ∃ state tr, (serverLoop (⟨[], none⟩ : Handlers ℕ Unit) 0).run
        (LoopState.initial 0 (Word.ofNat 0))
        [.select 1 [0] none, .accept 1 "a" () .zero, .select 1 [0] none,
          .accept 2 "b" () .zero, .select 2 [2, 1] none, .receive (.bytes [1]) .zero,
          .receive .shutdown .zero, .drop none] = some (state, tr) ∧
      state.clients = [0, 2] ∧ 0 :: connected tr = [0, 2] := by
  refine ⟨_, _, rfl, rfl, ?_⟩
  have hinit : (serverLoop (⟨[], none⟩ : Handlers ℕ Unit) 0).Reachable Admissible
      (LoopState.initial 0 (Word.ofNat 0)) (LoopState.initial 0 (Word.ofNat 0)) [] := .init
  have hreach := hinit.run [.select 1 [0] none, .accept 1 "a" () .zero, .select 1 [0] none,
    .accept 2 "b" () .zero, .select 2 [2, 1] none, .receive (.bytes [1]) .zero,
    .receive .shutdown .zero, .drop none] (by decide) rfl
  exact ((clients_representation hreach).1 ⟨rfl, rfl, rfl⟩).1.symm

end PocoEcho

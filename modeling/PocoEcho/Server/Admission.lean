import Mathlib.Data.Finset.Basic
import Mathlib.Data.Finset.Dedup
import PocoEcho.Network.ServerLoop.Clients
import PocoEcho.Server.Program
import PocoEcho.Server.Runs
import PocoEcho.Server.Sessions

/-!
# Admission control

The server serves a connection only when its peer was whitelisted at the moment at which the
connection was accepted: by a row loaded at the start, or by a successful `Add` that no successful
`Remove` has undone. Every other connection is sent KICK, closed, and never heard of again.

## Main results

* `programInv_of_reachable`: the handlers are registered before the update thread is started;
* `admissionInv_of_reachable`: each listed client was whitelisted at its own acceptance;
* `admission_control`: the history property of whole runs.
-/

namespace PocoEcho

open Poco ServerLoop

/-! ## Steps of the loop -/

section Steps

variable {S : Type} {server : S} {whiteList : CWhiteList} {state state' : LoopState S}

/-- A packet handler is invoked, or ACCEPT is sent. -/
def Event.Serves (e : Event S) : Prop :=
  (∃ s packetType, e = .packetHandler s packetType) ∨ e.sent = some PacketType.accept.word.bytes

/-- What a step of the loop means for the admission of connections. -/
inductive AdmissionStep (server : S) (whiteList : CWhiteList) (state state' : LoopState S) :
    List (Event S) → Prop
  /-- A whitelisted peer is admitted. -/
  | admitted {client : S} {host : String} (hfresh : client ∉ state.clients)
      (hhost : host ∈ whiteList.acceptList)
      (hclients : state'.clients = state.clients ++ [client]) :
      AdmissionStep server whiteList state state'
        [.acceptConnection client host, .sendBytes client PacketType.accept.word.bytes]
  /-- Any other peer is kicked. -/
  | kicked {client : S} {host : String} (hfresh : client ∉ state.clients)
      (hhost : host ∉ whiteList.acceptList) (hclients : state'.clients = state.clients) :
      AdmissionStep server whiteList state state'
        [.acceptConnection client host, .sendBytes client PacketType.kick.word.bytes, .close client]
  /-- No connection is accepted, and only clients are concerned. -/
  | other {es : List (Event S)} (hclients : state'.clients ⊆ state.clients)
      (hes : ∀ e ∈ es, e.isAccept = false ∧ (∀ s, e.socket = some s → s ∈ state.clients) ∧
        (e.Serves → e.socket ≠ some server)) :
      AdmissionStep server whiteList state state' es

/-- The events of a receive step concern the client received from. -/
theorem admissionStep_of_sender {sender : S} {es : List (Event S)} (hmem : sender ∈ state.clients)
    (hsender : sender ≠ server) (hclients : state'.clients = state.clients)
    (hes : ∀ e ∈ es, e.socket = some sender ∧ e.isAccept = false) :
    AdmissionStep server whiteList state state' es := by
  refine .other (fun s hs => hclients ▸ hs) fun e he => ?_
  obtain ⟨hsocket, haccept⟩ := hes e he
  refine ⟨haccept, fun s hs => ?_, fun _ hserver => hsender ?_⟩
  · rw [hsocket, Option.some.injEq] at hs
    exact hs ▸ hmem
  · rw [hsocket, Option.some.injEq] at hserver
    exact hserver

/-- The connect handler looks up the whitelist it is given. -/
theorem world_of_withWorld {input : Input S Unit} {whiteList world : CWhiteList} {client : S}
    {host : String} {env : HandlerEnv}
    (h : input.withWorld whiteList = .accept client host world env) : world = whiteList := by
  cases input <;> cases h
  rfl

variable [DecidableEq S]

/-- Every step of the loop is of one of these kinds. -/
theorem admissionStep_of_step {tr es : List (Event S)} {input : Input S Unit}
    (hlists : ClientsInv server state tr)
    (hadm : Undisturbed state (input.withWorld whiteList))
    (hstep : step CServer.handlers server state (input.withWorld whiteList) =
      some (state', es)) : AdmissionStep server whiteList state state' es := by
  rcases thrown_or_progress hstep with ⟨fault, outcome, hup, herr, rfl, rfl⟩ | hprog
  · obtain ⟨sender, rest, data, stray, hread, hne, -, -, hlog⟩ := fault_of_undisturbed hadm hup herr
    -- the exception left the handling of a chunk: only its client is concerned
    have hmem : sender ∈ state.clients := hlists.readList_subset (by simp [hread])
    rw [hlog]
    exact admissionStep_of_sender hmem hne rfl socket_of_mem_receive
  · generalize hinput : input.withWorld whiteList = input' at hprog hadm
    cases hprog with
    | close hhead =>
        -- every socket that is closed is one of `clients`
        refine .other (fun s hs => hs) fun e he => ?_
        rcases List.mem_append.mp he with he | he
        · obtain ⟨s, hs, rfl⟩ := List.mem_map.mp he
          refine ⟨rfl, fun s' hs' => Option.some.inj hs' ▸ hs, ?_⟩
          rintro (⟨_, _, h⟩ | h) <;> cases h
        · obtain rfl := List.mem_singleton.mp he
          simp [Event.isAccept, Event.socket]
    | select => exact .other (fun s hs => hs) fun e he => by simp at he
    | admitted hrun hread hconnect =>
        obtain rfl := world_of_withWorld hinput
        obtain ⟨hquiet, hcan⟩ := connect_ok hconnect
        rw [hquiet]
        -- the connect handler has found the host in the whitelist
        exact .admitted hadm.1 ((CWhiteList.isClientCanConnect_iff _ _).mp hcan.symm) rfl
    | kick hrun hread hconnect =>
        obtain rfl := world_of_withWorld hinput
        obtain ⟨hquiet, hcan⟩ := connect_ok hconnect
        rw [hquiet]
        refine .kicked hadm.1 (fun hhost => ?_) rfl
        -- otherwise it would have returned `true`
        rw [(CWhiteList.isClientCanConnect_iff _ _).mpr hhost] at hcan
        cases hcan
    | shutdown hrun hread hclient env =>
        refine admissionStep_of_sender (hlists.readList_subset (by rw [hread]; simp)) hclient rfl ?_
        simp [Event.socket, Event.isAccept]
    | negative => exact hadm.1.elim
    | receive hrun hread hclient data env hdata =>
        exact admissionStep_of_sender (hlists.readList_subset (by rw [hread]; simp)) hclient
          (by rw [state_handleData hdata]) socket_of_mem_receive
    | erase hrun hread hdrop hmem throwsAt =>
        refine .other (List.erase_subset) fun e he => ?_
        obtain rfl := List.mem_singleton.mp he
        refine ⟨rfl, fun s hs => Option.some.inj hs ▸ hmem, ?_⟩
        rintro (⟨_, _, h⟩ | h) <;> cases h
    | missing => exact .other (fun s hs => hs) fun e he => by simp at he

end Steps

/-! ## Steps of the program -/

namespace ServerProgram

variable {S : Type}

/-- How an event changes the whitelist. -/
def trackWhitelist (listed : Finset String) : Event S → Finset String
  | .loaded rows => listed ∪ rows.toFinset
  | .added strIp => insert strIp listed
  | .removed strIp => listed.erase strIp
  | .loop _ => listed

/-- The whitelist as determined by the rows loaded and the successful calls of `Add` and `Remove`
so far. -/
def whitelistAfter (tr : List (Event S)) : Finset String := tr.foldl trackWhitelist ∅

/-- What the loop did. -/
def loopEvents (tr : List (Event S)) : List (PocoEcho.Event S) :=
  tr.filterMap fun
    | .loop event => some event
    | _ => none

theorem whitelistAfter_append (tr es : List (Event S)) :
    whitelistAfter (tr ++ es) = es.foldl trackWhitelist (whitelistAfter tr) :=
  List.foldl_append

/-- The loop does not change the whitelist. -/
@[simp]
theorem whitelistAfter_append_loop (tr : List (Event S)) (events : List (PocoEcho.Event S)) :
    whitelistAfter (tr ++ events.map .loop) = whitelistAfter tr := by
  rw [whitelistAfter_append]
  induction events with
  | nil => rfl
  | cons event events ih => exact ih

theorem loopEvents_append (tr es : List (Event S)) :
    loopEvents (tr ++ es) = loopEvents tr ++ loopEvents es :=
  List.filterMap_append

@[simp]
theorem loopEvents_map_loop (events : List (PocoEcho.Event S)) :
    loopEvents (events.map .loop) = events := by
  simp [loopEvents, List.filterMap_map]

/-- The network object after a successful `TryStart`. -/
def started (server : S) : CServer.Network S :=
  { socket := some server, packetHandlerList := [.packetHandler]
    connectHandler := some .connectHandler }

/-- The network object determines the listening socket. -/
theorem started_injective : Function.Injective (started : S → CServer.Network S) :=
  fun _ _ h => Option.some.inj (congrArg CNetworkServer.socket h)

/-- `TryStart` registers both handlers before it returns `true`. -/
theorem tryStart_eq (opened : Option S) :
    CServer.tryStart opened =
      match opened with
      | some server => (true, started server)
      | none => (false, .new) := by
  cases opened <;> rfl

variable [DecidableEq S]

/-- What holds of the program in every run. -/
structure ProgramInv (program : ServerProgram S) (tr : List (Event S)) : Prop where
  /-- The whitelist in memory is the one that the trace determines. -/
  whiteList_eq : program.stage ≠ .ended → program.whiteList.acceptList = whitelistAfter tr
  /-- `Run` is only reached with a started network object. -/
  network_eq : program.stage = .run ∨ program.stage = .console →
    ∃ server, program.network = some (started server)
  /-- The update thread is started by `Run`. -/
  stage_eq : program.loop ≠ none → program.stage = .console
  /-- Before that the loop does nothing. -/
  loop_none : program.loop = none → loopEvents tr = []
  /-- The update thread runs the server loop with the handlers of the server. -/
  loop_reaches : ∀ loop, program.loop = some loop → ∃ server packetType,
    program.network = some (started server) ∧ Reaches server packetType loop (loopEvents tr)

theorem programInv_initial : ProgramInv (initial S) [] where
  whiteList_eq := fun _ => rfl
  network_eq := by rintro (h | h) <;> cases h
  stage_eq := fun h => absurd rfl h
  loop_none := fun _ => rfl
  loop_reaches := fun loop h => by cases h

/-- A step of `main` or of the console: the whitelist follows the trace, the handlers are registered
before `Run`, and the loop is left alone or started. -/
structure SilentStep (program program' : ServerProgram S) (tr es : List (Event S)) : Prop where
  loopEvents_eq : loopEvents es = []
  whiteList_eq : program'.stage ≠ .ended →
    program'.whiteList.acceptList = whitelistAfter (tr ++ es)
  network_eq : program'.stage = .run ∨ program'.stage = .console →
    ∃ server, program'.network = some (started server)
  loop_cases : (program'.loop = program.loop ∧ program'.stage = program.stage ∧
      program'.network = program.network) ∨
    program.loop = none ∧ (program'.loop = none ∨ program'.stage = .console ∧
      ∃ server packetType, program'.network = some (started server) ∧
        program'.loop = some (LoopState.initial server packetType))

/-- A step of the update thread. -/
def LoopStep (program program' : ServerProgram S) (input : Input S) (es : List (Event S)) : Prop :=
  ∃ input' server loop loop' events, input = .loop input' ∧
    program.network = some (started server) ∧ program.loop = some loop ∧
    ServerLoop.step CServer.handlers server loop (input'.withWorld program.whiteList) =
      some (loop', events) ∧
    program' = { program with loop := some loop' } ∧ es = events.map .loop

/-- Before `Run` there is no update thread. -/
theorem ProgramInv.loop_eq_none {program : ServerProgram S} {tr : List (Event S)}
    (hinv : ProgramInv program tr) (hstage : program.stage ≠ .console) : program.loop = none := by
  by_contra h
  exact hstage (hinv.stage_eq h)

omit [DecidableEq S] in
/-- A step with which `main` ends. -/
theorem silentStep_ended {program program' : ServerProgram S} {tr : List (Event S)}
    (hnone : program.loop = none) (hloop : program'.loop = none)
    (hstage : program'.stage = .ended) : SilentStep program program' tr [] := by
  refine ⟨rfl, fun h => absurd hstage h, fun h => ?_, .inr ⟨hnone, .inl hloop⟩⟩
  rw [hstage] at h
  rcases h with h | h <;> cases h

theorem silentStep_tryGetList {program : ServerProgram S} {tr : List (Event S)}
    (hinv : ProgramInv program tr) (hstage : program.stage = .tryGetList)
    (created selected : Bool) (rows : List String) :
    SilentStep program (program.tryGetList created selected rows).1 tr
      (program.tryGetList created selected rows).2 := by
  have hnone := hinv.loop_eq_none (by rw [hstage]; decide)
  have hlist := hinv.whiteList_eq (by rw [hstage]; decide)
  unfold tryGetList CWhiteList.tryGetList
  cases created with
  | false => exact silentStep_ended hnone hnone rfl
  | true =>
      cases selected with
      | false => exact silentStep_ended hnone hnone rfl
      | true =>
          -- the rows are added to the list one by one
          refine ⟨rfl, fun _ => ?_, by simp, .inr ⟨hnone, .inl hnone⟩⟩
          ext host
          rw [whitelistAfter_append]
          simp only [Bool.not_true, Bool.false_eq_true, ↓reduceIte, List.foldl_cons, List.foldl_nil,
            trackWhitelist, Finset.mem_union, List.mem_toFinset, ← hlist]
          rw [CWhiteList.mem_foldl_onWhiteListLoad, or_comm]

theorem silentStep_tryStart {program : ServerProgram S} {tr : List (Event S)}
    (hinv : ProgramInv program tr) (hstage : program.stage = .tryStart) (opened : Option S) :
    SilentStep program (program.tryStart opened) tr [] := by
  have hnone := hinv.loop_eq_none (by rw [hstage]; decide)
  have hlist := hinv.whiteList_eq (by rw [hstage]; decide)
  rw [tryStart, tryStart_eq]
  cases opened with
  | none => exact silentStep_ended hnone hnone rfl
  | some server =>
      refine ⟨rfl, fun _ => ?_, fun _ => ⟨server, rfl⟩, .inr ⟨hnone, .inl hnone⟩⟩
      rw [List.append_nil]
      exact hlist

theorem silentStep_run {program : ServerProgram S} {tr : List (Event S)}
    (hinv : ProgramInv program tr) (hstage : program.stage = .run) (packetType : Word) :
    SilentStep program (program.run packetType) tr [] := by
  have hnone := hinv.loop_eq_none (by rw [hstage]; decide)
  have hlist := hinv.whiteList_eq (by rw [hstage]; decide)
  -- `TryStart` has succeeded, or `Run` would not have been reached
  obtain ⟨server, hnetwork⟩ := hinv.network_eq (.inl hstage)
  have hrun : program.run packetType = { program with
      stage := .console, loop := some (LoopState.initial server packetType) } := by
    rw [run, hnetwork]
    rfl
  rw [hrun]
  refine ⟨rfl, fun _ => ?_, fun _ => ⟨server, hnetwork⟩,
    .inr ⟨hnone, .inr ⟨rfl, server, packetType, hnetwork, rfl⟩⟩⟩
  rw [List.append_nil]
  exact hlist

theorem silentStep_add {program : ServerProgram S} {tr : List (Event S)}
    (hinv : ProgramInv program tr) (hstage : program.stage = .console) (strIp : String)
    (executed : Bool) :
    SilentStep program (program.add strIp executed).1 tr (program.add strIp executed).2 := by
  have hlist := hinv.whiteList_eq (by rw [hstage]; decide)
  have hadd := program.whiteList.add_eq strIp executed
  refine ⟨?_, fun _ => ?_, hinv.network_eq, .inl ⟨rfl, rfl, rfl⟩⟩
  · simp only [add]
    split <;> rfl
  · simp only [add, hadd]
    rw [whitelistAfter_append, ← hlist]
    split <;> rfl

theorem silentStep_remove {program : ServerProgram S} {tr : List (Event S)}
    (hinv : ProgramInv program tr) (hstage : program.stage = .console) (strIp : String)
    (executed : Bool) :
    SilentStep program (program.remove strIp executed).1 tr (program.remove strIp executed).2 := by
  have hlist := hinv.whiteList_eq (by rw [hstage]; decide)
  have hremove := program.whiteList.remove_eq strIp executed
  refine ⟨?_, fun _ => ?_, hinv.network_eq, .inl ⟨rfl, rfl, rfl⟩⟩
  · simp only [remove]
    split <;> rfl
  · simp only [remove, hremove]
    rw [whitelistAfter_append, ← hlist]
    split <;> rfl

/-- Every step is a step of `main` or the console, or a step of the update thread. -/
theorem silent_or_loopStep {program program' : ServerProgram S} {tr es : List (Event S)}
    {input : Input S} (hinv : ProgramInv program tr)
    (h : (serverProgram S).step program input = some (program', es)) :
    SilentStep program program' tr es ∨ LoopStep program program' input es := by
  change step program input = some (program', es) at h
  unfold step at h
  split at h
  -- the stage and the call decide which step it is
  next created selected rows hstage =>
    obtain ⟨rfl, rfl⟩ := Prod.mk.inj (Option.some.inj h)
    exact .inl (silentStep_tryGetList hinv hstage created selected rows)
  next opened hstage =>
    obtain ⟨rfl, rfl⟩ := Prod.mk.inj (Option.some.inj h)
    exact .inl (silentStep_tryStart hinv hstage opened)
  next packetType hstage =>
    obtain ⟨rfl, rfl⟩ := Prod.mk.inj (Option.some.inj h)
    exact .inl (silentStep_run hinv hstage packetType)
  next strIp executed hstage =>
    obtain ⟨rfl, rfl⟩ := Prod.mk.inj (Option.some.inj h)
    exact .inl (silentStep_add hinv hstage strIp executed)
  next strIp executed hstage =>
    obtain ⟨rfl, rfl⟩ := Prod.mk.inj (Option.some.inj h)
    exact .inl (silentStep_remove hinv hstage strIp executed)
  next input' hstage =>
    -- the handlers of the started network object are those of the server
    obtain ⟨server, hnetwork⟩ := hinv.network_eq (.inr hstage)
    split at h
    next network loop hsome hloop =>
      obtain rfl : network = started server := Option.some.inj (hsome.symm.trans hnetwork)
      change Option.map _ (ServerLoop.step CServer.handlers server loop _) = _ at h
      obtain ⟨⟨loop', events⟩, hstep, heq⟩ := Option.map_eq_some_iff.mp h
      obtain ⟨rfl, rfl⟩ := Prod.mk.inj heq
      exact .inr ⟨input', server, loop, loop', events, rfl, hnetwork, hloop, hstep, rfl, rfl⟩
    next => cases h
  next => cases h

/-- Steps of `main` and of the console keep the invariant. -/
theorem ProgramInv.of_silent {program program' : ServerProgram S} {tr es : List (Event S)}
    (hinv : ProgramInv program tr) (h : SilentStep program program' tr es) :
    ProgramInv program' (tr ++ es) := by
  have hevents : loopEvents (tr ++ es) = loopEvents tr := by
    rw [loopEvents_append, h.loopEvents_eq, List.append_nil]
  rcases h.loop_cases with ⟨hloop, hstage, hnet⟩ |
    ⟨hnone, hloop | ⟨hstage, server, packetType, hnet, hloop⟩⟩
  -- the update thread is left as it is
  · refine
      { whiteList_eq := h.whiteList_eq
        network_eq := h.network_eq
        stage_eq := ?_
        loop_none := ?_
        loop_reaches := ?_ }
    · rw [hloop, hstage]
      exact hinv.stage_eq
    · rw [hloop, hevents]
      exact hinv.loop_none
    · rw [hloop, hnet, hevents]
      exact hinv.loop_reaches
  -- it has not been started yet
  · refine
      { whiteList_eq := h.whiteList_eq
        network_eq := h.network_eq
        stage_eq := fun hsome => absurd hloop hsome
        loop_none := fun _ => hevents ▸ hinv.loop_none hnone
        loop_reaches := fun loop hsome => ?_ }
    rw [hloop] at hsome
    cases hsome
  -- it is started
  · refine
      { whiteList_eq := h.whiteList_eq
        network_eq := h.network_eq
        stage_eq := fun _ => hstage
        loop_none := fun hnil => ?_
        loop_reaches := fun loop hsome => ?_ }
    · rw [hloop] at hnil
      cases hnil
    · rw [hloop, Option.some.injEq] at hsome
      rw [hevents, hinv.loop_none hnone, ← hsome]
      exact ⟨server, packetType, hnet, .init⟩

/-- Steps of the update thread are steps of the server loop. -/
theorem ProgramInv.of_loopStep {program program' : ServerProgram S} {tr es : List (Event S)}
    {input : Input S} (hinv : ProgramInv program tr) (hadm : program.Undisturbed input)
    (h : LoopStep program program' input es) : ProgramInv program' (tr ++ es) := by
  obtain ⟨input', server, loop, loop', events, rfl, hnetwork, hloop, hstep, rfl, rfl⟩ := h
  obtain ⟨server', packetType, hnetwork', hreach⟩ := hinv.loop_reaches loop hloop
  obtain rfl := started_injective (Option.some.inj (hnetwork.symm.trans hnetwork'))
  refine
    { whiteList_eq := fun hstage => ?_
      network_eq := hinv.network_eq
      stage_eq := fun _ => hinv.stage_eq (by simp [hloop])
      loop_none := fun h => by cases h
      loop_reaches := fun l hl => ?_ }
  · rw [whitelistAfter_append_loop]
    exact hinv.whiteList_eq hstage
  · obtain rfl := Option.some.inj hl
    refine ⟨server, packetType, hnetwork, ?_⟩
    rw [loopEvents_append, loopEvents_map_loop]
    exact hreach.step (hadm loop hloop) hstep

/-- The invariant holds in every run. -/
theorem programInv_of_reachable {program : ServerProgram S} {tr : List (Event S)}
    (h : (serverProgram S).Reachable Undisturbed (initial S) program tr) :
    ProgramInv program tr := by
  refine h.invariant programInv_initial fun _ hinv hadm hstep => ?_
  rcases silent_or_loopStep hinv hstep with hsilent | hloop
  · exact hinv.of_silent hsilent
  · exact hinv.of_loopStep hadm hloop

/-! ## Admission -/

/-- The event is the acceptance of a connection. -/
def IsAcceptOf (s : S) (e : Event S) : Prop := ∃ host, e = .loop (.acceptConnection s host)

/-- The connection was returned by `acceptConnection`, and at that moment the host of its peer was
whitelisted. -/
def AdmittedIn (tr : List (Event S)) (s : S) : Prop :=
  ∃ before host after, tr = before ++ .loop (.acceptConnection s host) :: after ∧
    (∀ e ∈ after, ¬ IsAcceptOf s e) ∧ host ∈ whitelistAfter before

omit [DecidableEq S] in
theorem AdmittedIn.append {tr es : List (Event S)} {s : S} (h : AdmittedIn tr s)
    (hes : ∀ e ∈ es, ¬ IsAcceptOf s e) : AdmittedIn (tr ++ es) s := by
  obtain ⟨before, host, after, rfl, hafter, hhost⟩ := h
  refine ⟨before, host, after ++ es, by simp, fun e he => ?_, hhost⟩
  exact (List.mem_append.mp he).elim (hafter e) (hes e)

/-- The invariant of admission control. -/
structure AdmissionInv (program : ServerProgram S) (tr : List (Event S)) : Prop where
  /-- Whoever was served had been admitted. -/
  served : ∀ past e future s, tr = past ++ .loop e :: future → e.socket = some s → e.Serves →
    AdmittedIn past s
  /-- Every client has been admitted. -/
  clients : ∀ loop server, program.loop = some loop → program.network = some (started server) →
    ∀ s ∈ loop.clients, s ≠ server → AdmittedIn tr s
  /-- Whoever was accepted but not whitelisted has been kicked, and is not a client. -/
  kicked : ∀ past s host future, tr = past ++ .loop (.acceptConnection s host) :: future →
    (∀ e ∈ future, ¬ IsAcceptOf s e) → host ∉ whitelistAfter past →
    eventsOf s (loopEvents future) = [.sendBytes s PacketType.kick.word.bytes, .close s] ∧
      ∀ loop, program.loop = some loop → s ∉ loop.clients

omit [DecidableEq S] in
/-- A list without events of the loop. -/
theorem loop_notMem {es : List (Event S)} (h : loopEvents es = []) (event : PocoEcho.Event S) :
    .loop event ∉ es := by
  intro hmem
  have := List.filterMap_eq_nil_iff.mp h _ hmem
  cases this

theorem admissionInv_initial : AdmissionInv (initial S) [] where
  served := fun past e future s h => by simp at h
  clients := fun loop server h => by cases h
  kicked := fun past s host future h => by simp at h

/-- Steps of `main` and of the console do not concern any connection. -/
theorem AdmissionInv.of_silent {program program' : ServerProgram S} {tr es : List (Event S)}
    (hinv : AdmissionInv program tr) (hprogram : ProgramInv program tr)
    (h : SilentStep program program' tr es) : AdmissionInv program' (tr ++ es) := by
  have hnoAccept : ∀ s, ∀ e ∈ es, ¬ IsAcceptOf s e := by
    rintro s e he ⟨host, rfl⟩
    exact loop_notMem h.loopEvents_eq _ he
  refine { served := ?_, clients := ?_, kicked := ?_ }
  -- an event of the loop is one of the events so far
  · intro past e future s hsplit
    rcases Trace.append_eq_append_cons hsplit with ⟨mid, rfl, -⟩ | ⟨mid, -, rfl⟩
    · exact hinv.served past e mid s rfl
    · exact absurd (List.mem_append_right _ List.mem_cons_self) (loop_notMem h.loopEvents_eq _)
  · intro loop server hloop hnetwork s hs hne
    rcases h.loop_cases with ⟨hsame, -, hnet⟩ | ⟨-, hnone | ⟨-, server', packetType, hnet, hstart⟩⟩
    · rw [hsame] at hloop
      rw [hnet] at hnetwork
      exact (hinv.clients loop server hloop hnetwork s hs hne).append (hnoAccept s)
    · rw [hnone] at hloop
      cases hloop
    · -- the update thread has just been started: it has no clients yet
      rw [hstart, Option.some.injEq] at hloop
      rw [hnet, Option.some.injEq] at hnetwork
      obtain rfl := started_injective hnetwork
      rw [← hloop] at hs
      exact absurd (List.mem_singleton.mp hs) hne
  · intro past s host future hsplit hlast hhost
    rcases Trace.append_eq_append_cons hsplit with ⟨mid, rfl, rfl⟩ | ⟨mid, -, rfl⟩
    · obtain ⟨hevents, hclients⟩ := hinv.kicked past s host mid rfl
        (fun e he => hlast e (List.mem_append_left _ he)) hhost
      rw [loopEvents_append, h.loopEvents_eq, List.append_nil]
      refine ⟨hevents, fun loop hloop => ?_⟩
      rcases h.loop_cases with ⟨hsame, -, -⟩ | ⟨hnone, -⟩
      · exact hclients loop (hsame ▸ hloop)
      · have hnil := hprogram.loop_none hnone
        rw [loopEvents_append] at hnil
        simp [loopEvents] at hnil
    · exact absurd (List.mem_append_right _ List.mem_cons_self) (loop_notMem h.loopEvents_eq _)

omit [DecidableEq S] in
/-- An event of the loop within the events of a step. -/
theorem mem_of_map_loop_eq {events : List (PocoEcho.Event S)} {mid future : List (Event S)}
    {e : PocoEcho.Event S} (hsplit : events.map .loop = mid ++ .loop e :: future) : e ∈ events := by
  have hmem : .loop e ∈ events.map Event.loop := by simp [hsplit]
  simpa using hmem

section LoopSteps

variable {server : S} {whiteList : CWhiteList} {loop loop' : LoopState S}
  {events : List (PocoEcho.Event S)} {tr : List (Event S)}

omit [DecidableEq S] in
/-- A step of the loop does not accept a client anew. -/
theorem not_isAcceptOf_of_admissionStep (h : AdmissionStep server whiteList loop loop' events)
    {s : S} (hs : s ∈ loop.clients) : ∀ x ∈ events.map Event.loop, ¬ IsAcceptOf s x := by
  rintro x hx ⟨host, rfl⟩
  have hmem : .acceptConnection s host ∈ events := by simpa using hx
  cases h with
  | admitted hfresh _ _ =>
      simp only [List.mem_cons, PocoEcho.Event.acceptConnection.injEq, reduceCtorEq,
        List.not_mem_nil, or_false] at hmem
      exact hfresh (hmem.1 ▸ hs)
  | kicked hfresh _ _ =>
      simp only [List.mem_cons, PocoEcho.Event.acceptConnection.injEq, reduceCtorEq,
        List.not_mem_nil, or_false] at hmem
      exact hfresh (hmem.1 ▸ hs)
  | other _ hes =>
      have := (hes _ hmem).1
      cases this

omit [DecidableEq S] in
/-- Whoever is served in a step of the loop has been admitted by then. -/
theorem served_of_admissionStep (hlist : whiteList.acceptList = whitelistAfter tr)
    (hclients : ∀ s ∈ loop.clients, s ≠ server → AdmittedIn tr s)
    (h : AdmissionStep server whiteList loop loop' events) {mid future : List (Event S)}
    {e : PocoEcho.Event S} {s : S} (hsplit : events.map .loop = mid ++ .loop e :: future)
    (hsocket : e.socket = some s) (hserves : e.Serves) : AdmittedIn (tr ++ mid) s := by
  have hmem : e ∈ events := mem_of_map_loop_eq hsplit
  have hnoAccept := fun hs => not_isAcceptOf_of_admissionStep (s := s) h hs
  cases h with
  | @admitted client host hfresh hhost _ =>
      -- only the packet behind the acceptance serves the client
      rcases mid with _ | ⟨x, mid⟩
      · simp only [List.map_cons, List.nil_append, List.cons.injEq, Event.loop.injEq] at hsplit
        rw [← hsplit.1] at hserves
        rcases hserves with ⟨_, _, h⟩ | h <;> cases h
      · rcases mid with _ | ⟨y, mid⟩
        · simp only [List.map_cons, List.cons_append, List.nil_append, List.cons.injEq,
            Event.loop.injEq] at hsplit
          obtain ⟨rfl, rfl, -⟩ := hsplit
          obtain rfl := Option.some.inj hsocket
          exact ⟨tr, host, [], rfl, by simp, hlist ▸ hhost⟩
        · simp at hsplit
  | kicked _ _ _ =>
      have hne : PacketType.kick.word.bytes ≠ PacketType.accept.word.bytes := by decide
      simp only [List.mem_cons, List.not_mem_nil, or_false] at hmem
      rcases hmem with rfl | rfl | rfl <;> rcases hserves with ⟨_, _, h⟩ | h
      · cases h
      · cases h
      · cases h
      · exact absurd (Option.some.inj h) hne
      · cases h
      · cases h
  | other _ hes =>
      obtain ⟨-, hmemClients, hserver⟩ := hes e hmem
      refine (hclients s (hmemClients s hsocket) ?_).append fun x hx => ?_
      · rintro rfl
        exact hserver hserves hsocket
      · exact hnoAccept (hmemClients s hsocket) x (hsplit ▸ List.mem_append_left _ hx)

omit [DecidableEq S] in
/-- The clients after a step of the loop have been admitted. -/
theorem clients_of_admissionStep (hlist : whiteList.acceptList = whitelistAfter tr)
    (hclients : ∀ s ∈ loop.clients, s ≠ server → AdmittedIn tr s)
    (h : AdmissionStep server whiteList loop loop' events) :
    ∀ s ∈ loop'.clients, s ≠ server → AdmittedIn (tr ++ events.map .loop) s := by
  intro s hs hne
  -- who was a client before the step stays admitted
  have hold : s ∈ loop.clients → AdmittedIn (tr ++ events.map .loop) s :=
    fun hs => (hclients s hs hne).append (not_isAcceptOf_of_admissionStep h hs)
  cases h with
  | @admitted client host hfresh hhost hclients' =>
      rw [hclients'] at hs
      rcases List.mem_append.mp hs with hs | hs
      · exact hold hs
      · obtain rfl := List.mem_singleton.mp hs
        refine ⟨tr, host, [.loop (.sendBytes s PacketType.accept.word.bytes)], rfl, ?_,
          hlist ▸ hhost⟩
        rintro x hx ⟨host', rfl⟩
        simp at hx
  | kicked _ _ hclients' => exact hold (hclients' ▸ hs)
  | other hsub _ => exact hold (hsub hs)

/-- A step of the loop that does not accept a connection anew leaves it alone if it is not a
client. -/
theorem eventsOf_of_admissionStep (h : AdmissionStep server whiteList loop loop' events) {s : S}
    (hs : s ∉ loop.clients) (hnoAccept : ∀ host, .acceptConnection s host ∉ events) :
    eventsOf s events = [] ∧ s ∉ loop'.clients := by
  have hother : ∀ {client : S} {es : List (PocoEcho.Event S)}, client ≠ s →
      (∀ e ∈ es, e.socket = some client) → eventsOf s es = [] := by
    intro client es hne hes
    refine List.filter_eq_nil_iff.mpr fun e he => ?_
    simp [hes e he, hne]
  cases h with
  | @admitted client host hfresh hhost hclients' =>
      have hne : client ≠ s := by
        rintro rfl
        exact hnoAccept host List.mem_cons_self
      refine ⟨hother hne (by simp [PocoEcho.Event.socket]), ?_⟩
      rw [hclients', List.mem_append, List.mem_singleton]
      rintro (h | h)
      · exact hs h
      · exact hne h.symm
  | @kicked client host hfresh hhost hclients' =>
      have hne : client ≠ s := by
        rintro rfl
        exact hnoAccept host List.mem_cons_self
      exact ⟨hother hne (by simp [PocoEcho.Event.socket]), hclients' ▸ hs⟩
  | other hsub hes =>
      refine ⟨List.filter_eq_nil_iff.mpr fun e he => ?_, fun h => hs (hsub h)⟩
      simp only [decide_eq_true_eq]
      exact fun hsocket => hs ((hes e he).2.1 s hsocket)

omit [DecidableEq S] in
/-- A connection that is accepted without being whitelisted is kicked and closed at once. -/
theorem kicked_of_admissionStep (h : AdmissionStep server whiteList loop loop' events)
    {mid future : List (Event S)} {s : S} {host : String}
    (hsplit : events.map .loop = mid ++ .loop (.acceptConnection s host) :: future)
    (hhost : host ∉ whiteList.acceptList) :
    mid = [] ∧ future = [.loop (.sendBytes s PacketType.kick.word.bytes), .loop (.close s)] ∧
      s ∉ loop'.clients := by
  have hmem : .acceptConnection s host ∈ events := mem_of_map_loop_eq hsplit
  cases h with
  | admitted hfresh hlisted _ =>
      simp only [List.mem_cons, PocoEcho.Event.acceptConnection.injEq, reduceCtorEq,
        List.not_mem_nil, or_false] at hmem
      exact absurd (hmem.2 ▸ hlisted) hhost
  | @kicked client host' hfresh hlisted hclients' =>
      rcases mid with _ | ⟨x, mid⟩
      · simp only [List.map_cons, List.map_nil, List.nil_append, List.cons.injEq, Event.loop.injEq,
          PocoEcho.Event.acceptConnection.injEq] at hsplit
        obtain ⟨⟨rfl, rfl⟩, rfl⟩ := hsplit
        exact ⟨rfl, rfl, hclients' ▸ hfresh⟩
      -- the acceptance is the first event of the step
      · have : .loop (.acceptConnection s host) ∈
            [Event.loop (.sendBytes client PacketType.kick.word.bytes), .loop (.close client)] := by
          simp only [List.map_cons, List.map_nil, List.cons_append, List.cons.injEq] at hsplit
          simp [hsplit.2]
        simp at this
  | other hsub hes =>
      have := (hes _ hmem).1
      cases this

end LoopSteps

/-- Steps of the update thread keep the invariant. -/
theorem AdmissionInv.of_loopStep {program program' : ServerProgram S} {tr es : List (Event S)}
    {input : Input S} (hinv : AdmissionInv program tr) (hprogram : ProgramInv program tr)
    (hadm : program.Undisturbed input) (h : LoopStep program program' input es) :
    AdmissionInv program' (tr ++ es) := by
  obtain ⟨input', server, loop, loop', events, rfl, hnetwork, hloop, hstep, rfl, rfl⟩ := h
  obtain ⟨server', packetType, hnetwork', hreach⟩ := hprogram.loop_reaches loop hloop
  obtain rfl : server' = server :=
    started_injective (Option.some.inj (hnetwork'.symm.trans hnetwork))
  have hlist := hprogram.whiteList_eq (by rw [hprogram.stage_eq (by simp [hloop])]; decide)
  have hclients := hinv.clients loop server' hloop hnetwork
  -- the step shows that no exception has left the loop before
  have hlists : ClientsInv server' loop (loopEvents tr) := by
    refine (clientsInv_of_reachable hreach.reachable).resolve_right
      (not_exists.mpr fun fault hthrown => ?_)
    simp [ServerLoop.step, onUpdate, hthrown] at hstep
  have hkind := admissionStep_of_step hlists (hadm loop hloop) hstep
  refine { served := ?_, clients := ?_, kicked := ?_ }
  · intro past e future s hsplit hsocket hserves
    rcases Trace.append_eq_append_cons hsplit with ⟨mid, rfl, -⟩ | ⟨mid, rfl, hes⟩
    -- served before this step, or in it
    · exact hinv.served past e mid s rfl hsocket hserves
    · exact served_of_admissionStep hlist hclients hkind hes hsocket hserves
  · intro l server hl hnet
    obtain rfl := Option.some.inj hl
    obtain rfl := started_injective (Option.some.inj (hnetwork.symm.trans hnet))
    exact clients_of_admissionStep hlist hclients hkind
  · intro past s host future hsplit hlast hhost
    rcases Trace.append_eq_append_cons hsplit with ⟨mid, rfl, rfl⟩ | ⟨mid, rfl, hes⟩
    · -- kicked before this step
      obtain ⟨hevents, hgone⟩ := hinv.kicked past s host mid rfl
        (fun e he => hlast e (List.mem_append_left _ he)) hhost
      obtain ⟨hquiet, hgone'⟩ := eventsOf_of_admissionStep hkind (hgone loop hloop)
        fun host' hmem => hlast (.loop (.acceptConnection s host'))
          (List.mem_append_right _ (List.mem_map_of_mem hmem)) ⟨host', rfl⟩
      rw [loopEvents_append, loopEvents_map_loop, eventsOf_append, hevents, hquiet, List.append_nil]
      exact ⟨rfl, fun l hl => Option.some.inj hl ▸ hgone'⟩
    · -- kicked in this step
      have hhost' : host ∉ program.whiteList.acceptList := by
        intro hmem
        obtain ⟨prior, hprior⟩ : ∃ prior, mid = List.map Event.loop prior := by
          obtain ⟨prior, _, -, hprior, -⟩ := List.map_eq_append_iff.mp hes
          exact ⟨prior, hprior.symm⟩
        rw [hprior, whitelistAfter_append_loop, ← hlist] at hhost
        exact hhost hmem
      obtain ⟨rfl, rfl, hgone⟩ := kicked_of_admissionStep hkind hes hhost'
      refine ⟨?_, fun l hl => Option.some.inj hl ▸ hgone⟩
      simp [loopEvents, eventsOf, PocoEcho.Event.socket]

/-- The invariant holds in every run. -/
theorem admissionInv_of_reachable {program : ServerProgram S} {tr : List (Event S)}
    (h : (serverProgram S).Reachable Undisturbed (initial S) program tr) :
    AdmissionInv program tr := by
  refine h.invariant admissionInv_initial fun hreach hinv hadm hstep => ?_
  have hprogram := programInv_of_reachable hreach
  rcases silent_or_loopStep hprogram hstep with hsilent | hloop
  · exact hinv.of_silent hprogram hsilent
  · exact hinv.of_loopStep hprogram hadm hloop

/-- Admission control, in every run in which no call on a socket throws. A packet handler is
invoked for a connection, or ACCEPT is sent on it, only after it was returned by `acceptConnection`
while the host of its peer was whitelisted. A connection that was accepted while it was not is sent
KICK and closed, and nothing else happens on it; it is not among the clients. Whenever the update
thread exists, the connect handler is registered. -/
theorem admission_control {program : ServerProgram S} {tr : List (Event S)}
    (h : (serverProgram S).Reachable Undisturbed (initial S) program tr) :
    (∀ past e future s, tr = past ++ .loop e :: future → e.socket = some s → e.Serves →
      AdmittedIn past s) ∧
    (∀ past s host future, tr = past ++ .loop (.acceptConnection s host) :: future →
      (∀ e ∈ future, ¬ IsAcceptOf s e) → host ∉ whitelistAfter past →
      eventsOf s (loopEvents future) = [.sendBytes s PacketType.kick.word.bytes, .close s] ∧
        ∀ loop, program.loop = some loop → s ∉ loop.clients) ∧
    (∀ loop, program.loop = some loop → ∃ network, program.network = some network ∧
      network.connectHandler = some .connectHandler) := by
  have hinv := admissionInv_of_reachable h
  refine ⟨hinv.served, hinv.kicked, fun loop hloop => ?_⟩
  obtain ⟨server, _, hnetwork, -⟩ := (programInv_of_reachable h).loop_reaches loop hloop
  exact ⟨started server, hnetwork, rfl⟩

/-- A connection from "b" is accepted before "b" is added to the whitelist. -/
def kickInputs : List (Input ℕ) :=
  [.tryGetList true true ["a"], .tryStart (some 0), .run (Word.ofNat 0),
    .loop (.select 1 [0] none), .loop (.accept 1 "b" () .zero), .add "b" true]

/-- It is kicked. -/
def kickTrace : List (Event ℕ) :=
  [.loaded ["a"], .loop (.acceptConnection 1 "b"),
    .loop (.sendBytes 1 PacketType.kick.word.bytes), .loop (.close 1), .added "b"]

/-- The connection is not among the clients when its peer is whitelisted. -/
theorem admission_control_of_kick :
    ∃ program, (serverProgram ℕ).run (initial ℕ) kickInputs = some (program, kickTrace) ∧
      "b" ∈ whitelistAfter kickTrace ∧ ∀ loop, program.loop = some loop → 1 ∉ loop.clients := by
  obtain ⟨program, hrun⟩ : ∃ program,
      (serverProgram ℕ).run (initial ℕ) kickInputs = some (program, kickTrace) := ⟨_, rfl⟩
  have hinit : (serverProgram ℕ).Reachable Undisturbed (initial ℕ) (initial ℕ) [] := .init
  have hreach := hinit.run kickInputs (by decide) hrun
  refine ⟨program, hrun, by decide, ?_⟩
  refine ((admission_control hreach).2.1 [.loaded ["a"]] 1 "b" (kickTrace.drop 2) rfl ?_ ?_).2
  · rintro e he ⟨host, rfl⟩
    simp [kickTrace] at he
  · decide

end ServerProgram

end PocoEcho

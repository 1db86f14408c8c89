import PocoEcho.Network.ClientLoop

/-!
# The end of the client loop

`CNetwork::OnUpdate` is meant to call `Exit` once, at its end. The handler of its `try` block calls
`Exit` as well but does not leave the loop, which therefore goes on with a deleted socket.

## Main definitions

* `TornDown`: how a run is meant to end;
* `ClientLoop.CallsReturn`: the steps in which no call throws.

## Main results

* `ClientLoop.fate_of_step`: what a step from a state with a live socket comes to;
* `tornDown_iff_calls_return`: a run that ends does so as is meant exactly when no call throws.
-/

namespace PocoEcho

open Poco

variable {H : Type}

/-- No `Exit`, and no call on the deleted socket, is among the events. -/
def Spared (es : List (ClientEvent H)) : Prop := .exit ∉ es ∧ .useAfterDelete ∉ es

/-- The function has returned. Its last event is the only call of `Exit`, and no member function of
the deleted socket was called. -/
def TornDown (state : ClientState) (tr : List (ClientEvent H)) : Prop :=
  state.status = .exited ∧ ∃ before, tr = before ++ [.exit] ∧ Spared before

theorem spared_append {es es' : List (ClientEvent H)} :
    Spared (es ++ es') ↔ Spared es ∧ Spared es' := by
  simp only [Spared, List.mem_append, not_or]
  tauto

namespace ClientLoop

variable {handlers : List (ClientHandler H)}

/-- Neither the call on the socket nor a handler throws in this step. -/
def CallsReturn (handlers : List (ClientHandler H)) (state : ClientState) : ClientInput → Prop
  | .closeRequested => True
  | .poll _ => True
  | .pollThrows => False
  | .receiveType result => result ≠ .throws
  | .receivePayload result env =>
      result ≠ .throws ∧ (result = .shutdown ∨
        ∃ buffer, (dispatch handlers env state.packetType
          ((BoundedQueue.empty maxBufferLength).write result.data)).result = .ok buffer)

/-- What a step from a state with a live socket comes to. -/
inductive Fate (handlers : List (ClientHandler H)) (state : ClientState) (input : ClientInput) :
    ClientState → List (ClientEvent H) → Prop
  /-- The calls return, and the loop goes on. -/
  | goesOn {state' : ClientState} {es : List (ClientEvent H)}
      (hreturn : CallsReturn handlers state input) (hrun : state'.status = .running)
      (hlive : state'.socketLive = true) (hspared : Spared es) : Fate handlers state input state' es
  /-- The calls return, and the loop is left. -/
  | leaves {state' : ClientState} {es : List (ClientEvent H)}
      (hreturn : CallsReturn handlers state input) (hend : TornDown state' es) :
      Fate handlers state input state' es
  /-- A call throws a `Poco::Exception`: the socket is deleted, and the loop goes on. -/
  | caught {state' : ClientState} {es : List (ClientEvent H)}
      (hthrow : ¬ CallsReturn handlers state input) (hrun : state'.status = .running)
      (hdead : state'.socketLive = false) : Fate handlers state input state' es
  /-- A handler is left by another exception. -/
  | escapes {state' : ClientState} {es : List (ClientEvent H)}
      (hthrow : ¬ CallsReturn handlers state input) (fault : Fault)
      (hstatus : state'.status = .thrown fault) : Fate handlers state input state' es

/-- A sequence of computations with neither has neither. -/
theorem spared_log_bind {α β : Type} {x : Logged (ClientEvent H) Fault α}
    {f : α → Logged (ClientEvent H) Fault β} (hx : Spared x.log) (hf : ∀ a, Spared (f a).log) :
    Spared (x >>= f).log := by
  constructor
  · intro hmem
    rcases Logged.mem_log_bind hmem with h | ⟨a, h⟩
    · exact hx.1 h
    · exact (hf a).1 h
  · intro hmem
    rcases Logged.mem_log_bind hmem with h | ⟨a, h⟩
    · exact hx.2 h
    · exact (hf a).2 h

/-- Dispatching neither calls `Exit` nor uses the deleted socket. -/
theorem spared_log_dispatch (handlers : List (ClientHandler H)) (env : HandlerEnv)
    (packetType : Word) (buffer : FIFOBuffer) :
    Spared (dispatch handlers env packetType buffer).log := by
  induction handlers generalizing buffer with
  | nil => simp [dispatch, Spared]
  | cons handlerFunction handlers ih =>
      rw [dispatch, List.foldlM_cons]
      refine spared_log_bind ?_ ih
      exact spared_log_bind (by simp [Spared]) fun _ => by simp [Spared]

/-- A call on a live socket that throws a `Poco::Exception`. -/
theorem settle_onSocket_of_pocoException {state : ClientState}
    {call : Logged (ClientEvent H) Fault ClientState} (hlive : state.socketLive = true)
    (h : call.result = .error .pocoException) :
    settle state (onSocket state call) =
      ({ state with socketLive := false, point := .poll }, call.log ++ [.exit]) := by
  obtain ⟨log, result⟩ := call
  subst h
  simp only [onSocket, tryCatch, exit, hlive]
  rfl

/-- A call on a live socket that throws anything else. -/
theorem settle_onSocket_of_error {state : ClientState} {fault : Fault}
    {call : Logged (ClientEvent H) Fault ClientState} (hlive : state.socketLive = true)
    (h : call.result = .error fault) (hfault : fault ≠ .pocoException) :
    settle state (onSocket state call) = ({ state with status := .thrown fault }, call.log) := by
  rw [onSocket_of_ne hlive (by rw [h]; simpa using hfault), settle, h]

/-- Receiving into the buffer from a live socket. -/
theorem fate_of_receivePayload {state state' : ClientState} {es : List (ClientEvent H)}
    (hrun : state.status = .running) (hlive : state.socketLive = true) {result : ReceiveResult}
    (hresult : result = .negative ∨ ∃ data, result = .bytes data) {env : HandlerEnv}
    (hs : settle state (onSocket state (receivePayload handlers state result env)) =
      (state', es)) :
    Fate handlers state (.receivePayload result env) state' es := by
  have hne : result ≠ .throws ∧ result ≠ .shutdown := by
    rcases hresult with rfl | ⟨data, rfl⟩ <;> simp
  have hcall := receivePayload_eq handlers state hresult env
  rw [handleData_eq] at hcall
  have hspared := spared_log_dispatch handlers env state.packetType
    ((BoundedQueue.empty maxBufferLength).write result.data)
  cases hd : (dispatch handlers env state.packetType
      ((BoundedQueue.empty maxBufferLength).write result.data)).result with
  | ok buffer =>
      rw [hd] at hcall
      rw [settle_onSocket_of_ok hlive (by rw [hcall]; rfl), hcall] at hs
      obtain ⟨rfl, rfl⟩ := Prod.mk.inj hs
      refine .goesOn ⟨hne.1, .inr ⟨buffer, hd⟩⟩ hrun hlive ?_
      simpa [Spared] using hspared
  | error fault =>
      rw [hd] at hcall
      have hthrow : ¬ CallsReturn handlers state (.receivePayload result env) := by
        rintro ⟨-, hshutdown | ⟨buffer, hok⟩⟩
        · exact hne.2 hshutdown
        · simp [hd] at hok
      by_cases hfault : fault = .pocoException
      · subst hfault
        rw [settle_onSocket_of_pocoException hlive (by rw [hcall]; rfl)] at hs
        obtain ⟨rfl, rfl⟩ := Prod.mk.inj hs
        exact .caught hthrow hrun rfl
      · rw [settle_onSocket_of_error hlive (by rw [hcall]; rfl) hfault] at hs
        obtain ⟨rfl, rfl⟩ := Prod.mk.inj hs
        exact .escapes hthrow fault rfl

/-- A call that throws a `Poco::Exception`, on a live socket. -/
theorem fate_of_throws {state state' : ClientState} {input : ClientInput}
    {es : List (ClientEvent H)} (hrun : state.status = .running) (hlive : state.socketLive = true)
    (hthrow : ¬ CallsReturn handlers state input)
    (hs : settle state (onSocket state ⟨[.throws], .error .pocoException⟩) = (state', es)) :
    Fate handlers state input state' es := by
  rw [settle_onSocket_of_pocoException hlive rfl] at hs
  obtain ⟨rfl, rfl⟩ := Prod.mk.inj hs
  exact .caught hthrow hrun rfl

/-- A call on a live socket that returns, with its result, and leaves the loop running. -/
theorem fate_of_returns {state next state' : ClientState} {input : ClientInput}
    {call : Logged (ClientEvent H) Fault ClientState} {log es : List (ClientEvent H)}
    (hlive : state.socketLive = true) (hreturn : CallsReturn handlers state input)
    (hs : settle state (onSocket state call) = (state', es)) (hcall : call = ⟨log, .ok next⟩)
    (hrun : next.status = .running) (hnext : next.socketLive = true) (hspared : Spared log) :
    Fate handlers state input state' es := by
  subst hcall
  rw [settle_onSocket_of_ok hlive rfl] at hs
  obtain ⟨rfl, rfl⟩ := Prod.mk.inj hs
  exact .goesOn hreturn hrun hnext hspared

/-- Leaving the loop with a live socket. -/
theorem tornDown_of_leave {state state' : ClientState} {es : List (ClientEvent H)}
    (hlive : state.socketLive = true)
    (hs : settle state (leave state : Logged (ClientEvent H) Fault ClientState) = (state', es)) :
    TornDown state' es := by
  rw [leave_of_live hlive] at hs
  obtain ⟨rfl, rfl⟩ := Prod.mk.inj hs
  exact ⟨rfl, [], rfl, by simp [Spared]⟩

/-- Leaving the loop with a live socket because the peer has shut the connection down. -/
theorem tornDown_of_shutdown {state state' : ClientState} {es : List (ClientEvent H)}
    (hlive : state.socketLive = true)
    (hs : settle state (onSocket state (do
      Logged.emit (.receiveBytes .shutdown)
      leave state : Logged (ClientEvent H) Fault ClientState)) = (state', es)) :
    TornDown state' es := by
  rw [shutdown_of_live hlive, settle_onSocket_of_ok hlive rfl] at hs
  obtain ⟨rfl, rfl⟩ := Prod.mk.inj hs
  exact ⟨rfl, [.receiveBytes .shutdown], rfl, by simp [Spared]⟩

/-- Every step from a state with a live socket has one of the four fates. -/
theorem fate_of_step {state state' : ClientState} {input : ClientInput}
    {es : List (ClientEvent H)} (hlive : state.socketLive = true)
    (hs : step handlers state input = some (state', es)) :
    Fate handlers state input state' es := by
  obtain ⟨hrun, outcome, hbranch, hsettle⟩ := branch_of_step hs
  cases hbranch with
  | close => exact .leaves trivial (tornDown_of_leave hlive hsettle)
  | poll hpoint ready =>
      have hspared : Spared [(.poll ready : ClientEvent H)] := by simp [Spared]
      exact fate_of_returns hlive trivial hsettle rfl hrun hlive hspared
  | pollThrows => exact fate_of_throws hrun hlive id hsettle
  | type hpoint result =>
      cases result with
      | bytes data =>
          have hspared : Spared [(.receiveBytes (.bytes data) : ClientEvent H)] := by
            simp [Spared]
          exact fate_of_returns hlive (by simp [CallsReturn]) hsettle rfl hrun hlive hspared
      | shutdown => exact .leaves (by simp [CallsReturn]) (tornDown_of_shutdown hlive hsettle)
      | negative =>
          have hspared : Spared [(.receiveBytes .negative : ClientEvent H)] := by
            simp [Spared]
          exact fate_of_returns hlive (by simp [CallsReturn]) hsettle rfl hrun hlive hspared
      | throws => exact fate_of_throws hrun hlive (by simp [CallsReturn]) hsettle
  | payload hpoint result env =>
      cases result with
      | bytes data => exact fate_of_receivePayload hrun hlive (.inr ⟨data, rfl⟩) hsettle
      | shutdown => exact .leaves ⟨by simp, .inl rfl⟩ (tornDown_of_shutdown hlive hsettle)
      | negative => exact fate_of_receivePayload hrun hlive (.inl rfl) hsettle
      | throws => exact fate_of_throws hrun hlive (by simp [CallsReturn]) hsettle

/-- A step after the socket has been deleted ends in a use of the deleted socket or in a failed
assertion. -/
theorem status_of_dead {state state' : ClientState} {input : ClientInput}
    {es : List (ClientEvent H)} (hdead : state.socketLive = false)
    (hs : step handlers state input = some (state', es)) :
    state'.status = .thrown .accessViolation := by
  obtain ⟨-, outcome, hbranch, hsettle⟩ := branch_of_step hs
  cases hbranch with
  | close =>
      simp only [leave, exit, hdead] at hsettle
      cases hsettle
      rfl
  | _ =>
      -- the branch begins with a call on the socket
      simp only [onSocket, hdead] at hsettle
      cases hsettle
      rfl

end ClientLoop

namespace TornDown

open ClientLoop

variable {handlers : List (ClientHandler H)}

/-- A loop that has been left takes no step. -/
theorem run_eq_nil {state state' : ClientState} {inputs : List ClientInput}
    {tr : List (ClientEvent H)} (hstatus : state.status ≠ .running)
    (hrun : (clientLoop handlers).run state inputs = some (state', tr)) :
    inputs = [] ∧ state' = state ∧ tr = [] := by
  apply Machine.run_of_stuck (fun input => ?_) hrun
  simp [clientLoop, step, onUpdate, hstatus]

/-- In a run in which no call throws, `Exit` has not been called and the socket is live as long as
the loop runs; if it has ended, it has ended as is meant. -/
theorem of_run {state state' : ClientState} {inputs : List ClientInput}
    {tr : List (ClientEvent H)} (hstatus : state.status = .running)
    (hlive : state.socketLive = true)
    (hreturn : (clientLoop handlers).Admissible (CallsReturn handlers) state inputs)
    (hrun : (clientLoop handlers).run state inputs = some (state', tr)) :
    state'.status = .running ∧ state'.socketLive = true ∧ Spared tr ∨ TornDown state' tr := by
  induction inputs generalizing state tr with
  | nil =>
      obtain ⟨rfl, rfl⟩ := Prod.mk.inj (Option.some.inj hrun)
      exact .inl ⟨hstatus, hlive, by simp [Spared]⟩
  | cons input inputs ih =>
      obtain ⟨state₁, es, tr, hs, hrest, rfl⟩ := Machine.exists_of_run_cons hrun
      rw [Machine.admissible_cons_of_step hs] at hreturn
      rcases fate_of_step hlive hs with
        ⟨-, hrun₁, hlive₁, hspared⟩ | ⟨-, hend⟩ | ⟨hthrow, -, -⟩ | ⟨hthrow, -, -⟩
      · rcases ih hrun₁ hlive₁ hreturn.2 hrest with ⟨h, h', hspared'⟩ | ⟨h, before, rfl, hspared'⟩
        · exact .inl ⟨h, h', spared_append.mpr ⟨hspared, hspared'⟩⟩
        · exact .inr ⟨h, es ++ before, by simp, spared_append.mpr ⟨hspared, hspared'⟩⟩
      -- the loop has been left, so nothing follows
      · obtain ⟨-, rfl, rfl⟩ := run_eq_nil (by rw [hend.1]; simp) hrest
        exact .inr (by simpa using hend)
      · exact absurd hreturn.1 hthrow
      · exact absurd hreturn.1 hthrow

/-- In a run that ends by returning, no call has thrown. -/
theorem admissible_of_exited {state state' : ClientState} {inputs : List ClientInput}
    {tr : List (ClientEvent H)} (hlive : state.socketLive = true)
    (hrun : (clientLoop handlers).run state inputs = some (state', tr))
    (hexited : state'.status = .exited) :
    (clientLoop handlers).Admissible (CallsReturn handlers) state inputs := by
  -- after a call has thrown, the loop goes on with a deleted socket or is left by an exception
  apply Machine.admissible_of_run
    (P := fun s : ClientState => s.status = .running → s.socketLive = true)
    (Q := fun s _ => s.status ≠ .exited ∧ (s.status = .running → s.socketLive = false))
    ?_ ?_ ?_ (fun _ hbad => hbad) (fun _ => hlive) hrun (fun hbad => hbad.1 hexited)
  · intro state state' es input hlive hreturn hs hrun'
    rcases fate_of_step (hlive (running_of_step hs)) hs with
      ⟨-, -, hlive', -⟩ | ⟨-, hend⟩ | ⟨hthrow, -, -⟩ | ⟨hthrow, -, -⟩
    · exact hlive'
    · rw [hend.1] at hrun'
      cases hrun'
    · exact absurd hreturn hthrow
    · exact absurd hreturn hthrow
  · intro state state' es input hlive hthrow hs
    rcases fate_of_step (hlive (running_of_step hs)) hs with
      ⟨hreturn, -, -, -⟩ | ⟨hreturn, -⟩ | ⟨-, hrun', hdead⟩ | ⟨-, fault, hstatus⟩
    · exact absurd hreturn hthrow
    · exact absurd hreturn hthrow
    · exact ⟨by rw [hrun']; simp, fun _ => hdead⟩
    · exact ⟨by rw [hstatus]; simp, by rw [hstatus]; simp⟩
  · intro state state' _ es input hbad hs
    have hthrown := status_of_dead (hbad.2 (running_of_step hs)) hs
    exact ⟨by rw [hthrown]; simp, by rw [hthrown]; simp⟩

end TornDown

open ClientLoop in
/-- In every run in which no call throws, the socket is live and `Exit` has not been called as long
as the loop runs; and a run that has ended has done so as is meant exactly if no call has thrown. -/
theorem tornDown_iff_calls_return (handlers : List (ClientHandler H)) (packetType : Word)
    {inputs : List ClientInput} {state : ClientState} {tr : List (ClientEvent H)}
    (hrun : (clientLoop handlers).run (.initial packetType) inputs = some (state, tr)) :
    ((clientLoop handlers).Admissible (CallsReturn handlers) (.initial packetType) inputs →
        state.status = .running → state.socketLive = true ∧ Spared tr) ∧
      (state.status ≠ .running → (TornDown state tr ↔
        (clientLoop handlers).Admissible (CallsReturn handlers) (.initial packetType) inputs)) := by
  constructor
  · intro hreturn hstatus
    rcases TornDown.of_run rfl rfl hreturn hrun with ⟨-, hlive, hspared⟩ | hend
    · exact ⟨hlive, hspared⟩
    · rw [hend.1] at hstatus
      cases hstatus
  · intro hended
    constructor
    · intro hend
      exact TornDown.admissible_of_exited rfl hrun hend.1
    · intro hreturn
      rcases TornDown.of_run rfl rfl hreturn hrun with ⟨hstatus, -⟩ | hend
      · exact absurd hstatus hended
      · exact hend

/-- The peer shuts the connection down: the run ends as is meant. -/
theorem tornDown_of_peer_shutdown :
    TornDown ⟨Word.ofNat 0, .packetType, false, .exited⟩
      ([.poll true, .receiveBytes .shutdown, .exit] : List (ClientEvent Empty)) := by
  have hrun : (clientLoop ([] : List (ClientHandler Empty))).run (.initial (Word.ofNat 0))
      [.poll true, .receiveType .shutdown] =
        some (⟨Word.ofNat 0, .packetType, false, .exited⟩,
          [.poll true, .receiveBytes .shutdown, .exit]) := rfl
  apply ((tornDown_iff_calls_return [] (Word.ofNat 0) hrun).2 (by simp)).mpr
  exact ⟨trivial, ReceiveResult.noConfusion, trivial⟩

/-- The connection is reset while the loop waits for data: the next `poll` is a call on the deleted
socket. -/
theorem not_tornDown_of_pollThrows :
    ∃ (state : ClientState) (tr : List (ClientEvent Empty)),
      (clientLoop []).run (.initial (Word.ofNat 0)) [.pollThrows, .poll true] = some (state, tr) ∧
        tr = [.throws, .exit, .useAfterDelete] ∧
        state.status = .thrown .accessViolation ∧ ¬ TornDown state tr := by
  refine ⟨_, _, rfl, rfl, rfl, ?_⟩
  rintro ⟨hexited, -⟩
  exact absurd hexited (by decide)

end PocoEcho

import PocoEcho.Library.Machine
import PocoEcho.Network.CNetwork

/-!
# Closing the network object

`CNetwork::Close` is called by the owner of the object while the update thread is running. It tests
two pointers, sets the flag and joins the update thread; `Exit` on that thread resets all three and
deletes the object that is being joined.

## Main definitions

* `shutdown`: the interleavings of one call of `Close` with the update thread;
* `Orderly`: what is meant to hold in every state;
* `ClosesAfterExit`: `Close` finds that the update thread has reset the socket.

## Main results

* `orderly_iff_closesAfterExit`: a run is orderly exactly when the update thread has left its loop
  on its own and reset the socket before `Close` looks at it.
-/

namespace PocoEcho

/-- Where `Close` stands. -/
inductive OwnerPoint
  /-- The test of `m_pSocket`. -/
  | testSocket
  /-- The test of `m_pThread`. -/
  | testThread
  /-- `m_bCloseRequested = true`. -/
  | setFlag
  /-- The call of `m_pThread->join()`. -/
  | join
  /-- Inside `join`. -/
  | joining
  /-- In `Exit`. -/
  | exit (point : ExitPoint)
  /-- `Close` has returned. -/
  | returned (result : Bool)
  deriving DecidableEq

/-- One step of `Close`; `none` while it waits in `join`, and when it has returned. -/
def OwnerPoint.step {P : Type} (owner : OwnerPoint) (update : UpdatePoint) (network : CNetwork P) :
    Option (Except Fault (OwnerPoint × CNetwork P)) :=
  match owner with
  | testSocket =>
      some (.ok (if network.socket.nonNull then testThread else returned false, network))
  | testThread =>
      some (.ok (if network.thread.nonNull then setFlag else exit .assertSocket, network))
  | setFlag => some (.ok (join, { network with closeRequested := true }))
  | join => some do
      let _ ← network.thread.get Fault.accessViolation
      return (joining, network)
  | joining => if update = .finished then some (.ok (returned true, network)) else none
  | exit point => some do
      let (next, network) ← point.step network
      return (next.elim (returned true) exit, network)
  | returned _ => none

/-- What happens in a step. -/
inductive ShutdownEvent
  /-- `Exit` is called. -/
  | exit
  /-- `join` is called. -/
  | join
  /-- `join` returns. -/
  | joined
  /-- A null or deleted object is used, an assertion fails, or an object is deleted that is being
  joined. -/
  | fault
  deriving DecidableEq

/-- The calls that a step of `Close` makes or returns from. -/
def OwnerPoint.calls : OwnerPoint → OwnerPoint → List ShutdownEvent
  | testThread, exit _ => [.exit]
  | join, joining => [.join]
  | joining, returned _ => [.joined]
  | _, _ => []

/-- The calls that a step of the update thread makes. -/
def UpdatePoint.calls : UpdatePoint → UpdatePoint → List ShutdownEvent
  | loop, exit _ => [.exit]
  | _, _ => []

/-- The object, and where both threads stand. -/
@[ext]
structure ShutdownState (P : Type) where
  /-- The object. -/
  network : CNetwork P
  /-- The thread that calls `Close`. -/
  owner : OwnerPoint
  /-- The update thread. -/
  update : UpdatePoint
  /-- Something undefined has happened. -/
  faulted : Bool
  deriving DecidableEq

/-- Which thread takes the next step. -/
inductive ShutdownInput
  /-- The thread that calls `Close`. -/
  | owner
  /-- The update thread, which may find in its loop that the peer has closed the connection. -/
  | update (peerClosed : Bool)
  deriving DecidableEq

namespace ShutdownState

variable {P : Type}

/-- `Close` is about to be called while the update thread is in its loop. -/
def initial (packetHandlerList : List P) : ShutdownState P :=
  { network := .running packetHandlerList
    owner := .testSocket
    update := .loop
    faulted := false }

/-- Something undefined happens. -/
def fail (state : ShutdownState P) : ShutdownState P × List ShutdownEvent :=
  ({ state with faulted := true }, [.fault])

/-- The effect of a step of `Close`. -/
def afterOwner (state : ShutdownState P) :
    Except Fault (OwnerPoint × CNetwork P) → ShutdownState P × List ShutdownEvent
  | .error _ => state.fail
  | .ok (owner, network) => ({ state with owner, network }, state.owner.calls owner)

/-- The effect of a step of the update thread. -/
def afterUpdate (state : ShutdownState P) :
    Except Fault (UpdatePoint × CNetwork P) → ShutdownState P × List ShutdownEvent
  | .error _ => state.fail
  | .ok (update, network) =>
      -- the thread object has to exist until `join` returns
      if state.owner = .joining ∧ network.thread = .deleted then state.fail
      else ({ state with update, network }, state.update.calls update)

/-- One step of either thread. -/
def step (state : ShutdownState P) (input : ShutdownInput) :
    Option (ShutdownState P × List ShutdownEvent) :=
  if state.faulted then none
  else
    match input with
    | .owner => (state.owner.step state.update state.network).map state.afterOwner
    | .update peerClosed => (state.update.step peerClosed state.network).map state.afterUpdate

/-- Both threads have finished, or something undefined has happened. -/
def Ended (state : ShutdownState P) : Prop :=
  state.faulted = true ∨ (∃ result, state.owner = .returned result) ∧ state.update = .finished

end ShutdownState

/-- One call of `Close` and the update thread. -/
def shutdown (P : Type) : Machine (ShutdownState P) ShutdownInput ShutdownEvent where
  step := ShutdownState.step

/-- What is meant to hold in every state: nothing undefined has happened, `Exit` has been called at
most once, and when both threads have finished it has been called and the object is idle. -/
structure Orderly {P : Type} (packetHandlerList : List P) (state : ShutdownState P)
    (tr : List ShutdownEvent) : Prop where
  /-- Nothing undefined has happened. -/
  noFault : state.faulted = false ∧ .fault ∉ tr
  /-- `Exit` is not called twice. -/
  exitOnce : tr.count .exit ≤ 1
  /-- In the end, `Exit` has been called and the object is as it was before it was started. -/
  atEnd : (∃ result, state.owner = .returned result) → state.update = .finished →
    tr.count .exit = 1 ∧ state.network = .idle packetHandlerList

/-- If it is `Close` that tests `m_pSocket` next, then the update thread has reset it. -/
def ClosesAfterExit {P : Type} (state : ShutdownState P) (input : ShutdownInput) : Prop :=
  input = .owner → state.owner = .testSocket → state.network.socket = .null

/-- Whether the condition is met is decidable. -/
instance {P : Type} (state : ShutdownState P) (input : ShutdownInput) :
    Decidable (ClosesAfterExit state input) :=
  inferInstanceAs (Decidable (_ → _ → _))

namespace ShutdownState

variable {P : Type} {packetHandlerList : List P}

/-- The invariant of the runs in which `Close` only finds that there is nothing to close. -/
structure Clean (packetHandlerList : List P) (state : ShutdownState P) : Prop where
  /-- Nothing undefined has happened. -/
  running : state.faulted = false
  /-- The pointers are as the update thread has left them. -/
  fits : state.update.Fits state.network
  /-- The handlers have not changed. -/
  handlers : state.network.packetHandlerList = packetHandlerList
  /-- Nobody has requested to close. -/
  flag : state.network.closeRequested = false
  /-- `Close` has not tested the socket, or found it reset. -/
  owner : state.owner = .testSocket ∨
    state.owner = .returned false ∧ state.network.socket = .null

/-- The number of times that the update thread has called `Exit`. -/
def exited (state : ShutdownState P) : ℕ := if state.update = .loop then 0 else 1

theorem clean_initial (packetHandlerList : List P) :
    Clean packetHandlerList (initial packetHandlerList) :=
  ⟨rfl, ⟨rfl, rfl⟩, rfl, rfl, .inl rfl⟩

/-- A step of the update thread from pointers as it left them, unless the thread object is being
joined. -/
theorem step_update {state state' : ShutdownState P} {peerClosed : Bool}
    {es : List ShutdownEvent} (hrun : state.faulted = false)
    (hfits : state.update.Fits state.network)
    (hs : state.step (.update peerClosed) = some (state', es)) :
    ∃ update network, update.Fits network ∧ UpdatePoint.Keeps state.network network ∧
      state.update.step peerClosed state.network = some (.ok (update, network)) ∧
      (state', es) = if state.owner = .joining ∧ network.thread = .deleted then state.fail
        else ({ state with update, network }, state.update.calls update) := by
  rw [step, hrun] at hs
  obtain ⟨outcome, houtcome, hafter⟩ := Option.map_eq_some_iff.mp hs
  obtain ⟨update, network, rfl, hfits', hkeeps⟩ := hfits.step houtcome
  exact ⟨update, network, hfits', hkeeps, houtcome, hafter.symm⟩

/-- `Exit` is called when the update thread leaves its loop. -/
theorem count_calls {state : ShutdownState P} {update : UpdatePoint} {network : CNetwork P}
    {peerClosed : Bool}
    (hs : state.update.step peerClosed state.network = some (.ok (update, network))) :
    .fault ∉ state.update.calls update ∧
      (state.update.calls update).count .exit + state.exited =
        exited { state with update, network } := by
  obtain ⟨_, owner, point, faulted⟩ := state
  cases point with
  | loop =>
      rcases (UpdatePoint.eq_of_step_loop hs).2 with rfl | rfl
      · simp [UpdatePoint.calls, exited]
      · simp [UpdatePoint.calls, exited]
  | exit point =>
      have hne := UpdatePoint.ne_loop_of_step (by simp) hs
      simp [UpdatePoint.calls, exited, hne]
  | finished => cases hs

/-- The invariant is kept by the steps that meet the condition. -/
theorem Clean.step {state state' : ShutdownState P} {input : ShutdownInput}
    {es : List ShutdownEvent} (h : Clean packetHandlerList state)
    (hcloses : ClosesAfterExit state input) (hs : state.step input = some (state', es)) :
    Clean packetHandlerList state' ∧ .fault ∉ es ∧
      es.count .exit + state.exited = state'.exited := by
  cases input with
  | owner =>
      rw [ShutdownState.step, h.running] at hs
      rcases h.owner with htest | ⟨hreturned, -⟩
      · have hnull := hcloses rfl htest
        simp only [htest, OwnerPoint.step, hnull, Pointer.nonNull_null] at hs
        cases hs
        refine ⟨⟨h.running, h.fits, h.handlers, h.flag, .inr ⟨rfl, hnull⟩⟩, ?_, ?_⟩
        · simp [htest, OwnerPoint.calls]
        · simp [htest, OwnerPoint.calls, exited]
      · simp [hreturned, OwnerPoint.step] at hs
  | update peerClosed =>
      obtain ⟨update, network, hfits, hkeeps, hstep, hafter⟩ := step_update h.running h.fits hs
      have howner : state.owner ≠ .joining := by
        rcases h.owner with heq | ⟨heq, -⟩ <;> simp [heq]
      rw [if_neg fun hjoin => howner hjoin.1] at hafter
      obtain ⟨rfl, rfl⟩ := Prod.mk.inj hafter
      obtain ⟨hfault, hcount⟩ := count_calls hstep
      refine ⟨⟨h.running, hfits, ?_, ?_, ?_⟩, hfault, hcount⟩
      · exact hkeeps.packetHandlerList.trans h.handlers
      · rcases hkeeps.closeRequested with hflag | hflag
        · exact hflag.trans h.flag
        · exact hflag
      · exact h.owner.imp_right fun hreturned => ⟨hreturned.1, hkeeps.socket hreturned.2⟩

/-- When both threads have finished, the object is idle. -/
theorem Clean.eq_idle {state : ShutdownState P} (h : Clean packetHandlerList state)
    (hfinished : state.update = .finished) : state.network = .idle packetHandlerList := by
  have hfits := h.fits
  rw [hfinished] at hfits
  exact CNetwork.ext hfits.1 h.handlers hfits.2 h.flag

/-- What the invariant and the number of calls of `Exit` say about a run. -/
theorem Clean.orderly {state : ShutdownState P} {tr : List ShutdownEvent}
    (h : Clean packetHandlerList state) (hfault : .fault ∉ tr)
    (hcount : tr.count .exit = state.exited) : Orderly packetHandlerList state tr := by
  refine ⟨⟨h.running, hfault⟩, ?_, ?_⟩
  · rw [hcount, exited]
    split <;> omega
  · intro _ hfinished
    refine ⟨?_, h.eq_idle hfinished⟩
    rw [hcount, exited, hfinished, if_neg (by simp)]

/-- The runs in which `Close` has found a socket before the update thread has reset it. -/
structure Doomed (state : ShutdownState P) : Prop where
  /-- The pointers are as the update thread has left them. -/
  fits : state.update.Fits state.network
  /-- `Close` goes on with what it has found. -/
  owner : state.owner = .testThread ∨ state.owner = .setFlag ∨ state.owner = .join ∨
    (state.owner = .joining ∧ state.network.thread = .live ()) ∨
    (state.owner = .exit .assertSocket ∧ state.network.socket = .null)

/-- Something undefined has not happened before a step. -/
theorem faulted_of_step {state : ShutdownState P} {input : ShutdownInput}
    {p : ShutdownState P × List ShutdownEvent} (hs : state.step input = some p) :
    state.faulted = false := by
  cases hfaulted : state.faulted with
  | false => rfl
  | true => simp [ShutdownState.step, hfaulted] at hs

/-- A step of `Close` in such a run: whichever of its tests it has passed, it goes on, and there is
no way for it to return. -/
theorem Doomed.step_owner {state state' : ShutdownState P} {es : List ShutdownEvent}
    (h : Doomed state) (hs : state.step .owner = some (state', es)) :
    state'.faulted = true ∨ Doomed state' := by
  have hrunning := faulted_of_step hs
  rw [ShutdownState.step, hrunning] at hs
  obtain ⟨outcome, houtcome, hafter⟩ := Option.map_eq_some_iff.mp hs
  rcases h.owner with heq | heq | heq | ⟨heq, hlive⟩ | ⟨heq, hnull⟩
  · right
    rw [heq, OwnerPoint.step] at houtcome
    cases hthread : state.network.thread.nonNull with
    | true =>
        rw [hthread] at houtcome
        cases houtcome
        cases hafter
        exact ⟨h.fits, .inr (.inl rfl)⟩
    | false =>
        rw [hthread] at houtcome
        cases houtcome
        cases hafter
        -- the update thread has reset the thread, hence the socket before
        have hfits := h.fits
        have hfinished := hfits.eq_finished (Pointer.eq_null_of_nonNull hthread)
        rw [hfinished] at hfits
        exact ⟨h.fits, .inr (.inr (.inr (.inr ⟨rfl, hfits.1⟩)))⟩
  · right
    rw [heq, OwnerPoint.step] at houtcome
    cases houtcome
    cases hafter
    exact ⟨(UpdatePoint.fits_setFlag true).mpr h.fits, .inr (.inr (.inl rfl))⟩
  · rw [heq, OwnerPoint.step] at houtcome
    cases hthread : state.network.thread with
    | null =>
        rw [hthread] at houtcome
        cases houtcome
        cases hafter
        exact .inl rfl
    | live object =>
        rw [hthread] at houtcome
        cases houtcome
        cases hafter
        exact .inr ⟨h.fits, .inr (.inr (.inr (.inl ⟨rfl, hthread⟩)))⟩
    | deleted =>
        rw [hthread] at houtcome
        cases houtcome
        cases hafter
        exact .inl rfl
  · rw [heq, OwnerPoint.step] at houtcome
    split at houtcome
    next hfinished =>
      -- a thread that has finished has deleted its object
      have hfits := h.fits
      rw [hfinished] at hfits
      rw [hfits.2] at hlive
      cases hlive
    next => cases houtcome
  · rw [heq, OwnerPoint.step] at houtcome
    left
    simp only [ExitPoint.step, hnull, Pointer.nonNull_null] at houtcome
    cases houtcome
    cases hafter
    rfl

/-- Such a run goes on like this or ends in something undefined. -/
theorem Doomed.step {state state' : ShutdownState P} {input : ShutdownInput}
    {es : List ShutdownEvent} (h : Doomed state) (hs : state.step input = some (state', es)) :
    state'.faulted = true ∨ Doomed state' := by
  cases input with
  | owner => exact h.step_owner hs
  | update peerClosed =>
      obtain ⟨update, network, hfits, hkeeps, -, hafter⟩ :=
        step_update (faulted_of_step hs) h.fits hs
      by_cases hjoin : state.owner = .joining ∧ network.thread = .deleted
      · rw [if_pos hjoin] at hafter
        obtain ⟨rfl, -⟩ := Prod.mk.inj hafter
        exact .inl rfl
      · rw [if_neg hjoin] at hafter
        obtain ⟨rfl, -⟩ := Prod.mk.inj hafter
        refine .inr ⟨hfits, ?_⟩
        rcases h.owner with heq | heq | heq | ⟨heq, hlive⟩ | ⟨heq, hnull⟩
        · exact .inl heq
        · exact .inr (.inl heq)
        · exact .inr (.inr (.inl heq))
        -- the thread object that is joined is neither deleted nor forgotten in this step
        · refine .inr (.inr (.inr (.inl ⟨heq, ?_⟩)))
          have hne := hkeeps.thread hlive
          show network.thread = .live ()
          cases hthread : network.thread with
          | null => exact absurd hthread hne
          | live object => rfl
          | deleted => exact absurd ⟨heq, hthread⟩ hjoin
        · exact .inr (.inr (.inr (.inr ⟨heq, hkeeps.socket hnull⟩)))

/-- In such a run, `Close` does not return. -/
theorem Doomed.not_returned {state : ShutdownState P} (h : Doomed state) (result : Bool) :
    state.owner ≠ .returned result := by
  rcases h.owner with heq | heq | heq | ⟨heq, -⟩ | ⟨heq, -⟩ <;> simp [heq]

/-- A step that does not meet the condition: `Close` finds a socket. -/
theorem Clean.doomed_of_not_closes {state state' : ShutdownState P} {input : ShutdownInput}
    {es : List ShutdownEvent} (h : Clean packetHandlerList state)
    (hcloses : ¬ ClosesAfterExit state input) (hs : state.step input = some (state', es)) :
    Doomed state' := by
  simp only [ClosesAfterExit, Classical.not_imp] at hcloses
  obtain ⟨rfl, htest, hsocket⟩ := hcloses
  have hnonNull : state.network.socket.nonNull = true := by
    by_contra hnull
    exact hsocket (Pointer.eq_null_of_nonNull (by simpa using hnull))
  rw [ShutdownState.step, h.running] at hs
  simp only [htest, OwnerPoint.step, hnonNull] at hs
  cases hs
  exact ⟨h.fits, .inl rfl⟩

/-- A run that ends without anything undefined meets the condition in every step. -/
theorem Clean.admissible_of_run {state state' : ShutdownState P} {inputs : List ShutdownInput}
    {tr : List ShutdownEvent} (h : Clean packetHandlerList state)
    (hrun : (shutdown P).run state inputs = some (state', tr)) (hended : state'.Ended)
    (hfaulted : state'.faulted = false) :
    (shutdown P).Admissible ClosesAfterExit state inputs := by
  apply Machine.admissible_of_run (P := Clean packetHandlerList)
    (Q := fun s _ => s.faulted = true ∨ Doomed s)
    (fun hclean hcloses hs => (hclean.step hcloses hs).1)
    (fun hclean hcloses hs => .inr (hclean.doomed_of_not_closes hcloses hs)) ?_
    (fun _ hbad => hbad) h hrun ?_
  · rintro state state' _ es input (hfault | hdoomed) hs
    -- after something undefined, there is no step
    · rw [faulted_of_step hs] at hfault
      cases hfault
    · exact hdoomed.step hs
  · rw [hfaulted]
    rintro (hfault | hdoomed)
    · cases hfault
    · rcases hended with hfault | ⟨⟨result, hreturned⟩, -⟩
      · rw [hfaulted] at hfault
        cases hfault
      · exact hdoomed.not_returned result hreturned

/-- Every state that is reached under the condition is orderly. -/
theorem orderly_of_reachable {state : ShutdownState P} {tr : List ShutdownEvent}
    (h : (shutdown P).Reachable ClosesAfterExit (initial packetHandlerList) state tr) :
    Orderly packetHandlerList state tr := by
  have hinv : Clean packetHandlerList state ∧ .fault ∉ tr ∧ tr.count .exit = state.exited := by
    refine h.invariant (P := fun state tr => Clean packetHandlerList state ∧
      .fault ∉ tr ∧ tr.count .exit = state.exited) ?_ ?_
    · exact ⟨clean_initial packetHandlerList, by simp, rfl⟩
    · intro state state' tr es input _ hP hcloses hs
      obtain ⟨hclean, hfault, hcount⟩ := hP
      obtain ⟨hclean', hfault', hcount'⟩ := hclean.step hcloses hs
      refine ⟨hclean', by simp [hfault, hfault'], ?_⟩
      rw [List.count_append, hcount, Nat.add_comm, hcount']
  exact hinv.1.orderly hinv.2.1 hinv.2.2

end ShutdownState

/-- Every run in which `Close` looks at the socket only after the update thread has reset it is
orderly; and a run to the end of both threads is orderly only then. -/
theorem orderly_iff_closesAfterExit {P : Type} {packetHandlerList : List P}
    {inputs : List ShutdownInput} {state : ShutdownState P} {tr : List ShutdownEvent}
    (hrun : (shutdown P).run (.initial packetHandlerList) inputs = some (state, tr)) :
    ((shutdown P).Admissible ClosesAfterExit (.initial packetHandlerList) inputs →
        Orderly packetHandlerList state tr) ∧
      (state.Ended → (Orderly packetHandlerList state tr ↔
        (shutdown P).Admissible ClosesAfterExit (.initial packetHandlerList) inputs)) := by
  have horderly (hcloses : (shutdown P).Admissible ClosesAfterExit (.initial packetHandlerList)
      inputs) : Orderly packetHandlerList state tr := by
    apply ShutdownState.orderly_of_reachable
    simpa using Machine.Reachable.run .init inputs hcloses hrun
  refine ⟨horderly, fun hended => ⟨fun h => ?_, horderly⟩⟩
  exact (ShutdownState.clean_initial packetHandlerList).admissible_of_run hrun hended h.noFault.1

/-- The peer closes the connection, and `Close` is called when the update thread has finished. -/
theorem orderly_of_peer_closed :
    Orderly ([] : List Unit) ⟨.idle [], .returned false, .finished, false⟩ [.exit] := by
  have hrun : (shutdown Unit).run (.initial [])
      (.update true :: List.replicate 8 (.update false) ++ [.owner]) =
        some (⟨.idle [], .returned false, .finished, false⟩, [.exit]) := by
    decide
  exact (orderly_iff_closesAfterExit hrun).1 (by decide)

/-- `Close` is called on a running object: the update thread finds the flag and deletes its own
thread object, which is being joined. -/
theorem not_orderly_of_close :
    ∃ state : ShutdownState Unit,
      (shutdown Unit).run (.initial [])
          (List.replicate 4 .owner ++ List.replicate 8 (.update false)) =
        some (state, [.join, .exit, .fault]) ∧
      state.faulted = true ∧ ¬ Orderly [] state [.join, .exit, .fault] := by
  refine ⟨⟨⟨.null, [], .live (), false⟩, .joining, .exit .deleteThread, true⟩, by decide, rfl, ?_⟩
  intro h
  exact h.noFault.2 (by decide)

end PocoEcho

import PocoEcho.Library.Machine
import PocoEcho.Network.CNetwork

/-!
# Sending while the connection goes away

The console thread sends messages through the socket that `GetSocket` returns. It does not ask
whether the connection still exists, while the peer may close it and `Exit` on the update thread
closes and deletes the socket at any time.

## Main definitions

* `sendRace`: the interleavings of `CClient::ListenAction`, called any number of times, with the
  update thread and the peer;
* `SendState.connectionEnded`: the peer has closed the connection, or the update thread has left its
  loop;
* `SentSafely`: what is meant to hold in every state;
* `SendsInTime`: no message is entered too late, and none is on its way when the socket is deleted.

## Main results

* `stepConsole_cases`: what the console thread can do in a step;
* `sentSafely_iff_sendsInTime`: a run is as is meant exactly when it meets this condition.
-/

namespace PocoEcho

/-- Where the console thread stands. A pending message carries whether `pSocket` is null, and
whether the connection had ended when the message was entered. -/
inductive ConsolePoint
  /-- It waits for a message. -/
  | idle
  /-- In the loop that polls the socket. -/
  | poll (isNull late : Bool)
  /-- In front of `sendBytes`. -/
  | send (isNull late : Bool)
  /-- In front of the report. -/
  | report (nCount : ℤ) (late : Bool)
  /-- An exception has left `ListenAction`, which ends the thread. -/
  | stopped
  deriving DecidableEq

/-- A message is between `GetSocket` and `sendBytes`. -/
def ConsolePoint.isPending : ConsolePoint → Bool
  | poll _ _ => true
  | send _ _ => true
  | _ => false

/-- What happens in a step. -/
inductive SendEvent
  /-- `poll` returns. -/
  | poll (ready : Bool)
  /-- `sendBytes` returns. -/
  | sendBytes (nCount : ℤ)
  /-- It is reported whether the message has been sent. -/
  | report (late sent : Bool)
  /-- A call on the socket throws, so the message is not reported. -/
  | throws (late : Bool)
  /-- A null or deleted socket is used. -/
  | fault
  deriving DecidableEq

/-- The object, and where both threads stand. -/
@[ext]
structure SendState (P : Type) where
  /-- The object. -/
  network : CNetwork P
  /-- The console thread. -/
  console : ConsolePoint
  /-- The update thread. -/
  update : UpdatePoint
  /-- The peer has closed the connection. -/
  peerClosed : Bool
  /-- Something undefined has happened. -/
  faulted : Bool
  deriving DecidableEq

/-- What happens next: either thread takes a step, with what the calls come to, or the peer does. -/
inductive SendInput
  /-- A message is entered, and `ListenAction` obtains the socket. -/
  | enter
  /-- `poll` returns. -/
  | poll (ready : Bool)
  /-- `sendBytes` returns. -/
  | send (nCount : ℤ)
  /-- The call on the socket throws. -/
  | throws
  /-- The result is reported. -/
  | report
  /-- The update thread takes a step, and may find that the peer has closed the connection. -/
  | update (found : Bool)
  /-- The peer closes the connection; the update thread has not found out yet. -/
  | peerCloses
  deriving DecidableEq

/-- The step is one of the update thread. -/
def SendInput.isUpdate : SendInput → Bool
  | update _ => true
  | _ => false

namespace SendState

variable {P : Type}

/-- After the start of both threads. -/
def initial (packetHandlerList : List P) : SendState P :=
  { network := .running packetHandlerList
    console := .idle
    update := .loop
    peerClosed := false
    faulted := false }

/-- The connection has ended: the peer has closed it, or the update thread has left its loop, which
it does because it has found this or because of a request. -/
def connectionEnded (state : SendState P) : Bool :=
  state.peerClosed || decide (state.update ≠ .loop)

/-- Something undefined happens. -/
def fail (state : SendState P) : SendState P × List SendEvent :=
  ({ state with faulted := true }, [.fault])

/-- A call of `ListenAction` on `pSocket`, when it comes to `event` on a connected socket: the
socket has to exist, and a closed one throws. -/
def onSocket (state : SendState P) (isNull late : Bool) (console : ConsolePoint)
    (event : SendEvent) : SendState P × List SendEvent :=
  if isNull then state.fail
  else
    match state.network.socket with
    | .live .connected => ({ state with console }, [event])
    | .live _ => ({ state with console := .stopped }, [.throws late])
    | _ => state.fail

/-- One step of the console thread. -/
def stepConsole (state : SendState P) (input : SendInput) :
    Option (SendState P × List SendEvent) :=
  match state.console, input with
  | .idle, .enter =>
      match state.network.socket with
      | .null => some ({ state with console := .poll true state.connectionEnded }, [])
      | .live _ => some ({ state with console := .poll false state.connectionEnded }, [])
      -- `dynamic_cast` looks into the object
      | .deleted => some state.fail
  | .poll isNull late, .poll ready =>
      let console := if ready then .send isNull late else .poll isNull late
      some (state.onSocket isNull late console (.poll ready))
  | .poll isNull late, .throws => some (state.onSocket isNull late .stopped (.throws late))
  | .send isNull late, .send nCount =>
      some (state.onSocket isNull late (.report nCount late) (.sendBytes nCount))
  | .send isNull late, .throws => some (state.onSocket isNull late .stopped (.throws late))
  | .report nCount late, .report =>
      some ({ state with console := .idle }, [.report late (decide (nCount ≠ 0))])
  | _, _ => none

/-- The effect of a step of the update thread. -/
def afterUpdate (state : SendState P) :
    Except Fault (UpdatePoint × CNetwork P) → SendState P × List SendEvent
  | .error _ => state.fail
  | .ok (update, network) => ({ state with update, network }, [])

/-- One step of either thread, or of the peer. -/
def step (state : SendState P) (input : SendInput) : Option (SendState P × List SendEvent) :=
  if state.faulted then none
  else
    match input with
    | .update found => (state.update.step found state.network).map state.afterUpdate
    | .peerCloses => some ({ state with peerClosed := true }, [])
    | input => state.stepConsole input

/-- No message is being sent any more, or something undefined has happened. -/
def Ended (state : SendState P) : Prop :=
  state.faulted = true ∨ state.console = .idle ∨ state.console = .stopped

end SendState

/-- The console thread and the update thread of a client. -/
def sendRace (P : Type) : Machine (SendState P) SendInput SendEvent where
  step := SendState.step

/-- A message is entered only while the connection has not ended, and the socket is not deleted
while a message is between `GetSocket` and `sendBytes`. -/
def SendsInTime {P : Type} (state : SendState P) (input : SendInput) : Prop :=
  (input = .enter → state.connectionEnded = false) ∧
    (input.isUpdate = true → state.update = .exit .deleteSocket →
      state.console.isPending = false)

/-- Whether the condition is met is decidable. -/
instance {P : Type} (state : SendState P) (input : SendInput) :
    Decidable (SendsInTime state input) :=
  inferInstanceAs (Decidable ((_ → _) ∧ (_ → _ → _)))

namespace SendState

variable {P : Type} {packetHandlerList : List P}

/-- None of the events is one that is not meant to happen. -/
def Harmless (es : List SendEvent) : Prop :=
  .fault ∉ es ∧ .report true true ∉ es ∧ .throws true ∉ es

theorem harmless_append {es es' : List SendEvent} :
    Harmless (es ++ es') ↔ Harmless es ∧ Harmless es' := by
  simp only [Harmless, List.mem_append, not_or]
  tauto

/-- A message that is being sent was entered in time, and its socket exists. -/
def InTime (network : CNetwork P) : ConsolePoint → Prop
  | .poll isNull late => isNull = false ∧ late = false ∧ ∃ socket, network.socket = .live socket
  | .send isNull late => isNull = false ∧ late = false ∧ ∃ socket, network.socket = .live socket
  | .report _ late => late = false
  | _ => True

/-- The invariant of the runs that meet the condition. -/
structure Clean (state : SendState P) : Prop where
  /-- Nothing undefined has happened. -/
  running : state.faulted = false
  /-- The pointers are as the update thread has left them. -/
  fits : state.update.Fits state.network
  /-- The console thread is not too late. -/
  console : InTime state.network state.console

theorem clean_initial (packetHandlerList : List P) : Clean (initial packetHandlerList) :=
  ⟨rfl, ⟨rfl, rfl⟩, trivial⟩

/-- While the connection has not ended, the socket is connected. -/
theorem Clean.socket_of_open {state : SendState P} (h : Clean state)
    (hopen : state.connectionEnded = false) : state.network.socket = .live .connected := by
  rw [connectionEnded, Bool.or_eq_false_iff, decide_eq_false_iff_not, not_not] at hopen
  have hfits := h.fits
  rw [hopen.2] at hfits
  exact hfits.1

/-- A call on a socket that exists, for a message that was entered in time. -/
theorem Clean.onSocket {state state' : SendState P} {console : ConsolePoint} {event : SendEvent}
    {es : List SendEvent} (h : Clean state)
    (hlive : ∃ socket, state.network.socket = .live socket)
    (hconsole : InTime state.network console) (hevent : Harmless [event])
    (hs : state.onSocket false false console event = (state', es)) :
    Clean state' ∧ Harmless es := by
  obtain ⟨socket, hsocket⟩ := hlive
  cases socket with
  | connected =>
      rw [SendState.onSocket, hsocket] at hs
      cases hs
      exact ⟨⟨h.running, h.fits, hconsole⟩, hevent⟩
  | created =>
      rw [SendState.onSocket, hsocket] at hs
      cases hs
      exact ⟨⟨h.running, h.fits, trivial⟩, by simp [Harmless]⟩
  | closed =>
      rw [SendState.onSocket, hsocket] at hs
      cases hs
      exact ⟨⟨h.running, h.fits, trivial⟩, by simp [Harmless]⟩

/-- A call on the socket of a pending message: where the console thread goes from there, and what
happens, if the socket is connected. -/
inductive SocketCall (isNull late : Bool) : ConsolePoint → SendEvent → Prop
  /-- `poll` returns. -/
  | poll (ready : Bool) :
      SocketCall isNull late (if ready then .send isNull late else .poll isNull late) (.poll ready)
  /-- `sendBytes` returns. -/
  | sendBytes (nCount : ℤ) : SocketCall isNull late (.report nCount late) (.sendBytes nCount)
  /-- The call throws. -/
  | throws : SocketCall isNull late .stopped (.throws late)

/-- In a step of the console thread a message is entered, a call on the socket is made, or the
result is reported. -/
theorem stepConsole_cases {state state' : SendState P} {input : SendInput} {es : List SendEvent}
    (hs : state.stepConsole input = some (state', es)) :
    (input = .enter ∧ state.console = .idle) ∨
    (∃ isNull late console event,
      (state.console = .poll isNull late ∨ state.console = .send isNull late) ∧
        SocketCall isNull late console event ∧
        state.onSocket isNull late console event = (state', es)) ∨
    ∃ nCount late, state.console = .report nCount late ∧
      state' = { state with console := .idle } ∧ es = [.report late (decide (nCount ≠ 0))] := by
  unfold SendState.stepConsole at hs
  split at hs
  next hidle => exact .inl ⟨rfl, hidle⟩
  next isNull late ready hpoll =>
    exact .inr (.inl ⟨_, _, _, _, .inl hpoll, .poll ready, Option.some.inj hs⟩)
  next isNull late hpoll =>
    exact .inr (.inl ⟨_, _, _, _, .inl hpoll, .throws, Option.some.inj hs⟩)
  next isNull late nCount hsend =>
    exact .inr (.inl ⟨_, _, _, _, .inr hsend, .sendBytes nCount, Option.some.inj hs⟩)
  next isNull late hsend =>
    exact .inr (.inl ⟨_, _, _, _, .inr hsend, .throws, Option.some.inj hs⟩)
  next nCount late hreport =>
    obtain ⟨rfl, rfl⟩ := Prod.mk.inj (Option.some.inj hs)
    exact .inr (.inr ⟨nCount, late, hreport, rfl, rfl⟩)
  next => cases hs

/-- What is known of a pending message that was entered in time. -/
theorem InTime.of_pending {network : CNetwork P} {console : ConsolePoint} {isNull late : Bool}
    (h : InTime network console)
    (hpending : console = .poll isNull late ∨ console = .send isNull late) :
    isNull = false ∧ late = false ∧ ∃ socket, network.socket = .live socket := by
  rcases hpending with rfl | rfl
  · exact h
  · exact h

/-- The invariant is kept by the steps of the console thread that meet the condition. -/
theorem Clean.stepConsole {state state' : SendState P} {input : SendInput}
    {es : List SendEvent} (h : Clean state) (htime : SendsInTime state input)
    (hs : state.stepConsole input = some (state', es)) : Clean state' ∧ Harmless es := by
  rcases stepConsole_cases hs with
    ⟨rfl, hidle⟩ | ⟨isNull, late, console, event, hpending, hcall, honSocket⟩ |
      ⟨nCount, late, hreport, rfl, rfl⟩
  · -- the update thread is in its loop, so the socket exists
    have hopen : state.connectionEnded = false := htime.1 rfl
    have hconnected := h.socket_of_open hopen
    simp only [SendState.stepConsole, hidle, hconnected, hopen] at hs
    cases hs
    exact ⟨⟨h.running, h.fits, rfl, rfl, .connected, hconnected⟩, by simp [Harmless]⟩
  · obtain ⟨rfl, rfl, hlive⟩ := h.console.of_pending hpending
    cases hcall with
    | poll ready =>
        apply h.onSocket hlive ?_ (by simp [Harmless]) honSocket
        cases ready with
        | true => exact ⟨rfl, rfl, hlive⟩
        | false => exact ⟨rfl, rfl, hlive⟩
    | sendBytes nCount =>
        apply h.onSocket hlive ?_ (by simp [Harmless]) honSocket
        exact (rfl : false = false)
    | throws =>
        apply h.onSocket hlive ?_ (by simp [Harmless]) honSocket
        trivial
  · have htimely := h.console
    rw [hreport] at htimely
    obtain rfl : late = false := htimely
    exact ⟨⟨h.running, h.fits, trivial⟩, by simp [Harmless]⟩

/-- A step is one of the update thread, of the peer or of the console thread. -/
theorem step_cases {state state' : SendState P} {input : SendInput} {es : List SendEvent}
    (hrun : state.faulted = false) (hs : state.step input = some (state', es)) :
    (∃ found outcome, input = .update found ∧
      state.update.step found state.network = some outcome ∧
        state.afterUpdate outcome = (state', es)) ∨
    (input = .peerCloses ∧ state' = { state with peerClosed := true } ∧ es = []) ∨
    input.isUpdate = false ∧ state.stepConsole input = some (state', es) := by
  have hgoes : ¬ state.faulted = true := by simp [hrun]
  unfold SendState.step at hs
  rw [if_neg hgoes] at hs
  cases input with
  | update found =>
      obtain ⟨outcome, houtcome, hafter⟩ := Option.map_eq_some_iff.mp hs
      exact .inl ⟨found, outcome, rfl, houtcome, hafter⟩
  | peerCloses =>
      obtain ⟨rfl, rfl⟩ := Prod.mk.inj (Option.some.inj hs)
      exact .inr (.inl ⟨rfl, rfl, rfl⟩)
  | enter => exact .inr (.inr ⟨rfl, hs⟩)
  | poll ready => exact .inr (.inr ⟨rfl, hs⟩)
  | send nCount => exact .inr (.inr ⟨rfl, hs⟩)
  | throws => exact .inr (.inr ⟨rfl, hs⟩)
  | report => exact .inr (.inr ⟨rfl, hs⟩)

/-- The outcome of a step of the update thread from pointers as it left them. -/
theorem afterUpdate_of_fits {state state' : SendState P} {found : Bool} {es : List SendEvent}
    {outcome : Except Fault (UpdatePoint × CNetwork P)} (hfits : state.update.Fits state.network)
    (houtcome : state.update.step found state.network = some outcome)
    (hafter : state.afterUpdate outcome = (state', es)) :
    ∃ update network, update.Fits network ∧ UpdatePoint.Keeps state.network network ∧
      state.update.step found state.network = some (.ok (update, network)) ∧
      state' = { state with update, network } ∧ es = [] := by
  obtain ⟨update, network, rfl, hfits', hkeeps⟩ := hfits.step houtcome
  obtain ⟨rfl, rfl⟩ := Prod.mk.inj hafter
  exact ⟨update, network, hfits', hkeeps, houtcome, rfl, rfl⟩

/-- The socket of a message that is being sent exists until `Exit` deletes it. -/
theorem InTime.update {network network' : CNetwork P} {console : ConsolePoint}
    (h : InTime network console)
    (hlive : console.isPending = true → (∃ socket, network.socket = .live socket) →
      ∃ socket, network'.socket = .live socket) : InTime network' console := by
  cases console with
  | idle => trivial
  | poll isNull late => exact ⟨h.1, h.2.1, hlive rfl h.2.2⟩
  | send isNull late => exact ⟨h.1, h.2.1, hlive rfl h.2.2⟩
  | report nCount late => exact h
  | stopped => trivial

/-- The invariant is kept by the steps that meet the condition. -/
theorem Clean.step {state state' : SendState P} {input : SendInput} {es : List SendEvent}
    (h : Clean state) (htime : SendsInTime state input)
    (hs : state.step input = some (state', es)) : Clean state' ∧ Harmless es := by
  rcases step_cases h.running hs with
    ⟨found, outcome, rfl, houtcome, hafter⟩ | ⟨-, rfl, rfl⟩ | ⟨-, hconsole⟩
  · obtain ⟨update, network, hfits, -, hstep, rfl, rfl⟩ :=
      afterUpdate_of_fits h.fits houtcome hafter
    refine ⟨⟨h.running, hfits, h.console.update ?_⟩, by simp [Harmless]⟩
    intro hpending hlive
    refine UpdatePoint.live_of_step ?_ h.fits hlive hstep
    intro hdelete
    rw [htime.2 rfl hdelete] at hpending
    cases hpending
  · exact ⟨⟨h.running, h.fits, h.console⟩, by simp [Harmless]⟩
  · exact h.stepConsole htime hconsole

/-- A message is being sent that was entered too late, or whose socket does not exist any more, or
it will be reported as sent although it was entered too late. -/
structure Doomed (state : SendState P) : Prop where
  /-- Nothing undefined has happened yet. -/
  running : state.faulted = false
  /-- The pointers are as the update thread has left them. -/
  fits : state.update.Fits state.network
  /-- The message cannot be sent, or will not be reported as not sent. -/
  console : (∃ isNull late,
    (state.console = .poll isNull late ∨ state.console = .send isNull late) ∧
      (isNull = true ∨ (∀ socket, state.network.socket ≠ .live socket) ∨ late = true)) ∨
    ∃ nCount, state.console = .report nCount true ∧ nCount ≠ 0

/-- What is not meant to happen, or that `sendBytes` takes nothing of the frame. -/
def Telling (es : List SendEvent) : Prop := ¬ (Harmless es ∧ .sendBytes 0 ∉ es)

theorem telling_append {es es' : List SendEvent} :
    Telling (es ++ es') ↔ Telling es ∨ Telling es' := by
  simp only [Telling, harmless_append, List.mem_append, not_or]
  tauto

theorem telling_of_not_harmless {es : List SendEvent} (h : ¬ Harmless es) : Telling es :=
  fun hall => h hall.1

/-- The next call on the socket is undefined or throws, or the message is still late behind it. -/
theorem Doomed.onSocket {state state' : SendState P} {isNull late : Bool}
    {console : ConsolePoint} {event : SendEvent} {es : List SendEvent} (h : Doomed state)
    (hhopeless : isNull = true ∨ (∀ socket, state.network.socket ≠ .live socket) ∨ late = true)
    (hcall : SocketCall isNull late console event)
    (hs : state.onSocket isNull late console event = (state', es)) :
    Telling es ∨ Doomed state' := by
  unfold SendState.onSocket at hs
  split at hs
  · cases hs
    exact .inl (telling_of_not_harmless (by simp [Harmless]))
  next hnull =>
    have hgone := hhopeless.resolve_left (by simpa using hnull)
    split at hs
    next hsocket =>
      obtain rfl : late = true := hgone.resolve_left fun hgone => hgone _ hsocket
      cases hs
      cases hcall with
      | poll ready =>
          refine .inr ⟨h.running, h.fits, .inl ⟨isNull, true, ?_, .inr (.inr rfl)⟩⟩
          cases ready with
          | true => exact .inr rfl
          | false => exact .inl rfl
      | sendBytes nCount =>
          by_cases hzero : nCount = 0
          · exact .inl (by simp [Telling, hzero])
          · exact .inr ⟨h.running, h.fits, .inr ⟨nCount, rfl, hzero⟩⟩
      | throws => exact .inl (telling_of_not_harmless (by simp [Harmless]))
    next socket _ hsocket =>
      obtain rfl : late = true := hgone.resolve_left fun hgone => hgone _ hsocket
      cases hs
      exact .inl (telling_of_not_harmless (by simp [Harmless]))
    next =>
      cases hs
      exact .inl (telling_of_not_harmless (by simp [Harmless]))

/-- In such a run, something happens that tells, or it goes on like this. -/
theorem Doomed.step {state state' : SendState P} {input : SendInput} {es : List SendEvent}
    (h : Doomed state) (hs : state.step input = some (state', es)) :
    Telling es ∨ Doomed state' := by
  rcases step_cases h.running hs with
    ⟨found, outcome, -, houtcome, hafter⟩ | ⟨-, rfl, -⟩ | ⟨-, hconsole⟩
  · obtain ⟨update, network, hfits, hkeeps, -, rfl, -⟩ :=
      afterUpdate_of_fits h.fits houtcome hafter
    refine .inr ⟨h.running, hfits, h.console.imp_left ?_⟩
    rintro ⟨isNull, late, hpending, hhopeless⟩
    exact ⟨isNull, late, hpending, hhopeless.imp_right (Or.imp_left hkeeps.gone)⟩
  · exact .inr ⟨h.running, h.fits, h.console⟩
  rcases stepConsole_cases hconsole with
    ⟨-, hidle⟩ | ⟨isNull', late', console, event, hpending', hcall, honSocket⟩ |
      ⟨nCount, late', hreport, -, rfl⟩
  · -- no message is entered while another one is being sent
    rcases h.console with ⟨isNull, late, heq | heq, -⟩ | ⟨nCount, heq, -⟩ <;> simp [heq] at hidle
  · rcases h.console with ⟨isNull, late, hpending, hhopeless⟩ | ⟨nCount, heq, -⟩
    · -- the call is one for the pending message
      obtain ⟨rfl, rfl⟩ : isNull' = isNull ∧ late' = late := by
        rcases hpending with heq | heq <;> simpa [heq, eq_comm] using hpending'
      exact h.onSocket hhopeless hcall honSocket
    · rcases hpending' with heq' | heq' <;> simp [heq] at heq'
  · rcases h.console with ⟨isNull, late, heq | heq, -⟩ | ⟨nCount', heq, hne⟩
    · simp [heq] at hreport
    · simp [heq] at hreport
    · -- the late message is reported as sent
      rw [heq, ConsolePoint.report.injEq] at hreport
      obtain ⟨rfl, rfl⟩ := hreport
      exact .inl (telling_of_not_harmless (by simp [Harmless, hne]))

/-- A message that is being sent has not ended. -/
theorem Doomed.not_ended {state : SendState P} (h : Doomed state) : ¬ state.Ended := by
  rintro (hfaulted | hended)
  · rw [h.running] at hfaulted
    cases hfaulted
  · rcases h.console with ⟨isNull, late, heq | heq, -⟩ | ⟨nCount, heq, -⟩ <;> simp [heq] at hended

/-- A message that is entered too late. -/
theorem Clean.doomed_of_enter {state state' : SendState P} {es : List SendEvent}
    (h : Clean state) (hended : state.connectionEnded = true)
    (hs : state.stepConsole .enter = some (state', es)) : Telling es ∨ Doomed state' := by
  obtain ⟨network, console, update, peerClosed, faulted⟩ := state
  cases console with
  | idle =>
      simp only [SendState.stepConsole, hended] at hs
      split at hs
      · cases hs
        exact .inr ⟨h.running, h.fits, .inl ⟨true, true, .inl rfl, .inl rfl⟩⟩
      · cases hs
        exact .inr ⟨h.running, h.fits, .inl ⟨false, true, .inl rfl, .inr (.inr rfl)⟩⟩
      · cases hs
        exact .inl (telling_of_not_harmless (by simp [Harmless]))
  | poll isNull late => cases hs
  | send isNull late => cases hs
  | report nCount late => cases hs
  | stopped => cases hs

/-- A pending message is at one of two points. -/
theorem exists_of_isPending {console : ConsolePoint} (h : console.isPending = true) :
    ∃ isNull late, console = .poll isNull late ∨ console = .send isNull late := by
  cases console with
  | idle => cases h
  | poll isNull late => exact ⟨isNull, late, .inl rfl⟩
  | send isNull late => exact ⟨isNull, late, .inr rfl⟩
  | report nCount late => cases h
  | stopped => cases h

/-- A socket that is deleted while a message is being sent. -/
theorem Clean.doomed_of_delete {state state' : SendState P} {found : Bool}
    {outcome : Except Fault (UpdatePoint × CNetwork P)} {es : List SendEvent} (h : Clean state)
    (hdelete : state.update = .exit .deleteSocket) (hpending : state.console.isPending = true)
    (houtcome : state.update.step found state.network = some outcome)
    (hafter : state.afterUpdate outcome = (state', es)) : Doomed state' := by
  obtain ⟨update, network, hfits, -, hstep, rfl, -⟩ := afterUpdate_of_fits h.fits houtcome hafter
  obtain ⟨isNull, late, hpending⟩ := exists_of_isPending hpending
  refine ⟨h.running, hfits, .inl ⟨isNull, late, hpending, .inr (.inl ?_)⟩⟩
  have hclosed := h.fits
  rw [hdelete] at hclosed hstep
  simp only [UpdatePoint.step, ExitPoint.step, hclosed.1, Pointer.delete_live] at hstep
  cases hstep
  intro socket hsocket
  cases hsocket

/-- A step that does not meet the condition. -/
theorem Clean.doomed_of_not_sendsInTime {state state' : SendState P} {input : SendInput}
    {es : List SendEvent} (h : Clean state) (htime : ¬ SendsInTime state input)
    (hs : state.step input = some (state', es)) : Telling es ∨ Doomed state' := by
  rw [SendsInTime, not_and_or] at htime
  rcases step_cases h.running hs with
    ⟨found, outcome, rfl, houtcome, hafter⟩ | ⟨rfl, -, -⟩ | ⟨hinput, hconsole⟩
  · obtain ⟨-, hdelete⟩ := Classical.not_imp.mp (htime.resolve_left (by simp))
    obtain ⟨hpoint, hpending⟩ := Classical.not_imp.mp hdelete
    exact .inr (h.doomed_of_delete hpoint (by simpa using hpending) houtcome hafter)
  · rcases htime with htime | htime <;> simp [SendInput.isUpdate] at htime
  · obtain ⟨rfl, hended⟩ := Classical.not_imp.mp (htime.resolve_right (by simp [hinput]))
    exact h.doomed_of_enter (by simpa using hended) hconsole

/-- A run to the end of a message in which nothing tells meets the condition in every step. -/
theorem Clean.admissible_of_run {state state' : SendState P} {inputs : List SendInput}
    {tr : List SendEvent} (h : Clean state)
    (hrun : (sendRace P).run state inputs = some (state', tr)) (hended : state'.Ended)
    (htelling : ¬ Telling tr) : (sendRace P).Admissible SendsInTime state inputs := by
  apply Machine.admissible_of_run (P := Clean) (Q := fun s es => Telling es ∨ Doomed s)
    (fun hclean htime hs => (hclean.step htime hs).1)
    (fun hclean htime hs => hclean.doomed_of_not_sendsInTime htime hs) ?_ ?_ h hrun ?_
  · intro state state' tr es input hbad hs
    rw [telling_append]
    rcases hbad with htells | hdoomed
    · exact .inl (.inl htells)
    · exact (hdoomed.step hs).imp_left .inr
  · intro state tr es hbad
    rw [telling_append]
    exact hbad.imp_left .inr
  · rintro (htells | hdoomed)
    · exact htelling htells
    · exact hdoomed.not_ended hended

end SendState

end PocoEcho

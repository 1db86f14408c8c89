import PocoEcho.Library.FifoService
import PocoEcho.System.ClientSteps

/-!
# Every message comes back

When each receive returns what was sent with one call, server and clients together are a service
that answers in order: what a client displays are the messages that were entered on its own console,
each once and in order, however many clients there are and in whatever order the threads take their
steps.

## Main results

* `EchoSystem.Reaches.service`: the system refines the service `fifoService`;
* `EchoSystem.displays_entered`: what is displayed, and what is still to be displayed.
-/

namespace PocoEcho

open Poco

namespace EchoSystem

variable {S : Type}

/-- What the user of a client notices: a message is entered, or one is displayed. -/
def Event.service : Event S → Option (FifoService.Event S CString)
  | .server _ => none
  | .client user event => event.displayed.map (.replied user)
  | .entered user szMessage => some (.requested user szMessage)

/-- Nobody notices what the server does. -/
theorem filterMap_service_server (events : List (ServerProgram.Event S)) :
    (events.map Event.server).filterMap Event.service = [] := by
  simp [List.filterMap_map, Event.service]

/-- What a client displays is noticed. -/
theorem filterMap_service_client (client : S) (events : List (ClientEvent ConsoleEvent)) :
    (events.map (Event.client client)).filterMap Event.service =
      (events.filterMap ClientEvent.displayed).map (.replied client) := by
  rw [List.filterMap_map, List.map_filterMap]
  rfl

variable [DecidableEq S]

/-- The messages that are entered are the requests to the service. -/
theorem enteredBy_eq (client : S) (tr : List (Event S)) :
    enteredBy client tr = FifoService.requestsOf client (tr.filterMap Event.service) := by
  rw [enteredBy, FifoService.requestsOf, List.filterMap_filterMap]
  congr 1
  funext e
  cases e with
  | server event => rfl
  | client client' event => cases h : event.displayed <;> simp [Event.enteredBy, Event.service, h,
      FifoService.Event.requestOf]
  | entered client' szMessage => rfl

/-- The messages that are displayed are the replies of the service. -/
theorem displayedBy_eq (client : S) (tr : List (Event S)) :
    displayedBy client tr = FifoService.repliesOf client (tr.filterMap Event.service) := by
  rw [displayedBy, FifoService.repliesOf, List.filterMap_filterMap]
  congr 1
  funext e
  cases e with
  | server event => rfl
  | client client' event => cases h : event.displayed <;> simp [Event.displayedBy, Event.service, h,
      FifoService.Event.replyOf]
  | entered client' szMessage => rfl

/-- The service answers the oldest request, if it answers one. -/
theorem matched_replies {queue : S → List CString} {client : S} {shown ms : List CString}
    (hqueue : queue client = shown ++ ms) (hshown : shown.length ≤ 1) :
    Machine.Matched (fifoService S CString) (fun _ _ => True) queue
      (Function.update queue client ms) (shown.map (.replied client)) := by
  match shown with
  | [] =>
      rw [List.nil_append] at hqueue
      rw [← hqueue, Function.update_eq_self]
      exact .refl queue
  | [m] =>
      refine .single (i := .reply client) trivial ?_
      change FifoService.step queue (.reply client) = _
      simp only [FifoService.step, hqueue, List.singleton_append, List.map_cons, List.map_nil]
  | _ :: _ :: _ => simp at hshown

/-- A step keeps the invariant, and for the users it is one of the service, or none. -/
theorem Inv.of_step {system system' : EchoSystem S} {queue : S → List CString}
    (hinv : Inv system queue) (hconnected : Connected system)
    {past : List (ServerProgram.Event S)}
    (hprogram :
      (serverProgram S).Reachable ServerProgram.Undisturbed (.initial S) system.program past)
    {input : Input S} (hadm : Admissible Channel.DeliversSegment system input)
    {es : List (Event S)} (hs : (echoSystem S).step system input = some (system', es)) :
    ∃ queue', Inv system' queue' ∧ Machine.Matched (fifoService S CString) (fun _ _ => True) queue
      queue' (es.filterMap Event.service) := by
  cases input with
  | server input =>
      obtain ⟨⟨program, events⟩, hstep, hp⟩ := Option.map_eq_some_iff.mp hs
      obtain ⟨rfl, rfl⟩ := Prod.mk.inj hp
      -- no user notices what the server does
      rw [filterMap_service_server]
      exact ⟨queue, hinv.of_server hconnected hprogram hadm hstep, .refl queue⟩
  | connectNB client =>
      obtain ⟨hinv', rfl⟩ := hinv.of_connectNB hs
      exact ⟨queue, hinv', .refl queue⟩
  | tryConnect client attempt packetType =>
      obtain ⟨hinv', rfl⟩ := hinv.of_tryConnect hadm hs
      exact ⟨queue, hinv', .refl queue⟩
  | client client input =>
      obtain ⟨events, ms, rfl, hqueue, hshown, hinv'⟩ := hinv.of_client hadm hs
      -- the client displays the oldest message that its user waits for, or none
      rw [filterMap_service_client]
      exact ⟨_, hinv', matched_replies hqueue hshown⟩
  | enter client szMessage behind =>
      obtain ⟨rfl, hinv'⟩ := hinv.of_enter hadm hs
      exact ⟨_, hinv', .single (i := .request client szMessage) trivial rfl⟩

/-- The system is a service that answers in order, as far as its users can notice. -/
theorem Reaches.service {system : EchoSystem S} {tr : List (Event S)}
    (h : Reaches Channel.DeliversSegment system tr) :
    ∃ queue, (fifoService S CString).Reachable (fun _ _ => True) (fun _ => []) queue
        (tr.filterMap Event.service) ∧ Inv system queue := by
  refine h.simulates (R := fun system _ queue => Inv system queue) inv_initial ?_
  intro system system' tr es input queue hreach hinv hadm hs
  exact hinv.of_step (Reaches.connected hreach) (Reaches.program hreach) hadm hs

/-- The messages that have been entered are those that have been displayed, followed by those on
their way. -/
theorem Reaches.exists_inv {system : EchoSystem S} {tr : List (Event S)}
    (h : Reaches Channel.DeliversSegment system tr) :
    ∃ queue, Inv system queue ∧
      ∀ client, enteredBy client tr = displayedBy client tr ++ queue client := by
  obtain ⟨queue, hservice, hinv⟩ := h.service
  refine ⟨queue, hinv, fun client => ?_⟩
  rw [enteredBy_eq, displayedBy_eq]
  exact FifoService.requestsOf_eq hservice client

omit [DecidableEq S] in
/-- Where nothing is on its way, nobody waits for a message. -/
theorem Inv.queue_eq_nil {system : EchoSystem S} {queue : S → List CString}
    (h : Inv system queue) {client : S} (hup : (system.connection client).upstream.bytes = [])
    (hdown : (system.connection client).downstream.bytes = []) : queue client = [] := by
  obtain ⟨up, down, hsituation, hqueue⟩ := h.situation client
  rw [hqueue]
  cases hsituation with
  | idle => rfl
  | waiting => rfl
  | admitted => rfl
  | kicked => rfl
  | running _ hframes hreceiving =>
      rw [(bytes_eq_nil_iff hframes).mp hup, (hreceiving.down_eq_nil hdown).1]
      rfl
  | ended => rfl

/-- No exception has left one of the loops. -/
def Undamaged (system : EchoSystem S) : Prop :=
  (∀ loop ∈ system.program.loop, ∀ fault, loop.status ≠ .thrown fault) ∧
    ∀ client loop, (system.connection client).phase = .running loop →
      ∀ fault, loop.status ≠ .thrown fault

omit [DecidableEq S] in
/-- The invariant excludes that an exception has left a loop. -/
theorem Inv.undamaged {system : EchoSystem S} {queue : S → List CString} (h : Inv system queue) :
    system.Undamaged := by
  refine ⟨h.not_thrown, fun client loop hphase => ?_⟩
  obtain ⟨up, down, hsituation, -⟩ := h.situation client
  obtain ⟨-, hdown, -⟩ := hsituation.of_running hphase
  exact hdown.not_thrown

/-- In every run in which each receive returns what was sent with one call, no call on a socket
throws, no handshake is misread, sends take all at once, and a message is entered and sent in one
step while its client has its socket (`Admissible`), with any number of clients and in any order of
the steps: each client displays the messages that were entered on its own console, in order, each at
most once, and nothing else; it has displayed all of them when nothing is on its way on its
connection; and no exception leaves a loop. -/
theorem displays_entered {system : EchoSystem S} {tr : List (Event S)}
    (h : Reaches Channel.DeliversSegment system tr) :
    (∀ client, displayedBy client tr <+: enteredBy client tr) ∧
      (∀ client, (system.connection client).upstream.bytes = [] →
        (system.connection client).downstream.bytes = [] →
          displayedBy client tr = enteredBy client tr) ∧
      system.Undamaged := by
  obtain ⟨queue, hinv, haccount⟩ := h.exists_inv
  refine ⟨fun client => ?_, fun client hup hdown => ?_, hinv.undamaged⟩
  · rw [haccount]
    exact List.prefix_append _ _
  · rw [haccount, hinv.queue_eq_nil hup hdown, List.append_nil]

/-- The server answers with ACCEPT. -/
def acceptedAttempt : ConnectAttempt :=
  { address := ⟨⟨[0x31], by decide⟩, 28220, by decide⟩
    packetType := Word.ofNat 0
    handshake :=
      { connectNB := true
        poll := some true
        receiveBytes := .bytes PacketType.accept.word.bytes
        length_le := by rintro data ⟨⟩; decide } }

/-- A message of one letter. -/
def letter : CString :=
  { chars := [0x41], nul_notMem := fun h => absurd (List.mem_singleton.mp h) (by decide) }

/-- A client connects, one letter is entered on its console, and the threads take their turns until
it is displayed. -/
def letterInputs : List (Input ℕ) :=
  [.server (.tryGetList true true ["a"]), .server (.tryStart (some 0)),
    .server (.run (Word.ofNat 0)), .connectNB 1, .server (.loop (.select 1 [0] none)),
    .server (.loop (.accept 1 "a" () .zero)), .tryConnect 1 acceptedAttempt (Word.ofNat 0),
    .enter 1 letter [7, 8], .server (.loop (.select 1 [1] none)),
    .server (.loop (.receive (.bytes [0x11, 0, 0, 0, 3, 0, 0, 0, 0x41, 0, 7, 8]) .zero)),
    .client 1 (.poll true), .client 1 (.receiveType (.bytes [0x11, 0, 0, 0])),
    .client 1 (.receivePayload (.bytes [2, 0, 0, 0, 0x41, 0]) .zero)]

set_option maxRecDepth 4000 in
theorem displays_entered_of_letter :
    ∃ system tr, (echoSystem ℕ).run (initial ℕ) letterInputs = some (system, tr) ∧
      enteredBy 1 tr = [letter] ∧ displayedBy 1 tr = enteredBy 1 tr := by
  have hmap : ((echoSystem ℕ).run (initial ℕ) letterInputs).map (fun p => (enteredBy 1 p.2,
      (p.1.connection 1).upstream.bytes, (p.1.connection 1).downstream.bytes)) =
        some ([letter], [], []) := by decide
  obtain ⟨⟨system, tr⟩, hrun, h⟩ := Option.map_eq_some_iff.mp hmap
  obtain ⟨hentered, hup, hdown⟩ : enteredBy 1 tr = [letter] ∧
      (system.connection 1).upstream.bytes = [] ∧ (system.connection 1).downstream.bytes = [] := by
    simpa only [Prod.mk.injEq] using h
  have hinit : Reaches Channel.DeliversSegment (initial ℕ) [] := .init
  have hreach := hinit.run letterInputs (by decide) hrun
  exact ⟨system, tr, hrun, hentered, (displays_entered hreach).2.1 1 hup hdown⟩

end EchoSystem

end PocoEcho

import PocoEcho.Library.Relay
import PocoEcho.Network.ClientLoop
import PocoEcho.Network.ServerLoop

/-!
# The buffer that the handlers share

Both loops give every registered handler the same buffer, so a handler sees what those before it
have left. The handlers are independent of each other exactly when all but the last return and read
nothing.

## Main definitions

* `ClientLoop.invocations` and `ServerLoop.invocations`: which handlers are invoked, and what each
  is given.

## Main results

* `ClientLoop.log_dispatch` and `ServerLoop.log_dispatch`: these are the invocations of the loops;
* `dispatch_independent_iff`: when every handler is invoked once and sees what it would see alone.
-/

namespace PocoEcho

open Poco

/-- Reading leaves a buffer as it is if nothing is read of it. -/
theorem read_eq_self_iff {buffer : FIFOBuffer} {n : ℕ} :
    (buffer.read n).2 = buffer ↔ n = 0 ∨ buffer.content = [] := by
  have hlength : (buffer.read n).2.content.length = buffer.content.length - n := by
    rw [BoundedQueue.content_read, List.length_drop]
  constructor
  · intro h
    rw [h] at hlength
    rw [← List.length_eq_zero_iff]
    omega
  · rintro (rfl | hnil)
    · rfl
    · ext1
      · rfl
      · rw [BoundedQueue.content_read, hnil, List.drop_nil]

/-- A handler returns and leaves the buffer as it is. -/
def ReadsNothing {H : Type} (x : Logged H Fault FIFOBuffer) (buffer : FIFOBuffer) : Prop :=
  x.result = .ok buffer

namespace ClientLoop

variable {H : Type}

/-- The invocation of a handler. -/
def invoke (env : HandlerEnv) (packetType : Word) (buffer : FIFOBuffer)
    (handlerFunction : ClientHandler H) : Logged (ClientEvent H) Fault FIFOBuffer := do
  Logged.emit (.packetHandler packetType)
  (handlerFunction env buffer packetType).mapLog .handler

/-- The handlers that are invoked, each with the type and the buffer that it is given. -/
def invocations (handlers : List (ClientHandler H)) (env : HandlerEnv) (packetType : Word)
    (buffer : FIFOBuffer) : List (ClientHandler H × Word × FIFOBuffer) :=
  (Relay.calls (invoke env packetType) handlers buffer).map fun p => (p.1, packetType, p.2)

/-- What the loop logs is what these invocations log. -/
theorem log_dispatch (handlers : List (ClientHandler H)) (env : HandlerEnv) (packetType : Word)
    (buffer : FIFOBuffer) :
    (dispatch handlers env packetType buffer).log =
      (invocations handlers env packetType buffer).flatMap fun p =>
        .packetHandler p.2.1 :: (p.1 env p.2.2 p.2.1).log.map .handler := by
  rw [invocations, List.flatMap_map]
  exact Relay.log_foldlM handlers buffer

/-- Every handler is invoked once, with the type and the buffer that it would be given alone. -/
def HandlersIndependent (handlers : List (ClientHandler H)) (env : HandlerEnv) (packetType : Word)
    (buffer : FIFOBuffer) : Prop :=
  invocations handlers env packetType buffer =
    handlers.flatMap fun handlerFunction => invocations [handlerFunction] env packetType buffer

theorem handlersIndependent_iff_relay {handlers : List (ClientHandler H)} {env : HandlerEnv}
    {packetType : Word} {buffer : FIFOBuffer} :
    HandlersIndependent handlers env packetType buffer ↔
      Relay.Independent (invoke env packetType) handlers buffer := by
  apply Relay.map_calls_eq_flatMap_iff
  rintro ⟨h, b⟩ ⟨h', b'⟩ heq
  simpa using heq

/-- All but the last return and read nothing. -/
theorem handlersIndependent_iff {handlers : List (ClientHandler H)} {env : HandlerEnv}
    {packetType : Word} {buffer : FIFOBuffer} :
    HandlersIndependent handlers env packetType buffer ↔
      ∀ h ∈ handlers.dropLast, ReadsNothing (h env buffer packetType) buffer :=
  handlersIndependent_iff_relay.trans Relay.independent_iff

/-- There is at most one handler, or all return and read nothing. -/
theorem forall_perm_handlersIndependent_iff {handlers : List (ClientHandler H)} {env : HandlerEnv}
    {packetType : Word} {buffer : FIFOBuffer} :
    (∀ handlers', handlers'.Perm handlers →
        HandlersIndependent handlers' env packetType buffer) ↔
      handlers.length ≤ 1 ∨ ∀ h ∈ handlers, ReadsNothing (h env buffer packetType) buffer := by
  simp only [handlersIndependent_iff_relay]
  exact Relay.forall_perm_independent_iff

/-- A handler that reads some bytes. -/
def reader (n : ℕ) : ClientHandler H := fun _ buffer _ => pure (buffer.read n).2

/-- A handler that reads anything of the packet does not leave it to the others. -/
theorem readsNothing_reader_iff {n : ℕ} {env : HandlerEnv} {packetType : Word}
    {buffer : FIFOBuffer} :
    ReadsNothing ((reader n : ClientHandler H) env buffer packetType) buffer ↔
      n = 0 ∨ buffer.content = [] := by
  rw [ReadsNothing, reader, Logged.result_pure, Except.ok.injEq, read_eq_self_iff]

end ClientLoop

namespace ServerLoop

variable {S W : Type}

/-- The invocation of a handler. -/
def invoke (env : HandlerEnv) (client : S) (packetType : Word) (buffer : FIFOBuffer)
    (handlerFunction : PacketHandler S) : Logged (Event S) Fault FIFOBuffer := do
  Logged.emit (.packetHandler client packetType)
  (handlerFunction env client buffer packetType).mapLog .handler

/-- The handlers that are invoked, each with the type and the buffer that it is given. -/
def invocations (handlers : Handlers S W) (env : HandlerEnv) (client : S) (packetType : Word)
    (buffer : FIFOBuffer) : List (PacketHandler S × Word × FIFOBuffer) :=
  (Relay.calls (invoke env client packetType) handlers.packetHandlerList buffer).map
    fun p => (p.1, packetType, p.2)

/-- What the loop logs is what these invocations log. -/
theorem log_dispatch (handlers : Handlers S W) (env : HandlerEnv) (client : S) (packetType : Word)
    (buffer : FIFOBuffer) :
    (dispatch handlers env client packetType buffer).log =
      (invocations handlers env client packetType buffer).flatMap fun p =>
        .packetHandler client p.2.1 :: (p.1 env client p.2.2 p.2.1).log.map .handler := by
  rw [invocations, List.flatMap_map]
  exact Relay.log_foldlM handlers.packetHandlerList buffer

/-- Every handler is invoked once, with the type and the buffer that it would be given alone. -/
def HandlersIndependent (handlers : Handlers S W) (env : HandlerEnv) (client : S)
    (packetType : Word) (buffer : FIFOBuffer) : Prop :=
  invocations handlers env client packetType buffer =
    handlers.packetHandlerList.flatMap fun handlerFunction =>
      invocations { handlers with packetHandlerList := [handlerFunction] } env client packetType
        buffer

theorem handlersIndependent_iff_relay {handlers : Handlers S W} {env : HandlerEnv} {client : S}
    {packetType : Word} {buffer : FIFOBuffer} :
    HandlersIndependent handlers env client packetType buffer ↔
      Relay.Independent (invoke env client packetType) handlers.packetHandlerList buffer := by
  apply Relay.map_calls_eq_flatMap_iff
  rintro ⟨h, b⟩ ⟨h', b'⟩ heq
  simpa using heq

/-- All but the last return and read nothing. -/
theorem handlersIndependent_iff {handlers : Handlers S W} {env : HandlerEnv} {client : S}
    {packetType : Word} {buffer : FIFOBuffer} :
    HandlersIndependent handlers env client packetType buffer ↔
      ∀ h ∈ handlers.packetHandlerList.dropLast,
        ReadsNothing (h env client buffer packetType) buffer :=
  handlersIndependent_iff_relay.trans Relay.independent_iff

/-- There is at most one handler, or all return and read nothing. -/
theorem forall_perm_handlersIndependent_iff {handlers : Handlers S W} {env : HandlerEnv}
    {client : S} {packetType : Word} {buffer : FIFOBuffer} :
    (∀ handlers' : Handlers S W, handlers'.packetHandlerList.Perm handlers.packetHandlerList →
        HandlersIndependent handlers' env client packetType buffer) ↔
      handlers.packetHandlerList.length ≤ 1 ∨
        ∀ h ∈ handlers.packetHandlerList, ReadsNothing (h env client buffer packetType) buffer := by
  have hperm : (∀ list : List (PacketHandler S), list.Perm handlers.packetHandlerList →
      Relay.Independent (invoke env client packetType) list buffer) ↔
        handlers.packetHandlerList.length ≤ 1 ∨
          ∀ h ∈ handlers.packetHandlerList,
            ReadsNothing (h env client buffer packetType) buffer :=
    Relay.forall_perm_independent_iff
  simp only [handlersIndependent_iff_relay]
  rw [← hperm]
  constructor
  · intro h list hlist
    exact h { handlers with packetHandlerList := list } hlist
  · intro h handlers' hlist
    exact h handlers'.packetHandlerList hlist

/-- A handler that reads some bytes. -/
def reader (n : ℕ) : PacketHandler S := fun _ _ buffer _ => pure (buffer.read n).2

/-- A handler that reads anything of the packet does not leave it to the others. -/
theorem readsNothing_reader_iff {n : ℕ} {env : HandlerEnv} {client : S} {packetType : Word}
    {buffer : FIFOBuffer} :
    ReadsNothing ((reader n : PacketHandler S) env client buffer packetType) buffer ↔
      n = 0 ∨ buffer.content = [] := by
  rw [ReadsNothing, reader, Logged.result_pure, Except.ok.injEq, read_eq_self_iff]

end ServerLoop

/-- In both loops: the handlers are independent of each other on a packet if and only if all but the
last return and read nothing of it; in every order of registration, if and only if there is at most
one handler or all return and read nothing. -/
theorem dispatch_independent_iff {H S W : Type} (env : HandlerEnv) (client : S) (packetType : Word)
    (buffer : FIFOBuffer) :
    (∀ handlers : List (ClientHandler H),
      (ClientLoop.HandlersIndependent handlers env packetType buffer ↔
        ∀ h ∈ handlers.dropLast, ReadsNothing (h env buffer packetType) buffer) ∧
      ((∀ handlers', handlers'.Perm handlers →
          ClientLoop.HandlersIndependent handlers' env packetType buffer) ↔
        handlers.length ≤ 1 ∨
          ∀ h ∈ handlers, ReadsNothing (h env buffer packetType) buffer)) ∧
    ∀ handlers : Handlers S W,
      (ServerLoop.HandlersIndependent handlers env client packetType buffer ↔
        ∀ h ∈ handlers.packetHandlerList.dropLast,
          ReadsNothing (h env client buffer packetType) buffer) ∧
      ((∀ handlers' : Handlers S W,
          handlers'.packetHandlerList.Perm handlers.packetHandlerList →
            ServerLoop.HandlersIndependent handlers' env client packetType buffer) ↔
        handlers.packetHandlerList.length ≤ 1 ∨
          ∀ h ∈ handlers.packetHandlerList,
            ReadsNothing (h env client buffer packetType) buffer) := by
  constructor
  · intro handlers
    exact ⟨ClientLoop.handlersIndependent_iff, ClientLoop.forall_perm_handlersIndependent_iff⟩
  · intro handlers
    exact ⟨ServerLoop.handlersIndependent_iff, ServerLoop.forall_perm_handlersIndependent_iff⟩

/-- The body of a MESSAGE with one letter, and two handlers that read the length or more of it. -/
theorem not_independent_of_readers :
    ¬ ClientLoop.HandlersIndependent [ClientLoop.reader (H := Unit) 4, ClientLoop.reader 6] .zero
      PacketType.message.word ((BoundedQueue.empty maxBufferLength).write [2, 0, 0, 0, 65, 0]) ∧
    ¬ ServerLoop.HandlersIndependent
      (⟨[ServerLoop.reader 4, ServerLoop.reader 6], none⟩ : Handlers Unit Unit) .zero ()
      PacketType.message.word ((BoundedQueue.empty maxBufferLength).write [2, 0, 0, 0, 65, 0]) := by
  constructor
  · intro h
    have hfirst := ClientLoop.handlersIndependent_iff.mp h _ List.mem_cons_self
    exact absurd (ClientLoop.readsNothing_reader_iff.mp hfirst) (by decide)
  · intro h
    have hfirst := ServerLoop.handlersIndependent_iff.mp h _ List.mem_cons_self
    exact absurd (ServerLoop.readsNothing_reader_iff.mp hfirst) (by decide)

end PocoEcho

import PocoEcho.Client.CClient
import PocoEcho.Library.Console

/-!
# The client's console

`CActionManager` of the client: `ShowHelp`, `GetAction` and `run`. When an empty message is entered,
`GetAction` calls itself, ignores the result and goes on with the empty message. The calls on the
network, of which none changes what the console does next if it returns, are left out.

## Main definitions

* `ClientConsole.getAction`, `ClientConsole.showHelp` and `ClientConsole.run`;
* `ClientConsole.MessageFollows`: a message that ends the nested calls of `GetAction`.

## Main results

* `ClientConsole.getAction_of_message` and `ClientConsole.getAction_of_blank`: a call of `GetAction`
  for a message, and for an empty one;
* `ClientConsole.describes_getAction`: what the actions do on a stream.
-/

namespace PocoEcho.ClientConsole

open Console

variable {σ : Type}

/-- What `GetAction` does, apart from reading. -/
inductive Report
  /-- A message has been entered. -/
  | entered (szMessage : CString)
  /-- A message is about to be stored, in place of what the members hold. -/
  | stored (manager : CActionManager)
  /-- `ListenAction` turns an action result into a frame. -/
  | framed (actionResult : List UInt8)
  /-- `GetAction` returns, and leaves the members like this. -/
  | returned (manager : CActionManager)

/-- The memory that nobody has initialised, or that nobody owns. -/
structure Memory where
  /-- What the array of a call of `GetAction` holds when nothing is read into it, by the depths of
  `ShowHelp` and of `GetAction`. -/
  stray : ℕ → ℕ → CString
  /-- The memory behind the array that is allocated for a message. -/
  behind : CString → List UInt8
  /-- What `ListenAction` reads of it is mapped. -/
  two_le : ∀ szMessage, 2 ≤ (behind szMessage).length

/-- The call of `ListenAction` at the end of `GetAction`, up to the frame: `poll` and `sendBytes`,
which follow, are taken to return. -/
def listenAction (manager : CActionManager) :
    Logged (Occurrence σ Report) (Stop Fault) CActionManager :=
  match CClient.listenAction manager with
  | .error fault => Logged.throw (.fault fault)
  | .ok (_, none, next) => return next
  | .ok (_, some _, next) => do
      let actionResult := manager.popActionResult.1.map fun p => p.2.1.data
      ⟨actionResult.toList.map fun result => .log (.framed result), .ok ()⟩
      return next

/-- What `GetAction` does with its message: the message is stored, and `ListenAction` is called. -/
def deliver (memory : Memory) (iAction : ℤ) (szMessage : CString)
    (session : Session σ CActionManager) :
    Logged (Occurrence σ Report) (Stop Fault) (Bool × Session σ CActionManager) := do
  Logged.emit (.log (.stored session.data))
  let manager := session.data.storeMessage szMessage (memory.behind szMessage)
  let manager ← listenAction (manager.setActionType iAction.toNat)
  Logged.emit (.log (.returned manager))
  return (true, { session with data := manager })

/-- `GetAction`, with at most `fuel` nested calls; `nested` of them are in progress. The
`Disconnect` in front of `exit` is taken to return. -/
def getAction (console : Console σ) (memory : Memory) (depth : ℕ) :
    ℕ → ℕ → ℤ → Session σ CActionManager →
      Logged (Occurrence σ Report) (Stop Fault) (Bool × Session σ CActionManager)
  | _, 0, _, _ => Logged.throw .outOfFuel
  | nested, fuel + 1, iAction, session =>
      if iAction = 1 then do
        let (szMessage, input) ←
          readArray console 256 .accessViolation (memory.stray depth nested) session.input
        Logged.emit (.log (.entered szMessage))
        let iMessageLength := szMessage.chars.length
        if iMessageLength = 0 then
          Logged.emit (.again session.input input)
          -- the result is ignored, and this call goes on with its own empty message
          let (_, next) ← getAction console memory depth (nested + 1) fuel 1 { session with input }
          deliver memory iAction szMessage next
        else deliver memory iAction szMessage { session with input }
      else if iAction = 2 then Logged.throw .exit
      else do
        Logged.emit (.log (.returned session.data))
        return (false, session)

/-- `ShowHelp`, with at most `fuel` nested calls. -/
def showHelp (console : Console σ) (memory : Memory) (fuel depth : ℕ)
    (session : Session σ CActionManager) :
    Logged (Occurrence σ Report) (Stop Fault) (Session σ CActionManager) :=
  ask console (fun depth => getAction console memory depth 0) fuel depth session

/-- `run`, with at most `fuel` calls of `ShowHelp`. -/
def run (console : Console σ) (memory : Memory) :
    ℕ → Session σ CActionManager →
      Logged (Occurrence σ Report) (Stop Fault) (Session σ CActionManager)
  | 0, _ => Logged.throw .outOfFuel
  | fuel + 1, session => do
      let session ← showHelp console memory fuel 0 session
      run console memory fuel session

/-- A stored message is turned into a frame, and the members are as the constructor leaves them. -/
theorem listenAction_storeMessage (memory : Memory) (manager : CActionManager)
    (szMessage : CString) :
    (listenAction ((manager.storeMessage szMessage (memory.behind szMessage)).setActionType 1) :
      Logged (Occurrence σ Report) (Stop Fault) CActionManager) =
      ⟨[.log (.framed szMessage.terminated)], .ok .new⟩ := by
  have hmapped : min (szMessage.chars.length + 3) (maxBufferLength - 8) ≤
      szMessage.chars.length + 1 + (memory.behind szMessage).length := by
    have := memory.two_le szMessage
    omega
  obtain ⟨buffer, hlisten, -⟩ := CClient.listenAction_storeMessage manager szMessage hmapped
  unfold listenAction
  rw [hlisten]
  rfl

/-- A message is stored, framed and forgotten. -/
theorem deliver_one (memory : Memory) (szMessage : CString) (session : Session σ CActionManager) :
    deliver memory 1 szMessage session =
      ⟨[.log (.stored session.data), .log (.framed szMessage.terminated), .log (.returned .new)],
        .ok (true, { session with data := .new })⟩ := by
  show (Logged.emit _ >>= fun _ =>
    listenAction ((session.data.storeMessage szMessage (memory.behind szMessage)).setActionType 1)
      >>= _) = _
  rw [listenAction_storeMessage]
  rfl

section
variable {console : Console σ} {memory : Memory} {depth nested fuel : ℕ}
  {session : Session σ CActionManager} {input : σ}

/-- A message that is not empty is delivered. -/
theorem getAction_of_message {token : List UInt8}
    (hread : console.readToken session.input = some (some token, input))
    (hlt : token.length < 256) (hne : (CString.ofPrefix token).chars ≠ []) :
    getAction console memory depth nested (fuel + 1) 1 session =
      ⟨[.log (.entered (.ofPrefix token)), .log (.stored session.data),
        .log (.framed (CString.ofPrefix token).terminated), .log (.returned .new)],
        .ok (true, { input, data := .new })⟩ := by
  have hlength : (CString.ofPrefix token).chars.length ≠ 0 := mt List.length_eq_zero_iff.mp hne
  unfold getAction
  rw [if_pos rfl, readArray_of_lt hread hlt, pure_bind]
  dsimp only
  rw [if_neg hlength, deliver_one]
  rfl

/-- An empty message is delivered after a nested call. -/
theorem getAction_of_blank {szMessage : CString}
    (hread : (readArray console 256 .accessViolation (memory.stray depth nested) session.input :
      Logged (Occurrence σ Report) (Stop Fault) _) = pure (szMessage, input))
    (hblank : szMessage.chars = []) :
    getAction console memory depth nested (fuel + 1) 1 session =
      ⟨[.log (.entered szMessage), .again session.input input], .ok ()⟩ >>= fun _ =>
        getAction console memory depth (nested + 1) fuel 1 { session with input } >>= fun p =>
          deliver memory 1 szMessage p.2 := by
  have hlength : szMessage.chars.length = 0 := List.length_eq_zero_iff.mpr hblank
  conv_lhs => unfold getAction
  rw [if_pos rfl, hread, pure_bind]
  dsimp only
  rw [if_pos hlength]
  rfl

/-- A message that is too long overflows the array. -/
theorem getAction_of_overflow {token : List UInt8}
    (hread : console.readToken session.input = some (some token, input))
    (hle : 256 ≤ token.length) :
    getAction console memory depth nested (fuel + 1) 1 session =
      Logged.throw (.fault .accessViolation) := by
  unfold getAction
  rw [if_pos rfl, readArray_of_le hread hle]
  rfl

end

/-- The stream begins with tokens that are empty strings, followed by a message; all of them fit the
array. -/
inductive MessageFollows : Istream → Prop
  /-- A message. -/
  | message {stream : Istream} {token : List UInt8} (htoken : stream.readToken.1 = some token)
      (hlt : token.length < 256) (hne : (CString.ofPrefix token).chars ≠ []) :
      MessageFollows stream
  /-- An empty string. -/
  | blank {stream : Istream} {token : List UInt8} (htoken : stream.readToken.1 = some token)
      (hlt : token.length < 256) (hblank : (CString.ofPrefix token).chars = [])
      (hnext : MessageFollows stream.readToken.2) : MessageFollows stream

/-- The action is performed, or ends the program. -/
def Accepts (iAction : ℤ) (session : Session Istream CActionManager) : Prop :=
  iAction = 2 ∨ iAction = 1 ∧ MessageFollows session.input

/-- The action is refused: there is no such action. -/
def Refuses (iAction : ℤ) (session next : Session Istream CActionManager) : Prop :=
  (iAction ≠ 1 ∧ iAction ≠ 2) ∧ next = session

/-- `GetAction` returns when a message follows. -/
theorem exists_getAction_of_follows {stream : Istream} (h : MessageFollows stream)
    (memory : Memory) (depth nested : ℕ) (data : CActionManager) :
    ∃ bound, ∀ fuel, bound ≤ fuel → ∃ next,
      (getAction ofIstream memory depth nested fuel 1 ⟨stream, data⟩).result =
        .ok (true, next) := by
  induction h generalizing nested data with
  | message htoken hlt hne =>
      apply exists_bound_of_succ 0
      intro fuel _
      rw [getAction_of_message (readToken_ofIstream htoken) hlt hne]
      exact ⟨_, rfl⟩
  | blank htoken hlt hblank _ ih =>
      obtain ⟨bound, hnested⟩ := ih (nested + 1) data
      apply exists_bound_of_succ bound
      intro fuel hfuel
      obtain ⟨next, hnext⟩ := hnested fuel hfuel
      rw [getAction_of_blank (readArray_of_lt (readToken_ofIstream htoken) hlt) hblank,
        Logged.mk_ok_bind, Logged.bind_of_ok hnext, deliver_one]
      exact ⟨_, rfl⟩

/-- When a message follows, `GetAction` calls itself after a token has been consumed. -/
theorem consumes_getAction_of_follows {stream : Istream} (h : MessageFollows stream)
    (memory : Memory) (depth nested fuel : ℕ) (data : CActionManager) :
    Consumes (getAction ofIstream memory depth nested fuel 1 ⟨stream, data⟩).log := by
  induction fuel generalizing stream nested data with
  | zero => exact consumes_nil
  | succ fuel ih =>
      cases h with
      | message htoken hlt hne =>
          rw [getAction_of_message (readToken_ofIstream htoken) hlt hne]
          intro before after hmem
          simp at hmem
      | blank htoken hlt hblank hnext =>
          have hconsumed : stream.readToken.2.unread.length < stream.unread.length := by
            rcases stream.readToken_cases with ⟨_, _, _, hlength⟩ | ⟨hnone, -⟩
            · exact hlength
            · rw [htoken] at hnone
              cases hnone
          rw [getAction_of_blank (readArray_of_lt (readToken_ofIstream htoken) hlt) hblank,
            Logged.mk_ok_bind]
          refine Consumes.append ?_ ?_
          · intro before after hmem
            obtain ⟨rfl, rfl⟩ : before = stream ∧ after = stream.readToken.2 := by simpa using hmem
            exact hconsumed
          · have hnested := ih hnext (nested + 1) data
            cases hresult : (getAction ofIstream memory depth (nested + 1) fuel 1
                ⟨stream.readToken.2, data⟩).result with
            | error stop => rwa [Logged.bind_of_error hresult]
            | ok p =>
                rw [Logged.bind_of_ok hresult, deliver_one]
                apply hnested.append
                intro before after hmem
                simp at hmem

/-- A call of `GetAction` for a message that returns has performed the action. -/
theorem fst_of_getAction_one {console : Console σ} {memory : Memory} {depth nested fuel : ℕ}
    {session : Session σ CActionManager} {p : Bool × Session σ CActionManager}
    (h : (getAction console memory depth nested fuel 1 session).result = .ok p) : p.1 = true := by
  cases fuel with
  | zero => cases h
  | succ fuel =>
      have hdeliver {szMessage : CString} {next : Session σ CActionManager}
          (hok : (deliver memory 1 szMessage next).result = .ok p) : p.1 = true := by
        rw [deliver_one] at hok
        rw [← Except.ok.inj hok]
      unfold getAction at h
      rw [if_pos rfl] at h
      obtain ⟨⟨szMessage, input⟩, -, h⟩ := Logged.exists_of_bind_ok h
      obtain ⟨_, -, h⟩ := Logged.exists_of_bind_ok h
      dsimp only at h
      split at h
      · obtain ⟨_, -, h⟩ := Logged.exists_of_bind_ok h
        obtain ⟨⟨_, next⟩, -, h⟩ := Logged.exists_of_bind_ok h
        exact hdeliver h
      · exact hdeliver h

/-- Memory in which the arrays of `GetAction` hold the empty string. -/
def Memory.blank : Memory :=
  { stray := fun _ _ => .empty
    behind := fun _ => [32, 32]
    two_le := fun _ => Nat.le_refl 2 }

instance : Nonempty Memory := ⟨.blank⟩

/-- No message follows on a stream that has failed. -/
theorem not_messageFollows_of_failed {stream : Istream} (h : stream.failed = true) :
    ¬ MessageFollows stream := by
  have hnone : stream.readToken.1 = none := by rw [Istream.readToken_of_failed h]
  rintro (⟨htoken, -, -⟩ | ⟨htoken, -, -, -⟩)
  · rw [hnone] at htoken
    cases htoken
  · rw [hnone] at htoken
    cases htoken

/-- Unless a message follows, `GetAction` does not return when its arrays hold empty strings. -/
theorem getAction_blank_of_not_follows {stream : Istream} (h : ¬ MessageFollows stream)
    (depth nested fuel : ℕ) (data : CActionManager) :
    ∃ stop, stop ≠ .exit ∧
      (getAction ofIstream .blank depth nested fuel 1 ⟨stream, data⟩).result = .error stop := by
  induction fuel generalizing stream nested data with
  | zero => exact ⟨.outOfFuel, by simp, rfl⟩
  | succ fuel ih =>
      -- the message of this call is empty, and none follows behind it
      have hnested {szMessage : CString} (hblank : szMessage.chars = [])
          (hread : (readArray ofIstream 256 .accessViolation (Memory.blank.stray depth nested)
            stream : Logged (Occurrence Istream Report) (Stop Fault) _) =
              pure (szMessage, stream.readToken.2))
          (hnext : ¬ MessageFollows stream.readToken.2) :
          ∃ stop, stop ≠ .exit ∧
            (getAction ofIstream .blank depth nested (fuel + 1) 1 ⟨stream, data⟩).result =
              .error stop := by
        obtain ⟨stop, hexit, hresult⟩ := ih hnext (nested + 1) data
        refine ⟨stop, hexit, ?_⟩
        rw [getAction_of_blank hread hblank, Logged.mk_ok_bind, Logged.bind_of_error hresult]
      rcases stream.readToken_cases with ⟨token, htoken, -⟩ | ⟨hnone, hfailed, -⟩
      · rcases Nat.lt_or_ge token.length 256 with hlt | hle
        · have hblank : (CString.ofPrefix token).chars = [] := by
            by_contra hne
            exact h (.message htoken hlt hne)
          exact hnested hblank (readArray_of_lt (readToken_ofIstream htoken) hlt)
            fun hnext => h (.blank htoken hlt hblank hnext)
        · refine ⟨.fault .accessViolation, by simp, ?_⟩
          rw [getAction_of_overflow (readToken_ofIstream htoken) hle, Logged.result_throw]
      · exact hnested rfl (readArray_of_none (readToken_ofIstream hnone))
          (not_messageFollows_of_failed hfailed)

/-- An action other than 1 and 2 is refused. -/
theorem getAction_of_unknown {console : Console σ} {memory : Memory} {depth nested fuel : ℕ}
    {iAction : ℤ} {session : Session σ CActionManager} (hone : iAction ≠ 1) (htwo : iAction ≠ 2) :
    getAction console memory depth nested (fuel + 1) iAction session =
      ⟨[.log (.returned session.data)], .ok (false, session)⟩ := by
  unfold getAction
  rw [if_neg hone, if_neg htwo]
  rfl

/-- What the actions of the client do on a stream. -/
theorem describes_getAction :
    Describes Accepts Refuses
      (fun memory depth => getAction ofIstream memory depth 0) where
  of_zero memory depth fuel session := by
    cases fuel with
    | zero => exact ⟨by simp [getAction], fun p hp => by cases hp⟩
    | succ fuel =>
        rw [getAction_of_unknown (by decide) (by decide)]
        exact ⟨by simp, fun p hp => (Except.ok.inj hp).symm⟩
  of_accepts iAction session haccepts memory depth := by
    rcases haccepts with rfl | ⟨rfl, hfollows⟩
    · have hexit (fuel : ℕ) : getAction ofIstream memory depth 0 (fuel + 1) 2 session =
          Logged.throw .exit := rfl
      constructor
      · apply exists_bound_of_succ 0
        intro fuel _
        exact .inr (by rw [hexit, Logged.result_throw])
      · intro fuel
        cases fuel with
        | zero => exact ⟨consumes_nil, fun p hp => by cases hp⟩
        | succ fuel =>
            rw [hexit]
            exact ⟨consumes_nil, fun p hp => by cases hp⟩
    · constructor
      · obtain ⟨bound, hreturns⟩ :=
          exists_getAction_of_follows hfollows memory depth 0 session.data
        refine ⟨bound, fun fuel hfuel => ?_⟩
        obtain ⟨next, hok⟩ := hreturns fuel hfuel
        exact .inl ⟨_, hok⟩
      · intro fuel
        exact ⟨consumes_getAction_of_follows hfollows memory depth 0 fuel session.data,
          fun p hp => fst_of_getAction_one hp⟩
  of_refuses iAction session next hrefuses memory depth := by
    obtain ⟨⟨hone, htwo⟩, rfl⟩ := hrefuses
    constructor
    · apply exists_bound_of_succ 0
      intro fuel _
      rw [getAction_of_unknown hone htwo]
      exact ⟨_, rfl⟩
    · intro fuel
      cases fuel with
      | zero => exact ⟨consumes_nil, by simp [getAction], fun p hp => by cases hp⟩
      | succ fuel =>
          rw [getAction_of_unknown hone htwo]
          refine ⟨?_, by simp, fun p hp => (Except.ok.inj hp).symm⟩
          intro before after hmem
          simp at hmem
  length_le iAction session next hrefuses := by
    rw [hrefuses.2]
  otherwise iAction session haccepts hrefuses depth := by
    have htwo : iAction ≠ 2 := fun h => haccepts (.inl h)
    have hone : iAction = 1 := by
      by_contra hone
      exact hrefuses session ⟨⟨hone, htwo⟩, rfl⟩
    subst hone
    have hfollows : ¬ MessageFollows session.input := fun h => haccepts (.inr ⟨rfl, h⟩)
    refine ⟨.blank, fun fuel => ?_⟩
    obtain ⟨stop, hexit, hresult⟩ :=
      getAction_blank_of_not_follows hfollows depth 0 fuel session.data
    show (getAction ofIstream .blank depth 0 fuel 1 session).result ≠ _ ∧ _
    rw [hresult]
    exact ⟨fun h => hexit (Except.error.inj h), fun p hp => by cases hp⟩

end PocoEcho.ClientConsole

import PocoEcho.Client.Console

/-!
# Entered messages and frames

`GetAction` and `PopActionResult` hand messages over one at a time. When an empty message is
entered, the user is asked again by a nested call of `GetAction`; when this has delivered its
message, each of the calls around it delivers its empty one.

## Main definitions

* `Answers`: the action numbers and message tokens that a user gives when asked;
* `ClientConsole.Delivers`: what is expected of a session;
* `ClientConsole.EntersMessages`: the tokens that are entered as messages are sendable.

## Main results

* `deliversOnce_iff_entersMessages`: when each message is sent once, and nothing else is sent.
-/

/-- The answers of a user who is asked for numbers and for tokens. -/
structure Answers where
  /-- The numbers. -/
  numbers : List ℤ
  /-- The tokens. -/
  tokens : List (List UInt8)

namespace Console

/-- The console whose input are the answers of a user, who is waited for when they are used up. -/
def ofAnswers : Console Answers :=
  { readInt := fun answers =>
      match answers.numbers with
      | [] => none
      | n :: numbers => some (n, { answers with numbers })
    readToken := fun answers =>
      match answers.tokens with
      | [] => none
      | token :: tokens => some (some token, { answers with tokens }) }

end Console

namespace PocoEcho.ClientConsole

open Console

variable {σ α β : Type}

/-- The message that is entered. -/
def enteredMessage : Occurrence σ Report → Option CString
  | .log (.entered szMessage) => some szMessage
  | _ => none

/-- The action result that is turned into a frame. -/
def framedResult : Occurrence σ Report → Option (List UInt8)
  | .log (.framed actionResult) => some actionResult
  | _ => none

/-- No action result is pending. -/
def Idle (manager : CActionManager) : Prop :=
  manager.actionResult = none ∧ manager.actionResultSize = 0

/-- The action results that are turned into frames are the messages that have been entered, except
the empty ones; no result is pending when one is stored or `GetAction` returns; and nothing
undefined happens. -/
structure Delivers (x : Logged (Occurrence σ Report) (Stop Fault) α) : Prop where
  /-- Each message is sent once, in order. -/
  framed_eq : x.log.filterMap framedResult =
    ((x.log.filterMap enteredMessage).filter (·.chars ≠ [])).map CString.terminated
  /-- No result is overwritten, or pending when `GetAction` returns. -/
  idle : ∀ manager, .log (.stored manager) ∈ x.log ∨ .log (.returned manager) ∈ x.log → Idle manager
  /-- Nothing undefined happens. -/
  no_fault : ∀ fault, x.result ≠ .error (.fault fault)

/-- The session of `run` with these answers, whatever the memory holds and wherever it is looked
at. -/
def DeliversOnce (answers : Answers) : Prop :=
  ∀ memory fuel, Delivers (run ofAnswers memory fuel { input := answers, data := .new })

/-- The number of times that a message is asked for, if no empty one is entered. -/
def messageCount : List ℤ → ℕ
  | [] => 0
  | iAction :: numbers =>
      if iAction = 2 then 0
      else if iAction = 1 then messageCount numbers + 1
      else messageCount numbers

/-- A token that fits the array and is not empty as a C string. -/
def Sendable (token : List UInt8) : Prop := token.length < 256 ∧ (CString.ofPrefix token).chars ≠ []

/-- A token that fits the array and is empty as a C string. -/
def Blank (token : List UInt8) : Prop := token.length < 256 ∧ (CString.ofPrefix token).chars = []

instance (token : List UInt8) : Decidable (Sendable token) := inferInstanceAs (Decidable (_ ∧ _))

instance (token : List UInt8) : Decidable (Blank token) := inferInstanceAs (Decidable (_ ∧ _))

/-- The first tokens are sendable, up to one from which on all tokens are blank. -/
def EntersMessages : ℕ → List (List UInt8) → Prop
  | 0, _ => True
  | _ + 1, [] => True
  | n + 1, token :: tokens =>
      Sendable token ∧ EntersMessages n tokens ∨ ∀ t ∈ token :: tokens, Blank t

/-- What a sequence of computations delivers. -/
theorem Delivers.bind {x : Logged (Occurrence σ Report) (Stop Fault) α}
    {f : α → Logged (Occurrence σ Report) (Stop Fault) β} (hx : Delivers x)
    (hf : ∀ a, x.result = .ok a → Delivers (f a)) : Delivers (x >>= f) := by
  cases hresult : x.result with
  | error stop =>
      rw [Logged.bind_of_error hresult]
      refine ⟨hx.framed_eq, hx.idle, fun fault h => ?_⟩
      obtain rfl := Except.error.inj h
      exact hx.no_fault fault hresult
  | ok a =>
      have ha := hf a hresult
      rw [Logged.bind_of_ok hresult]
      refine ⟨?_, ?_, ha.no_fault⟩
      · simp only [List.filterMap_append, List.filter_append, List.map_append, hx.framed_eq,
          ha.framed_eq]
      · intro manager hmem
        simp only [List.mem_append] at hmem
        rcases hmem with (h | h) | (h | h)
        · exact hx.idle manager (.inl h)
        · exact ha.idle manager (.inl h)
        · exact hx.idle manager (.inr h)
        · exact ha.idle manager (.inr h)

/-- When the first part of a sequence delivers what is entered in it, so does the second one. -/
theorem Delivers.of_bind {x : Logged (Occurrence σ Report) (Stop Fault) α}
    {f : α → Logged (Occurrence σ Report) (Stop Fault) β} {a : α} (hx : Delivers x)
    (hresult : x.result = .ok a) (h : Delivers (x >>= f)) : Delivers (f a) := by
  rw [Logged.bind_of_ok hresult] at h
  refine ⟨?_, ?_, h.no_fault⟩
  · have hframed := h.framed_eq
    simp only [List.filterMap_append, List.filter_append, List.map_append, hx.framed_eq] at hframed
    exact List.append_cancel_left hframed
  · intro manager hmem
    apply h.idle manager
    exact hmem.imp (List.mem_append_right _) (List.mem_append_right _)

/-- A computation that does nothing. -/
theorem delivers_pure (a : α) :
    Delivers (pure a : Logged (Occurrence σ Report) (Stop Fault) α) := by
  refine ⟨rfl, ?_, fun fault h => by cases h⟩
  rintro manager (h | h)
  · exact absurd h List.not_mem_nil
  · exact absurd h List.not_mem_nil

/-- A computation that ends at once, with nothing undefined. -/
theorem delivers_throw {stop : Stop Fault} (hfault : ∀ fault, stop ≠ .fault fault) :
    Delivers (Logged.throw stop : Logged (Occurrence σ Report) (Stop Fault) α) := by
  refine ⟨rfl, ?_, fun fault h => hfault fault (Except.error.inj h)⟩
  rintro manager (h | h)
  · exact absurd h List.not_mem_nil
  · exact absurd h List.not_mem_nil

/-- No frame is made of an empty message. -/
theorem Delivers.ne_nil_of_framed {x : Logged (Occurrence σ Report) (Stop Fault) α} (h : Delivers x)
    {szMessage : CString} (hframed : .log (.framed szMessage.terminated) ∈ x.log) :
    szMessage.chars ≠ [] := by
  have hmem : szMessage.terminated ∈ x.log.filterMap framedResult :=
    List.mem_filterMap.mpr ⟨_, hframed, rfl⟩
  rw [h.framed_eq] at hmem
  obtain ⟨szEntered, hentered, heq⟩ := List.mem_map.mp hmem
  have hne : szEntered.chars ≠ [] := by simpa using (List.mem_filter.mp hentered).2
  have hchars : szEntered.chars = szMessage.chars := List.append_cancel_right heq
  rwa [← hchars]

section
variable {memory : Memory} {depth nested fuel : ℕ} {numbers : List ℤ} {tokens : List (List UInt8)}
  {data : CActionManager}

/-- A call of `GetAction` for a sendable token. -/
theorem getAction_of_sendable {token : List UInt8} (h : Sendable token) :
    getAction ofAnswers memory depth nested (fuel + 1) 1 ⟨⟨numbers, token :: tokens⟩, data⟩ =
      ⟨[.log (.entered (.ofPrefix token)), .log (.stored data),
        .log (.framed (CString.ofPrefix token).terminated), .log (.returned .new)],
        .ok (true, ⟨⟨numbers, tokens⟩, .new⟩)⟩ :=
  getAction_of_message rfl h.1 h.2

/-- A call of `GetAction` for a blank token. -/
theorem getAction_of_blank_token {token : List UInt8} (h : Blank token) :
    getAction ofAnswers memory depth nested (fuel + 1) 1 ⟨⟨numbers, token :: tokens⟩, data⟩ =
      ⟨[.log (.entered (.ofPrefix token)), .again ⟨numbers, token :: tokens⟩ ⟨numbers, tokens⟩],
        .ok ()⟩ >>= fun _ =>
        getAction ofAnswers memory depth (nested + 1) fuel 1 ⟨⟨numbers, tokens⟩, data⟩ >>= fun p =>
          deliver memory 1 (.ofPrefix token) p.2 :=
  getAction_of_blank (readArray_of_lt rfl h.1) h.2

/-- A sendable token is delivered. -/
theorem delivers_of_sendable {token : List UInt8} (h : Sendable token) (hidle : Idle data) :
    Delivers (getAction ofAnswers memory depth nested (fuel + 1) 1
      ⟨⟨numbers, token :: tokens⟩, data⟩) := by
  rw [getAction_of_sendable h]
  refine ⟨?_, ?_, fun fault hfault => by cases hfault⟩
  · simp [List.filterMap_cons, framedResult, enteredMessage, h.2]
  · rintro manager (hmem | hmem)
    · obtain rfl : manager = data := by simpa using hmem
      exact hidle
    · obtain rfl : manager = .new := by simpa using hmem
      exact ⟨rfl, rfl⟩

/-- As long as there are blank tokens only, `GetAction` neither delivers anything nor returns. -/
theorem delivers_of_forall_blank (h : ∀ t ∈ tokens, Blank t) :
    Delivers (getAction ofAnswers memory depth nested fuel 1 ⟨⟨numbers, tokens⟩, data⟩) ∧
      ∀ p, (getAction ofAnswers memory depth nested fuel 1 ⟨⟨numbers, tokens⟩, data⟩).result ≠
        .ok p := by
  induction fuel generalizing nested tokens with
  | zero => exact ⟨delivers_throw (by simp), fun p hp => by cases hp⟩
  | succ fuel ih =>
      cases tokens with
      | nil =>
          have hwaiting : ∀ fault : Fault, Stop.waiting ≠ .fault fault := by
            simp
          exact ⟨delivers_throw hwaiting, fun p hp => by cases hp⟩
      | cons token tokens =>
          rw [List.forall_mem_cons] at h
          obtain ⟨hdelivers, hwaits⟩ := @ih (nested + 1) tokens h.2
          rw [getAction_of_blank_token h.1]
          constructor
          · refine Delivers.bind ⟨?_, ?_, fun fault hfault => by cases hfault⟩ fun _ _ =>
              hdelivers.bind fun p hp => absurd hp (hwaits p)
            · simp [List.filterMap_cons, framedResult, enteredMessage, h.1.2]
            · rintro manager (hmem | hmem) <;> simp at hmem
          · intro p hp
            obtain ⟨_, -, hp⟩ := Logged.exists_of_bind_ok hp
            obtain ⟨q, hq, -⟩ := Logged.exists_of_bind_ok hp
            exact hwaits q hq

end

/-- A call of itself delivers nothing. -/
theorem delivers_again (before after : σ) :
    Delivers (Logged.emit (.again before after) :
      Logged (Occurrence σ Report) (Stop Fault) Unit) := by
  refine ⟨rfl, ?_, fun fault h => by cases h⟩
  rintro manager (h | h) <;> simp at h

/-- An action that does not exist leaves everything as it is. -/
theorem delivers_of_unknown {memory : Memory} {depth nested fuel : ℕ} {iAction : ℤ}
    {session : Session Answers CActionManager} (hone : iAction ≠ 1) (htwo : iAction ≠ 2)
    (hidle : Idle session.data) :
    Delivers (getAction ofAnswers memory depth nested (fuel + 1) iAction session) := by
  rw [getAction_of_unknown hone htwo]
  refine ⟨rfl, ?_, fun fault hfault => by cases hfault⟩
  rintro manager (hmem | hmem)
  · simp at hmem
  · obtain rfl : manager = session.data := by simpa using hmem
    exact hidle

/-- A session in which no action result is pending, and the tokens are sendable as long as messages
are asked for. -/
def Ready (session : Session Answers CActionManager) : Prop :=
  session.data = .new ∧ EntersMessages (messageCount session.input.numbers) session.input.tokens

/-- What an action does in such a session. -/
theorem delivers_getAction {memory : Memory} {depth fuel : ℕ} {iAction : ℤ} {numbers : List ℤ}
    {tokens : List (List UInt8)} (h : EntersMessages (messageCount (iAction :: numbers)) tokens) :
    Delivers (getAction ofAnswers memory depth 0 fuel iAction ⟨⟨numbers, tokens⟩, .new⟩) ∧
      ∀ p, (getAction ofAnswers memory depth 0 fuel iAction ⟨⟨numbers, tokens⟩, .new⟩).result =
        .ok p → Ready p.2 := by
  cases fuel with
  | zero => exact ⟨delivers_throw (by simp), fun p hp => by cases hp⟩
  | succ fuel =>
      unfold messageCount at h
      by_cases htwo : iAction = 2
      · subst htwo
        exact ⟨delivers_throw (by simp : ∀ fault, Stop.exit ≠ .fault fault),
          fun p hp => by cases hp⟩
      rw [if_neg htwo] at h
      by_cases hone : iAction = 1
      · subst hone
        rw [if_pos rfl] at h
        cases tokens with
        | nil =>
            obtain ⟨hdelivers, hwaits⟩ := delivers_of_forall_blank (List.forall_mem_nil Blank)
            exact ⟨hdelivers, fun p hp => absurd hp (hwaits p)⟩
        | cons token tokens =>
            rcases h with ⟨hsendable, hrest⟩ | hblank
            · refine ⟨delivers_of_sendable hsendable ⟨rfl, rfl⟩, fun p hp => ?_⟩
              rw [getAction_of_sendable hsendable] at hp
              obtain rfl := Except.ok.inj hp
              exact ⟨rfl, hrest⟩
            · obtain ⟨hdelivers, hwaits⟩ := delivers_of_forall_blank hblank
              exact ⟨hdelivers, fun p hp => absurd hp (hwaits p)⟩
      · rw [if_neg hone] at h
        refine ⟨delivers_of_unknown hone htwo ⟨rfl, rfl⟩, fun p hp => ?_⟩
        rw [getAction_of_unknown hone htwo] at hp
        obtain rfl := Except.ok.inj hp
        exact ⟨rfl, h⟩

/-- What `ShowHelp` does in such a session. -/
theorem delivers_showHelp {memory : Memory} {fuel depth : ℕ}
    {session : Session Answers CActionManager} (h : Ready session) :
    Delivers (showHelp ofAnswers memory fuel depth session) ∧
      ∀ next, (showHelp ofAnswers memory fuel depth session).result = .ok next → Ready next := by
  unfold showHelp
  induction fuel generalizing depth session with
  | zero => exact ⟨delivers_throw (by simp), fun p hp => by cases hp⟩
  | succ fuel ih =>
      obtain ⟨⟨numbers, tokens⟩, data⟩ := session
      obtain ⟨rfl, henters⟩ := h
      cases numbers with
      | nil =>
          rw [ask_of_waiting rfl]
          exact ⟨delivers_throw (by simp), fun p hp => by cases hp⟩
      | cons iAction numbers =>
          obtain ⟨hdelivers, hready⟩ := delivers_getAction henters
          rw [ask_succ rfl]
          constructor
          · apply hdelivers.bind
            intro p hp
            split
            · exact delivers_pure p.2
            · exact (delivers_again _ _).bind fun _ _ => (ih (hready p hp)).1
          · intro next hnext
            obtain ⟨p, hp, hnext⟩ := Logged.exists_of_bind_ok hnext
            split at hnext
            · obtain rfl := Except.ok.inj hnext
              exact hready p hp
            · obtain ⟨_, -, hnext⟩ := Logged.exists_of_bind_ok hnext
              exact (ih (hready p hp)).2 next hnext

/-- What `run` does in such a session. -/
theorem delivers_run {memory : Memory} {fuel : ℕ} {session : Session Answers CActionManager}
    (h : Ready session) : Delivers (run ofAnswers memory fuel session) := by
  induction fuel generalizing session with
  | zero => exact delivers_throw (by simp)
  | succ fuel ih =>
      obtain ⟨hdelivers, hready⟩ := delivers_showHelp h
      exact hdelivers.bind fun next hnext => ih (hready next hnext)

/-- Of tokens that are not all blank, the first that is not blank ends the calls of `GetAction`: all
of them return, or it overflows the array. -/
theorem getAction_of_exists {memory : Memory} {depth : ℕ} {numbers : List ℤ}
    {tokens : List (List UInt8)} (h : ∃ t ∈ tokens, ¬ Blank t) :
    ∃ bound, ∀ fuel, bound ≤ fuel → ∀ nested data,
      (∃ fault, (getAction ofAnswers memory depth nested fuel 1 ⟨⟨numbers, tokens⟩, data⟩).result =
        .error (.fault fault)) ∨
      ∃ p, (getAction ofAnswers memory depth nested fuel 1 ⟨⟨numbers, tokens⟩, data⟩).result =
        .ok p := by
  induction tokens with
  | nil => simp at h
  | cons token tokens ih =>
      rcases Nat.lt_or_ge token.length 256 with hlt | hle
      · by_cases hblank : (CString.ofPrefix token).chars = []
        · -- the token is blank, so the one that is not is behind it
          have hrest : ∃ t ∈ tokens, ¬ Blank t := by
            obtain ⟨t, hmem, ht⟩ := h
            rcases List.mem_cons.mp hmem with rfl | hmem
            · exact absurd ⟨hlt, hblank⟩ ht
            · exact ⟨t, hmem, ht⟩
          obtain ⟨bound, hnested⟩ := ih hrest
          apply exists_bound_of_succ bound
          intro fuel hfuel nested data
          rw [getAction_of_blank_token ⟨hlt, hblank⟩, Logged.mk_ok_bind]
          rcases hnested fuel hfuel (nested + 1) data with ⟨fault, hfault⟩ | ⟨p, hp⟩
          · rw [Logged.bind_of_error hfault]
            exact .inl ⟨fault, rfl⟩
          · rw [Logged.bind_of_ok hp, deliver_one]
            exact .inr ⟨_, rfl⟩
        · apply exists_bound_of_succ 0
          intro fuel _ nested data
          rw [getAction_of_sendable ⟨hlt, hblank⟩]
          exact .inr ⟨_, rfl⟩
      · apply exists_bound_of_succ 0
        intro fuel _ nested data
        rw [getAction_of_overflow rfl hle, Logged.result_throw]
        exact .inl ⟨_, rfl⟩

/-- When a token is asked for that is not sendable, and not all are blank, what is expected of
`GetAction` and of what follows is not done. -/
theorem not_delivers_of_unsendable {memory : Memory} {depth : ℕ} {numbers : List ℤ}
    {token : List UInt8} {tokens : List (List UInt8)} (hunsendable : ¬ Sendable token)
    (h : ∃ t ∈ token :: tokens, ¬ Blank t) :
    ∃ bound, ∀ fuel, bound ≤ fuel → ∀ data,
      ∀ f : Bool × Session Answers CActionManager →
          Logged (Occurrence Answers Report) (Stop Fault) α,
        ¬ Delivers (getAction ofAnswers memory depth 0 fuel 1 ⟨⟨numbers, token :: tokens⟩, data⟩ >>=
          f) := by
  obtain ⟨bound, hbound⟩ := @getAction_of_exists memory depth numbers _ h
  apply exists_bound_of_succ bound
  intro fuel hfuel data f hdelivers
  rcases hbound (fuel + 1) (Nat.le_succ_of_le hfuel) 0 data with ⟨fault, hfault⟩ | ⟨p, hp⟩
  · rw [Logged.bind_of_error hfault] at hdelivers
    exact hdelivers.no_fault fault rfl
  · have hlt : token.length < 256 := by
      by_contra hle
      rw [getAction_of_overflow rfl (Nat.le_of_not_lt hle)] at hp
      cases hp
    have hblank : Blank token := ⟨hlt, by_contra fun hne => hunsendable ⟨hlt, hne⟩⟩
    rw [Logged.bind_of_ok hp] at hdelivers
    refine hdelivers.ne_nil_of_framed (List.mem_append_left _ ?_) hblank.2
    -- behind the nested calls, the message of the first call is delivered
    rw [getAction_of_blank_token hblank, Logged.mk_ok_bind] at hp ⊢
    obtain ⟨q, hq, -⟩ := Logged.exists_of_bind_ok hp
    rw [Logged.bind_of_ok hq, deliver_one]
    simp

/-- Unless the tokens are sendable as long as messages are asked for, the session does not do what
is expected of it. -/
theorem not_delivers_session {numbers : List ℤ} {tokens : List (List UInt8)}
    (h : ¬ EntersMessages (messageCount numbers) tokens) (memory : Memory) (depth : ℕ) :
    ∃ bound, ∀ fuel rounds, bound ≤ fuel → bound ≤ rounds →
      ¬ Delivers (showHelp ofAnswers memory fuel depth ⟨⟨numbers, tokens⟩, .new⟩ >>=
        run ofAnswers memory rounds) := by
  induction numbers generalizing tokens depth with
  | nil => exact absurd trivial h
  | cons iAction numbers ih =>
      unfold messageCount at h
      by_cases htwo : iAction = 2
      · rw [if_pos htwo] at h
        exact absurd trivial h
      rw [if_neg htwo] at h
      by_cases hone : iAction = 1
      · subst hone
        rw [if_pos rfl] at h
        cases tokens with
        | nil => exact absurd trivial h
        | cons token tokens =>
            obtain ⟨hfirst, hnotBlank⟩ := not_or.mp h
            by_cases hsendable : Sendable token
            · -- the message is delivered, and `run` calls `ShowHelp` again
              obtain ⟨bound, hbound⟩ := ih (fun hrest => hfirst ⟨hsendable, hrest⟩) 0
              refine ⟨bound + 2, fun fuel rounds hfuel hrounds hdelivers => ?_⟩
              obtain ⟨fuel, rfl⟩ := Nat.exists_eq_add_of_le' (by omega : 2 ≤ fuel)
              obtain ⟨rounds, rfl⟩ := Nat.exists_eq_add_one.mpr (by omega : 0 < rounds)
              rw [showHelp, ask_succ rfl, bind_assoc] at hdelivers
              have hrest := (delivers_of_sendable hsendable ⟨rfl, rfl⟩).of_bind
                (by rw [getAction_of_sendable hsendable]) hdelivers
              exact hbound rounds rounds (by omega) (by omega) hrest
            · have hexists : ∃ t ∈ token :: tokens, ¬ Blank t := by
                simpa only [not_forall, exists_prop] using hnotBlank
              obtain ⟨bound, hbound⟩ := not_delivers_of_unsendable hsendable hexists
              refine ⟨bound + 1, fun fuel rounds hfuel _ hdelivers => ?_⟩
              obtain ⟨fuel, rfl⟩ := Nat.exists_eq_add_one.mpr (by omega : 0 < fuel)
              rw [showHelp, ask_succ rfl, bind_assoc] at hdelivers
              exact hbound fuel (by omega) .new _ hdelivers
      · -- `ShowHelp` calls itself
        rw [if_neg hone] at h
        obtain ⟨bound, hbound⟩ := ih h (depth + 1)
        refine ⟨bound + 2, fun fuel rounds hfuel hrounds hdelivers => ?_⟩
        obtain ⟨fuel, rfl⟩ := Nat.exists_eq_add_of_le' (by omega : 2 ≤ fuel)
        rw [showHelp, ask_succ rfl, bind_assoc] at hdelivers
        have hagain := (delivers_of_unknown hone htwo ⟨rfl, rfl⟩).of_bind
          (by rw [getAction_of_unknown hone htwo]) hdelivers
        rw [if_neg Bool.false_ne_true, bind_assoc] at hagain
        have hrest := (delivers_again _ _).of_bind rfl hagain
        exact hbound (fuel + 1) rounds (by omega) (by omega) hrest

/-- Each message is sent once, and nothing else is sent, if and only if every token that is entered
as a message is sendable, or nothing but blank tokens follow from it on. -/
theorem deliversOnce_iff_entersMessages (answers : Answers) :
    DeliversOnce answers ↔ EntersMessages (messageCount answers.numbers) answers.tokens := by
  constructor
  · intro h
    by_contra hnot
    obtain ⟨bound, hbound⟩ := not_delivers_session hnot .blank 0
    exact hbound bound bound (Nat.le_refl _) (Nat.le_refl _) (h .blank (bound + 1))
  · intro h memory fuel
    exact delivers_run ⟨rfl, h⟩

/-- A message that begins with NUL is entered, then the letter A: an empty message is sent behind
it. -/
theorem not_deliversOnce_of_nul : ¬ DeliversOnce ⟨[1], [[0], [65]]⟩ := by
  intro h
  exact absurd (h .blank 4).framed_eq (by decide)

end PocoEcho.ClientConsole

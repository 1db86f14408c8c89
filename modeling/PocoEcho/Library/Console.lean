import PocoEcho.Library.CharArray
import PocoEcho.Library.Istream
import PocoEcho.Library.Logged

/-!
# Console prompts

A prompt reads the number of an action, performs the action, and calls itself when the action is
refused. Nothing but the input that is consumed bounds the depth of these calls, and a stream that
has failed is never consumed again.

## Main definitions

* `Console`: where the answers of a user come from;
* `Console.ask`: the prompt;
* `Console.Settles`: an input on which refused actions are followed by one that is not.

## Main results

* `Console.ends_ask_iff`: the prompt ends, and every call of itself is made after a character has
  been consumed, if and only if the input settles it.
-/

/-- Where numbers and tokens come from; `none` if the user is waited for in vain. -/
structure Console (σ : Type) where
  /-- `operator>>` into an `int`. -/
  readInt : σ → Option (ℤ × σ)
  /-- `operator>>` into an array; no token if the extraction fails. -/
  readToken : σ → Option (Option (List UInt8) × σ)

namespace Console

/-- Why a program with a console does not go on. -/
inductive Stop (φ : Type)
  /-- `exit` is called. -/
  | exit
  /-- It waits for the user. -/
  | waiting
  /-- Something undefined happens. -/
  | fault (fault : φ)
  /-- The number of nested calls is exhausted. -/
  | outOfFuel
  deriving DecidableEq

/-- What happens at the console. -/
inductive Occurrence (σ ε : Type)
  /-- A function calls itself; the input when it was called and now. -/
  | again (before after : σ)
  /-- Anything else. -/
  | log (event : ε)
  deriving DecidableEq

/-- The input and the other data of the program. -/
structure Session (σ M : Type) where
  /-- The input. -/
  input : σ
  /-- The other data. -/
  data : M

/-- The console whose input is a stream that ends. -/
def ofIstream : Console Istream :=
  { readInt := fun stream => some stream.readInt
    readToken := fun stream => some stream.readToken }

variable {σ ε φ M μ : Type}

/-- Read the number of an action. -/
def readAction (console : Console σ) (input : σ) : Logged (Occurrence σ ε) (Stop φ) (ℤ × σ) :=
  match console.readInt input with
  | none => Logged.throw .waiting
  | some (iAction, input) => return (iAction, input)

/-- Read a token into an array: the string that the array holds then. A token that does not fit
overflows the array, and an extraction that fails leaves what was there before. -/
def readArray (console : Console σ) (size : ℕ) (overflow : φ) (stray : CString) (input : σ) :
    Logged (Occurrence σ ε) (Stop φ) (CString × σ) :=
  match console.readToken input with
  | none => Logged.throw .waiting
  | some (none, input) => return (stray, input)
  | some (some token, input) =>
      if size ≤ token.length then Logged.throw (.fault overflow)
      else return (CString.ofPrefix token, input)

section
variable {console : Console σ} {size : ℕ} {overflow : φ} {stray : CString} {input input' : σ}

/-- A token that fits is the string that the array holds, up to the first NUL. -/
theorem readArray_of_lt {token : List UInt8}
    (h : console.readToken input = some (some token, input')) (hlt : token.length < size) :
    (readArray console size overflow stray input : Logged (Occurrence σ ε) (Stop φ) (CString × σ)) =
      pure (CString.ofPrefix token, input') := by
  simp only [readArray, h, if_neg (Nat.not_le.mpr hlt)]

/-- A longer token overflows the array. -/
theorem readArray_of_le {token : List UInt8}
    (h : console.readToken input = some (some token, input')) (hle : size ≤ token.length) :
    (readArray console size overflow stray input : Logged (Occurrence σ ε) (Stop φ) (CString × σ)) =
      Logged.throw (.fault overflow) := by
  simp only [readArray, h, if_pos hle]

/-- An extraction that fails leaves what the array has held before. -/
theorem readArray_of_none (h : console.readToken input = some (none, input')) :
    (readArray console size overflow stray input : Logged (Occurrence σ ε) (Stop φ) (CString × σ)) =
      pure (stray, input') := by
  simp only [readArray, h]

end

/-- What a stream gives for a number. -/
theorem readInt_ofIstream {stream : Istream} {n : ℤ} (h : stream.readInt.1 = n) :
    ofIstream.readInt stream = some (n, stream.readInt.2) := by
  rw [← h]
  rfl

/-- What a stream gives for a token. -/
theorem readToken_ofIstream {stream : Istream} {token : Option (List UInt8)}
    (h : stream.readToken.1 = token) :
    ofIstream.readToken stream = some (token, stream.readToken.2) := by
  rw [← h]
  rfl

/-- An action: it is given the depth of the prompt, the number of calls that may still be nested and
its own number, and says whether it has been performed. -/
abbrev Action (σ M ε φ : Type) :=
  ℕ → ℕ → ℤ → Session σ M → Logged (Occurrence σ ε) (Stop φ) (Bool × Session σ M)

/-- A prompt: it calls itself until an action has been performed. -/
def ask (console : Console σ) (act : Action σ M ε φ) :
    ℕ → ℕ → Session σ M → Logged (Occurrence σ ε) (Stop φ) (Session σ M)
  | 0, _, _ => Logged.throw .outOfFuel
  | fuel + 1, depth, session => do
      let (iAction, input) ← readAction console session.input
      let (performed, next) ← act depth fuel iAction { session with input }
      if performed then return next
      else do
        Logged.emit (.again session.input next.input)
        ask console act fuel (depth + 1) next

/-- The function returns or the program exits. -/
def Ends {α : Type} (result : Except (Stop φ) α) : Prop :=
  (∃ a, result = .ok a) ∨ result = .error .exit

/-- Whenever a function calls itself, a character has been consumed since it was called. -/
def Consumes (log : List (Occurrence Istream ε)) : Prop :=
  ∀ before after, Occurrence.again before after ∈ log → after.unread.length < before.unread.length

theorem consumes_nil : Consumes ([] : List (Occurrence Istream ε)) :=
  fun _ _ h => absurd h List.not_mem_nil

theorem Consumes.append {xs ys : List (Occurrence Istream ε)} (hxs : Consumes xs)
    (hys : Consumes ys) : Consumes (xs ++ ys) := by
  intro before after h
  exact (List.mem_append.mp h).elim (hxs before after) (hys before after)

section
variable (accepts : ℤ → Session Istream M → Prop)
  (refuses : ℤ → Session Istream M → Session Istream M → Prop)

/-- The input begins with numbers of actions that are refused, each with what the action reads, and
then has one of an action that is not. -/
inductive Settles : Session Istream M → Prop
  /-- The action is performed, or ends the program. -/
  | accepted {session : Session Istream M}
      (hread : session.input.readInt.2.failed = false)
      (haccepts : accepts session.input.readInt.1
        { session with input := session.input.readInt.2 }) :
      Settles session
  /-- The action is refused, and the input behind it settles the prompt. -/
  | refused {session next : Session Istream M}
      (hread : session.input.readInt.2.failed = false)
      (hrefuses : refuses session.input.readInt.1
        { session with input := session.input.readInt.2 } next)
      (hnext : Settles next) : Settles session

/-- What the actions of a program do on a stream, for each content `μ` of the memory that nobody has
initialised. -/
structure Describes (act : μ → Action Istream M ε φ) : Prop where
  /-- Zero is not the number of an action. -/
  of_zero : ∀ memory depth fuel session, (act memory depth fuel 0 session).result ≠ .error .exit ∧
    ∀ p, (act memory depth fuel 0 session).result = .ok p → p = (false, session)
  /-- An action that is performed. -/
  of_accepts : ∀ n session, accepts n session → ∀ memory depth,
    (∃ bound, ∀ fuel, bound ≤ fuel → Ends (act memory depth fuel n session).result) ∧
      ∀ fuel, Consumes (act memory depth fuel n session).log ∧
        ∀ p, (act memory depth fuel n session).result = .ok p → p.1 = true
  /-- An action that is refused. -/
  of_refuses : ∀ n session next, refuses n session next → ∀ memory depth,
    (∃ bound, ∀ fuel, bound ≤ fuel → ∃ p, (act memory depth fuel n session).result = .ok p) ∧
      ∀ fuel, Consumes (act memory depth fuel n session).log ∧
        (act memory depth fuel n session).result ≠ .error .exit ∧
          ∀ p, (act memory depth fuel n session).result = .ok p → p = (false, next)
  /-- An action that is refused does not return what it has read. -/
  length_le : ∀ n session next, refuses n session next →
    next.input.unread.length ≤ session.input.unread.length
  /-- Any other action ends in something undefined, or in an input that has failed, for some content
  of the memory. -/
  otherwise : ∀ n session, ¬ accepts n session → (∀ next, ¬ refuses n session next) →
    ∀ depth, ∃ memory, ∀ fuel, (act memory depth fuel n session).result ≠ .error .exit ∧
      ∀ p, (act memory depth fuel n session).result = .ok p → p.1 = false ∧ p.2.input.failed = true

end

section
variable {accepts : ℤ → Session Istream M → Prop}
  {refuses : ℤ → Session Istream M → Session Istream M → Prop}
  {act : μ → Action Istream M ε φ}

section
variable {console : Console σ} {action : Action σ M ε φ} {fuel depth : ℕ} {iAction : ℤ} {input : σ}
  {session next : Session σ M}

/-- A prompt whose user is waited for in vain. -/
theorem ask_of_waiting (hread : console.readInt session.input = none) :
    ask console action (fuel + 1) depth session = Logged.throw .waiting := by
  rw [ask, readAction, hread]
  rfl

/-- A round of the prompt: the action is performed, or the prompt calls itself. -/
theorem ask_succ (hread : console.readInt session.input = some (iAction, input)) :
    ask console action (fuel + 1) depth session =
      action depth fuel iAction { session with input } >>= fun p =>
        if p.1 then pure p.2
        else Logged.emit (.again session.input p.2.input) >>= fun _ =>
          ask console action fuel (depth + 1) p.2 := by
  rw [ask, readAction, hread]
  rfl

/-- The prompt ends with what ends the action. -/
theorem ask_of_error (hread : console.readInt session.input = some (iAction, input))
    {stop : Stop φ} (h : (action depth fuel iAction { session with input }).result = .error stop) :
    ask console action (fuel + 1) depth session =
      ⟨(action depth fuel iAction { session with input }).log, .error stop⟩ := by
  rw [ask_succ hread, Logged.bind_of_error h]

/-- The prompt returns when the action has been performed. -/
theorem ask_of_performed (hread : console.readInt session.input = some (iAction, input))
    (h : (action depth fuel iAction { session with input }).result = .ok (true, next)) :
    ask console action (fuel + 1) depth session =
      ⟨(action depth fuel iAction { session with input }).log, .ok next⟩ := by
  rw [ask_succ hread, Logged.bind_of_ok h]
  simp

/-- The prompt calls itself when the action has been refused. -/
theorem ask_of_refused (hread : console.readInt session.input = some (iAction, input))
    (h : (action depth fuel iAction { session with input }).result = .ok (false, next)) :
    ask console action (fuel + 1) depth session =
      ⟨(action depth fuel iAction { session with input }).log ++
          .again session.input next.input :: (ask console action fuel (depth + 1) next).log,
        (ask console action fuel (depth + 1) next).result⟩ := by
  rw [ask_succ hread, Logged.bind_of_ok h]
  rfl

end

/-- No input settles the prompt from which no number is extracted. -/
theorem not_settles_of_failed {session : Session Istream M}
    (h : session.input.readInt.2.failed = true) : ¬ Settles accepts refuses session := by
  rintro (⟨hread, -⟩ | ⟨hread, -, -⟩)
  · rw [h] at hread
    cases hread
  · rw [h] at hread
    cases hread

/-- What holds of the successors of all numbers from a bound on holds of all numbers from some bound
on. -/
theorem exists_bound_of_succ {p : ℕ → Prop} (bound : ℕ) (h : ∀ fuel, bound ≤ fuel → p (fuel + 1)) :
    ∃ bound, ∀ fuel, bound ≤ fuel → p fuel := by
  refine ⟨bound + 1, fun fuel hfuel => ?_⟩
  cases fuel with
  | zero => exact absurd hfuel (Nat.not_succ_le_zero bound)
  | succ fuel => exact h fuel (Nat.le_of_succ_le_succ hfuel)

theorem not_ends_outOfFuel {α : Type} : ¬ Ends (.error .outOfFuel : Except (Stop φ) α) := by
  rintro (⟨a, h⟩ | h)
  · cases h
  · cases h

/-- If the prompt ends, so does the action, and so does the prompt that follows a refusal. -/
theorem of_ends_ask {act : Action Istream M ε φ} {fuel depth : ℕ} {session : Session Istream M}
    (h : Ends (ask ofIstream act fuel depth session).result) :
    ∃ fuel', fuel = fuel' + 1 ∧
      ((act depth fuel' session.input.readInt.1
          { session with input := session.input.readInt.2 }).result = .error .exit ∨
        (∃ next, (act depth fuel' session.input.readInt.1
          { session with input := session.input.readInt.2 }).result = .ok (true, next)) ∨
        ∃ next, (act depth fuel' session.input.readInt.1
            { session with input := session.input.readInt.2 }).result = .ok (false, next) ∧
          Ends (ask ofIstream act fuel' (depth + 1) next).result) := by
  cases fuel with
  | zero => exact absurd h not_ends_outOfFuel
  | succ fuel =>
      refine ⟨fuel, rfl, ?_⟩
      cases hresult : (act depth fuel session.input.readInt.1
          { session with input := session.input.readInt.2 }).result with
      | error stop =>
          rw [ask_of_error rfl hresult] at h
          rcases h with ⟨a, h⟩ | h
          · cases h
          · exact .inl (by rw [Except.error.inj h])
      | ok p =>
          obtain ⟨performed, next⟩ := p
          cases performed with
          | true => exact .inr (.inl ⟨next, rfl⟩)
          | false =>
              rw [ask_of_refused rfl hresult] at h
              exact .inr (.inr ⟨next, rfl, h⟩)

/-- The prompt calls itself after a character has been consumed if the action does, and if one has
been consumed whenever the action is refused. -/
theorem consumes_ask_succ {act : Action Istream M ε φ} {fuel depth : ℕ}
    {session : Session Istream M}
    (haction : Consumes (act depth fuel session.input.readInt.1
      { session with input := session.input.readInt.2 }).log)
    (hagain : ∀ next, (act depth fuel session.input.readInt.1
        { session with input := session.input.readInt.2 }).result = .ok (false, next) →
      next.input.unread.length < session.input.unread.length ∧
        Consumes (ask ofIstream act fuel (depth + 1) next).log) :
    Consumes (ask ofIstream act (fuel + 1) depth session).log := by
  cases hresult : (act depth fuel session.input.readInt.1
      { session with input := session.input.readInt.2 }).result with
  | error stop =>
      rw [ask_of_error rfl hresult]
      exact haction
  | ok p =>
      obtain ⟨performed, next⟩ := p
      cases performed with
      | true =>
          rw [ask_of_performed rfl hresult]
          exact haction
      | false =>
          rw [ask_of_refused rfl hresult]
          obtain ⟨hlt, hnext⟩ := hagain next hresult
          apply haction.append
          intro before after hmem
          rcases List.mem_cons.mp hmem with heq | hmem
          · obtain ⟨rfl, rfl⟩ := Occurrence.again.inj heq
            exact hlt
          · exact hnext before after hmem

variable (hact : Describes accepts refuses act)
include hact

/-- A prompt on a stream that has failed does not end. -/
theorem not_ends_ask_of_failed (memory : μ) (fuel depth : ℕ) {session : Session Istream M}
    (hfailed : session.input.failed = true) :
    ¬ Ends (ask ofIstream (act memory) fuel depth session).result := by
  induction fuel generalizing depth with
  | zero => exact not_ends_outOfFuel
  | succ fuel ih =>
      have hround : act memory depth fuel session.input.readInt.1
          { session with input := session.input.readInt.2 } = act memory depth fuel 0 session := by
        rw [Istream.readInt_of_failed hfailed]
      obtain ⟨hexit, hok⟩ := hact.of_zero memory depth fuel session
      cases hresult : (act memory depth fuel 0 session).result with
      | error stop =>
          rw [← hround] at hresult
          rw [ask_of_error rfl hresult]
          rintro (⟨a, h⟩ | h)
          · cases h
          · obtain rfl := Except.error.inj h
            rw [hround] at hresult
            exact hexit hresult
      | ok p =>
          obtain rfl := hok p hresult
          rw [← hround] at hresult
          rw [ask_of_refused rfl hresult]
          exact ih (depth + 1)

/-- On an input that settles it, the prompt ends. -/
theorem ends_ask_of_settles {session : Session Istream M} (h : Settles accepts refuses session)
    (memory : μ) (depth : ℕ) :
    ∃ bound, ∀ fuel, bound ≤ fuel →
      Ends (ask ofIstream (act memory) fuel depth session).result := by
  induction h generalizing depth with
  | accepted hread haccepts =>
      obtain ⟨⟨bound, hends⟩, hlog⟩ := hact.of_accepts _ _ haccepts memory depth
      apply exists_bound_of_succ bound
      intro fuel hfuel
      rcases hends fuel hfuel with ⟨⟨performed, next⟩, hok⟩ | hexit
      · obtain rfl : performed = true := (hlog fuel).2 _ hok
        rw [ask_of_performed rfl hok]
        exact .inl ⟨next, rfl⟩
      · rw [ask_of_error rfl hexit]
        exact .inr rfl
  | refused hread hrefuses hnext ih =>
      obtain ⟨⟨bound, hreturns⟩, hlog⟩ := hact.of_refuses _ _ _ hrefuses memory depth
      obtain ⟨bound', hends⟩ := ih (depth + 1)
      apply exists_bound_of_succ (max bound bound')
      intro fuel hfuel
      obtain ⟨p, hok⟩ := hreturns fuel (by omega)
      obtain rfl := (hlog fuel).2.2 p hok
      rw [ask_of_refused rfl hok]
      exact hends fuel (by omega)

/-- On an input that settles it, the prompt calls itself after a character has been consumed. -/
theorem consumes_ask_of_settles {session : Session Istream M}
    (h : Settles accepts refuses session) (memory : μ) (fuel depth : ℕ) :
    Consumes (ask ofIstream (act memory) fuel depth session).log := by
  induction fuel generalizing session depth with
  | zero => exact consumes_nil
  | succ fuel ih =>
      cases h with
      | accepted hread haccepts =>
          obtain ⟨hconsumes, hperformed⟩ := (hact.of_accepts _ _ haccepts memory depth).2 fuel
          apply consumes_ask_succ hconsumes
          intro next hresult
          cases hperformed _ hresult
      | refused hread hrefuses hnext =>
          obtain ⟨hconsumes, -, hrefused⟩ := (hact.of_refuses _ _ _ hrefuses memory depth).2 fuel
          apply consumes_ask_succ hconsumes
          intro next hresult
          cases hrefused _ hresult
          refine ⟨?_, ih hnext (depth + 1)⟩
          -- the number of the action has been consumed
          have hle := hact.length_le _ _ _ hrefuses
          rcases session.input.readInt_cases with ⟨-, -, hlt⟩ | ⟨hfailed, -, -⟩
          · exact Nat.lt_of_le_of_lt hle hlt
          · rw [hread] at hfailed
            cases hfailed

/-- If the prompt ends whatever the memory holds, then the input settles it. -/
theorem settles_of_ends_ask [Nonempty μ] {session : Session Istream M} (depth : ℕ)
    (h : ∀ memory, ∃ fuel, Ends (ask ofIstream (act memory) fuel depth session).result) :
    Settles accepts refuses session := by
  induction hn : session.input.unread.length using Nat.strong_induction_on
    generalizing session depth with
  | _ n ih =>
      rcases session.input.readInt_cases with ⟨hread, -, hlt⟩ | ⟨hfailed, hzero, -⟩
      · by_cases haccepts :
            accepts session.input.readInt.1 { session with input := session.input.readInt.2 }
        · exact .accepted hread haccepts
        by_cases hrefuses : ∃ next,
            refuses session.input.readInt.1 { session with input := session.input.readInt.2 } next
        · obtain ⟨next, hrefuses⟩ := hrefuses
          have hle := hact.length_le _ _ _ hrefuses
          refine .refused hread hrefuses (ih _ (hn ▸ Nat.lt_of_le_of_lt hle hlt) (depth + 1) ?_ rfl)
          intro memory
          obtain ⟨fuel, hends⟩ := h memory
          obtain ⟨fuel, rfl, hexit | ⟨next', hok⟩ | ⟨next', hok, hnext⟩⟩ := of_ends_ask hends
          · exact absurd hexit ((hact.of_refuses _ _ _ hrefuses memory depth).2 fuel).2.1
          · cases ((hact.of_refuses _ _ _ hrefuses memory depth).2 fuel).2.2 _ hok
          · cases ((hact.of_refuses _ _ _ hrefuses memory depth).2 fuel).2.2 _ hok
            exact ⟨fuel, hnext⟩
        · -- the action is neither performed nor refused: some memory leads nowhere
          obtain ⟨memory, hmemory⟩ := hact.otherwise _ _ haccepts (not_exists.mp hrefuses) depth
          obtain ⟨fuel, hends⟩ := h memory
          obtain ⟨fuel, rfl, hexit | ⟨next', hok⟩ | ⟨next', hok, hnext⟩⟩ := of_ends_ask hends
          · exact absurd hexit (hmemory fuel).1
          · cases ((hmemory fuel).2 _ hok).1
          · have hfailed := ((hmemory fuel).2 _ hok).2
            exact absurd hnext (not_ends_ask_of_failed hact memory fuel (depth + 1) hfailed)
      · -- no number is read, so nothing is read any more
        obtain ⟨memory⟩ := ‹Nonempty μ›
        obtain ⟨fuel, hends⟩ := h memory
        obtain ⟨fuel, rfl, hround⟩ := of_ends_ask hends
        rw [hzero] at hround
        obtain ⟨hexit, hok⟩ := hact.of_zero memory depth fuel
          { session with input := session.input.readInt.2 }
        rcases hround with hexit' | ⟨next', hok'⟩ | ⟨next', hok', hnext⟩
        · exact absurd hexit' hexit
        · cases hok _ hok'
        · cases hok _ hok'
          exact absurd hnext (not_ends_ask_of_failed hact memory fuel (depth + 1) hfailed)

/-- The prompt ends whatever the memory holds, and every call of itself is made after a character
has been consumed, if and only if the input settles it. -/
theorem ends_ask_iff [Nonempty μ] {session : Session Istream M} :
    (∀ memory, (∃ fuel, Ends (ask ofIstream (act memory) fuel 0 session).result) ∧
      ∀ fuel, Consumes (ask ofIstream (act memory) fuel 0 session).log) ↔
      Settles accepts refuses session := by
  constructor
  · intro h
    exact settles_of_ends_ask hact 0 fun memory => (h memory).1
  · intro h memory
    obtain ⟨bound, hends⟩ := ends_ask_of_settles hact h memory 0
    exact ⟨⟨bound, hends bound (Nat.le_refl _)⟩, fun fuel =>
      consumes_ask_of_settles hact h memory fuel 0⟩

end

end Console

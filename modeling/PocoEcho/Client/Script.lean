import PocoEcho.Client.Mailbox
import PocoEcho.Library.Words

/-!
# Typed sessions of the client

What a user types from the start of the client to its end: the words of the text are numbers of
actions and messages, laid out in any way.

## Main definitions

* `ClientConsole.Script`: the words of a session, and the messages among them.

## Main results

* `ClientConsole.sends_script`: the client frames the messages of the session, and ends.
-/

namespace PocoEcho.ClientConsole

open Console Istream

/-- The words that are typed until the program ends, and the messages among them. -/
inductive Script : List (List UInt8) → List CString → Prop
  /-- The number of the action that ends the program; what follows is not read. -/
  | exit {word : List UInt8} {ws : List (List UInt8)} (hword : intOfWord word = some 2) :
      Script (word :: ws) []
  /-- The number of the action that sends a message, and the message. -/
  | message {word token : List UInt8} {ws : List (List UInt8)} {szMessages : List CString}
      (hword : intOfWord word = some 1) (htoken : Sendable token) (hnext : Script ws szMessages) :
      Script (word :: token :: ws) (.ofPrefix token :: szMessages)
  /-- A number that no action has. -/
  | unknown {word : List UInt8} {ws : List (List UInt8)} {szMessages : List CString} {iAction : ℤ}
      (hword : intOfWord word = some iAction) (hone : iAction ≠ 1) (htwo : iAction ≠ 2)
      (hnext : Script ws szMessages) : Script (word :: ws) szMessages

/-- The rest of the program, from a prompt on: it may call itself, and `run` goes on behind it. -/
def promptAndRun (memory : Memory) (fuel fuel' depth : ℕ) (stream : Istream) :
    Logged (Occurrence Istream Report) (Stop Fault) (Session Istream CActionManager) :=
  ask ofIstream (fun depth => getAction ofIstream memory depth 0) fuel depth
    { input := stream, data := .new } >>= run ofIstream memory fuel'

section
variable {memory : Memory} {fuel fuel' depth : ℕ} {stream : Istream}

/-- The program ends. -/
theorem promptAndRun_of_exit (hread : stream.readInt.1 = 2) :
    promptAndRun memory (fuel + 2) fuel' depth stream = Logged.throw .exit := by
  have hint := readInt_ofIstream hread
  rw [promptAndRun, ask_of_error hint rfl]
  rfl

/-- A message is sent, and the next prompt follows. -/
theorem promptAndRun_of_message {token : List UInt8} (hread : stream.readInt.1 = 1)
    (htoken : stream.readInt.2.readToken.1 = some token) (hsendable : Sendable token) :
    promptAndRun memory (fuel + 2) (fuel' + 1) depth stream =
      ⟨[.log (.entered (.ofPrefix token)), .log (.stored .new),
          .log (.framed (CString.ofPrefix token).terminated), .log (.returned .new)] ++
        (promptAndRun memory fuel' fuel' 0 stream.readInt.2.readToken.2).log,
        (promptAndRun memory fuel' fuel' 0 stream.readInt.2.readToken.2).result⟩ := by
  have hint := readInt_ofIstream hread
  rw [promptAndRun, ask_succ hint]
  dsimp only
  rw [getAction_of_message (readToken_ofIstream htoken) hsendable.1 hsendable.2]
  rfl

/-- The prompt is repeated. -/
theorem promptAndRun_of_unknown {iAction : ℤ} (hread : stream.readInt.1 = iAction)
    (hone : iAction ≠ 1) (htwo : iAction ≠ 2) :
    promptAndRun memory (fuel + 2) fuel' depth stream =
      ⟨[.log (.returned .new), .again stream stream.readInt.2] ++
        (promptAndRun memory (fuel + 1) fuel' (depth + 1) stream.readInt.2).log,
        (promptAndRun memory (fuel + 1) fuel' (depth + 1) stream.readInt.2).result⟩ := by
  have hint := readInt_ofIstream hread
  rw [promptAndRun, ask_of_refused hint (by rw [getAction_of_unknown hone htwo]),
    getAction_of_unknown hone htwo, List.append_cons, Logged.mk_append_bind]
  rfl

end

/-- From a prompt on, the messages of the script are sent, and the program ends. -/
theorem sends_of_prompt {ws : List (List UInt8)} {szMessages : List CString}
    (h : Script ws szMessages) (memory : Memory) {stream : Istream} (hoffers : stream.Offers ws)
    (depth : ℕ) : ∃ bound, ∀ fuel fuel', bound ≤ fuel → bound ≤ fuel' →
      (promptAndRun memory fuel fuel' depth stream).result = .error .exit ∧
        (promptAndRun memory fuel fuel' depth stream).log.filterMap framedResult =
          szMessages.map CString.terminated := by
  induction h generalizing stream depth with
  | exit hword =>
      obtain ⟨hint, -⟩ := hoffers.readInt hword
      refine ⟨2, fun fuel fuel' hfuel _ => ?_⟩
      obtain ⟨fuel, rfl⟩ := Nat.exists_eq_add_of_le' hfuel
      rw [promptAndRun_of_exit hint]
      exact ⟨rfl, rfl⟩
  | message hword hsendable _ ih =>
      obtain ⟨hint, hoffers⟩ := hoffers.readInt hword
      obtain ⟨htoken, hoffers⟩ := hoffers.readToken
      obtain ⟨bound, hsends⟩ := ih hoffers 0
      refine ⟨bound + 2, fun fuel fuel' hfuel hfuel' => ?_⟩
      obtain ⟨fuel, rfl⟩ := Nat.exists_eq_add_of_le' (Nat.le_of_add_left_le hfuel)
      obtain ⟨fuel', rfl⟩ := Nat.exists_eq_add_of_le' (Nat.le_of_add_left_le hfuel')
      obtain ⟨hresult, hframed⟩ := hsends (fuel' + 1) (fuel' + 1) (by omega) (by omega)
      rw [promptAndRun_of_message hint htoken hsendable]
      exact ⟨hresult, congrArg _ hframed⟩
  | unknown hword hone htwo _ ih =>
      obtain ⟨hint, hoffers⟩ := hoffers.readInt hword
      obtain ⟨bound, hsends⟩ := ih hoffers (depth + 1)
      refine ⟨bound + 2, fun fuel fuel' hfuel hfuel' => ?_⟩
      obtain ⟨fuel, rfl⟩ := Nat.exists_eq_add_of_le' (Nat.le_of_add_left_le hfuel)
      obtain ⟨hresult, hframed⟩ := hsends (fuel + 1) fuel' (by omega) (by omega)
      rw [promptAndRun_of_unknown hint hone htwo]
      exact ⟨hresult, hframed⟩

/-- Whatever the memory holds, a client that is given the text of a session frames the messages of
the session for `sendBytes` in order, one by one and as they were typed, and ends, provided that
`poll`, `sendBytes` and `Disconnect` return; how the text is laid out does not matter, nor does what
follows the end of the session. -/
theorem sends_script {text : List UInt8} {szMessages : List CString}
    (h : Script (words text) szMessages) (memory : Memory) :
    ∃ bound, ∀ fuel, bound ≤ fuel →
      let session := run ofIstream memory fuel
        { input := { unread := text, failed := false }, data := .new }
      session.result = .error .exit ∧
        session.log.filterMap framedResult = szMessages.map CString.terminated := by
  have hoffers : ({ unread := text, failed := false } : Istream).Offers (words text) := ⟨rfl, rfl⟩
  obtain ⟨bound, hsends⟩ := sends_of_prompt h memory hoffers 0
  exact exists_bound_of_succ bound fun fuel hfuel => hsends fuel fuel hfuel hfuel

/-- Two messages, and a number that no action has; something follows the end of the session. -/
def twoMessages : List UInt8 :=
  [0x31, 0x20, 0x20, 0x61, 0x62, 0x0A, 0x37, 0x09, 0x2B, 0x31, 0x20, 0x63, 0x0A, 0x30, 0x32, 0x20,
    0x78]

theorem sends_script_of_two :
    ∃ bound, ∀ fuel, bound ≤ fuel →
      let session := run ofIstream Memory.blank fuel
        { input := { unread := twoMessages, failed := false }, data := .new }
      session.result = .error .exit ∧
        session.log.filterMap framedResult = [[0x61, 0x62, 0], [0x63, 0]] := by
  have hwords : words twoMessages =
      [[0x31], [0x61, 0x62], [0x37], [0x2B, 0x31], [0x63], [0x30, 0x32], [0x78]] := by decide
  have hscript : Script (words twoMessages) [.ofPrefix [0x61, 0x62], .ofPrefix [0x63]] := by
    have hseven : intOfWord [0x37] = some 7 := by decide
    rw [hwords]
    exact .message (by decide) (by decide) (.unknown hseven (by decide) (by decide)
      (.message (by decide) (by decide) (.exit (by decide))))
  exact sends_script hscript Memory.blank

end PocoEcho.ClientConsole

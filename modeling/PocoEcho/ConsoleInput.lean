import PocoEcho.Client.Console
import PocoEcho.Server.Console

/-!
# Console input

`ShowHelp` of both programs calls itself when an action is refused, and never looks at the state of
the stream. It ends, and consumes input before every nested call, exactly when the input settles it;
a number that is not one, or the end of the input, makes it call itself for ever.

## Main definitions

* `ServerConsole.EndsConsuming` and `ClientConsole.EndsConsuming`: what is expected of `ShowHelp`.

## Main results

* `showHelp_endsConsuming_iff`: the inputs on which it is so.
-/

namespace PocoEcho

open Console

/-- `ShowHelp` of the server returns or exits, and a function calls itself only when a character has
been consumed since it was called, whatever the arrays hold when nothing is read into them. -/
def ServerConsole.EndsConsuming {W : Type} (add remove : W → CString → Bool × W)
    (session : Session Istream W) : Prop :=
  ∀ stray, (∃ fuel, Ends (showHelp ofIstream add remove stray fuel session).result) ∧
    ∀ fuel, Consumes (showHelp ofIstream add remove stray fuel session).log

/-- `ShowHelp` of the client returns or exits, and a function calls itself only when a character has
been consumed since it was called, whatever the memory holds. -/
def ClientConsole.EndsConsuming (session : Session Istream CActionManager) : Prop :=
  ∀ memory, (∃ fuel, Ends (showHelp ofIstream memory fuel 0 session).result) ∧
    ∀ fuel, Consumes (showHelp ofIstream memory fuel 0 session).log

/-- `ShowHelp` ends and consumes input before every nested call if and only if the input begins with
refused actions, followed by one that is performed or ends the program. -/
theorem showHelp_endsConsuming_iff {W : Type} (add remove : W → CString → Bool × W) :
    (∀ session : Session Istream W,
      ServerConsole.EndsConsuming add remove session ↔
        Settles (ServerConsole.Accepts add remove) (ServerConsole.Refuses add remove) session) ∧
    ∀ session : Session Istream CActionManager,
      ClientConsole.EndsConsuming session ↔
        Settles ClientConsole.Accepts ClientConsole.Refuses session := by
  constructor
  · intro session
    exact ends_ask_iff ServerConsole.describes_getAction
  · intro session
    exact ends_ask_iff ClientConsole.describes_getAction

/-- Letters where a number is expected, on both consoles. -/
theorem not_endsConsuming_of_letters :
    ¬ ServerConsole.EndsConsuming (fun _ _ => (true, ())) (fun _ _ => (true, ()))
      ⟨⟨[97, 98, 99, 10], false⟩, ()⟩ ∧
    ¬ ClientConsole.EndsConsuming ⟨⟨[97, 98, 99, 10], false⟩, .new⟩ := by
  constructor
  · intro h
    have hsettles := (ends_ask_iff ServerConsole.describes_getAction).mp h
    exact absurd hsettles (not_settles_of_failed (by decide))
  · intro h
    have hsettles := (ends_ask_iff ClientConsole.describes_getAction).mp h
    exact absurd hsettles (not_settles_of_failed (by decide))

end PocoEcho

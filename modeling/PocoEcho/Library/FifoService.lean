import Mathlib.Logic.Function.Basic
import PocoEcho.Library.Machine

/-!
# A service that answers in order

The abstract view of a service with many users: each user has a queue of requests, and a reply
answers the oldest one. Users do not affect each other.

## Main definitions

* `fifoService`: the machine, over arbitrary users `K` and requests `M`;
* `FifoService.requestsOf` and `FifoService.repliesOf`: what a trace holds of a user.

## Main results

* `FifoService.requestsOf_eq`: in every reachable state, the requests of a user are the answered
  ones, in order, followed by the queue.
-/

namespace FifoService

/-- A user makes a request, or the oldest request of a user is answered. -/
inductive Input (K M : Type*)
  | request (user : K) (m : M)
  | reply (user : K)

/-- What happens in a step. -/
inductive Event (K M : Type*)
  | requested (user : K) (m : M)
  | replied (user : K) (m : M)
  deriving DecidableEq

variable {K M : Type*} [DecidableEq K]

/-- One step; an empty queue gives no reply. -/
def step (queue : K → List M) : Input K M → Option ((K → List M) × List (Event K M))
  | .request user m =>
      some (Function.update queue user (queue user ++ [m]), [.requested user m])
  | .reply user =>
      match queue user with
      | [] => none
      | m :: ms => some (Function.update queue user ms, [.replied user m])

/-- The request that an event makes for a user. -/
def Event.requestOf (user : K) : Event K M → Option M
  | requested user' m => if user' = user then some m else none
  | replied _ _ => none

/-- The reply that an event gives to a user. -/
def Event.replyOf (user : K) : Event K M → Option M
  | requested _ _ => none
  | replied user' m => if user' = user then some m else none

/-- The requests of a user. -/
def requestsOf (user : K) (tr : List (Event K M)) : List M := tr.filterMap (Event.requestOf user)

/-- The replies to a user. -/
def repliesOf (user : K) (tr : List (Event K M)) : List M := tr.filterMap (Event.replyOf user)

@[simp] theorem requestsOf_nil (user : K) : requestsOf user ([] : List (Event K M)) = [] := rfl

@[simp] theorem repliesOf_nil (user : K) : repliesOf user ([] : List (Event K M)) = [] := rfl

@[simp]
theorem requestsOf_append (user : K) (tr es : List (Event K M)) :
    requestsOf user (tr ++ es) = requestsOf user tr ++ requestsOf user es :=
  List.filterMap_append

@[simp]
theorem repliesOf_append (user : K) (tr es : List (Event K M)) :
    repliesOf user (tr ++ es) = repliesOf user tr ++ repliesOf user es :=
  List.filterMap_append

/-- A request of a user, or of another one. -/
theorem requestsOf_requested (user user' : K) (m : M) :
    requestsOf user [.requested user' m] = if user' = user then [m] else [] := by
  by_cases h : user' = user <;> simp [requestsOf, Event.requestOf, h]

/-- A reply to a user, or to another one. -/
theorem repliesOf_replied (user user' : K) (m : M) :
    repliesOf user [.replied user' m] = if user' = user then [m] else [] := by
  by_cases h : user' = user <;> simp [repliesOf, Event.replyOf, h]

@[simp]
theorem requestsOf_replied (user user' : K) (m : M) :
    requestsOf user [.replied user' m] = [] := rfl

@[simp]
theorem repliesOf_requested (user user' : K) (m : M) :
    repliesOf user [.requested user' m] = [] := rfl

end FifoService

/-- The service. -/
def fifoService (K M : Type*) [DecidableEq K] :
    Machine (K → List M) (FifoService.Input K M) (FifoService.Event K M) where
  step := FifoService.step

namespace FifoService

variable {K M : Type*} [DecidableEq K]

/-- The service answers every request of a user once and in order, except those in the queue, and
nothing else. -/
theorem requestsOf_eq {queue : K → List M} {tr : List (Event K M)}
    (h : (fifoService K M).Reachable (fun _ _ => True) (fun _ => []) queue tr) (user : K) :
    requestsOf user tr = repliesOf user tr ++ queue user := by
  refine h.invariant (P := fun queue tr => requestsOf user tr = repliesOf user tr ++ queue user)
    rfl ?_
  intro queue queue' tr es input _ ih _ hs
  cases input with
  | request user' m =>
      obtain ⟨rfl, rfl⟩ := Prod.mk.inj (Option.some.inj hs)
      rw [requestsOf_append, repliesOf_append, ih, requestsOf_requested, repliesOf_requested,
        List.append_nil, List.append_assoc]
      by_cases heq : user' = user
      · subst heq
        rw [if_pos rfl, Function.update_self]
      · rw [if_neg heq, List.append_nil, Function.update_of_ne (Ne.symm heq)]
  | reply user' =>
      simp only [fifoService, step] at hs
      split at hs
      next => cases hs
      next m ms hqueue =>
        obtain ⟨rfl, rfl⟩ := Prod.mk.inj (Option.some.inj hs)
        rw [requestsOf_append, repliesOf_append, ih, requestsOf_replied, repliesOf_replied,
          List.append_nil, List.append_assoc]
        by_cases heq : user' = user
        · subst heq
          rw [if_pos rfl, Function.update_self, hqueue, List.singleton_append]
        · rw [if_neg heq, List.nil_append, Function.update_of_ne (Ne.symm heq)]

end FifoService

import PocoEcho.Library.CharArray

/-!
# The client's console

`CActionManager` of the client hands a message over through three members: `GetAction` stores a
copy of it, and `PopActionResult` takes it out.
-/

namespace PocoEcho

/-- The members of `CActionManager` that hold the pending action. -/
structure CActionManager where
  /-- `m_iActionType`. -/
  iActionType : ℕ
  /-- `m_pActionResult`, with the memory behind the array it points to. -/
  actionResult : Option CharArray
  /-- `m_actionResultSize`. -/
  actionResultSize : ℕ

namespace CActionManager

/-- `CActionManager::CActionManager`. -/
def new : CActionManager := { iActionType := 0, actionResult := none, actionResultSize := 0 }

/-- The part of `GetAction` that stores a message, with its terminator, in a new array. -/
def storeMessage (manager : CActionManager) (szMessage : CString) (behind : List UInt8) :
    CActionManager :=
  let iMessageLength := szMessage.chars.length
  { manager with
    actionResult := some { data := szMessage.chars ++ [0], behind }
    actionResultSize := iMessageLength + 1 }

/-- The part of `GetAction` behind the `switch` that precedes `ListenAction`. -/
def setActionType (manager : CActionManager) (iAction : ℕ) : CActionManager :=
  { manager with iActionType := iAction }

/-- `PopActionResult`: the action type, the result and its size, if there is a result. -/
def popActionResult (manager : CActionManager) :
    Option (ℕ × CharArray × ℕ) × CActionManager :=
  match manager.actionResult with
  | none => (none, manager)
  | some actionResult =>
      if manager.actionResultSize = 0 then (none, manager)
      else (some (manager.iActionType, actionResult, manager.actionResultSize), new)

/-- A stored message is taken out, with the size of its array. -/
theorem popActionResult_storeMessage (manager : CActionManager) (szMessage : CString)
    (behind : List UInt8) (iAction : ℕ) :
    ((manager.storeMessage szMessage behind).setActionType iAction).popActionResult =
      (some (iAction, { data := szMessage.chars ++ [0], behind }, szMessage.chars.length + 1),
        new) := rfl

end CActionManager

end PocoEcho

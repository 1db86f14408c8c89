import Mathlib.Data.Finset.Insert
import Mathlib.Data.Finset.Erase

/-!
# The whitelist

`CWhiteList`: the addresses that may connect, loaded from a database table and changed from the
console. The outcome of each `sqlite3_exec` is an argument.
-/

namespace PocoEcho

/-- `CWhiteList`. The values of the map `m_acceptList` are all `true` and never read, so the map is
the set of its keys. -/
structure CWhiteList where
  /-- The keys of `m_acceptList`. -/
  acceptList : Finset String

namespace CWhiteList

/-- `CWhiteList::CWhiteList`. -/
def new : CWhiteList := { acceptList := ∅ }

/-- `OnWhiteListLoad` for one row of the table. -/
def onWhiteListLoad (whiteList : CWhiteList) (address : String) : CWhiteList :=
  { acceptList := insert address whiteList.acceptList }

/-- `TryGetList`: whether both statements succeed, and the rows the query hands to
`OnWhiteListLoad`. -/
def tryGetList (whiteList : CWhiteList) (created selected : Bool) (rows : List String) :
    Bool × CWhiteList :=
  if !created then (false, whiteList)
  else (selected, rows.foldl onWhiteListLoad whiteList)

/-- `IsIpCanConnect`. -/
def isIpCanConnect (whiteList : CWhiteList) (strIp : String) : Bool :=
  decide (strIp ∈ whiteList.acceptList)

/-- `IsClientCanConnect`, for a client whose address has the given host. -/
def isClientCanConnect (whiteList : CWhiteList) (host : String) : Bool :=
  whiteList.isIpCanConnect host

/-- `Add`, when executing its statement succeeds or not. -/
def add (whiteList : CWhiteList) (strIp : String) (executed : Bool) : Bool × CWhiteList :=
  if whiteList.isIpCanConnect strIp then (false, whiteList)
  else if executed then (true, { acceptList := insert strIp whiteList.acceptList })
  else (false, whiteList)

/-- `Remove`, when executing its statement succeeds or not. -/
def remove (whiteList : CWhiteList) (strIp : String) (executed : Bool) : Bool × CWhiteList :=
  if !whiteList.isIpCanConnect strIp then (false, whiteList)
  else if executed then (true, { acceptList := whiteList.acceptList.erase strIp })
  else (false, whiteList)

/-- A client can connect when its host is a member. -/
@[simp]
theorem isClientCanConnect_iff (whiteList : CWhiteList) (host : String) :
    whiteList.isClientCanConnect host = true ↔ host ∈ whiteList.acceptList :=
  decide_eq_true_iff

/-- The list loaded from the rows of the table. -/
theorem mem_foldl_onWhiteListLoad (rows : List String) (whiteList : CWhiteList) (host : String) :
    host ∈ (rows.foldl onWhiteListLoad whiteList).acceptList ↔
      host ∈ rows ∨ host ∈ whiteList.acceptList := by
  induction rows generalizing whiteList with
  | nil => simp
  | cons row rows ih =>
      rw [List.foldl_cons, ih]
      simp only [onWhiteListLoad, Finset.mem_insert, List.mem_cons]
      tauto

/-- A call of `Add` that returns `true` adds the address; any other changes nothing. -/
theorem add_eq (whiteList : CWhiteList) (strIp : String) (executed : Bool) :
    (whiteList.add strIp executed).2 =
      if (whiteList.add strIp executed).1 then
        { acceptList := insert strIp whiteList.acceptList }
      else whiteList := by
  unfold add
  split_ifs <;> simp_all

/-- A call of `Remove` that returns `true` removes the address; any other changes nothing. -/
theorem remove_eq (whiteList : CWhiteList) (strIp : String) (executed : Bool) :
    (whiteList.remove strIp executed).2 =
      if (whiteList.remove strIp executed).1 then
        { acceptList := whiteList.acceptList.erase strIp }
      else whiteList := by
  unfold remove
  split_ifs <;> simp_all

end CWhiteList

end PocoEcho

import PocoEcho.Server.WhiteListSql
import PocoEcho.Server.WhiteListStore

/-!
# The whitelist over restarts

The table of the whitelist outlives the program: each start loads a new list from it, and `Add` and
`Remove` change it by the texts of their statements. As long as no address contains a quote and no
row a NUL, a restart makes no difference to the list.

## Main definitions

* `WhiteListStore.addText` and `WhiteListStore.removeText`: the calls, down to the texts;
* `WhiteListStore.runSessions`: starts of the program, one after the other.

## Main results

* `WhiteListStore.enter_eq`: the texts do what the calls are meant to do;
* `restarts_make_no_difference`: all sessions together are one session.
-/

namespace PocoEcho

/-- An address that the console passes on: it has been read into `szIp`, which has 16 characters,
and contains no quote. -/
structure EnteredAddress extends CString where
  /-- It fits into `szIp` with its terminator. -/
  fits : chars.length < 16
  /-- It contains no quote. -/
  quote_notMem : Sql.quote ∉ chars
  deriving DecidableEq

/-- The texts of such an address fit into `szSql`. -/
theorem EnteredAddress.fits_addSql (address : EnteredAddress) :
    (CWhiteList.addSql address.toCString).length + 1 ≤ CWhiteList.szSqlSize := by
  have hfits := address.fits
  rw [length_addSql, CWhiteList.szSqlSize]
  omega

theorem EnteredAddress.fits_removeSql (address : EnteredAddress) :
    (CWhiteList.removeSql address.toCString).length + 1 ≤ CWhiteList.szSqlSize := by
  have hfits := address.fits
  rw [length_removeSql, CWhiteList.szSqlSize]
  omega

/-- A call of a console command, and how many statements of its text are executed if it is reached:
`sqlite3_exec` fails when this is not all of them. -/
inductive WhiteListEntry
  /-- `Add`. -/
  | add (address : EnteredAddress) (executed : ℕ)
  /-- `Remove`. -/
  | remove (address : EnteredAddress) (executed : ℕ)

/-- The call, for the list in memory and the table. -/
def WhiteListEntry.call : WhiteListEntry → WhiteListCall
  | add address executed => .add address.chars (decide (1 ≤ executed))
  | remove address executed => .remove address.chars (decide (1 ≤ executed))

/-- What is entered is a C string. -/
theorem WhiteListEntry.nulFree_call (entry : WhiteListEntry) : entry.call.NulFree := by
  cases entry with
  | add address executed => exact fun _ => address.nul_notMem
  | remove address executed => trivial

/-- A start of the program: whether the two statements of `TryGetList` succeed, and what is entered
on the console if they do. -/
structure WhiteListSession where
  created : Bool
  selected : Bool
  entries : List WhiteListEntry

/-- The calls of the session; `main` ends when `TryGetList` fails. -/
def WhiteListSession.calls (session : WhiteListSession) : List WhiteListCall :=
  if session.created && session.selected then session.entries.map WhiteListEntry.call else []

/-- No call of a session inserts a NUL. -/
theorem WhiteListSession.nulFree_calls (session : WhiteListSession) :
    ∀ c ∈ session.calls, c.NulFree := by
  intro c hc
  unfold calls at hc
  split at hc
  · obtain ⟨entry, -, rfl⟩ := List.mem_map.mp hc
    exact entry.nulFree_call
  · cases hc

namespace WhiteListStore

/-- What each of a sequence of calls returns. -/
def results (store : WhiteListStore) : List WhiteListCall → List Bool
  | [] => []
  | c :: calls => (store.call c).1 :: results (store.call c).2 calls

/-- `sprintf` into `szSql`, and `sqlite3_exec`: so many statements of the text are executed. `none`
if the text overflows the array, or if it is not in the fragment of SQL. -/
def execSql (text : List UInt8) (executed : ℕ) (table : List (List UInt8)) :
    Option (Bool × List (List UInt8)) :=
  if text.length + 1 ≤ CWhiteList.szSqlSize then
    (Sql.statements whiteListSchema text).map fun statements =>
      (decide (statements.length ≤ executed),
        Sql.Statement.execAll (statements.take executed) table)
  else none

/-- `CWhiteList::Add`, down to the text of its statement. -/
def addText (store : WhiteListStore) (strIp : CString) (executed : ℕ) :
    Option (Bool × WhiteListStore) :=
  if store.whiteList.isIpCanConnect (stdString strIp.chars) then some (false, store)
  else (execSql (CWhiteList.addSql strIp) executed store.table).map fun (ok, table) =>
    let (added, whiteList) := store.whiteList.add (stdString strIp.chars) ok
    (added, { whiteList, table })

/-- `CWhiteList::Remove`, down to the text of its statement. -/
def removeText (store : WhiteListStore) (strIp : CString) (executed : ℕ) :
    Option (Bool × WhiteListStore) :=
  if !store.whiteList.isIpCanConnect (stdString strIp.chars) then some (false, store)
  else (execSql (CWhiteList.removeSql strIp) executed store.table).map fun (ok, table) =>
    let (removed, whiteList) := store.whiteList.remove (stdString strIp.chars) ok
    (removed, { whiteList, table })

/-- A call of either command, with the address that is entered. -/
def enter (store : WhiteListStore) : WhiteListEntry → Option (Bool × WhiteListStore)
  | .add address executed => store.addText address.toCString executed
  | .remove address executed => store.removeText address.toCString executed

/-- A sequence of calls, with what each of them returns. -/
def enterAll (store : WhiteListStore) :
    List WhiteListEntry → Option (List Bool × WhiteListStore)
  | [] => some ([], store)
  | entry :: entries => do
      let (result, store) ← store.enter entry
      let (results, store) ← enterAll store entries
      return (result :: results, store)

/-- One start of the program: what the calls return, and the rows that are left. -/
def runSession (table : List (List UInt8)) (session : WhiteListSession) :
    Option (List Bool × List (List UInt8)) :=
  let (got, whiteList) := CWhiteList.new.tryGetList session.created session.selected (loaded table)
  if got then (enterAll { whiteList, table } session.entries).map fun (results, store) =>
    (results, store.table)
  else some ([], table)

/-- Several starts of the program, one after the other. -/
def runSessions (table : List (List UInt8)) :
    List WhiteListSession → Option (List Bool × List (List UInt8))
  | [] => some ([], table)
  | session :: sessions => do
      let (results, table) ← runSession table session
      let (results', table) ← runSessions table sessions
      return (results ++ results', table)

/-! ## The calls -/

/-- The text of a statement is executed as the statement, or fails. -/
theorem execSql_of_statement {text : List UInt8} {statement : Sql.Statement (List UInt8)}
    (hfits : text.length + 1 ≤ CWhiteList.szSqlSize)
    (hreads : Sql.statements whiteListSchema text = some [statement]) (executed : ℕ)
    (table : List (List UInt8)) :
    execSql text executed table =
      some (decide (1 ≤ executed), sqlite3Exec (decide (1 ≤ executed)) statement table) := by
  rw [execSql, if_pos hfits, hreads]
  cases executed with
  | zero => rfl
  | succ n => simp [sqlite3Exec, Sql.Statement.execAll]

/-- The texts of an address that is entered do what the calls are meant to do. -/
theorem enter_eq (store : WhiteListStore) (entry : WhiteListEntry) :
    store.enter entry = some (store.call entry.call) := by
  cases entry with
  | add address executed =>
      have hexec := execSql_of_statement address.fits_addSql
        ((statements_addSql_iff _).mpr address.quote_notMem) executed store.table
      simp only [enter, addText, WhiteListEntry.call, call, add]
      by_cases hmem : store.whiteList.isIpCanConnect (stdString address.chars) = true
      · rw [if_pos hmem, if_pos hmem, CWhiteList.add, if_pos hmem]
      · rw [if_neg hmem, if_neg hmem, hexec]
        rfl
  | remove address executed =>
      have hexec := execSql_of_statement address.fits_removeSql
        ((statements_removeSql_iff _).mpr address.quote_notMem) executed store.table
      simp only [enter, removeText, WhiteListEntry.call, call, remove]
      by_cases hmem : (!store.whiteList.isIpCanConnect (stdString address.chars)) = true
      · rw [if_pos hmem, if_pos hmem, CWhiteList.remove, if_pos hmem]
      · rw [if_neg hmem, if_neg hmem, hexec]
        rfl

/-- So does a sequence of calls. -/
theorem enterAll_eq (store : WhiteListStore) (entries : List WhiteListEntry) :
    store.enterAll entries = some (store.results (entries.map WhiteListEntry.call),
      store.run (entries.map WhiteListEntry.call)) := by
  induction entries generalizing store with
  | nil => rfl
  | cons entry entries ih =>
      simp only [enterAll, enter_eq, ih, Option.bind_eq_bind, Option.bind_some, Option.pure_def]
      rfl

/-! ## The sessions -/

/-- A session goes on where the store has stopped: the list that it loads is the one that was there
before. -/
theorem runSession_eq {store : WhiteListStore} (hagrees : store.Agrees)
    (hnul : NulFree store.table) (session : WhiteListSession) :
    runSession store.table session =
      some (store.results session.calls, (store.run session.calls).table) := by
  obtain ⟨created, selected, entries⟩ := session
  cases created with
  | false => rfl
  | true =>
      cases selected with
      | false => rfl
      | true =>
          -- the list that is loaded is the one in memory
          obtain ⟨whiteList, hget⟩ : ∃ whiteList,
              CWhiteList.new.tryGetList true true (loaded store.table) = (true, whiteList) :=
            ⟨_, rfl⟩
          have hload : Loaded store.table whiteList := ⟨true, true, hget⟩
          obtain rfl := hload.eq_of_agrees hnul hagrees
          simp only [runSession, hget, if_true]
          exact congrArg (Option.map _) (store.enterAll_eq entries)

/-- The results of two sequences of calls, one after the other. -/
theorem results_append (store : WhiteListStore) (calls calls' : List WhiteListCall) :
    store.results (calls ++ calls') = store.results calls ++ (store.run calls).results calls' := by
  induction calls generalizing store with
  | nil => rfl
  | cons c calls ih => exact congrArg _ (ih (store.call c).2)

/-- Two sequences of calls, one after the other. -/
theorem run_append (store : WhiteListStore) (calls calls' : List WhiteListCall) :
    store.run (calls ++ calls') = (store.run calls).run calls' :=
  List.foldl_append

/-- All sessions together are one session of the store. -/
theorem runSessions_eq {store : WhiteListStore} (hagrees : store.Agrees)
    (hnul : NulFree store.table) (sessions : List WhiteListSession) :
    runSessions store.table sessions =
      some (store.results (sessions.flatMap WhiteListSession.calls),
        (store.run (sessions.flatMap WhiteListSession.calls)).table) := by
  induction sessions generalizing store with
  | nil => rfl
  | cons session sessions ih =>
      have hrest := ih (hagrees.run session.calls) (hnul.run session.nulFree_calls)
      simp only [runSessions, runSession_eq hagrees hnul, hrest, Option.bind_eq_bind,
        Option.bind_some, Option.pure_def, List.flatMap_cons, results_append, run_append]

end WhiteListStore

open WhiteListStore in
/-- From a table without NUL, however often the program is started, whether `TryGetList` succeeds
each time or not, and whatever statements fail: as long as no address contains a quote, every call
returns what it would have returned had the program run on from its first start, and the list that
is loaded next is the one that would then be in memory. -/
theorem restarts_make_no_difference {table : List (List UInt8)} (hnul : NulFree table)
    {whiteList : CWhiteList} (hload : Loaded table whiteList) (sessions : List WhiteListSession) :
    let store : WhiteListStore := { whiteList, table }
    let calls := sessions.flatMap WhiteListSession.calls
    runSessions table sessions = some (store.results calls, (store.run calls).table) ∧
      ∀ reloaded, Loaded (store.run calls).table reloaded →
        reloaded = (store.run calls).whiteList := by
  intro store calls
  have hagrees : store.Agrees := hload.agrees hnul
  have hcalls : ∀ c ∈ calls, c.NulFree := by
    intro c hc
    obtain ⟨session, -, hc⟩ := List.mem_flatMap.mp hc
    exact session.nulFree_calls c hc
  refine ⟨runSessions_eq hagrees hnul sessions, fun reloaded hreload => ?_⟩
  exact hreload.eq_of_agrees (NulFree.run hnul hcalls) (hagrees.run calls)

/-- An address of one digit. -/
def digitAddress : EnteredAddress :=
  { chars := [0x31]
    nul_notMem := fun h => absurd (List.mem_singleton.mp h) (by decide)
    fits := by decide
    quote_notMem := fun h => absurd (List.mem_singleton.mp h) (by decide) }

/-- The table has the address twice. A first attempt to remove it fails, then `TryGetList` fails,
and then both rows are removed. -/
theorem restarts_make_no_difference_of_duplicate :
    WhiteListStore.runSessions [[0x31], [0x31]]
        [⟨true, true, [.add digitAddress 1, .remove digitAddress 0]⟩,
          ⟨true, false, [.add digitAddress 1]⟩, ⟨true, true, [.remove digitAddress 1]⟩] =
      some ([false, false, true], []) := by
  have hnul : WhiteListStore.NulFree [[0x31], [0x31]] := by simp [WhiteListStore.NulFree]
  have hload : WhiteListStore.Loaded [[0x31], [0x31]] ⟨{stdString [0x31]}⟩ := ⟨true, true, rfl⟩
  exact (restarts_make_no_difference hnul hload
    [⟨true, true, [.add digitAddress 1, .remove digitAddress 0]⟩,
      ⟨true, false, [.add digitAddress 1]⟩, ⟨true, true, [.remove digitAddress 1]⟩]).1

end PocoEcho

import Mathlib.Data.Finset.Dedup
import PocoEcho.Library.CharArray
import PocoEcho.Library.Sql
import PocoEcho.Server.CWhiteList

/-!
# The whitelist and its table

`CWhiteList` keeps the addresses twice: as the keys of `m_acceptList` and as the rows of a table,
where an address may occur several times. `Add` and `Remove` change first the table and then the
map. Executing a statement either has the effect that is meant or fails without one.

A row is a sequence of bytes, but `sqlite3_exec` hands it to `OnWhiteListLoad` as a `char*`, of
which `std::string` keeps what precedes the first NUL.

## Main definitions

* `WhiteListStore`: the two copies;
* `WhiteListStore.loaded`: the rows as `OnWhiteListLoad` receives them;
* `WhiteListCall.effect`: what a call means for the set of addresses.

## Main results

* `WhiteListStore.call_eq`: the two outcomes of a call;
* `whiteList_agrees_with_table_iff`: both copies hold the same addresses, also over a restart,
  exactly when neither a row nor an address that is inserted contains a NUL.
-/

namespace PocoEcho

/-- A `std::string`; its characters are bytes. -/
def stdString (chars : List UInt8) : String := String.ofList (chars.map Char.ofUInt8)

/-- Different bytes are different strings. -/
theorem stdString_injective : Function.Injective stdString := by
  have hchar : Function.Injective Char.ofUInt8 := fun c d h =>
    UInt8.toUInt32_inj.mp (congrArg Char.val h)
  exact fun s t h => List.map_injective_iff.mpr hchar (String.ofList_injective h)

/-- The list in memory, and the column `Address` of the table `whitelist` in the database. -/
structure WhiteListStore where
  /-- The object in memory. -/
  whiteList : CWhiteList
  /-- The rows of the table. -/
  table : List (List UInt8)

/-- A call of a console command, and whether `sqlite3_exec` succeeds if it is reached. -/
inductive WhiteListCall
  /-- `Add`. -/
  | add (strIp : List UInt8) (executed : Bool)
  /-- `Remove`. -/
  | remove (strIp : List UInt8) (executed : Bool)
  deriving DecidableEq

namespace WhiteListCall

/-- The statement that is executed. -/
def statement : WhiteListCall → Sql.Statement (List UInt8)
  | add strIp _ => .insert [strIp]
  | remove strIp _ => .delete strIp

/-- What the call means for a set of addresses. -/
def effect : WhiteListCall → Finset String → Finset String
  | add strIp _, addresses => insert (stdString strIp) addresses
  | remove strIp _, addresses => addresses.erase (stdString strIp)

/-- The call has something to do, and its statement succeeds. -/
def Applies : WhiteListCall → Finset String → Prop
  | add strIp executed, addresses => stdString strIp ∉ addresses ∧ executed = true
  | remove strIp executed, addresses => stdString strIp ∈ addresses ∧ executed = true

/-- Whether a call applies is decidable. -/
instance (c : WhiteListCall) (addresses : Finset String) : Decidable (c.Applies addresses) := by
  cases c <;> exact inferInstanceAs (Decidable (_ ∧ _))

/-- Between two sets of addresses, the address has become a member or ceased to be one. -/
def Turns : WhiteListCall → Finset String → Finset String → Prop
  | add strIp _, before, after => stdString strIp ∉ before ∧ stdString strIp ∈ after
  | remove strIp _, before, after => stdString strIp ∈ before ∧ stdString strIp ∉ after

/-- The address that is inserted, if it is, contains no NUL. -/
def NulFree : WhiteListCall → Prop
  | add strIp executed => executed = true → 0 ∉ strIp
  | remove _ _ => True

/-- A call that applies turns its address. -/
theorem turns_effect {c : WhiteListCall} {addresses : Finset String} (h : c.Applies addresses) :
    c.Turns addresses (c.effect addresses) := by
  cases c with
  | add strIp executed => exact ⟨h.1, Finset.mem_insert_self _ _⟩
  | remove strIp executed => exact ⟨h.1, Finset.notMem_erase _ _⟩

/-- Nothing is turned where nothing changes. -/
theorem not_turns_self (c : WhiteListCall) (addresses : Finset String) :
    ¬ c.Turns addresses addresses := by
  cases c with
  | add strIp executed => exact fun h => h.1 h.2
  | remove strIp executed => exact fun h => h.2 h.1

/-- The statement of a call changes the set of addresses of a table as is meant: an insertion adds
one row, and a deletion removes every row with the address. -/
theorem toFinset_exec_statement (c : WhiteListCall) (table : List (List UInt8)) :
    ((c.statement.exec table).map stdString).toFinset =
      c.effect (table.map stdString).toFinset := by
  rw [← Sql.Statement.exec_map stdString_injective]
  ext host
  cases c with
  | add strIp executed => simp [statement, Sql.Statement.map, effect, or_comm]
  | remove strIp executed => simp [statement, Sql.Statement.map, effect, and_comm]

end WhiteListCall

namespace WhiteListStore

/-- `sqlite3_exec` of a statement that changes the table. -/
def sqlite3Exec (executed : Bool) (statement : Sql.Statement (List UInt8))
    (table : List (List UInt8)) : List (List UInt8) :=
  if executed then statement.exec table else table

/-- `CWhiteList::Add`. -/
def add (store : WhiteListStore) (strIp : List UInt8) (executed : Bool) : Bool × WhiteListStore :=
  let (added, whiteList) := store.whiteList.add (stdString strIp) executed
  let table :=
    if store.whiteList.isIpCanConnect (stdString strIp) then store.table
    else sqlite3Exec executed (.insert [strIp]) store.table
  (added, { whiteList, table })

/-- `CWhiteList::Remove`. -/
def remove (store : WhiteListStore) (strIp : List UInt8) (executed : Bool) :
    Bool × WhiteListStore :=
  let (removed, whiteList) := store.whiteList.remove (stdString strIp) executed
  let table :=
    if !store.whiteList.isIpCanConnect (stdString strIp) then store.table
    else sqlite3Exec executed (.delete strIp) store.table
  (removed, { whiteList, table })

/-- A call of either command. -/
def call (store : WhiteListStore) : WhiteListCall → Bool × WhiteListStore
  | .add strIp executed => store.add strIp executed
  | .remove strIp executed => store.remove strIp executed

/-- A sequence of calls. -/
def run (store : WhiteListStore) (calls : List WhiteListCall) : WhiteListStore :=
  calls.foldl (fun store c => (store.call c).2) store

/-- Both copies hold the same addresses. -/
def Agrees (store : WhiteListStore) : Prop :=
  store.whiteList.acceptList = (store.table.map stdString).toFinset

/-- The addresses that `OnWhiteListLoad` makes of the rows: each is handed over as a C string. -/
def loaded (table : List (List UInt8)) : List String :=
  table.map fun row => stdString (CString.ofPrefix row).chars

/-- A new list has been loaded from the table by a successful `TryGetList`. -/
def Loaded (table : List (List UInt8)) (whiteList : CWhiteList) : Prop :=
  ∃ created selected,
    CWhiteList.new.tryGetList created selected (loaded table) = (true, whiteList)

/-- Both copies hold the same addresses, and a restart admits the same clients. -/
structure Faithful (store : WhiteListStore) : Prop where
  /-- Memory and table agree. -/
  agrees : store.Agrees
  /-- A new list that is loaded from the table decides like the one in memory. -/
  restart : ∀ reloaded, Loaded store.table reloaded → ∀ host,
    reloaded.isClientCanConnect host = store.whiteList.isClientCanConnect host

/-- No row of the table contains a NUL. -/
def NulFree (table : List (List UInt8)) : Prop := ∀ row ∈ table, 0 ∉ row

/-- The call reports truly what it has done to the list, and a call that reports failure has left
both copies as they were. -/
def Reports (store : WhiteListStore) (c : WhiteListCall) : Prop :=
  ((store.call c).1 = true ↔
      c.Turns store.whiteList.acceptList (store.call c).2.whiteList.acceptList) ∧
    ((store.call c).1 = false → (store.call c).2 = store)

/-- The two outcomes of a call. -/
theorem call_eq (store : WhiteListStore) (c : WhiteListCall) :
    store.call c =
      if c.Applies store.whiteList.acceptList then
        (true, { whiteList := { acceptList := c.effect store.whiteList.acceptList }
                 table := c.statement.exec store.table })
      else (false, store) := by
  cases c with
  | add strIp executed =>
      by_cases hmem : stdString strIp ∈ store.whiteList.acceptList
      · simp [call, add, CWhiteList.add, CWhiteList.isIpCanConnect, WhiteListCall.Applies, hmem]
      · cases executed <;>
          simp [call, add, CWhiteList.add, CWhiteList.isIpCanConnect, WhiteListCall.Applies, hmem,
            sqlite3Exec, WhiteListCall.effect, WhiteListCall.statement]
  | remove strIp executed =>
      by_cases hmem : stdString strIp ∈ store.whiteList.acceptList
      · cases executed <;>
          simp [call, remove, CWhiteList.remove, CWhiteList.isIpCanConnect, WhiteListCall.Applies,
            hmem, sqlite3Exec, WhiteListCall.effect, WhiteListCall.statement]
      · simp [call, remove, CWhiteList.remove, CWhiteList.isIpCanConnect, WhiteListCall.Applies,
          hmem]

/-- Every call keeps the agreement. -/
theorem Agrees.call {store : WhiteListStore} (h : store.Agrees) (c : WhiteListCall) :
    (store.call c).2.Agrees := by
  rw [call_eq]
  split
  · show c.effect store.whiteList.acceptList = _
    rw [h]
    exact (c.toFinset_exec_statement store.table).symm
  · exact h

/-- Every sequence of calls keeps the agreement. -/
theorem Agrees.run {store : WhiteListStore} (h : store.Agrees) (calls : List WhiteListCall) :
    (store.run calls).Agrees := by
  induction calls generalizing store with
  | nil => exact h
  | cons c calls ih => exact ih (h.call c)

/-- A list that has been loaded from a table holds what was handed to `OnWhiteListLoad`. -/
theorem Loaded.acceptList_eq {table : List (List UInt8)} {whiteList : CWhiteList}
    (h : Loaded table whiteList) : whiteList.acceptList = (loaded table).toFinset := by
  obtain ⟨created, selected, h⟩ := h
  cases created with
  | false => cases h
  | true =>
      obtain ⟨-, rfl⟩ := Prod.mk.inj h
      ext host
      rw [CWhiteList.mem_foldl_onWhiteListLoad, List.mem_toFinset]
      simp [CWhiteList.new]

/-- The list that a start of the program loads. -/
theorem exists_loaded (table : List (List UInt8)) : ∃ whiteList, Loaded table whiteList :=
  ⟨_, true, true, rfl⟩

/-- Rows without NUL are loaded as they are. -/
theorem NulFree.loaded_eq {table : List (List UInt8)} (h : NulFree table) :
    loaded table = table.map stdString :=
  List.map_congr_left fun row hrow => congrArg stdString (CString.ofPrefix_of_notMem (h row hrow))

/-- Loading from such rows establishes the agreement. -/
theorem Loaded.agrees {table : List (List UInt8)} {whiteList : CWhiteList}
    (h : Loaded table whiteList) (hnul : NulFree table) : Agrees { whiteList, table } := by
  rw [Agrees, h.acceptList_eq, hnul.loaded_eq]

/-- While both copies agree, a list that is loaded again from such rows is the one in memory. -/
theorem Loaded.eq_of_agrees {store : WhiteListStore} {reloaded : CWhiteList}
    (h : Loaded store.table reloaded) (hnul : NulFree store.table) (hagrees : store.Agrees) :
    reloaded = store.whiteList := by
  have hkeys : reloaded.acceptList = store.whiteList.acceptList := by
    rw [hagrees]
    exact h.agrees hnul
  obtain ⟨acceptList⟩ := reloaded
  exact congrArg CWhiteList.mk hkeys

/-- A row that is among the addresses loaded contains no NUL. -/
theorem notMem_of_mem_loaded {table : List (List UInt8)} {row : List UInt8}
    (h : stdString row ∈ loaded table) : 0 ∉ row := by
  obtain ⟨row', -, heq⟩ := List.mem_map.mp h
  rw [← stdString_injective heq]
  exact (CString.ofPrefix row').nul_notMem

/-- A restart admits the same clients exactly when it loads every row as it is. -/
theorem faithful_iff (store : WhiteListStore) :
    store.Faithful ↔ store.Agrees ∧ NulFree store.table := by
  constructor
  · intro h
    refine ⟨h.agrees, fun row hrow => ?_⟩
    obtain ⟨reloaded, hload⟩ := exists_loaded store.table
    -- the row is an address in memory, so that the list that is loaded has to admit it
    have hmem : stdString row ∈ store.whiteList.acceptList := by
      rw [h.agrees, List.mem_toFinset]
      exact List.mem_map_of_mem hrow
    rw [← CWhiteList.isClientCanConnect_iff, ← h.restart reloaded hload,
      CWhiteList.isClientCanConnect_iff, hload.acceptList_eq, List.mem_toFinset] at hmem
    exact notMem_of_mem_loaded hmem
  · rintro ⟨hagrees, hnul⟩
    refine ⟨hagrees, fun reloaded hload host => ?_⟩
    rw [hload.eq_of_agrees hnul hagrees]

/-- A call that inserts no NUL brings none into the table. -/
theorem NulFree.call {store : WhiteListStore} (h : NulFree store.table) {c : WhiteListCall}
    (hc : c.NulFree) : NulFree (store.call c).2.table := by
  rw [call_eq]
  split
  next happlies =>
    intro row hrow
    cases c with
    | add strIp executed =>
        rcases Sql.Statement.mem_exec_insert.mp hrow with hrow | hrow
        · exact h row hrow
        · rw [List.mem_singleton.mp hrow]
          exact hc happlies.2
    | remove strIp executed => exact h row (Sql.Statement.mem_exec_delete.mp hrow).1
  · exact h

/-- Nor does a sequence of such calls. -/
theorem NulFree.run {store : WhiteListStore} (h : NulFree store.table) {calls : List WhiteListCall}
    (hcalls : ∀ c ∈ calls, c.NulFree) : NulFree (store.run calls).table := by
  induction calls generalizing store with
  | nil => exact h
  | cons c calls ih =>
      obtain ⟨hc, hcalls⟩ := List.forall_mem_cons.mp hcalls
      exact ih (h.call hc) hcalls

/-- After a call that inserts its address, the address is a row, if both copies agree. -/
theorem mem_table_of_add {store : WhiteListStore} {strIp : List UInt8}
    (h : (store.call (.add strIp true)).2.Agrees) :
    strIp ∈ (store.call (.add strIp true)).2.table := by
  have hmem : stdString strIp ∈ (store.call (.add strIp true)).2.whiteList.acceptList := by
    rw [call_eq]
    split
    next => exact Finset.mem_insert_self _ _
    next happlies => simpa [WhiteListCall.Applies] using happlies
  rw [h, List.mem_toFinset] at hmem
  obtain ⟨row, hrow, heq⟩ := List.mem_map.mp hmem
  exact stdString_injective heq ▸ hrow

/-- `Add` and `Remove` report truly what they have done. -/
theorem reports (store : WhiteListStore) (c : WhiteListCall) : store.Reports c := by
  rw [Reports, call_eq]
  by_cases happlies : c.Applies store.whiteList.acceptList
  · rw [if_pos happlies]
    exact ⟨iff_of_true rfl (WhiteListCall.turns_effect happlies), fun h => by simp at h⟩
  · rw [if_neg happlies]
    exact ⟨iff_of_false Bool.false_ne_true (c.not_turns_self _), fun _ => rfl⟩

end WhiteListStore

open WhiteListStore in
/-- After a successful `TryGetList` and any calls, whatever statements fail, every further call
reports truly what it does. All along, the list in memory holds exactly the addresses of the table
and a restart admits the same clients, if no row contains a NUL at first and no address with a NUL
is inserted; and only then. -/
theorem whiteList_agrees_with_table_iff {table : List (List UInt8)} {whiteList : CWhiteList}
    (hload : Loaded table whiteList) (calls : List WhiteListCall) :
    (∀ made, made <+: calls → ∀ c, (run { whiteList, table } made).Reports c) ∧
      ((∀ made, made <+: calls → (run { whiteList, table } made).Faithful) ↔
        NulFree table ∧ ∀ c ∈ calls, c.NulFree) := by
  refine ⟨fun made _ => reports _, ?_, ?_⟩
  · intro hfaithful
    refine ⟨((faithful_iff _).mp (hfaithful [] calls.nil_prefix)).2, fun c hc => ?_⟩
    -- the calls up to this one
    obtain ⟨made, rest, rfl⟩ := List.append_of_mem hc
    have hafter := (faithful_iff _).mp (hfaithful (made ++ [c]) ⟨rest, by simp⟩)
    rw [run, List.foldl_append] at hafter
    cases c with
    | add strIp executed =>
        rintro rfl
        exact hafter.2 strIp (mem_table_of_add hafter.1)
    | remove strIp executed => trivial
  · rintro ⟨hnul, hcalls⟩ made hmade
    rw [faithful_iff]
    exact ⟨(hload.agrees hnul).run made,
      NulFree.run hnul fun c hc => hcalls c (hmade.subset hc)⟩

/-- A table with a duplicate row: a first attempt to remove the address fails, a second one removes
both rows. -/
theorem whiteList_agrees_with_table_of_duplicate :
    ∃ store, store = WhiteListStore.run ⟨⟨{stdString [0x61]}⟩, [[0x61], [0x61]]⟩
        [.remove [0x61] false, .remove [0x61] true] ∧
      store.Faithful ∧ store.table = [] := by
  have hload : WhiteListStore.Loaded [[0x61], [0x61]] ⟨{stdString [0x61]}⟩ := ⟨true, true, rfl⟩
  have hfaithful := (whiteList_agrees_with_table_iff hload
    [.remove [0x61] false, .remove [0x61] true]).2.mpr
  refine ⟨_, rfl, hfaithful ⟨?_, ?_⟩ _ (List.prefix_refl _), by decide⟩
  · simp [WhiteListStore.NulFree]
  · simp [WhiteListCall.NulFree]

/-- A row with a NUL: the address in front of the NUL is loaded. `Remove` reports that it has
removed it, but the row stays, and a restart admits the address again. -/
theorem not_agrees_of_nul :
    WhiteListStore.Loaded [[0x61, 0, 0x62]] ⟨{stdString [0x61]}⟩ ∧
      ¬ WhiteListStore.Agrees ⟨⟨{stdString [0x61]}⟩, [[0x61, 0, 0x62]]⟩ ∧
      ∃ store,
        WhiteListStore.call ⟨⟨{stdString [0x61]}⟩, [[0x61, 0, 0x62]]⟩ (.remove [0x61] true) =
          (true, store) ∧
        ¬ store.Agrees ∧ store.whiteList.isClientCanConnect (stdString [0x61]) = false ∧
        ∃ reloaded, WhiteListStore.Loaded store.table reloaded ∧
          reloaded.isClientCanConnect (stdString [0x61]) = true := by
  have hload : WhiteListStore.Loaded [[0x61, 0, 0x62]] ⟨{stdString [0x61]}⟩ := ⟨true, true, rfl⟩
  refine ⟨hload, ?_, ⟨⟨∅⟩, [[0x61, 0, 0x62]]⟩, rfl, ?_, rfl, _, hload, rfl⟩
  · simp [WhiteListStore.Agrees, stdString_injective.eq_iff]
  · simp [WhiteListStore.Agrees]

end PocoEcho

import PocoEcho.Library.CharArray
import PocoEcho.Library.Sql

/-!
# The texts of the whitelist's statements

`CWhiteList::Add` and `CWhiteList::Remove` put the address that was typed in on the console between
quotes, by `sprintf` into an array of 64 characters.

## Main results

* `statementsMeanWhatTheyName_iff`: the addresses for which the text fits and is read as the one
  statement that is meant.
-/

namespace PocoEcho

/-- The table `whitelist` and its column `Address`. -/
def whiteListSchema : Sql.Schema :=
  { table := Sql.ascii "whitelist", column := Sql.ascii "Address" }

/-- `sprintf` of a format that has one `%s` between two texts. -/
def sprintf (front back : String) (strIp : CString) : List UInt8 :=
  Sql.ascii front ++ (strIp.chars ++ Sql.ascii back)

namespace CWhiteList

/-- The size of `szSql`. -/
def szSqlSize : ℕ := 64

/-- The text that `Add` executes. -/
def addSql (strIp : CString) : List UInt8 :=
  sprintf "INSERT INTO whitelist (Address) VALUES ('" "')" strIp

/-- The text that `Remove` executes. -/
def removeSql (strIp : CString) : List UInt8 :=
  sprintf "DELETE FROM whitelist WHERE Address = '" "'" strIp

end CWhiteList

/-- The text fits into `szSql` with its terminator, it is read as one statement, the one given, and
its execution leaves the rows with any other address than the one given alone. -/
structure MeansStatement (text : List UInt8) (statement : Sql.Statement (List UInt8))
    (address : CString) : Prop where
  /-- The array is large enough. -/
  fits : text.length + 1 ≤ CWhiteList.szSqlSize
  /-- The text is the statement. -/
  reads : Sql.statements whiteListSchema text = some [statement]
  /-- Other rows are neither inserted nor deleted. -/
  confined : ∀ statements, Sql.statements whiteListSchema text = some statements →
    ∀ table value, value ≠ address.chars →
      (Sql.Statement.execAll statements table).count value = table.count value

/-- The text of `Add` means the insertion of one row with the address. -/
def AddMeansInsert (strIp : CString) : Prop :=
  MeansStatement (CWhiteList.addSql strIp) (.insert [strIp.chars]) strIp

/-- The text of `Remove` means the deletion of the rows with the address. -/
def RemoveMeansDelete (strIp : CString) : Prop :=
  MeansStatement (CWhiteList.removeSql strIp) (.delete strIp.chars) strIp

theorem length_addSql (strIp : CString) :
    (CWhiteList.addSql strIp).length = strIp.chars.length + 43 := by
  have hfront : (Sql.ascii "INSERT INTO whitelist (Address) VALUES ('").length = 41 := by decide
  have hback : (Sql.ascii "')").length = 2 := by decide
  rw [CWhiteList.addSql, sprintf, List.length_append, List.length_append, hfront, hback]
  omega

theorem length_removeSql (strIp : CString) :
    (CWhiteList.removeSql strIp).length = strIp.chars.length + 40 := by
  have hfront : (Sql.ascii "DELETE FROM whitelist WHERE Address = '").length = 39 := by decide
  have hback : (Sql.ascii "'").length = 1 := by decide
  rw [CWhiteList.removeSql, sprintf, List.length_append, List.length_append, hfront, hback]
  omega

/-- The text of `Add` is the insertion of the address exactly when this contains no quote. -/
theorem statements_addSql_iff (strIp : CString) :
    Sql.statements whiteListSchema (CWhiteList.addSql strIp) = some [.insert [strIp.chars]] ↔
      Sql.quote ∉ strIp.chars :=
  Sql.statements_insert_iff (by decide +kernel) strIp.chars

/-- The text of `Remove` is the deletion of the address exactly when this contains no quote. -/
theorem statements_removeSql_iff (strIp : CString) :
    Sql.statements whiteListSchema (CWhiteList.removeSql strIp) = some [.delete strIp.chars] ↔
      Sql.quote ∉ strIp.chars :=
  Sql.statements_delete_iff (by decide +kernel) strIp.chars

/-- The insertion of an address leaves the other rows alone. -/
theorem count_exec_insert (address : CString) (table : List (List UInt8)) {value : List UInt8}
    (h : value ≠ address.chars) :
    ((Sql.Statement.insert [address.chars]).exec table).count value = table.count value := by
  rw [Sql.Statement.exec, List.count_append, List.count_singleton, if_neg (by simpa using h.symm)]
  rfl

/-- The deletion of an address leaves the other rows alone. -/
theorem count_exec_delete (address : CString) (table : List (List UInt8)) {value : List UInt8}
    (h : value ≠ address.chars) :
    ((Sql.Statement.delete address.chars).exec table).count value = table.count value :=
  List.count_filter (by simpa using h)

/-- A text that fits and is read as a statement that leaves other rows alone means it. -/
theorem meansStatement_iff {text : List UInt8} {statement : Sql.Statement (List UInt8)}
    {address : CString}
    (hconfined : ∀ table value, value ≠ address.chars →
      (statement.exec table).count value = table.count value) :
    MeansStatement text statement address ↔
      text.length + 1 ≤ CWhiteList.szSqlSize ∧
        Sql.statements whiteListSchema text = some [statement] := by
  constructor
  · intro h
    exact ⟨h.fits, h.reads⟩
  · rintro ⟨hfits, hreads⟩
    refine ⟨hfits, hreads, ?_⟩
    intro statements hstatements
    obtain rfl := Option.some.inj (hreads.symm.trans hstatements)
    exact hconfined

/-- The addresses for which the statements mean what they name: those without a quote that leave
room for the terminator. -/
theorem statementsMeanWhatTheyName_iff (strIp : CString) :
    (AddMeansInsert strIp ↔ strIp.chars.length ≤ 20 ∧ Sql.quote ∉ strIp.chars) ∧
      (RemoveMeansDelete strIp ↔ strIp.chars.length ≤ 23 ∧ Sql.quote ∉ strIp.chars) := by
  constructor
  · rw [AddMeansInsert, meansStatement_iff (fun _ _ h => count_exec_insert strIp _ h),
      statements_addSql_iff, length_addSql, CWhiteList.szSqlSize]
    exact and_congr_left fun _ => by omega
  · rw [RemoveMeansDelete, meansStatement_iff (fun _ _ h => count_exec_delete strIp _ h),
      statements_removeSql_iff, length_removeSql, CWhiteList.szSqlSize]
    exact and_congr_left fun _ => by omega

/-- Adding `1'),('2` inserts two rows, neither of which has this address. -/
theorem not_addMeansInsert_of_quotes :
    ¬ AddMeansInsert ⟨Sql.ascii "1'),('2", by decide⟩ ∧
      Sql.statements whiteListSchema
          (CWhiteList.addSql ⟨Sql.ascii "1'),('2", by decide⟩) =
        some [.insert [Sql.ascii "1", Sql.ascii "2"]] := by
  refine ⟨?_, by decide +kernel⟩
  intro h
  exact (statements_addSql_iff _).mp h.reads (by decide)

end PocoEcho

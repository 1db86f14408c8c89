import Mathlib.Data.List.Induction
import Mathlib.Tactic.Common

/-!
# A fragment of SQL

Insertions of literal rows into a table of one text column, deletions of the rows that equal a
literal, and how they are read from their text. A string literal opens with a single quote, writes
a quote as two of them, and ends at the next quote that is not doubled.

## Main results

* `Statement.mem_exec_insert` and `Statement.mem_exec_delete`: the rows after a statement;
* `exists_of_lex_literal`: whatever is read as a literal was written with its quotes doubled;
* `statements_insert_iff` and `statements_delete_iff`: a value that is put between the quotes of a
  statement is read as this value exactly when it contains no quote.
-/

namespace Sql

/-- A statement on a table with one column of values. -/
inductive Statement (V : Type*)
  /-- `INSERT INTO … VALUES (…), (…)`. -/
  | insert (rows : List V)
  /-- `DELETE FROM … WHERE … = …`. -/
  | delete (value : V)
  deriving DecidableEq

namespace Statement

variable {V : Type*} [DecidableEq V]

/-- The rows of the table after the statement. -/
def exec : Statement V → List V → List V
  | insert rows, table => table ++ rows
  | delete value, table => table.filter (· ≠ value)

/-- The rows of the table after several statements. -/
def execAll (statements : List (Statement V)) (table : List V) : List V :=
  statements.foldl (fun table statement => statement.exec table) table

@[simp] theorem mem_exec_insert {rows table : List V} {v : V} :
    v ∈ (insert rows).exec table ↔ v ∈ table ∨ v ∈ rows :=
  List.mem_append

@[simp] theorem mem_exec_delete {table : List V} {value v : V} :
    v ∈ (delete value).exec table ↔ v ∈ table ∧ v ≠ value := by
  simp [exec]

/-- The statement with its values renamed. -/
def map {W : Type*} (f : V → W) : Statement V → Statement W
  | insert rows => insert (rows.map f)
  | delete value => delete (f value)

/-- Where different values have different names, renaming them does not matter. -/
theorem exec_map {W : Type*} [DecidableEq W] {f : V → W} (hf : Function.Injective f)
    (statement : Statement V) (table : List V) :
    (statement.map f).exec (table.map f) = (statement.exec table).map f := by
  cases statement with
  | insert rows => exact List.map_append.symm
  | delete value =>
      simp only [map, exec, List.filter_map]
      congr 2
      funext v
      simp [hf.eq_iff]

end Statement

/-- The bytes of a text of ASCII characters. -/
def ascii (text : String) : List UInt8 := text.toList.map fun c => UInt8.ofNat c.toNat

/-- The single quote. -/
def quote : UInt8 := 39

/-- A byte of a name or keyword: a letter, a digit, the underscore or no ASCII character. -/
def isWord (c : UInt8) : Bool :=
  (48 ≤ c && c ≤ 57) || (65 ≤ c && c ≤ 90) || (97 ≤ c && c ≤ 122) || c == 95 || 128 ≤ c

/-- A byte that separates tokens: tab, line feed, form feed, carriage return or space. -/
def isSpace (c : UInt8) : Bool := c == 9 || c == 10 || c == 12 || c == 13 || c == 32

/-- A token. -/
inductive Token
  /-- A name or keyword. -/
  | word (chars : List UInt8)
  /-- A string literal, by its value. -/
  | literal (value : List UInt8)
  /-- Any other character. -/
  | symbol (char : UInt8)
  deriving DecidableEq

/-- What the lexer has read of the current token. -/
inductive Mode
  /-- A word, which is empty between tokens. -/
  | plain (chars : List UInt8)
  /-- A literal, after its opening quote. -/
  | literal (value : List UInt8)
  /-- A literal and a quote, which ends it unless another one follows. -/
  | quoted (value : List UInt8)
  deriving DecidableEq

/-- The token of a word that has been read. -/
def flush (chars : List UInt8) : List Token := if chars = [] then [] else [.word chars]

/-- A character outside of literals: the tokens that it ends, and what follows. -/
def stepPlain (chars : List UInt8) (c : UInt8) : List Token × Mode :=
  if c = quote then (flush chars, .literal [])
  else if isWord c then ([], .plain (chars ++ [c]))
  else if isSpace c then (flush chars, .plain [])
  else (flush chars ++ [.symbol c], .plain [])

/-- One character: the tokens that it ends, and what follows. -/
def step : Mode → UInt8 → List Token × Mode
  | .plain chars, c => stepPlain chars c
  | .literal value, c =>
      if c = quote then ([], .quoted value) else ([], .literal (value ++ [c]))
  | .quoted value, c =>
      -- two quotes stand for one
      if c = quote then ([], .literal (value ++ [quote]))
      else (.literal value :: (stepPlain [] c).1, (stepPlain [] c).2)

/-- The end of the text; it is an error inside a literal. -/
def finish : Mode → Option (List Token)
  | .plain chars => some (flush chars)
  | .literal _ => none
  | .quoted value => some [.literal value]

/-- The characters of a text, one after the other. -/
def scan : Mode → List UInt8 → List Token × Mode
  | mode, [] => ([], mode)
  | mode, c :: cs =>
      let (tokens, mode) := step mode c
      let (tokens', mode) := scan mode cs
      (tokens ++ tokens', mode)

/-- The tokens of a text that is read from a mode on. -/
def lex (mode : Mode) (text : List UInt8) : Option (List Token) :=
  (finish (scan mode text).2).map ((scan mode text).1 ++ ·)

/-- The rows of a `VALUES` list. -/
def parseRows : List Token → Option (List (List UInt8))
  | [.symbol 40, .literal value, .symbol 41] => some [value]
  | .symbol 40 :: .literal value :: .symbol 41 :: .symbol 44 :: rest =>
      (parseRows rest).map (value :: ·)
  | _ => none

/-- The names of a table and of its text column. -/
structure Schema where
  /-- The table. -/
  table : List UInt8
  /-- The column. -/
  column : List UInt8

/-- A statement on the table. -/
def parseStatement (schema : Schema) : List Token → Option (Statement (List UInt8))
  | .word w₁ :: .word w₂ :: .word table :: .symbol 40 :: .word column :: .symbol 41 :: .word w₃ ::
      rest =>
      if w₁ = ascii "INSERT" ∧ w₂ = ascii "INTO" ∧ w₃ = ascii "VALUES" ∧
          table = schema.table ∧ column = schema.column then
        (parseRows rest).map .insert
      else none
  | [.word w₁, .word w₂, .word table, .word w₃, .word column, .symbol 61, .literal value] =>
      if w₁ = ascii "DELETE" ∧ w₂ = ascii "FROM" ∧ w₃ = ascii "WHERE" ∧
          table = schema.table ∧ column = schema.column then
        some (.delete value)
      else none
  | _ => none

/-- The statements of a text: they are separated by semicolons, and may be empty. -/
def statements (schema : Schema) (text : List UInt8) : Option (List (Statement (List UInt8))) := do
  let tokens ← lex (.plain []) text
  ((tokens.splitOn (.symbol 59)).filter (· ≠ [])).mapM (parseStatement schema)

/-- A value as it is written inside a literal. -/
def escape (value : List UInt8) : List UInt8 :=
  value.flatMap fun c => if c = quote then [quote, quote] else [c]

/-- Reading a text in two parts. -/
theorem scan_append (mode : Mode) (xs ys : List UInt8) :
    scan mode (xs ++ ys) =
      ((scan mode xs).1 ++ (scan (scan mode xs).2 ys).1, (scan (scan mode xs).2 ys).2) := by
  induction xs generalizing mode with
  | nil => rfl
  | cons x xs ih => simp only [List.cons_append, scan, ih, List.append_assoc]

/-- The tokens of a text in two parts. -/
theorem lex_append (mode : Mode) (xs ys : List UInt8) :
    lex mode (xs ++ ys) = (lex (scan mode xs).2 ys).map ((scan mode xs).1 ++ ·) := by
  simp only [lex, scan_append, Option.map_map]
  congr 1
  ext1 tokens
  simp

/-- The tokens of a text after its first character. -/
theorem lex_cons (mode : Mode) (c : UInt8) (cs : List UInt8) :
    lex mode (c :: cs) = (lex (step mode c).2 cs).map ((step mode c).1 ++ ·) := by
  have h := lex_append mode [c] cs
  simpa only [List.cons_append, List.nil_append, scan, List.append_nil] using h

/-- Characters other than quotes extend the literal in which they stand. -/
theorem scan_literal (value : List UInt8) {s : List UInt8} (h : quote ∉ s) :
    scan (.literal value) s = ([], .literal (value ++ s)) := by
  induction s generalizing value with
  | nil => simp [scan]
  | cons c s ih =>
      rw [List.mem_cons, not_or] at h
      have hstep : step (.literal value) c = ([], .literal (value ++ [c])) := by
        rw [step, if_neg (Ne.symm h.1)]
      simp only [scan, hstep, ih _ h.2, List.nil_append, List.append_assoc, List.singleton_append]

/-- What is read as a literal was written with its quotes doubled. -/
theorem exists_of_lex_literal {value text : List UInt8} {tokens : List Token}
    (h : lex (.literal value) text = some tokens) :
    ∃ written rest tokens', text = escape written ++ quote :: rest ∧
      tokens = .literal (value ++ written) :: tokens' := by
  induction text using List.twoStepInduction generalizing value tokens with
  | nil => cases h
  | singleton c =>
      by_cases hc : c = quote
      · subst hc
        exact ⟨[], [], [], rfl, by simpa [lex, scan, step, finish] using h.symm⟩
      · simp [lex, scan, step, hc, finish] at h
  | cons_cons c d text ihTail ih =>
      by_cases hc : c = quote
      · subst hc
        rw [lex_cons, lex_cons] at h
        by_cases hd : d = quote
        · subst hd
          simp only [step, ↓reduceIte, List.nil_append, Option.map_id'] at h
          obtain ⟨written, rest, tokens', htext, htokens⟩ := ihTail h
          exact ⟨quote :: written, rest, tokens', by simp [escape, htext], by simpa using htokens⟩
        -- the quote stands alone, so it ends the literal
        · simp only [step, ↓reduceIte, hd, List.nil_append, Option.map_id'] at h
          obtain ⟨tokens', -, htokens⟩ := Option.map_eq_some_iff.mp h
          exact ⟨[], d :: text, _, rfl, by simpa using htokens.symm⟩
      · rw [lex_cons, step, if_neg hc] at h
        simp only [List.nil_append, Option.map_id'] at h
        obtain ⟨written, rest, tokens', htext, htokens⟩ := ih d h
        exact ⟨c :: written, rest, tokens', by simp [escape, hc, htext], by simpa using htokens⟩

theorem length_escape (value : List UInt8) :
    (escape value).length = value.length + value.count quote := by
  induction value with
  | nil => rfl
  | cons c value ih =>
      have hcons : escape (c :: value) =
          (if c = quote then [quote, quote] else [c]) ++ escape value := rfl
      rw [hcons, List.length_append, ih, List.length_cons, List.count_cons]
      by_cases hc : c = quote
      · simp [hc]
        omega
      · simp [hc]
        omega

/-- What precedes a separator belongs to the first segment. -/
theorem splitOn_append {α : Type*} [DecidableEq α] {sep : α} {xs : List α} (h : sep ∉ xs)
    (ys : List α) : (xs ++ ys).splitOn sep = (ys.splitOn sep).modifyHead (xs ++ ·) := by
  induction xs with
  | nil => exact (congrFun List.modifyHead_id _).symm
  | cons x xs ih =>
      rw [List.mem_cons, not_or] at h
      have hx : (x == sep) = false := by simpa using Ne.symm h.1
      rw [List.cons_append, List.splitOn_cons_eq_if_modifyHead, hx, ih h.2]
      simp [List.modifyHead_modifyHead, Function.comp_def]

/-- The tokens in front of the first semicolon of a text that is read as one statement belong to
this statement. -/
theorem exists_of_statements {schema : Schema} {text : List UInt8} {head rest : List Token}
    {statement : Statement (List UInt8)} (hlex : lex (.plain []) text = some (head ++ rest))
    (hsep : Token.symbol 59 ∉ head) (hhead : head ≠ [])
    (h : statements schema text = some [statement]) :
    ∃ rest', parseStatement schema (head ++ rest') = some statement := by
  obtain ⟨rest', segments, hsplit⟩ :=
    List.exists_cons_of_ne_nil (List.splitOn_ne_nil (.symbol 59) rest)
  refine ⟨rest', ?_⟩
  simp only [statements, hlex, Option.bind_eq_bind, Option.bind_some, splitOn_append hsep, hsplit,
    List.modifyHead_cons] at h
  rw [List.filter_cons_of_pos (by simp [hhead]), List.mapM_cons] at h
  obtain ⟨first, hfirst, h⟩ := Option.bind_eq_some_iff.mp h
  obtain ⟨others, -, h⟩ := Option.bind_eq_some_iff.mp h
  have hcons : first :: others = [statement] := Option.some.inj h
  rw [hfirst, (List.cons.inj hcons).1]

/-- The tokens of an insertion, up to its first value. -/
def insertHead (schema : Schema) : List Token :=
  [.word (ascii "INSERT"), .word (ascii "INTO"), .word schema.table, .symbol 40,
    .word schema.column, .symbol 41, .word (ascii "VALUES"), .symbol 40]

/-- The tokens of a deletion, up to its value. -/
def deleteHead (schema : Schema) : List Token :=
  [.word (ascii "DELETE"), .word (ascii "FROM"), .word schema.table, .word (ascii "WHERE"),
    .word schema.column, .symbol 61]

/-- A text without quotes, put behind an opening quote and in front of a closing one. -/
theorem lex_of_notMem {text : List UInt8} {head : List Token}
    (htext : scan (.plain []) text = (head, .literal [])) {s : List UInt8} (hs : quote ∉ s)
    (tail : List UInt8) :
    lex (.plain []) (text ++ (s ++ quote :: tail)) = (lex (.quoted s) tail).map (head ++ ·) := by
  have hstep : step (.literal s) quote = ([], .quoted s) := rfl
  rw [lex_append, htext, lex_append, scan_literal [] hs, List.nil_append, lex_cons, hstep]
  simp only [List.nil_append, Option.map_id']

/-- A text behind an opening quote, when it is read as part of one statement: what is read as the
first literal of this statement was written with its quotes doubled. -/
theorem exists_written_of_statements {schema : Schema} {text text' : List UInt8}
    {head : List Token} {statement : Statement (List UInt8)}
    (htext : scan (.plain []) text = (head, .literal [])) (hsep : Token.symbol 59 ∉ head)
    (h : statements schema (text ++ text') = some [statement]) :
    ∃ written rest rest', text' = escape written ++ quote :: rest ∧
      parseStatement schema (head ++ .literal written :: rest') = some statement := by
  cases hlex : lex (.literal []) text' with
  | none => simp [statements, lex_append, htext, hlex] at h
  | some tokens =>
      obtain ⟨written, rest, tokens', hs, rfl⟩ := exists_of_lex_literal hlex
      have htokens : lex (.plain []) (text ++ text') =
          some ((head ++ [.literal written]) ++ tokens') := by
        rw [lex_append, htext, hlex]
        simp
      obtain ⟨rest', hparse⟩ := exists_of_statements htokens (by simp [hsep]) (by simp) h
      exact ⟨written, rest, rest', hs, by simpa using hparse⟩

/-- A text that is itself read as the literal in which it stands contains no quote, if at most one
character follows the quote behind it. -/
theorem notMem_of_escape {s rest tail : List UInt8} (htail : tail.length ≤ 1)
    (hquote : tail ≠ [quote]) (h : s ++ quote :: tail = escape s ++ quote :: rest) :
    quote ∉ s := by
  intro hmem
  have hcount : 0 < s.count quote := List.count_pos_iff.mpr hmem
  have hlen := congrArg List.length h
  simp only [List.length_append, List.length_cons, length_escape] at hlen
  -- a quote of `s` takes the place of the only character behind the quote
  obtain rfl : rest = [] := List.eq_nil_of_length_eq_zero (by omega)
  obtain ⟨c, rfl⟩ : ∃ c, tail = [c] :=
    List.length_eq_one_iff.mp (by rw [List.length_nil] at hlen; omega)
  have hlast : c = quote := by simpa using congrArg List.getLast? h
  exact hquote (by rw [hlast])

/-- The first value of an insertion is among its rows. -/
theorem eq_of_parseStatement_insert {schema : Schema} {written s : List UInt8} {rest : List Token}
    (h : parseStatement schema (insertHead schema ++ .literal written :: rest) =
      some (.insert [s])) : written = s := by
  simp only [insertHead, List.cons_append, List.nil_append, parseStatement] at h
  rw [if_pos (by simp)] at h
  obtain ⟨rows, hrows, heq⟩ := Option.map_eq_some_iff.mp h
  obtain rfl := Statement.insert.inj heq
  unfold parseRows at hrows
  split at hrows
  · simp_all
  · simp_all
  · cases hrows

/-- The value of a deletion. -/
theorem eq_of_parseStatement_delete {schema : Schema} {written s : List UInt8} {rest : List Token}
    (h : parseStatement schema (deleteHead schema ++ .literal written :: rest) =
      some (.delete s)) : written = s := by
  cases rest with
  | nil =>
      simp only [deleteHead, List.cons_append, List.nil_append, parseStatement] at h
      rw [if_pos (by simp)] at h
      exact Statement.delete.inj (Option.some.inj h)
  | cons token rest => simp [deleteHead, parseStatement] at h

/-- A value that is put between the quotes of an insertion is read as this value exactly when it
contains no quote. -/
theorem statements_insert_iff {schema : Schema} {text : List UInt8}
    (htext : scan (.plain []) text = (insertHead schema, .literal [])) (s : List UInt8) :
    statements schema (text ++ (s ++ [quote, 41])) = some [.insert [s]] ↔ quote ∉ s := by
  constructor
  · intro h
    obtain ⟨written, rest, rest', htail, hparse⟩ :=
      exists_written_of_statements htext (by simp [insertHead]) h
    obtain rfl := eq_of_parseStatement_insert hparse
    exact notMem_of_escape (by simp) (by decide) htail
  · intro hs
    have hlex : lex (.quoted s) [41] = some [.literal s, .symbol 41] := rfl
    rw [statements, lex_of_notMem htext hs, hlex]
    simp [insertHead, List.splitOn_eq_singleton, parseStatement, parseRows]

/-- A value that is put between the quotes of a deletion is read as this value exactly when it
contains no quote. -/
theorem statements_delete_iff {schema : Schema} {text : List UInt8}
    (htext : scan (.plain []) text = (deleteHead schema, .literal [])) (s : List UInt8) :
    statements schema (text ++ (s ++ [quote])) = some [.delete s] ↔ quote ∉ s := by
  constructor
  · intro h
    obtain ⟨written, rest, rest', htail, hparse⟩ :=
      exists_written_of_statements htext (by simp [deleteHead]) h
    obtain rfl := eq_of_parseStatement_delete hparse
    exact notMem_of_escape (by simp) (by simp) htail
  · intro hs
    have hlex : lex (.quoted s) [] = some [.literal s] := rfl
    rw [statements, lex_of_notMem htext hs, hlex]
    simp [deleteHead, List.splitOn_eq_singleton, parseStatement]

end Sql

import PocoEcho.Library.Prompts
import PocoEcho.Library.Words
import PocoEcho.Server.Console
import PocoEcho.Server.WhiteListRestart

/-!
# Typed sessions of the server

What is typed on the console of the server: the words of the text are numbers of actions and
addresses, laid out in any way. The actions call `Add` and `Remove`, which change the list in memory
and, by the texts of their statements, the table that the next start loads its list from.

## Main definitions

* `ServerConsole.run`: the console;
* `ServerConsole.Script`: the words of a session, and the calls that they make.

## Main results

* `ServerConsole.reloads_typed`: at every prompt of a session, the next start would load the list
  that the calls typed so far have made.
-/

namespace PocoEcho

namespace WhiteListEntry

/-- The number of the action that makes the call. -/
def number : WhiteListEntry → ℤ
  | add _ _ => 1
  | remove _ _ => 2

/-- The address that is entered. -/
def address : WhiteListEntry → EnteredAddress
  | add address _ => address
  | remove address _ => address

/-- How many statements of the text are executed. -/
def executed : WhiteListEntry → ℕ
  | add _ executed => executed
  | remove _ executed => executed

end WhiteListEntry

namespace ServerConsole

open Console Istream

/-- `run`: `ShowHelp` is called for ever. -/
def run {σ W : Type} (console : Console σ) (add remove : W → CString → Bool × W)
    (stray : ℕ → CString) : ℕ → Session σ W →
      Logged (Occurrence σ Empty) (Stop Fault) (Session σ W) :=
  forever (showHelp console add remove stray)

/-- What the commands work on. -/
structure Data where
  /-- The list and the table; `none` once a text has overflowed its array, or was not in the
  fragment of SQL. -/
  store : Option WhiteListStore
  /-- How many statements of its text each of the next calls executes if it is reached. -/
  executed : List ℕ

namespace Data

/-- A call of a function of `CWhiteList`. -/
def change (call : WhiteListStore → CString → ℕ → Option (Bool × WhiteListStore))
    (data : Data) (szIp : CString) : Bool × Data :=
  match data.store.bind fun store => call store szIp (data.executed.headD 0) with
  | some (changed, store) => (changed, { store := some store, executed := data.executed.tail })
  | none => (false, { store := none, executed := data.executed.tail })

/-- `CWhiteList::Add`. -/
def add : Data → CString → Bool × Data := change WhiteListStore.addText

/-- `CWhiteList::Remove`. -/
def remove : Data → CString → Bool × Data := change WhiteListStore.removeText

end Data

/-- The words that are typed until the program ends, and the calls that they make. -/
inductive Script : List (List UInt8) → List WhiteListEntry → Prop
  /-- The number of the action that ends the program; what follows is not read. -/
  | exit {word : List UInt8} {ws : List (List UInt8)} (hword : intOfWord word = some 3) :
      Script (word :: ws) []
  /-- The number of an action that changes the list, and an address. -/
  | call {word token : List UInt8} {ws : List (List UInt8)} {entry : WhiteListEntry}
      {entries : List WhiteListEntry} (hword : intOfWord word = some entry.number)
      (hfits : token.length < 16) (htoken : CString.ofPrefix token = entry.address.toCString)
      (hnext : Script ws entries) : Script (word :: token :: ws) (entry :: entries)
  /-- A number that no action has. -/
  | unknown {word : List UInt8} {ws : List (List UInt8)} {entries : List WhiteListEntry}
      {iAction : ℤ} (hword : intOfWord word = some iAction) (hone : iAction ≠ 1)
      (htwo : iAction ≠ 2) (hthree : iAction ≠ 3) (hnext : Script ws entries) :
      Script (word :: ws) entries

/-- The actions of the console. -/
abbrev actions (stray : ℕ → CString) : Action Istream Data Empty Fault :=
  getAction ofIstream Data.add Data.remove stray

section
variable {stray : ℕ → CString} {prompt : Prompt Istream Data} {word token : List UInt8}
  {ws : List (List UInt8)}

/-- The program ends. -/
theorem exits_of_three (hoffers : prompt.session.input.Offers (word :: ws))
    (hword : intOfWord word = some 3) : prompt.Exits ofIstream (actions stray) := by
  obtain ⟨hint, -⟩ := hoffers.readInt hword
  exact ⟨_, _, readInt_ofIstream hint, 0, fun fuel _ => rfl⟩

/-- The prompt is repeated. -/
theorem next_of_unknown {iAction : ℤ} (hoffers : prompt.session.input.Offers (word :: ws))
    (hword : intOfWord word = some iAction) (hone : iAction ≠ 1) (htwo : iAction ≠ 2)
    (hthree : iAction ≠ 3) :
    ∃ next, prompt.Next ofIstream (actions stray) next ∧ next.session.input.Offers ws ∧
      next.session.data = prompt.session.data := by
  obtain ⟨hint, hoffers⟩ := hoffers.readInt hword
  have hanswers : prompt.Answers ofIstream (actions stray)
      (.ok (false, { prompt.session with input := prompt.session.input.readInt.2 })) := by
    refine ⟨_, _, readInt_ofIstream hint, 0, fun fuel _ => ?_⟩
    rw [actions, getAction, if_neg hone, if_neg htwo, if_neg hthree]
    rfl
  exact ⟨_, .refused hanswers, hoffers, rfl⟩

/-- An action that changes the list. -/
theorem getAction_of_number {entry : WhiteListEntry} (session : Session Istream Data)
    {store : WhiteListStore} {executed : List ℕ}
    (htoken : session.input.readToken.1 = some token) (hfits : token.length < 16)
    (haddress : CString.ofPrefix token = entry.address.toCString)
    (hdata : session.data = { store := some store, executed := entry.executed :: executed })
    (depth fuel : ℕ) :
    actions stray depth fuel entry.number session =
      pure ((store.call entry.call).1,
        { input := session.input.readToken.2
          data := { store := some (store.call entry.call).2, executed } }) := by
  have hcall := store.enter_eq entry
  cases entry with
  | add address n =>
      rw [actions, getAction, WhiteListEntry.number, if_pos rfl, changeList_of_lt htoken hfits]
      simp only [WhiteListStore.enter] at hcall
      simp [Data.add, Data.change, hdata, haddress, WhiteListEntry.address, WhiteListEntry.executed,
        hcall]
  | remove address n =>
      rw [actions, getAction, WhiteListEntry.number, if_neg (by decide), if_pos rfl,
        changeList_of_lt htoken hfits]
      simp only [WhiteListStore.enter] at hcall
      simp [Data.remove, Data.change, hdata, haddress, WhiteListEntry.address,
        WhiteListEntry.executed, hcall]

/-- A call is made, and a prompt follows. -/
theorem next_of_call {entry : WhiteListEntry} {store : WhiteListStore} {executed : List ℕ}
    (hoffers : prompt.session.input.Offers (word :: token :: ws))
    (hword : intOfWord word = some entry.number) (hfits : token.length < 16)
    (htoken : CString.ofPrefix token = entry.address.toCString)
    (hdata : prompt.session.data =
      { store := some store, executed := entry.executed :: executed }) :
    ∃ next, prompt.Next ofIstream (actions stray) next ∧ next.session.input.Offers ws ∧
      next.session.data = { store := some (store.call entry.call).2, executed } := by
  obtain ⟨hint, hoffers⟩ := hoffers.readInt hword
  obtain ⟨hread, hoffers⟩ := hoffers.readToken
  have hanswers : prompt.Answers ofIstream (actions stray) (.ok ((store.call entry.call).1,
      { input := prompt.session.input.readInt.2.readToken.2
        data := { store := some (store.call entry.call).2, executed } })) := by
    refine ⟨_, _, readInt_ofIstream hint, 0, fun fuel _ => ?_⟩
    exact congrArg Logged.result
      (getAction_of_number { prompt.session with input := prompt.session.input.readInt.2 } hread
        hfits htoken hdata prompt.depth fuel)
  cases hcalled : (store.call entry.call).1 with
  | true =>
      rw [hcalled] at hanswers
      exact ⟨_, .performed hanswers, hoffers, rfl⟩
  | false =>
      rw [hcalled] at hanswers
      exact ⟨_, .refused hanswers, hoffers, rfl⟩

end

/-- At a prompt of a session: the words that are still to be read make the calls of the rest, and
the calls made so far have brought list and table to where they are. -/
structure Typed (start : WhiteListStore) (made : List WhiteListEntry) (ws : List (List UInt8))
    (rest : List WhiteListEntry) (session : Session Istream Data) : Prop where
  /-- These are the words that are left. -/
  offers : session.input.Offers ws
  /-- They make the calls of the rest. -/
  script : Script ws rest
  /-- The calls have been made, and these are the outcomes of the ones to come. -/
  data_eq : session.data =
    { store := some (start.run (made.map (·.call))), executed := rest.map (·.executed) }

section
variable {stray : ℕ → CString} {start : WhiteListStore} {made rest : List WhiteListEntry}
  {ws : List (List UInt8)} {prompt next : Prompt Istream Data}

/-- At a prompt, the program ends when all calls have been made, or goes on to the next one. -/
theorem Typed.step (h : Typed start made ws rest prompt.session) :
    rest = [] ∧ prompt.Exits ofIstream (actions stray) ∨
      ∃ next made' ws' rest', prompt.Next ofIstream (actions stray) next ∧
        ws'.length < ws.length ∧ made' ++ rest' = made ++ rest ∧
        Typed start made' ws' rest' next.session := by
  obtain ⟨hoffers, hscript, hdata⟩ := h
  cases hscript with
  | exit hword => exact .inl ⟨rfl, exits_of_three hoffers hword⟩
  | @call word token ws entry rest hword hfits htoken hscript =>
      obtain ⟨next, hnext, hoffers', hdata'⟩ := next_of_call hoffers hword hfits htoken hdata
      have hmade : start.run ((made ++ [entry]).map (·.call)) =
          ((start.run (made.map (·.call))).call entry.call).2 := by
        rw [List.map_append, WhiteListStore.run_append]
        rfl
      exact .inr ⟨next, made ++ [entry], ws, rest, hnext,
        Nat.lt_add_of_pos_right (Nat.succ_pos 1), by simp, hoffers', hscript, hmade ▸ hdata'⟩
  | @unknown word ws _ _ hword hone htwo hthree hscript =>
      obtain ⟨next, hnext, hoffers', hdata'⟩ :=
        next_of_unknown hoffers hword hone htwo hthree
      exact .inr ⟨next, made, ws, rest, hnext, Nat.lt_succ_self _, rfl, hoffers', hscript,
        hdata'.trans hdata⟩

/-- At every prompt that the program comes to, calls have been made and the others are left. -/
theorem Typed.of_leads (h : Typed start made ws rest prompt.session)
    (hleads : prompt.Leads ofIstream (actions stray) next) :
    ∃ made' ws' rest', made' ++ rest' = made ++ rest ∧
      Typed start made' ws' rest' next.session := by
  induction hleads with
  | refl => exact ⟨made, ws, rest, rfl, h⟩
  | tail _ hnext ih =>
      obtain ⟨made₁, ws₁, rest₁, heq₁, htyped₁⟩ := ih
      rcases htyped₁.step with ⟨-, hexits⟩ | ⟨next', made', ws', rest', hnext', -, heq, htyped⟩
      · exact absurd hnext hexits.not_next
      · obtain rfl := hnext.eq hnext'
        exact ⟨made', ws', rest', heq.trans heq₁, htyped⟩

/-- The program comes to a prompt at which it ends. -/
theorem Typed.exists_exits (h : Typed start made ws rest prompt.session) (stray : ℕ → CString) :
    ∃ last, prompt.Leads ofIstream (actions stray) last ∧ last.Exits ofIstream (actions stray) := by
  induction hn : ws.length using Nat.strong_induction_on generalizing made ws rest prompt with
  | _ n ih =>
      rcases h.step with ⟨-, hexits⟩ | ⟨next, made', ws', rest', hnext, hlt, -, htyped⟩
      · exact ⟨prompt, .refl, hexits⟩
      · obtain ⟨last, hleads, hexits⟩ := ih ws'.length (hn ▸ hlt) htyped rfl
        exact ⟨last, .head hnext hleads, hexits⟩

end

open WhiteListStore in
/-- Whatever uninitialised memory holds and whatever statements fail: the console of a server that
has loaded its list from a table without NUL, and is given the text of a session, ends at its last
word. At every prompt before, so also when the program is ended there from outside, it has made the
calls of the commands typed so far, all of them at the last prompt, and the list that the next start
loads is the one in memory. How the text is laid out does not matter, nor does what follows the end
of the session. -/
theorem reloads_typed {text : List UInt8} {entries : List WhiteListEntry}
    (h : Script (words text) entries) {table : List (List UInt8)} (hnul : NulFree table)
    {whiteList : CWhiteList} (hload : Loaded table whiteList) (stray : ℕ → CString) :
    let session : Session Istream Data :=
      { input := { unread := text, failed := false }
        data := { store := some { whiteList, table }, executed := entries.map (·.executed) } }
    (∃ bound, ∀ fuel, bound ≤ fuel →
      (run ofIstream Data.add Data.remove stray fuel session).result = .error .exit) ∧
    ∀ prompt : Prompt Istream Data,
      Prompt.Leads ofIstream (actions stray) { depth := 0, session } prompt →
      ∃ made, made <+: entries ∧
        (prompt.Exits ofIstream (actions stray) → made = entries) ∧
        let store := WhiteListStore.run { whiteList, table } (made.map (·.call))
        prompt.session.data.store = some store ∧
        ∀ reloaded, Loaded store.table reloaded → reloaded = store.whiteList := by
  intro session
  let first : Prompt Istream Data := { depth := 0, session }
  have htyped : Typed { whiteList, table } [] (words text) entries first.session :=
    { offers := ⟨rfl, rfl⟩, script := h, data_eq := rfl }
  constructor
  · obtain ⟨last, hleads, hexits⟩ := htyped.exists_exits stray
    exact Prompt.exit_of_leads hleads hexits
  intro prompt hleads
  obtain ⟨made, ws, rest, heq, htyped'⟩ := htyped.of_leads hleads
  refine ⟨made, ⟨rest, heq⟩, ?_, congrArg Data.store htyped'.data_eq, ?_⟩
  · intro hexits
    rcases htyped'.step with ⟨rfl, -⟩ | ⟨next, -, -, -, hnext, -⟩
    · simpa using heq
    · exact absurd hnext hexits.not_next
  · -- both copies agree after any calls, so that the list is loaded as it is
    intro reloaded hreload
    have hcalls : ∀ c ∈ made.map (·.call), c.NulFree :=
      List.forall_mem_map.mpr fun entry _ => entry.nulFree_call
    exact hreload.eq_of_agrees (NulFree.run hnul hcalls) ((hload.agrees hnul).run _)

/-- A number that no action has, an address that is added, and a removal that fails; something
follows the end of the session. -/
def digitText : List UInt8 :=
  [0x39, 0x20, 0x31, 0x20, 0x31, 0x0A, 0x2B, 0x32, 0x09, 0x31, 0x20, 0x33, 0x20, 0x78]

/-- The session that starts with an empty table. -/
def digitSession : Session Istream Data :=
  { input := { unread := digitText, failed := false }
    data := { store := some { whiteList := .new, table := [] }, executed := [1, 0] } }

theorem reloads_typed_of_digit :
    (∃ bound, ∀ fuel, bound ≤ fuel →
      (run ofIstream Data.add Data.remove (fun _ => .empty) fuel digitSession).result =
        .error .exit) ∧
    ∀ prompt : Prompt Istream Data,
      Prompt.Leads ofIstream (actions fun _ => .empty) { depth := 0, session := digitSession }
        prompt → prompt.Exits ofIstream (actions fun _ => .empty) →
      prompt.session.data.store =
        some { whiteList := { acceptList := {stdString [0x31]} }, table := [[0x31]] } := by
  have hwords : words digitText =
      [[0x39], [0x31], [0x31], [0x2B, 0x32], [0x31], [0x33], [0x78]] := by decide
  have hscript : Script (words digitText) [.add digitAddress 1, .remove digitAddress 0] := by
    have hnine : intOfWord [0x39] = some 9 := by decide
    rw [hwords]
    exact .unknown hnine (by decide) (by decide) (by decide)
      (.call (by decide) (by decide) rfl (.call (by decide) (by decide) rfl (.exit (by decide))))
  have hnul : WhiteListStore.NulFree [] := by simp [WhiteListStore.NulFree]
  have hload : WhiteListStore.Loaded [] .new := ⟨true, true, rfl⟩
  obtain ⟨hexit, hreloads⟩ := reloads_typed hscript hnul hload fun _ => .empty
  refine ⟨hexit, fun prompt hleads hexits => ?_⟩
  obtain ⟨made, -, hmade, hstore, -⟩ := hreloads prompt hleads
  rw [hmade hexits] at hstore
  exact hstore

end ServerConsole

end PocoEcho

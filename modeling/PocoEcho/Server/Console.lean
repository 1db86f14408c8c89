import PocoEcho.Library.Console
import PocoEcho.Network.Environment

/-!
# The server's console

`CActionManager` of the server: `ShowHelp` and `GetAction`, over any functions that add an address
to the whitelist and remove one from it.

## Main definitions

* `ServerConsole.getAction` and `ServerConsole.showHelp`;
* `ServerConsole.Accepts` and `ServerConsole.Refuses`: the actions that are performed and those
  after which `ShowHelp` calls itself.

## Main results

* `ServerConsole.describes_getAction`: what the actions do on a stream.
-/

namespace PocoEcho.ServerConsole

open Console

variable {σ W : Type}

/-- The cases of `GetAction` that change the whitelist: `Add` or `Remove` is called with what the
array `szIp` of 16 characters holds. -/
def changeList (console : Console σ) (change : W → CString → Bool × W) (stray : CString)
    (session : Session σ W) : Logged (Occurrence σ Empty) (Stop Fault) (Bool × Session σ W) := do
  let (szIp, input) ← readArray console 16 .accessViolation stray session.input
  let (changed, whiteList) := change session.data szIp
  return (changed, { input, data := whiteList })

/-- `GetAction`; `stray` is what the arrays hold when nothing is read into them. -/
def getAction (console : Console σ) (add remove : W → CString → Bool × W) (stray : ℕ → CString) :
    Action σ W Empty Fault :=
  fun depth _ iAction session =>
    if iAction = 1 then changeList console add (stray depth) session
    else if iAction = 2 then changeList console remove (stray depth) session
    else if iAction = 3 then Logged.throw .exit
    else return (false, session)

/-- `ShowHelp`, with at most `fuel` nested calls. -/
def showHelp (console : Console σ) (add remove : W → CString → Bool × W) (stray : ℕ → CString)
    (fuel : ℕ) (session : Session σ W) :
    Logged (Occurrence σ Empty) (Stop Fault) (Session σ W) :=
  ask console (getAction console add remove stray) fuel 0 session

/-- The address that is entered fits the array and the change succeeds; if none is entered, the
change succeeds with whatever the array holds. -/
def EntryAccepted (change : W → CString → Bool × W) (session : Session Istream W) : Prop :=
  match session.input.readToken.1 with
  | some token => token.length < 16 ∧ (change session.data (.ofPrefix token)).1 = true
  | none => ∀ szIp, (change session.data szIp).1 = true

/-- The address that is entered fits the array and the change fails. -/
def EntryRefused (change : W → CString → Bool × W) (session next : Session Istream W) : Prop :=
  ∃ token, session.input.readToken.1 = some token ∧ token.length < 16 ∧
    change session.data (.ofPrefix token) = (false, next.data) ∧
      next.input = session.input.readToken.2

variable (add remove : W → CString → Bool × W)

/-- The action is performed, or ends the program. -/
def Accepts (iAction : ℤ) (session : Session Istream W) : Prop :=
  iAction = 3 ∨ iAction = 1 ∧ EntryAccepted add session ∨ iAction = 2 ∧ EntryAccepted remove session

/-- The action is refused: the change fails, or there is no such action. -/
def Refuses (iAction : ℤ) (session next : Session Istream W) : Prop :=
  iAction = 1 ∧ EntryRefused add session next ∨ iAction = 2 ∧ EntryRefused remove session next ∨
    (iAction ≠ 1 ∧ iAction ≠ 2 ∧ iAction ≠ 3) ∧ next = session

variable {add remove} {change : W → CString → Bool × W} {session next : Session Istream W}

/-- A change with an address that fits the array. -/
theorem changeList_of_lt {stray : CString} {token : List UInt8}
    (h : session.input.readToken.1 = some token) (hlt : token.length < 16) :
    changeList ofIstream change stray session =
      pure ((change session.data (.ofPrefix token)).1,
        { input := session.input.readToken.2
          data := (change session.data (.ofPrefix token)).2 }) := by
  rw [changeList, readArray_of_lt (readToken_ofIstream h) hlt]
  rfl

/-- A change with an address that overflows the array. -/
theorem changeList_of_le {stray : CString} {token : List UInt8}
    (h : session.input.readToken.1 = some token) (hle : 16 ≤ token.length) :
    changeList ofIstream change stray session = Logged.throw (.fault .accessViolation) := by
  rw [changeList, readArray_of_le (readToken_ofIstream h) hle]
  rfl

/-- A change with whatever the array holds. -/
theorem changeList_of_none {stray : CString} (h : session.input.readToken.1 = none) :
    changeList ofIstream change stray session =
      pure ((change session.data stray).1,
        { input := session.input.readToken.2, data := (change session.data stray).2 }) := by
  rw [changeList, readArray_of_none (readToken_ofIstream h)]
  rfl

/-- An accepted entry changes the list. -/
theorem changeList_of_accepted (h : EntryAccepted change session) (stray : CString) :
    ∃ next, changeList ofIstream change stray session = pure (true, next) := by
  unfold EntryAccepted at h
  cases htoken : session.input.readToken.1 with
  | some token =>
      simp only [htoken] at h
      rw [changeList_of_lt htoken h.1, h.2]
      exact ⟨_, rfl⟩
  | none =>
      simp only [htoken] at h
      rw [changeList_of_none htoken, h stray]
      exact ⟨_, rfl⟩

/-- A refused entry does not. -/
theorem changeList_of_refused (h : EntryRefused change session next) (stray : CString) :
    changeList ofIstream change stray session = pure (false, next) := by
  obtain ⟨token, htoken, hshort, hchange, hinput⟩ := h
  rw [changeList_of_lt htoken hshort, hchange, ← hinput]

/-- Any other entry overflows the array, or is none and what the array holds may be refused. -/
theorem changeList_otherwise (haccepted : ¬ EntryAccepted change session)
    (hrefused : ∀ next, ¬ EntryRefused change session next) :
    ∃ stray, (changeList ofIstream change stray session).result ≠ .error .exit ∧
      ∀ p, (changeList ofIstream change stray session).result = .ok p →
        p.1 = false ∧ p.2.input.failed = true := by
  unfold EntryAccepted at haccepted
  rcases session.input.readToken_cases with ⟨token, htoken, -⟩ | ⟨hnone, hfailed, -⟩
  · simp only [htoken] at haccepted
    refine ⟨⟨[], List.not_mem_nil⟩, ?_⟩
    rcases Nat.lt_or_ge token.length 16 with hshort | hlong
    · have hfails : (change session.data (.ofPrefix token)).1 = false := by
        simpa [hshort] using haccepted
      refine absurd ⟨token, htoken, hshort, ?_, rfl⟩
        (hrefused ⟨session.input.readToken.2, (change session.data (.ofPrefix token)).2⟩)
      rw [← hfails]
    · rw [changeList_of_le htoken hlong, Logged.result_throw]
      exact ⟨by simp, by simp⟩
  · simp only [hnone, not_forall] at haccepted
    obtain ⟨stray, hfails⟩ := haccepted
    refine ⟨stray, ?_⟩
    rw [changeList_of_none hnone, Logged.result_pure]
    refine ⟨by simp, fun p hp => ?_⟩
    obtain rfl := Except.ok.inj hp
    exact ⟨Bool.eq_false_iff.mpr hfails, hfailed⟩

/-- An accepted action returns or ends the program. -/
theorem getAction_of_accepts {iAction : ℤ} (h : Accepts add remove iAction session)
    (stray : ℕ → CString) (depth fuel : ℕ) :
    getAction ofIstream add remove stray depth fuel iAction session = Logged.throw .exit ∨
      ∃ next,
        getAction ofIstream add remove stray depth fuel iAction session = pure (true, next) := by
  rcases h with rfl | ⟨rfl, h⟩ | ⟨rfl, h⟩
  · exact .inl rfl
  · exact .inr (changeList_of_accepted h (stray depth))
  · exact .inr (changeList_of_accepted h (stray depth))

/-- A refused action returns `false`. -/
theorem getAction_of_refuses {iAction : ℤ} (h : Refuses add remove iAction session next)
    (stray : ℕ → CString) (depth fuel : ℕ) :
    getAction ofIstream add remove stray depth fuel iAction session = pure (false, next) := by
  rcases h with ⟨rfl, h⟩ | ⟨rfl, h⟩ | ⟨⟨hone, htwo, hthree⟩, rfl⟩
  · exact changeList_of_refused h (stray depth)
  · exact changeList_of_refused h (stray depth)
  · rw [getAction, if_neg hone, if_neg htwo, if_neg hthree]

/-- What the actions of the server do on a stream. -/
theorem describes_getAction :
    Describes (Accepts add remove) (Refuses add remove) (getAction ofIstream add remove) where
  of_zero stray depth fuel session := by
    show (pure (false, session) : Logged (Occurrence Istream Empty) (Stop Fault) _).result ≠ _ ∧ _
    refine ⟨by simp, fun p hp => (Except.ok.inj hp).symm⟩
  of_accepts iAction session haccepts stray depth := by
    constructor
    · refine ⟨0, fun fuel _ => ?_⟩
      rcases getAction_of_accepts haccepts stray depth fuel with h | ⟨next, h⟩
      · exact .inr (by rw [h, Logged.result_throw])
      · exact .inl ⟨(true, next), by rw [h, Logged.result_pure]⟩
    · intro fuel
      rcases getAction_of_accepts haccepts stray depth fuel with h | ⟨next, h⟩
      · rw [h]
        exact ⟨consumes_nil, by simp⟩
      · rw [h]
        refine ⟨consumes_nil, fun p hp => ?_⟩
        rw [← Except.ok.inj hp]
  of_refuses iAction session next hrefuses stray depth := by
    constructor
    · refine ⟨0, fun fuel _ => ⟨(false, next), ?_⟩⟩
      rw [getAction_of_refuses hrefuses, Logged.result_pure]
    · intro fuel
      rw [getAction_of_refuses hrefuses]
      exact ⟨consumes_nil, by simp, fun p hp => (Except.ok.inj hp).symm⟩
  length_le iAction session next hrefuses := by
    have hread : session.input.readToken.2.unread.length ≤ session.input.unread.length := by
      rcases session.input.readToken_cases with ⟨_, _, _, hlt⟩ | ⟨_, _, hle⟩
      · omega
      · exact hle
    rcases hrefuses with ⟨-, -, -, -, -, hinput⟩ | ⟨-, -, -, -, -, hinput⟩ | ⟨-, rfl⟩
    · rwa [hinput]
    · rwa [hinput]
    · exact Nat.le_refl _
  otherwise iAction session haccepts hrefuses depth := by
    by_cases hone : iAction = 1
    · subst hone
      obtain ⟨stray, h⟩ := changeList_otherwise
        (fun h : EntryAccepted add session => haccepts (.inr (.inl ⟨rfl, h⟩)))
        (fun next h => hrefuses next (.inl ⟨rfl, h⟩))
      exact ⟨fun _ => stray, fun fuel => h⟩
    by_cases htwo : iAction = 2
    · subst htwo
      obtain ⟨stray, h⟩ := changeList_otherwise
        (fun h : EntryAccepted remove session => haccepts (.inr (.inr ⟨rfl, h⟩)))
        (fun next h => hrefuses next (.inr (.inl ⟨rfl, h⟩)))
      exact ⟨fun _ => stray, fun fuel => h⟩
    by_cases hthree : iAction = 3
    · exact absurd (.inl hthree) haccepts
    · exact absurd (.inr (.inr ⟨⟨hone, htwo, hthree⟩, rfl⟩)) (hrefuses session)

end PocoEcho.ServerConsole

import PocoEcho.Library.Decimal
import PocoEcho.Network.Environment

/-!
# The command line of the client

`COption`, which checks and keeps the arguments, and the head of `main`, which passes what has been
kept to `CClient::TryConnect`.

## Main definitions

* `COption.parseOptions`: `ParseOptions`;
* `ServerAddress`: what `TryConnect` asserts of its arguments;
* `connectTo`: `main` up to the call of `TryConnect`.

## Main results

* `parseOptions_iff_isPort`: which arguments are accepted;
* `usesPort_iff`: when the port that is used is the one that the user has named.
-/

namespace PocoEcho

/-- `DEFAULT_SERVER_PORT`. -/
def defaultServerPort : ℤ := 28220

/-- `COption`. -/
structure COption where
  /-- `m_szServerAddress`, an array on the heap. -/
  szServerAddress : Option CharArray
  /-- `m_iServerPort`. -/
  iServerPort : ℤ
  deriving DecidableEq

namespace COption

/-- `COption::COption`. -/
def new : COption := { szServerAddress := none, iServerPort := defaultServerPort }

/-- `GetServerAddress`, as the C string that it points to. -/
def getServerAddress (option : COption) : Option CString :=
  option.szServerAddress.bind CharArray.cString

/-- `GetServerPort`. -/
def getServerPort (option : COption) : ℤ := option.iServerPort

/-- The loop over `argv[2]`, which ends at the first character that is no digit. -/
def hasNonDigit : List UInt8 → Bool
  | [] => false
  | c :: rest => if !Decimal.isDigit c then true else hasNonDigit rest

/-- What becomes of `bInvalidPort`. -/
def invalidPort (szPort : CString) : Bool :=
  let bInvalidPort := hasNonDigit szPort.chars
  if !bInvalidPort then
    let iPort := Decimal.atoi szPort.chars
    if iPort ≤ 0 ∨ iPort > 65535 then true else bInvalidPort
  else bInvalidPort

/-- The copy of `argv[1]`: a new array, `strncpy` of the characters, and a terminator. -/
def copyAddress (stray : Stray) (szArgument : CString) : CharArray :=
  let addressLength := szArgument.chars.length
  let szServerAddress : CharArray :=
    { data := (List.range (addressLength + 1)).map stray.fresh, behind := stray.behind }
  let szServerAddress := szServerAddress.fill (szArgument.chars.take addressLength)
  { szServerAddress with data := szServerAddress.data.set addressLength 0 }

/-- `ParseOptions`. The port is checked, and that is all that becomes of it. -/
def parseOptions (option : COption) (stray : Stray) (argc : ℤ) (argv : ℕ → CString) :
    Bool × COption :=
  if argc ≤ 1 then (false, option)
  else if argc ≥ 3 ∧ invalidPort (argv 2) then (false, option)
  else (true, { option with szServerAddress := some (copyAddress stray (argv 1)) })

/-- The loop looks for a character that is no digit. -/
theorem hasNonDigit_eq_false_iff {s : List UInt8} :
    hasNonDigit s = false ↔ ∀ c ∈ s, Decimal.isDigit c = true := by
  induction s with
  | nil => exact iff_of_true rfl (List.forall_mem_nil _)
  | cons c rest ih =>
      unfold hasNonDigit
      rw [List.forall_mem_cons, ← ih]
      cases hc : Decimal.isDigit c <;> simp

/-- The text of a port number. -/
def IsPort (szPort : CString) : Prop :=
  szPort.chars ≠ [] ∧ (∀ c ∈ szPort.chars, Decimal.isDigit c = true) ∧
    1 ≤ Decimal.value szPort.chars ∧ Decimal.value szPort.chars ≤ 65535

instance (szPort : CString) : Decidable (IsPort szPort) :=
  decidable_of_iff (szPort.chars ≠ [] ∧ szPort.chars.all Decimal.isDigit = true ∧
    1 ≤ Decimal.value szPort.chars ∧ Decimal.value szPort.chars ≤ 65535)
    (by rw [IsPort, List.all_eq_true])

/-- The two checks together refuse what is no port number. The saturated value of a long string of
digits is beyond the range, and so is the zero of the empty string. -/
theorem invalidPort_eq_false_iff {szPort : CString} :
    invalidPort szPort = false ↔ IsPort szPort := by
  unfold invalidPort IsPort
  by_cases hdigits : hasNonDigit szPort.chars = false
  · have hall := hasNonDigit_eq_false_iff.mp hdigits
    have hmax : (65535 : ℤ) < Decimal.intMax := by decide
    simp only [hdigits, Bool.not_false, if_true, Decimal.atoi_of_digits hall, Nat.cast_min]
    constructor
    · intro h
      split at h
      next => cases h
      next hrange =>
        refine ⟨?_, hall, by omega, by omega⟩
        intro hnil
        rw [hnil, Decimal.value_nil] at hrange
        omega
    · rintro ⟨-, -, hlow, hhigh⟩
      rw [if_neg (by omega)]
  · have hsome : hasNonDigit szPort.chars = true := by simpa using hdigits
    simp only [hsome, Bool.not_true, if_false, Bool.false_eq_true]
    refine iff_of_false (by simp) ?_
    rintro ⟨-, hall, -⟩
    exact hdigits (hasNonDigit_eq_false_iff.mpr hall)

/-- The copy is the argument, byte for byte. -/
theorem cString_copyAddress (stray : Stray) (szArgument : CString) :
    (copyAddress stray szArgument).cString = some szArgument := by
  have hdata : (copyAddress stray szArgument).data = szArgument.chars ++ [0] := by
    simp only [copyAddress, CharArray.fill, List.take_length, List.range_succ, List.map_append]
    rw [List.drop_left' (by simp)]
    simp
  refine CharArray.cString_eq_some_iff.mpr ⟨stray.behind, ?_⟩
  rw [CharArray.memory, hdata, List.append_assoc]
  rfl

/-- What an accepted argument vector leaves behind. -/
theorem parseOptions_of_accepted {option : COption} {stray : Stray} {argc : ℤ} {argv : ℕ → CString}
    (hargc : 2 ≤ argc) (hport : 3 ≤ argc → IsPort (argv 2)) :
    option.parseOptions stray argc argv =
      (true, { option with szServerAddress := some (copyAddress stray (argv 1)) }) := by
  have hvalid : ¬ (argc ≥ 3 ∧ invalidPort (argv 2) = true) := by
    rintro ⟨hthree, hinvalid⟩
    rw [invalidPort_eq_false_iff.mpr (hport hthree)] at hinvalid
    cases hinvalid
  rw [parseOptions, if_neg (by omega), if_neg hvalid]

/-- A refused argument vector leaves the object alone. -/
theorem parseOptions_of_refused {option : COption} {stray : Stray} {argc : ℤ} {argv : ℕ → CString}
    (h : ¬ (2 ≤ argc ∧ (3 ≤ argc → IsPort (argv 2)))) :
    option.parseOptions stray argc argv = (false, option) := by
  unfold parseOptions
  split
  · rfl
  · rw [if_pos]
    by_contra hvalid
    refine h ⟨by omega, fun hthree => invalidPort_eq_false_iff.mp ?_⟩
    simpa [show argc ≥ 3 from hthree] using hvalid

end COption

/-- What `TryConnect` asserts of its arguments. -/
structure ServerAddress where
  /-- `szServerAddress`. -/
  szServerAddress : CString
  /-- `iServerPort`. -/
  iServerPort : ℤ
  /-- The port is one. -/
  port_mem : 0 < iServerPort ∧ iServerPort ≤ 65535

/-- The assertions at the head of `TryConnect`. -/
def ServerAddress.check (szServerAddress : Option CString) (iServerPort : ℤ) :
    Except Fault ServerAddress :=
  match szServerAddress with
  | none => .error .accessViolation
  | some szServerAddress =>
      if h : 0 < iServerPort ∧ iServerPort ≤ 65535 then .ok ⟨szServerAddress, iServerPort, h⟩
      else .error .accessViolation

/-- `main` up to `TryConnect` and its assertions; `none` if the arguments are refused. -/
def connectTo (stray : Stray) (argc : ℤ) (argv : ℕ → CString) :
    Except Fault (Option ServerAddress) :=
  match COption.new.parseOptions stray argc argv with
  | (false, _) => .ok none
  | (true, option) =>
      (ServerAddress.check option.getServerAddress option.getServerPort).map some

/-- `ParseOptions` accepts exactly the argument vectors with an address and, if there is a further
argument, a port number. -/
theorem parseOptions_iff_isPort (option : COption) (stray : Stray) (argc : ℤ)
    (argv : ℕ → CString) :
    (option.parseOptions stray argc argv).1 = true ↔
      2 ≤ argc ∧ (3 ≤ argc → COption.IsPort (argv 2)) := by
  by_cases h : 2 ≤ argc ∧ (3 ≤ argc → COption.IsPort (argv 2))
  · rw [COption.parseOptions_of_accepted h.1 h.2]
    exact iff_of_true rfl h
  · rw [COption.parseOptions_of_refused h]
    exact iff_of_false Bool.false_ne_true h

/-- The port that the user has named. -/
def namedPort (argc : ℤ) (argv : ℕ → CString) : ℤ :=
  if 3 ≤ argc then Decimal.value (argv 2).chars else defaultServerPort

/-- What is given is what is used: of an accepted argument vector, the object keeps the address and
the port, and `main` passes them on; a refused one leaves the object alone. -/
def UsesPort (stray : Stray) (argc : ℤ) (argv : ℕ → CString) : Prop :=
  (∀ option, COption.new.parseOptions stray argc argv = (true, option) →
    option.getServerAddress = some (argv 1) ∧ option.getServerPort = namedPort argc argv ∧
      ∃ address, connectTo stray argc argv = .ok (some address) ∧
        address.szServerAddress = argv 1 ∧ address.iServerPort = namedPort argc argv) ∧
  ∀ option option' : COption, option.parseOptions stray argc argv = (false, option') →
    option' = option

/-- `main` passes on the address, and the default port. -/
theorem connectTo_of_accepted {stray : Stray} {argc : ℤ} {argv : ℕ → CString}
    (hargc : 2 ≤ argc) (hport : 3 ≤ argc → COption.IsPort (argv 2)) :
    connectTo stray argc argv = .ok (some ⟨argv 1, defaultServerPort, by decide⟩) := by
  simp only [connectTo, COption.parseOptions_of_accepted hargc hport, COption.getServerAddress,
    Option.bind_some, COption.cString_copyAddress]
  rfl

/-- Of an accepted argument vector, the address is used as it was given; so is the port if it is the
default. -/
theorem usesPort_iff_of_accepted {stray : Stray} {argc : ℤ} {argv : ℕ → CString}
    (hargc : 2 ≤ argc) (hport : 3 ≤ argc → COption.IsPort (argv 2)) :
    UsesPort stray argc argv ↔ namedPort argc argv = defaultServerPort := by
  constructor
  · rintro ⟨haccepted, -⟩
    obtain ⟨-, hnamed, -⟩ := haccepted _ (COption.parseOptions_of_accepted hargc hport)
    exact hnamed.symm
  · intro hnamed
    constructor
    · intro option hparse
      rw [COption.parseOptions_of_accepted hargc hport] at hparse
      obtain rfl := (Prod.ext_iff.mp hparse).2
      refine ⟨COption.cString_copyAddress stray (argv 1), hnamed.symm, _,
        connectTo_of_accepted hargc hport, rfl, hnamed.symm⟩
    · intro option option' hparse
      rw [COption.parseOptions_of_accepted hargc hport] at hparse
      cases hparse

/-- The port that is used is the one that the user has named if and only if none is named, what is
named is refused, or it happens to be the default. -/
theorem usesPort_iff (stray : Stray) (argc : ℤ) (argv : ℕ → CString) :
    UsesPort stray argc argv ↔
      (3 ≤ argc → COption.IsPort (argv 2) →
        (Decimal.value (argv 2).chars : ℤ) = defaultServerPort) := by
  by_cases h : 2 ≤ argc ∧ (3 ≤ argc → COption.IsPort (argv 2))
  · rw [usesPort_iff_of_accepted h.1 h.2, namedPort]
    by_cases hthree : 3 ≤ argc
    · simp only [hthree, if_true, h.2 hthree, true_implies]
    · simp only [hthree, if_false, false_implies]
  · have hrefused : UsesPort stray argc argv := by
      constructor
      · intro option hparse
        rw [COption.parseOptions_of_refused h] at hparse
        cases hparse
      · intro option option' hparse
        rw [COption.parseOptions_of_refused h] at hparse
        exact (Prod.ext_iff.mp hparse).2.symm
    exact iff_of_true hrefused fun hthree hport => absurd ⟨by omega, fun _ => hport⟩ h

/-- The address 10.0.0.1 and the port 4000. -/
def otherPortArguments : ℕ → CString
  | 1 => ⟨[49, 48, 46, 48, 46, 48, 46, 49], by decide⟩
  | 2 => ⟨[52, 48, 48, 48], by decide⟩
  | _ => .empty

/-- A port other than the default is accepted and not used. -/
theorem not_usesPort_of_other_port :
    ¬ UsesPort ⟨Word.ofNat 0, fun _ => 0, []⟩ 3 otherPortArguments := by
  rintro ⟨haccepted, -⟩
  obtain ⟨-, hport, -⟩ := haccepted _
    (COption.parseOptions_of_accepted (by decide) fun _ => by decide)
  have hnamed : namedPort 3 otherPortArguments = 4000 := by
    simp [namedPort, otherPortArguments, Decimal.value_cons, Decimal.digit]
  rw [hnamed] at hport
  exact absurd hport (by decide)

end PocoEcho

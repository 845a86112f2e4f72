import FiveStage.Assembly.LineError

/-!
# Immediates

An immediate is an optional sign, then decimal digits or `0x` and hexadecimal digits. Digits are
read without a bound on their number; only the value has to fit a signed 32-bit word.
-/
namespace FiveStage.Assembly

/-- The value of a digit in a base up to sixteen. -/
def digit? (base : Nat) (c : Char) : Option Nat :=
  let value :=
    if '0' ≤ c ∧ c ≤ '9' then c.toNat - '0'.toNat
    else if 'a' ≤ c ∧ c ≤ 'f' then c.toNat - 'a'.toNat + 10
    else if 'A' ≤ c ∧ c ≤ 'F' then c.toNat - 'A'.toNat + 10
    else base
  if value < base then some value else none

/-- One or more digits, the most significant first. -/
def natural? (base : Nat) (cs : List Char) : Option Nat :=
  if cs.isEmpty then none
  else cs.foldlM (fun value c => (digit? base c).map (base * value + ·)) 0

/-- Whether a sign makes the number negative, and what follows the sign. -/
def sign : List Char → Bool × List Char
  | '-' :: cs => (true, cs)
  | '+' :: cs => (false, cs)
  | cs => (false, cs)

/-- The base that is announced, and the digits that follow. -/
def radix : List Char → Nat × List Char
  | '0' :: 'x' :: cs => (16, cs)
  | '0' :: 'X' :: cs => (16, cs)
  | cs => (10, cs)

/-- The integers of a signed 32-bit word. -/
def fitsWord (value : Int) : Bool := -2147483648 ≤ value && value ≤ 2147483647

def signed (negative : Bool) (magnitude : Nat) : Int := if negative then -magnitude else magnitude

def immediate? (token : List Char) : Option Int := do
  let (negative, unsigned) := sign token
  let (base, digits) := radix unsigned
  let value := signed negative (← natural? base digits)
  if fitsWord value then some value else none

def immediate (token : List Char) : Except LineError Int :=
  match immediate? token with
  | some value => .ok value
  | none => .error (.invalidImmediate (String.ofList token))

theorem immediate?_fits {token : List Char} {value : Int} (h : immediate? token = some value) :
    fitsWord value = true := by
  simp only [immediate?, Option.bind_eq_bind, Option.bind_eq_some_iff] at h
  obtain ⟨_, _, h⟩ := h
  split at h
  · next hv => exact Option.some.inj h ▸ hv
  · cases h

end FiveStage.Assembly

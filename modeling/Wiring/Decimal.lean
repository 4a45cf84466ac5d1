/-!
# Decimal text of doubles

A finite double is `mantissa * 2 ^ exponent`, held here as an exact fraction. Two texts are built
from it: the fewest digits that read back to the same double, and a fixed number of places after
the first digit, where an exact half goes to the even neighbour.
-/
namespace Wiring.Decimal

/-- The magnitude of a finite double as `mantissa * 2 ^ exponent`. -/
structure Binary where
  mantissa : Nat
  exponent : Int
  deriving DecidableEq, Repr

/-- What the bits of a double say. -/
inductive Reading where
  | finite (negative : Bool) (magnitude : Binary)
  | infinite (negative : Bool)
  | notANumber
  deriving DecidableEq, Repr

def Reading.ofBits (bits : UInt64) : Reading :=
  let n := bits.toNat
  let negative := n / Nat.pow 2 63 == 1
  let biased : Nat := n / Nat.pow 2 52 % Nat.pow 2 11
  let fraction : Nat := n % Nat.pow 2 52
  if biased = 2047 then if fraction = 0 then .infinite negative else .notANumber
  else if biased = 0 then .finite negative ⟨fraction, -1074⟩
  else .finite negative ⟨Nat.pow 2 52 + fraction, (biased : Int) - 1075⟩

def Reading.ofFloat (f : Float) : Reading := .ofBits f.toBits

/-- A non-negative fraction. -/
structure Ratio where
  num : Nat
  den : Nat

/-- `n * base ^ power`. -/
def scaled (n base : Nat) (power : Int) : Ratio :=
  if 0 ≤ power then ⟨n * Nat.pow base power.toNat, 1⟩ else ⟨n, Nat.pow base (-power).toNat⟩

/-- The fraction times a power of ten. -/
def Ratio.shift (r : Ratio) (power : Int) : Ratio :=
  if 0 ≤ power then ⟨r.num * Nat.pow 10 power.toNat, r.den⟩
  else ⟨r.num, r.den * Nat.pow 10 (-power).toNat⟩

def Ratio.le (a b : Ratio) : Bool := a.num * b.den ≤ b.num * a.den

def Ratio.lt (a b : Ratio) : Bool := a.num * b.den < b.num * a.den

/-- How many times a fraction below one has to be multiplied by ten to reach one. -/
def lift (r : Ratio) : (fuel : Nat) → Nat
  | 0 => 0
  | fuel + 1 => if r.den ≤ r.num then 0 else lift ⟨r.num * 10, r.den⟩ fuel + 1

/-- The power of ten at or below a positive fraction that is at least `10 ^ -400`. -/
def Ratio.magnitude (r : Ratio) : Int :=
  if r.den ≤ r.num then (Nat.toDigits 10 (r.num / r.den)).length - 1 else -(lift r 400 : Int)

/-- The fraction rounded to a whole number, an exact half to the even neighbour. -/
def Ratio.round (r : Ratio) : Nat :=
  let whole := r.num / r.den
  let left := 2 * (r.num % r.den)
  if left < r.den ∨ (left = r.den ∧ whole % 2 = 0) then whole else whole + 1

/-- `digits * 10 ^ power`. -/
structure Digits where
  digits : Nat
  power : Int
  deriving DecidableEq, Repr

/-- Drops zeros at the end of the digits. -/
def Digits.strip : (fuel : Nat) → Digits → Digits
  | 0, d => d
  | fuel + 1, d =>
    if d.digits % 10 = 0 ∧ d.digits ≠ 0 then strip fuel ⟨d.digits / 10, d.power + 1⟩ else d

/-- The reals that round to a double: its own half gaps, ends included when its mantissa is even.
Below a power of two the gap is half as wide. -/
def Binary.holds (b : Binary) (r : Ratio) : Bool :=
  let narrow := b.mantissa = Nat.pow 2 52 ∧ b.exponent ≠ -1074
  let low := scaled (4 * b.mantissa - if narrow then 1 else 2) 2 (b.exponent - 2)
  let high := scaled (4 * b.mantissa + 2) 2 (b.exponent - 2)
  if b.mantissa % 2 = 0 then low.le r && r.le high else low.lt r && r.lt high

/-- The number nearest to the double on the grid of `10 ^ power`, if it rounds to the double. -/
def Binary.onGrid? (b : Binary) (power : Int) : Option Digits :=
  let exact := (scaled b.mantissa 2 b.exponent).shift (-power)
  let nearest := exact.round
  let below := exact.num / exact.den
  let tried := [nearest, if nearest = below then below + 1 else below]
  (tried.find? fun n => b.holds (scaled n 10 power)).map fun n => ⟨n, power⟩

/-- The fewest digits that read back to a positive double, and of those the nearest. -/
def Binary.shortest (b : Binary) : Digits :=
  let top := (scaled b.mantissa 2 b.exponent).magnitude
  let found := (List.range 17).findSome? fun (n : Nat) => b.onGrid? (top - (n : Int))
  (found.getD ⟨b.mantissa, 0⟩).strip 20

def zeros (n : Int) : List Char := List.replicate n.toNat '0'

/-- Digits with the point after the first of them and a power of ten behind. -/
def pointed (ds : List Char) (power : String) : List Char :=
  let fraction := if ds.length ≤ 1 then [] else '.' :: ds.tail
  ds.take 1 ++ fraction ++ 'e' :: power.toList

/-- A power of ten that always has a sign. -/
def signedPower (power : Int) : String :=
  if 0 ≤ power then "+" ++ toString power else toString power

/-- The text of `d * 10 ^ p`: written out with at least one digit after the point while the point
stands between four places before the first digit and sixteen behind it, else with a signed power
of ten. -/
def Digits.text (d : Digits) : String :=
  let ds := Nat.toDigits 10 d.digits
  let point : Int := ds.length + d.power
  String.ofList <|
    if 0 ≤ d.power ∧ point ≤ 16 then ds ++ zeros d.power ++ ['.', '0']
    else if 0 < point ∧ point ≤ 16 then ds.take point.toNat ++ '.' :: ds.drop point.toNat
    else if -5 < point ∧ point ≤ 0 then '0' :: '.' :: zeros (-point) ++ ds
    else pointed ds (signedPower (point - 1))

def sign (negative : Bool) : String := if negative then "-" else ""

/-- The shortest text of a finite double; none for infinities and what is not a number. -/
def shortest? (f : Float) : Option String :=
  match Reading.ofFloat f with
  | .finite negative b =>
    some (sign negative ++ if b.mantissa = 0 then "0.0" else b.shortest.text)
  | _ => none

/-- One digit, the given number of places, and the power of ten. -/
def scientific (places : Nat) (f : Float) : String :=
  match Reading.ofFloat f with
  | .notANumber => "NaN"
  | .infinite negative => sign negative ++ "inf"
  | .finite negative b =>
    let exact := scaled b.mantissa 2 b.exponent
    let top := if b.mantissa = 0 then 0 else exact.magnitude
    let rounded := (exact.shift (places - top)).round
    let ds := Nat.toDigits 10 rounded
    let (ds, top) :=
      if b.mantissa = 0 then (List.replicate (places + 1) '0', top)
      else if places + 1 < ds.length then (ds.take (places + 1), top + 1)
      else (ds, top)
    sign negative ++ String.ofList (pointed ds (toString top))

end Wiring.Decimal

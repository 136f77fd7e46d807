/-!
# Exact views of binary floating point

A finite `Float` is a sign and a ratio of two naturals whose denominator is a power of
two. Rounding to integers, remainders and decimal texts are computed on that ratio, so
they are exact and can be evaluated inside a proof.
-/

namespace StackProfile.Binary64

/-- A sign and the magnitude `num / den`. -/
structure Ratio where
  negative : Bool
  num : Nat
  den : Nat
  deriving DecidableEq, Repr

/-- The value of a number, `none` for infinities and NaN. -/
def ratio? (x : Float) : Option Ratio :=
  let bits := x.toBits.toNat
  let negative := bits / Nat.pow 2 63 = 1
  let exponent := bits / Nat.pow 2 52 % Nat.pow 2 11
  let fraction := bits % Nat.pow 2 52
  if exponent = 2047 then none
  else if exponent = 0 then some ⟨negative, fraction, Nat.pow 2 1074⟩
  else if exponent < 1075 then
    some ⟨negative, fraction + Nat.pow 2 52, Nat.pow 2 (1075 - exponent)⟩
  else some ⟨negative, (fraction + Nat.pow 2 52) * Nat.pow 2 (exponent - 1075), 1⟩

/-- `num / den` rounded to an integer, a tie to the even one. -/
def roundEven (num den : Nat) : Nat :=
  let q := num / den
  let twice := 2 * (num % den)
  if twice < den then q else if den < twice then q + 1 else q + q % 2

/-- `num / den` rounded to an integer, a tie away from zero. -/
def roundAway (num den : Nat) : Nat := (2 * num + den) / (2 * den)

/-- `num / den` rounded up to an integer. -/
def roundUp (num den : Nat) : Nat := (num + den - 1) / den

/-- The `Float` nearest to a ratio, a tie to the even one, infinite past the greatest. -/
def ofRatio (r : Ratio) : Float :=
  let sign := if r.negative then Nat.pow 2 63 else 0
  let bits :=
    if r.num = 0 then 0
    else
      let guess : Int := (r.num.log2 : Int) - r.den.log2
      let scaled (e : Int) : Nat × Nat :=
        (r.num * Nat.pow 2 (-e).toNat, r.den * Nat.pow 2 e.toNat)
      let (n, d) := scaled guess
      let top := if n < d then guess - 1 else guess
      let unit := max (top - 52) (-1074)
      let (n, d) := scaled unit
      let mantissa := roundEven n d
      -- A mantissa of `2 ^ 53` carries into the exponent by itself.
      min (mantissa + (unit + 1074).toNat * Nat.pow 2 52) (2047 * Nat.pow 2 52)
  Float.ofBits (UInt64.ofNat (sign + bits))

/-- The number nearest to an integer below `2 ^ 64` in magnitude. -/
def ofInt (n : Int) : Float :=
  if n < 0 then -n.natAbs.toUInt64.toFloat else n.natAbs.toUInt64.toFloat

/-- Whether a number is finite and has no fractional part. -/
def isIntegral (x : Float) : Bool :=
  match ratio? x with
  | some r => r.num % r.den == 0
  | none => false

/-- The remainder of division that truncates: it has the sign of `x`. -/
def remainder (x y : Float) : Float :=
  match ratio? x, ratio? y with
  | some a, some b =>
    if b.num = 0 then 0.0 / 0.0
    else ofRatio ⟨a.negative, a.num * b.den % (b.num * a.den), a.den * b.den⟩
  | some _, none => if y.isNaN then y else x
  | none, _ => 0.0 / 0.0

/-- The remainder that is not negative, up to rounding, for a positive `y`. -/
def modulo (x y : Float) : Float :=
  let r := remainder x y
  if r < 0.0 then r + y.abs else r

/-! ## Decimal texts -/

/-- The digits of `n` with a point before the last `places` of them. -/
def withPoint (n places : Nat) : String :=
  let digits := (Nat.toDigits 10 n)
  let padded := List.replicate (places + 1 - digits.length) '0' ++ digits
  let whole := padded.take (padded.length - places)
  if places = 0 then String.ofList whole
  else String.ofList (whole ++ '.' :: padded.drop (padded.length - places))

/-- The number with a fixed number of places, a tie to the even digit. The sign of a
zero is kept. -/
def toFixed (places : Nat) (x : Float) : String :=
  match ratio? x with
  | some r =>
    (if r.negative then "-" else "") ++
      withPoint (roundEven (r.num * Nat.pow 10 places) r.den) places
  | none => if x.isNaN then "NaN" else if x < 0.0 then "-inf" else "inf"

/-- `toFixed` with a plus sign before numbers without a minus sign. -/
def toFixedSigned (places : Nat) (x : Float) : String :=
  let text := toFixed places x
  if x.isNaN || text.startsWith "-" then text else "+" ++ text

/-- A decimal `digits * 10 ^ exponent`. -/
structure Decimal where
  digits : Nat
  exponent : Int

/-- The decimals that read back as `num / den` lie between the ends, which count when
`closed` holds; all three have the denominator `den`. -/
structure Interval where
  low : Nat
  value : Nat
  high : Nat
  den : Nat
  closed : Bool

/-- The interval of the reals that round to a positive finite number. -/
def interval (x : Float) : Interval :=
  let bits := x.toBits.toNat
  let exponent := bits / Nat.pow 2 52 % Nat.pow 2 11
  let fraction := bits % Nat.pow 2 52
  let mantissa := if exponent = 0 then fraction else fraction + Nat.pow 2 52
  let power := max exponent 1
  -- Below a power of two the numbers lie twice as dense.
  let half := if fraction = 0 && 1 < exponent then 1 else 2
  let scale := Nat.pow 2 (power - 1075)
  ⟨(4 * mantissa - half) * scale, 4 * mantissa * scale, (4 * mantissa + 2) * scale,
    4 * Nat.pow 2 (1075 - power), fraction % 2 == 0⟩

/-- Whether `digits * 10 ^ exponent` lies in the interval. -/
def Interval.holds (i : Interval) (d : Decimal) : Bool :=
  let value := d.digits * Nat.pow 10 d.exponent.toNat * i.den
  let unit := Nat.pow 10 (-d.exponent).toNat
  let low := i.low * unit
  let high := i.high * unit
  if i.closed then low ≤ value && value ≤ high else low < value && value < high

/-- The point in the interval that lies on the grid of multiples of `10 ^ exponent` and
is nearest to its value, if there is one. -/
def Interval.onGrid? (i : Interval) (exponent : Int) : Option Decimal :=
  let num := i.value * Nat.pow 10 (-exponent).toNat
  let den := i.den * Nat.pow 10 exponent.toNat
  let near := roundEven num den
  let far := if near * den ≤ num then near + 1 else near - 1
  [near, far].findSome? fun n =>
    let d : Decimal := ⟨n, exponent⟩
    if i.holds d then some d else none

/-- The exponent of the leading decimal digit of `num / den`. -/
def leading (num den : Nat) : Int :=
  let guess : Int := ((Nat.toDigits 10 num).length : Int) - (Nat.toDigits 10 den).length
  if num * Nat.pow 10 (-guess).toNat < den * Nat.pow 10 guess.toNat then guess - 1 else guess

/-- The shortest decimal that reads back as a positive finite number, of those of equal
length the nearest. -/
def shortest (x : Float) : Decimal :=
  let i := interval x
  let top := leading i.value i.den
  ((List.range 17).findSome? fun (n : Nat) => i.onGrid? (top - n)).getD ⟨i.value / i.den, 0⟩

/-- The decimal without zeros at its end. Each step drops one digit, so as many steps
as there are digits are enough. -/
def Decimal.trimmed (d : Decimal) : Decimal :=
  (Nat.toDigits 10 d.digits).foldl
    (fun d _ => if d.digits % 10 = 0 then ⟨d.digits / 10, d.exponent + 1⟩ else d) d

/-- The shortest text that reads back as the number: positional between `1e-5` and
`1e16`, with an exponent elsewhere, and always with a point or an exponent. -/
def toShortest (x : Float) : String :=
  match ratio? x with
  | none => "null"
  | some r =>
    let magnitude :=
      if r.num = 0 then "0.0"
      else
        let d := (shortest x.abs).trimmed
        let digits := Nat.toDigits 10 d.digits
        let point : Int := digits.length + d.exponent
        if 0 ≤ d.exponent ∧ point ≤ 16 then
          String.ofList (digits ++ List.replicate d.exponent.toNat '0') ++ ".0"
        else if 0 < point ∧ point ≤ 16 then withPoint d.digits (-d.exponent).toNat
        else if -5 < point ∧ point ≤ 0 then withPoint d.digits (-d.exponent).toNat
        else
          let mantissa := withPoint d.digits (digits.length - 1)
          s!"{mantissa}e{point - 1}"
    (if r.negative then "-" else "") ++ magnitude

end StackProfile.Binary64

import DbClient.Number.Binary
import DbClient.Text.Numeral

/-! Decimal numerals with a point and an exponent: reading one as the nearest binary number, and
writing a binary number with the fewest digits that read back as it. -/
namespace DbClient.Decimal
open DbClient.Text

-- a power is the one of core, whichever others are in scope
attribute [local instance (high)] instPowNat

/-- A decimal numeral without its sign: `digits * 10 ^ exponent`. -/
structure Numeral where
  digits : Nat
  exponent : Int
  deriving Repr, DecidableEq

/-- The number that a run of digits denotes, after digits already read. -/
def digitsValue (acc : Nat) : List Char → Nat
  | [] => acc
  | c :: rest => digitsValue (acc * 10 + (digit? c).getD 0) rest

/-- Reads an exponent part, which may be absent; nothing may follow it. -/
def readExponent? : List Char → Option Int
  | [] => some 0
  | e :: rest =>
    if e = 'e' ∨ e = 'E' then
      let (negative, ds) := match rest with
        | '-' :: ds => (true, ds)
        | '+' :: ds => (false, ds)
        | ds => (false, ds)
      if ds = [] ∨ !ds.all isDigit then none
      else
        let n : Int := digitsValue 0 ds
        some (if negative then -n else n)
    else none

/-- Reads digits with an optional point among them, at least one digit in all, and an exponent. -/
def readNumeral? (s : List Char) : Option Numeral :=
  let whole := s.takeWhile isDigit
  let rest := s.dropWhile isDigit
  let (fraction, rest) := match rest with
    | '.' :: rest => (rest.takeWhile isDigit, rest.dropWhile isDigit)
    | rest => ([], rest)
  if whole = [] ∧ fraction = [] then none
  else (readExponent? rest).map fun e => ⟨digitsValue 0 (whole ++ fraction), e - fraction.length⟩

/-- The nearest number to a numeral. Exponents far outside the format's range are settled by the
number of digits alone. -/
def Numeral.round (p : Precision) (negative : Bool) (n : Numeral) : Binary p :=
  let top : Int := (Text.digits n.digits).length + n.exponent
  if n.digits = 0 then Binary.ofMagnitude p negative 0
  else if 400 < top then Binary.infinity p negative
  else if top < -400 then Binary.ofMagnitude p negative 0
  else if 0 ≤ n.exponent then Binary.ofRatio p negative (n.digits * 10 ^ n.exponent.toNat) 1
  else Binary.ofRatio p negative n.digits (10 ^ (-n.exponent).toNat)

/-- The words for what is no finite number, in any case of letters. -/
def readSpecial? (p : Precision) (negative : Bool) (s : List Char) : Option (Binary p) :=
  let word := String.ofList (s.map Char.toLower)
  if word = "inf" ∨ word = "infinity" then some (Binary.infinity p negative)
  else if word = "nan" then some (Binary.nan p)
  else none

/-- Reads a signed decimal numeral or one of the special words. -/
def read? (p : Precision) (s : List Char) : Option (Binary p) :=
  let (negative, body) := match s with
    | '-' :: body => (true, body)
    | '+' :: body => (false, body)
    | body => (false, body)
  match readNumeral? body with
  | some n => some (n.round p negative)
  | none => readSpecial? p negative body

/-- The least `k` with `num < 10 ^ k * den`, searched below a start. -/
def decimalTop (num den : Nat) : Nat → Int → Int
  | 0, k => k
  | fuel + 1, k =>
    let smaller := if 1 ≤ k then num < den * 10 ^ (k - 1).toNat else num * 10 ^ (1 - k).toNat < den
    if smaller then decimalTop num den fuel (k - 1) else k

/-- The interval of rationals `low / den … high / den` that round to `value / den`. -/
structure Gap where
  low : Nat
  value : Nat
  high : Nat
  den : Nat
  closed : Bool

/-- The rounding interval of a positive number: half the way to its neighbours, ends included when
the significand is even. -/
def gap (p : Precision) (significand : Nat) (exponent : Int) : Gap :=
  let lower := if significand = 2 ^ p.fractionBits ∧ p.leastExponent < exponent then 1 else 2
  let up := 2 ^ (exponent - 2).toNat
  ⟨(4 * significand - lower) * up, 4 * significand * up, (4 * significand + 2) * up,
    2 ^ (2 - exponent).toNat, significand % 2 = 0⟩

/-- The better of the two neighbours on the grid of `10 ^ s` that lies in the interval; of two
equally near ones the greater. -/
def Gap.onGrid (g : Gap) (s : Int) : Option Nat :=
  let down := 10 ^ s.toNat
  let up := 10 ^ (-s).toNat
  let step := g.den * down
  let value := g.value * up
  let c := value / step
  let inside (n : Nat) : Bool :=
    if g.closed then g.low * up ≤ n * step && n * step ≤ g.high * up
    else g.low * up < n * step && n * step < g.high * up
  match inside c, inside (c + 1) with
  | true, true => some (if value - c * step < (c + 1) * step - value then c else c + 1)
  | true, false => some c
  | false, true => some (c + 1)
  | false, false => none

/-- Searches grids from coarse to fine; the result is `digits * 10 ^ exponent`. -/
def Gap.search (g : Gap) (top : Int) : Nat → Nat → Numeral
  | 0, n => ⟨(g.onGrid (top - n)).getD 0, top - n⟩
  | fuel + 1, n =>
    match g.onGrid (top - n) with
    | some c => ⟨c, top - n⟩
    | none => g.search top fuel (n + 1)

/-- The numeral with the fewest digits that reads back as a positive finite number. -/
def shortest (p : Precision) (significand : Nat) (exponent : Int) : Numeral :=
  let g := gap p significand exponent
  let top := decimalTop g.value g.den 800 ((Text.digits (g.value / g.den)).length : Int)
  g.search top 20 1

/-- Digits with the point after `place` of them, zeros filling up; the fraction has one digit at
least. -/
def positional (ds : List Char) (place : Int) : List Char :=
  if place ≤ 0 then '0' :: '.' :: List.replicate (-place).toNat '0' ++ ds
  else
    let n := place.toNat
    if ds.length ≤ n then ds ++ List.replicate (n - ds.length) '0' ++ ['.', '0']
    else ds.take n ++ '.' :: ds.drop n

/-- One digit before the point, the others after it, and the exponent. -/
def exponential (ds : List Char) (place : Int) : List Char :=
  let fraction := match ds.drop 1 with
    | [] => []
    | rest => '.' :: rest
  ds.take 1 ++ fraction ++ 'e' :: writeInteger (place - 1)

/-- The diagnostic text of a number: positional from `10 ^ (-4)` and below `10 ^ 16`, else with an
exponent. -/
def text {p : Precision} (x : Binary p) : String :=
  match x.meaning with
  | .notANumber => "NaN"
  | .infinite negative => if negative then "-inf" else "inf"
  | .finite negative significand exponent =>
    let body :=
      if significand = 0 then ['0', '.', '0']
      else
        let n := shortest p significand exponent
        let all := Text.digits n.digits
        let ds := (all.reverse.dropWhile (· = '0')).reverse
        let place : Int := all.length + n.exponent
        if -4 < place ∧ place ≤ 16 then positional ds place else exponential ds place
    String.ofList (if negative then '-' :: body else body)

end DbClient.Decimal

/-! Numbers with a fraction or an exponent, in binary floating point of 64 bits, and how they are read
and shown: as the shortest decimal that is read as the same number. -/

namespace EditorClient

/-- A sign, eleven bits for the exponent and the fraction, from the highest bit to the lowest. -/
structure Double where
  bits : BitVec 64
deriving DecidableEq, Repr

/-- A positive fraction, not in lowest terms. -/
structure Ratio where
  top : Nat
  bottom : Nat

namespace Ratio

/-- A number times a power of the base. -/
def scaled (n base : Nat) (exponent : Int) : Ratio :=
  ⟨n * base.pow exponent.toNat, base.pow (-exponent).toNat⟩

def times (r s : Ratio) : Ratio := ⟨r.top * s.top, r.bottom * s.bottom⟩

/-- The nearest number, the even one of two that are equally near. -/
def round (r : Ratio) : Nat :=
  let low := r.top / r.bottom
  let rest := 2 * (r.top % r.bottom)
  if r.bottom < rest ∨ (rest = r.bottom ∧ low % 2 = 1) then low + 1 else low

/-- The length of the whole part in a base, or one less than nothing for each zero that follows. -/
def width (r : Ratio) (base : Nat) : Int :=
  let guess : Int := (Nat.toDigits base r.top).length - (Nat.toDigits base r.bottom).length
  if r.bottom * base.pow guess.toNat ≤ r.top * base.pow (-guess).toNat then guess + 1 else guess

end Ratio

namespace Double

def isNegative (x : Double) : Bool := x.bits.msb

def exponentField (x : Double) : Nat := (x.bits.extractLsb' 52 11).toNat

def fractionField (x : Double) : Nat := (x.bits.extractLsb' 0 52).toNat

/-- An infinite number or none at all. -/
def isSpecial (x : Double) : Bool := x.exponentField == 2047

def isNumber (x : Double) : Bool := !(x.isSpecial && x.fractionField != 0)

def isZero (x : Double) : Bool := x.exponentField == 0 && x.fractionField == 0

def significand (x : Double) : Nat :=
  if x.exponentField = 0 then x.fractionField else 1 <<< 52 + x.fractionField

/-- The power of two by which the significand is multiplied. -/
def exponent (x : Double) : Int := max 1 x.exponentField - 1075

def magnitude (x : Double) : Ratio := .scaled x.significand 2 x.exponent

/-- The magnitude of the number nearest to a fraction, which is infinite if the fraction is out of
range. -/
def nearest (r : Ratio) : Nat :=
  let exponent := max (-1074) (r.width 2 - 53)
  min ((exponent + 1074).toNat <<< 52 + (r.times (.scaled 1 2 (-exponent))).round) (2047 <<< 52)

/-- The number that a decimal is read as. -/
def ofDecimal (negative : Bool) (digits : Nat) (exponent : Int) : Double :=
  let magnitude := if digits = 0 then 0 else nearest (.scaled digits 10 exponent)
  ⟨BitVec.ofNat 64 ((if negative then 1 <<< 63 else 0) + magnitude)⟩

/-- Of the decimals of this many digits around a number the nearest that is read as it. -/
def decimalOf? (x : Double) (point : Int) (count : Nat) : Option (Nat × Int) :=
  let exponent := point - count
  let around := x.magnitude.times (.scaled 1 10 (-exponent))
  let low := around.top / around.bottom
  let near := around.round
  let other := if near = low then low + 1 else low
  ([near, other].find? fun digits => ofDecimal x.isNegative digits exponent == x).map fun digits =>
    (digits, exponent)

/-- Seventeen digits are enough for every number. -/
def shortest (x : Double) : Nat × Int :=
  ((List.range 17).findSome? fun i => x.decimalOf? (x.magnitude.width 10) (i + 1)).getD (0, 0)

/-- Leading digits, with a point where the exponent says it is. -/
def pointed (digits : List Char) (point : Int) : List Char :=
  let whole := digits.take point.toNat ++ List.replicate (point.toNat - digits.length) '0'
  let rest := List.replicate (-point).toNat '0' ++ digits.drop point.toNat
  (if whole.isEmpty then ['0'] else whole) ++ '.' :: if rest.isEmpty then ['0'] else rest

def withExponent (digits : List Char) (exponent : Int) : List Char :=
  let mantissa := match digits with
    | first :: second :: rest => first :: '.' :: second :: rest
    | digits => digits
  let power := Nat.toDigits 10 exponent.natAbs
  mantissa ++ 'e' :: (if exponent < 0 then '-' else '+') ::
    (List.replicate (2 - power.length) '0' ++ power)

/-- Numbers far from one are shown with an exponent. -/
def shownDecimal (digits : Nat) (exponent : Int) : List Char :=
  let shown := Nat.toDigits 10 digits
  let point := shown.length + exponent
  let leading := ((shown.reverse.dropWhile fun c => c == '0').reverse)
  if -4 < point ∧ point ≤ 16 then pointed leading point else withExponent leading (point - 1)

def shown (x : Double) : String :=
  if !x.isNumber then "nan"
  else
    let shownMagnitude :=
      if x.isSpecial then "inf".toList
      else if x.isZero then "0.0".toList
      else shownDecimal x.shortest.1 x.shortest.2
    String.ofList ((if x.isNegative then ['-'] else []) ++ shownMagnitude)

/-- The same number; there is one zero. -/
def same (x y : Double) : Bool := x.isNumber && (x == y || (x.isZero && y.isZero))

def isInteger (x : Double) (n : Int) : Bool :=
  !x.isSpecial && (if x.isNegative then -(x.magnitude.top : Int) else x.magnitude.top) ==
    n * x.magnitude.bottom

end Double

end EditorClient

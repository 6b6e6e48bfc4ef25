import RadioGateway.Decimal.Shortest

/-!
# Writing a double

A `Layout` says how the shortest digits are set out: which magnitudes are written positionally, how
an exponent looks, and what the values without digits are called. The three layouts are the ones the
gateway writes: in JSON texts, in sentences, and in dumps of a whole value.
-/

namespace RadioGateway.Decimal

structure Layout where
  tie : Tie
  positional : Option (Int × Int)
  /-- Written after a positional integer. -/
  integral : String
  /-- Written before an exponent that is not negative. -/
  plus : String
  nan : String
  infinity : String
  negativeInfinity : String

/-- Digits, point, digits: the leading digit stands at place `exponent`. -/
def fixedPoint (integral : String) (digits : List Char) (exponent : Int) : List Char :=
  if exponent < 0 then
    '0' :: '.' :: (List.replicate (-exponent - 1).toNat '0' ++ digits)
  else
    let whole := exponent.toNat + 1
    if digits.length ≤ whole then
      digits ++ List.replicate (whole - digits.length) '0' ++ integral.toList
    else digits.take whole ++ '.' :: digits.drop whole

def scientific (plus : String) (digits : List Char) (exponent : Int) : List Char :=
  let fraction := match digits.drop 1 with
    | [] => []
    | rest => '.' :: rest
  let power := if exponent < 0 then '-' :: Nat.toDigits 10 exponent.natAbs
    else plus.toList ++ Nat.toDigits 10 exponent.natAbs
  digits.take 1 ++ fraction ++ 'e' :: power

def Layout.magnitude (l : Layout) (significand : Nat) (exponent : Int) : List Char :=
  let d := shortest l.tie significand exponent
  let digits := Nat.toDigits 10 d.digits
  let leading := d.exponent + (digits.length - 1 : Nat)
  match l.positional with
  | none => fixedPoint l.integral digits leading
  | some (lowest, highest) =>
    if significand = 0 ∨ (lowest ≤ leading ∧ leading ≤ highest) then
      fixedPoint l.integral digits leading
    else scientific l.plus digits leading

def Layout.binary (l : Layout) : Binary → List Char
  | .nan => l.nan.toList
  | .infinite negative => (if negative then l.negativeInfinity else l.infinity).toList
  | .finite negative significand exponent =>
    (if negative then ['-'] else []) ++ l.magnitude significand exponent

def Layout.write (l : Layout) (x : Float) : List Char := l.binary (.ofFloat x)

/-- Numbers of a JSON text. JSON has no word for what is no finite number, so it becomes `null`. -/
def json : Layout :=
  { tie := .even, positional := some (-5, 15), integral := ".0", plus := "+"
    nan := "null", infinity := "null", negativeInfinity := "null" }

/-- Numbers in a sentence: never an exponent. -/
def plain : Layout :=
  { tie := .up, positional := none, integral := "", plus := "", nan := "NaN", infinity := "inf"
    negativeInfinity := "-inf" }

/-- Numbers in a dump: always recognisable as not being integers. -/
def dump : Layout :=
  { tie := .up, positional := some (-4, 15), integral := ".0", plus := "", nan := "NaN"
    infinity := "inf", negativeInfinity := "-inf" }

end RadioGateway.Decimal

import PenRail.Toml.Text
import PenRail.Toml.Value

/-!
# Numbers

Digits may be set apart by single underscores. A decimal integer has no leading zeros and may carry a sign; the other
bases have a prefix and no sign. An integer that does not fit in 64 bits is refused, and so is a float that rounds to
plus infinity.
-/

namespace PenRail.Toml

open Reader

def isDecimal (c : Char) : Bool :=
  c.isDigit

def isNonZero (c : Char) : Bool :=
  c.isDigit && c != '0'

def isSign (c : Char) : Bool :=
  c == '+' || c == '-'

/-- A digit and more digits, with single underscores in between. -/
def digits (ok : Char → Bool) : Reader (List Char) := do
  let first ← one ok
  let more ← many (one ok <|> (do let _ ← char '_'; one ok))
  pure (first :: more)

/-- Digits without a leading zero. -/
def plainDigits : Reader (List Char) :=
  (do ahead (one isNonZero); digits isDecimal) <|> ([·]) <$> one isDecimal

/-- A sign, if there is one, and decimal digits. -/
def signedDigits : Reader (Bool × List Char) := do
  let sign ← optional (one isSign)
  let body ← plainDigits
  pure (sign == some '-', body)

/-- A whole number as a 64-bit integer, where it fits. -/
def toInt64? (i : Int) : Option Int64 :=
  if Int64.minValue.toInt ≤ i ∧ i ≤ Int64.maxValue.toInt then some (Int64.ofInt i) else none

def fitting (i : Int) : Reader Int64 :=
  match toInt64? i with
  | some n => pure n
  | none => failure

/-- A number behind a prefix such as `0x`. -/
def prefixed (letter : Char) (base : Nat) (ok : Char → Bool) : Reader Int64 := do
  literal ['0', letter]
  let body ← digits ok
  fitting (ofDigits base body)

def decimal : Reader Int64 := do
  let (negative, body) ← signedDigits
  let size : Int := ofDigits 10 body
  fitting (if negative then -size else size)

def integer : Reader Int64 :=
  prefixed 'x' 16 isHexDigit <|> prefixed 'o' 8 (fun c => '0' ≤ c && c ≤ '7') <|>
    prefixed 'b' 2 (fun c => c == '0' || c == '1') <|> decimal

/-- The least number that rounds to infinity: halfway between the largest finite float and the next power of two. -/
def infinityBound : Nat :=
  Nat.pow 2 1024 - Nat.pow 2 970

/-- Whether `mantissa` times ten to the `exponent` rounds to infinity. An exponent that decides the question by itself is not
raised. -/
def overflows (mantissa : Nat) (length : Nat) (exponent : Int) : Bool :=
  if mantissa = 0 then false
  else if 400 < exponent then true
  else if (length : Int) + exponent < 300 then false
  else if 0 ≤ exponent then infinityBound ≤ mantissa * Nat.pow 10 exponent.toNat
  else infinityBound * Nat.pow 10 (-exponent).toNat ≤ mantissa

/-- The digits after a decimal point. -/
def fraction : Reader (List Char) := do
  let _ ← char '.'
  digits isDecimal

/-- The power of ten behind an `e`. -/
def exponent : Reader Int := do
  let _ ← one fun c => c == 'e' || c == 'E'
  let sign ← optional (one isSign)
  let size : Int := ofDigits 10 (← digits isDecimal)
  pure (if sign == some '-' then -size else size)

/-- A number with a fraction, an exponent, or both. -/
def finiteFloat : Reader Unit := do
  let (negative, whole) ← signedDigits
  let (part, power) ←
    ((fun power => ([], power)) <$> exponent) <|>
      (do let part ← fraction; let power ← optional exponent; pure (part, power.getD 0))
  let body := whole ++ part
  if !negative && overflows (ofDigits 10 body) body.length (power - part.length) then failure

def specialFloat : Reader Unit := do
  let _ ← optional (one isSign)
  literal ['i', 'n', 'f'] <|> literal ['n', 'a', 'n']

def float : Reader String :=
  String.ofList <$> taken (finiteFloat <|> specialFloat)

end PenRail.Toml

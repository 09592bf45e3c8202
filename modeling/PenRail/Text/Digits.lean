/-!
# Numbers as text

Lowercase hexadecimal for bytes and addresses, and decimal padded on the left for columns.
-/

namespace PenRail.Text

/-- One hexadecimal digit, lowercase. -/
def hexDigit (n : Nat) : Char :=
  if n < 10 then Char.ofNat ('0'.toNat + n) else Char.ofNat ('a'.toNat + (n - 10))

/-- A number in hexadecimal without leading zeros. -/
def hex (n : Nat) : String :=
  String.ofList ((Nat.toDigits 16 n).map Char.toLower)

/-- Fills `s` with `c` on the left up to `width` characters. -/
def padLeft (width : Nat) (c : Char) (s : String) : String :=
  String.ofList (List.replicate (width - s.length) c) ++ s

/-- Fills `s` with `c` on the right up to `width` characters. -/
def padRight (width : Nat) (c : Char) (s : String) : String :=
  s ++ String.ofList (List.replicate (width - s.length) c)

/-- A number in hexadecimal, at least two digits wide. -/
def hex2 (n : Nat) : String :=
  padLeft 2 '0' (hex n)

/-- Bytes as a run of digit pairs. -/
def hexBytes (bytes : List UInt8) : String :=
  String.ofList (bytes.flatMap fun b => [hexDigit (b.toNat / 16), hexDigit (b.toNat % 16)])

example : hexBytes [0x0a, 0xff, 0] = "0aff00" := by decide

end PenRail.Text

import PenRail.Text.Digits
import PenRail.Text.Printable

/-!
# Text between quotes

How a report to an operator shows a piece of text: between double quotes, on one line, and so that nothing in it is
hidden. Quotes, backslashes and the usual control characters have short forms; everything else that cannot be shown is
written by its number.
-/

namespace PenRail.Text

/-- One character as it stands between quotes. -/
def quotedChar (c : Char) : String :=
  match c with
  | '"' => "\\\""
  | '\\' => "\\\\"
  | '\n' => "\\n"
  | '\r' => "\\r"
  | '\t' => "\\t"
  | '\x00' => "\\0"
  | _ => if isPrintable c then c.toString else "\\u\x7b" ++ hex c.toNat ++ "\x7d"

def quoted (text : String) : String :=
  "\"" ++ String.join (text.toList.map quotedChar) ++ "\""

example : quoted "a\"b\n" = "\"a\\\"b\\n\"" := by cbv

end PenRail.Text

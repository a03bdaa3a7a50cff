import EntropySupply.Text.Hidden

/-!
# Quoted text

Diagnostic text shows a string between double quotes. Inside, the quote and the backslash carry a
backslash, the four common controls have letters of their own, and other hidden characters are
spelled by their code point in hexadecimal.
-/

namespace EntropySupply.Text

/-- A code point in lower-case hexadecimal, without leading zeros. -/
def hexadecimal (n : Nat) : String := String.ofList (Nat.toDigits 16 n)

def quotedChar (c : Char) : String :=
  match c with
  | '\x00' => "\\0"
  | '\t' => "\\t"
  | '\n' => "\\n"
  | '\r' => "\\r"
  | '"' => "\\\""
  | '\\' => "\\\\"
  | c => if isHidden c then "\\u\x7b" ++ hexadecimal c.toNat ++ "\x7d" else c.toString

def quoted (s : String) : String :=
  "\"" ++ String.join (s.toList.map quotedChar) ++ "\""

end EntropySupply.Text

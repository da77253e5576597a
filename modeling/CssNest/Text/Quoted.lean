import CssNest.Text.Unseen

/-!
# Quoted text in messages

Paths and names are shown between double quotes, so that a message stays on one line
and shows every character of them.
-/

namespace CssNest.Text

/-- A number in lower-case hexadecimal digits. -/
def hexadecimal (n : Nat) : String := String.ofList (Nat.toDigits 16 n)

/-- One character as it is shown between quotes. -/
def quotedChar (c : Char) : String :=
  match c with
  | '\x22' => "\\\""
  | '\\' => "\\\\"
  | '\t' => "\\t"
  | '\r' => "\\r"
  | '\n' => "\\n"
  | '\x00' => "\\0"
  | c => if Unseen.contains c then "\\u\x7b" ++ hexadecimal c.toNat ++ "\x7d"
         else String.ofList [c]

/-- A text between double quotes. -/
def quoted (s : String) : String := "\"" ++ String.join (s.toList.map quotedChar) ++ "\""

end CssNest.Text

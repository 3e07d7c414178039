import LayoutWatch.Text.Faceless
import LayoutWatch.Text.Numeral

/-!
# Quoted names

A name inside a remark stands between quotation marks. Quotation marks and backslashes are marked
by a backslash, and characters without a face of their own are shown by number.
-/

namespace LayoutWatch.Text

/-- A character as it stands between quotation marks. -/
def quotedChar (c : Char) : String :=
  match c with
  | '"' => "\\\""
  | '\\' => "\\\\"
  | '\x00' => "\\0"
  | '\t' => "\\t"
  | '\n' => "\\n"
  | '\r' => "\\r"
  | c => if isFaceless c then "\\u\x7b" ++ hexDigits c.toNat ++ "\x7d" else c.toString

/-- A name between quotation marks. -/
def quoted (s : String) : String :=
  "\"" ++ String.join (s.toList.map quotedChar) ++ "\""

end LayoutWatch.Text

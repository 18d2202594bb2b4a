import TypeQuery.Text.Visible

/-!
# TypeQuery.Text.Quoted

Text quoted for a message: in double quotes, with the usual escapes for quotes, backslashes, tabs
and line ends, and the code point of every other character that cannot be shown as it is.
-/

namespace TypeQuery.Text

/-- A code point in hexadecimal digits between braces. -/
def codePoint (c : Char) : List Char :=
  '\\' :: 'u' :: '{' :: (Nat.toDigits 16 c.toNat ++ ['}'])

/-- One character as it stands between the quotes. -/
def quoteChar (c : Char) : List Char :=
  match c with
  | '\x00' => ['\\', '0']
  | '\t' => ['\\', 't']
  | '\r' => ['\\', 'r']
  | '\n' => ['\\', 'n']
  | '\\' => ['\\', '\\']
  | '"' => ['\\', '"']
  | c => if isVisible c then [c] else codePoint c

/-- The text in double quotes. -/
def quote (s : String) : String :=
  String.ofList ('"' :: (s.toList.flatMap quoteChar ++ ['"']))

end TypeQuery.Text

import WorkerGen.Text.Printable

/-!
# Texts quoted in messages

A message shows a text between quotes, with the quote, the backslash and the unprintable characters
escaped: some by a letter, the others by the code point in braces.
-/

namespace WorkerGen.Text

/-- One character of a quoted text. -/
def quotedChar (c : Char) : List Char :=
  if c == '"' then ['\\', '"']
  else if c == '\\' then ['\\', '\\']
  else if c == '\t' then ['\\', 't']
  else if c == '\r' then ['\\', 'r']
  else if c == '\n' then ['\\', 'n']
  else if c.toNat == 0 then ['\\', '0']
  else if isPrintable c then [c]
  else ['\\', 'u', '{'] ++ Nat.toDigits 16 c.toNat ++ ['}']

/-- A text between quotes. -/
def quoted (s : String) : String :=
  "\"" ++ String.ofList (s.toList.flatMap quotedChar) ++ "\""

end WorkerGen.Text

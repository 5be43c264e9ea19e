import ReleaseDiff.Text.Visible

set_option autoImplicit false

/-!
# Texts quoted in messages

## Main definitions

* `ReleaseDiff.Text.quoted` — a text in quotes, every character of it to be seen.
-/

namespace ReleaseDiff.Text

/-- A character of a quoted text. What cannot be seen is written by its number. -/
def quotedChar (c : Char) : List Char :=
  if c = '"' then ['\\', '"']
  else if c = '\\' then ['\\', '\\']
  else if c = '\n' then ['\\', 'n']
  else if c = '\r' then ['\\', 'r']
  else if c = '\t' then ['\\', 't']
  else if c = '\x00' then ['\\', '0']
  else if isVisible c then [c]
  else ['\\', 'u', '\x7b'] ++ Nat.toDigits 16 c.toNat ++ ['\x7d']

/-- **A text in quotes**, every character of it to be seen. -/
def quoted (s : String) : String :=
  String.ofList ('"' :: s.toList.flatMap quotedChar ++ ['"'])

end ReleaseDiff.Text

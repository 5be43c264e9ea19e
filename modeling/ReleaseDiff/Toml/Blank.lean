set_option autoImplicit false

/-!
# Blanks, line ends and comments in TOML

## Main definitions

* `ReleaseDiff.Toml.skipBlanks` — drops blanks within a line.
* `ReleaseDiff.Toml.skipLayout` — drops blanks, line ends and comments.
* `ReleaseDiff.Toml.endOfLine?` — reads to the end of a line that holds nothing more.
-/

namespace ReleaseDiff.Toml

/-- The blanks within a line. -/
def isBlank (c : Char) : Bool := c = ' ' || c = '\t'

/-- Drops the blanks at the start. -/
def skipBlanks (cs : List Char) : List Char := cs.dropWhile isBlank

/-- Whether a character may stand for itself in a comment or in a quoted text: a tab, or any
character but the control characters below the blank and the one beyond the tilde. -/
def isPlain (c : Char) : Bool := c = '\t' || (0x20 ≤ c.toNat && c.toNat ≠ 0x7f)

/-- Drops a line end, which is a line feed with or without a carriage return before it. -/
def lineEnd? : List Char → Option (List Char)
  | '\n' :: rest => some rest
  | '\r' :: '\n' :: rest => some rest
  | _ => none

/-- Drops a comment up to the end of its line. -/
def skipComment : List Char → List Char
  | '#' :: rest => rest.dropWhile isPlain
  | rest => rest

/-- Drops blanks, line ends and comments, either within a comment or outside one. -/
def skipLayoutFrom : Bool → List Char → List Char
  | _, [] => []
  | inComment, c :: rest =>
    if c = '\n' then skipLayoutFrom false rest
    else if c = '\r' then
      (if rest.head? = some '\n' then skipLayoutFrom false rest else c :: rest)
    else if inComment then
      (if isPlain c then skipLayoutFrom true rest else c :: rest)
    else if isBlank c then skipLayoutFrom false rest
    else if c = '#' then skipLayoutFrom true rest
    else c :: rest

/-- **Drops blanks, line ends and comments.** -/
def skipLayout (cs : List Char) : List Char := skipLayoutFrom false cs

/-- **Reads to the end of a line** that holds nothing more than blanks and a comment. -/
def endOfLine? (cs : List Char) : Option (List Char) :=
  match skipComment (skipBlanks cs) with
  | [] => some []
  | rest => lineEnd? rest

end ReleaseDiff.Toml

import ReleaseDiff.Toml.Basic

set_option autoImplicit false

/-!
# Pointing at a stretch of a document

## Main definitions

* `ReleaseDiff.Toml.Span.pointer` — the line that a stretch starts on, with marks below it.
-/

namespace ReleaseDiff.Toml

/-- The size of characters in bytes. -/
def byteSize (cs : List Char) : Nat := cs.foldl (fun n c => n + c.utf8Size) 0

/-- The part of the line that has been read, given what has been read of the text. -/
def lastLine (before : List Char) : List Char :=
  (before.reverse.takeWhile (· ≠ '\n')).reverse

namespace Span

variable (document : List Char) (s : Span)

/-- The text before a stretch. -/
def before : List Char := document.take (document.length - s.fromStart)

/-- The text of a stretch. -/
def content : List Char :=
  (document.drop (document.length - s.fromStart)).take (s.fromStart - s.behind)

/-- The number of the line that a stretch starts on, counted from one. -/
def line : Nat := (s.before document).count '\n' + 1

/-- The number of characters before a stretch on its line. -/
def column : Nat := (lastLine (s.before document)).length

/-- The line that a stretch starts on. -/
def wholeLine : List Char :=
  lastLine (s.before document)
    ++ (document.drop (document.length - s.fromStart)).takeWhile (· ≠ '\n')

/-- The number of marks below a stretch: one for every byte, but not beyond the end of the line, and
at least one. The end is told by the bytes of the line, while the start is told by characters. -/
def markCount : Nat :=
  max 1 (min (byteSize (s.content document))
    (byteSize (s.wholeLine document) - s.column document))

/-- **The line that a stretch starts on**, with its number and with marks below the stretch. -/
def pointer : String :=
  let number := toString (s.line document)
  let margin := String.ofList (List.replicate (number.length + 1) ' ') ++ "|"
  "TOML parse error at line " ++ number ++ ", column " ++ toString (s.column document + 1) ++ "\n"
    ++ margin ++ "\n"
    ++ number ++ " | " ++ String.ofList (s.wholeLine document) ++ "\n"
    ++ margin ++ String.ofList (List.replicate (s.column document + 1) ' ')
    ++ String.ofList (List.replicate (s.markCount document) '^') ++ "\n"

end Span

end ReleaseDiff.Toml

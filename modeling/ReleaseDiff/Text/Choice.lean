set_option autoImplicit false

/-!
# Choosing among words

## Main definitions

* `ReleaseDiff.Text.UnknownWord` — a word that is none of those allowed.
* `ReleaseDiff.Text.choose` — the value that a word stands for.
-/

namespace ReleaseDiff.Text

/-- A word between grave accents. -/
def marked (word : String) : String := "\x60" ++ word ++ "\x60"

/-- **A word that is none of those allowed.** -/
structure UnknownWord where
  /-- The word. -/
  word : String
  /-- The words that are allowed. -/
  allowed : List String
  deriving DecidableEq, Repr

/-- The wording of an unknown word. -/
def UnknownWord.message (u : UnknownWord) : String :=
  "unknown variant " ++ marked u.word ++ ", expected one of "
    ++ ", ".intercalate (u.allowed.map marked)

/-- **The value that a word stands for**, each value having a label. -/
def choose {α : Type} (values : List α) (label : α → String) (word : String) :
    Except UnknownWord α :=
  match values.find? fun v => label v == word with
  | some v => .ok v
  | none => .error ⟨word, values.map label⟩

end ReleaseDiff.Text

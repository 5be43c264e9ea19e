import ReleaseDiff.Malformed

set_option autoImplicit false

/-!
# Faults

One record for everything that can go wrong, with a stable code and whatever context is known.

## Main definitions

* `ReleaseDiff.FaultKind` — the kinds of fault, with their codes.
* `ReleaseDiff.Fault` — a fault with its context.
* `ReleaseDiff.Fault.display` — the one-line wording.
* `ReleaseDiff.Malformed.toFault` — a malformed artifact as a fault.
-/

namespace ReleaseDiff

/-- **The kind of a fault.** -/
inductive FaultKind where
  /-- Two items of one collection share a key. -/
  | duplicateKey
  /-- Two entities of one kind share a name. -/
  | duplicateEntity
  /-- A name or a key is empty. -/
  | missingIdentifier
  /-- A configuration could not be read. -/
  | invalidConfig
  /-- A text could not be written or read back. -/
  | serialization
  /-- Anything else. -/
  | internal
  deriving DecidableEq, Repr

namespace FaultKind

/-- All kinds of fault. -/
def all : List FaultKind :=
  [duplicateKey, duplicateEntity, missingIdentifier, invalidConfig, serialization, internal]

/-- The name of a kind of fault. -/
def name : FaultKind → String
  | duplicateKey => "DuplicateKey"
  | duplicateEntity => "DuplicateEntity"
  | missingIdentifier => "MissingIdentifier"
  | invalidConfig => "InvalidConfig"
  | serialization => "Serialization"
  | internal => "Internal"

/-- The stable code of a kind of fault. -/
def code : FaultKind → String
  | duplicateKey => "ERR_DUPLICATE_KEY"
  | duplicateEntity => "ERR_DUPLICATE_ENTITY"
  | missingIdentifier => "ERR_MISSING_IDENTIFIER"
  | invalidConfig => "ERR_INVALID_CONFIG"
  | serialization => "ERR_SERIALIZATION"
  | internal => "ERR_INTERNAL"

/-- Whether the fault arises while an artifact is built. -/
def isMalformedArtifact : FaultKind → Bool
  | duplicateKey | duplicateEntity | missingIdentifier => true
  | invalidConfig | serialization | internal => false

/-- The kind of fault of a name. -/
def ofName? (word : String) : Option FaultKind :=
  all.find? fun k => k.name == word

end FaultKind

/-- **A fault** with its context. -/
structure Fault where
  /-- What went wrong. -/
  kind : FaultKind
  /-- The operation that failed. -/
  operation : Option String := none
  /-- The kind of artifact concerned. -/
  artifactKind : Option Kind := none
  /-- The entity concerned. -/
  entity : Option String := none
  /-- The wording; empty where there is none. -/
  message : String := ""
  deriving DecidableEq, Repr

namespace Fault

/-- The stable code of a fault. -/
def code (f : Fault) : String := f.kind.code

/-- **One line for a fault**: the code, then what is known of operation, wording, kind and
entity. -/
def display (f : Fault) : String :=
  "[" ++ f.code ++ "]"
    ++ (match f.operation with
        | some op => " in operation '" ++ op ++ "'"
        | none => "")
    ++ (if f.message = "" then "" else ": " ++ f.message)
    ++ (match f.artifactKind with
        | some k => " (kind: " ++ k.label ++ ")"
        | none => "")
    ++ (match f.entity with
        | some e => " (entity: " ++ e ++ ")"
        | none => "")

end Fault

namespace Malformed

/-- The kind of fault of a malformed artifact. -/
def faultKind : Malformed → FaultKind
  | duplicateKey .. => .duplicateKey
  | duplicateEntity .. => .duplicateEntity
  | missingIdentifier .. => .missingIdentifier

/-- The stable code of a malformed artifact. -/
def code (m : Malformed) : String := m.faultKind.code

/-- A malformed artifact as a fault. -/
def toFault (m : Malformed) : Fault where
  kind := m.faultKind
  artifactKind := some m.kind
  entity := some m.entity
  message := m.message

end Malformed

end ReleaseDiff

import ReleaseDiff.Fault
import ReleaseDiff.Json.Reader

set_option autoImplicit false

/-!
# Reading JSON on behalf of an operation

## Main definitions

* `ReleaseDiff.Json.read` — the document of a text, or a fault that names the operation.
-/

namespace ReleaseDiff.Json

/-- The fault of a text that is no JSON document. The reader of the format words the message, and
its words are not modelled: a fixed text stands for them, which tells no more than that there is a
message. -/
def readFault (operation : String) : Fault where
  kind := .serialization
  operation := some operation
  message := "not a JSON document"

/-- **The document of a text**, read on behalf of an operation. -/
def read (operation text : String) : Except Fault Json :=
  match parse? text with
  | some document => .ok document
  | none => .error (readFault operation)

end ReleaseDiff.Json

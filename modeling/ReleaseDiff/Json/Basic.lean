set_option autoImplicit false

/-!
# JSON documents

## Main definitions

* `ReleaseDiff.Json` — a JSON value; the fields of an object keep their order.
* `ReleaseDiff.Json.field?` — a field of an object.
-/

namespace ReleaseDiff

/-- **A JSON value.** Numbers are kept as they were written, and the fields of an object in their
order. -/
inductive Json where
  /-- The null value. -/
  | null
  /-- A truth value. -/
  | bool (value : Bool)
  /-- A number, as written. -/
  | number (text : String)
  /-- A text. -/
  | string (text : String)
  /-- A list of values. -/
  | array (items : List Json)
  /-- Values under names. -/
  | object (fields : List (String × Json))

namespace Json

/-- The first field of a name. -/
def field? : Json → String → Option Json
  | object fields, name => (fields.find? fun f => f.1 == name).map Prod.snd
  | _, _ => none

/-- The text of a string. -/
def text? : Json → Option String
  | string s => some s
  | _ => none

/-- The items of an array. -/
def items? : Json → Option (List Json)
  | array items => some items
  | _ => none

end Json

end ReleaseDiff

import ReleaseDiff.Taxonomy.Row

set_option autoImplicit false

/-!
# Changes and their records

A change is a shape at a place: the path of the item concerned and its key. A record is the change
as a report shows it.

## Main definitions

* `ReleaseDiff.Path` — the names from an entity down to an item.
* `ReleaseDiff.Change` — a shape, a path and a target.
* `ReleaseDiff.Record` — what a report shows of a change.
* `ReleaseDiff.Change.record` — the record of a change.
* `ReleaseDiff.Journal` — the records of one entity, in the order in which they were made.
-/

namespace ReleaseDiff

/-- **A path**: the names from an entity down to an item, one for every level. -/
structure Path where
  /-- The names, the entity first. -/
  segments : List String
  deriving DecidableEq, Repr

namespace Path

/-- The path of an entity. -/
def root (name : String) : Path := ⟨[name]⟩

/-- The path one level below. -/
def child (p : Path) (segment : String) : Path := ⟨p.segments ++ [segment]⟩

/-- The number of levels; an entity is on the first. -/
def depth (p : Path) : Nat := p.segments.length

/-- The path as one text, the levels separated by a slash. A slash inside a name is not marked. -/
def text (p : Path) : String := "/".intercalate p.segments

/-- The order of paths, level by level. -/
instance : LT Path := ⟨fun p q => p.segments < q.segments⟩

instance : DecidableLT Path := fun p q => inferInstanceAs (Decidable (p.segments < q.segments))

end Path

/-- **A change** that a comparison found in an entity of a kind. -/
structure Change (k : Kind) where
  /-- What happened. -/
  shape : Shape k
  /-- Where it happened. -/
  path : Path
  /-- The key of the innermost item concerned. -/
  target : String

/-- **A record** of a change, as a report shows it. -/
structure Record where
  /-- The kind of the entity. -/
  kind : Kind
  /-- The path, as one text. -/
  path : String
  /-- The stable code of the shape. -/
  code : String
  /-- The severity of the shape. -/
  severity : Severity
  /-- The message. -/
  message : String
  deriving DecidableEq, Repr

/-- **The record of a change** in an entity of a name. -/
def Change.record {k : Kind} (entity : String) (c : Change k) : Record where
  kind := k
  path := c.path.text
  code := (Shape.row k c.shape).code
  severity := (Shape.row k c.shape).severity
  message := (Shape.row k c.shape).render entity c.target

namespace Record

/-- The order of records in a report: by kind, then by path, then by code. Records that agree in all
three are equivalent. -/
def before (r s : Record) : Bool :=
  if r.kind.rank ≠ s.kind.rank then r.kind.rank < s.kind.rank
  else if r.path ≠ s.path then r.path < s.path
  else r.code < s.code

end Record

/-- **The records of one entity**, in the order in which they were made. -/
structure Journal where
  /-- The name of the entity. -/
  entity : String
  /-- The records so far. -/
  records : List Record := []

namespace Journal

/-- Records one more change. -/
def write (j : Journal) {k : Kind} (c : Change k) : Journal :=
  { j with records := j.records ++ [c.record j.entity] }

/-- The number of records. -/
def size (j : Journal) : Nat := j.records.length

/-- Whether nothing is recorded. -/
def isEmpty (j : Journal) : Bool := j.records.isEmpty

end Journal

end ReleaseDiff

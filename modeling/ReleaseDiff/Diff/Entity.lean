import ReleaseDiff.Diff.Body

set_option autoImplicit false

/-!
# Comparing entities

An entity that only one release has is one change. An entity that both releases have is compared by
its attributes and its body.

## Main definitions

* `ReleaseDiff.Entity.changes` — the changes of one name in two releases.
* `ReleaseDiff.Entity.records` — their records.
* `ReleaseDiff.entityRecords` — the records of all entities of a kind.
-/

namespace ReleaseDiff

variable {k : Kind}

namespace Entity

/-- **The changes of one name** in two releases, each of which may lack the entity. -/
def changes (name : String) : Option (Entity k) → Option (Entity k) → List (Change k)
  | none, none => []
  | none, some _ => [⟨Shape.entityAdded k, .root name, name⟩]
  | some _, none => [⟨Shape.entityRemoved k, .root name, name⟩]
  | some before, some after =>
    attributeChanges (fun _ => Shape.attributeChanged k) (.root name) id
        before.attributes after.attributes
      ++ Body.changes (.root name) k before.body after.body

/-- **The records of one name** in two releases. -/
def records (name : String) (before after : Option (Entity k)) : List Record :=
  (changes name before after).map (Change.record name)

end Entity

/-- **The records of all entities of a kind**: those that disappear, those that appear, then those
that both releases have, each part in name order. -/
def entityRecords (before after : Catalog (Entity k)) : List Record :=
  let matching := before.matchWith after
  matching.removed.flatMap (fun e => Entity.records e.name (some e) none)
    ++ matching.added.flatMap (fun e => Entity.records e.name none (some e))
    ++ matching.pairs.flatMap (fun p => Entity.records p.1.name (some p.1) (some p.2))

end ReleaseDiff

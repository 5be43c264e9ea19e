import ReleaseDiff.Catalog.Basic

set_option autoImplicit false

/-!
# Matching two lists of keyed items

Two items are the same item in two releases if their keys are equal, wherever they were declared.
Matching splits two lists in key order into what only the first holds, what only the second holds,
and the pairs of items that share a key.

## Main definitions

* `ReleaseDiff.Matching` — removed and added items, and the pairs.
* `ReleaseDiff.matchItems` — the matching of two lists.
* `ReleaseDiff.Catalog.matchWith` — the matching of two catalogs.
* `ReleaseDiff.Catalog.keysOfBoth` — the keys of two catalogs together.
* `ReleaseDiff.Catalog.difference` — the items of a catalog whose keys another one lacks.
-/

namespace ReleaseDiff

/-- **A matching** of the items of two releases. Each part is in key order. -/
structure Matching (α : Type) where
  /-- Items whose key only the earlier release has. -/
  removed : List α
  /-- Items whose key only the later release has. -/
  added : List α
  /-- Items of the earlier and of the later release under one key. -/
  pairs : List (α × α)

/-- Whether both releases have the same keys. -/
def Matching.isAligned {α : Type} (m : Matching α) : Bool :=
  m.removed.isEmpty && m.added.isEmpty

variable {α : Type} [Keyed α]

/-- The items whose key no item of the other list has. -/
def missingFrom (items others : List α) : List α :=
  items.filter fun item => (lookup others (key item)).isNone

/-- The items that share a key, as pairs, in the order of the first list. -/
def sharedPairs (before after : List α) : List (α × α) :=
  before.filterMap fun item => (lookup after (key item)).map (item, ·)

/-- **The matching of two lists** by equality of keys. -/
def matchItems (before after : List α) : Matching α where
  removed := missingFrom before after
  added := missingFrom after before
  pairs := sharedPairs before after

namespace Catalog

/-- The matching of two catalogs. -/
def matchWith (before after : Catalog α) : Matching α :=
  matchItems before.items after.items

/-- The keys that occur in either of two catalogs, in order and each once. -/
def keysOfBoth (c d : Catalog α) : List String :=
  (ofList (c.keys ++ d.keys) : Catalog String).items

/-- The items of a catalog whose keys another one lacks. -/
def difference (c d : Catalog α) : List α :=
  missingFrom c.items d.items

end Catalog

end ReleaseDiff

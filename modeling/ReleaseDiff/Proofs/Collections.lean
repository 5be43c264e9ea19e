import Mathlib.Data.List.Forall2
import ReleaseDiff.Diff.Body
import ReleaseDiff.Proofs.Levels

set_option autoImplicit false

/-!
# Comparing collections, in one form

Every collection is compared in the same way: one change for an item that disappears, one for an
item that appears, and for two items under one key whatever the comparison of that kind of item
finds. This file states that form once and brings every comparison of a collection into it.

## Main definitions

* `ReleaseDiff.itemChanges` — the changes of one key.
* `ReleaseDiff.collectionChanges` — the changes of a collection.

## Main results

* `ReleaseDiff.collectionChanges_perm` — a collection is compared key by key.
* `ReleaseDiff.collectionChanges_eq_nil_iff` — no change is found just when related items stand in
  the same places.
* `ReleaseDiff.fieldChanges_eq` — a level of fields is compared like any other collection.
-/

namespace ReleaseDiff

variable {k : Kind}

/-! ## The form -/

section Form

variable {α : Type}

/-- **The changes of one key**, given what each release holds under it. -/
def itemChanges (removed added : Shape k) (path : Path) (both : α → α → List (Change k))
    (key : String) : Option α → Option α → List (Change k)
  | some _, none => [⟨removed, path.child key, key⟩]
  | none, some _ => [⟨added, path.child key, key⟩]
  | some x, some y => both x y
  | none, none => []

variable [Keyed α]

/-- **The changes of a collection**: what appears or disappears, then what differs between items of
one key. -/
def collectionChanges (removed added : Shape k) (path : Path) (both : α → α → List (Change k))
    (before after : Catalog α) : List (Change k) :=
  presenceChanges removed added path before.items after.items
    ++ (before.matchWith after).pairs.flatMap fun pair => both pair.1 pair.2

variable {removed added : Shape k} {path : Path} {both : α → α → List (Change k)}
  {before after : Catalog α}

/-- **A collection is compared key by key**, up to the order of the changes. -/
theorem collectionChanges_perm (removed added : Shape k) (path : Path)
    (both : α → α → List (Change k)) (before after : Catalog α) :
    (collectionChanges removed added path both before after).Perm
      (Catalog.pointwise before after (itemChanges removed added path both)) := by
  have h := Catalog.matchWith_perm_pointwise before after (itemChanges removed added path both)
  rw [collectionChanges, presenceChanges, List.map_eq_flatMap, List.map_eq_flatMap]
  exact h

/-- **No change is found just when related items stand in the same places**, where items of one key
are related just when their comparison finds nothing. -/
theorem collectionChanges_eq_nil_iff {R : α → α → Prop} (hkey : ∀ x y, R x y → key x = key y)
    (hboth : ∀ i x y, before.get? i = some x → after.get? i = some y → (both x y = [] ↔ R x y)) :
    collectionChanges removed added path both before after = [] ↔
      List.Forall₂ R before.items after.items := by
  rw [eq_nil_iff_of_perm (collectionChanges_perm removed added path both before after),
    Catalog.pointwise_eq_nil_iff fun _ => rfl, Catalog.forall₂_items_iff hkey]
  refine forall_congr' fun i => ?_
  cases hb : before.get? i with
  | none =>
    cases ha : after.get? i with
    | none => exact iff_of_true rfl Option.Rel.none
    | some y => exact iff_of_false (List.cons_ne_nil _ _) fun h => by cases h
  | some x =>
    cases ha : after.get? i with
    | none => exact iff_of_false (List.cons_ne_nil _ _) fun h => by cases h
    | some y =>
      refine (hboth i x y hb ha).trans ⟨Option.Rel.some, fun h => ?_⟩
      cases h
      assumption

end Form

/-! ## Attributes -/

/-- One change for every name under which two attribute maps disagree. -/
theorem attributeChanges_eq_map (shape : String → Shape k) (path : Path)
    (target : String → String) (before after : Attributes) :
    attributeChanges shape path target before after =
      (Attributes.changedNames before after).map fun name =>
        ⟨shape name, path.child name, target name⟩ := by
  rw [attributeChanges, Attributes.valueChanges_eq_map, List.map_map]
  rfl

/-- **No change of attributes is found just when the attribute maps are equal.** -/
theorem attributeChanges_eq_nil_iff {shape : String → Shape k} {path : Path}
    {target : String → String} {before after : Attributes} :
    attributeChanges shape path target before after = [] ↔ before = after := by
  rw [attributeChanges_eq_map, List.map_eq_nil_iff, Attributes.changedNames_eq_nil_iff]

/-! ## The collections of an entity -/

/-- Items that only appear and disappear are compared in the common form. -/
theorem presenceChanges_eq {α : Type} [Keyed α] (removed added : Shape k) (path : Path)
    (before after : Catalog α) :
    presenceChanges removed added path before.items after.items =
      collectionChanges removed added path (fun _ _ => []) before after := by
  rw [collectionChanges, List.flatMap_eq_nil_iff.2 fun _ _ => rfl, List.append_nil]

/-- Children are compared in the common form. -/
theorem childChanges_eq (repertoire : ChildRepertoire k) (path : Path)
    (before after : Catalog Child) :
    childChanges repertoire path before after =
      collectionChanges repertoire.removed repertoire.added path
        (fun x y => childPairChanges repertoire path (x, y)) before after := rfl

/-- Steps are compared in the common form. -/
theorem stepChanges_eq (repertoire : StepRepertoire k) (path : Path) (before after : Catalog Step) :
    stepChanges repertoire path before after =
      collectionChanges repertoire.removed repertoire.added path
        (fun x y => stepPairChanges repertoire path (x, y)) before after := rfl

/-- The change of a field of a data entity that both releases have. -/
def dataFieldPairChanges (path : Path) (x y : DataField) : List (Change .data) :=
  if x.value = y.value then [] else [⟨.fieldChanged, path.child x.key, x.key⟩]

/-- The fields of a data entity are compared in the common form. -/
theorem dataFieldChanges_eq (path : Path) (before after : Catalog DataField) :
    dataFieldChanges path before after =
      collectionChanges (k := .data) .fieldRemoved .fieldAdded path (dataFieldPairChanges path)
        before after := rfl

/-- The changes of an array of a data entity that both releases have. -/
def arrayPairChanges (path : Path) (x y : DataArray) : List (Change .data) :=
  presenceChanges (k := .data) .arrayItemRemoved .arrayItemAdded
    ((path.child x.key).child "Items") x.items.items y.items.items

/-- The arrays of a data entity are compared in the common form. -/
theorem arrayChanges_eq (path : Path) (before after : Catalog DataArray) :
    arrayChanges path before after =
      collectionChanges (k := .data) .arrayRemoved .arrayAdded path (arrayPairChanges path)
        before after := rfl

/-! ## Fields of a metadata operation -/

/-- The changes of a field of a metadata operation that both releases have: its attributes, then the
level below it. -/
def fieldPairChanges (path : Path) (x y : NestedField) : List (Change .metadata) :=
  attributeChanges (k := .metadata) (fun _ => .childChanged) (path.child x.key) (fun _ => x.key)
      x.attributes y.attributes
    ++ fieldChanges (path.child x.key) x.children y.children

/-- Below the fields that both releases have, the fields are compared pair by pair. -/
theorem sharedFieldChanges_eq (path : Path) (before after : FieldForest) :
    sharedFieldChanges path before after =
      (sharedPairs before.nodes after.nodes).flatMap fun p => fieldPairChanges path p.1 p.2 := by
  induction before with
  | nil => rfl
  | cons key attributes children rest _ ih =>
    have hfind : lookup after.nodes (Keyed.key (⟨key, attributes, children⟩ : NestedField)) =
        after.find? key := rfl
    rw [sharedFieldChanges, ih, FieldForest.nodes, sharedPairs_cons, List.flatMap_append, hfind]
    cases after.find? key with
    | none => rfl
    | some node => simp [fieldPairChanges, fieldChanges]

/-- **A level of fields is compared like any other collection.** -/
theorem fieldChanges_eq (path : Path) {before after : FieldForest} (hb : before.Ordered)
    (ha : after.Ordered) :
    fieldChanges path before after =
      collectionChanges (k := .metadata) .childRemoved .childAdded path (fieldPairChanges path)
        (before.catalog hb) (after.catalog ha) := by
  rw [fieldChanges, sharedFieldChanges_eq]
  rfl

/-! ## Annotations -/

/-- A set of values in well-formed annotations is not empty. -/
theorem Annotations.WellFormed.values_ne_empty {annotations : Annotations}
    (hw : annotations.WellFormed) {name : String} {set : Catalog String}
    (h : annotations.content? name = some (.values set)) : set ≠ ∅ := by
  obtain ⟨a, ha, hcontent⟩ := Option.map_eq_some_iff.1 h
  have hset := hw a (Catalog.get?_eq_some_iff.1 ha).1
  rw [hcontent] at hset
  intro hempty
  exact hset.2 (congrArg Catalog.items hempty)

/-- In well-formed annotations only a name that may recur holds a set of values, and it holds
nothing else. -/
theorem Annotations.WellFormed.content_values {annotations : Annotations}
    (hw : annotations.WellFormed) {name : String} {content : AnnotationContent}
    (h : annotations.content? name = some content) :
    name ∈ multiValued ↔ ∃ set, content = .values set := by
  obtain ⟨a, ha, rfl⟩ := Option.map_eq_some_iff.1 h
  obtain ⟨hmem, hname⟩ := Catalog.get?_eq_some_iff.1 ha
  have hcontent := hw a hmem
  rw [show a.name = name from hname] at hcontent
  cases hc : a.content with
  | scalar text =>
    rw [hc] at hcontent
    exact iff_of_false hcontent fun ⟨_, h⟩ => by cases h
  | values set =>
    rw [hc] at hcontent
    exact iff_of_true hcontent.1 ⟨set, rfl⟩

/-- Annotations are compared key by key. -/
theorem annotationChanges_eq (path : Path) (before after : Annotations) :
    annotationChanges path before after =
      Catalog.pointwise before after fun name x y =>
        contentChanges path name (x.map Annotation.content) (y.map Annotation.content) := rfl

end ReleaseDiff

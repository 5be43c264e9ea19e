import ReleaseDiff.Diff.Body
import ReleaseDiff.Proofs.Entities

set_option autoImplicit false

/-!
# Counterparts of changes

When two releases change places, an addition becomes a removal and a change stays a change. Two
kinds of change have no shape of their own for that: an annotation with a single text counts as
added where the earlier release lacks it and as changed otherwise, and the reference of a step
counts apart where the later release calls an action group. Their counterparts are told from the two
releases.

## Main definitions

* `ReleaseDiff.Shape.mirror?` — the shape of the counterpart, where the shape alone decides it.
* `ReleaseDiff.Step.Swapped` — counterparts for an attribute of a step.
* `ReleaseDiff.Annotations.Swapped` — counterparts for an annotation with a single text.
* `ReleaseDiff.Change.Counterpart` — counterparts of changes.
* `ReleaseDiff.Record.Counterpart` — counterparts of records.
-/

namespace ReleaseDiff

variable {k : Kind}

/-! ## Shapes -/

/-- The mirrored shapes of an action group; attributes of steps depend on the releases. -/
def ActionGroupShape.mirror? : ActionGroupShape → Option ActionGroupShape
  | .entityAdded => some .entityRemoved
  | .entityRemoved => some .entityAdded
  | .attributeChanged => some .attributeChanged
  | .argumentAdded => some .argumentRemoved
  | .argumentRemoved => some .argumentAdded
  | .argumentChanged => some .argumentChanged
  | .actionAdded => some .actionRemoved
  | .actionRemoved => some .actionAdded
  | .actionTypeChanged => some .actionTypeChanged
  | .actionChanged => none
  | .actionGroupRefChanged => none

/-- The mirrored shapes of a test; attributes of steps and single texts depend on the releases. -/
def TestShape.mirror? : TestShape → Option TestShape
  | .entityAdded => some .entityRemoved
  | .entityRemoved => some .entityAdded
  | .attributeChanged => some .attributeChanged
  | .actionAdded => some .actionRemoved
  | .actionRemoved => some .actionAdded
  | .actionTypeChanged => some .actionTypeChanged
  | .groupAdded => some .groupRemoved
  | .groupRemoved => some .groupAdded
  | .removeActionAdded => some .removeActionRemoved
  | .removeActionRemoved => some .removeActionAdded
  | .actionChanged => none
  | .actionGroupRefChanged => none
  | .annotationAdded => none
  | .annotationChanged => none

/-- The mirrored shapes of a page. -/
def PageShape.mirror : PageShape → PageShape
  | .entityAdded => .entityRemoved
  | .entityRemoved => .entityAdded
  | .attributeChanged => .attributeChanged
  | .sectionAdded => .sectionRemoved
  | .sectionRemoved => .sectionAdded
  | .sectionChanged => .sectionChanged

/-- The mirrored shapes of a section. -/
def PageSectionShape.mirror : PageSectionShape → PageSectionShape
  | .entityAdded => .entityRemoved
  | .entityRemoved => .entityAdded
  | .attributeChanged => .attributeChanged
  | .elementAdded => .elementRemoved
  | .elementRemoved => .elementAdded
  | .elementChanged => .elementChanged

/-- The mirrored shapes of a data entity. -/
def DataEntityShape.mirror : DataEntityShape → DataEntityShape
  | .entityAdded => .entityRemoved
  | .entityRemoved => .entityAdded
  | .attributeChanged => .attributeChanged
  | .fieldAdded => .fieldRemoved
  | .fieldRemoved => .fieldAdded
  | .fieldChanged => .fieldChanged
  | .arrayAdded => .arrayRemoved
  | .arrayRemoved => .arrayAdded
  | .arrayItemAdded => .arrayItemRemoved
  | .arrayItemRemoved => .arrayItemAdded
  | .requiredEntityAdded => .requiredEntityRemoved
  | .requiredEntityRemoved => .requiredEntityAdded
  | .requiredEntityChanged => .requiredEntityChanged
  | .varAdded => .varRemoved
  | .varRemoved => .varAdded
  | .varChanged => .varChanged

/-- The mirrored shapes of a metadata operation. -/
def OperationShape.mirror : OperationShape → OperationShape
  | .entityAdded => .entityRemoved
  | .entityRemoved => .entityAdded
  | .attributeChanged => .attributeChanged
  | .childAdded => .childRemoved
  | .childRemoved => .childAdded
  | .childChanged => .childChanged

/-- **The shape of the counterpart**, where the shape alone decides it: an addition and the removal
at the same level are counterparts of each other, a change is its own. -/
def Shape.mirror? : (k : Kind) → Shape k → Option (Shape k)
  | .actionGroup, s => ActionGroupShape.mirror? s
  | .test, s => TestShape.mirror? s
  | .page, s => some (PageShape.mirror s)
  | .pageSection, s => some (PageSectionShape.mirror s)
  | .data, s => some (DataEntityShape.mirror s)
  | .metadata, s => some (OperationShape.mirror s)

/-! ## Changes that depend on the releases -/

/-- **Counterparts for an attribute of a step** that both releases have. In either direction the
change of the reference counts apart just when the step of the later release calls an action group.
-/
def Step.Swapped (changed refChanged : Shape k) (path : Path) (earlier later : Catalog Step)
    (c d : Change k) : Prop :=
  ∃ i x y name, earlier.get? i = some x ∧ later.get? i = some y ∧
    x.attributes.value? name ≠ y.attributes.value? name ∧
    c.path = (path.child i).child name ∧
    c.shape = (if name = refAttribute ∧ y.actionType = actionGroupType then refChanged
      else changed) ∧
    d.shape = (if name = refAttribute ∧ x.actionType = actionGroupType then refChanged
      else changed)

/-- **Counterparts for an annotation with a single text.** In either direction it counts as added
just when the earlier release lacks it. -/
def Annotations.Swapped (path : Path) (earlier later : Annotations) (c d : Change .test) : Prop :=
  ∃ name ∉ multiValued, earlier.content? name ≠ later.content? name ∧
    c.path = path.child name ∧
    c.shape = (if earlier.content? name = none then .annotationAdded else .annotationChanged) ∧
    d.shape = (if later.content? name = none then .annotationAdded else .annotationChanged)

/-- Counterparts whose shapes depend on the two releases of a body. -/
def Body.Swapped (path : Path) : (k : Kind) → Body k → Body k → Change k → Change k → Prop
  | .actionGroup, a, b, c, d =>
    Step.Swapped (k := .actionGroup) .actionChanged .actionGroupRefChanged (path.child "Actions")
      a.actions b.actions c d
  | .test, a, b, c, d =>
    Annotations.Swapped (path.child "Annotations") a.annotations b.annotations c d ∨
    Step.Swapped (k := .test) .actionChanged .actionGroupRefChanged (path.child "Before")
      a.before b.before c d ∨
    Step.Swapped (k := .test) .actionChanged .actionGroupRefChanged (path.child "Actions")
      a.actions b.actions c d ∨
    Step.Swapped (k := .test) .actionChanged .actionGroupRefChanged (path.child "After")
      a.after b.after c d
  | _, _, _, _, _ => False

/-! ## Changes and records -/

/-- **Counterparts of changes**: they are at the same place and concern the same item, and their
shapes mirror each other unless the releases decide, which is then given. -/
def Change.Counterpart (swapped : Change k → Change k → Prop) (c d : Change k) : Prop :=
  c.path = d.path ∧ c.target = d.target ∧
    (Shape.mirror? k c.shape = some d.shape ∨ swapped c d)

/-- **Counterparts of records** of comparing two trees one way and the other: the records of two
counterparts in the entities of one name. -/
def Record.Counterpart (before after : Tree) (r s : Record) : Prop :=
  ∃ (k : Kind) (name : String) (c d : Change k), r = c.record name ∧ s = d.record name ∧
    c.Counterpart (fun c d => ∃ a b, before.entity? k name = some a ∧
      after.entity? k name = some b ∧ Body.Swapped (.root name) k a.body b.body c d) d

/-- The counterpart of a record has its kind. -/
theorem Record.Counterpart.kind_eq {before after : Tree} {r s : Record}
    (h : Record.Counterpart before after r s) : r.kind = s.kind := by
  obtain ⟨k, name, c, d, rfl, rfl, -⟩ := h
  rfl

/-- The counterpart of a record has its path. -/
theorem Record.Counterpart.path_eq {before after : Tree} {r s : Record}
    (h : Record.Counterpart before after r s) : r.path = s.path := by
  obtain ⟨k, name, c, d, rfl, rfl, hpath, -⟩ := h
  exact congrArg Path.text hpath

end ReleaseDiff

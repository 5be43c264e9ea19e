import ReleaseDiff.Diff.Annotation
import ReleaseDiff.Diff.Field
import ReleaseDiff.Entity.Basic

set_option autoImplicit false

/-!
# Comparing bodies

The collections of an entity that both releases have, compared one after the other.

## Main definitions

* `ReleaseDiff.Body.changes` — the changes of the body of an entity of any kind.
-/

namespace ReleaseDiff

/-- The changes of an action group: arguments, then steps. -/
def ActionGroup.changes (path : Path) (before after : ActionGroup) :
    List (Change .actionGroup) :=
  childChanges (k := .actionGroup) ⟨.argumentAdded, .argumentRemoved, .argumentChanged⟩
      (path.child "Arguments") before.arguments after.arguments
    ++ stepChanges (k := .actionGroup)
        ⟨.actionAdded, .actionRemoved, .actionChanged, .actionTypeChanged, .actionGroupRefChanged⟩
        (path.child "Actions") before.actions after.actions

/-- The shapes of the steps of a test; hooks share them with the test itself. -/
def Test.stepRepertoire : StepRepertoire .test :=
  ⟨.actionAdded, .actionRemoved, .actionChanged, .actionTypeChanged, .actionGroupRefChanged⟩

/-- The changes of a test: annotations, the three lists of steps, then the dropped steps. -/
def Test.changes (path : Path) (before after : Test) : List (Change .test) :=
  annotationChanges (path.child "Annotations") before.annotations after.annotations
    ++ stepChanges stepRepertoire (path.child "Before") before.before after.before
    ++ stepChanges stepRepertoire (path.child "Actions") before.actions after.actions
    ++ stepChanges stepRepertoire (path.child "After") before.after after.after
    ++ presenceChanges (k := .test) .removeActionRemoved .removeActionAdded
        (path.child "RemoveActions") before.removeActions.items after.removeActions.items

/-- The changes of a page. -/
def Page.changes (path : Path) (before after : Page) : List (Change .page) :=
  childChanges (k := .page) ⟨.sectionAdded, .sectionRemoved, .sectionChanged⟩
    (path.child "Sections") before.sections after.sections

/-- The changes of a section. -/
def PageSection.changes (path : Path) (before after : PageSection) :
    List (Change .pageSection) :=
  childChanges (k := .pageSection) ⟨.elementAdded, .elementRemoved, .elementChanged⟩
    (path.child "Elements") before.elements after.elements

/-- The changes of the fields of a data entity. -/
def dataFieldChanges (path : Path) (before after : Catalog DataField) : List (Change .data) :=
  presenceChanges (k := .data) .fieldRemoved .fieldAdded path before.items after.items
    ++ (before.matchWith after).pairs.flatMap fun pair =>
        if pair.1.value = pair.2.value then []
        else [⟨.fieldChanged, path.child pair.1.key, pair.1.key⟩]

/-- The changes of the arrays of a data entity. Positions of items play no part. -/
def arrayChanges (path : Path) (before after : Catalog DataArray) : List (Change .data) :=
  presenceChanges (k := .data) .arrayRemoved .arrayAdded path before.items after.items
    ++ (before.matchWith after).pairs.flatMap fun pair =>
        presenceChanges (k := .data) .arrayItemRemoved .arrayItemAdded
          ((path.child pair.1.key).child "Items") pair.1.items.items pair.2.items.items

/-- The changes of a data entity: fields, arrays, required entities and variables. -/
def DataEntity.changes (path : Path) (before after : DataEntity) : List (Change .data) :=
  dataFieldChanges (path.child "Fields") before.fields after.fields
    ++ arrayChanges (path.child "Arrays") before.arrays after.arrays
    ++ childChanges (k := .data)
        ⟨.requiredEntityAdded, .requiredEntityRemoved, .requiredEntityChanged⟩
        (path.child "RequiredEntities") before.requiredEntities after.requiredEntities
    ++ childChanges (k := .data) ⟨.varAdded, .varRemoved, .varChanged⟩
        (path.child "Vars") before.vars after.vars

/-- The changes of a metadata operation. -/
def Operation.changes (path : Path) (before after : Operation) : List (Change .metadata) :=
  fieldChanges (path.child "Fields") before.fields after.fields

/-- **The changes of a body.** -/
def Body.changes (path : Path) : (k : Kind) → Body k → Body k → List (Change k)
  | .actionGroup, a, b => ActionGroup.changes path a b
  | .test, a, b => Test.changes path a b
  | .page, a, b => Page.changes path a b
  | .pageSection, a, b => PageSection.changes path a b
  | .data, a, b => DataEntity.changes path a b
  | .metadata, a, b => Operation.changes path a b

end ReleaseDiff

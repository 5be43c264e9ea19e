import ReleaseDiff.Proofs.Levels
import ReleaseDiff.Tree
import ReleaseDiff.Config.Basic

set_option autoImplicit false

/-!
# What breaks a release, and what extends it

An upgrade is judged by the two trees alone: what users of the earlier release relied on and no
longer find, what the later release adds, and whether anything differs at all. No record and no code
plays a part here.

## Main definitions

* `ReleaseDiff.Step.Redirects` — a step calls another action group than before.
* `ReleaseDiff.Body.Breaks` — something of an entity that both releases have is broken.
* `ReleaseDiff.Body.Extends` — something is added to such an entity.
* `ReleaseDiff.Breaking` — the later release breaks the earlier one.
* `ReleaseDiff.Extending` — the later release extends the earlier one.
* `ReleaseDiff.Differing` — the releases differ in some kind.
-/

namespace ReleaseDiff

/-! ## Steps and annotations -/

namespace Step

/-- **A step calls another action group than before**: in the later release it calls one, and its
reference appeared, disappeared or changed. -/
def Redirects (x y : Step) : Prop :=
  y.actionType = actionGroupType ∧
    x.attributes.value? refAttribute ≠ y.attributes.value? refAttribute

/-- Steps break where one is removed or calls another action group. -/
def Breaks (before after : Catalog Step) : Prop :=
  before.Loses after ∨ Catalog.SomePair Redirects before after

end Step

/-- The values of the annotation `group`. -/
def Test.groups (t : Test) : Catalog String := t.annotations.valuesSoFar "group"

/-! ## Bodies -/

/-- An action group breaks where its arguments change in any way or its steps break. -/
def ActionGroup.Breaks (a b : ActionGroup) : Prop :=
  a.arguments.Loses b.arguments ∨ b.arguments.Loses a.arguments
    ∨ Catalog.SomePair (fun x y => x.attributes ≠ y.attributes) a.arguments b.arguments
    ∨ Step.Breaks a.actions b.actions

/-- A test breaks where its steps or those of a hook break, where it leaves a group, and where it
drops one more inherited step. -/
def Test.Breaks (a b : Test) : Prop :=
  Step.Breaks a.before b.before ∨ Step.Breaks a.actions b.actions ∨ Step.Breaks a.after b.after
    ∨ a.groups.Loses b.groups ∨ b.removeActions.Loses a.removeActions

/-- A test is extended by a step of its own or of a hook, by a group, and by an inherited step that
it no longer drops. -/
def Test.Extends (a b : Test) : Prop :=
  b.before.Loses a.before ∨ b.actions.Loses a.actions ∨ b.after.Loses a.after
    ∨ b.groups.Loses a.groups ∨ a.removeActions.Loses b.removeActions

/-- A data entity breaks where a field, an array, a required entity or a variable is removed. -/
def DataEntity.Breaks (a b : DataEntity) : Prop :=
  a.fields.Loses b.fields ∨ a.arrays.Loses b.arrays
    ∨ a.requiredEntities.Loses b.requiredEntities ∨ a.vars.Loses b.vars

/-- A data entity is extended by a field, an array or a variable, and by any change of the texts of
an array that both releases have. -/
def DataEntity.Extends (a b : DataEntity) : Prop :=
  b.fields.Loses a.fields ∨ b.arrays.Loses a.arrays ∨ b.vars.Loses a.vars
    ∨ Catalog.SomePair (fun x y => x.items.Loses y.items ∨ y.items.Loses x.items) a.arrays b.arrays

namespace Body

/-- **Something of an entity that both releases have is broken.** A level of fields counts where the
fields above it are in both releases. -/
def Breaks : (k : Kind) → Body k → Body k → Prop
  | .actionGroup, a, b => ActionGroup.Breaks a b
  | .test, a, b => Test.Breaks a b
  | .page, a, b => a.sections.Loses b.sections
  | .pageSection, a, b => a.elements.Loses b.elements
  | .data, a, b => DataEntity.Breaks a b
  | .metadata, a, b => FieldForest.SomeLevel FieldForest.Loses a.fields b.fields

/-- **Something is added to an entity that both releases have.** -/
def Extends : (k : Kind) → Body k → Body k → Prop
  | .actionGroup, a, b => b.actions.Loses a.actions
  | .test, a, b => Test.Extends a b
  | .page, a, b => b.sections.Loses a.sections
  | .pageSection, a, b => b.elements.Loses a.elements
  | .data, a, b => DataEntity.Extends a b
  | .metadata, a, b => FieldForest.SomeLevel (fun f g => g.Loses f) a.fields b.fields

end Body

/-! ## Releases -/

/-- Some enabled kind that both releases could build has a property. -/
def SomeKind (P : (k : Kind) → Catalog (Entity k) → Catalog (Entity k) → Prop) (config : Config)
    (before after : Tree) : Prop :=
  ∃ k ∈ config.enabledKinds, ∃ old new, before k = .ok old ∧ after k = .ok new ∧ P k old new

/-- **The later release breaks the earlier one**: an entity is gone, or one that both have is
broken. -/
def Breaking : Config → Tree → Tree → Prop :=
  SomeKind fun k old new =>
    old.Loses new ∨ Catalog.SomePair (fun x y => Body.Breaks k x.body y.body) old new

/-- **The later release extends the earlier one**: an entity is new, or one that both have is
extended. -/
def Extending : Config → Tree → Tree → Prop :=
  SomeKind fun k old new =>
    new.Loses old ∨ Catalog.SomePair (fun x y => Body.Extends k x.body y.body) old new

/-- **The releases differ** in the entities of some kind, positions of array items apart. -/
def Differing : Config → Tree → Tree → Prop :=
  SomeKind fun _ old new => ¬Slot.Same (.ok old) (.ok new)

end ReleaseDiff

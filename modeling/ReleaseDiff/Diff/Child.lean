import ReleaseDiff.Attributes
import ReleaseDiff.Catalog.Matching
import ReleaseDiff.Change
import ReleaseDiff.Step

set_option autoImplicit false

/-!
# Comparing collections

Every collection of an entity is compared by matching keys. An item that only one release has is one
change, whatever is below it; items under one key are compared part by part.

## Main definitions

* `ReleaseDiff.presenceChanges` — items that appear or disappear.
* `ReleaseDiff.attributeChanges` — attributes that two maps disagree on.
* `ReleaseDiff.childChanges` — a collection of children.
* `ReleaseDiff.stepChanges` — a collection of steps.
-/

namespace ReleaseDiff

variable {k : Kind}

/-- One change for every item that disappears, then one for every item that appears. -/
def presenceChanges {α : Type} [Keyed α] (removed added : Shape k) (path : Path)
    (before after : List α) : List (Change k) :=
  (matchItems before after).removed.map (fun x => ⟨removed, path.child (key x), key x⟩)
    ++ (matchItems before after).added.map (fun x => ⟨added, path.child (key x), key x⟩)

/-- One change for every attribute that two maps disagree on, of a shape that may depend on the name
of the attribute. -/
def attributeChanges (shape : String → Shape k) (path : Path) (target : String → String)
    (before after : Attributes) : List (Change k) :=
  (Attributes.valueChanges before after).map fun d =>
    ⟨shape d.name, path.child d.name, target d.name⟩

/-! ## Children -/

/-- **What can happen in a collection of children.** -/
structure ChildRepertoire (k : Kind) where
  /-- A child appears. -/
  added : Shape k
  /-- A child disappears. -/
  removed : Shape k
  /-- An attribute of a child differs. -/
  changed : Shape k

/-- The changes of a child that both releases have. -/
def childPairChanges (repertoire : ChildRepertoire k) (path : Path) (pair : Child × Child) :
    List (Change k) :=
  attributeChanges (fun _ => repertoire.changed) (path.child pair.1.key) (fun _ => pair.1.key)
    pair.1.attributes pair.2.attributes

/-- **The changes of a collection of children.** -/
def childChanges (repertoire : ChildRepertoire k) (path : Path) (before after : Catalog Child) :
    List (Change k) :=
  presenceChanges repertoire.removed repertoire.added path before.items after.items
    ++ (before.matchWith after).pairs.flatMap (childPairChanges repertoire path)

/-! ## Steps -/

/-- **What can happen in a collection of steps.** -/
structure StepRepertoire (k : Kind) where
  /-- A step appears. -/
  added : Shape k
  /-- A step disappears. -/
  removed : Shape k
  /-- An attribute of a step differs. -/
  changed : Shape k
  /-- The action type of a step differs. -/
  typeChanged : Shape k
  /-- A step that calls an action group calls another one. -/
  refChanged : Shape k

namespace StepRepertoire

/-- The shape of an attribute that differs: the called action group counts apart, if the later
release still calls one. -/
def ofAttribute (repertoire : StepRepertoire k) (after : Step) (name : String) : Shape k :=
  if name = Step.refAttribute ∧ after.invokesActionGroup then repertoire.refChanged
  else repertoire.changed

end StepRepertoire

/-- The changes of a step that both releases have: its action type, then its attributes. -/
def stepPairChanges (repertoire : StepRepertoire k) (path : Path) (pair : Step × Step) :
    List (Change k) :=
  (if pair.1.actionType = pair.2.actionType then []
    else [⟨repertoire.typeChanged, path.child pair.1.key, pair.1.key⟩])
    ++ attributeChanges (repertoire.ofAttribute pair.2) (path.child pair.1.key)
        (fun _ => pair.1.key) pair.1.attributes pair.2.attributes

/-- **The changes of a collection of steps.** -/
def stepChanges (repertoire : StepRepertoire k) (path : Path) (before after : Catalog Step) :
    List (Change k) :=
  presenceChanges repertoire.removed repertoire.added path before.items after.items
    ++ (before.matchWith after).pairs.flatMap (stepPairChanges repertoire path)

end ReleaseDiff

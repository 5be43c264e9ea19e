import ReleaseDiff.Proofs.Entities

set_option autoImplicit false

/-!
# What a release states

A release states facts: that an item is there, which attributes it has, what a step does, which text
a data field or an annotation carries, which values a set holds. A fact is found by the kind and the
name of an entity and by an address inside the entity, which names a collection and the keys below
it.

## Main definitions

* `ReleaseDiff.Holding` — what stands at an address.
* `ReleaseDiff.Entity.holding?` — what an entity holds at an address.
* `ReleaseDiff.Fact` — what can be asked of a release.
* `ReleaseDiff.Tree.tells` — the answer of a release.
* `ReleaseDiff.Tree.Keeps` — a release keeps whatever another one changed.

## Design

An annotation stands at an address only where it is a single text, a value of a set under the name
of the set: a set is told by its values alone. Whatever is missing tells nothing, so an attribute of
an item that is not there is an absent attribute.
-/

namespace ReleaseDiff

variable {k : Kind}

/-! ## Holdings -/

/-- **What stands at an address**: a text where the item carries one, and attributes. -/
structure Holding where
  /-- The action type of a step, the text of a data field or of an annotation. -/
  text : Option String := none
  /-- The attributes; none where the item has no attributes. -/
  attributes : Attributes := ∅

/-- What a child holds: its attributes. -/
def Child.holding (x : Child) : Holding := { attributes := x.attributes }

/-- What a step holds: its action type and its attributes. -/
def Step.holding (x : Step) : Holding := { text := some x.actionType, attributes := x.attributes }

/-- What a data field holds: its text. -/
def DataField.holding (x : DataField) : Holding := { text := some x.value }

/-- What a nested field holds: its attributes. The fields below it stand at addresses of their
own. -/
def NestedField.holding (x : NestedField) : Holding := { attributes := x.attributes }

/-- An item of which only the presence counts. -/
def Holding.mark {α : Type} (_ : α) : Holding := {}

/-- What annotations hold: a single text under its name, a value of a set under the name of the set
and the value. -/
def Annotations.holding? (annotations : Annotations) : List String → Option Holding
  | [name] =>
    match annotations.content? name with
    | some (.scalar text) => some { text := some text }
    | _ => none
  | [name, value] => ((annotations.valuesSoFar name).get? value).map Holding.mark
  | _ => none

/-- The field that a chain of keys leads to. -/
def FieldForest.fieldAt? (f : FieldForest) : List String → Option NestedField
  | [] => none
  | [i] => f.find? i
  | i :: j :: chain => (f.find? i).bind fun n => n.children.fieldAt? (j :: chain)

/-- **What a body holds at an address.** -/
def Body.holding? : (k : Kind) → Body k → List String → Option Holding
  | .actionGroup, b, ["Arguments", i] => (b.arguments.get? i).map Child.holding
  | .actionGroup, b, ["Actions", i] => (b.actions.get? i).map Step.holding
  | .test, b, "Annotations" :: address => b.annotations.holding? address
  | .test, b, ["Before", i] => (b.before.get? i).map Step.holding
  | .test, b, ["Actions", i] => (b.actions.get? i).map Step.holding
  | .test, b, ["After", i] => (b.after.get? i).map Step.holding
  | .test, b, ["RemoveActions", i] => (b.removeActions.get? i).map Holding.mark
  | .page, b, ["Sections", i] => (b.sections.get? i).map Child.holding
  | .pageSection, b, ["Elements", i] => (b.elements.get? i).map Child.holding
  | .data, b, ["Fields", i] => (b.fields.get? i).map DataField.holding
  | .data, b, ["Arrays", i] => (b.arrays.get? i).map Holding.mark
  | .data, b, ["Arrays", i, "Items", v] =>
    (b.arrays.get? i).bind fun a => (a.items.get? v).map Holding.mark
  | .data, b, ["RequiredEntities", i] => (b.requiredEntities.get? i).map Child.holding
  | .data, b, ["Vars", i] => (b.vars.get? i).map Child.holding
  | .metadata, b, "Fields" :: chain => (b.fields.fieldAt? chain).map NestedField.holding
  | _, _, _ => none

/-- No item of a body stands at the empty address. -/
@[simp] theorem Body.holding?_nil (k : Kind) (b : Body k) : Body.holding? k b [] = none := by
  cases k <;> rfl

/-- **What an entity holds at an address**; the empty address is the entity itself. -/
def Entity.holding? (e : Entity k) : List String → Option Holding
  | [] => some { attributes := e.attributes }
  | address => Body.holding? k e.body address

/-- What a release holds at an address of an entity. -/
def Tree.holding? (t : Tree) (k : Kind) (name : String) (address : List String) : Option Holding :=
  (t.entity? k name).bind fun e => e.holding? address

/-! ## Steps -/

/-- The steps of a body under the name of a collection; none where the collection holds no steps. -/
def Body.stepsIn : (k : Kind) → Body k → String → Catalog Step
  | .actionGroup, b, "Actions" => b.actions
  | .test, b, "Before" => b.before
  | .test, b, "Actions" => b.actions
  | .test, b, "After" => b.after
  | _, _, _ => ∅

/-- **The step of a key** in a collection of an entity. -/
def Tree.step? (t : Tree) (k : Kind) (name collection i : String) : Option Step :=
  (t.entity? k name).bind fun e => (Body.stepsIn k e.body collection).get? i

/-! ## Facts -/

/-- What can be asked of an item. -/
inductive Aspect where
  /-- Whether it is there. -/
  | presence
  /-- Its text. -/
  | text
  /-- The value of its attribute of a name. -/
  | value (name : String)

/-- **A fact**: a question that a release answers. -/
structure Fact where
  /-- The kind of the entity. -/
  kind : Kind
  /-- The name of the entity. -/
  entity : String
  /-- The item inside the entity. -/
  address : List String
  /-- What is asked of the item. -/
  aspect : Aspect

/-- What an address tells: nothing where no item stands there, the empty text for an item whose
presence is asked for. -/
def Holding.tells : Option Holding → Aspect → Option String
  | none, _ => none
  | some _, .presence => some ""
  | some h, .text => h.text
  | some h, .value name => h.attributes.value? name

/-- **The answer of a release.** -/
def Tree.tells (t : Tree) (f : Fact) : Option String :=
  Holding.tells (t.holding? f.kind f.entity f.address) f.aspect

/-- **A release keeps what another one changed**: on every fact on which the later release differs
from the earlier one, the further release agrees with the later one. -/
def Tree.Keeps (before after further : Tree) : Prop :=
  ∀ f, before.tells f ≠ after.tells f → further.tells f = after.tells f

/-! ## Keeping changes, item by item -/

/-- What stands at an address in the further release keeps what the later one changed there. -/
def Holding.Kept (x y z : Option Holding) : Prop :=
  ∀ aspect, tells x aspect ≠ tells y aspect → tells z aspect = tells y aspect

namespace Holding.Kept

variable {x y z : Option Holding}

/-- Where nothing changed, there is nothing to keep. -/
theorem of_unchanged (h : x = y) : Kept x y z := fun _ hne => absurd (by rw [h]) hne

/-- A release that holds the same as the later one keeps its changes. -/
theorem of_same (h : z = y) : Kept x y z := fun _ _ => by rw [h]

/-- Where the item appeared, it is still there. -/
theorem isSome_of_gained {h : Holding} (hkept : Kept none (some h) z) : z.isSome = true := by
  have htold := hkept .presence (by simp [tells])
  cases z with
  | none => simp [tells] at htold
  | some _ => rfl

/-- Where the item disappeared, it is still gone. -/
theorem eq_none_of_lost {h : Holding} (hkept : Kept (some h) none z) : z = none := by
  have htold := hkept .presence (by simp [tells])
  cases z with
  | none => rfl
  | some _ => simp [tells] at htold

variable {u v w : Holding}

/-- Where all three releases have the item, a text that changed is kept. -/
theorem text_eq (hkept : Kept (some u) (some v) (some w)) (h : u.text ≠ v.text) :
    w.text = v.text :=
  hkept .text h

/-- Where all three releases have the item, an attribute that changed is kept. -/
theorem value?_eq (hkept : Kept (some u) (some v) (some w)) {name : String}
    (h : u.attributes.value? name ≠ v.attributes.value? name) :
    w.attributes.value? name = v.attributes.value? name :=
  hkept (.value name) h

end Holding.Kept

/-- A release keeps changes just when it keeps them at every address. -/
theorem Tree.keeps_iff {before after further : Tree} :
    Tree.Keeps before after further ↔ ∀ k name address,
      Holding.Kept (before.holding? k name address) (after.holding? k name address)
        (further.holding? k name address) :=
  ⟨fun h k name address aspect => h ⟨k, name, address, aspect⟩,
    fun h f => h f.kind f.entity f.address f.aspect⟩

/-- Behind the first key of a chain, a field is looked for below that key. -/
theorem FieldForest.fieldAt?_cons (f : FieldForest) (i : String) {chain : List String}
    (h : chain ≠ []) :
    f.fieldAt? (i :: chain) = (f.find? i).bind fun n => n.children.fieldAt? chain := by
  cases chain with
  | nil => exact absurd rfl h
  | cons j chain => rfl

/-! ## Releases with one entity -/

/-- What is found in a catalog of one item. -/
theorem Catalog.get?_ofList_singleton {α : Type} [Keyed α] (x : α) (i : String) :
    (Catalog.ofList [x]).get? i = if key x = i then some x else none :=
  Catalog.get?_insert _ _ _

/-- **The release of a single entity.** -/
def Tree.single (e : Entity k) : Tree := Function.update Tree.empty k (.ok (Catalog.ofList [e]))

theorem Tree.single_self (e : Entity k) : Tree.single e k = .ok (Catalog.ofList [e]) :=
  Function.update_self _ _ _

theorem Tree.single_of_ne {j : Kind} (e : Entity k) (h : j ≠ k) : Tree.single e j = .ok ∅ :=
  Function.update_of_ne h _ _

theorem Tree.isOk_single (e : Entity k) (j : Kind) : (Tree.single e j).isOk = true := by
  by_cases h : j = k
  · subst h
    rw [Tree.single_self]
    rfl
  · rw [Tree.single_of_ne e h]
    rfl

/-- Such a release holds what its entity holds, and nothing under any other name or kind. -/
theorem Tree.holding?_single_self (e : Entity k) (address : List String) :
    (Tree.single e).holding? k e.name address = e.holding? address := by
  have hfound : (Catalog.ofList [e]).get? e.name = some e :=
    (Catalog.get?_ofList_singleton e e.name).trans (if_pos rfl)
  rw [Tree.holding?, Tree.entity?, Tree.single_self, Slot.entities, hfound, Option.bind_some]

theorem Tree.holding?_single_of_ne (e : Entity k) {j : Kind} {name : String}
    (h : ¬(j = k ∧ e.name = name)) (address : List String) :
    (Tree.single e).holding? j name address = none := by
  have hnone : (Tree.single e).entity? j name = none := by
    by_cases hj : j = k
    · subst hj
      rw [Tree.entity?, Tree.single_self, Slot.entities]
      exact (Catalog.get?_ofList_singleton e name).trans (if_neg fun hname => h ⟨rfl, hname⟩)
    · rw [Tree.entity?, Tree.single_of_ne e hj]
      rfl
  rw [Tree.holding?, hnone, Option.bind_none]

end ReleaseDiff

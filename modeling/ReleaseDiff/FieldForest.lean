import ReleaseDiff.Attributes
import ReleaseDiff.Catalog.Lemmas
import ReleaseDiff.Malformed

set_option autoImplicit false

/-!
# Fields of a metadata operation

A metadata operation holds fields that nest to any depth. The fields of one level, each with the
fields below it, form a forest.

## Main definitions

* `ReleaseDiff.FieldForest` — the fields of one level.
* `ReleaseDiff.NestedField` — one field with the level below it.
* `ReleaseDiff.FieldForest.Ordered` — strictly increasing keys on every level.
* `ReleaseDiff.FieldForest.arrange?` — puts every level into key order, or reports a defect.

## Main results

* `ReleaseDiff.FieldForest.ordered_of_arrange?` — an arranged forest is ordered.
-/

namespace ReleaseDiff

/-- **The fields of one level**, each with the level below it. -/
inductive FieldForest where
  /-- No field. -/
  | nil
  /-- A field, its attributes and the level below it, before the remaining fields. -/
  | cons (key : String) (attributes : Attributes) (children rest : FieldForest)
  deriving DecidableEq

/-- One field with the level below it. -/
structure NestedField where
  /-- The key. -/
  key : String
  /-- The attributes. -/
  attributes : Attributes
  /-- The level below the field. -/
  children : FieldForest
  deriving DecidableEq

instance : Keyed NestedField := ⟨NestedField.key⟩

namespace FieldForest

/-- The fields of the level as a list. -/
def nodes : FieldForest → List NestedField
  | nil => []
  | cons k a children rest => ⟨k, a, children⟩ :: rest.nodes

/-- The level of a list of fields. -/
def ofNodes : List NestedField → FieldForest
  | [] => nil
  | n :: rest => cons n.key n.attributes n.children (ofNodes rest)

@[simp] theorem nodes_ofNodes (ns : List NestedField) : (ofNodes ns).nodes = ns := by
  induction ns with
  | nil => rfl
  | cons n rest ih => simp [ofNodes, nodes, ih]

/-- The number of fields on all levels. -/
def size : FieldForest → Nat
  | nil => 0
  | cons _ _ children rest => 1 + children.size + rest.size

/-- The field of a key on this level. -/
def find? (f : FieldForest) (k : String) : Option NestedField := lookup f.nodes k

/-- The level below a chain of keys; no field where the chain breaks off. -/
def levelAt (f : FieldForest) : List String → FieldForest
  | [] => f
  | k :: chain =>
    match f.find? k with
    | some n => n.children.levelAt chain
    | none => nil

/-- **Strictly increasing keys** on this level and on all levels below it. -/
def Ordered : FieldForest → Prop
  | nil => True
  | cons k _ children rest =>
    (∀ n ∈ rest.nodes, k < n.key) ∧ children.Ordered ∧ rest.Ordered

/-- A level is ordered if its own keys increase and every level below it is ordered. -/
theorem ordered_ofNodes {ns : List NestedField} (h : Increasing ns)
    (hc : ∀ n ∈ ns, n.children.Ordered) : (ofNodes ns).Ordered := by
  induction ns with
  | nil => trivial
  | cons n rest ih =>
    obtain ⟨hn, hrest⟩ := List.pairwise_cons.1 h
    refine ⟨?_, hc n (List.mem_cons_self ..), ih hrest fun m hm => hc m (List.mem_cons_of_mem _ hm)⟩
    rw [nodes_ofNodes]
    exact hn

/-- The name of the level below a field. -/
def levelBelow (place : Place) (key : String) : Place :=
  { place with collection := place.collection ++ "/" ++ key }

/-- Puts the fields of one level into key order. -/
def arrangeLevel? (place : Place) (ns : List NestedField) : Except Malformed FieldForest := do
  let level ← place.blame (Catalog.ofDistinct? ns)
  return ofNodes level.items

/-- The fields of a level, with the levels below them arranged and the level itself as declared.
The first defect below a field is reported before the fields after it are looked at. -/
def arrangeBelow? (place : Place) : FieldForest → Except Malformed (List NestedField)
  | nil => return []
  | cons k a children rest => do
    let inner := levelBelow place k
    let below ← arrangeLevel? inner (← arrangeBelow? inner children)
    return ⟨k, a, below⟩ :: (← arrangeBelow? place rest)

/-- **Puts every level into key order.** Keys must be distinct on each level and not empty; what is
nested below the fields of a level is looked at before the level itself. -/
def arrange? (place : Place) (f : FieldForest) : Except Malformed FieldForest := do
  arrangeLevel? place (← arrangeBelow? place f)

/-- An arranged level is ordered if the levels below its fields are. -/
theorem ordered_of_arrangeLevel? {place : Place} {ns : List NestedField} {f : FieldForest}
    (h : arrangeLevel? place ns = .ok f) (hc : ∀ n ∈ ns, n.children.Ordered) : f.Ordered := by
  unfold arrangeLevel? at h
  cases hl : Catalog.ofDistinct? ns with
  | error e => rw [hl] at h; cases h
  | ok level =>
    rw [hl] at h
    cases h
    exact ordered_ofNodes level.increasing fun n hn => hc n (Catalog.mem_of_mem_ofDistinct? hl hn)

/-- The levels below the fields of a level are ordered once arranged. -/
theorem ordered_of_arrangeBelow? {place : Place} {f : FieldForest} {ns : List NestedField}
    (h : arrangeBelow? place f = .ok ns) : ∀ n ∈ ns, n.children.Ordered := by
  induction f generalizing place ns with
  | nil => cases h; exact fun n hn => by cases hn
  | cons k a children rest ihc ihr =>
    unfold arrangeBelow? at h
    cases hb : arrangeBelow? (levelBelow place k) children with
    | error e => simp [hb, bind, Except.bind] at h
    | ok inner =>
      cases hl : arrangeLevel? (levelBelow place k) inner with
      | error e => simp [hb, hl, bind, Except.bind] at h
      | ok level =>
        cases hr : arrangeBelow? place rest with
        | error e => simp [hb, hl, hr, bind, Except.bind] at h
        | ok others =>
          simp only [hb, hl, hr, bind, Except.bind, pure, Except.pure, Except.ok.injEq] at h
          subst h
          intro n hn
          rcases List.mem_cons.1 hn with rfl | hn
          · exact ordered_of_arrangeLevel? hl (ihc hb)
          · exact ihr hr n hn

/-- **An arranged forest is ordered on every level.** -/
theorem ordered_of_arrange? {place : Place} {f g : FieldForest} (h : arrange? place f = .ok g) :
    g.Ordered := by
  unfold arrange? at h
  cases hb : arrangeBelow? place f with
  | error e => simp [hb, bind, Except.bind] at h
  | ok ns =>
    simp only [hb, bind, Except.bind] at h
    exact ordered_of_arrangeLevel? h (ordered_of_arrangeBelow? hb)

end FieldForest

end ReleaseDiff

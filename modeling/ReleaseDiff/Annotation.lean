import ReleaseDiff.Catalog.Lemmas
import ReleaseDiff.Malformed

set_option autoImplicit false

/-!
# Annotations of a test

A test carries annotations: texts under names. The name `group` may be declared any number of times
and collects a set of values; any other name may be declared once.

## Main definitions

* `ReleaseDiff.Annotation` — a name with a text or a set of values.
* `ReleaseDiff.Annotations` — annotations in name order.
* `ReleaseDiff.Annotations.ofPairs?` — reads the declared pairs.
* `ReleaseDiff.Annotations.WellFormed` — what every reading of declared pairs has.

## Main results

* `ReleaseDiff.Annotations.wellFormed_of_ofPairs?` — annotations read from pairs are well formed.
-/

namespace ReleaseDiff

/-- **The content of an annotation.** -/
inductive AnnotationContent where
  /-- A single text. -/
  | scalar (text : String)
  /-- A set of values. -/
  | values (set : Catalog String)
  deriving DecidableEq

/-- **An annotation.** -/
structure Annotation where
  /-- The name. -/
  name : String
  /-- The content. -/
  content : AnnotationContent
  deriving DecidableEq

instance : Keyed Annotation where
  key a := a.name

/-- **Annotations**, in name order. -/
abbrev Annotations := Catalog Annotation

namespace Annotations

/-- The names that may be declared more than once. -/
def multiValued : List String := ["group"]

/-- The content under a name. -/
def content? (annotations : Annotations) (name : String) : Option AnnotationContent :=
  (annotations.get? name).map Annotation.content

/-- The values collected so far under a name; none before the first. -/
def valuesSoFar (annotations : Annotations) (name : String) : Catalog String :=
  match annotations.content? name with
  | some (.values set) => set
  | _ => ∅

/-- Adds one declared pair. A name that may recur collects the value; any other name must be new.
An empty name is refused. -/
def declare? (annotations : Annotations) (pair : String × String) :
    Except KeyDefect Annotations :=
  if multiValued.contains pair.1 then
    .ok (annotations.insert
      ⟨pair.1, .values ((valuesSoFar annotations pair.1).insert pair.2)⟩)
  else annotations.insertNew? ⟨pair.1, .scalar pair.2⟩

/-- Reads the declared pairs of name and text; the first defect is reported. -/
def ofPairs? (pairs : List (String × String)) : Except KeyDefect Annotations :=
  pairs.foldlM declare? ∅

/-- **Well-formed annotations**: those and only those whose name may recur hold a set of values, and
no such set is empty. -/
def WellFormed (annotations : Annotations) : Prop :=
  ∀ a ∈ annotations.items,
    match a.content with
    | .scalar _ => a.name ∉ multiValued
    | .values set => a.name ∈ multiValued ∧ set.items ≠ []

/-- Adding a declared pair keeps annotations well formed.

**Proof sketch.** The annotations afterwards are those from before and the one that was filed. Where
the name may recur, that one holds at least the value just declared. -/
theorem wellFormed_of_declare? {annotations after : Annotations} {pair : String × String}
    (h : annotations.declare? pair = .ok after) (hw : annotations.WellFormed) :
    after.WellFormed := by
  unfold declare? at h
  split at h
  · rename_i hname
    cases h
    intro a ha
    rcases Catalog.mem_of_mem_insert ha with rfl | ha
    · exact ⟨List.contains_iff_mem.1 hname, place_ne_nil _ _⟩
    · exact hw a ha
  · rename_i hname
    intro a ha
    rcases Catalog.mem_of_mem_insertNew? h ha with rfl | ha
    · exact fun hmem => hname (List.contains_iff_mem.2 hmem)
    · exact hw a ha

/-- **Annotations read from declared pairs are well formed.** -/
theorem wellFormed_of_ofPairs? {pairs : List (String × String)} {annotations : Annotations}
    (h : ofPairs? pairs = .ok annotations) : annotations.WellFormed :=
  foldlM_keeps WellFormed (fun _ _ _ _ hb hd => wellFormed_of_declare? hd hb)
    (fun _ ha => absurd ha List.not_mem_nil) h

end Annotations

end ReleaseDiff

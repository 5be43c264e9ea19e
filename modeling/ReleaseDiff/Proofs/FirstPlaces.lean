import Mathlib.Order.Bounds.Basic
import ReleaseDiff.Proofs.Building

set_option autoImplicit false

/-!
# First places of the items of an array

An array is declared as a sequence of texts, in which a text may recur. It is read into the distinct
texts in increasing order, each with the place where it stands first. Two orders meet here: the
items are sorted by text, and every one of them remembers an index of the declared sequence. A later
occurrence never moves an earlier one, and only an empty text keeps an array from being read.

## Main definitions

* `ReleaseDiff.ArrayParts.FirstPlaces` — items are the distinct texts of a sequence, each with the
  least of its indices.

## Main results

* `ReleaseDiff.ArrayParts.FirstPlaces.unique` — a sequence of texts has one such collection.
* `ReleaseDiff.ArrayParts.build?_cases` — an array is read, or it has an empty text.
* `ReleaseDiff.DataParts.build?_eq_error_items_iff` — when a data entity fails with its items.
* `ReleaseDiff.array_items_keep_first_places` — when the items of an array are read, and into what.
-/

namespace ReleaseDiff

variable {k : Kind} {entity : String}

namespace ArrayParts

/-- **Items are the first places of declared texts**: the distinct texts in increasing order, each
with the least index at which it was declared. -/
structure FirstPlaces (texts : List String) (items : Catalog ArrayItem) : Prop where
  /-- The texts increase strictly. -/
  increasing : items.keys.Pairwise (· < ·)
  /-- They are those that were declared. -/
  values : ∀ v, v ∈ items.keys ↔ v ∈ texts
  /-- The place of an item is the least index of its text. -/
  least : ∀ x ∈ items.items, IsLeast {i | texts[i]? = some x.value} x.position

/-- The place that a search finds first is the least index. -/
theorem isLeast_of_idxOf? {texts : List String} {v : String} {i : Nat}
    (h : texts.idxOf? v = some i) : IsLeast {j | texts[j]? = some v} i := by
  obtain ⟨hi, hv, hbefore⟩ := List.idxOf?_eq_some_iff.1 h
  refine ⟨List.getElem?_eq_some_iff.2 ⟨hi, hv⟩, fun j hj => ?_⟩
  obtain ⟨_, hjv⟩ := List.getElem?_eq_some_iff.1 hj
  by_contra hlt
  exact hbefore j (Nat.lt_of_not_le hlt) hjv

/-- What a declared array becomes has the first places of its texts. -/
theorem Becomes.firstPlaces {p : ArrayParts} {a : DataArray} (h : p.Becomes a) :
    FirstPlaces p.items a.items where
  increasing := List.pairwise_map.2 h.increasing
  values v := by rw [Catalog.mem_keys_iff, h.contains_iff]
  least x hx := by
    have hfound : a.items.get? x.value = some x := Catalog.get?_eq_some_iff.2 ⟨hx, rfl⟩
    have hplace := h.position x.value
    rw [hfound] at hplace
    exact isLeast_of_idxOf? hplace.symm

/-- **The first places of declared texts are one collection of items.** The texts tell which items
there are, and of two least indices of a text each is at most the other. -/
theorem FirstPlaces.unique {texts : List String} {c d : Catalog ArrayItem}
    (hc : FirstPlaces texts c) (hd : FirstPlaces texts d) : c = d := by
  have hsub : ∀ {c d : Catalog ArrayItem}, FirstPlaces texts c → FirstPlaces texts d →
      ∀ x ∈ c.items, x ∈ d.items := by
    intro c d hc hd x hx
    have hdeclared : x.value ∈ texts := (hc.values x.value).1 (List.mem_map_of_mem hx)
    obtain ⟨y, hy, hvalue⟩ := List.mem_map.1 ((hd.values x.value).2 hdeclared)
    have hleast := hd.least y hy
    rw [show y.value = x.value from hvalue] at hleast
    have hxy : y = x := congrArg₂ ArrayItem.mk hvalue (hleast.unique (hc.least x hx))
    exact hxy ▸ hy
  exact Catalog.ext (eq_of_mem_iff c.increasing d.increasing fun x => ⟨hsub hc hd x, hsub hd hc x⟩)

/-! ## Reading an array -/

variable {a : ArrayParts}

/-- **An array is read into the first places of its texts, or it has an empty text** and fails with
that, whatever else recurs in it. -/
theorem build?_cases (k : Kind) (entity : String) (a : ArrayParts) :
    ("" ∉ a.items ∧ ∃ array, a.build? ⟨k, entity, "Items"⟩ = .ok array ∧ array.key = a.key ∧
        FirstPlaces a.items array.items) ∨
      "" ∈ a.items ∧
        a.build? ⟨k, entity, "Items"⟩ = .error (.missingIdentifier k entity "Items") := by
  have h : Validates k entity _ _ _ := a.validates_build?
  generalize a.build? ⟨k, entity, "Items"⟩ = read at h ⊢
  cases h with
  | @ok array hsound harray =>
    have hallowed := List.forall_mem_singleton.1 hsound
    exact Or.inl ⟨hallowed.1, array, rfl, harray.key, harray.firstPlaces⟩
  | error hm =>
    obtain ⟨l, hl, hempty, rfl⟩ :=
      hm.exists_empty (List.forall_mem_singleton.2 fun _ => rfl)
    obtain rfl := List.mem_singleton.1 hl
    exact Or.inr ⟨hempty, rfl⟩

/-- **When an array is read, and into what.** -/
theorem build?_eq_ok_iff {array : DataArray} :
    a.build? ⟨k, entity, "Items"⟩ = .ok array ↔
      "" ∉ a.items ∧ array.key = a.key ∧ FirstPlaces a.items array.items := by
  rcases a.build?_cases k entity with ⟨hne, read, hread, hkey, hplaces⟩ | ⟨hempty, hread⟩
  · rw [hread, Except.ok.injEq, and_iff_right hne]
    constructor
    · rintro rfl
      exact ⟨hkey, hplaces⟩
    · rintro ⟨hkey', hplaces'⟩
      exact congrArg₂ DataArray.mk (hkey.trans hkey'.symm) (hplaces.unique hplaces')
  · rw [hread]
    exact iff_of_false (fun h => by cases h) fun h => h.1 hempty

/-- **When an array is not read, and why.** -/
theorem build?_eq_error_iff {m : Malformed} :
    a.build? ⟨k, entity, "Items"⟩ = .error m ↔
      "" ∈ a.items ∧ m = .missingIdentifier k entity "Items" := by
  rcases a.build?_cases k entity with ⟨hne, read, hread, -⟩ | ⟨hempty, hread⟩
  · rw [hread]
    exact iff_of_false (fun h => by cases h) fun h => hne h.1
  · rw [hread, Except.error.injEq, and_iff_right hempty, eq_comm]

/-- An array is read just when no text is empty. -/
theorem isOk_build?_iff : (a.build? ⟨k, entity, "Items"⟩).isOk = true ↔ "" ∉ a.items := by
  rcases a.build?_cases k entity with ⟨hne, read, hread, -⟩ | ⟨hempty, hread⟩
  · rw [hread]
    exact iff_of_true rfl hne
  · rw [hread]
    exact iff_of_false (fun h => by cases h) fun hne => hne hempty

end ArrayParts

/-! ## Arrays of a data entity -/

/-- **A data entity fails with its items just when some array has an empty text.** The items of all
arrays are read before anything else, so no other defect comes first. -/
theorem DataParts.build?_eq_error_items_iff {p : DataParts} :
    p.build? (⟨.data, entity, ·⟩) = .error (.missingIdentifier .data entity "Items") ↔
      ∃ a ∈ p.arrays, "" ∈ a.items := by
  have h : Validates .data entity _ _ _ := p.validates_build?
  generalize p.build? (⟨.data, entity, ·⟩) = read at h ⊢
  cases h with
  | ok hsound _ =>
    refine iff_of_false (fun h => by cases h) ?_
    rintro ⟨a, ha, hempty⟩
    exact (hsound _ (List.mem_append_left _ (List.mem_map_of_mem ha))).1 hempty
  | error hm =>
    rcases hm.of_append with hitems | ⟨hsound, hothers⟩
    · obtain ⟨l, hl, hempty, rfl⟩ :=
        hitems.exists_empty (List.forall_mem_map.2 fun _ _ _ => rfl)
      obtain ⟨a, ha, rfl⟩ := List.mem_map.1 hl
      exact iff_of_true rfl ⟨a, ha, hempty⟩
    · -- The items of all arrays are sound, so the defect is told with another collection.
      refine iff_of_false (fun h => ?_) ?_
      · rw [Except.error.inj h] at hothers
        have hitems : "Items" ∈ ["Fields", "Arrays", "RequiredEntities", "Vars"] :=
          hothers.mem_collections
        exact absurd hitems (by decide)
      · rintro ⟨a, ha, hempty⟩
        exact (hsound _ (List.mem_map_of_mem ha)).1 hempty

/-- A declared data entity fails with its items just when it has a name and some array of it has an
empty text. -/
theorem Draft.build?_eq_error_items_iff (d : Draft .data) :
    d.build? = .error (.missingIdentifier .data d.name "Items") ↔
      d.name ≠ "" ∧ ∃ a ∈ d.parts.arrays, "" ∈ a.items := by
  by_cases hname : d.name = ""
  · rw [build?_of_nameless hname]
    refine iff_of_false (fun h => ?_) fun h => h.1 hname
    have hcollection : "name" = "Items" :=
      (Malformed.missingIdentifier.inj (Except.error.inj h)).2.2
    exact absurd hcollection (by decide)
  · rw [and_iff_right hname, build?_eq_error_iff hname]
    exact DataParts.build?_eq_error_items_iff

/-- The arrays of an entity that was built have the first places of the declared texts. -/
theorem Entity.Shows.exists_array {e : Entity .data} {d : Draft .data} (h : e.Shows d)
    {a : ArrayParts} (ha : a ∈ d.parts.arrays) :
    ∃ array, e.body.arrays.get? a.key = some array ∧
      ArrayParts.FirstPlaces a.items array.items := by
  obtain ⟨-, harrays, -⟩ := h.body
  obtain ⟨array, hget, hbecomes⟩ := harrays.found a ha
  exact ⟨array, hget, hbecomes.firstPlaces⟩

/-- **The items of an array keep first places.** A declared array is read just when none of its
texts is empty, whichever texts recur; otherwise it fails with the missing identifier of an item. It
is read into the one array of its key that holds the distinct texts in increasing order, each with
the least index at which it was declared. So are all arrays of a data entity that is built, and a
data entity with a name fails with a missing item just when some array of it has an empty text. -/
theorem array_items_keep_first_places :
    (∀ (entity : String) (a : ArrayParts),
      let read := a.build? ⟨.data, entity, "Items"⟩
      (read.isOk = true ↔ "" ∉ a.items) ∧
        (∀ m, read = .error m ↔ "" ∈ a.items ∧ m = .missingIdentifier .data entity "Items") ∧
        ∀ array, read = .ok array ↔
          "" ∉ a.items ∧ array.key = a.key ∧ ArrayParts.FirstPlaces a.items array.items) ∧
    ∀ d : Draft .data,
      (d.build? = .error (.missingIdentifier .data d.name "Items") ↔
        d.name ≠ "" ∧ ∃ a ∈ d.parts.arrays, "" ∈ a.items) ∧
      ∀ e, d.build? = .ok e → ∀ a ∈ d.parts.arrays, ∃ array,
        e.body.arrays.get? a.key = some array ∧ ArrayParts.FirstPlaces a.items array.items := by
  refine ⟨fun entity a => ⟨ArrayParts.isOk_build?_iff, fun m => ArrayParts.build?_eq_error_iff,
    fun array => ArrayParts.build?_eq_ok_iff⟩, fun d => ?_⟩
  refine ⟨d.build?_eq_error_items_iff, fun e he a ha => ?_⟩
  exact (Draft.shows_of_build? he).exists_array ha

/-- A street line recurs and is declared before one that sorts in front of it. With an empty line
behind the recurring one, the entity is not built. -/
theorem array_items_keep_first_places_street :
    let street (texts : List String) : ArrayParts := ⟨"street", texts⟩
    let customer (a : ArrayParts) : Draft .data := ⟨"Customer", [], { arrays := [a] }⟩
    let lines := ["two", "one", "two"]
    (∃ e, (customer (street lines)).build? = .ok e ∧
      ∃ array, e.body.arrays.get? "street" = some array ∧
        array.items.items = [⟨"one", 1⟩, ⟨"two", 0⟩] ∧
        ArrayParts.FirstPlaces lines array.items) ∧
      (customer (street (lines ++ [""]))).build? =
        .error (.missingIdentifier .data "Customer" "Items") := by
  intro street customer lines
  obtain ⟨-, hentity⟩ := array_items_keep_first_places
  constructor
  · refine ⟨_, rfl, ?_⟩
    obtain ⟨array, hget, hplaces⟩ :=
      (hentity (customer (street lines))).2 _ rfl (street lines) List.mem_cons_self
    exact ⟨array, hget, by cases hget; rfl, hplaces⟩
  · refine (hentity (customer (street (lines ++ [""])))).1.2 ⟨by decide, _, List.mem_cons_self, ?_⟩
    decide

end ReleaseDiff

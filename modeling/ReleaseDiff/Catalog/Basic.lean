set_option autoImplicit false

/-!
# Catalogs

A catalog holds items under their own keys, in strictly increasing key order. The order is that
of the code points of the keys, so two catalogs with the same items are equal however they were
filled.

## Main definitions

* `ReleaseDiff.Keyed` — types whose values carry their own key.
* `ReleaseDiff.Catalog` — items in strictly increasing key order.
* `ReleaseDiff.Catalog.insert`, `ReleaseDiff.Catalog.get?` — write and look-up.
* `ReleaseDiff.Catalog.ofDistinct?` — reads a declared list and refuses empty and repeated keys.
* `ReleaseDiff.Catalog.ofFirsts?` — reads a declared list and keeps the first item of a key.

## Main results

* `ReleaseDiff.increasing_place` — placing an item keeps the key order.
-/

namespace ReleaseDiff

/-- **Keyed items**: a value names the key under which it is filed. -/
class Keyed (α : Type) where
  /-- The key of an item. -/
  key : α → String

export Keyed (key)

/-- A text is its own key. -/
instance : Keyed String := ⟨id⟩

@[simp] theorem key_string (s : String) : key s = s := rfl

section Lists

variable {α : Type} [Keyed α]

/-- The keys increase strictly along the list; no key occurs twice. -/
def Increasing (items : List α) : Prop :=
  items.Pairwise fun a b => key a < key b

/-- The first item filed under a key. -/
def lookup (items : List α) (k : String) : Option α :=
  items.find? fun item => key item == k

/-- Puts an item at its place in a list in key order; an item of the same key is replaced. -/
def place (item : α) : List α → List α
  | [] => [item]
  | other :: rest =>
    if key item < key other then item :: other :: rest
    else if key other < key item then other :: place item rest
    else item :: rest

/-- Of two texts neither of which is before the other, both are the same. -/
theorem eq_of_not_lt {a b : String} (hab : ¬a < b) (hba : ¬b < a) : a = b :=
  String.le_antisymm (String.not_lt.1 hba) (String.not_lt.1 hab)

/-- A list into which an item was placed is not empty. -/
theorem place_ne_nil (item : α) (items : List α) : place item items ≠ [] := by
  cases items with
  | nil => exact List.cons_ne_nil _ _
  | cons other rest => unfold place; split <;> (try split) <;> exact List.cons_ne_nil _ _

/-- Placing an item brings in no item but that one. -/
theorem mem_of_mem_place {item x : α} {items : List α} (h : x ∈ place item items) :
    x = item ∨ x ∈ items := by
  induction items with
  | nil => exact Or.inl (List.mem_singleton.1 h)
  | cons other rest ih =>
    unfold place at h
    split at h
    · simpa using h
    · split at h
      · rcases List.mem_cons.1 h with h | h
        · exact Or.inr (by simp [h])
        · exact (ih h).imp_right (List.mem_cons_of_mem _)
      · rcases List.mem_cons.1 h with h | h
        · exact Or.inl h
        · exact Or.inr (List.mem_cons_of_mem _ h)

/-- **Placing an item keeps the key order.** -/
theorem increasing_place {item : α} {items : List α} (h : Increasing items) :
    Increasing (place item items) := by
  induction items with
  | nil => exact List.pairwise_singleton _ _
  | cons other rest ih =>
    obtain ⟨hother, hrest⟩ := List.pairwise_cons.1 h
    unfold place
    split
    · rename_i hlt
      refine List.pairwise_cons.2 ⟨fun x hx => ?_, h⟩
      rcases List.mem_cons.1 hx with rfl | hx
      · exact hlt
      · exact String.lt_trans hlt (hother x hx)
    · split
      · rename_i hlt
        refine List.pairwise_cons.2 ⟨fun x hx => ?_, ih hrest⟩
        rcases mem_of_mem_place hx with rfl | hx
        · exact hlt
        · exact hother x hx
      · rename_i h₁ h₂
        refine List.pairwise_cons.2 ⟨fun x hx => ?_, hrest⟩
        rw [eq_of_not_lt h₁ h₂]
        exact hother x hx

end Lists

/-- **A catalog**: items in strictly increasing key order. -/
structure Catalog (α : Type) [Keyed α] where
  /-- The items, smallest key first. -/
  items : List α
  /-- The keys increase strictly. -/
  increasing : Increasing items

/-- What is wrong with an item that a catalog refuses. -/
inductive KeyDefect where
  /-- The key is the empty text. -/
  | empty
  /-- The key is taken by an earlier item. -/
  | repeated (key : String)
  deriving DecidableEq, Repr

namespace Catalog

variable {α : Type} [Keyed α]

@[ext] theorem ext {c d : Catalog α} (h : c.items = d.items) : c = d := by
  cases c; cases d; cases h; rfl

instance [DecidableEq α] : DecidableEq (Catalog α) := fun c d =>
  decidable_of_iff (c.items = d.items) ⟨ext, fun h => h ▸ rfl⟩

/-- The catalog without items. -/
def empty : Catalog α := ⟨[], List.Pairwise.nil⟩

instance : EmptyCollection (Catalog α) := ⟨empty⟩

instance : Inhabited (Catalog α) := ⟨empty⟩

instance : Membership α (Catalog α) := ⟨fun c item => item ∈ c.items⟩

/-- The number of items. -/
def size (c : Catalog α) : Nat := c.items.length

/-- Whether there is no item. -/
def isEmpty (c : Catalog α) : Bool := c.items.isEmpty

/-- The keys, in increasing order. -/
def keys (c : Catalog α) : List String := c.items.map key

/-- The item filed under a key. -/
def get? (c : Catalog α) (k : String) : Option α := lookup c.items k

/-- Whether a key is taken. -/
def contains (c : Catalog α) (k : String) : Bool := (c.get? k).isSome

/-- Files an item under its key; the item that held the key gives way. -/
def insert (c : Catalog α) (item : α) : Catalog α :=
  ⟨place item c.items, increasing_place c.increasing⟩

/-- Files the items one after the other; of items with one key the last stays. -/
def ofList (items : List α) : Catalog α :=
  items.foldl insert empty

/-- Files an item under a key that is neither empty nor taken. -/
def insertNew? (c : Catalog α) (item : α) : Except KeyDefect (Catalog α) :=
  if key item = "" then .error .empty
  else if c.contains (key item) then .error (.repeated (key item))
  else .ok (c.insert item)

/-- Files a declared list whose keys must be distinct and not empty; the first item to break this
is reported. -/
def ofDistinct? (items : List α) : Except KeyDefect (Catalog α) :=
  items.foldlM insertNew? empty

/-- Files an item unless its key is taken; an empty key is refused. -/
def insertFirst? (c : Catalog α) (item : α) : Except KeyDefect (Catalog α) :=
  if key item = "" then .error .empty
  else if c.contains (key item) then .ok c
  else .ok (c.insert item)

/-- Files a declared sequence in which a key may recur; its first item stays. -/
def ofFirsts? (items : List α) : Except KeyDefect (Catalog α) :=
  items.foldlM insertFirst? empty

end Catalog

end ReleaseDiff

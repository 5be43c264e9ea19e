import ReleaseDiff.Catalog.Basic

set_option autoImplicit false

/-!
# What a catalog holds

Under a key `get?` finds the item of that key. Each operation that fills a catalog is told by what
`get?` finds afterwards.

## Main results

* `ReleaseDiff.Catalog.get?_eq_some_iff` — what `get?` finds is the item of the key.
* `ReleaseDiff.Catalog.get?_insert` — what `get?` finds after an item was filed.
* `ReleaseDiff.foldlM_keeps` — what every step of a fold keeps, the fold keeps.
* `ReleaseDiff.Catalog.mem_of_mem_ofDistinct?` — reading a declared list brings in nothing that was
  not declared.
-/

namespace ReleaseDiff

/-- **What every step of a fold keeps, the fold keeps**, if it comes to an end. -/
theorem foldlM_keeps {α β ε : Type} {step : β → α → Except ε β} (P : β → Prop) {items : List α}
    (hstep : ∀ b x c, x ∈ items → P b → step b x = .ok c → P c) {b c : β} (hb : P b)
    (h : items.foldlM step b = .ok c) : P c := by
  induction items generalizing b with
  | nil => cases h; exact hb
  | cons x rest ih =>
    rw [List.foldlM_cons] at h
    cases hx : step b x with
    | error e => rw [hx] at h; cases h
    | ok next =>
      rw [hx] at h
      exact ih (fun b y c hy => hstep b y c (List.mem_cons_of_mem _ hy))
        (hstep b x next (List.mem_cons_self ..) hb hx) h

section Lists

variable {α : Type} [Keyed α]

/-- What a look-up finds is an item of the key. -/
theorem mem_of_lookup {items : List α} {k : String} {x : α} (h : lookup items k = some x) :
    x ∈ items ∧ key x = k :=
  ⟨List.mem_of_find?_eq_some h, by simpa using List.find?_some h⟩

/-- In a list in key order every item is found under its key. -/
theorem lookup_of_mem {items : List α} (h : Increasing items) {x : α} (hx : x ∈ items) :
    lookup items (key x) = some x := by
  induction items with
  | nil => cases hx
  | cons y rest ih =>
    obtain ⟨hy, hrest⟩ := List.pairwise_cons.1 h
    rcases List.mem_cons.1 hx with rfl | hx
    · simp [lookup]
    · have hne : key y ≠ key x := fun e => String.lt_irrefl _ (e ▸ hy x hx)
      have hfind := ih hrest hx
      simp only [lookup] at hfind ⊢
      rw [List.find?_cons_of_neg (by simpa using hne)]
      exact hfind

/-- Under the key of an item just placed, a look-up finds that item. -/
theorem lookup_place_self (item : α) (items : List α) :
    lookup (place item items) (key item) = some item := by
  induction items with
  | nil => simp [place, lookup]
  | cons y rest ih =>
    unfold place
    split
    · simp [lookup]
    · split
      · rename_i hlt
        have hne : key y ≠ key item := fun e => String.lt_irrefl _ (e ▸ hlt)
        simp only [lookup] at ih ⊢
        rw [List.find?_cons_of_neg (by simpa using hne)]
        exact ih
      · simp [lookup]

/-- Under any other key, placing an item changes nothing. -/
theorem lookup_place_of_ne {item : α} {k : String} (hk : key item ≠ k) (items : List α) :
    lookup (place item items) k = lookup items k := by
  induction items with
  | nil => simp [place, lookup, hk]
  | cons y rest ih =>
    unfold place
    split
    · simp only [lookup]
      exact List.find?_cons_of_neg (by simpa using hk)
    · split
      · simp only [lookup] at ih ⊢
        simp only [List.find?_cons, ih]
      · rename_i h₁ h₂
        have hy : key y ≠ k := eq_of_not_lt h₁ h₂ ▸ hk
        simp only [lookup]
        rw [List.find?_cons_of_neg (by simpa using hk),
          List.find?_cons_of_neg (by simpa using hy)]

end Lists

namespace Catalog

variable {α : Type} [Keyed α]

/-! ## What is found -/

@[simp] theorem get?_empty (k : String) : (∅ : Catalog α).get? k = none := rfl

/-- **What `get?` finds is the item of the key.** -/
theorem get?_eq_some_iff {c : Catalog α} {k : String} {x : α} :
    c.get? k = some x ↔ x ∈ c.items ∧ key x = k :=
  ⟨mem_of_lookup, fun ⟨hx, hk⟩ => hk ▸ lookup_of_mem c.increasing hx⟩

/-- A key is taken just when an item has it. -/
theorem contains_iff {c : Catalog α} {k : String} :
    c.contains k = true ↔ ∃ x ∈ c.items, key x = k := by
  unfold contains
  rw [Option.isSome_iff_exists]
  exact exists_congr fun x => get?_eq_some_iff

/-- **What `get?` finds after an item was filed.** -/
theorem get?_insert (c : Catalog α) (item : α) (k : String) :
    (c.insert item).get? k = if key item = k then some item else c.get? k := by
  split
  · rename_i h
    subst h
    exact lookup_place_self item c.items
  · rename_i h
    exact lookup_place_of_ne h c.items

/-! ## What is brought in -/

/-- Filing an item brings in no item but that one. -/
theorem mem_of_mem_insert {c : Catalog α} {item x : α} (h : x ∈ (c.insert item).items) :
    x = item ∨ x ∈ c.items :=
  mem_of_mem_place h

/-- Filing a new item is filing the item. -/
theorem eq_insert_of_insertNew? {c d : Catalog α} {item : α} (hd : c.insertNew? item = .ok d) :
    d = c.insert item := by
  unfold insertNew? at hd
  split at hd
  · cases hd
  · split at hd
    · cases hd
    · cases hd
      rfl

/-- Filing a new item brings in no item but that one. -/
theorem mem_of_mem_insertNew? {c d : Catalog α} {item x : α} (hd : c.insertNew? item = .ok d)
    (h : x ∈ d.items) : x = item ∨ x ∈ c.items :=
  mem_of_mem_insert (eq_insert_of_insertNew? hd ▸ h)

/-- **Reading a declared list brings in nothing that was not declared.** -/
theorem mem_of_mem_ofDistinct? {items : List α} {c : Catalog α} {x : α}
    (hc : ofDistinct? items = .ok c) (h : x ∈ c.items) : x ∈ items := by
  refine foldlM_keeps (fun d => ∀ y ∈ d.items, y ∈ items) (fun b item d hitem hb hd y hy => ?_)
    (fun y hy => absurd hy List.not_mem_nil) hc x h
  rcases mem_of_mem_insertNew? hd hy with rfl | hy
  · exact hitem
  · exact hb y hy

end Catalog

end ReleaseDiff

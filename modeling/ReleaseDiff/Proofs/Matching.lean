import Mathlib.Data.List.Nodup
import Mathlib.Data.List.Forall2
import Mathlib.Data.List.Sort
import ReleaseDiff.Attributes
import ReleaseDiff.Catalog.Lemmas

set_option autoImplicit false

/-!
# Matching, key by key

Matching two catalogs visits every key that occurs in either of them exactly once. A comparison that
first treats what disappears, then what appears and then the pairs is therefore, up to order, a
comparison key by key, and a comparison key by key can be reasoned about with `get?` alone.

## Main definitions

* `ReleaseDiff.Catalog.pointwise` — a comparison of two catalogs key by key.
* `ReleaseDiff.Catalog.erase` — a catalog without the item of a key.
* `ReleaseDiff.Catalog.Loses` — some key of the first catalog is not in the second.
* `ReleaseDiff.Catalog.SomePair` — items under some key of both catalogs stand in a relation.
* `ReleaseDiff.Attributes.changedNames` — the names under which two attribute maps disagree.

## Main results

* `ReleaseDiff.eq_of_mem_iff` — lists in key order with the same items are equal.
* `ReleaseDiff.Catalog.ext_get?` — catalogs in which `get?` finds the same are equal.
* `ReleaseDiff.Catalog.matchWith_perm_pointwise` — treating the three parts of a matching one after
  the other is comparing key by key.
* `ReleaseDiff.Catalog.forall₂_items_iff` — two catalogs hold related items in the same places just
  when they hold related items under every key.
* `ReleaseDiff.Catalog.exists_key_iff` — what happens under some key, told by lost keys, gained keys
  and pairs.
* `ReleaseDiff.Attributes.changedNames_eq_nil_iff` — attribute maps without a disagreement are
  equal.
-/

namespace ReleaseDiff

/-- Of two lists that agree up to order, both or neither are empty. -/
theorem eq_nil_iff_of_perm {α : Type} {as bs : List α} (h : as.Perm bs) : as = [] ↔ bs = [] := by
  rw [← List.perm_nil, h.congr_left, List.perm_nil]

/-- Lists hold items with the same image in the same places just when their images are equal. -/
theorem forall₂_iff_map_eq {α β : Type} {f : α → β} {as bs : List α} :
    List.Forall₂ (fun x y => f x = f y) as bs ↔ as.map f = bs.map f := by
  rw [← List.forall₂_eq_eq_eq, List.forall₂_map_left_iff, List.forall₂_map_right_iff]

/-- The first item of a list makes a pair if the other list has its key. -/
theorem sharedPairs_cons {α : Type} [Keyed α] (x : α) (rest others : List α) :
    sharedPairs (x :: rest) others =
      ((lookup others (key x)).map fun y => (x, y)).toList ++ sharedPairs rest others := by
  rw [sharedPairs, List.filterMap_cons]
  cases lookup others (key x) <;> rfl

/-! ## The key order -/

section KeyOrder

variable {α : Type} [Keyed α]

/-- No item is before itself. -/
instance : Std.Irrefl fun x y : α => key x < key y :=
  ⟨fun _ => String.lt_irrefl _⟩

/-- No two items are before each other. -/
instance : Std.Antisymm fun x y : α => key x < key y :=
  ⟨fun _ _ hxy hyx => absurd hyx (String.lt_asymm hxy)⟩

/-- **Lists in key order with the same items are equal.** -/
theorem eq_of_mem_iff {as bs : List α} (ha : Increasing as) (hb : Increasing bs)
    (h : ∀ x, x ∈ as ↔ x ∈ bs) : as = bs :=
  List.Pairwise.eq_of_mem_iff ha hb h

end KeyOrder

namespace Catalog

variable {α β : Type} [Keyed α]

/-! ## Keys -/

/-- **Catalogs in which `get?` finds the same are equal.** -/
theorem ext_get? {c d : Catalog α} (h : ∀ k, c.get? k = d.get? k) : c = d :=
  ext <| eq_of_mem_iff c.increasing d.increasing fun x =>
    ⟨fun hx => (get?_eq_some_iff.1 (h (key x) ▸ get?_eq_some_iff.2 ⟨hx, rfl⟩)).1,
      fun hx => (get?_eq_some_iff.1 ((h (key x)).symm ▸ get?_eq_some_iff.2 ⟨hx, rfl⟩)).1⟩

/-- A key is among the keys of a catalog just when something is found under it. -/
theorem mem_keys_iff {c : Catalog α} {k : String} : k ∈ c.keys ↔ c.contains k = true := by
  rw [contains_iff, keys, List.mem_map]

/-- A key is not taken just when nothing is found under it. -/
theorem contains_eq_false_iff {c : Catalog α} {k : String} :
    c.contains k = false ↔ c.get? k = none := by
  unfold contains
  cases c.get? k <;> simp

/-- Items found under one key have the same key. -/
theorem key_eq_of_get? {c d : Catalog α} {k : String} {x y : α} (hx : c.get? k = some x)
    (hy : d.get? k = some y) : key x = key y :=
  (get?_eq_some_iff.1 hx).2.trans (get?_eq_some_iff.1 hy).2.symm

/-- The keys of a catalog are distinct. -/
theorem nodup_keys (c : Catalog α) : c.keys.Nodup := by
  refine List.pairwise_map.2 (c.increasing.imp ?_)
  intro a b hab heq
  exact String.lt_irrefl _ (heq ▸ hab)

/-- A text is its own key, so a catalog of texts holds its keys. -/
theorem keys_eq_items (c : Catalog String) : c.keys = c.items :=
  List.map_id c.items

/-- Filing items one after the other takes the keys of those items and gives none up. -/
theorem contains_foldl_insert (items : List α) (c : Catalog α) (k : String) :
    (items.foldl insert c).contains k = true ↔ c.contains k = true ∨ ∃ x ∈ items, key x = k := by
  induction items generalizing c with
  | nil => simp
  | cons x rest ih =>
    have hinsert : (c.insert x).contains k = true ↔ c.contains k = true ∨ key x = k := by
      unfold contains
      rw [get?_insert]
      by_cases hx : key x = k <;> simp [hx]
    rw [List.foldl_cons, ih, hinsert]
    simp only [List.mem_cons, exists_eq_or_imp]
    tauto

/-- **The keys of two catalogs together** are the keys that are taken in either. -/
theorem mem_keysOfBoth_iff {c d : Catalog α} {k : String} :
    k ∈ keysOfBoth c d ↔ c.contains k = true ∨ d.contains k = true := by
  rw [keysOfBoth, ← keys_eq_items, mem_keys_iff, ofList, contains_foldl_insert]
  have hempty : (empty : Catalog String).contains k = false := rfl
  simp only [hempty, Bool.false_eq_true, false_or, key_string, exists_eq_right, List.mem_append,
    mem_keys_iff]

/-- Every key of two catalogs occurs once among their keys together. -/
theorem nodup_keysOfBoth (c d : Catalog α) : (keysOfBoth c d).Nodup := by
  have h := nodup_keys (ofList (c.keys ++ d.keys) : Catalog String)
  rwa [keys_eq_items] at h

/-- The keys of two catalogs together do not depend on which comes first. -/
theorem keysOfBoth_comm (c d : Catalog α) : keysOfBoth c d = keysOfBoth d c := by
  refine eq_of_mem_iff (Catalog.increasing _) (Catalog.increasing _) fun k => ?_
  rw [mem_keysOfBoth_iff, mem_keysOfBoth_iff, or_comm]

/-! ## Comparisons key by key -/

/-- **A comparison key by key**: for every key that occurs in either catalog, what `f` makes of the
items found under it. -/
def pointwise (c d : Catalog α) (f : String → Option α → Option α → List β) : List β :=
  (keysOfBoth c d).flatMap fun k => f k (c.get? k) (d.get? k)

section Pointwise

variable {c d : Catalog α} {f : String → Option α → Option α → List β}

/-- Where an absent item under both sides gives nothing, a comparison key by key gives what is given
under some key. -/
theorem mem_pointwise_iff (hf : ∀ k, f k none none = []) {b : β} :
    b ∈ pointwise c d f ↔ ∃ k, b ∈ f k (c.get? k) (d.get? k) := by
  rw [pointwise, List.mem_flatMap]
  refine ⟨fun ⟨k, _, hb⟩ => ⟨k, hb⟩, fun ⟨k, hb⟩ => ⟨k, ?_, hb⟩⟩
  rw [mem_keysOfBoth_iff]
  by_contra hk
  rw [not_or, Bool.not_eq_true, Bool.not_eq_true, contains_eq_false_iff,
    contains_eq_false_iff] at hk
  rw [hk.1, hk.2, hf k] at hb
  exact List.not_mem_nil hb

/-- Such a comparison finds nothing just when it finds nothing under any key. -/
theorem pointwise_eq_nil_iff (hf : ∀ k, f k none none = []) :
    pointwise c d f = [] ↔ ∀ k, f k (c.get? k) (d.get? k) = [] := by
  simp only [List.eq_nil_iff_forall_not_mem, mem_pointwise_iff hf, not_exists]
  exact forall_comm

end Pointwise

/-! ## The three parts of a matching -/

/-- What is missing from the other catalog is found on one side only. -/
theorem mem_missingFrom_iff {c d : Catalog α} {x : α} :
    x ∈ missingFrom c.items d.items ↔ c.get? (key x) = some x ∧ d.get? (key x) = none := by
  rw [missingFrom, List.mem_filter, Option.isNone_iff_eq_none, get?_eq_some_iff]
  simp [get?]

/-- The pairs of a matching are the items found under one key. -/
theorem mem_sharedPairs_iff {c d : Catalog α} {p : α × α} :
    p ∈ sharedPairs c.items d.items ↔
      c.get? (key p.1) = some p.1 ∧ d.get? (key p.1) = some p.2 := by
  simp only [sharedPairs, List.mem_filterMap, Option.map_eq_some_iff, get?_eq_some_iff, and_true]
  constructor
  · rintro ⟨x, hx, y, hy, rfl⟩
    exact ⟨hx, mem_of_lookup hy⟩
  · rintro ⟨hx, hy⟩
    exact ⟨p.1, hx, p.2, get?_eq_some_iff.2 hy, rfl⟩

/-- The keys in the three parts of a matching, one part after the other. -/
def matchedKeys (c d : Catalog α) : List String :=
  (missingFrom c.items d.items).map key ++ (missingFrom d.items c.items).map key
    ++ (sharedPairs c.items d.items).map fun p => key p.1

/-- The keys of the pairs are keys of the first catalog, in its order. -/
theorem sharedPairs_keys_sublist (items others : List α) :
    ((sharedPairs items others).map fun p => key p.1).Sublist (items.map key) := by
  induction items with
  | nil => exact List.Sublist.slnil
  | cons x rest ih =>
    rw [List.map_cons, sharedPairs_cons]
    cases lookup others (key x) with
    | none => exact ih.cons (key x)
    | some y => exact ih.cons_cons (key x)

/-- No key is in two parts of a matching, and none is in one part twice.

**Proof sketch.** Each part takes its keys from one catalog, whose keys are distinct. A key of the
first part is in the first catalog only, one of the second part in the second only, one of the third
part in both. -/
theorem nodup_matchedKeys (c d : Catalog α) : (matchedKeys c d).Nodup := by
  have hsub : ∀ c d : Catalog α, ((missingFrom c.items d.items).map key).Nodup := fun c d =>
    (nodup_keys c).sublist (List.filter_sublist.map key)
  refine List.nodup_append.2 ⟨List.nodup_append.2 ⟨hsub c d, hsub d c, ?_⟩,
    (nodup_keys c).sublist (sharedPairs_keys_sublist _ _), ?_⟩
  · rintro k hk _ hk' rfl
    obtain ⟨x, hx, rfl⟩ := List.mem_map.1 hk
    obtain ⟨y, hy, hyx⟩ := List.mem_map.1 hk'
    have hnone := (mem_missingFrom_iff.1 hx).2
    rw [← hyx, (mem_missingFrom_iff.1 hy).1] at hnone
    cases hnone
  · rintro k hk _ hk' rfl
    obtain ⟨p, hp, rfl⟩ := List.mem_map.1 hk'
    obtain ⟨hc, hd⟩ := mem_sharedPairs_iff.1 hp
    -- A key of a pair is taken in both catalogs, one of the other parts is free in one of them.
    rcases List.mem_append.1 hk with hk | hk <;> obtain ⟨x, hx, hxp⟩ := List.mem_map.1 hk
    · have hnone := (mem_missingFrom_iff.1 hx).2
      rw [hxp, hd] at hnone
      cases hnone
    · have hnone := (mem_missingFrom_iff.1 hx).2
      rw [hxp, hc] at hnone
      cases hnone

/-- A key is in some part of a matching just when it is in one of the catalogs. -/
theorem mem_matchedKeys_iff {c d : Catalog α} {k : String} :
    k ∈ matchedKeys c d ↔ c.contains k = true ∨ d.contains k = true := by
  simp only [matchedKeys, List.mem_append, List.mem_map, mem_missingFrom_iff, mem_sharedPairs_iff,
    Prod.exists]
  constructor
  · rintro ((⟨x, ⟨hx, -⟩, rfl⟩ | ⟨y, ⟨hy, -⟩, rfl⟩) | ⟨x, y, ⟨hx, -⟩, rfl⟩)
    · exact Or.inl (by simp [contains, hx])
    · exact Or.inr (by simp [contains, hy])
    · exact Or.inl (by simp [contains, hx])
  · intro h
    cases hc : c.get? k with
    | none =>
      cases hd : d.get? k with
      | none => simp [contains, hc, hd] at h
      | some y =>
        obtain rfl := (get?_eq_some_iff.1 hd).2
        exact Or.inl (Or.inr ⟨y, ⟨hd, hc⟩, rfl⟩)
    | some x =>
      obtain rfl := (get?_eq_some_iff.1 hc).2
      cases hd : d.get? (key x) with
      | none => exact Or.inl (Or.inl ⟨x, ⟨hc, hd⟩, rfl⟩)
      | some y => exact Or.inr ⟨x, y, ⟨hc, hd⟩, rfl⟩

/-- **Treating the three parts of a matching one after the other is comparing key by key**, up to
the order of what is found.

**Proof sketch.** Whatever part an item is in, its treatment is that of its key. The keys of the
parts and the keys of both catalogs are the same, each once, so the one list is a permutation of the
other. -/
theorem matchWith_perm_pointwise (c d : Catalog α)
    (f : String → Option α → Option α → List β) :
    ((c.matchWith d).removed.flatMap (fun x => f (key x) (some x) none)
      ++ (c.matchWith d).added.flatMap (fun y => f (key y) none (some y))
      ++ (c.matchWith d).pairs.flatMap fun p => f (key p.1) (some p.1) (some p.2)).Perm
    (pointwise c d f) := by
  set g := fun k => f k (c.get? k) (d.get? k) with hg
  have hremoved : (c.matchWith d).removed.flatMap (fun x => f (key x) (some x) none) =
      ((missingFrom c.items d.items).map key).flatMap g := by
    rw [List.flatMap_map]
    refine List.flatMap_congr fun x hx => ?_
    obtain ⟨hc, hd⟩ := mem_missingFrom_iff.1 hx
    simp only [hg, hc, hd]
  have hadded : (c.matchWith d).added.flatMap (fun y => f (key y) none (some y)) =
      ((missingFrom d.items c.items).map key).flatMap g := by
    rw [List.flatMap_map]
    refine List.flatMap_congr fun y hy => ?_
    obtain ⟨hd, hc⟩ := mem_missingFrom_iff.1 hy
    simp only [hg, hc, hd]
  have hpairs : (c.matchWith d).pairs.flatMap (fun p => f (key p.1) (some p.1) (some p.2)) =
      ((sharedPairs c.items d.items).map fun p => key p.1).flatMap g := by
    rw [List.flatMap_map]
    refine List.flatMap_congr fun p hp => ?_
    obtain ⟨hc, hd⟩ := mem_sharedPairs_iff.1 hp
    simp only [hg, hc, hd]
  rw [hremoved, hadded, hpairs, ← List.flatMap_append, ← List.flatMap_append]
  refine List.Perm.flatMap_right g ((List.perm_ext_iff_of_nodup (nodup_matchedKeys c d)
    (nodup_keysOfBoth c d)).2 fun k => ?_)
  rw [mem_matchedKeys_iff, mem_keysOfBoth_iff]

/-! ## Removing an item -/

/-- A catalog without the item of a key. -/
def erase (c : Catalog α) (k : String) : Catalog α where
  items := c.items.filter fun x => key x ≠ k
  increasing := c.increasing.sublist List.filter_sublist

/-- An item that is removed is not found; any other item is found as before. -/
theorem get?_erase (c : Catalog α) (k i : String) :
    (c.erase k).get? i = if i = k then none else c.get? i := by
  refine Option.ext fun x => ?_
  rw [get?_eq_some_iff, erase, List.mem_filter, decide_eq_true_eq]
  split
  · rename_i hi
    subst hi
    exact ⟨fun h => absurd h.2 h.1.2, fun h => by cases h⟩
  · rename_i hi
    rw [get?_eq_some_iff]
    exact ⟨fun h => ⟨h.1.1, h.2⟩, fun h => ⟨⟨h.1, fun hk => hi (h.2.symm.trans hk)⟩, h.2⟩⟩

/-! ## Catalogs with related items -/

/-- A look-up in a list looks at its first item first. -/
theorem lookup_cons (x : α) (rest : List α) (k : String) :
    lookup (x :: rest) k = if key x = k then some x else lookup rest k := by
  by_cases h : key x = k <;> simp [lookup, h]

/-- A key before all keys of a list is not found in it. -/
theorem lookup_eq_none_of_forall_lt {items : List α} {k : String} (h : ∀ x ∈ items, k < key x) :
    lookup items k = none := by
  refine List.find?_eq_none.2 fun x hx => ?_
  have hne : key x ≠ k := fun e => String.lt_irrefl _ (e ▸ h x hx)
  simpa using hne

section Related

variable {R : α → α → Prop}

/-- In lists with related items in the same places, related items are found under every key. -/
theorem rel_lookup_of_forall₂ (hR : ∀ x y, R x y → key x = key y) {as bs : List α}
    (h : List.Forall₂ R as bs) (k : String) : Option.Rel R (lookup as k) (lookup bs k) := by
  induction h with
  | nil => exact Option.Rel.none
  | cons hab _ ih =>
    rw [lookup_cons, lookup_cons, hR _ _ hab]
    split
    · exact Option.Rel.some hab
    · exact ih

/-- Lists in key order in which related items are found under every key hold related items in the
same places.

**Proof sketch.** Induction on the first list. Its first key is found in the second list and the
other way round, so neither first key is before the other: the first items have one key and are
related. Under any later key the first items play no part, and under that key neither rest finds
anything. -/
theorem forall₂_of_rel_lookup {as bs : List α}
    (ha : Increasing as) (hb : Increasing bs)
    (h : ∀ k, Option.Rel R (lookup as k) (lookup bs k)) : List.Forall₂ R as bs := by
  induction as generalizing bs with
  | nil =>
    cases bs with
    | nil => exact List.Forall₂.nil
    | cons b bs =>
      have hk := h (key b)
      rw [lookup_cons, if_pos rfl] at hk
      cases hk
  | cons a as ih =>
    cases bs with
    | nil =>
      have hk := h (key a)
      rw [lookup_cons, if_pos rfl] at hk
      cases hk
    | cons b bs =>
      obtain ⟨ha₁, ha₂⟩ := List.pairwise_cons.1 ha
      obtain ⟨hb₁, hb₂⟩ := List.pairwise_cons.1 hb
      have hab : key a = key b := by
        refine eq_of_not_lt (fun hlt => ?_) fun hlt => ?_
        · have hk := h (key a)
          rw [lookup_cons, if_pos rfl, lookup_eq_none_of_forall_lt fun x hx => ?_] at hk
          · cases hk
          · rcases List.mem_cons.1 hx with rfl | hx
            · exact hlt
            · exact String.lt_trans hlt (hb₁ x hx)
        · have hk := h (key b)
          rw [lookup_cons b, if_pos rfl, lookup_eq_none_of_forall_lt fun x hx => ?_] at hk
          · cases hk
          · rcases List.mem_cons.1 hx with rfl | hx
            · exact hlt
            · exact String.lt_trans hlt (ha₁ x hx)
      -- The first items are found under their common key, the rests under every other key.
      refine List.Forall₂.cons ?_ (ih ha₂ hb₂ fun k => ?_)
      · have hk := h (key a)
        rw [lookup_cons, if_pos rfl, lookup_cons, if_pos hab.symm] at hk
        cases hk
        assumption
      · by_cases hk : key a = k
        · subst hk
          rw [lookup_eq_none_of_forall_lt ha₁, lookup_eq_none_of_forall_lt (hab ▸ hb₁)]
          exact Option.Rel.none
        · have hrel := h k
          rwa [lookup_cons, if_neg hk, lookup_cons, if_neg (hab ▸ hk)] at hrel

/-- **Two catalogs hold related items in the same places just when they hold related items under
every key**, for a relation between items of one key. -/
theorem forall₂_items_iff (hR : ∀ x y, R x y → key x = key y) {c d : Catalog α} :
    List.Forall₂ R c.items d.items ↔ ∀ k, Option.Rel R (c.get? k) (d.get? k) :=
  ⟨fun h => rel_lookup_of_forall₂ hR h,
    fun h => forall₂_of_rel_lookup c.increasing d.increasing h⟩

end Related

/-! ## Lost keys and altered items -/

/-- **Some key of the first catalog is not in the second.** -/
def Loses (c d : Catalog α) : Prop :=
  ∃ k, c.contains k = true ∧ d.contains k = false

/-- No key is lost from nothing. -/
theorem not_loses_empty (c : Catalog α) :
    ¬(∅ : Catalog α).Loses c := by
  rintro ⟨i, hi, -⟩
  rw [contains, get?_empty] at hi
  cases hi

/-- **Under some key, both catalogs hold items that stand in a relation.** -/
def SomePair (R : α → α → Prop) (c d : Catalog α) : Prop :=
  ∃ k x y, c.get? k = some x ∧ d.get? k = some y ∧ R x y

/-- No pair stands in the relation that never holds. -/
@[simp] theorem not_somePair_false {c d : Catalog α} : ¬SomePair (fun _ _ => False) c d := by
  rintro ⟨_, _, _, _, _, h⟩
  exact h

/-- A condition that does not depend on the pair can be taken out. -/
@[simp] theorem somePair_and_left {p : Prop} {R : α → α → Prop} {c d : Catalog α} :
    SomePair (fun x y => p ∧ R x y) c d ↔ p ∧ SomePair R c d := by
  constructor
  · rintro ⟨k, x, y, hx, hy, hp, hR⟩
    exact ⟨hp, k, x, y, hx, hy, hR⟩
  · rintro ⟨hp, k, x, y, hx, hy, hR⟩
    exact ⟨k, x, y, hx, hy, hp, hR⟩

/-- Where what happens under a key depends on the presence of the key alone, and on both items where
both catalogs have it, it happens under some key just when a key is lost or gained or some pair
gives cause for it. -/
theorem exists_key_iff {c d : Catalog α}
    {P : String → Option α → Option α → Prop} {A B : Prop} {R : α → α → Prop}
    (hnone : ∀ i, ¬P i none none) (hlost : ∀ i x, P i (some x) none ↔ A)
    (hgained : ∀ i y, P i none (some y) ↔ B)
    (hboth : ∀ i x y, c.get? i = some x → d.get? i = some y → (P i (some x) (some y) ↔ R x y)) :
    (∃ i, P i (c.get? i) (d.get? i)) ↔ (A ∧ c.Loses d) ∨ (B ∧ d.Loses c) ∨ SomePair R c d := by
  constructor
  · rintro ⟨i, hi⟩
    cases hc : c.get? i with
    | none =>
      cases hd : d.get? i with
      | none =>
        rw [hc, hd] at hi
        exact absurd hi (hnone i)
      | some y =>
        rw [hc, hd, hgained] at hi
        exact Or.inr (Or.inl ⟨hi, i, by rw [contains, hd]; rfl, contains_eq_false_iff.2 hc⟩)
    | some x =>
      cases hd : d.get? i with
      | none =>
        rw [hc, hd, hlost] at hi
        exact Or.inl ⟨hi, i, by rw [contains, hc]; rfl, contains_eq_false_iff.2 hd⟩
      | some y =>
        rw [hc, hd, hboth i x y hc hd] at hi
        exact Or.inr (Or.inr ⟨i, x, y, hc, hd, hi⟩)
  · rintro (⟨hA, i, hc, hd⟩ | ⟨hB, i, hd, hc⟩ | ⟨i, x, y, hc, hd, hR⟩)
    · obtain ⟨x, hx⟩ := Option.isSome_iff_exists.1 hc
      refine ⟨i, ?_⟩
      rw [hx, contains_eq_false_iff.1 hd, hlost]
      exact hA
    · obtain ⟨y, hy⟩ := Option.isSome_iff_exists.1 hd
      refine ⟨i, ?_⟩
      rw [hy, contains_eq_false_iff.1 hc, hgained]
      exact hB
    · refine ⟨i, ?_⟩
      rw [hc, hd, hboth i x y hc hd]
      exact hR

end Catalog

namespace Attributes

/-! ## Attributes that differ -/

/-- **The names under which two attribute maps disagree**, in order. -/
def changedNames (before after : Attributes) : List String :=
  (Catalog.keysOfBoth before after).filter fun name => before.value? name ≠ after.value? name

variable {before after : Attributes}

/-- Attribute maps with the same values are equal. -/
theorem ext_value? (h : ∀ name, before.value? name = after.value? name) : before = after := by
  refine Catalog.ext_get? fun name => ?_
  have hname := h name
  unfold value? at hname
  cases hb : before.get? name with
  | none =>
    rw [hb, Option.map_none] at hname
    exact (Option.map_eq_none_iff.1 hname.symm).symm
  | some a =>
    rw [hb, Option.map_some] at hname
    obtain ⟨b, hb', hvalue⟩ := Option.map_eq_some_iff.1 hname.symm
    obtain ⟨-, ha⟩ := Catalog.get?_eq_some_iff.1 hb
    obtain ⟨-, hb''⟩ := Catalog.get?_eq_some_iff.1 hb'
    rw [hb']
    cases a
    cases b
    simp_all [key]

/-- A name is among the changed ones just when its values differ. -/
theorem mem_changedNames_iff {name : String} :
    name ∈ changedNames before after ↔ before.value? name ≠ after.value? name := by
  simp only [changedNames, List.mem_filter, decide_eq_true_eq, Catalog.mem_keysOfBoth_iff,
    and_iff_right_iff_imp]
  intro hne
  by_contra hnone
  rw [not_or, Bool.not_eq_true, Bool.not_eq_true, Catalog.contains_eq_false_iff,
    Catalog.contains_eq_false_iff] at hnone
  exact hne (by simp [value?, hnone])

/-- **The disagreements of two attribute maps** are those under the changed names. -/
theorem valueChanges_eq_map (before after : Attributes) :
    valueChanges before after = (changedNames before after).map fun name =>
      ⟨name, before.value? name, after.value? name⟩ := by
  unfold valueChanges changedNames
  induction Catalog.keysOfBoth before after with
  | nil => rfl
  | cons name rest ih =>
    by_cases h : before.value? name = after.value? name
    · simp [h, ih]
    · simp [h, ih]

/-- The changed names do not depend on which map comes first. -/
theorem changedNames_comm (before after : Attributes) :
    changedNames before after = changedNames after before := by
  unfold changedNames
  rw [Catalog.keysOfBoth_comm]
  simp only [ne_comm]

/-- **Attribute maps without a disagreement are equal.** -/
theorem changedNames_eq_nil_iff : changedNames before after = [] ↔ before = after := by
  rw [List.eq_nil_iff_forall_not_mem]
  simp only [mem_changedNames_iff, not_not]
  exact ⟨ext_value?, fun h _ => h ▸ rfl⟩

end Attributes

end ReleaseDiff

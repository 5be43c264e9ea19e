import ReleaseDiff.Proofs.Agreement
import ReleaseDiff.Proofs.Matching

set_option autoImplicit false

/-!
# Declared lists in any order

A declared list is filed into a catalog item by item. Whether every item finds its place does not
depend on the order of the list, and neither does the catalog that comes out.

## Main results

* `ReleaseDiff.Catalog.foldlM_eq_ok_iff` — filing a list succeeds just when every item fits and no
  key recurs, and then the catalog is that of the list.
* `ReleaseDiff.Catalog.agree_foldlM` — filing reordered lists agrees.
* `ReleaseDiff.Catalog.ofDistinct?_eq_ok_iff`, `ReleaseDiff.Catalog.ofDistinct?_eq_error_iff` — when
  reading a list whose keys must be distinct succeeds, and which item it stops at otherwise.
* `ReleaseDiff.Catalog.foldlM_insertFirst?` — filing a list in which keys may recur fails just when
  a key is empty, and otherwise takes the keys of the list.
* `ReleaseDiff.Catalog.agree_ofFirsts?` — so such filings agree on lists of the same keys.
-/

namespace ReleaseDiff

/-! ## Keys that must be distinct -/

namespace Catalog

variable {α ε : Type} [Keyed α]

/-- A key is free after an item was filed if it was free before and is not the key of the item. -/
theorem contains_insert_eq_false_iff {c : Catalog α} {x : α} {i : String} :
    (c.insert x).contains i = false ↔ key x ≠ i ∧ c.contains i = false := by
  rw [contains_eq_false_iff, contains_eq_false_iff, get?_insert]
  by_cases hx : key x = i <;> simp [hx]

/-- Items of different keys can be filed in either order. -/
theorem insert_comm {x y : α} (h : key x ≠ key y) (c : Catalog α) :
    (c.insert x).insert y = (c.insert y).insert x := by
  refine ext_get? fun i => ?_
  simp only [get?_insert]
  split
  · rename_i hy
    rw [if_neg fun hx => h (hx.trans hy.symm)]
  · rfl

/-- Of two items of one key the later one stays. -/
theorem insert_insert {x y : α} (h : key x = key y) (c : Catalog α) :
    (c.insert x).insert y = c.insert y := by
  refine ext_get? fun i => ?_
  simp only [get?_insert, h]
  split
  · rfl
  · rfl

section Steps

variable {step : Catalog α → α → Except ε (Catalog α)} {fits : α → Prop}
  (hstep : ∀ c x d, step c x = .ok d ↔ fits x ∧ c.contains (key x) = false ∧ d = c.insert x)

include hstep

/-- **Filing a list succeeds just when every item fits and no key recurs**, and then the items are
filed one after the other. -/
theorem foldlM_eq_ok_iff {items : List α} {b c : Catalog α} :
    items.foldlM step b = .ok c ↔
      (∀ x ∈ items, fits x) ∧ (∀ x ∈ items, b.contains (key x) = false) ∧
        (items.map key).Nodup ∧ c = items.foldl insert b := by
  induction items generalizing b with
  | nil =>
    constructor
    · intro h
      cases h
      exact ⟨List.forall_mem_nil _, List.forall_mem_nil _, List.nodup_nil, rfl⟩
    · rintro ⟨-, -, -, rfl⟩
      rfl
  | cons x rest ih =>
    have hbind : (x :: rest).foldlM step b = .ok c ↔
        ∃ d, step b x = .ok d ∧ rest.foldlM step d = .ok c := by
      rw [List.foldlM_cons]
      cases step b x with
      | error m => simp [bind, Except.bind]
      | ok d => simp [bind, Except.bind]
    simp only [hbind, hstep, ih, List.forall_mem_cons, List.map_cons, List.nodup_cons,
      List.foldl_cons]
    constructor
    · rintro ⟨d, ⟨hx, hfree, rfl⟩, hrest, hfrees, hnodup, hc⟩
      simp only [contains_insert_eq_false_iff] at hfrees
      refine ⟨⟨hx, hrest⟩, ⟨hfree, fun y hy => (hfrees y hy).2⟩, ⟨fun hmem => ?_, hnodup⟩, hc⟩
      obtain ⟨y, hy, hkey⟩ := List.mem_map.1 hmem
      exact (hfrees y hy).1 hkey.symm
    · rintro ⟨⟨hx, hrest⟩, ⟨hfree, hfrees⟩, ⟨hnew, hnodup⟩, hc⟩
      refine ⟨b.insert x, ⟨hx, hfree, rfl⟩, hrest, fun y hy => ?_, hnodup, hc⟩
      refine contains_insert_eq_false_iff.2 ⟨fun hkey => hnew ?_, hfrees y hy⟩
      exact List.mem_map.2 ⟨y, hy, hkey.symm⟩

/-- Filing a list succeeds just when every item fits and no key recurs. -/
theorem isOk_foldlM_iff {items : List α} {b : Catalog α} :
    (items.foldlM step b).isOk = true ↔
      (∀ x ∈ items, fits x) ∧ (∀ x ∈ items, b.contains (key x) = false) ∧
        (items.map key).Nodup := by
  constructor
  · intro h
    cases hc : items.foldlM step b with
    | error m => rw [hc] at h; cases h
    | ok c =>
      obtain ⟨hfits, hfree, hnodup, -⟩ := (foldlM_eq_ok_iff hstep).1 hc
      exact ⟨hfits, hfree, hnodup⟩
  · rintro ⟨hfits, hfree, hnodup⟩
    rw [(foldlM_eq_ok_iff hstep).2 ⟨hfits, hfree, hnodup, rfl⟩]
    rfl

end Steps

/-- In a list without a recurring key every item is found under its key. -/
theorem lookup_of_mem_of_nodup {items : List α} (h : (items.map key).Nodup) {x : α}
    (hx : x ∈ items) : lookup items (key x) = some x := by
  induction items with
  | nil => cases hx
  | cons y rest ih =>
    rw [List.map_cons, List.nodup_cons] at h
    rw [lookup_cons]
    rcases List.mem_cons.1 hx with rfl | hx
    · exact if_pos rfl
    · have hne : key y ≠ key x := fun heq => h.1 (heq ▸ List.mem_map_of_mem hx)
      rw [if_neg hne]
      exact ih h.2 hx

/-- What is found in a catalog of distinct keys is what is found in the list. -/
theorem get?_foldl_insert {items : List α} (h : (items.map key).Nodup) (b : Catalog α)
    (i : String) : (items.foldl insert b).get? i = (lookup items i).or (b.get? i) := by
  induction items generalizing b with
  | nil => rfl
  | cons x rest ih =>
    rw [List.map_cons, List.nodup_cons] at h
    rw [List.foldl_cons, ih h.2, lookup_cons, get?_insert]
    split
    · rename_i hx
      have hnone : lookup rest i = none := by
        cases hfound : lookup rest i with
        | none => rfl
        | some y =>
          obtain ⟨hy, hkey⟩ := mem_of_lookup hfound
          exact absurd (List.mem_map.2 ⟨y, hy, hkey.trans hx.symm⟩) h.1
      rw [hnone]
      rfl
    · rfl

/-- A catalog of items of distinct keys finds what the list of them finds. -/
theorem get?_ofList_eq_lookup {items : List α} (h : (items.map key).Nodup) (i : String) :
    (ofList items).get? i = lookup items i := by
  rw [ofList, get?_foldl_insert h, show (empty : Catalog α).get? i = none from rfl, Option.or_none]

/-- Items of distinct keys are all filed, each under its key. -/
theorem get?_ofList {items : List α} (h : (items.map key).Nodup) {x : α} (hx : x ∈ items) :
    (ofList items).get? (key x) = some x := by
  rw [get?_ofList_eq_lookup h, lookup_of_mem_of_nodup h hx]

/-- **A catalog of items of distinct keys holds exactly those items.** -/
theorem items_ofList_perm {items : List α} (h : (items.map key).Nodup) :
    (ofList items).items.Perm items := by
  refine (List.perm_ext_iff_of_nodup (ofList items).nodup_keys.of_map h.of_map).2 fun x => ?_
  constructor
  · intro hx
    have hfound := get?_eq_some_iff.2 ⟨hx, rfl⟩
    rw [get?_ofList_eq_lookup h] at hfound
    exact (mem_of_lookup hfound).1
  · intro hx
    exact (get?_eq_some_iff.1 (get?_ofList h hx)).1

section Related

variable {R : α → α → Prop} (hR : ∀ x y, R x y → key x = key y) {xs ys : List α}

include hR

/-- In reordered lists without a recurring key, related items are found under every key. -/
theorem rel_lookup_of_reordered (hx : (xs.map key).Nodup) (hy : (ys.map key).Nodup)
    (h : Reordered R xs ys) (i : String) : Option.Rel R (lookup xs i) (lookup ys i) := by
  cases hfound : lookup xs i with
  | none =>
    cases hfound' : lookup ys i with
    | none => exact Option.Rel.none
    | some y =>
      obtain ⟨hmem, rfl⟩ := mem_of_lookup hfound'
      obtain ⟨x, hxmem, hxy⟩ := h.exists_left hmem
      rw [← hR x y hxy, lookup_of_mem_of_nodup hx hxmem] at hfound
      cases hfound
  | some x =>
    obtain ⟨hmem, rfl⟩ := mem_of_lookup hfound
    obtain ⟨y, hymem, hxy⟩ := h.exists_right hmem
    rw [hR x y hxy, lookup_of_mem_of_nodup hy hymem]
    exact Option.Rel.some hxy

/-- A key is free in a catalog just when it is in a catalog of related items. -/
theorem contains_congr {b b' : Catalog α} (hb : List.Forall₂ R b.items b'.items) (i : String) :
    b.contains i = b'.contains i := by
  have hrel := (forall₂_items_iff hR).1 hb i
  unfold contains
  generalize b.get? i = found, b'.get? i = found' at hrel ⊢
  cases hrel with
  | none => rfl
  | some _ => rfl

/-- **Filing reordered lists agrees**: either some item of each list does not fit, or both catalogs
hold related items in the same places. -/
theorem agree_foldlM {step : Catalog α → α → Except ε (Catalog α)} (fits : α → Prop)
    (hstep : ∀ c x d, step c x = .ok d ↔ fits x ∧ c.contains (key x) = false ∧ d = c.insert x)
    (hfits : ∀ x y, R x y → (fits x ↔ fits y)) {b b' : Catalog α}
    (hb : List.Forall₂ R b.items b'.items) (h : Reordered R xs ys) :
    Agree (fun c d : Catalog α => List.Forall₂ R c.items d.items) (xs.foldlM step b)
      (ys.foldlM step b') := by
  have hkeys : (xs.map key).Perm (ys.map key) := h.map_perm hR
  -- What holds of the items of one list holds of those of the other.
  have hall : ∀ P Q : α → Prop, (∀ x y, R x y → (P x ↔ Q y)) →
      ((∀ x ∈ xs, P x) ↔ ∀ y ∈ ys, Q y) := by
    intro P Q hPQ
    constructor
    · intro hx y hy
      obtain ⟨x, hmem, hxy⟩ := h.exists_left hy
      exact (hPQ x y hxy).1 (hx x hmem)
    · intro hy x hx
      obtain ⟨y, hmem, hxy⟩ := h.exists_right hx
      exact (hPQ x y hxy).2 (hy y hmem)
  have hfree : (∀ x ∈ xs, b.contains (key x) = false) ↔ ∀ y ∈ ys, b'.contains (key y) = false :=
    hall _ _ fun x y hxy => by rw [hR x y hxy, contains_congr hR hb]
  refine Agree.of_isOk ?_ fun c d hc hd => ?_
  · rw [Bool.eq_iff_iff, isOk_foldlM_iff hstep, isOk_foldlM_iff hstep, hall fits fits hfits, hfree,
      hkeys.nodup_iff]
  · obtain ⟨-, -, hx, rfl⟩ := (foldlM_eq_ok_iff hstep).1 hc
    obtain ⟨-, -, hy, rfl⟩ := (foldlM_eq_ok_iff hstep).1 hd
    refine (forall₂_items_iff hR).2 fun i => ?_
    have hfiled := rel_lookup_of_reordered hR hx hy h i
    have hstart := (forall₂_items_iff hR).1 hb i
    rw [get?_foldl_insert hx, get?_foldl_insert hy]
    generalize lookup xs i = found, lookup ys i = found' at hfiled ⊢
    cases hfiled with
    | none => exact hstart
    | some hxy => exact Option.Rel.some hxy

end Related

/-- Filing an item whose key must be new. -/
theorem insertNew?_eq_ok_iff {c d : Catalog α} {x : α} :
    c.insertNew? x = .ok d ↔ key x ≠ "" ∧ c.contains (key x) = false ∧ d = c.insert x := by
  unfold insertNew?
  by_cases hempty : key x = ""
  · rw [if_pos hempty]
    exact iff_of_false (fun h => by cases h) fun h => h.1 hempty
  · rw [if_neg hempty]
    cases hfree : c.contains (key x) with
    | true => exact iff_of_false (fun h => by cases h) fun h => by cases h.2.1
    | false =>
      rw [if_neg (by decide), Except.ok.injEq, eq_comm]
      exact ⟨fun h => ⟨hempty, rfl, h⟩, fun h => h.2.2⟩

/-- Why an item whose key must be new is refused. -/
theorem insertNew?_eq_error_iff {c : Catalog α} {x : α} {defect : KeyDefect} :
    c.insertNew? x = .error defect ↔
      key x = "" ∧ defect = .empty ∨
        key x ≠ "" ∧ c.contains (key x) = true ∧ defect = .repeated (key x) := by
  unfold insertNew?
  by_cases hempty : key x = ""
  · rw [if_pos hempty, Except.error.injEq, eq_comm]
    exact ⟨fun h => Or.inl ⟨hempty, h⟩, fun h => h.elim And.right fun h => absurd hempty h.1⟩
  · rw [if_neg hempty]
    cases c.contains (key x) with
    | false =>
      rw [if_neg (by decide)]
      exact iff_of_false (fun h => by cases h) fun h => h.elim (fun h => hempty h.1)
        fun h => by cases h.2.1
    | true =>
      rw [if_pos rfl, Except.error.injEq, eq_comm]
      exact ⟨fun h => Or.inr ⟨hempty, rfl, h⟩,
        fun h => h.elim (fun h => absurd h.1 hempty) fun h => h.2.2⟩

/-- **Reading a list whose keys must be distinct succeeds** just when they are, and none is
empty. -/
theorem ofDistinct?_eq_ok_iff {items : List α} {c : Catalog α} :
    ofDistinct? items = .ok c ↔
      (∀ x ∈ items, key x ≠ "") ∧ (items.map key).Nodup ∧ c = ofList items := by
  rw [ofDistinct?, foldlM_eq_ok_iff fun _ _ _ => insertNew?_eq_ok_iff]
  exact ⟨fun ⟨hne, _, hnodup, hc⟩ => ⟨hne, hnodup, hc⟩,
    fun ⟨hne, hnodup, hc⟩ => ⟨hne, fun _ _ => rfl, hnodup, hc⟩⟩

/-- **Reading a list whose keys must be distinct reports the first item that does not fit**: its key
is empty, or that of an item before it. -/
theorem ofDistinct?_eq_error_iff {items : List α} {defect : KeyDefect} :
    ofDistinct? items = .error defect ↔
      ∃ front x behind, items = front ++ x :: behind ∧
        (∀ y ∈ front, key y ≠ "") ∧ (front.map key).Nodup ∧
        (key x = "" ∧ defect = .empty ∨
          key x ≠ "" ∧ key x ∈ front.map key ∧ defect = .repeated (key x)) := by
  have htaken : ∀ front : List α, ∀ i,
      (front.foldl insert empty).contains i = true ↔ i ∈ front.map key := by
    intro front i
    rw [contains_foldl_insert]
    simp [List.mem_map, empty, contains, get?, lookup]
  rw [ofDistinct?, foldlM_eq_error_iff]
  constructor
  · rintro ⟨front, x, behind, c, hitems, hfront, hx⟩
    obtain ⟨hne, -, hnodup, rfl⟩ :=
      (foldlM_eq_ok_iff fun _ _ _ => insertNew?_eq_ok_iff).1 hfront
    refine ⟨front, x, behind, hitems, hne, hnodup, ?_⟩
    simpa only [insertNew?_eq_error_iff, htaken] using hx
  · rintro ⟨front, x, behind, hitems, hne, hnodup, hx⟩
    refine ⟨front, x, behind, front.foldl insert empty, hitems, ?_, ?_⟩
    · exact (foldlM_eq_ok_iff fun _ _ _ => insertNew?_eq_ok_iff).2
        ⟨hne, fun _ _ => rfl, hnodup, rfl⟩
    · simpa only [insertNew?_eq_error_iff, htaken] using hx

/-- Reading reordered lists whose keys must be distinct agrees. -/
theorem agree_ofDistinct? {R : α → α → Prop} (hR : ∀ x y, R x y → key x = key y) {xs ys : List α}
    (h : Reordered R xs ys) :
    Agree (fun c d : Catalog α => List.Forall₂ R c.items d.items) (ofDistinct? xs)
      (ofDistinct? ys) :=
  agree_foldlM hR (fun x => key x ≠ "") (fun _ _ _ => insertNew?_eq_ok_iff)
    (fun x y hxy => by rw [hR x y hxy]) List.Forall₂.nil h

/-- Filing permuted lists whose keys must be new gives one catalog, or fails for both. -/
theorem agree_foldlM_insertNew?_of_perm {xs ys : List α} (h : xs.Perm ys) (b : Catalog α) :
    Agree Eq (xs.foldlM insertNew? b) (ys.foldlM insertNew? b) := by
  refine (agree_foldlM (fun x y hxy => congrArg key hxy) (fun x => key x ≠ "")
    (fun _ _ _ => insertNew?_eq_ok_iff) (fun x y hxy => by rw [hxy])
    (List.forall₂_same.2 fun _ _ => rfl) (.of_perm h)).mono fun c d hcd => ?_
  rw [List.forall₂_eq_eq_eq] at hcd
  exact ext hcd

/-! ## Keys that may recur -/

/-- Filing an item whose key may be taken takes the key, or keeps it. -/
theorem insertFirst?_of_ne {x : α} (hx : key x ≠ "") (b : Catalog α) :
    ∃ d, b.insertFirst? x = .ok d ∧
      ∀ i, d.contains i = true ↔ b.contains i = true ∨ key x = i := by
  unfold insertFirst?
  rw [if_neg hx]
  cases hfree : b.contains (key x) with
  | true =>
    refine ⟨b, if_pos rfl, fun i => ⟨Or.inl, fun h => ?_⟩⟩
    rcases h with h | rfl
    · exact h
    · exact hfree
  | false =>
    refine ⟨b.insert x, if_neg (by decide), fun i => ?_⟩
    have hinsert := contains_foldl_insert [x] b i
    simpa using hinsert

/-- **Reading a list in which keys may recur** fails just when a key is empty, and otherwise takes
the keys of the list. -/
theorem foldlM_insertFirst? (items : List α) (b : Catalog α) :
    ((∃ x ∈ items, key x = "") ∧ ∃ m, items.foldlM insertFirst? b = .error m) ∨
      (∀ x ∈ items, key x ≠ "") ∧ ∃ c, items.foldlM insertFirst? b = .ok c ∧
        ∀ i, c.contains i = true ↔ b.contains i = true ∨ ∃ x ∈ items, key x = i := by
  induction items generalizing b with
  | nil => exact Or.inr ⟨List.forall_mem_nil _, b, rfl, by simp⟩
  | cons x rest ih =>
    rw [List.foldlM_cons]
    by_cases hx : key x = ""
    · refine Or.inl ⟨⟨x, List.mem_cons_self, hx⟩, .empty, ?_⟩
      rw [insertFirst?, if_pos hx]
      rfl
    · obtain ⟨d, hd, hkeys⟩ := insertFirst?_of_ne hx b
      have hnext : (b.insertFirst? x >>= fun c => rest.foldlM insertFirst? c) =
          rest.foldlM insertFirst? d := by
        rw [hd]
        rfl
      rw [hnext]
      rcases ih d with ⟨⟨y, hy, hkey⟩, hm⟩ | ⟨hrest, c, hc, hcontains⟩
      · exact Or.inl ⟨⟨y, List.mem_cons_of_mem x hy, hkey⟩, hm⟩
      · refine Or.inr ⟨List.forall_mem_cons.2 ⟨hx, hrest⟩, c, hc, fun i => ?_⟩
        simp only [hcontains, hkeys, List.mem_cons, exists_eq_or_imp, or_assoc]

/-- Catalogs in which the same keys are taken have the same keys. -/
theorem keys_eq_of_contains {c d : Catalog α}
    (h : ∀ i, c.contains i = true ↔ d.contains i = true) : c.keys = d.keys := by
  have hincreasing : ∀ e : Catalog α, Increasing e.keys := fun e => List.pairwise_map.2 e.increasing
  refine eq_of_mem_iff (hincreasing c) (hincreasing d) fun i => ?_
  rw [mem_keys_iff, mem_keys_iff, h i]

/-- **Reading lists of the same keys agrees**, however often a key recurs and wherever it stands. -/
theorem agree_ofFirsts? {xs ys : List α} (h : ∀ i, (∃ x ∈ xs, key x = i) ↔ ∃ y ∈ ys, key y = i) :
    Agree (fun c d : Catalog α => c.keys = d.keys) (ofFirsts? xs) (ofFirsts? ys) := by
  rcases foldlM_insertFirst? xs empty with ⟨hx, m, hm⟩ | ⟨hx, c, hc, hcontains⟩
  · rcases foldlM_insertFirst? ys empty with ⟨-, n, hn⟩ | ⟨hy, -⟩
    · rw [ofFirsts?, ofFirsts?, hm, hn]
      exact .error m n
    · obtain ⟨y, hmem, hkey⟩ := (h "").1 hx
      exact absurd hkey (hy y hmem)
  · rcases foldlM_insertFirst? ys empty with ⟨hy, -⟩ | ⟨-, d, hd, hcontains'⟩
    · obtain ⟨x, hmem, hkey⟩ := (h "").2 hy
      exact absurd hkey (hx x hmem)
    · rw [ofFirsts?, ofFirsts?, hc, hd]
      refine .ok (keys_eq_of_contains fun i => ?_)
      rw [hcontains, hcontains', h i]

end Catalog

end ReleaseDiff

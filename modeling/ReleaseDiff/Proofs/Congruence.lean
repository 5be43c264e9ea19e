import ReleaseDiff.Proofs.Unchanged

set_option autoImplicit false

/-!
# Equal releases give equal reports

Equality of releases leaves the positions of array items out of account, and so does a comparison:
equal releases are interchangeable on either side of it, down to the order of the records.

## Main results

* `ReleaseDiff.forall₂_missingFrom`, `ReleaseDiff.forall₂_sharedPairs` — related lists have related
  matchings.
* `ReleaseDiff.Body.changes_congr` — equal bodies are interchangeable in a comparison.
* `ReleaseDiff.entityRecords_congr` — the same for the entities of a kind.
* `ReleaseDiff.classify_congr` — the same for releases.
-/

namespace ReleaseDiff

variable {k : Kind}

/-! ## Matchings of related lists -/

/-- Related lists give the same under whatever does not tell related items apart. -/
theorem flatMap_congr_of_forall₂ {α β : Type} {R : α → α → Prop} {as bs : List α} {f : α → List β}
    (hf : ∀ x y, R x y → f x = f y) (h : List.Forall₂ R as bs) : as.flatMap f = bs.flatMap f := by
  have hmap : as.map f = bs.map f := forall₂_iff_map_eq.1 (h.imp fun _ _ => hf _ _)
  rw [List.flatMap, List.flatMap, hmap]

section Related

variable {α : Type} [Keyed α] {R : α → α → Prop} {as as' bs bs' : List α}

/-- A look-up finds something in a list just when it does in a related one. -/
theorem isNone_lookup_congr (hR : ∀ x y, R x y → key x = key y) (h : List.Forall₂ R as bs)
    (i : String) : (lookup as i).isNone = (lookup bs i).isNone := by
  have hrel := Catalog.rel_lookup_of_forall₂ hR h i
  generalize lookup as i = found, lookup bs i = found' at hrel ⊢
  cases hrel with
  | none => rfl
  | some _ => rfl

/-- In related lists, related items are missing from related lists. -/
theorem forall₂_missingFrom (hR : ∀ x y, R x y → key x = key y) (ha : List.Forall₂ R as as')
    (hb : List.Forall₂ R bs bs') :
    List.Forall₂ R (missingFrom as bs) (missingFrom as' bs') := by
  induction ha with
  | nil => exact List.Forall₂.nil
  | @cons x x' rest rest' hx _ ih =>
    have hnone : (lookup bs (key x)).isNone = (lookup bs' (key x')).isNone := by
      rw [hR x x' hx]
      exact isNone_lookup_congr hR hb (key x')
    unfold missingFrom at ih ⊢
    rw [List.filter_cons, List.filter_cons, hnone]
    split
    · exact List.Forall₂.cons hx ih
    · exact ih

/-- Related lists have related pairs. -/
theorem forall₂_sharedPairs (hR : ∀ x y, R x y → key x = key y) (ha : List.Forall₂ R as as')
    (hb : List.Forall₂ R bs bs') :
    List.Forall₂ (fun p q => R p.1 q.1 ∧ R p.2 q.2) (sharedPairs as bs) (sharedPairs as' bs') := by
  induction ha with
  | nil => exact List.Forall₂.nil
  | @cons x x' rest rest' hx _ ih =>
    have hrel := Catalog.rel_lookup_of_forall₂ hR hb (key x)
    rw [sharedPairs_cons, sharedPairs_cons, ← hR x x' hx]
    generalize lookup bs (key x) = found, lookup bs' (key x) = found' at hrel ⊢
    cases hrel with
    | none => exact ih
    | some hy => exact List.Forall₂.cons ⟨hx, hy⟩ ih

/-- Items that only appear and disappear are told by their keys. -/
theorem presenceChanges_congr {removed added : Shape k} {path : Path}
    (hR : ∀ x y, R x y → key x = key y) (ha : List.Forall₂ R as as') (hb : List.Forall₂ R bs bs') :
    presenceChanges removed added path as bs = presenceChanges removed added path as' bs' := by
  have hmap : ∀ {xs ys : List α} (shape : Shape k), List.Forall₂ R xs ys →
      xs.map (fun x => (⟨shape, path.child (key x), key x⟩ : Change k)) =
        ys.map fun x => ⟨shape, path.child (key x), key x⟩ :=
    fun shape h => forall₂_iff_map_eq.1 (h.imp fun x y hxy => by rw [hR x y hxy])
  simp only [presenceChanges, matchItems]
  rw [hmap removed (forall₂_missingFrom hR ha hb), hmap added (forall₂_missingFrom hR hb ha)]

end Related

/-! ## Bodies and entities -/

/-- Arrays with the same keys and texts are interchangeable. -/
theorem arrayChanges_congr {path : Path} {a a' b b' : Catalog DataArray}
    (ha : a.items.map DataArray.contents = a'.items.map DataArray.contents)
    (hb : b.items.map DataArray.contents = b'.items.map DataArray.contents) :
    arrayChanges path a b = arrayChanges path a' b' := by
  have hkey : ∀ x y : DataArray, x.contents = y.contents → key x = key y :=
    fun x y h => congrArg Prod.fst h
  have hitems : ∀ x y : DataArray, x.contents = y.contents →
      List.Forall₂ (fun v w => key v = key w) x.items.items y.items.items :=
    fun x y h => forall₂_iff_map_eq.2 (congrArg Prod.snd h)
  have ha' := forall₂_iff_map_eq.2 ha
  have hb' := forall₂_iff_map_eq.2 hb
  simp only [arrayChanges, Catalog.matchWith, matchItems]
  rw [presenceChanges_congr hkey ha' hb']
  have hpairs := forall₂_sharedPairs hkey ha' hb'
  refine congrArg _ (flatMap_congr_of_forall₂ (fun p q hpq => ?_) hpairs)
  have hpath : p.1.key = q.1.key := hkey _ _ hpq.1
  rw [hpath]
  exact presenceChanges_congr (fun _ _ h => h) (hitems _ _ hpq.1) (hitems _ _ hpq.2)

/-- **Equal bodies are interchangeable in a comparison.** -/
theorem Body.changes_congr {path : Path} (k : Kind) {a a' b b' : Body k} (ha : Body.Same k a a')
    (hb : Body.Same k b b') : Body.changes path k a b = Body.changes path k a' b' := by
  cases k with
  | data =>
    obtain ⟨hfields, harrays, hrequired, hvars⟩ := ha
    obtain ⟨hfields', harrays', hrequired', hvars'⟩ := hb
    simp only [changes, DataEntity.changes, hfields, hrequired, hvars, hfields', hrequired', hvars']
    rw [arrayChanges_congr harrays harrays']
  | _ =>
    cases ha
    cases hb
    rfl

/-- Equal entities are interchangeable in a comparison. -/
theorem Entity.records_congr {name : String} {x x' y y' : Entity k} (hx : x.Same x')
    (hy : y.Same y') :
    Entity.records name (some x) (some y) = Entity.records name (some x') (some y') := by
  rw [Entity.records, Entity.records, Entity.changes, Entity.changes, hx.2.1, hy.2.1,
    Body.changes_congr k hx.2.2 hy.2.2]

/-- **Equal entities of a kind are interchangeable**, down to the order of the records. -/
theorem entityRecords_congr {old old' new new' : Catalog (Entity k)}
    (hold : List.Forall₂ Entity.Same old.items old'.items)
    (hnew : List.Forall₂ Entity.Same new.items new'.items) :
    entityRecords old new = entityRecords old' new' := by
  have hkey : ∀ x y : Entity k, x.Same y → key x = key y := fun _ _ h => h.1
  have hremoved := forall₂_missingFrom hkey hold hnew
  have hadded := forall₂_missingFrom hkey hnew hold
  have hpairs := forall₂_sharedPairs hkey hold hnew
  simp only [entityRecords, Catalog.matchWith, matchItems]
  -- An entity that only one release has counts by its name.
  have hname : ∀ x y : Entity k, x.Same y → x.name = y.name := fun _ _ h => h.1
  congr 1
  · congr 1
    · refine flatMap_congr_of_forall₂ (fun x y h => ?_) hremoved
      rw [hname x y h]
      rfl
    · refine flatMap_congr_of_forall₂ (fun x y h => ?_) hadded
      rw [hname x y h]
      rfl
  · refine flatMap_congr_of_forall₂ (fun p q h => ?_) hpairs
    rw [hname _ _ h.1]
    exact Entity.records_congr h.1 h.2

/-! ## Releases -/

/-- Equality of slots, told by what they hold. -/
theorem Slot.same_cases {s t : Slot k} (h : Slot.Same s t) :
    (∃ c d, s = .ok c ∧ t = .ok d ∧ List.Forall₂ Entity.Same c.items d.items) ∨
      ∃ m, s = .error m ∧ t = .error m := by
  cases s with
  | ok c =>
    cases t with
    | ok d => exact Or.inl ⟨c, d, rfl, rfl, (Slot.sameEntities_iff _ _).1 h⟩
    | error n => cases h
  | error m =>
    cases t with
    | ok d => cases h
    | error n => exact Or.inr ⟨m, rfl, congrArg Except.error (Eq.symm h)⟩

/-- Equal slots have the same defect. -/
theorem Slot.Same.defect?_eq {s t : Slot k} (h : Slot.Same s t) : s.defect? = t.defect? := by
  obtain ⟨c, d, rfl, rfl, -⟩ | ⟨m, rfl, rfl⟩ := Slot.same_cases h
  · rfl
  · rfl

/-- Every release is equal to itself. -/
theorem Tree.Same.refl (t : Tree) : Tree.Same t t := by
  intro k
  cases h : t k with
  | ok c => exact (Slot.sameEntities_iff _ _).2 (List.forall₂_same.2 fun e _ => ⟨rfl, rfl, by
      cases k with
      | data => exact ⟨rfl, rfl, rfl, rfl⟩
      | _ => exact rfl⟩)
  | error m => exact rfl

/-- A kind of equal releases is compared alike. -/
theorem compareKind_congr {before before' after after' : Tree}
    (hb : Slot.Same (before k) (before' k)) (ha : Slot.Same (after k) (after' k)) :
    compareKind k before after = compareKind k before' after' := by
  have hdefects : kindDefects k before after = kindDefects k before' after' := by
    rw [kindDefects, kindDefects, hb.defect?_eq, ha.defect?_eq]
  rw [compareKind, compareKind, hdefects]
  obtain ⟨old, old', hold, hold', hsame⟩ | ⟨m, hm, hm'⟩ := Slot.same_cases hb
  · obtain ⟨new, new', hnew, hnew', hsame'⟩ | ⟨n, hn, hn'⟩ := Slot.same_cases ha
    · rw [hold, hold', hnew, hnew']
      exact congrArg Except.ok (entityRecords_congr hsame hsame')
    · rw [hold, hold', hn, hn']
  · rw [hm, hm']

/-- **Equal releases are interchangeable on either side of a comparison.** -/
theorem classify_congr (config : Config) {before before' after after' : Tree}
    (hb : Tree.Same before before') (ha : Tree.Same after after') :
    classify config before after = classify config before' after' := by
  rw [classify, classify]
  exact congrArg Report.ofOutcomes (List.map_congr_left fun k _ => compareKind_congr (hb k) (ha k))

end ReleaseDiff

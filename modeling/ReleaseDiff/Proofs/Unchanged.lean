import ReleaseDiff.Proofs.Entities

set_option autoImplicit false

/-!
# Nothing is missed and nothing is made up

A comparison finds nothing just when both sides are equal. The equality is that of the model: entity
by entity, collection by collection and at every depth, the positions of array items apart.

## Main results

* `ReleaseDiff.fieldChanges_eq_nil_iff` — the same for forests of fields, at any depth.
* `ReleaseDiff.annotationChanges_eq_nil_iff` — the same for well-formed annotations.
* `ReleaseDiff.Body.changes_eq_nil_iff` — the same for the bodies of every kind.
* `ReleaseDiff.isUnchanged_classify_iff` — a report is empty just when every enabled kind could be
  built in both releases and holds equal entities.
-/

namespace ReleaseDiff

variable {k : Kind}

/-! ## Collections -/

/-- No change of a collection is found just when both sides have the same items, where items of one
key are equal just when their comparison finds nothing. -/
theorem collectionChanges_eq_nil_iff_eq {α : Type} [Keyed α] {removed added : Shape k} {path : Path}
    {both : α → α → List (Change k)} {before after : Catalog α}
    (hboth : ∀ i x y, before.get? i = some x → after.get? i = some y → (both x y = [] ↔ x = y)) :
    collectionChanges removed added path both before after = [] ↔ before = after := by
  rw [collectionChanges_eq_nil_iff (fun x y h => h ▸ rfl) hboth, List.forall₂_eq_eq_eq]
  exact ⟨Catalog.ext, congrArg Catalog.items⟩

/-- Nothing appears or disappears just when both sides have the same keys. -/
theorem presenceChanges_eq_nil_iff {α : Type} [Keyed α] {removed added : Shape k} {path : Path}
    {before after : Catalog α} :
    presenceChanges removed added path before.items after.items = [] ↔
      before.keys = after.keys := by
  rw [presenceChanges_eq, Catalog.keys, Catalog.keys, ← forall₂_iff_map_eq]
  refine collectionChanges_eq_nil_iff (fun _ _ h => h) fun i x y hx hy => ?_
  exact iff_of_true rfl (Catalog.key_eq_of_get? hx hy)

/-- No change of children is found just when they are equal. -/
theorem childChanges_eq_nil_iff {repertoire : ChildRepertoire k} {path : Path}
    {before after : Catalog Child} :
    childChanges repertoire path before after = [] ↔ before = after := by
  rw [childChanges_eq]
  refine collectionChanges_eq_nil_iff_eq fun i x y hx hy => ?_
  have hkey : x.key = y.key := Catalog.key_eq_of_get? hx hy
  rw [childPairChanges, attributeChanges_eq_nil_iff]
  obtain ⟨xkey, xattributes⟩ := x
  obtain ⟨ykey, yattributes⟩ := y
  simp_all

/-- No change of steps is found just when they are equal. -/
theorem stepChanges_eq_nil_iff {repertoire : StepRepertoire k} {path : Path}
    {before after : Catalog Step} :
    stepChanges repertoire path before after = [] ↔ before = after := by
  rw [stepChanges_eq]
  refine collectionChanges_eq_nil_iff_eq fun i x y hx hy => ?_
  have hkey : x.key = y.key := Catalog.key_eq_of_get? hx hy
  rw [stepPairChanges, List.append_eq_nil_iff, attributeChanges_eq_nil_iff]
  obtain ⟨xkey, xtype, xattributes⟩ := x
  obtain ⟨ykey, ytype, yattributes⟩ := y
  simp_all

/-- No change of data fields is found just when they are equal. -/
theorem dataFieldChanges_eq_nil_iff {path : Path} {before after : Catalog DataField} :
    dataFieldChanges path before after = [] ↔ before = after := by
  rw [dataFieldChanges_eq]
  refine collectionChanges_eq_nil_iff_eq fun i x y hx hy => ?_
  have hkey : x.key = y.key := Catalog.key_eq_of_get? hx hy
  obtain ⟨xkey, xvalue⟩ := x
  obtain ⟨ykey, yvalue⟩ := y
  simp_all [dataFieldPairChanges]

/-- No change of arrays is found just when they have the same keys and texts. -/
theorem arrayChanges_eq_nil_iff {path : Path} {before after : Catalog DataArray} :
    arrayChanges path before after = [] ↔
      before.items.map DataArray.contents = after.items.map DataArray.contents := by
  rw [arrayChanges_eq, ← forall₂_iff_map_eq]
  refine collectionChanges_eq_nil_iff (fun x y h => congrArg Prod.fst h) fun i x y hx hy => ?_
  have hkey : x.key = y.key := Catalog.key_eq_of_get? hx hy
  rw [arrayPairChanges, presenceChanges_eq_nil_iff, DataArray.contents, DataArray.contents, hkey]
  simp

/-! ## Fields of a metadata operation -/

/-- Ordered forests with the same fields on the top level are equal. -/
theorem FieldForest.catalog_eq_iff {f g : FieldForest} (hf : f.Ordered) (hg : g.Ordered) :
    f.catalog hf = g.catalog hg ↔ f = g := by
  refine ⟨fun h => ?_, fun h => by subst h; rfl⟩
  have hnodes : f.nodes = g.nodes := congrArg Catalog.items h
  rw [← ofNodes_nodes f, hnodes, ofNodes_nodes]

/-- **No change of a forest of fields is found just when both sides are equal**, at any depth.

**Proof sketch.** Induction over the earlier forest. A level is a collection, and two fields of one
key differ in their attributes or in the levels below them. -/
theorem fieldChanges_eq_nil_iff {path : Path} {before after : FieldForest} (hb : before.Ordered)
    (ha : after.Ordered) : fieldChanges path before after = [] ↔ before = after := by
  induction hb using FieldForest.Ordered.induction generalizing path after with
  | step before hb ih =>
    rw [fieldChanges_eq path hb ha, ← FieldForest.catalog_eq_iff hb ha]
    refine collectionChanges_eq_nil_iff_eq fun i x y hx hy => ?_
    have hkey : x.key = y.key := Catalog.key_eq_of_get? hx hy
    rw [fieldPairChanges, List.append_eq_nil_iff, attributeChanges_eq_nil_iff,
      ih i x hx (ha.below hy)]
    obtain ⟨xkey, xattributes, xchildren⟩ := x
    obtain ⟨ykey, yattributes, ychildren⟩ := y
    simp_all

/-! ## Annotations -/

/-- A value is missing from the other set just when only the first set has it. -/
theorem Catalog.mem_difference_iff {c d : Catalog String} {v : String} :
    v ∈ c.difference d ↔ c.contains v = true ∧ d.contains v = false := by
  rw [Catalog.difference, Catalog.mem_missingFrom_iff, Catalog.contains_eq_false_iff,
    Catalog.contains, Option.isSome_iff_exists, key_string]
  refine and_congr_left fun _ => ⟨fun h => ⟨v, h⟩, fun h => ?_⟩
  obtain ⟨w, hw⟩ := h
  obtain rfl : w = v := (Catalog.get?_eq_some_iff.1 hw).2
  exact hw

/-- No value of a set changes just when both sets are equal. -/
theorem valueChanges_eq_nil_iff {path : Path} {name : String} {before after : Catalog String} :
    valueChanges path name before after = [] ↔ before = after := by
  rw [valueChanges, SetDifference.of, List.append_eq_nil_iff, List.map_eq_nil_iff,
    List.map_eq_nil_iff]
  simp only [List.eq_nil_iff_forall_not_mem, Catalog.mem_difference_iff]
  constructor
  · rintro ⟨hremoved, hadded⟩
    refine Catalog.ext (eq_of_mem_iff before.increasing after.increasing fun v => ?_)
    rw [← Catalog.keys_eq_items, ← Catalog.keys_eq_items, Catalog.mem_keys_iff,
      Catalog.mem_keys_iff]
    have h₁ := hremoved v
    have h₂ := hadded v
    cases hb : before.contains v <;> cases ha : after.contains v <;> simp_all
  · rintro rfl
    simp

/-- No change of one annotation is found just when both releases have the same content under its
name, given that no set of values is empty. -/
theorem contentChanges_eq_nil_iff {path : Path} {name : String} {x y : Option AnnotationContent}
    (hx : ∀ set, x = some (.values set) → set ≠ ∅) (hy : ∀ set, y = some (.values set) → set ≠ ∅) :
    contentChanges path name x y = [] ↔ x = y := by
  rcases x with _ | (text | old)
  · rcases y with _ | (text | new)
    · simp [contentChanges]
    · simp [contentChanges]
    · simpa [contentChanges, valueChanges_eq_nil_iff] using (hy new rfl).symm
  · rcases y with _ | (text' | new)
    · simp [contentChanges]
    · simp [contentChanges]
    · simp [contentChanges]
  · rcases y with _ | (text | new)
    · simpa [contentChanges, valueChanges_eq_nil_iff] using hx old rfl
    · simp [contentChanges]
    · simp [contentChanges, valueChanges_eq_nil_iff]

/-- **No change of well-formed annotations is found just when they are equal.** -/
theorem annotationChanges_eq_nil_iff {path : Path} {before after : Annotations}
    (hb : before.WellFormed) (ha : after.WellFormed) :
    annotationChanges path before after = [] ↔ before = after := by
  rw [annotationChanges_eq, Catalog.pointwise_eq_nil_iff fun _ => rfl]
  have hname : ∀ name, contentChanges path name ((before.get? name).map Annotation.content)
      ((after.get? name).map Annotation.content) = [] ↔
        (before.get? name).map Annotation.content = (after.get? name).map Annotation.content :=
    fun name => contentChanges_eq_nil_iff (fun _ h => hb.values_ne_empty h)
      fun _ h => ha.values_ne_empty h
  simp only [hname]
  refine ⟨fun h => Catalog.ext_get? fun name => ?_, fun h _ => h ▸ rfl⟩
  have hcontent := h name
  cases hx : before.get? name with
  | none =>
    rw [hx, Option.map_none] at hcontent
    exact (Option.map_eq_none_iff.1 hcontent.symm).symm
  | some a =>
    rw [hx, Option.map_some] at hcontent
    obtain ⟨b, hy, hba⟩ := Option.map_eq_some_iff.1 hcontent.symm
    have hnames : a.name = b.name := Catalog.key_eq_of_get? hx hy
    rw [hy]
    obtain ⟨aname, acontent⟩ := a
    obtain ⟨bname, bcontent⟩ := b
    simp_all

/-! ## Bodies and entities -/

/-- **No change of a body is found just when both sides are equal**, positions of array items
apart. -/
theorem Body.changes_eq_nil_iff {path : Path} (k : Kind) (a b : Body k) :
    Body.changes path k a b = [] ↔ Body.Same k a b := by
  cases k with
  | actionGroup =>
    obtain ⟨aarguments, aactions⟩ := a
    obtain ⟨barguments, bactions⟩ := b
    simp [Body.changes, Body.Same, ActionGroup.changes, childChanges_eq_nil_iff,
      stepChanges_eq_nil_iff]
  | test =>
    obtain ⟨aannotations, ha, abefore, aactions, aafter, aremoved⟩ := a
    obtain ⟨bannotations, hb, bbefore, bactions, bafter, bremoved⟩ := b
    simp [Body.changes, Body.Same, Test.changes, annotationChanges_eq_nil_iff ha hb,
      stepChanges_eq_nil_iff, presenceChanges_eq_nil_iff, Catalog.keys_eq_items, Catalog.ext_iff]
  | page =>
    obtain ⟨asections⟩ := a
    obtain ⟨bsections⟩ := b
    simp [Body.changes, Body.Same, Page.changes, childChanges_eq_nil_iff]
  | pageSection =>
    obtain ⟨aelements⟩ := a
    obtain ⟨belements⟩ := b
    simp [Body.changes, Body.Same, PageSection.changes, childChanges_eq_nil_iff]
  | data =>
    simp [Body.changes, Body.Same, DataEntity.changes, dataFieldChanges_eq_nil_iff,
      arrayChanges_eq_nil_iff, childChanges_eq_nil_iff]
  | metadata =>
    obtain ⟨afields, ha⟩ := a
    obtain ⟨bfields, hb⟩ := b
    simp [Body.changes, Body.Same, Operation.changes, fieldChanges_eq_nil_iff ha hb]

/-- No record of one name is found just when both releases lack the entity or both hold equal ones.
-/
theorem Entity.records_eq_nil_iff {name : String} {x y : Option (Entity k)}
    (hname : ∀ a b, x = some a → y = some b → a.name = b.name) :
    Entity.records name x y = [] ↔ Option.Rel Entity.Same x y := by
  rw [Entity.records, List.map_eq_nil_iff]
  rcases x with _ | a <;> rcases y with _ | b
  · exact iff_of_true rfl Option.Rel.none
  · exact iff_of_false (List.cons_ne_nil _ _) fun h => by cases h
  · exact iff_of_false (List.cons_ne_nil _ _) fun h => by cases h
  · rw [Entity.changes, List.append_eq_nil_iff, attributeChanges_eq_nil_iff,
      Body.changes_eq_nil_iff]
    refine ⟨fun h => Option.Rel.some ⟨hname a b rfl rfl, h⟩, fun h => ?_⟩
    cases h with
    | some h => exact h.2

/-! ## Slots and trees -/

/-- Two lists hold the same entities just when equal entities stand in the same places. -/
theorem Slot.sameEntities_iff (as bs : List (Entity k)) :
    Slot.SameEntities as bs ↔ List.Forall₂ Entity.Same as bs := by
  induction as generalizing bs with
  | nil => cases bs <;> simp [Slot.SameEntities]
  | cons a as ih => cases bs <;> simp [Slot.SameEntities, ih]

/-- **No record of a kind is found just when both releases hold equal entities.** -/
theorem entityRecords_eq_nil_iff (old new : Catalog (Entity k)) :
    entityRecords old new = [] ↔ Slot.Same (.ok old) (.ok new) := by
  rw [eq_nil_iff_of_perm (entityRecords_perm old new),
    Catalog.pointwise_eq_nil_iff Entity.records_none_none, Slot.Same,
    Slot.sameEntities_iff, Catalog.forall₂_items_iff fun a b h => h.1]
  refine forall_congr' fun name => Entity.records_eq_nil_iff fun a b ha hb => ?_
  exact Catalog.key_eq_of_get? ha hb

/-- A kind that one of the releases could not build has a failure. -/
theorem failures_compareKind_eq_nil_iff {before after : Tree} :
    (compareKind k before after).failures = [] ↔
      ∃ old new, before k = .ok old ∧ after k = .ok new := by
  unfold compareKind
  cases hb : before k with
  | error m => simp [KindOutcome.failures, kindDefects, hb, Slot.defect?]
  | ok old =>
    cases ha : after k with
    | error m => simp [KindOutcome.failures, kindDefects, ha, Slot.defect?]
    | ok new => simp [KindOutcome.failures]

/-- The records of a report that have an enabled kind are those of comparing that kind. -/
theorem mem_recordsFor_classify_iff {config : Config} {before after : Tree}
    (hk : k ∈ config.enabledKinds) {r : Record} :
    r ∈ (classify config before after).recordsFor k ↔ r ∈ (compareKind k before after).records := by
  rw [Report.recordsFor, List.mem_filter, mem_records_classify_iff, decide_eq_true_eq,
    mem_records_compareKind_iff]
  simp only [(entityRecords_perm _ _).mem_iff,
    Catalog.mem_pointwise_iff fun _ => Entity.records_none_none _]
  constructor
  · rintro ⟨⟨j, -, old, new, hb, ha, name, hr⟩, hkind⟩
    obtain rfl : j = k := (Entity.kind_of_mem_records hr).symm.trans hkind
    exact ⟨old, new, hb, ha, name, hr⟩
  · rintro ⟨old, new, hb, ha, name, hr⟩
    exact ⟨⟨k, hk, old, new, hb, ha, name, hr⟩, Entity.kind_of_mem_records hr⟩

/-- **A report is empty just when every enabled kind could be built in both releases and holds equal
entities**; and a kind that both releases could build is without records just when they hold equal
entities of it.

**Proof sketch.** A report is without records if every enabled kind is, and without failures if
every enabled kind could be built in both releases. A kind is without records if every name is, a
name if the attributes and the body of its two entities are equal. -/
theorem isUnchanged_classify_iff (config : Config) (before after : Tree) :
    ((classify config before after).isUnchanged = true ↔
      ∀ k ∈ config.enabledKinds, ∃ old new, before k = .ok old ∧ after k = .ok new ∧
        Slot.Same (before k) (after k)) ∧
    ∀ k ∈ config.enabledKinds, ∀ old new, before k = .ok old → after k = .ok new →
      ((classify config before after).recordsFor k = [] ↔ Slot.Same (before k) (after k)) := by
  have hkind : ∀ k ∈ config.enabledKinds, ∀ old new, before k = .ok old → after k = .ok new →
      ((compareKind k before after).records = [] ↔ Slot.Same (before k) (after k)) := by
    intro k _ old new hb ha
    rw [compareKind_of_ok hb ha, hb, ha]
    exact entityRecords_eq_nil_iff old new
  have hrecords : (classify config before after).records = [] ↔
      ∀ k ∈ config.enabledKinds, (compareKind k before after).records = [] := by
    rw [eq_nil_iff_of_perm (records_classify_perm config before after), List.flatMap_eq_nil_iff]
  have hfailures : (classify config before after).failures = [] ↔
      ∀ k ∈ config.enabledKinds, (compareKind k before after).failures = [] := by
    rw [eq_nil_iff_of_perm (failures_classify_perm config before after), List.flatMap_eq_nil_iff]
  refine ⟨?_, fun k hk old new hb ha => ?_⟩
  · rw [Report.isUnchanged, Bool.and_eq_true, List.isEmpty_iff, List.isEmpty_iff, hrecords,
      hfailures]
    constructor
    · rintro ⟨hnoRecord, hnoFailure⟩ k hk
      obtain ⟨old, new, hb, ha⟩ := failures_compareKind_eq_nil_iff.1 (hnoFailure k hk)
      exact ⟨old, new, hb, ha, (hkind k hk old new hb ha).1 (hnoRecord k hk)⟩
    · intro h
      refine ⟨fun k hk => ?_, fun k hk => ?_⟩
      · obtain ⟨old, new, hb, ha, hsame⟩ := h k hk
        exact (hkind k hk old new hb ha).2 hsame
      · obtain ⟨old, new, hb, ha, -⟩ := h k hk
        exact failures_compareKind_eq_nil_iff.2 ⟨old, new, hb, ha⟩
  · rw [← hkind k hk old new hb ha, List.eq_nil_iff_forall_not_mem, List.eq_nil_iff_forall_not_mem]
    simp only [mem_recordsFor_classify_iff hk]

end ReleaseDiff

import ReleaseDiff.Proofs.Verdict

set_option autoImplicit false

/-!
# The place of a change

Every change is found somewhere in an entity, and its path says where. This file tells, collection
by collection, which changes a comparison finds and at which paths, so that later files can follow a
change from one comparison to another without opening the comparisons again.

## Main definitions

* `ReleaseDiff.Change.Within` — a change is at a path or below it.

## Main results

* `ReleaseDiff.mem_collectionChanges_iff`, `ReleaseDiff.mem_attributeChanges_iff`,
  `ReleaseDiff.mem_annotationChanges_iff` — what a comparison finds.
* `ReleaseDiff.Body.within_of_mem_changes` — every change of a body is at least two levels below the
  entity.
* `ReleaseDiff.Entity.within_of_mem_changes` — every change of an entity is at the entity or below.
-/

namespace ReleaseDiff

variable {k : Kind}

/-! ## What is found -/

section Found

variable {α : Type} [Keyed α] {removed added : Shape k} {path : Path}
  {both : α → α → List (Change k)} {before after : Catalog α} {c : Change k}

/-- **What a comparison of a collection finds**: under some key an item disappears or appears, or
two items differ. -/
theorem mem_collectionChanges_iff :
    c ∈ collectionChanges removed added path both before after ↔
      ∃ i, (∃ x, before.get? i = some x ∧ after.get? i = none ∧ c = ⟨removed, path.child i, i⟩) ∨
        (∃ y, before.get? i = none ∧ after.get? i = some y ∧ c = ⟨added, path.child i, i⟩) ∨
        ∃ x y, before.get? i = some x ∧ after.get? i = some y ∧ c ∈ both x y := by
  rw [(collectionChanges_perm removed added path both before after).mem_iff,
    Catalog.mem_pointwise_iff fun _ => rfl]
  refine exists_congr fun i => ?_
  cases before.get? i <;> cases after.get? i <;> simp [itemChanges]

/-- **What a comparison of attributes finds**: a name under which the values differ. -/
theorem mem_attributeChanges_iff {shape : String → Shape k} {target : String → String}
    {before after : Attributes} :
    c ∈ attributeChanges shape path target before after ↔
      ∃ name, before.value? name ≠ after.value? name ∧
        c = ⟨shape name, path.child name, target name⟩ := by
  rw [attributeChanges_eq_map]
  simp only [List.mem_map, Attributes.mem_changedNames_iff, eq_comm (b := c)]

end Found

/-! ## Annotations -/

section Annotations

variable {path : Path} {name : String}

/-- A content that is no set of values is compared as a whole. -/
theorem contentChanges_of_scalar {x y : Option AnnotationContent}
    (hx : ∀ set, x ≠ some (.values set)) (hy : ∀ set, y ≠ some (.values set)) :
    contentChanges path name x y =
      if x = y then []
      else
        [⟨if x = none then .annotationAdded else .annotationChanged, path.child name, name⟩] := by
  rcases x with _ | (text | old) <;> rcases y with _ | (text' | new)
  all_goals simp_all [contentChanges]

/-- A content that is no single text is compared value by value. -/
theorem contentChanges_of_values {x y : Option AnnotationContent}
    (hx : ∀ text, x ≠ some (.scalar text)) (hy : ∀ text, y ≠ some (.scalar text)) :
    contentChanges path name x y =
      valueChanges path name (AnnotationContent.collected x) (AnnotationContent.collected y) := by
  rcases x with _ | (text | old) <;> rcases y with _ | (text' | new)
  · rfl
  · exact absurd rfl (hy text')
  · rfl
  · exact absurd rfl (hx text)
  · exact absurd rfl (hx text)
  · exact absurd rfl (hx text)
  · rfl
  · exact absurd rfl (hy text')
  · rfl

/-- The values found under a name are those of its content. -/
theorem collected_content? (annotations : Annotations) (name : String) :
    AnnotationContent.collected (annotations.content? name) = annotations.valuesSoFar name := by
  rw [Annotations.valuesSoFar]
  rcases annotations.content? name with _ | (text | set) <;> rfl

/-- What a comparison of two sets finds: a value that only one of them has. -/
theorem mem_valueChanges_iff {before after : Catalog String} {c : Change .test} :
    c ∈ valueChanges path name before after ↔
      ∃ v, (before.contains v = true ∧ after.contains v = false ∧
          c = ⟨.groupRemoved, valuePath path name v, v⟩) ∨
        (before.contains v = false ∧ after.contains v = true ∧
          c = ⟨.groupAdded, valuePath path name v, v⟩) := by
  simp only [valueChanges, SetDifference.of, List.mem_append, List.mem_map,
    Catalog.mem_difference_iff, eq_comm (b := c), and_assoc, exists_or]
  refine or_congr Iff.rfl (exists_congr fun v => ?_)
  exact and_left_comm

section WellFormed

variable {before after : Annotations} (hb : before.WellFormed) (ha : after.WellFormed)
  {c : Change .test}

include hb ha in
/-- **What a comparison finds under one name**: a single text that is not the same in both, or a
value of a name that may recur. -/
theorem mem_contentChanges_iff :
    c ∈ contentChanges path name (before.content? name) (after.content? name) ↔
      (name ∉ Annotations.multiValued ∧ before.content? name ≠ after.content? name ∧
        c = ⟨if before.content? name = none then .annotationAdded else .annotationChanged,
          path.child name, name⟩) ∨
      (name ∈ Annotations.multiValued ∧
        c ∈ valueChanges path name (before.valuesSoFar name) (after.valuesSoFar name)) := by
  -- Whether a name may recur decides which contents can stand under it.
  have hscalar : ∀ {a : Annotations}, a.WellFormed → name ∉ Annotations.multiValued →
      ∀ set, a.content? name ≠ some (.values set) := by
    intro a hw hname set h
    exact hname ((hw.content_values h).2 ⟨set, rfl⟩)
  have hvalues : ∀ {a : Annotations}, a.WellFormed → name ∈ Annotations.multiValued →
      ∀ text, a.content? name ≠ some (.scalar text) := by
    intro a hw hname text h
    obtain ⟨set, hset⟩ := (hw.content_values h).1 hname
    cases hset
  by_cases hmulti : name ∈ Annotations.multiValued
  · rw [contentChanges_of_values (hvalues hb hmulti) (hvalues ha hmulti), collected_content?,
      collected_content?]
    simp [hmulti]
  · rw [contentChanges_of_scalar (hscalar hb hmulti) (hscalar ha hmulti)]
    by_cases hcontent : before.content? name = after.content? name
    · simp [hcontent, hmulti]
    · simp [hcontent, hmulti]

include hb ha in
/-- **What a comparison of well-formed annotations finds**, under some name. -/
theorem mem_annotationChanges_iff :
    c ∈ annotationChanges path before after ↔
      (∃ name ∉ Annotations.multiValued, before.content? name ≠ after.content? name ∧
        c = ⟨if before.content? name = none then .annotationAdded else .annotationChanged,
          path.child name, name⟩) ∨
      ∃ name ∈ Annotations.multiValued,
        c ∈ valueChanges path name (before.valuesSoFar name) (after.valuesSoFar name) := by
  have hmem : c ∈ annotationChanges path before after ↔
      ∃ name, c ∈ contentChanges path name (before.content? name) (after.content? name) := by
    rw [annotationChanges_eq, Catalog.mem_pointwise_iff fun _ => rfl]
    rfl
  rw [hmem]
  simp only [mem_contentChanges_iff hb ha, exists_or]

end WellFormed

end Annotations

/-! ## Where it is found -/

/-- **A change is within a path**: at that path or below it. -/
def Change.Within (path : Path) (c : Change k) : Prop :=
  path.segments <+: c.path.segments

section Within

variable {path : Path} {c : Change k}

/-- What is within a path is within every path above. -/
theorem Change.Within.parent {s : String} (h : c.Within (path.child s)) : c.Within path :=
  (List.prefix_append path.segments [s]).trans h

/-- A change within an entity is on some level. -/
theorem Change.Within.segments_ne_nil {name : String} (h : c.Within (.root name)) :
    c.path.segments ≠ [] := by
  intro hnil
  have hlength := h.length_le
  rw [hnil] at hlength
  simp [Path.root] at hlength

/-- Paths one level below a path have the same place only if they have the same name. -/
theorem Change.Within.child_unique {s t : String} (hs : c.Within (path.child s))
    (ht : c.Within (path.child t)) : s = t := by
  have hlength : (path.child s).segments.length = (path.child t).segments.length := by
    simp [Path.child]
  have hprefix : (path.child s).segments <+: (path.child t).segments :=
    List.prefix_of_prefix_length_le hs ht (Nat.le_of_eq hlength)
  have heq : (path.child s).segments = (path.child t).segments := hprefix.eq_of_length hlength
  simpa [Path.child] using heq

/-- A change of an attribute is one level below the item that has it. -/
theorem within_of_mem_attributeChanges {shape : String → Shape k} {target : String → String}
    {before after : Attributes} (hc : c ∈ attributeChanges shape path target before after) :
    ∃ name, c.Within (path.child name) := by
  obtain ⟨name, -, rfl⟩ := mem_attributeChanges_iff.1 hc
  exact ⟨name, List.prefix_refl _⟩

/-- A change in a collection is within the path of some key, if what two items of a key differ in
is. -/
theorem within_of_mem_collectionChanges {α : Type} [Keyed α] {removed added : Shape k}
    {both : α → α → List (Change k)} {before after : Catalog α}
    (hboth : ∀ i x y, before.get? i = some x → after.get? i = some y →
      ∀ c ∈ both x y, c.Within (path.child i))
    (hc : c ∈ collectionChanges removed added path both before after) :
    ∃ i, c.Within (path.child i) := by
  obtain ⟨i, ⟨x, -, -, rfl⟩ | ⟨y, -, -, rfl⟩ | ⟨x, y, hx, hy, hc⟩⟩ := mem_collectionChanges_iff.1 hc
  · exact ⟨i, List.prefix_refl _⟩
  · exact ⟨i, List.prefix_refl _⟩
  · exact ⟨i, hboth i x y hx hy c hc⟩

/-! ### Items of one key -/

/-- What two children differ in is within the path of the first. -/
theorem within_of_mem_childPairChanges {repertoire : ChildRepertoire k} {x y : Child}
    (hc : c ∈ childPairChanges repertoire path (x, y)) : c.Within (path.child x.key) := by
  obtain ⟨_, h⟩ := within_of_mem_attributeChanges hc
  exact h.parent

/-- What two steps differ in is within the path of the first. -/
theorem within_of_mem_stepPairChanges {repertoire : StepRepertoire k} {x y : Step}
    (hc : c ∈ stepPairChanges repertoire path (x, y)) : c.Within (path.child x.key) := by
  rcases List.mem_append.1 hc with hc | hc
  · split at hc
    · cases hc
    · rw [List.mem_singleton.1 hc]
      exact List.prefix_refl _
  · obtain ⟨_, h⟩ := within_of_mem_attributeChanges hc
    exact h.parent

/-- What two data fields differ in is within the path of the first. -/
theorem within_of_mem_dataFieldPairChanges {x y : DataField} {c : Change .data}
    (hc : c ∈ dataFieldPairChanges path x y) : c.Within (path.child x.key) := by
  unfold dataFieldPairChanges at hc
  split at hc
  · cases hc
  · rw [List.mem_singleton.1 hc]
    exact List.prefix_refl _

/-- What two arrays differ in is within the path of the first. -/
theorem within_of_mem_arrayPairChanges {x y : DataArray} {c : Change .data}
    (hc : c ∈ arrayPairChanges path x y) : c.Within (path.child x.key) := by
  rw [arrayPairChanges, presenceChanges_eq] at hc
  obtain ⟨_, h⟩ :=
    within_of_mem_collectionChanges (fun _ _ _ _ _ _ h => absurd h List.not_mem_nil) hc
  exact h.parent.parent

/-- **What two forests of fields differ in is below the path of their level**, at any depth. -/
theorem within_of_mem_fieldChanges {before after : FieldForest} (hb : before.Ordered)
    (ha : after.Ordered) {c : Change .metadata} (hc : c ∈ fieldChanges path before after) :
    ∃ i, c.Within (path.child i) := by
  induction hb using FieldForest.Ordered.induction generalizing path after c with
  | step before hb ih =>
    rw [fieldChanges_eq path hb ha] at hc
    refine within_of_mem_collectionChanges (fun i x y hx hy d hd => ?_) hc
    have hkey : x.key = i := (Catalog.get?_eq_some_iff.1 hx).2
    rw [fieldPairChanges, hkey] at hd
    rcases List.mem_append.1 hd with hd | hd
    · obtain ⟨_, h⟩ := within_of_mem_attributeChanges hd
      exact h.parent
    · obtain ⟨_, h⟩ := ih i x hx (ha.below hy) hd
      exact h.parent

/-- What two fields of a metadata operation differ in is within the path of the first. -/
theorem within_of_mem_fieldPairChanges {x y : NestedField} (hx : x.children.Ordered)
    (hy : y.children.Ordered) {c : Change .metadata} (hc : c ∈ fieldPairChanges path x y) :
    c.Within (path.child x.key) := by
  rcases List.mem_append.1 hc with hc | hc
  · obtain ⟨_, h⟩ := within_of_mem_attributeChanges hc
    exact h.parent
  · obtain ⟨_, h⟩ := within_of_mem_fieldChanges hx hy hc
    exact h.parent

/-! ### Collections -/

/-- A change of a collection of children is within the path of some key. -/
theorem within_of_mem_childChanges {repertoire : ChildRepertoire k} {before after : Catalog Child}
    (hc : c ∈ childChanges repertoire path before after) : ∃ i, c.Within (path.child i) := by
  rw [childChanges_eq] at hc
  refine within_of_mem_collectionChanges (fun i x y hx _ d hd => ?_) hc
  have hkey : x.key = i := (Catalog.get?_eq_some_iff.1 hx).2
  exact hkey ▸ within_of_mem_childPairChanges hd

/-- A change of a collection of steps is within the path of some key. -/
theorem within_of_mem_stepChanges {repertoire : StepRepertoire k} {before after : Catalog Step}
    (hc : c ∈ stepChanges repertoire path before after) : ∃ i, c.Within (path.child i) := by
  rw [stepChanges_eq] at hc
  refine within_of_mem_collectionChanges (fun i x y hx _ d hd => ?_) hc
  have hkey : x.key = i := (Catalog.get?_eq_some_iff.1 hx).2
  exact hkey ▸ within_of_mem_stepPairChanges hd

/-- An item that appears or disappears is at the path of its key. -/
theorem within_of_mem_presenceChanges {α : Type} [Keyed α] {removed added : Shape k}
    {before after : Catalog α}
    (hc : c ∈ presenceChanges removed added path before.items after.items) :
    ∃ i, c.Within (path.child i) := by
  rw [presenceChanges_eq] at hc
  exact within_of_mem_collectionChanges (fun _ _ _ _ _ _ h => absurd h List.not_mem_nil) hc

/-- A change of the fields of a data entity is within the path of some key. -/
theorem within_of_mem_dataFieldChanges {before after : Catalog DataField} {c : Change .data}
    (hc : c ∈ dataFieldChanges path before after) : ∃ i, c.Within (path.child i) := by
  rw [dataFieldChanges_eq] at hc
  refine within_of_mem_collectionChanges (fun i x y hx _ d hd => ?_) hc
  have hkey : x.key = i := (Catalog.get?_eq_some_iff.1 hx).2
  exact hkey ▸ within_of_mem_dataFieldPairChanges hd

/-- A change of the arrays of a data entity is within the path of some key. -/
theorem within_of_mem_arrayChanges {before after : Catalog DataArray} {c : Change .data}
    (hc : c ∈ arrayChanges path before after) : ∃ i, c.Within (path.child i) := by
  rw [arrayChanges_eq] at hc
  refine within_of_mem_collectionChanges (fun i x y hx _ d hd => ?_) hc
  have hkey : x.key = i := (Catalog.get?_eq_some_iff.1 hx).2
  exact hkey ▸ within_of_mem_arrayPairChanges hd

/-- A change of annotations is one level below them. -/
theorem within_of_mem_annotationChanges {before after : Annotations} (hb : before.WellFormed)
    (ha : after.WellFormed) {c : Change .test} (hc : c ∈ annotationChanges path before after) :
    ∃ i, c.Within (path.child i) := by
  rcases (mem_annotationChanges_iff hb ha).1 hc with ⟨name, -, -, rfl⟩ | ⟨name, -, hc⟩
  · exact ⟨name, List.prefix_refl _⟩
  · obtain ⟨v, ⟨-, -, rfl⟩ | ⟨-, -, rfl⟩⟩ := mem_valueChanges_iff.1 hc
    · exact ⟨_, List.prefix_refl _⟩
    · exact ⟨_, List.prefix_refl _⟩

end Within

/-- **Every change of a body is below one of its collections**, hence at least two levels below the
entity. -/
theorem Body.within_of_mem_changes {path : Path} (k : Kind) {a b : Body k} {c : Change k}
    (hc : c ∈ Body.changes path k a b) : ∃ label i, c.Within ((path.child label).child i) := by
  cases k with
  | actionGroup =>
    rcases List.mem_append.1 hc with hc | hc
    · exact ⟨_, within_of_mem_childChanges hc⟩
    · exact ⟨_, within_of_mem_stepChanges hc⟩
  | test =>
    simp only [changes, Test.changes, List.mem_append] at hc
    rcases hc with (((hc | hc) | hc) | hc) | hc
    · exact ⟨_, within_of_mem_annotationChanges a.wellFormed b.wellFormed hc⟩
    · exact ⟨_, within_of_mem_stepChanges hc⟩
    · exact ⟨_, within_of_mem_stepChanges hc⟩
    · exact ⟨_, within_of_mem_stepChanges hc⟩
    · exact ⟨_, within_of_mem_presenceChanges hc⟩
  | page => exact ⟨_, within_of_mem_childChanges hc⟩
  | pageSection => exact ⟨_, within_of_mem_childChanges hc⟩
  | data =>
    simp only [changes, DataEntity.changes, List.mem_append] at hc
    rcases hc with ((hc | hc) | hc) | hc
    · exact ⟨_, within_of_mem_dataFieldChanges hc⟩
    · exact ⟨_, within_of_mem_arrayChanges hc⟩
    · exact ⟨_, within_of_mem_childChanges hc⟩
    · exact ⟨_, within_of_mem_childChanges hc⟩
  | metadata => exact ⟨_, within_of_mem_fieldChanges a.ordered b.ordered hc⟩

/-- **Every change of an entity is at the entity or below it.** -/
theorem Entity.within_of_mem_changes {name : String} {x y : Option (Entity k)} {c : Change k}
    (hc : c ∈ Entity.changes name x y) : c.Within (.root name) := by
  rcases x with _ | x <;> rcases y with _ | y
  · cases hc
  · rw [List.mem_singleton.1 hc]
    exact List.prefix_refl _
  · rw [List.mem_singleton.1 hc]
    exact List.prefix_refl _
  · rcases List.mem_append.1 hc with hc | hc
    · obtain ⟨_, h⟩ := within_of_mem_attributeChanges hc
      exact h.parent
    · obtain ⟨_, _, h⟩ := Body.within_of_mem_changes k hc
      exact h.parent.parent

end ReleaseDiff

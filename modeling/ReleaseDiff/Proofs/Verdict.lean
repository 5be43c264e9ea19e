import ReleaseDiff.Proofs.Compatibility
import ReleaseDiff.Proofs.Unchanged

set_option autoImplicit false

/-!
# The verdict, read off the trees

The verdict of a report is the worst severity among its records. Which severities occur can be read
off the two trees, collection by collection, without looking at a record.

## Main definitions

* `ReleaseDiff.Finds` — some change has a severity.

## Main results

* `ReleaseDiff.Verdict.worst_eq_some_iff` — the worst severity is the greatest that occurs.
* `ReleaseDiff.finds_collectionChanges_iff` — the severities of a collection.
* `ReleaseDiff.Body.finds_major_iff`, `ReleaseDiff.Body.finds_minor_iff` — the severities of the
  body of an entity.
* `ReleaseDiff.severity_classify` — the verdict of a comparison.
-/

namespace ReleaseDiff

variable {k : Kind}

/-! ## The worst severity -/

namespace Verdict

/-- Nothing was found just when there is no severity. -/
theorem worst_eq_none_iff {severities : List Severity} :
    worst severities = none ↔ severities = [] := by
  cases severities with
  | nil => exact iff_of_true rfl rfl
  | cons s rest =>
    refine iff_of_false (fun h => ?_) (List.cons_ne_nil s rest)
    rw [worst] at h
    cases hrest : worst rest with
    | none => rw [hrest] at h; cases h
    | some t => rw [hrest] at h; cases h

/-- The worst severity occurs, and no other is graver. -/
theorem worst_spec {severities : List Severity} {s : Severity} (h : worst severities = some s) :
    s ∈ severities ∧ ∀ t ∈ severities, t ≤ s := by
  have hmax : ∀ a b : Severity, (a.max b = a ∨ a.max b = b) ∧ a ≤ a.max b ∧ b ≤ a.max b := by
    intro a b
    cases a <;> cases b <;> decide
  have htrans : ∀ a b c : Severity, a ≤ b → b ≤ c → a ≤ c := fun _ _ _ => Nat.le_trans
  induction severities generalizing s with
  | nil => cases h
  | cons a rest ih =>
    rw [worst] at h
    cases hrest : worst rest with
    | none =>
      rw [hrest] at h
      cases h
      rw [worst_eq_none_iff.1 hrest]
      exact ⟨List.mem_singleton_self a, fun t ht => by
        rw [List.mem_singleton.1 ht]
        exact Nat.le_refl _⟩
    | some b =>
      rw [hrest] at h
      cases h
      obtain ⟨hb, hle⟩ := ih hrest
      obtain ⟨hcase, ha', hb'⟩ := hmax a b
      constructor
      · rcases hcase with hcase | hcase
        · rw [hcase]
          exact List.mem_cons_self
        · rw [hcase]
          exact List.mem_cons_of_mem a hb
      · intro t ht
        rcases List.mem_cons.1 ht with rfl | ht
        · exact ha'
        · exact htrans _ _ _ (hle t ht) hb'

/-- **The worst severity is the greatest that occurs.** -/
theorem worst_eq_some_iff {severities : List Severity} {s : Severity} :
    worst severities = some s ↔ s ∈ severities ∧ ∀ t ∈ severities, t ≤ s := by
  refine ⟨worst_spec, fun ⟨hs, hle⟩ => ?_⟩
  have hantisymm : ∀ a b : Severity, a ≤ b → b ≤ a → a = b := by
    intro a b
    cases a <;> cases b <;> decide
  cases h : worst severities with
  | none =>
    rw [worst_eq_none_iff.1 h] at hs
    cases hs
  | some t =>
    obtain ⟨ht, hle'⟩ := worst_spec h
    rw [hantisymm t s (hle t ht) (hle' s hs)]

/-- The verdict does not depend on the order of the severities. -/
theorem worst_eq_of_perm {ss ts : List Severity} (h : ss.Perm ts) :
    worst ss = worst ts := by
  refine Option.ext fun s => ?_
  rw [worst_eq_some_iff, worst_eq_some_iff]
  simp only [h.mem_iff]

variable {severities : List Severity}

/-- The verdict is major where a major severity occurs. -/
theorem worst_eq_major_iff : worst severities = some .major ↔ Severity.major ∈ severities := by
  rw [worst_eq_some_iff, and_iff_left_iff_imp]
  intro _ t _
  cases t <;> decide

/-- The verdict is minor where no major but a minor severity occurs. -/
theorem worst_eq_minor_iff :
    worst severities = some .minor ↔
      Severity.major ∉ severities ∧ Severity.minor ∈ severities := by
  rw [worst_eq_some_iff, and_comm]
  refine and_congr_left fun _ => ⟨fun h hmajor => absurd (h _ hmajor) (by decide), ?_⟩
  intro h t ht
  cases t with
  | patch => decide
  | minor => decide
  | major => exact absurd ht h

/-- The verdict is patch where something but nothing graver occurs. -/
theorem worst_eq_patch_iff :
    worst severities = some .patch ↔
      Severity.major ∉ severities ∧ Severity.minor ∉ severities ∧ severities ≠ [] := by
  rw [worst_eq_some_iff]
  constructor
  · rintro ⟨hpatch, h⟩
    refine ⟨fun hmajor => absurd (h _ hmajor) (by decide),
      fun hminor => absurd (h _ hminor) (by decide), ?_⟩
    rintro rfl
    cases hpatch
  · rintro ⟨hmajor, hminor, hne⟩
    have hpatch : ∀ t ∈ severities, t = .patch := by
      intro t ht
      cases t with
      | patch => rfl
      | minor => exact absurd ht hminor
      | major => exact absurd ht hmajor
    obtain ⟨t, ht⟩ := List.exists_mem_of_ne_nil severities hne
    refine ⟨hpatch t ht ▸ ht, fun u hu => ?_⟩
    rw [hpatch u hu]
    decide

end Verdict

/-! ## Severities of collections -/

/-- The severity of a shape. -/
def Shape.severity (k : Kind) (s : Shape k) : Severity := (Shape.row k s).severity

/-- **Some change has a severity.** -/
def Finds (s : Severity) (changes : List (Change k)) : Prop :=
  ∃ c ∈ changes, Shape.severity k c.shape = s

section Finds

variable {s : Severity} {path : Path}

/-- Without a change there is no severity. -/
@[simp] theorem finds_nil : ¬Finds s ([] : List (Change k)) := by
  rintro ⟨c, hc, -⟩
  cases hc

/-- One change has one severity. -/
@[simp] theorem finds_singleton {c : Change k} : Finds s [c] ↔ Shape.severity k c.shape = s := by
  simp [Finds]

/-- What some part of the changes has, the changes have. -/
@[simp] theorem finds_append {cs ds : List (Change k)} :
    Finds s (cs ++ ds) ↔ Finds s cs ∨ Finds s ds := by
  simp only [Finds, List.mem_append, or_and_right, exists_or]

/-- The severities of changes do not depend on their order. -/
theorem finds_congr_perm {cs ds : List (Change k)} (h : cs.Perm ds) : Finds s cs ↔ Finds s ds := by
  simp only [Finds, h.mem_iff]

/-- The severities of a comparison key by key are those of the keys. -/
theorem finds_pointwise_iff {α : Type} [Keyed α] {c d : Catalog α}
    {f : String → Option α → Option α → List (Change k)} (hf : ∀ i, f i none none = []) :
    Finds s (Catalog.pointwise c d f) ↔ ∃ i, Finds s (f i (c.get? i) (d.get? i)) := by
  simp only [Finds, Catalog.mem_pointwise_iff hf]
  constructor
  · rintro ⟨c, ⟨i, hc⟩, hs⟩
    exact ⟨i, c, hc, hs⟩
  · rintro ⟨i, c, hc, hs⟩
    exact ⟨c, ⟨i, hc⟩, hs⟩

/-- **The severities of a collection**: that of a removal where an item is lost, that of an addition
where one is gained, and those that items of one key give cause for. -/
theorem finds_collectionChanges_iff {α : Type} [Keyed α] {removed added : Shape k}
    {both : α → α → List (Change k)} {R : α → α → Prop} {before after : Catalog α}
    (hboth : ∀ i x y, before.get? i = some x → after.get? i = some y →
      (Finds s (both x y) ↔ R x y)) :
    Finds s (collectionChanges removed added path both before after) ↔
      (Shape.severity k removed = s ∧ before.Loses after) ∨
      (Shape.severity k added = s ∧ after.Loses before) ∨ Catalog.SomePair R before after := by
  rw [finds_congr_perm (collectionChanges_perm removed added path both before after),
    finds_pointwise_iff fun _ => rfl]
  exact Catalog.exists_key_iff
    (P := fun i x y => Finds s (itemChanges removed added path both i x y)) (fun _ => finds_nil)
    (fun _ _ => finds_singleton) (fun _ _ => finds_singleton) hboth

/-- The severities of items that only appear and disappear. -/
theorem finds_presenceChanges_iff {α : Type} [Keyed α] {removed added : Shape k}
    {before after : Catalog α} :
    Finds s (presenceChanges removed added path before.items after.items) ↔
      (Shape.severity k removed = s ∧ before.Loses after) ∨
      (Shape.severity k added = s ∧ after.Loses before) := by
  rw [presenceChanges_eq, finds_collectionChanges_iff (R := fun _ _ => False)
    fun _ _ _ _ _ => iff_of_false finds_nil not_false]
  simp

/-- The severities of attributes are those of the names whose values differ. -/
theorem finds_attributeChanges_iff {shape : String → Shape k} {target : String → String}
    {before after : Attributes} :
    Finds s (attributeChanges shape path target before after) ↔
      ∃ name, Shape.severity k (shape name) = s ∧ before.value? name ≠ after.value? name := by
  rw [attributeChanges_eq_map]
  simp only [Finds, List.mem_map, Attributes.mem_changedNames_iff]
  constructor
  · rintro ⟨_, ⟨name, hne, rfl⟩, hs⟩
    exact ⟨name, hs, hne⟩
  · rintro ⟨name, hs, hne⟩
    exact ⟨_, ⟨name, hne, rfl⟩, hs⟩

/-- Where every attribute has one shape, its severity occurs just when some value differs. -/
theorem finds_attributeChanges_const_iff {shape : Shape k} {target : String → String}
    {before after : Attributes} :
    Finds s (attributeChanges (fun _ => shape) path target before after) ↔
      Shape.severity k shape = s ∧ before ≠ after := by
  rw [finds_attributeChanges_iff, exists_and_left, ← not_forall]
  refine and_congr_right fun _ => not_congr ⟨Attributes.ext_value?, fun h _ => h ▸ rfl⟩

/-- The severities of a collection of children. -/
theorem finds_childChanges_iff {repertoire : ChildRepertoire k} {before after : Catalog Child} :
    Finds s (childChanges repertoire path before after) ↔
      (Shape.severity k repertoire.removed = s ∧ before.Loses after) ∨
      (Shape.severity k repertoire.added = s ∧ after.Loses before) ∨
      Shape.severity k repertoire.changed = s ∧
        Catalog.SomePair (fun x y => x.attributes ≠ y.attributes) before after := by
  have hpair : ∀ x y : Child, Finds s (childPairChanges repertoire path (x, y)) ↔
      Shape.severity k repertoire.changed = s ∧ x.attributes ≠ y.attributes :=
    fun _ _ => finds_attributeChanges_const_iff
  rw [childChanges_eq, finds_collectionChanges_iff fun _ x y _ _ => hpair x y,
    Catalog.somePair_and_left]

end Finds

/-! ## Steps -/

namespace StepRepertoire

/-- **The severities of a repertoire of steps**, which action groups and tests have in common. -/
structure Graded (repertoire : StepRepertoire k) : Prop where
  /-- A step that appears is an addition. -/
  added : Shape.severity k repertoire.added = .minor
  /-- A step that disappears is a break. -/
  removed : Shape.severity k repertoire.removed = .major
  /-- An attribute of a step is a tweak. -/
  changed : Shape.severity k repertoire.changed = .patch
  /-- What a step does is a tweak. -/
  typeChanged : Shape.severity k repertoire.typeChanged = .patch
  /-- Another action group is a break. -/
  refChanged : Shape.severity k repertoire.refChanged = .major

variable {repertoire : StepRepertoire k} {path : Path} {before after : Catalog Step}

/-- A step that both releases have is a break just when it calls another action group. -/
theorem Graded.finds_major_pair (h : repertoire.Graded) (x y : Step) :
    Finds .major (stepPairChanges repertoire path (x, y)) ↔ x.Redirects y := by
  have htype : ¬Finds .major (if x.actionType = y.actionType then []
      else [⟨repertoire.typeChanged, path.child x.key, x.key⟩] : List (Change k)) := by
    split
    · exact finds_nil
    · rw [finds_singleton, h.typeChanged]
      decide
  have hshape : ∀ name, Shape.severity k (repertoire.ofAttribute y name) = .major ↔
      name = Step.refAttribute ∧ y.actionType = Step.actionGroupType := by
    intro name
    have hcalls : y.invokesActionGroup = true ↔ y.actionType = Step.actionGroupType := beq_iff_eq
    rw [ofAttribute, ← hcalls]
    split
    · rename_i hname
      exact iff_of_true h.refChanged hname
    · rename_i hname
      rw [h.changed]
      exact iff_of_false (by decide) hname
  rw [stepPairChanges, finds_append, or_iff_right htype, finds_attributeChanges_iff]
  simp only [hshape, and_assoc, exists_eq_left]
  rfl

/-- A step that both releases have is never an addition. -/
theorem Graded.finds_minor_pair (h : repertoire.Graded) (x y : Step) :
    ¬Finds .minor (stepPairChanges repertoire path (x, y)) := by
  rw [stepPairChanges, finds_append, finds_attributeChanges_iff]
  rintro (htype | ⟨name, hname, -⟩)
  · split at htype
    · exact finds_nil htype
    · rw [finds_singleton, h.typeChanged] at htype
      cases htype
  · rw [ofAttribute] at hname
    split at hname
    · rw [h.refChanged] at hname
      cases hname
    · rw [h.changed] at hname
      cases hname

/-- **A collection of steps is a break just when the steps break.** -/
theorem Graded.finds_major_iff (h : repertoire.Graded) :
    Finds .major (stepChanges repertoire path before after) ↔ Step.Breaks before after := by
  rw [stepChanges_eq, finds_collectionChanges_iff fun _ x y _ _ => h.finds_major_pair x y,
    h.removed, h.added]
  simp [Step.Breaks]

/-- **A collection of steps is an addition just when a step is gained.** -/
theorem Graded.finds_minor_iff (h : repertoire.Graded) :
    Finds .minor (stepChanges repertoire path before after) ↔ after.Loses before := by
  rw [stepChanges_eq, finds_collectionChanges_iff (R := fun _ _ => False)
    fun _ x y _ _ => iff_of_false (h.finds_minor_pair x y) not_false, h.removed, h.added]
  simp

end StepRepertoire

section Collections

variable {s : Severity} {path : Path}

/-! ## Collections of a data entity -/

/-- The severities of the fields of a data entity. -/
theorem finds_dataFieldChanges_iff {before after : Catalog DataField} :
    Finds s (dataFieldChanges path before after) ↔
      (.major = s ∧ before.Loses after) ∨ (.minor = s ∧ after.Loses before) ∨
        .patch = s ∧ Catalog.SomePair (fun x y => x.value ≠ y.value) before after := by
  have hpair : ∀ x y : DataField, Finds s (dataFieldPairChanges path x y) ↔
      .patch = s ∧ x.value ≠ y.value := by
    intro x y
    rw [dataFieldPairChanges]
    split
    · rename_i hvalue
      exact iff_of_false finds_nil fun h => h.2 hvalue
    · rename_i hvalue
      rw [finds_singleton]
      exact (and_iff_left hvalue).symm
  rw [dataFieldChanges_eq, finds_collectionChanges_iff fun _ x y _ _ => hpair x y,
    Catalog.somePair_and_left]
  rfl

/-- The severities of the arrays of a data entity: within an array, a text is never a break. -/
theorem finds_arrayChanges_iff {before after : Catalog DataArray} :
    Finds s (arrayChanges path before after) ↔
      (.major = s ∧ before.Loses after) ∨ (.minor = s ∧ after.Loses before) ∨
        .minor = s ∧ Catalog.SomePair (fun x y => x.items.Loses y.items ∨ y.items.Loses x.items)
          before after := by
  have hpair : ∀ x y : DataArray, Finds s (arrayPairChanges path x y) ↔
      .minor = s ∧ (x.items.Loses y.items ∨ y.items.Loses x.items) := by
    intro x y
    rw [arrayPairChanges, finds_presenceChanges_iff, and_or_left]
    rfl
  rw [arrayChanges_eq, finds_collectionChanges_iff fun _ x y _ _ => hpair x y,
    Catalog.somePair_and_left]
  rfl

/-! ## Fields of a metadata operation -/

/-- A level loses a field just when its catalog does. -/
theorem FieldForest.loses_catalog_iff {f g : FieldForest} (hf : f.Ordered) (hg : g.Ordered) :
    (f.catalog hf).Loses (g.catalog hg) ↔ f.Loses g := by
  simp only [Catalog.Loses, Loses, Catalog.contains, get?_catalog, Option.isSome_iff_exists,
    Option.isSome_eq_false_iff, Option.isNone_iff_eq_none, exists_and_right]

/-- **The grave severities of a forest of fields** are those of the levels that both forests have.

**Proof sketch.** Induction over the earlier forest. An attribute of a field is a tweak, so beyond
the level itself only the levels below the fields of both forests matter. -/
theorem finds_fieldChanges_iff (hs : s ≠ .patch) {before after : FieldForest}
    (hb : before.Ordered) (ha : after.Ordered) :
    Finds s (fieldChanges path before after) ↔
      FieldForest.SomeLevel (fun f g => (.major = s ∧ f.Loses g) ∨ (.minor = s ∧ g.Loses f))
        before after := by
  induction hb using FieldForest.Ordered.induction generalizing path after with
  | step before hb ih =>
    have hpair : ∀ i x y, before.find? i = some x → after.find? i = some y →
        (Finds s (fieldPairChanges path x y) ↔
          FieldForest.SomeLevel (fun f g => (.major = s ∧ f.Loses g) ∨ (.minor = s ∧ g.Loses f))
            x.children y.children) := by
      intro i x y hx hy
      rw [fieldPairChanges, finds_append, ih i x hx (ha.below hy), finds_attributeChanges_const_iff]
      exact or_iff_right fun h => hs h.1.symm
    rw [fieldChanges_eq path hb ha, finds_collectionChanges_iff hpair,
      FieldForest.loses_catalog_iff, FieldForest.loses_catalog_iff, FieldForest.someLevel_iff,
      or_assoc]
    rfl

/-! ## Annotations -/

/-- The values of one annotation; none where it is absent or a single text. -/
def AnnotationContent.collected : Option AnnotationContent → Catalog String
  | some (.values set) => set
  | _ => ∅

/-- The severities of a set of values. -/
theorem finds_valueChanges_iff {name : String} {before after : Catalog String} :
    Finds s (valueChanges path name before after) ↔
      (.major = s ∧ before.Loses after) ∨ (.minor = s ∧ after.Loses before) := by
  have hpart : ∀ (shape : Shape .test) (c d : Catalog String),
      Finds s ((c.difference d).map fun v => (⟨shape, valuePath path name v, v⟩ : Change .test)) ↔
        Shape.severity .test shape = s ∧ c.Loses d := by
    intro shape c d
    simp only [Finds, List.mem_map, Catalog.mem_difference_iff, Catalog.Loses]
    constructor
    · rintro ⟨_, ⟨v, hv, rfl⟩, hs⟩
      exact ⟨hs, v, hv⟩
    · rintro ⟨hs, v, hv⟩
      exact ⟨_, ⟨v, hv, rfl⟩, hs⟩
  rw [valueChanges, SetDifference.of, finds_append, hpart, hpart]
  rfl

/-- **The grave severities of one annotation** are those of its values, given that it is not a set
of values in one release and a single text in the other. -/
theorem finds_contentChanges_iff (hs : s ≠ .patch) {name : String} {x y : Option AnnotationContent}
    (hxy : ∀ set text, ¬(x = some (.values set) ∧ y = some (.scalar text)))
    (hyx : ∀ set text, ¬(y = some (.values set) ∧ x = some (.scalar text))) :
    Finds s (contentChanges path name x y) ↔
      (.major = s ∧ (AnnotationContent.collected x).Loses (AnnotationContent.collected y)) ∨
      (.minor = s ∧ (AnnotationContent.collected y).Loses (AnnotationContent.collected x)) := by
  have hadded : Shape.severity .test .annotationAdded ≠ s := hs.symm
  have hchanged : Shape.severity .test .annotationChanged ≠ s := hs.symm
  rcases x with _ | (text | old) <;> rcases y with _ | (text' | new)
  · simp [contentChanges, AnnotationContent.collected, Catalog.not_loses_empty]
  · simp [contentChanges, AnnotationContent.collected, Catalog.not_loses_empty, hadded]
  · exact finds_valueChanges_iff
  · simp [contentChanges, AnnotationContent.collected, Catalog.not_loses_empty, hchanged]
  · by_cases htext : text = text' <;>
      simp [contentChanges, AnnotationContent.collected, Catalog.not_loses_empty, hchanged, htext]
  · exact absurd ⟨rfl, rfl⟩ (hyx new text)
  · exact finds_valueChanges_iff
  · exact absurd ⟨rfl, rfl⟩ (hxy old text')
  · exact finds_valueChanges_iff

/-- **The grave severities of well-formed annotations** are those of the values of `group`. -/
theorem finds_annotationChanges_iff (hs : s ≠ .patch) {before after : Annotations}
    (hb : before.WellFormed) (ha : after.WellFormed) :
    Finds s (annotationChanges path before after) ↔
      (.major = s ∧ (before.valuesSoFar "group").Loses (after.valuesSoFar "group")) ∨
      (.minor = s ∧ (after.valuesSoFar "group").Loses (before.valuesSoFar "group")) := by
  have hclash : ∀ {a b : Annotations}, a.WellFormed → b.WellFormed → ∀ name set text,
      ¬(a.content? name = some (.values set) ∧ b.content? name = some (.scalar text)) := by
    rintro a b hwa hwb name set text ⟨hset, htext⟩
    have hname := (hwa.content_values hset).2 ⟨set, rfl⟩
    obtain ⟨_, hno⟩ := (hwb.content_values htext).1 hname
    cases hno
  have hcontent : ∀ name, Finds s (contentChanges path name (before.content? name)
      (after.content? name)) ↔
        (.major = s ∧ (before.valuesSoFar name).Loses (after.valuesSoFar name)) ∨
        (.minor = s ∧ (after.valuesSoFar name).Loses (before.valuesSoFar name)) :=
    fun name => finds_contentChanges_iff hs (hclash hb ha name) (hclash ha hb name)
  -- Under any other name the set of values is empty and loses nothing.
  have hscalar : ∀ {a b : Annotations}, a.WellFormed → ∀ name,
      (a.valuesSoFar name).Loses (b.valuesSoFar name) → name = "group" := by
    intro a b hw name hloses
    rw [Annotations.valuesSoFar] at hloses
    split at hloses
    · rename_i set hset
      exact List.mem_singleton.1 ((hw.content_values hset).2 ⟨set, rfl⟩)
    · exact absurd hloses (Catalog.not_loses_empty _)
  rw [annotationChanges_eq, finds_pointwise_iff fun _ => rfl]
  refine (exists_congr hcontent).trans ⟨?_, fun h => ⟨"group", h⟩⟩
  rintro ⟨name, h⟩
  obtain rfl : name = "group" := by
    rcases h with ⟨-, h⟩ | ⟨-, h⟩
    · exact hscalar hb name h
    · exact hscalar ha name h
  exact h

end Collections

/-! ## Bodies and entities -/

/-- The steps of an action group are graded. -/
theorem ActionGroup.graded :
    (⟨.actionAdded, .actionRemoved, .actionChanged, .actionTypeChanged, .actionGroupRefChanged⟩ :
      StepRepertoire .actionGroup).Graded :=
  ⟨rfl, rfl, rfl, rfl, rfl⟩

/-- The steps of a test and of its hooks are graded. -/
theorem Test.graded : Test.stepRepertoire.Graded := ⟨rfl, rfl, rfl, rfl, rfl⟩

/-- **A change of a body is major just when the body breaks.** -/
theorem Body.finds_major_iff {path : Path} (k : Kind) (a b : Body k) :
    Finds .major (Body.changes path k a b) ↔ Body.Breaks k a b := by
  cases k with
  | actionGroup =>
    rw [changes, ActionGroup.changes, finds_append, finds_childChanges_iff,
      ActionGroup.graded.finds_major_iff]
    simp +decide [Breaks, ActionGroup.Breaks, or_assoc]
  | test =>
    rw [changes, Test.changes]
    simp only [finds_append, Test.graded.finds_major_iff, finds_presenceChanges_iff,
      finds_annotationChanges_iff (s := .major) (by decide) a.wellFormed b.wellFormed]
    simp +decide [Breaks, Test.Breaks, Test.groups]
    tauto
  | page =>
    rw [changes, Page.changes, finds_childChanges_iff]
    simp +decide [Breaks]
  | pageSection =>
    rw [changes, PageSection.changes, finds_childChanges_iff]
    simp +decide [Breaks]
  | data =>
    rw [changes, DataEntity.changes]
    simp only [finds_append, finds_dataFieldChanges_iff, finds_arrayChanges_iff,
      finds_childChanges_iff]
    simp +decide [Breaks, DataEntity.Breaks, or_assoc]
  | metadata =>
    rw [changes, Operation.changes, finds_fieldChanges_iff (by decide) a.ordered b.ordered]
    simp +decide [Breaks]

/-- **A change of a body is minor just when the body is extended.** -/
theorem Body.finds_minor_iff {path : Path} (k : Kind) (a b : Body k) :
    Finds .minor (Body.changes path k a b) ↔ Body.Extends k a b := by
  cases k with
  | actionGroup =>
    rw [changes, ActionGroup.changes, finds_append, finds_childChanges_iff,
      ActionGroup.graded.finds_minor_iff]
    simp +decide [Extends]
  | test =>
    rw [changes, Test.changes]
    simp only [finds_append, Test.graded.finds_minor_iff, finds_presenceChanges_iff,
      finds_annotationChanges_iff (s := .minor) (by decide) a.wellFormed b.wellFormed]
    simp +decide [Extends, Test.Extends, Test.groups]
    tauto
  | page =>
    rw [changes, Page.changes, finds_childChanges_iff]
    simp +decide [Extends]
  | pageSection =>
    rw [changes, PageSection.changes, finds_childChanges_iff]
    simp +decide [Extends]
  | data =>
    rw [changes, DataEntity.changes]
    simp only [finds_append, finds_dataFieldChanges_iff, finds_arrayChanges_iff,
      finds_childChanges_iff]
    simp +decide [Extends, DataEntity.Extends]
    tauto
  | metadata =>
    rw [changes, Operation.changes, finds_fieldChanges_iff (by decide) a.ordered b.ordered]
    simp +decide [Extends]

/-- **The grave severities of a kind** are those of entities that are lost or gained, and those of
the bodies of entities that both releases have. An attribute of an entity is a tweak. -/
theorem exists_record_iff {s : Severity} (hs : s ≠ .patch) {R : Body k → Body k → Prop}
    (hbody : ∀ path a b, Finds s (Body.changes path k a b) ↔ R a b) {old new : Catalog (Entity k)} :
    (∃ name, ∃ r ∈ Entity.records name (old.get? name) (new.get? name), r.severity = s) ↔
      (.major = s ∧ old.Loses new) ∨ (.minor = s ∧ new.Loses old) ∨
        Catalog.SomePair (fun x y => R x.body y.body) old new := by
  have hremoved : Shape.severity k (Shape.entityRemoved k) = .major := by cases k <;> rfl
  have hadded : Shape.severity k (Shape.entityAdded k) = .minor := by cases k <;> rfl
  have hattribute : Shape.severity k (Shape.attributeChanged k) = .patch := by cases k <;> rfl
  have hrecords : ∀ (name : String) (x y : Option (Entity k)),
      (∃ r ∈ Entity.records name x y, r.severity = s) ↔ Finds s (Entity.changes name x y) := by
    intro name x y
    simp only [Entity.records, List.mem_map, Finds, exists_exists_and_eq_and]
    rfl
  simp only [hrecords]
  refine Catalog.exists_key_iff (P := fun name x y => Finds s (Entity.changes name x y))
    (fun _ => finds_nil) (fun _ _ => ?_) (fun _ _ => ?_) fun name x y _ _ => ?_
  · rw [Entity.changes, finds_singleton, hremoved]
  · rw [Entity.changes, finds_singleton, hadded]
  · rw [Entity.changes, finds_append, hbody, finds_attributeChanges_const_iff, hattribute]
    exact or_iff_right fun h => hs h.1.symm

/-! ## The verdict of a comparison -/

section Comparison

variable {config : Config} {before after : Tree}

/-- A grave severity occurs in a report just when some compared kind gives cause for it. -/
theorem exists_record_classify_iff {s : Severity} (hs : s ≠ .patch)
    {R : (k : Kind) → Body k → Body k → Prop}
    (hbody : ∀ k path a b, Finds s (Body.changes path k a b) ↔ R k a b) :
    (∃ r ∈ (classify config before after).records, r.severity = s) ↔
      SomeKind (fun k old new => (.major = s ∧ old.Loses new) ∨ (.minor = s ∧ new.Loses old) ∨
        Catalog.SomePair (fun x y => R k x.body y.body) old new) config before after := by
  simp only [mem_records_classify_iff, SomeKind, ← exists_record_iff hs (hbody _)]
  constructor
  · rintro ⟨r, ⟨k, hk, old, new, hb, ha, name, hr⟩, h⟩
    exact ⟨k, hk, old, new, hb, ha, name, r, hr, h⟩
  · rintro ⟨k, hk, old, new, hb, ha, name, r, hr, h⟩
    exact ⟨r, ⟨k, hk, old, new, hb, ha, name, hr⟩, h⟩

/-- A report has a record just when the releases differ. -/
theorem records_classify_ne_nil_iff :
    (classify config before after).records ≠ [] ↔ Differing config before after := by
  simp only [Differing, SomeKind, ← entityRecords_eq_nil_iff]
  constructor
  · intro h
    obtain ⟨r, hr⟩ := List.exists_mem_of_ne_nil _ h
    rw [(records_classify_perm config before after).mem_iff, List.mem_flatMap] at hr
    obtain ⟨k, hk, hr⟩ := hr
    obtain ⟨old, new, hb, ha, hr⟩ := mem_records_compareKind_iff.1 hr
    exact ⟨k, hk, old, new, hb, ha, List.ne_nil_of_mem hr⟩
  · rintro ⟨k, hk, old, new, hb, ha, h⟩
    obtain ⟨r, hr⟩ := List.exists_mem_of_ne_nil _ h
    refine List.ne_nil_of_mem (a := r) ?_
    rw [(records_classify_perm config before after).mem_iff, List.mem_flatMap]
    exact ⟨k, hk, mem_records_compareKind_iff.2 ⟨old, new, hb, ha, hr⟩⟩

/-- **The verdict of a comparison, read off the two trees.** Among the enabled kinds that both
releases could build, it is major where the later release breaks the earlier one, else minor where
it extends it, else patch where the two differ, else nothing.

**Proof sketch.** The verdict is the worst severity of a record. A major record comes from a removed
entity or from a body that breaks, a minor one from an added entity or from a body that is extended,
and there is no record at all just when the releases hold equal entities. -/
theorem severity_classify (config : Config) (before after : Tree) :
    ((classify config before after).severity = some .major ↔ Breaking config before after) ∧
    ((classify config before after).severity = some .minor ↔
      ¬Breaking config before after ∧ Extending config before after) ∧
    ((classify config before after).severity = some .patch ↔
      ¬Breaking config before after ∧ ¬Extending config before after ∧
        Differing config before after) ∧
    ((classify config before after).severity = none ↔
      ¬Breaking config before after ∧ ¬Extending config before after ∧
        ¬Differing config before after) := by
  set found := (config.enabledKinds.map fun k => compareKind k before after).flatMap
    KindOutcome.records with hfound
  have hsorted : (classify config before after).records.Perm found := List.mergeSort_perm _ _
  have hseverity : (classify config before after).severity =
      Verdict.worst (found.map Record.severity) := rfl
  have hmem : ∀ s, s ∈ found.map Record.severity ↔
      ∃ r ∈ (classify config before after).records, r.severity = s := by
    intro s
    simp only [List.mem_map, hsorted.mem_iff]
  have hmajor : Severity.major ∈ found.map Record.severity ↔ Breaking config before after := by
    rw [hmem, exists_record_classify_iff (by decide) fun k _ => Body.finds_major_iff k]
    simp [Breaking]
  have hminor : Severity.minor ∈ found.map Record.severity ↔ Extending config before after := by
    rw [hmem, exists_record_classify_iff (by decide) fun k _ => Body.finds_minor_iff k]
    simp [Extending]
  have hnil : found.map Record.severity = [] ↔ ¬Differing config before after := by
    rw [← records_classify_ne_nil_iff, not_not, List.map_eq_nil_iff, eq_nil_iff_of_perm hsorted]
  -- A break or an extension is a record, so neither is possible where nothing differs.
  rw [hseverity, Verdict.worst_eq_major_iff, Verdict.worst_eq_minor_iff,
    Verdict.worst_eq_patch_iff, Verdict.worst_eq_none_iff, ne_eq, hmajor, hminor, hnil, not_not]
  refine ⟨Iff.rfl, Iff.rfl, Iff.rfl, fun h => ⟨fun hb => ?_, fun he => ?_, h⟩, fun h => h.2.2⟩
  · rw [← hmajor, hnil.2 h] at hb
    cases hb
  · rw [← hminor, hnil.2 h] at he
    cases he

end Comparison

end ReleaseDiff

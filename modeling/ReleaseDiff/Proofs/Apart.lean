import ReleaseDiff.Proofs.Places

set_option autoImplicit false

/-!
# Changes at different places

No two changes of a comparison have the same shape at the same place. Keys of a collection are
distinct, so changes of different items are below different names; the changes of one item are on
different levels or of different shapes.

## Main definitions

* `ReleaseDiff.Change.place` — the names on the way to a change, and its shape.
* `ReleaseDiff.Apart` — no two changes have one place.
* `ReleaseDiff.LaidOut` — changes that are apart, each below one of some labels.

## Main results

* `ReleaseDiff.apart_collectionChanges` — the changes of a collection are apart.
* `ReleaseDiff.apart_fieldChanges` — the same for forests of fields, at any depth.
* `ReleaseDiff.Body.apart_changes` — the same for bodies of every kind.
* `ReleaseDiff.Entity.apart_changes` — the changes of an entity are apart.
-/

namespace ReleaseDiff

variable {k : Kind}

/-! ## Places -/

/-- **The place of a change**: the names on the way to it, and its shape. -/
def Change.place (c : Change k) : List String × Shape k := (c.path.segments, c.shape)

/-- **Changes are apart** if no two of them have one place. -/
def Apart (cs : List (Change k)) : Prop :=
  cs.Pairwise fun c d => c.place ≠ d.place

section Places

variable {path : Path} {c d : Change k} {cs ds : List (Change k)}

theorem Change.place_ne_of_shape_ne (h : c.shape ≠ d.shape) : c.place ≠ d.place :=
  fun heq => h (congrArg Prod.snd heq)

theorem Change.place_ne_of_path_ne (h : c.path.segments ≠ d.path.segments) : c.place ≠ d.place :=
  fun heq => h (congrArg Prod.fst heq)

/-- What is below a change is at another place. -/
theorem Change.Within.place_ne_of_below {s : String} (h : d.Within (c.path.child s)) :
    c.place ≠ d.place := by
  refine Change.place_ne_of_path_ne fun heq => ?_
  have hlength := h.length_le
  rw [← heq, Path.child, List.length_append, List.length_singleton] at hlength
  omega

/-- What is below different names is at different places. -/
theorem Change.Within.place_ne {s t : String} (hc : c.Within (path.child s))
    (hd : d.Within (path.child t)) (hne : s ≠ t) : c.place ≠ d.place := by
  refine Change.place_ne_of_path_ne fun heq => hne ?_
  have hc' : d.Within (path.child s) := by
    rw [Change.Within, ← heq]
    exact hc
  exact hc'.child_unique hd

theorem Apart.nil : Apart ([] : List (Change k)) := List.Pairwise.nil

theorem Apart.singleton (c : Change k) : Apart [c] := List.pairwise_singleton _ _

/-- At most one change is apart from itself. -/
theorem Apart.ite {q : Prop} {_ : Decidable q} (c : Change k) : Apart (if q then [] else [c]) := by
  split
  · exact Apart.nil
  · exact Apart.singleton c

theorem Apart.append (hc : Apart cs) (hd : Apart ds)
    (hne : ∀ c ∈ cs, ∀ d ∈ ds, c.place ≠ d.place) : Apart (cs ++ ds) :=
  List.pairwise_append.2 ⟨hc, hd, hne⟩

theorem apart_congr_perm (h : cs.Perm ds) : Apart cs ↔ Apart ds :=
  h.pairwise_iff fun hne => hne.symm

/-- Changes found key by key are apart if those of one key are, and those of different keys are at
different places. -/
theorem apart_pointwise {α : Type} [Keyed α] {before after : Catalog α}
    {f : String → Option α → Option α → List (Change k)}
    (hsame : ∀ i, Apart (f i (before.get? i) (after.get? i)))
    (hother : ∀ i j, i ≠ j → ∀ c ∈ f i (before.get? i) (after.get? i),
      ∀ d ∈ f j (before.get? j) (after.get? j), c.place ≠ d.place) :
    Apart (Catalog.pointwise before after f) :=
  List.pairwise_flatMap.2 ⟨fun i _ => hsame i,
    (Catalog.nodup_keysOfBoth before after).imp fun hne => hother _ _ hne⟩

/-! ### Collections -/

/-- **The changes of a collection are apart** if those of two items of one key are, and are found
below that key. -/
theorem apart_collectionChanges {α : Type} [Keyed α] {removed added : Shape k}
    {both : α → α → List (Change k)} {before after : Catalog α}
    (hwithin : ∀ i x y, before.get? i = some x → after.get? i = some y →
      ∀ c ∈ both x y, c.Within (path.child i))
    (hboth : ∀ i x y, before.get? i = some x → after.get? i = some y → Apart (both x y)) :
    Apart (collectionChanges removed added path both before after) := by
  have hkey : ∀ i, ∀ c ∈ itemChanges removed added path both i (before.get? i) (after.get? i),
      c.Within (path.child i) := by
    intro i c hc
    cases hx : before.get? i with
    | none =>
      cases hy : after.get? i with
      | none => rw [hx, hy] at hc; cases hc
      | some y =>
        rw [hx, hy] at hc
        rw [List.mem_singleton.1 hc]
        exact List.prefix_refl _
    | some x =>
      cases hy : after.get? i with
      | none =>
        rw [hx, hy] at hc
        rw [List.mem_singleton.1 hc]
        exact List.prefix_refl _
      | some y =>
        rw [hx, hy] at hc
        exact hwithin i x y hx hy c hc
  rw [apart_congr_perm (collectionChanges_perm removed added path both before after)]
  refine apart_pointwise (fun i => ?_) fun i j hne c hc d hd =>
    (hkey i c hc).place_ne (hkey j d hd) hne
  cases hx : before.get? i with
  | none => cases after.get? i <;> simp [itemChanges, Apart]
  | some x =>
    cases hy : after.get? i with
    | none => exact Apart.singleton _
    | some y => exact hboth i x y hx hy

/-- Changes of attributes are apart. -/
theorem apart_attributeChanges {shape : String → Shape k} {target : String → String}
    {before after : Attributes} : Apart (attributeChanges shape path target before after) := by
  have hnames : (Attributes.changedNames before after).Nodup :=
    (Catalog.nodup_keysOfBoth before after).filter _
  rw [attributeChanges_eq_map]
  refine List.pairwise_map.2 (hnames.imp fun hne => Change.place_ne_of_path_ne fun heq => hne ?_)
  simpa [Path.child] using heq

/-- Items that only appear and disappear give changes that are apart. -/
theorem apart_presenceChanges {α : Type} [Keyed α] {removed added : Shape k}
    {before after : Catalog α} :
    Apart (presenceChanges removed added path before.items after.items) := by
  rw [presenceChanges_eq]
  exact apart_collectionChanges (fun _ _ _ _ _ _ hc => absurd hc List.not_mem_nil)
    fun _ _ _ _ _ => Apart.nil

/-- Changes of children are apart. -/
theorem apart_childChanges {repertoire : ChildRepertoire k} {before after : Catalog Child} :
    Apart (childChanges repertoire path before after) := by
  rw [childChanges_eq]
  refine apart_collectionChanges (fun i x y hx _ c hc => ?_) fun _ _ _ _ _ => apart_attributeChanges
  have hkey : x.key = i := (Catalog.get?_eq_some_iff.1 hx).2
  exact hkey ▸ within_of_mem_childPairChanges hc

/-- Changes of steps are apart: that of an action type is at the step, those of attributes below. -/
theorem apart_stepChanges {repertoire : StepRepertoire k} {before after : Catalog Step} :
    Apart (stepChanges repertoire path before after) := by
  rw [stepChanges_eq]
  refine apart_collectionChanges (fun i x y hx _ c hc => ?_) fun i x y _ _ => ?_
  · have hkey : x.key = i := (Catalog.get?_eq_some_iff.1 hx).2
    exact hkey ▸ within_of_mem_stepPairChanges hc
  · refine (Apart.ite _).append apart_attributeChanges fun c hc d hd => ?_
    obtain ⟨name, hname⟩ := within_of_mem_attributeChanges hd
    split at hc
    · cases hc
    · rw [List.mem_singleton.1 hc]
      exact hname.place_ne_of_below

/-- Changes of data fields are apart. -/
theorem apart_dataFieldChanges {before after : Catalog DataField} :
    Apart (dataFieldChanges path before after) := by
  rw [dataFieldChanges_eq]
  refine apart_collectionChanges (fun i x y hx _ c hc => ?_) fun _ _ _ _ _ => Apart.ite _
  have hkey : x.key = i := (Catalog.get?_eq_some_iff.1 hx).2
  exact hkey ▸ within_of_mem_dataFieldPairChanges hc

/-- Changes of arrays are apart. -/
theorem apart_arrayChanges {before after : Catalog DataArray} :
    Apart (arrayChanges path before after) := by
  rw [arrayChanges_eq]
  refine apart_collectionChanges (fun i x y hx _ c hc => ?_) fun _ _ _ _ _ => apart_presenceChanges
  have hkey : x.key = i := (Catalog.get?_eq_some_iff.1 hx).2
  exact hkey ▸ within_of_mem_arrayPairChanges hc

/-- Attributes of fields that differ are found below a field of the level. -/
theorem within_of_mem_fieldChanges_of_changed {before after : FieldForest} (hb : before.Ordered)
    (ha : after.Ordered) {c : Change .metadata} (hc : c ∈ fieldChanges path before after)
    (hshape : c.shape = .childChanged) : ∃ i j, c.Within ((path.child i).child j) := by
  rw [fieldChanges_eq path hb ha] at hc
  obtain ⟨i, ⟨x, -, -, rfl⟩ | ⟨y, -, -, rfl⟩ | ⟨x, y, hx, hy, hc⟩⟩ := mem_collectionChanges_iff.1 hc
  · cases hshape
  · cases hshape
  · refine ⟨x.key, ?_⟩
    rcases List.mem_append.1 hc with hc | hc
    · exact within_of_mem_attributeChanges hc
    · exact within_of_mem_fieldChanges (hb.below hx) (ha.below hy) hc

/-- **Changes of a forest of fields are apart**, at any depth.

**Proof sketch.** Induction over the earlier forest. An attribute and a field below may share their
name: then the one change is that of an attribute, and such changes are a level deeper in what is
found below. -/
theorem apart_fieldChanges {before after : FieldForest} (hb : before.Ordered) (ha : after.Ordered) :
    Apart (fieldChanges path before after) := by
  induction hb using FieldForest.Ordered.induction generalizing path after with
  | step before hb ih =>
    rw [fieldChanges_eq path hb ha]
    refine apart_collectionChanges (fun i x y hx hy c hc => ?_) fun i x y hx hy => ?_
    · have hkey : x.key = i := (Catalog.get?_eq_some_iff.1 hx).2
      exact hkey ▸ within_of_mem_fieldPairChanges (hb.below hx) (ha.below hy) hc
    · refine apart_attributeChanges.append (ih i x hx (ha.below hy)) fun c hc d hd => ?_
      obtain ⟨name, -, rfl⟩ := mem_attributeChanges_iff.1 hc
      by_cases hshape : d.shape = .childChanged
      · obtain ⟨i', j, hwithin⟩ :=
          within_of_mem_fieldChanges_of_changed (hb.below hx) (ha.below hy) hd hshape
        refine Change.place_ne_of_path_ne fun heq => ?_
        have hlength := hwithin.length_le
        rw [← heq] at hlength
        simp [Path.child] at hlength
      · exact Change.place_ne_of_shape_ne fun heq => hshape heq.symm

/-- Changes of a set of values are apart. -/
theorem apart_valueChanges {name : String} {before after : Catalog String} :
    Apart (valueChanges path name before after) := by
  have hvalues : ∀ {c d : Catalog String} {shape : Shape .test},
      Apart ((c.difference d).map fun v => (⟨shape, valuePath path name v, v⟩ : Change .test)) := by
    intro c d shape
    have hitems : c.items.Nodup := Catalog.keys_eq_items c ▸ Catalog.nodup_keys c
    have hnodup : (c.difference d).Nodup := hitems.filter _
    refine List.pairwise_map.2 (hnodup.imp fun hne => Change.place_ne_of_path_ne fun heq => hne ?_)
    simpa [valuePath, Path.child] using heq
  refine hvalues.append hvalues fun c hc d hd => Change.place_ne_of_shape_ne ?_
  obtain ⟨v, -, rfl⟩ := List.mem_map.1 hc
  obtain ⟨w, -, rfl⟩ := List.mem_map.1 hd
  exact fun heq => by cases heq

/-- Changes of one annotation are apart. -/
theorem apart_contentChanges {name : String} {x y : Option AnnotationContent} :
    Apart (contentChanges path name x y) := by
  rcases x with _ | (text | old) <;> rcases y with _ | (text' | new)
  · exact Apart.nil
  · exact Apart.singleton _
  · exact apart_valueChanges
  · exact Apart.singleton _
  · exact Apart.ite _
  · exact Apart.singleton _
  · exact apart_valueChanges
  · exact Apart.singleton _
  · exact apart_valueChanges

/-- **Changes of well-formed annotations are apart.** -/
theorem apart_annotationChanges {before after : Annotations} (hb : before.WellFormed)
    (ha : after.WellFormed) : Apart (annotationChanges path before after) := by
  have hscalar : ∀ q : Prop, [Decidable q] →
      (if q then TestShape.annotationAdded else TestShape.annotationChanged) ∉
        [TestShape.groupRemoved, TestShape.groupAdded] := by
    intro q _
    split <;> decide
  have hvalue : ∀ {name : String} {c : Change .test} {x y : Catalog String},
      c ∈ valueChanges path name x y →
        c.shape ∈ [TestShape.groupRemoved, TestShape.groupAdded] := by
    intro name c x y hc
    obtain ⟨v, ⟨-, -, rfl⟩ | ⟨-, -, rfl⟩⟩ := mem_valueChanges_iff.1 hc
    · exact List.mem_cons_self
    · exact List.mem_cons_of_mem _ List.mem_cons_self
  rw [annotationChanges_eq]
  refine apart_pointwise (fun name => apart_contentChanges) fun name name' hne c hc d hd => ?_
  rcases (mem_contentChanges_iff hb ha).1 hc with ⟨hname, -, rfl⟩ | ⟨hname, hc⟩
  · rcases (mem_contentChanges_iff hb ha).1 hd with ⟨hname', -, rfl⟩ | ⟨hname', hd⟩
    · exact Change.place_ne_of_path_ne fun heq => hne (by simpa [Path.child] using heq)
    · exact Change.place_ne_of_shape_ne fun heq => hscalar _ (heq ▸ hvalue hd)
  · rcases (mem_contentChanges_iff hb ha).1 hd with ⟨hname', -, rfl⟩ | ⟨hname', hd⟩
    · exact Change.place_ne_of_shape_ne fun heq => hscalar _ (heq ▸ hvalue hc)
    -- Only one name may recur.
    · exact absurd ((List.mem_singleton.1 hname).trans (List.mem_singleton.1 hname').symm) hne

end Places

/-! ## Bodies and entities -/

/-- **Changes laid out below a path**: they are apart, and each is below one of some labels. -/
structure LaidOut (path : Path) (labels : List String) (cs : List (Change k)) : Prop where
  /-- No two changes have one place. -/
  apart : Apart cs
  /-- Each change is below one of the labels. -/
  within : ∀ c ∈ cs, ∃ label ∈ labels, c.Within (path.child label)

namespace LaidOut

variable {path : Path} {cs ds : List (Change k)}

/-- Changes below one label. -/
theorem single {label : String} (h : Apart cs)
    (hwithin : ∀ c ∈ cs, ∃ i, c.Within ((path.child label).child i)) : LaidOut path [label] cs := by
  refine ⟨h, fun c hc => ⟨label, List.mem_singleton_self _, ?_⟩⟩
  obtain ⟨_, hi⟩ := hwithin c hc
  exact hi.parent

/-- Changes below different labels. -/
theorem append {labels others : List String} (hc : LaidOut path labels cs)
    (hd : LaidOut path others ds) (hne : ∀ label ∈ labels, label ∉ others) :
    LaidOut path (labels ++ others) (cs ++ ds) := by
  refine ⟨hc.apart.append hd.apart fun c hmem d hmem' => ?_, fun c hmem => ?_⟩
  · obtain ⟨s, hs, hcs⟩ := hc.within c hmem
    obtain ⟨t, ht, hdt⟩ := hd.within d hmem'
    exact hcs.place_ne hdt fun heq => hne s hs (heq ▸ ht)
  · rcases List.mem_append.1 hmem with hmem | hmem
    · obtain ⟨s, hs, hcs⟩ := hc.within c hmem
      exact ⟨s, List.mem_append_left _ hs, hcs⟩
    · obtain ⟨t, ht, hdt⟩ := hd.within c hmem
      exact ⟨t, List.mem_append_right _ ht, hdt⟩

end LaidOut

section Collections

variable {path : Path} {label : String}

theorem laidOut_childChanges {repertoire : ChildRepertoire k} {before after : Catalog Child} :
    LaidOut path [label] (childChanges repertoire (path.child label) before after) :=
  .single apart_childChanges fun _ => within_of_mem_childChanges

theorem laidOut_stepChanges {repertoire : StepRepertoire k} {before after : Catalog Step} :
    LaidOut path [label] (stepChanges repertoire (path.child label) before after) :=
  .single apart_stepChanges fun _ => within_of_mem_stepChanges

theorem laidOut_presenceChanges {α : Type} [Keyed α] {removed added : Shape k}
    {before after : Catalog α} : LaidOut path [label]
      (presenceChanges removed added (path.child label) before.items after.items) :=
  .single apart_presenceChanges fun _ => within_of_mem_presenceChanges

theorem laidOut_annotationChanges {before after : Annotations} (hb : before.WellFormed)
    (ha : after.WellFormed) :
    LaidOut path [label] (annotationChanges (path.child label) before after) :=
  .single (apart_annotationChanges hb ha) fun _ => within_of_mem_annotationChanges hb ha

theorem laidOut_dataFieldChanges {before after : Catalog DataField} :
    LaidOut path [label] (dataFieldChanges (path.child label) before after) :=
  .single apart_dataFieldChanges fun _ => within_of_mem_dataFieldChanges

theorem laidOut_arrayChanges {before after : Catalog DataArray} :
    LaidOut path [label] (arrayChanges (path.child label) before after) :=
  .single apart_arrayChanges fun _ => within_of_mem_arrayChanges

end Collections

/-- **The changes of a body are apart.** Its collections have different labels. -/
theorem Body.apart_changes {path : Path} (k : Kind) {a b : Body k} :
    Apart (Body.changes path k a b) := by
  cases k with
  | actionGroup => exact (laidOut_childChanges.append laidOut_stepChanges (by decide)).apart
  | test =>
    exact (((((laidOut_annotationChanges a.wellFormed b.wellFormed).append
      laidOut_stepChanges (by decide)).append laidOut_stepChanges (by decide)).append
      laidOut_stepChanges (by decide)).append laidOut_presenceChanges (by decide)).apart
  | page => exact apart_childChanges
  | pageSection => exact apart_childChanges
  | data =>
    exact (((laidOut_dataFieldChanges.append laidOut_arrayChanges (by decide)).append
      laidOut_childChanges (by decide)).append laidOut_childChanges (by decide)).apart
  | metadata => exact apart_fieldChanges a.ordered b.ordered

/-- **The changes of an entity are apart**: no two of them have one shape and one path, name by
name. Attributes are one level below the entity, the items of its body at least two. -/
theorem Entity.apart_changes (name : String) (x y : Option (Entity k)) :
    Apart (Entity.changes name x y) := by
  rcases x with _ | x <;> rcases y with _ | y
  · exact Apart.nil
  · exact Apart.singleton _
  · exact Apart.singleton _
  · refine apart_attributeChanges.append (Body.apart_changes k) fun c hc d hd => ?_
    obtain ⟨_, -, rfl⟩ := mem_attributeChanges_iff.1 hc
    obtain ⟨label, i, hwithin⟩ := Body.within_of_mem_changes k hd
    refine Change.place_ne_of_path_ne fun heq => ?_
    have hlength := hwithin.length_le
    rw [← heq] at hlength
    simp [Path.child] at hlength

end ReleaseDiff

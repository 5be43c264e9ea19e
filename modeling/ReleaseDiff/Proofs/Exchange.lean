import Mathlib.Data.Multiset.Bind
import ReleaseDiff.Proofs.Counterpart

set_option autoImplicit false

/-!
# Exchanging the releases

Comparing two releases the other way round finds the counterparts of the same changes: the records
of both reports can be paired off, and the failures are the same with the sides exchanged.

## Main definitions

* `ReleaseDiff.Paired` — two lists can be paired off by a relation.
* `ReleaseDiff.Failure.exchange` — a failure of the other side.

## Main results

* `ReleaseDiff.paired_collectionChanges` — a collection, compared both ways.
* `ReleaseDiff.paired_fieldChanges` — forests of fields, at any depth.
* `ReleaseDiff.Body.paired_changes` — the bodies of every kind.
* `ReleaseDiff.classify_exchange` — the reports of two trees, compared both ways.
-/

namespace ReleaseDiff

variable {k : Kind}

/-! ## Pairing off -/

/-- **Two lists can be paired off**: some bijection between their entries relates each entry of the
first to its image. -/
def Paired {α β : Type} (R : α → β → Prop) (as : List α) (bs : List β) : Prop :=
  Multiset.Rel R (as : Multiset α) (bs : Multiset β)

namespace Paired

variable {α β γ δ : Type} {R : α → β → Prop} {as as' : List α} {bs bs' : List β}

/-- Empty lists are paired off. -/
theorem nil : Paired R [] [] := Multiset.Rel.zero

/-- Related entries are paired off. -/
theorem singleton {a : α} {b : β} (h : R a b) : Paired R [a] [b] :=
  Multiset.Rel.cons h Multiset.Rel.zero

/-- Lists are paired off part by part. -/
theorem append (h : Paired R as bs) (h' : Paired R as' bs') :
    Paired R (as ++ as') (bs ++ bs') := by
  unfold Paired
  rw [← Multiset.coe_add, ← Multiset.coe_add]
  exact Multiset.Rel.add h h'

/-- Lists are paired off part by part, whichever part comes first. -/
theorem append_swap (h : Paired R as bs) (h' : Paired R as' bs') :
    Paired R (as ++ as') (bs' ++ bs) := by
  unfold Paired
  rw [← Multiset.coe_add, ← Multiset.coe_add, add_comm (bs' : Multiset β)]
  exact Multiset.Rel.add h h'

/-- What is paired off by a relation is paired off by a weaker one. -/
theorem mono {S : α → β → Prop} (h : Paired R as bs) (hRS : ∀ a b, R a b → S a b) :
    Paired S as bs :=
  Multiset.Rel.mono h fun a _ b _ => hRS a b

/-- The order of entries plays no part. -/
theorem of_perm (ha : as.Perm as') (hb : bs.Perm bs') (h : Paired R as' bs') : Paired R as bs := by
  unfold Paired
  rw [Multiset.coe_eq_coe.2 ha, Multiset.coe_eq_coe.2 hb]
  exact h

/-- Lists are paired off item by item. -/
theorem flatMap {items : List γ} {f : γ → List α} {g : γ → List β}
    (h : ∀ x ∈ items, Paired R (f x) (g x)) : Paired R (items.flatMap f) (items.flatMap g) := by
  induction items with
  | nil => exact nil
  | cons x rest ih =>
    rw [List.flatMap_cons, List.flatMap_cons]
    exact (h x List.mem_cons_self).append (ih fun y hy => h y (List.mem_cons_of_mem x hy))

/-- Lists that come from the same items are paired off item by item. -/
theorem map_same {items : List γ} {f : γ → α} {g : γ → β} (h : ∀ x ∈ items, R (f x) (g x)) :
    Paired R (items.map f) (items.map g) := by
  rw [List.map_eq_flatMap, List.map_eq_flatMap]
  exact flatMap fun x hx => singleton (h x hx)

/-- The images of lists that are paired off are paired off. -/
theorem map {S : γ → δ → Prop} {f : α → γ} {g : β → δ} (h : Paired R as bs)
    (hRS : ∀ a b, R a b → S (f a) (g b)) : Paired S (as.map f) (bs.map g) := by
  unfold Paired
  rw [← Multiset.map_coe, ← Multiset.map_coe, Multiset.rel_map]
  exact Multiset.Rel.mono h fun a _ b _ => hRS a b

/-- Comparisons key by key of the same two catalogs, one way and the other, are paired off key by
key. -/
theorem pointwise {ι : Type} [Keyed ι] {c d : Catalog ι}
    {f : String → Option ι → Option ι → List α} {g : String → Option ι → Option ι → List β}
    (h : ∀ i, Paired R (f i (c.get? i) (d.get? i)) (g i (d.get? i) (c.get? i))) :
    Paired R (Catalog.pointwise c d f) (Catalog.pointwise d c g) := by
  rw [Catalog.pointwise, Catalog.pointwise, Catalog.keysOfBoth_comm d c]
  exact flatMap fun i _ => h i

end Paired

/-! ## Collections -/

section Collections

variable {swapped : Change k → Change k → Prop} {path : Path}

/-- Changes of mirrored shapes at one place are counterparts. -/
theorem Change.counterpart_of_mirror {s t : Shape k} (h : Shape.mirror? k s = some t) (path : Path)
    (target : String) : Change.Counterpart swapped ⟨s, path, target⟩ ⟨t, path, target⟩ :=
  ⟨rfl, rfl, Or.inl h⟩

/-- **A collection, compared both ways**: additions and removals are counterparts, and what is found
for items of one key is paired off on its own. -/
theorem paired_collectionChanges {α : Type} [Keyed α] {removed added : Shape k}
    {both : α → α → List (Change k)} {before after : Catalog α}
    (hremoved : Shape.mirror? k removed = some added)
    (hadded : Shape.mirror? k added = some removed)
    (hboth : ∀ i x y, before.get? i = some x → after.get? i = some y →
      Paired (Change.Counterpart swapped) (both x y) (both y x)) :
    Paired (Change.Counterpart swapped)
      (collectionChanges removed added path both before after)
      (collectionChanges removed added path both after before) := by
  refine Paired.of_perm (collectionChanges_perm _ _ _ _ _ _) (collectionChanges_perm _ _ _ _ _ _) ?_
  refine Paired.pointwise fun i => ?_
  cases hb : before.get? i with
  | none =>
    cases ha : after.get? i with
    | none => exact Paired.nil
    | some y => exact Paired.singleton (Change.counterpart_of_mirror hadded _ _)
  | some x =>
    cases ha : after.get? i with
    | none => exact Paired.singleton (Change.counterpart_of_mirror hremoved _ _)
    | some y => exact hboth i x y hb ha

/-- Items that only appear and disappear, compared both ways. -/
theorem paired_presenceChanges {α : Type} [Keyed α] {removed added : Shape k}
    {before after : Catalog α} (hremoved : Shape.mirror? k removed = some added)
    (hadded : Shape.mirror? k added = some removed) :
    Paired (Change.Counterpart swapped)
      (presenceChanges removed added path before.items after.items)
      (presenceChanges removed added path after.items before.items) := by
  rw [presenceChanges_eq, presenceChanges_eq]
  exact paired_collectionChanges hremoved hadded fun _ _ _ _ _ => Paired.nil

/-- Attributes, compared both ways: they are paired off name by name. -/
theorem paired_attributeChanges {R : Change k → Change k → Prop} {f g : String → Shape k}
    {p q : Path} {t u : String → String} {before after : Attributes}
    (h : ∀ name, before.value? name ≠ after.value? name →
      R ⟨f name, p.child name, t name⟩ ⟨g name, q.child name, u name⟩) :
    Paired R (attributeChanges f p t before after) (attributeChanges g q u after before) := by
  rw [attributeChanges_eq_map, attributeChanges_eq_map, Attributes.changedNames_comm after before]
  exact Paired.map_same fun name hname => h name (Attributes.mem_changedNames_iff.1 hname)

/-- Children, compared both ways. -/
theorem paired_childChanges {repertoire : ChildRepertoire k} {before after : Catalog Child}
    (hremoved : Shape.mirror? k repertoire.removed = some repertoire.added)
    (hadded : Shape.mirror? k repertoire.added = some repertoire.removed)
    (hchanged : Shape.mirror? k repertoire.changed = some repertoire.changed) :
    Paired (Change.Counterpart swapped) (childChanges repertoire path before after)
      (childChanges repertoire path after before) := by
  rw [childChanges_eq, childChanges_eq]
  refine paired_collectionChanges hremoved hadded fun i x y hx hy => ?_
  have hkey : x.key = y.key := Catalog.key_eq_of_get? hx hy
  refine paired_attributeChanges fun name _ => ?_
  rw [hkey]
  exact Change.counterpart_of_mirror hchanged _ _

/-- **Steps, compared both ways.** An attribute that differs is a change in both directions, of the
shape that the later step of each direction asks for. -/
theorem paired_stepChanges {repertoire : StepRepertoire k} {before after : Catalog Step}
    (hremoved : Shape.mirror? k repertoire.removed = some repertoire.added)
    (hadded : Shape.mirror? k repertoire.added = some repertoire.removed)
    (htype : Shape.mirror? k repertoire.typeChanged = some repertoire.typeChanged)
    (hswapped : ∀ c d, Step.Swapped repertoire.changed repertoire.refChanged path before after c d →
      swapped c d) :
    Paired (Change.Counterpart swapped) (stepChanges repertoire path before after)
      (stepChanges repertoire path after before) := by
  have hshape : ∀ (s : Step) (name : String), repertoire.ofAttribute s name =
      if name = Step.refAttribute ∧ s.actionType = Step.actionGroupType
        then repertoire.refChanged else repertoire.changed := by
    intro s name
    simp [StepRepertoire.ofAttribute, Step.invokesActionGroup]
  rw [stepChanges_eq, stepChanges_eq]
  refine paired_collectionChanges hremoved hadded fun i x y hx hy => ?_
  have hxkey : x.key = i := (Catalog.get?_eq_some_iff.1 hx).2
  have hykey : y.key = i := (Catalog.get?_eq_some_iff.1 hy).2
  refine Paired.append ?_ (paired_attributeChanges fun name hname => ?_)
  · by_cases hxy : x.actionType = y.actionType
    · rw [if_pos hxy, if_pos hxy.symm]
      exact Paired.nil
    · rw [if_neg hxy, if_neg fun h => hxy h.symm, hxkey, hykey]
      exact Paired.singleton (Change.counterpart_of_mirror htype _ _)
  · rw [hxkey, hykey]
    refine ⟨rfl, rfl, Or.inr (hswapped _ _ ?_)⟩
    exact ⟨i, x, y, name, hx, hy, hname, rfl, hshape y name, hshape x name⟩

/-! ## Data entities and metadata operations -/

/-- Fields of a data entity, compared both ways. -/
theorem paired_dataFieldChanges {swapped : Change .data → Change .data → Prop} {path : Path}
    {before after : Catalog DataField} :
    Paired (Change.Counterpart swapped) (dataFieldChanges path before after)
      (dataFieldChanges path after before) := by
  rw [dataFieldChanges_eq, dataFieldChanges_eq]
  refine paired_collectionChanges rfl rfl fun i x y hx hy => ?_
  have hkey : x.key = y.key := Catalog.key_eq_of_get? hx hy
  unfold dataFieldPairChanges
  by_cases hxy : x.value = y.value
  · rw [if_pos hxy, if_pos hxy.symm]
    exact Paired.nil
  · rw [if_neg hxy, if_neg fun h => hxy h.symm, hkey]
    exact Paired.singleton (Change.counterpart_of_mirror rfl _ _)

/-- Arrays of a data entity, compared both ways. -/
theorem paired_arrayChanges {swapped : Change .data → Change .data → Prop} {path : Path}
    {before after : Catalog DataArray} :
    Paired (Change.Counterpart swapped) (arrayChanges path before after)
      (arrayChanges path after before) := by
  rw [arrayChanges_eq, arrayChanges_eq]
  refine paired_collectionChanges rfl rfl fun i x y hx hy => ?_
  have hkey : x.key = y.key := Catalog.key_eq_of_get? hx hy
  rw [arrayPairChanges, arrayPairChanges, hkey]
  exact paired_presenceChanges rfl rfl

/-- **Forests of fields, compared both ways**, at any depth.

**Proof sketch.** Induction over the earlier forest: each level is a collection, and below a field
of both forests the attributes and the next level are paired off. -/
theorem paired_fieldChanges {swapped : Change .metadata → Change .metadata → Prop} {path : Path}
    {before after : FieldForest} (hb : before.Ordered) (ha : after.Ordered) :
    Paired (Change.Counterpart swapped) (fieldChanges path before after)
      (fieldChanges path after before) := by
  induction hb using FieldForest.Ordered.induction generalizing path after with
  | step before hb ih =>
    rw [fieldChanges_eq path hb ha, fieldChanges_eq path ha hb]
    refine paired_collectionChanges rfl rfl fun i x y hx hy => ?_
    have hkey : x.key = y.key := Catalog.key_eq_of_get? hx hy
    unfold fieldPairChanges
    rw [hkey]
    refine Paired.append (paired_attributeChanges fun name _ => ?_) (ih i x hx (ha.below hy))
    exact Change.counterpart_of_mirror rfl _ _

/-! ## Annotations -/

/-- Sets of values, compared both ways. -/
theorem paired_valueChanges {swapped : Change .test → Change .test → Prop} {path : Path}
    {name : String} {before after : Catalog String} :
    Paired (Change.Counterpart swapped) (valueChanges path name before after)
      (valueChanges path name after before) := by
  rw [valueChanges, valueChanges]
  refine Paired.append_swap ?_ ?_
  · exact Paired.map_same fun v _ => Change.counterpart_of_mirror rfl _ _
  · exact Paired.map_same fun v _ => Change.counterpart_of_mirror rfl _ _

/-- **Annotations, compared both ways.** Values of a set are paired off as additions and removals. A
single text that differs is one change in both directions, of the shape that the earlier release of
each direction asks for. -/
theorem paired_annotationChanges {swapped : Change .test → Change .test → Prop} {path : Path}
    {before after : Annotations} (hb : before.WellFormed) (ha : after.WellFormed)
    (hswapped : ∀ c d, Annotations.Swapped path before after c d → swapped c d) :
    Paired (Change.Counterpart swapped) (annotationChanges path before after)
      (annotationChanges path after before) := by
  rw [annotationChanges_eq, annotationChanges_eq]
  refine Paired.pointwise fun name => ?_
  -- What the contents under the name can be follows from whether the name may recur.
  have hx : ∀ content, before.content? name = some content → _ := fun _ => hb.content_values
  have hy : ∀ content, after.content? name = some content → _ := fun _ => ha.content_values
  have hsingle : ∀ {s t : Shape .test}, name ∉ Annotations.multiValued →
      before.content? name ≠ after.content? name →
      s = (if before.content? name = none then .annotationAdded else .annotationChanged) →
      t = (if after.content? name = none then .annotationAdded else .annotationChanged) →
      Paired (Change.Counterpart swapped) [⟨s, path.child name, name⟩]
        [⟨t, path.child name, name⟩] :=
    fun hname hne hs ht =>
      Paired.singleton ⟨rfl, rfl, Or.inr (hswapped _ _ ⟨name, hname, hne, rfl, hs, ht⟩)⟩
  change Paired _ (contentChanges path name (before.content? name) (after.content? name))
    (contentChanges path name (after.content? name) (before.content? name))
  generalize before.content? name = x at hx hsingle ⊢
  generalize after.content? name = y at hy hsingle ⊢
  rcases x with _ | (text | old) <;> rcases y with _ | (text' | new)
  · exact Paired.nil
  · exact hsingle (by simpa using hy _ rfl) (by simp) rfl rfl
  · exact paired_valueChanges
  · exact hsingle (by simpa using hx _ rfl) (by simp) rfl rfl
  · have htexts : ∀ u v, contentChanges path name (some (.scalar u)) (some (.scalar v)) =
        if u = v then [] else [⟨.annotationChanged, path.child name, name⟩] := by
      intro u v
      simp [contentChanges]
    rw [htexts, htexts]
    by_cases htext : text = text'
    · rw [if_pos htext, if_pos htext.symm]
      exact Paired.nil
    · rw [if_neg htext, if_neg fun h => htext h.symm]
      exact hsingle (by simpa using hx _ rfl) (by simpa using htext) rfl rfl
  -- A set against a single text: the name would have to recur and not to recur.
  · simp_all
  · exact paired_valueChanges
  · simp_all
  · exact paired_valueChanges

end Collections

/-! ## Bodies and entities -/

/-- **Bodies, compared both ways.** -/
theorem Body.paired_changes {path : Path} (k : Kind) (a b : Body k) :
    Paired (Change.Counterpart (Body.Swapped path k a b)) (Body.changes path k a b)
      (Body.changes path k b a) := by
  cases k with
  | actionGroup =>
    rw [changes, changes, ActionGroup.changes, ActionGroup.changes]
    exact (paired_childChanges rfl rfl rfl).append
      (paired_stepChanges rfl rfl rfl fun _ _ h => h)
  | test =>
    rw [changes, changes, Test.changes, Test.changes]
    refine Paired.append (Paired.append (Paired.append (Paired.append ?_ ?_) ?_) ?_) ?_
    · exact paired_annotationChanges a.wellFormed b.wellFormed fun _ _ h => Or.inl h
    · exact paired_stepChanges rfl rfl rfl fun _ _ h => Or.inr (Or.inl h)
    · exact paired_stepChanges rfl rfl rfl fun _ _ h => Or.inr (Or.inr (Or.inl h))
    · exact paired_stepChanges rfl rfl rfl fun _ _ h => Or.inr (Or.inr (Or.inr h))
    · exact paired_presenceChanges rfl rfl
  | page =>
    rw [changes, changes, Page.changes, Page.changes]
    exact paired_childChanges rfl rfl rfl
  | pageSection =>
    rw [changes, changes, PageSection.changes, PageSection.changes]
    exact paired_childChanges rfl rfl rfl
  | data =>
    rw [changes, changes, DataEntity.changes, DataEntity.changes]
    exact ((paired_dataFieldChanges.append paired_arrayChanges).append
      (paired_childChanges rfl rfl rfl)).append (paired_childChanges rfl rfl rfl)
  | metadata =>
    rw [changes, changes, Operation.changes, Operation.changes]
    exact paired_fieldChanges a.ordered b.ordered

/-- **The records of one name, compared both ways.** -/
theorem Entity.paired_records (before after : Tree) (k : Kind) (name : String) :
    Paired (Record.Counterpart before after)
      (Entity.records name (before.entity? k name) (after.entity? k name))
      (Entity.records name (after.entity? k name) (before.entity? k name)) := by
  have hremoved : Shape.mirror? k (Shape.entityRemoved k) = some (Shape.entityAdded k) := by
    cases k <;> rfl
  have hadded : Shape.mirror? k (Shape.entityAdded k) = some (Shape.entityRemoved k) := by
    cases k <;> rfl
  have hattribute :
      Shape.mirror? k (Shape.attributeChanged k) = some (Shape.attributeChanged k) := by
    cases k <;> rfl
  set swapped : Change k → Change k → Prop := fun c d =>
    ∃ a b, before.entity? k name = some a ∧ after.entity? k name = some b ∧
      Body.Swapped (.root name) k a.body b.body c d with hswapped
  have hchanges : Paired (Change.Counterpart swapped)
      (Entity.changes name (before.entity? k name) (after.entity? k name))
      (Entity.changes name (after.entity? k name) (before.entity? k name)) := by
    cases hb : before.entity? k name with
    | none =>
      cases ha : after.entity? k name with
      | none => exact Paired.nil
      | some b => exact Paired.singleton (Change.counterpart_of_mirror hadded _ _)
    | some a =>
      cases ha : after.entity? k name with
      | none => exact Paired.singleton (Change.counterpart_of_mirror hremoved _ _)
      | some b =>
        rw [Entity.changes, Entity.changes]
        refine Paired.append (paired_attributeChanges fun m _ => ?_) ?_
        · exact Change.counterpart_of_mirror hattribute _ _
        · refine (Body.paired_changes k a.body b.body).mono fun c d h => ?_
          exact ⟨h.1, h.2.1, h.2.2.imp_right fun h => ⟨a, b, hb, ha, h⟩⟩
  exact hchanges.map fun c d h => ⟨k, name, c, d, rfl, rfl, h⟩

/-! ## Reports -/

/-- The other side. -/
def Side.other : Side → Side
  | .before => .after
  | .after => .before

/-- **A failure of the other side**, for the same reason. -/
def Failure.exchange (f : Failure) : Failure := { f with side := f.side.other }

/-- The records of a kind, compared both ways. -/
theorem paired_records_compareKind (k : Kind) (before after : Tree) :
    Paired (Record.Counterpart before after) (compareKind k before after).records
      (compareKind k after before).records := by
  cases hb : before k with
  | error m =>
    cases ha : after k <;> rw [compareKind, compareKind, hb, ha] <;> exact Paired.nil
  | ok old =>
    cases ha : after k with
    | error m =>
      rw [compareKind, compareKind, hb, ha]
      exact Paired.nil
    | ok new =>
      rw [compareKind_of_ok hb ha, compareKind_of_ok ha hb]
      refine Paired.of_perm (entityRecords_perm old new) (entityRecords_perm new old) ?_
      refine Paired.pointwise fun name => ?_
      rw [← Tree.entity?_of_ok hb, ← Tree.entity?_of_ok ha]
      exact Entity.paired_records before after k name

/-- The failures of a kind, compared both ways. -/
theorem failures_compareKind_exchange (k : Kind) (before after : Tree) :
    (compareKind k after before).failures.Perm
      ((compareKind k before after).failures.map Failure.exchange) := by
  have hdefects : ((kindDefects k after before).map fun d => Failure.of d.1 d.2.1).Perm
      (((kindDefects k before after).map fun d => Failure.of d.1 d.2.1).map Failure.exchange) := by
    simp only [kindDefects, List.map_append, List.map_map]
    exact List.perm_append_comm
  cases hb : before k with
  | error m =>
    cases ha : after k <;> simpa [compareKind, hb, ha, KindOutcome.failures] using hdefects
  | ok old =>
    cases ha : after k with
    | error m => simpa [compareKind, hb, ha, KindOutcome.failures] using hdefects
    | ok new => simp [compareKind, hb, ha, KindOutcome.failures]

/-- **The reports of two trees, compared both ways.** The records of both reports are paired off as
counterparts of one kind and one path, and the failures of one are those of the other with the sides
exchanged.

**Proof sketch.** Both reports compare the same kinds, and in every kind the same names. Under a
name, both directions visit the same collections, and in every collection the same keys. -/
theorem classify_exchange (config : Config) (before after : Tree) :
    Multiset.Rel
      (fun r s => r.kind = s.kind ∧ r.path = s.path ∧ Record.Counterpart before after r s)
      ((classify config before after).records : Multiset Record)
      ((classify config after before).records : Multiset Record) ∧
    (classify config after before).failures.Perm
      ((classify config before after).failures.map Failure.exchange) := by
  constructor
  · have hpaired : Paired (Record.Counterpart before after) (classify config before after).records
        (classify config after before).records := by
      refine Paired.of_perm (records_classify_perm config before after)
        (records_classify_perm config after before) ?_
      exact Paired.flatMap fun k _ => paired_records_compareKind k before after
    exact hpaired.mono fun r s h => ⟨h.kind_eq, h.path_eq, h⟩
  · have hkinds : (config.enabledKinds.flatMap fun k => (compareKind k after before).failures).Perm
        ((config.enabledKinds.flatMap fun k => (compareKind k before after).failures).map
          Failure.exchange) := by
      rw [List.map_flatMap]
      exact List.Perm.flatMap_left _ fun k _ => failures_compareKind_exchange k before after
    have hback := (failures_classify_perm config before after).map Failure.exchange
    exact ((failures_classify_perm config after before).trans hkinds).trans hback.symm

end ReleaseDiff

import ReleaseDiff.Proofs.Coverage
import ReleaseDiff.Proofs.Facts

set_option autoImplicit false

/-!
# Releases in between

Two releases can be compared directly or by way of a release in between. Whatever the direct
comparison finds, one of the two shorter ones finds at the same place or above it: either the item
is in the release in between, and then one of its two neighbours differs from it, or it is not, and
then it is removed on the way, alone or with an item above it.

## Main definitions

* `ReleaseDiff.Tree.SameTypes` — no step changes its action type.

## Main results

* `ReleaseDiff.covered_collectionChanges_between` — a collection, by way of one in between.
* `ReleaseDiff.covered_fieldChanges_between` — forests of fields, at any depth.
* `ReleaseDiff.Body.covered_changes_between` — bodies of every kind.
* `ReleaseDiff.classify_between` — reports.
-/

namespace ReleaseDiff

variable {k : Kind} {p : Prop}

section Collections

variable {path : Path}

/-- **A collection, by way of one in between.** An item that only one end has differs from the one
in between on one side. An item that both ends have and the one in between lacks is removed on the
way, and the removal covers whatever else is found in it. -/
theorem covered_collectionChanges_between {α : Type} [Keyed α] {removed added : Shape k}
    {both : α → α → List (Change k)} {a b c : Catalog α}
    (hroof : ∀ i x z, a.get? i = some x → c.get? i = some z →
      ∀ d ∈ both x z, Change.Covers p ⟨removed, path.child i, i⟩ d)
    (hboth : ∀ i x y z, a.get? i = some x → b.get? i = some y → c.get? i = some z →
      Covered p (both x z) (both x y ++ both y z)) :
    Covered p (collectionChanges removed added path both a c)
      (collectionChanges removed added path both a b
        ++ collectionChanges removed added path both b c) := by
  intro d hd
  simp only [List.mem_append, mem_collectionChanges_iff]
  obtain ⟨i, ⟨x, hx, hz, rfl⟩ | ⟨z, hx, hz, rfl⟩ | ⟨x, z, hx, hz, hd⟩⟩ :=
    mem_collectionChanges_iff.1 hd
  · cases hy : b.get? i with
    | none => exact ⟨_, Or.inl ⟨i, Or.inl ⟨x, hx, hy, rfl⟩⟩, Change.Covers.refl _⟩
    | some y => exact ⟨_, Or.inr ⟨i, Or.inl ⟨y, hy, hz, rfl⟩⟩, Change.Covers.refl _⟩
  · cases hy : b.get? i with
    | none => exact ⟨_, Or.inr ⟨i, Or.inr (Or.inl ⟨z, hy, hz, rfl⟩)⟩, Change.Covers.refl _⟩
    | some y => exact ⟨_, Or.inl ⟨i, Or.inr (Or.inl ⟨y, hx, hy, rfl⟩)⟩, Change.Covers.refl _⟩
  · cases hy : b.get? i with
    | none => exact ⟨_, Or.inl ⟨i, Or.inl ⟨x, hx, hy, rfl⟩⟩, hroof i x z hx hz d hd⟩
    | some y =>
      obtain ⟨e, he, hcovers⟩ := hboth i x y z hx hy hz d hd
      rcases List.mem_append.1 he with he | he
      · exact ⟨e, Or.inl ⟨i, Or.inr (Or.inr ⟨x, y, hx, hy, he⟩)⟩, hcovers⟩
      · exact ⟨e, Or.inr ⟨i, Or.inr (Or.inr ⟨y, z, hy, hz, he⟩)⟩, hcovers⟩

/-- Attributes, by way of attributes in between: a value that differs between the ends differs from
the one in between on one side. -/
theorem covered_attributeChanges_between {shape shape₁ shape₂ : String → Shape k}
    {target target₁ target₂ : String → String} {u v w : Attributes}
    (h₁ : p → ∀ name, Shape.severity k (shape name) ≤ Shape.severity k (shape₁ name))
    (h₂ : p → ∀ name, Shape.severity k (shape name) ≤ Shape.severity k (shape₂ name)) :
    Covered p (attributeChanges shape path target u w)
      (attributeChanges shape₁ path target₁ u v ++ attributeChanges shape₂ path target₂ v w) := by
  intro d hd
  obtain ⟨name, hne, rfl⟩ := mem_attributeChanges_iff.1 hd
  simp only [List.mem_append, mem_attributeChanges_iff]
  by_cases huv : u.value? name = v.value? name
  · refine ⟨_, Or.inr ⟨name, huv ▸ hne, rfl⟩, List.prefix_refl _, fun hp => h₂ hp name⟩
  · refine ⟨_, Or.inl ⟨name, huv, rfl⟩, List.prefix_refl _, fun hp => h₁ hp name⟩

/-- Items that only appear and disappear, by way of a collection in between. -/
theorem covered_presenceChanges_between {α : Type} [Keyed α] {removed added : Shape k}
    {a b c : Catalog α} :
    Covered p (presenceChanges removed added path a.items c.items)
      (presenceChanges removed added path a.items b.items
        ++ presenceChanges removed added path b.items c.items) := by
  simp only [presenceChanges_eq]
  exact covered_collectionChanges_between (fun _ _ _ _ _ _ hd => absurd hd List.not_mem_nil)
    fun _ _ _ _ _ _ _ => Covered.nil

/-- Children, by way of a collection in between. -/
theorem covered_childChanges_between {repertoire : ChildRepertoire k}
    (hmajor : Shape.severity k repertoire.removed = .major) {a b c : Catalog Child} :
    Covered p (childChanges repertoire path a c)
      (childChanges repertoire path a b ++ childChanges repertoire path b c) := by
  simp only [childChanges_eq]
  refine covered_collectionChanges_between (fun i x z hx _ => covers_of_mem_both hmajor ?_) ?_
  · intro d hd
    have hkey : x.key = i := (Catalog.get?_eq_some_iff.1 hx).2
    exact hkey ▸ within_of_mem_childPairChanges hd
  · intro i x y z hx hy _
    have hkey : x.key = y.key := Catalog.key_eq_of_get? hx hy
    simp only [childPairChanges, hkey]
    exact covered_attributeChanges_between (fun _ _ => Severity.le_refl _)
      fun _ _ => Severity.le_refl _

/-- **Steps, by way of a collection in between.** A reference that differs is as grave on the way as
it is at the end if the step in between does what the last one does. -/
theorem covered_stepChanges_between {repertoire : StepRepertoire k} (hgraded : repertoire.Graded)
    {a b c : Catalog Step}
    (htypes : p → ∀ i y z, b.get? i = some y → c.get? i = some z → y.actionType = z.actionType) :
    Covered p (stepChanges repertoire path a c)
      (stepChanges repertoire path a b ++ stepChanges repertoire path b c) := by
  simp only [stepChanges_eq]
  refine covered_collectionChanges_between
    (fun i x z hx _ => covers_of_mem_both hgraded.removed ?_) ?_
  · intro d hd
    have hkey : x.key = i := (Catalog.get?_eq_some_iff.1 hx).2
    exact hkey ▸ within_of_mem_stepPairChanges hd
  · intro i x y z hx hy hz
    have hkey : x.key = y.key := Catalog.key_eq_of_get? hx hy
    simp only [stepPairChanges, hkey]
    refine Covered.append_two ?_ (covered_attributeChanges_between ?_ ?_)
    · refine Covered.of_subset fun d hd => ?_
      by_cases hxz : x.actionType = z.actionType
      · simp [hxz] at hd
      · by_cases hxy : x.actionType = y.actionType
        · simpa [hxy, hxy ▸ hxz, hxz] using hd
        · simp [hxy, hxz] at hd ⊢
          exact Or.inl hd
    · intro hp name
      rw [hgraded.severity_ofAttribute, hgraded.severity_ofAttribute, htypes hp i y z hy hz]
      exact Severity.le_refl _
    · exact fun _ _ => Severity.le_refl _

/-- Data fields, by way of a collection in between. -/
theorem covered_dataFieldChanges_between {a b c : Catalog DataField} :
    Covered p (dataFieldChanges path a c)
      (dataFieldChanges path a b ++ dataFieldChanges path b c) := by
  simp only [dataFieldChanges_eq]
  refine covered_collectionChanges_between (fun i x z hx _ => covers_of_mem_both rfl ?_) ?_
  · intro d hd
    have hkey : x.key = i := (Catalog.get?_eq_some_iff.1 hx).2
    exact hkey ▸ within_of_mem_dataFieldPairChanges hd
  · intro i x y z hx hy _
    have hkey : x.key = y.key := Catalog.key_eq_of_get? hx hy
    refine Covered.of_subset fun d hd => ?_
    simp only [dataFieldPairChanges, hkey, List.mem_append] at hd ⊢
    by_cases hxz : x.value = z.value
    · simp [hxz] at hd
    · by_cases hxy : x.value = y.value
      · rw [if_neg hxz] at hd
        rw [if_neg (hxy ▸ hxz : ¬y.value = z.value)]
        exact Or.inr hd
      · rw [if_neg hxz] at hd
        rw [if_neg hxy]
        exact Or.inl hd

/-- Arrays, by way of a collection in between. -/
theorem covered_arrayChanges_between {a b c : Catalog DataArray} :
    Covered p (arrayChanges path a c) (arrayChanges path a b ++ arrayChanges path b c) := by
  simp only [arrayChanges_eq]
  refine covered_collectionChanges_between (fun i x z hx _ => covers_of_mem_both rfl ?_) ?_
  · intro d hd
    have hkey : x.key = i := (Catalog.get?_eq_some_iff.1 hx).2
    exact hkey ▸ within_of_mem_arrayPairChanges hd
  · intro i x y z hx hy _
    have hkey : x.key = y.key := Catalog.key_eq_of_get? hx hy
    simp only [arrayPairChanges, hkey]
    exact covered_presenceChanges_between

/-- **Forests of fields, by way of a forest in between**, at any depth.

**Proof sketch.** Induction over the first forest. Each level is a collection. Where the release in
between lacks a field of both ends, its removal covers everything below it. -/
theorem covered_fieldChanges_between {a b c : FieldForest} (ha : a.Ordered) (hb : b.Ordered)
    (hc : c.Ordered) :
    Covered p (fieldChanges path a c) (fieldChanges path a b ++ fieldChanges path b c) := by
  induction ha using FieldForest.Ordered.induction generalizing path b c with
  | step a ha ih =>
    rw [fieldChanges_eq path ha hc, fieldChanges_eq path ha hb, fieldChanges_eq path hb hc]
    refine covered_collectionChanges_between (fun i x z hx hz => covers_of_mem_both rfl ?_) ?_
    · intro d hd
      have hkey : x.key = i := (Catalog.get?_eq_some_iff.1 hx).2
      exact hkey ▸ within_of_mem_fieldPairChanges (ha.below hx) (hc.below hz) hd
    · intro i x y z hx hy hz
      have hkey : x.key = y.key := Catalog.key_eq_of_get? hx hy
      simp only [fieldPairChanges, hkey]
      refine Covered.append_two ?_ (ih i x hx (hb.below hy) (hc.below hz))
      exact covered_attributeChanges_between (fun _ _ => Severity.le_refl _)
        fun _ _ => Severity.le_refl _

/-- **Annotations, by way of annotations in between.** A single text is a tweak in whichever
comparison it is found. -/
theorem covered_annotationChanges_between {a b c : Annotations} (ha : a.WellFormed)
    (hb : b.WellFormed) (hc : c.WellFormed) :
    Covered p (annotationChanges path a c)
      (annotationChanges path a b ++ annotationChanges path b c) := by
  have hpatch : ∀ q : Prop, [Decidable q] → Shape.severity .test
      (if q then TestShape.annotationAdded else TestShape.annotationChanged) = .patch := by
    intro q _
    split <;> rfl
  intro d hd
  simp only [List.mem_append, mem_annotationChanges_iff ha hb, mem_annotationChanges_iff hb hc]
  rcases (mem_annotationChanges_iff ha hc).1 hd with ⟨name, hname, hne, rfl⟩ | ⟨name, hname, hd⟩
  · by_cases hab : a.content? name = b.content? name
    · refine ⟨_, Or.inr (Or.inl ⟨name, hname, hab ▸ hne, rfl⟩), List.prefix_refl _, fun _ => ?_⟩
      rw [hpatch]
      exact Severity.patch_le _
    · refine ⟨_, Or.inl (Or.inl ⟨name, hname, hab, rfl⟩), List.prefix_refl _, fun _ => ?_⟩
      rw [hpatch]
      exact Severity.patch_le _
  · simp only [mem_valueChanges_iff] at hd ⊢
    obtain ⟨v, ⟨hav, hcv, rfl⟩ | ⟨hav, hcv, rfl⟩⟩ := hd
    · cases hbv : (b.valuesSoFar name).contains v with
      | false =>
        exact ⟨_, Or.inl (Or.inr ⟨name, hname, v, Or.inl ⟨hav, hbv, rfl⟩⟩), Change.Covers.refl _⟩
      | true =>
        exact ⟨_, Or.inr (Or.inr ⟨name, hname, v, Or.inl ⟨hbv, hcv, rfl⟩⟩), Change.Covers.refl _⟩
    · cases hbv : (b.valuesSoFar name).contains v with
      | false =>
        exact ⟨_, Or.inr (Or.inr ⟨name, hname, v, Or.inr ⟨hbv, hcv, rfl⟩⟩), Change.Covers.refl _⟩
      | true =>
        exact ⟨_, Or.inl (Or.inr ⟨name, hname, v, Or.inr ⟨hav, hbv, rfl⟩⟩), Change.Covers.refl _⟩

end Collections

/-! ## Bodies and entities -/

/-- **Bodies of every kind, by way of a body in between.** -/
theorem Body.covered_changes_between {path : Path} (k : Kind) {a b c : Body k}
    (htypes : p → ∀ collection i y z, (Body.stepsIn k b collection).get? i = some y →
      (Body.stepsIn k c collection).get? i = some z → y.actionType = z.actionType) :
    Covered p (Body.changes path k a c) (Body.changes path k a b ++ Body.changes path k b c) := by
  cases k with
  | actionGroup =>
    exact Covered.append_two (covered_childChanges_between rfl)
      (covered_stepChanges_between ActionGroup.graded fun hp => htypes hp "Actions")
  | test =>
    refine Covered.append_two (Covered.append_two (Covered.append_two (Covered.append_two ?_ ?_) ?_)
      ?_) ?_
    · exact covered_annotationChanges_between a.wellFormed b.wellFormed c.wellFormed
    · exact covered_stepChanges_between Test.graded fun hp => htypes hp "Before"
    · exact covered_stepChanges_between Test.graded fun hp => htypes hp "Actions"
    · exact covered_stepChanges_between Test.graded fun hp => htypes hp "After"
    · exact covered_presenceChanges_between
  | page => exact covered_childChanges_between rfl
  | pageSection => exact covered_childChanges_between rfl
  | data =>
    exact ((covered_dataFieldChanges_between.append_two covered_arrayChanges_between).append_two
      (covered_childChanges_between rfl)).append_two (covered_childChanges_between rfl)
  | metadata => exact covered_fieldChanges_between a.ordered b.ordered c.ordered

/-- **An entity, by way of the entity in between**, each of which may be missing. -/
theorem Entity.covered_changes_between {name : String} {x y z : Option (Entity k)}
    (htypes : p → ∀ b c, y = some b → z = some c → ∀ collection i s t,
      (Body.stepsIn k b.body collection).get? i = some s →
      (Body.stepsIn k c.body collection).get? i = some t → s.actionType = t.actionType) :
    Covered p (Entity.changes name x z) (Entity.changes name x y ++ Entity.changes name y z) := by
  have hremoved : Shape.severity k (Shape.entityRemoved k) = .major := by cases k <;> rfl
  rcases x with _ | x <;> rcases z with _ | z
  · exact Covered.nil
  · cases y with
    | none => exact Covered.of_subset fun d hd => List.mem_append_right _ hd
    | some y => exact Covered.of_subset fun d hd => List.mem_append_left _ hd
  · cases y with
    | none => exact Covered.of_subset fun d hd => List.mem_append_left _ hd
    | some y => exact Covered.of_subset fun d hd => List.mem_append_right _ hd
  · cases y with
    | none =>
      intro d hd
      exact ⟨_, List.mem_append_left _ (List.mem_singleton_self _),
        Change.covers_of_major hremoved (within_of_mem_changes hd)⟩
    | some y =>
      refine Covered.append_two ?_
        (Body.covered_changes_between k fun hp => htypes hp y z rfl rfl)
      exact covered_attributeChanges_between (fun _ _ => Severity.le_refl _)
        fun _ _ => Severity.le_refl _

/-! ## Reports -/

/-- **No step changes its action type**: under one entity, collection and key both releases do the
same. -/
def Tree.SameTypes (t u : Tree) : Prop :=
  ∀ k name collection i x y, t.step? k name collection i = some x →
    u.step? k name collection i = some y → x.actionType = y.actionType

section Reports

variable {config : Config} {a b c : Tree}

/-- Every record of a direct comparison has one on the way that covers it, if the release in between
is complete. -/
theorem exists_record_covers_between (hb : ∀ k ∈ config.enabledKinds, (b k).isOk = true)
    (htypes : p → Tree.SameTypes b c) {r : Record} (hr : r ∈ (classify config a c).records) :
    ∃ q, (q ∈ (classify config a b).records ∨ q ∈ (classify config b c).records) ∧
      Record.Covers p q r := by
  obtain ⟨k, hk, old, new, ha, hc, name, hr⟩ := mem_records_classify_iff.1 hr
  obtain ⟨mid, hmid⟩ : ∃ mid, b k = .ok mid := by
    cases hslot : b k with
    | error m => simpa [hslot, Except.isOk, Except.toBool] using hb k hk
    | ok mid => exact ⟨mid, rfl⟩
  have hcovered : Covered p (Entity.changes name (old.get? name) (new.get? name))
      (Entity.changes name (old.get? name) (mid.get? name)
        ++ Entity.changes name (mid.get? name) (new.get? name)) := by
    refine Entity.covered_changes_between fun hp y z hy hz collection i s t hs ht => ?_
    refine htypes hp k name collection i s t ?_ ?_
    · simp only [Tree.step?, Tree.entity?, hmid, Slot.entities, hy, Option.bind_some, hs]
    · simp only [Tree.step?, Tree.entity?, hc, Slot.entities, hz, Option.bind_some, ht]
  obtain ⟨q, hq, hcovers⟩ := hcovered.records (fun d hd => (List.mem_append.1 hd).elim
    Entity.within_of_mem_changes Entity.within_of_mem_changes) r hr
  refine ⟨q, ?_, hcovers⟩
  rw [List.map_append, List.mem_append] at hq
  rcases hq with hq | hq
  · exact Or.inl (mem_records_classify_iff.2 ⟨k, hk, old, mid, ha, hmid, name, hq⟩)
  · exact Or.inr (mem_records_classify_iff.2 ⟨k, hk, mid, new, hmid, hc, name, hq⟩)

/-- **Two releases, by way of a release in between**, in which every kind could be built. Whatever
the direct comparison records, one of the two comparisons on the way records a change of the same
kind, at the same path or above it. If moreover no step changes its action type on the second part
of the way, the direct verdict is no graver than the graver one on the way.

**Proof sketch.** Key by key and level by level, the item of the release in between differs from one
of its two neighbours, or it is missing and its removal covers what is found below it. The covering
change has the severity of the covered one or is a break. Only the reference of a step counts by the
type of the later step, and that one is the same in the release in between. -/
theorem classify_between (config : Config) (a b c : Tree) (hb : ∀ k, (b k).isOk = true) :
    (∀ r ∈ (classify config a c).records,
      ∃ q, (q ∈ (classify config a b).records ∨ q ∈ (classify config b c).records) ∧
        q.kind = r.kind ∧ (q.path = r.path ∨ ∃ rest, r.path = q.path ++ "/" ++ rest)) ∧
    (Tree.SameTypes b c →
      (classify config a c).severity.rank ≤
        max (classify config a b).severity.rank (classify config b c).severity.rank) := by
  constructor
  · intro r hr
    obtain ⟨q, hq, hkind, hpath, -⟩ :=
      exists_record_covers_between (p := False) (fun k _ => hb k) False.elim hr
    exact ⟨q, hq, hkind, hpath⟩
  · intro htypes
    refine rank_severity_classify_le fun r hr => ?_
    obtain ⟨q, hq, -, -, hle⟩ :=
      exists_record_covers_between (p := True) (fun k _ => hb k) (fun _ => htypes) hr
    have hrank : Verdict.rank (some r.severity) ≤ Verdict.rank (some q.severity) :=
      Nat.succ_le_succ (hle trivial)
    refine Nat.le_trans hrank ?_
    rcases hq with hq | hq
    · exact Nat.le_trans (rank_le_severity_classify hq) (Nat.le_max_left _ _)
    · exact Nat.le_trans (rank_le_severity_classify hq) (Nat.le_max_right _ _)

/-- A step calls another action group in the second release, and the third one has a page besides:
the direct comparison finds both, each of them is found on the way, and the break stays a break. -/
theorem classify_between_new_reference :
    let calling (group : String) : Entity .actionGroup := ⟨"Login", ∅, ⟨∅, Catalog.ofList
      [⟨"open", Step.actionGroupType, Catalog.ofList [⟨Step.refAttribute, group⟩]⟩]⟩⟩
    let first := Tree.single (calling "OpenHome")
    let second := Tree.single (calling "OpenAdmin")
    let third : Tree := Function.update second .page
      (.ok (Catalog.ofList [⟨"Checkout", ∅, ⟨∅⟩⟩]))
    (∀ k, (second k).isOk = true) ∧ Tree.SameTypes second third ∧
      (classify {} first third).records.length = 2 ∧
      (classify {} first third).severity = some .major ∧
      (∀ r ∈ (classify {} first third).records,
        ∃ q, (q ∈ (classify {} first second).records ∨ q ∈ (classify {} second third).records) ∧
          q.kind = r.kind ∧ (q.path = r.path ∨ ∃ rest, r.path = q.path ++ "/" ++ rest)) ∧
      (classify {} first third).severity.rank ≤
        max (classify {} first second).severity.rank (classify {} second third).severity.rank := by
  intro calling first second third
  have hcomplete : ∀ k, (second k).isOk = true := Tree.isOk_single _
  have htypes : Tree.SameTypes second third := by
    intro k name collection i x y hx hy
    by_cases hk : k = .page
    · subst hk
      cases hx
    · have hsame : third k = second k := Function.update_of_ne hk _ _
      rw [Tree.step?, Tree.entity?, hsame, ← Tree.entity?, ← Tree.step?, hx] at hy
      cases hy
      rfl
  obtain ⟨hrecords, hverdict⟩ := classify_between {} first second third hcomplete
  have hlength : (classify {} first third).records.length = 2 :=
    (records_classify_perm {} first third).length_eq.trans (by decide)
  exact ⟨hcomplete, htypes, hlength, by decide, hrecords, hverdict htypes⟩

end Reports

end ReleaseDiff

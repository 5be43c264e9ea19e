import ReleaseDiff.Proofs.Coverage
import ReleaseDiff.Proofs.Facts

set_option autoImplicit false

/-!
# Further changes

A further release keeps whatever a later one changed and may change more. Whatever was found in the
later release is then found in the further one, or the item is gone as a whole, which is a break.
There is one exception: a step that calls another action group is a break only as long as it calls
one, so a further change of its action type turns the break into a tweak.

## Main definitions

* `ReleaseDiff.Tree.KeepsCalls` — a step that was redirected still calls an action group.

## Main results

* `ReleaseDiff.covered_collectionChanges_of_kept` — a collection of which every change is kept.
* `ReleaseDiff.covered_fieldChanges_of_kept` — forests of fields, at any depth.
* `ReleaseDiff.Body.covered_changes_of_kept` — bodies of every kind.
* `ReleaseDiff.rank_severity_classify_mono` — a further change never lowers the verdict, as long as
  redirected steps still call an action group.
* `ReleaseDiff.severity_classify_further_type_change` — a further change of an action type lowers
  the verdict.
-/

namespace ReleaseDiff

variable {k : Kind} {p : Prop}

section Collections

variable {path : Path}

/-- **A collection of which every change is kept.** What appeared or disappeared still does. Where
the further release lacks an item that both others have, the removal covers what was found in it. -/
theorem covered_collectionChanges_of_kept {α : Type} [Keyed α] {removed added : Shape k}
    {both : α → α → List (Change k)} {b a f : Catalog α} (holding : α → Holding)
    (hkept : ∀ i, Holding.Kept ((b.get? i).map holding) ((a.get? i).map holding)
      ((f.get? i).map holding))
    (hroof : ∀ i x y, b.get? i = some x → a.get? i = some y →
      ∀ d ∈ both x y, Change.Covers p ⟨removed, path.child i, i⟩ d)
    (hboth : ∀ i x y z, b.get? i = some x → a.get? i = some y → f.get? i = some z →
      Covered p (both x y) (both x z)) :
    Covered p (collectionChanges removed added path both b a)
      (collectionChanges removed added path both b f) := by
  intro d hd
  simp only [mem_collectionChanges_iff]
  obtain ⟨i, ⟨x, hx, hy, rfl⟩ | ⟨y, hx, hy, rfl⟩ | ⟨x, y, hx, hy, hd⟩⟩ :=
    mem_collectionChanges_iff.1 hd
  · have hlost := hkept i
    rw [hx, hy] at hlost
    exact ⟨_, ⟨i, Or.inl ⟨x, hx, Option.map_eq_none_iff.1 hlost.eq_none_of_lost, rfl⟩⟩,
      Change.Covers.refl _⟩
  · have hgained := hkept i
    rw [hx, hy] at hgained
    obtain ⟨z, hz⟩ := Option.isSome_iff_exists.1
      ((Option.isSome_map).symm.trans hgained.isSome_of_gained)
    exact ⟨_, ⟨i, Or.inr (Or.inl ⟨z, hx, hz, rfl⟩)⟩, Change.Covers.refl _⟩
  · cases hz : f.get? i with
    | none => exact ⟨_, ⟨i, Or.inl ⟨x, hx, hz, rfl⟩⟩, hroof i x y hx hy d hd⟩
    | some z =>
      obtain ⟨e, he, hcovers⟩ := hboth i x y z hx hy hz d hd
      exact ⟨e, ⟨i, Or.inr (Or.inr ⟨x, z, hx, hz, he⟩)⟩, hcovers⟩

/-- Attributes of which every change is kept. -/
theorem covered_attributeChanges_of_kept {shape shape' : String → Shape k}
    {target target' : String → String} {u v w : Attributes}
    (hkept : ∀ name, u.value? name ≠ v.value? name → w.value? name = v.value? name)
    (hshape : p → ∀ name, u.value? name ≠ v.value? name →
      Shape.severity k (shape name) ≤ Shape.severity k (shape' name)) :
    Covered p (attributeChanges shape path target u v)
      (attributeChanges shape' path target' u w) := by
  intro d hd
  obtain ⟨name, hne, rfl⟩ := mem_attributeChanges_iff.1 hd
  refine ⟨_, mem_attributeChanges_iff.2 ⟨name, ?_, rfl⟩, List.prefix_refl _,
    fun hp => hshape hp name hne⟩
  rw [hkept name hne]
  exact hne

/-- Items that only appear and disappear, of which every change is kept. -/
theorem covered_presenceChanges_of_kept {α : Type} [Keyed α] {removed added : Shape k}
    {b a f : Catalog α}
    (hkept : ∀ i, Holding.Kept ((b.get? i).map Holding.mark) ((a.get? i).map Holding.mark)
      ((f.get? i).map Holding.mark)) :
    Covered p (presenceChanges removed added path b.items a.items)
      (presenceChanges removed added path b.items f.items) := by
  simp only [presenceChanges_eq]
  exact covered_collectionChanges_of_kept Holding.mark hkept
    (fun _ _ _ _ _ _ hd => absurd hd List.not_mem_nil) fun _ _ _ _ _ _ _ => Covered.nil

/-- Children of which every change is kept. -/
theorem covered_childChanges_of_kept {repertoire : ChildRepertoire k}
    (hmajor : Shape.severity k repertoire.removed = .major) {b a f : Catalog Child}
    (hkept : ∀ i, Holding.Kept ((b.get? i).map Child.holding) ((a.get? i).map Child.holding)
      ((f.get? i).map Child.holding)) :
    Covered p (childChanges repertoire path b a) (childChanges repertoire path b f) := by
  simp only [childChanges_eq]
  refine covered_collectionChanges_of_kept Child.holding hkept
    (fun i x y hx _ => covers_of_mem_both hmajor fun d hd => ?_) fun i x y z hx hy hz => ?_
  · have hkey : x.key = i := (Catalog.get?_eq_some_iff.1 hx).2
    exact hkey ▸ within_of_mem_childPairChanges hd
  · have hitem := hkept i
    rw [hx, hy, hz] at hitem
    exact covered_attributeChanges_of_kept (fun _ hne => hitem.value?_eq hne)
      fun _ _ _ => Severity.le_refl _

/-- **Steps of which every change is kept.** A redirected step has to call an action group still. -/
theorem covered_stepChanges_of_kept {repertoire : StepRepertoire k} (hgraded : repertoire.Graded)
    {b a f : Catalog Step}
    (hkept : ∀ i, Holding.Kept ((b.get? i).map Step.holding) ((a.get? i).map Step.holding)
      ((f.get? i).map Step.holding))
    (hcalls : p → ∀ i x y z, b.get? i = some x → a.get? i = some y → f.get? i = some z →
      x.Redirects y → z.actionType = Step.actionGroupType) :
    Covered p (stepChanges repertoire path b a) (stepChanges repertoire path b f) := by
  simp only [stepChanges_eq]
  refine covered_collectionChanges_of_kept Step.holding hkept
    (fun i x y hx _ => covers_of_mem_both hgraded.removed fun d hd => ?_) fun i x y z hx hy hz => ?_
  · have hkey : x.key = i := (Catalog.get?_eq_some_iff.1 hx).2
    exact hkey ▸ within_of_mem_stepPairChanges hd
  · have hitem := hkept i
    rw [hx, hy, hz] at hitem
    refine Covered.append (Covered.of_subset fun d hd => ?_)
      (covered_attributeChanges_of_kept (fun _ hne => hitem.value?_eq hne) fun hp name hne => ?_)
    · by_cases hxy : x.actionType = y.actionType
      · simp [hxy] at hd
      · have htext : some z.actionType = some y.actionType :=
          hitem.text_eq fun h => hxy (Option.some.inj h)
        rw [Option.some.inj htext]
        exact hd
    · rw [hgraded.severity_ofAttribute, hgraded.severity_ofAttribute]
      by_cases hcall : name = Step.refAttribute ∧ y.actionType = Step.actionGroupType
      · have hz' := hcalls hp i x y z hx hy hz ⟨hcall.2, hcall.1 ▸ hne⟩
        rw [if_pos hcall, if_pos ⟨hcall.1, hz'⟩]
        exact Severity.le_refl _
      · rw [if_neg hcall]
        exact Severity.patch_le _

/-- Data fields of which every change is kept. -/
theorem covered_dataFieldChanges_of_kept {b a f : Catalog DataField}
    (hkept : ∀ i, Holding.Kept ((b.get? i).map DataField.holding)
      ((a.get? i).map DataField.holding) ((f.get? i).map DataField.holding)) :
    Covered p (dataFieldChanges path b a) (dataFieldChanges path b f) := by
  simp only [dataFieldChanges_eq]
  refine covered_collectionChanges_of_kept DataField.holding hkept
    (fun i x y hx _ => covers_of_mem_both rfl fun d hd => ?_) fun i x y z hx hy hz => ?_
  · have hkey : x.key = i := (Catalog.get?_eq_some_iff.1 hx).2
    exact hkey ▸ within_of_mem_dataFieldPairChanges hd
  · have hitem := hkept i
    rw [hx, hy, hz] at hitem
    refine Covered.of_subset fun d hd => ?_
    by_cases hxy : x.value = y.value
    · simp [dataFieldPairChanges, hxy] at hd
    · have htext : some z.value = some y.value := hitem.text_eq fun h => hxy (Option.some.inj h)
      rw [dataFieldPairChanges, Option.some.inj htext]
      exact hd

/-- Arrays of which every change is kept. -/
theorem covered_arrayChanges_of_kept {b a f : Catalog DataArray}
    (hkept : ∀ i, Holding.Kept ((b.get? i).map Holding.mark) ((a.get? i).map Holding.mark)
      ((f.get? i).map Holding.mark))
    (hitems : ∀ i x y z, b.get? i = some x → a.get? i = some y → f.get? i = some z →
      ∀ v, Holding.Kept ((x.items.get? v).map Holding.mark) ((y.items.get? v).map Holding.mark)
        ((z.items.get? v).map Holding.mark)) :
    Covered p (arrayChanges path b a) (arrayChanges path b f) := by
  simp only [arrayChanges_eq]
  refine covered_collectionChanges_of_kept Holding.mark hkept
    (fun i x y hx _ => covers_of_mem_both rfl fun d hd => ?_) fun i x y z hx hy hz => ?_
  · have hkey : x.key = i := (Catalog.get?_eq_some_iff.1 hx).2
    exact hkey ▸ within_of_mem_arrayPairChanges hd
  · exact covered_presenceChanges_of_kept (hitems i x y z hx hy hz)

/-- **Forests of fields of which every change is kept**, at any depth.

**Proof sketch.** Induction over the earlier forest. A chain of keys below a field that all three
forests have is a chain of the forests, so what is kept there is kept below the field. -/
theorem covered_fieldChanges_of_kept {b a f : FieldForest} (hb : b.Ordered) (ha : a.Ordered)
    (hf : f.Ordered)
    (hkept : ∀ chain, Holding.Kept ((b.fieldAt? chain).map NestedField.holding)
      ((a.fieldAt? chain).map NestedField.holding) ((f.fieldAt? chain).map NestedField.holding)) :
    Covered p (fieldChanges path b a) (fieldChanges path b f) := by
  induction hb using FieldForest.Ordered.induction generalizing path a f with
  | step b hb ih =>
    rw [fieldChanges_eq path hb ha, fieldChanges_eq path hb hf]
    refine covered_collectionChanges_of_kept NestedField.holding (fun i => hkept [i])
      (fun i x y hx hy => covers_of_mem_both rfl fun d hd => ?_) fun i x y z hx hy hz => ?_
    · have hkey : x.key = i := (Catalog.get?_eq_some_iff.1 hx).2
      exact hkey ▸ within_of_mem_fieldPairChanges (hb.below hx) (ha.below hy) hd
    · rw [FieldForest.get?_catalog] at hx hy hz
      refine Covered.append ?_ (ih i x hx (ha.below hy) (hf.below hz) fun chain => ?_)
      · have hitem := hkept [i]
        rw [FieldForest.fieldAt?, FieldForest.fieldAt?, FieldForest.fieldAt?, hx, hy, hz] at hitem
        exact covered_attributeChanges_of_kept (fun _ hne => hitem.value?_eq hne)
          fun _ _ _ => Severity.le_refl _
      · cases chain with
        | nil => exact fun aspect h => absurd rfl h
        | cons j chain =>
          have hbelow := hkept (i :: j :: chain)
          rwa [FieldForest.fieldAt?_cons _ _ (List.cons_ne_nil j chain),
            FieldForest.fieldAt?_cons _ _ (List.cons_ne_nil j chain),
            FieldForest.fieldAt?_cons _ _ (List.cons_ne_nil j chain), hx, hy, hz] at hbelow

/-- Where a name may not recur, well-formed annotations hold just the text that they tell. -/
theorem Annotations.WellFormed.content?_eq_map_tells {annotations : Annotations}
    (hw : annotations.WellFormed) {name : String} (hname : name ∉ Annotations.multiValued) :
    annotations.content? name =
      (Holding.tells (annotations.holding? [name]) .text).map AnnotationContent.scalar := by
  rw [Annotations.holding?]
  cases hcontent : annotations.content? name with
  | none => rfl
  | some content =>
    cases content with
    | scalar text => rfl
    | values set => exact absurd ((hw.content_values hcontent).2 ⟨set, rfl⟩) hname

/-- **Annotations of which every change is kept.** -/
theorem covered_annotationChanges_of_kept {b a f : Annotations} (hb : b.WellFormed)
    (ha : a.WellFormed) (hf : f.WellFormed)
    (hkept : ∀ address, Holding.Kept (b.holding? address) (a.holding? address)
      (f.holding? address)) :
    Covered p (annotationChanges path b a) (annotationChanges path b f) := by
  intro d hd
  simp only [mem_annotationChanges_iff hb hf]
  rcases (mem_annotationChanges_iff hb ha).1 hd with ⟨name, hname, hne, rfl⟩ | ⟨name, hname, hd⟩
  · refine ⟨_, Or.inl ⟨name, hname, ?_, rfl⟩, Change.Covers.refl _⟩
    rw [hb.content?_eq_map_tells hname, ha.content?_eq_map_tells hname] at hne
    rw [hb.content?_eq_map_tells hname, hf.content?_eq_map_tells hname,
      hkept [name] .text fun h => hne (congrArg _ h)]
    exact hne
  · simp only [mem_valueChanges_iff] at hd ⊢
    have hvalue : ∀ v, Holding.Kept (((b.valuesSoFar name).get? v).map Holding.mark)
        (((a.valuesSoFar name).get? v).map Holding.mark)
        (((f.valuesSoFar name).get? v).map Holding.mark) := fun v => hkept [name, v]
    obtain ⟨v, ⟨hbv, hav, rfl⟩ | ⟨hbv, hav, rfl⟩⟩ := hd
    · obtain ⟨x, hx⟩ := Option.isSome_iff_exists.1 hbv
      have hlost := hvalue v
      rw [hx, Catalog.contains_eq_false_iff.1 hav] at hlost
      have hfv := Option.map_eq_none_iff.1 hlost.eq_none_of_lost
      exact ⟨_, Or.inr ⟨name, hname, v,
        Or.inl ⟨hbv, Catalog.contains_eq_false_iff.2 hfv, rfl⟩⟩, Change.Covers.refl _⟩
    · obtain ⟨y, hy⟩ := Option.isSome_iff_exists.1 hav
      have hgained := hvalue v
      rw [Catalog.contains_eq_false_iff.1 hbv, hy] at hgained
      have hfv : (f.valuesSoFar name).contains v = true :=
        (Option.isSome_map).symm.trans hgained.isSome_of_gained
      exact ⟨_, Or.inr ⟨name, hname, v, Or.inr ⟨hbv, hfv, rfl⟩⟩, Change.Covers.refl _⟩

end Collections

/-! ## Bodies and entities -/

/-- **Bodies of which every change is kept.** -/
theorem Body.covered_changes_of_kept {path : Path} (k : Kind) {b a f : Body k}
    (hkept : ∀ address, Holding.Kept (Body.holding? k b address) (Body.holding? k a address)
      (Body.holding? k f address))
    (hcalls : p → ∀ collection i x y z, (Body.stepsIn k b collection).get? i = some x →
      (Body.stepsIn k a collection).get? i = some y →
      (Body.stepsIn k f collection).get? i = some z →
      x.Redirects y → z.actionType = Step.actionGroupType) :
    Covered p (Body.changes path k b a) (Body.changes path k b f) := by
  cases k with
  | actionGroup =>
    exact (covered_childChanges_of_kept rfl fun i => hkept ["Arguments", i]).append
      (covered_stepChanges_of_kept ActionGroup.graded (fun i => hkept ["Actions", i])
        fun hp => hcalls hp "Actions")
  | test =>
    refine Covered.append (Covered.append (Covered.append (Covered.append ?_ ?_) ?_) ?_) ?_
    · exact covered_annotationChanges_of_kept b.wellFormed a.wellFormed f.wellFormed
        fun address => hkept ("Annotations" :: address)
    · exact covered_stepChanges_of_kept Test.graded (fun i => hkept ["Before", i])
        fun hp => hcalls hp "Before"
    · exact covered_stepChanges_of_kept Test.graded (fun i => hkept ["Actions", i])
        fun hp => hcalls hp "Actions"
    · exact covered_stepChanges_of_kept Test.graded (fun i => hkept ["After", i])
        fun hp => hcalls hp "After"
    · exact covered_presenceChanges_of_kept fun i => hkept ["RemoveActions", i]
  | page => exact covered_childChanges_of_kept rfl fun i => hkept ["Sections", i]
  | pageSection => exact covered_childChanges_of_kept rfl fun i => hkept ["Elements", i]
  | data =>
    refine Covered.append (Covered.append (Covered.append ?_ ?_) ?_) ?_
    · exact covered_dataFieldChanges_of_kept fun i => hkept ["Fields", i]
    · have harrays := fun i => hkept ["Arrays", i]
      refine covered_arrayChanges_of_kept harrays fun i x y z hx hy hz v => ?_
      have hitem := hkept ["Arrays", i, "Items", v]
      simpa only [Body.holding?, hx, hy, hz, Option.bind_some] using hitem
    · exact covered_childChanges_of_kept rfl fun i => hkept ["RequiredEntities", i]
    · exact covered_childChanges_of_kept rfl fun i => hkept ["Vars", i]
  | metadata =>
    exact covered_fieldChanges_of_kept b.ordered a.ordered f.ordered fun chain =>
      hkept ("Fields" :: chain)

/-- **An entity of which every change is kept**, whichever releases have it. -/
theorem Entity.covered_changes_of_kept {name : String} {x y z : Option (Entity k)}
    (hkept : ∀ address, Holding.Kept (x.bind fun e => e.holding? address)
      (y.bind fun e => e.holding? address) (z.bind fun e => e.holding? address))
    (hcalls : p → ∀ b a f, x = some b → y = some a → z = some f → ∀ collection i s t u,
      (Body.stepsIn k b.body collection).get? i = some s →
      (Body.stepsIn k a.body collection).get? i = some t →
      (Body.stepsIn k f.body collection).get? i = some u →
      s.Redirects t → u.actionType = Step.actionGroupType) :
    Covered p (Entity.changes name x y) (Entity.changes name x z) := by
  have hremoved : Shape.severity k (Shape.entityRemoved k) = .major := by cases k <;> rfl
  have hentity := hkept []
  rcases x with _ | b <;> rcases y with _ | a <;> rcases z with _ | f
  · exact Covered.nil
  · exact Covered.nil
  · cases hentity.isSome_of_gained
  · exact Covered.of_subset fun _ hd => hd
  · exact Covered.of_subset fun _ hd => hd
  · cases hentity.eq_none_of_lost
  · intro d hd
    exact ⟨_, List.mem_singleton_self _,
      Change.covers_of_major hremoved (within_of_mem_changes hd)⟩
  · refine Covered.append ?_ (Body.covered_changes_of_kept k (fun address => ?_) fun hp =>
      hcalls hp b a f rfl rfl rfl)
    · exact covered_attributeChanges_of_kept (fun _ hne => hentity.value?_eq hne)
        fun _ _ _ => Severity.le_refl _
    · cases address with
      | nil => exact Holding.Kept.of_unchanged (by rw [Body.holding?_nil, Body.holding?_nil])
      | cons s address => exact hkept (s :: address)

/-! ## Reports -/

/-- **A redirected step still calls an action group**: where the later release calls another action
group than the earlier one, the further release calls one too, if it has the step. -/
def Tree.KeepsCalls (before after further : Tree) : Prop :=
  ∀ k name collection i x y z, before.step? k name collection i = some x →
    after.step? k name collection i = some y → further.step? k name collection i = some z →
    x.Redirects y → z.actionType = Step.actionGroupType

section Reports

variable {config : Config} {before after further : Tree}

/-- Every record of the later release has one of the further release that covers it, if the further
release is complete and keeps every change. -/
theorem exists_record_covers_of_keeps
    (hfurther : ∀ k ∈ config.enabledKinds, (further k).isOk = true)
    (hkeeps : Tree.Keeps before after further) (hcalls : p → Tree.KeepsCalls before after further)
    {r : Record} (hr : r ∈ (classify config before after).records) :
    ∃ q ∈ (classify config before further).records, Record.Covers p q r := by
  obtain ⟨k, hk, old, new, hb, ha, name, hr⟩ := mem_records_classify_iff.1 hr
  obtain ⟨more, hf⟩ : ∃ more, further k = .ok more := by
    cases hslot : further k with
    | error m => simpa [hslot, Except.isOk, Except.toBool] using hfurther k hk
    | ok more => exact ⟨more, rfl⟩
  have hcovered : Covered p (Entity.changes name (old.get? name) (new.get? name))
      (Entity.changes name (old.get? name) (more.get? name)) := by
    refine Entity.covered_changes_of_kept (fun address => ?_)
      fun hp x y z hx hy hz collection i s t u hs ht hu => ?_
    · have haddress := Tree.keeps_iff.1 hkeeps k name address
      simpa only [Tree.holding?, Tree.entity?, hb, ha, hf, Slot.entities] using haddress
    · refine hcalls hp k name collection i s t u ?_ ?_ ?_
      · simp only [Tree.step?, Tree.entity?, hb, Slot.entities, hx, Option.bind_some, hs]
      · simp only [Tree.step?, Tree.entity?, ha, Slot.entities, hy, Option.bind_some, ht]
      · simp only [Tree.step?, Tree.entity?, hf, Slot.entities, hz, Option.bind_some, hu]
  obtain ⟨q, hq, hcovers⟩ := hcovered.records (fun _ => Entity.within_of_mem_changes) r hr
  exact ⟨q, mem_records_classify_iff.2 ⟨k, hk, old, more, hb, hf, name, hq⟩, hcovers⟩

/-- **A further change never lowers the verdict**, as long as redirected steps still call an action
group: if the further release is complete and keeps whatever the later one changed, its verdict is
at least as grave.

**Proof sketch.** What was found in the later release is found in the further one, at the same place
and with the same severity, or the item is missing there and its removal is a break. Only the
reference of a step counts by the type of the later step, which is kept where it changed, and calls
an action group still where the reference was a break. -/
theorem rank_severity_classify_mono (config : Config) (before after further : Tree)
    (hfurther : ∀ k, (further k).isOk = true) (hkeeps : Tree.Keeps before after further)
    (hcalls : Tree.KeepsCalls before after further) :
    (classify config before after).severity.rank ≤
      (classify config before further).severity.rank := by
  refine rank_severity_classify_le fun r hr => ?_
  obtain ⟨q, hq, -, -, hle⟩ :=
    exists_record_covers_of_keeps (p := True) (fun k _ => hfurther k) hkeeps (fun _ => hcalls) hr
  have hrank : Verdict.rank (some r.severity) ≤ Verdict.rank (some q.severity) :=
    Nat.succ_le_succ (hle trivial)
  exact Nat.le_trans hrank (rank_le_severity_classify hq)

/-- A step calls another action group, and the further release has a page besides. -/
theorem rank_severity_classify_mono_new_page :
    let calling (group : String) : Entity .actionGroup := ⟨"Login", ∅, ⟨∅, Catalog.ofList
      [⟨"open", Step.actionGroupType, Catalog.ofList [⟨Step.refAttribute, group⟩]⟩]⟩⟩
    let before := Tree.single (calling "OpenHome")
    let after := Tree.single (calling "OpenAdmin")
    let further : Tree := Function.update after .page
      (.ok (Catalog.ofList [⟨"Checkout", ∅, ⟨∅⟩⟩]))
    (∀ k, (further k).isOk = true) ∧ Tree.Keeps before after further ∧
      Tree.KeepsCalls before after further ∧
      (classify {} before after).severity = some .major ∧
      (classify {} before after).severity.rank ≤ (classify {} before further).severity.rank := by
  intro calling before after further
  have hcomplete : ∀ k, (further k).isOk = true := by decide
  have hsame : ∀ k, k ≠ .page → further k = after k := fun k hk => Function.update_of_ne hk _ _
  have hkeeps : Tree.Keeps before after further := by
    refine Tree.keeps_iff.2 fun k name address => ?_
    by_cases hk : k = .page
    · subst hk
      exact Holding.Kept.of_unchanged rfl
    · refine Holding.Kept.of_same ?_
      rw [Tree.holding?, Tree.entity?, hsame k hk, ← Tree.entity?, ← Tree.holding?]
  have hcalls : Tree.KeepsCalls before after further := by
    intro k name collection i x y z hx hy hz hredirects
    by_cases hk : k = .page
    · subst hk
      cases hx
    · rw [Tree.step?, Tree.entity?, hsame k hk, ← Tree.entity?, ← Tree.step?, hy] at hz
      cases hz
      exact hredirects.1
  exact ⟨hcomplete, hkeeps, hcalls, by decide,
    rank_severity_classify_mono {} before after further hcomplete hkeeps hcalls⟩

/-- What an action group holds besides its steps does not depend on the steps. -/
theorem ActionGroup.holding?_eq {a b : ActionGroup} (harguments : a.arguments = b.arguments)
    {address : List String} (h : ∀ i, address ≠ ["Actions", i]) :
    Body.holding? .actionGroup a address = Body.holding? .actionGroup b address := by
  by_cases haddress : ∃ i, address = ["Arguments", i]
  · obtain ⟨i, rfl⟩ := haddress
    simp [Body.holding?, harguments]
  · rw [not_exists] at haddress
    simp [Body.holding?, h, haddress]

/-- **A further change of an action type lowers the verdict.** A step calls another action group,
which is a break. In the further release it clicks instead, with the reference left as changed: now
both changes are tweaks. -/
theorem severity_classify_further_type_change :
    let login (type group : String) : Entity .actionGroup := ⟨"Login", ∅, ⟨∅, Catalog.ofList
      [⟨"open", type, Catalog.ofList [⟨Step.refAttribute, group⟩]⟩]⟩⟩
    let before := Tree.single (login Step.actionGroupType "OpenHome")
    let after := Tree.single (login Step.actionGroupType "OpenAdmin")
    let further := Tree.single (login "click" "OpenAdmin")
    (∀ k, (before k).isOk = true) ∧ (∀ k, (after k).isOk = true) ∧ (∀ k, (further k).isOk = true) ∧
      Tree.Keeps before after further ∧
      (classify {} before after).severity = some .major ∧
      (classify {} before further).severity = some .patch := by
  intro login before after further
  refine ⟨Tree.isOk_single _, Tree.isOk_single _, Tree.isOk_single _,
    Tree.keeps_iff.2 fun k name address => ?_, by decide, by decide⟩
  by_cases hlogin : k = .actionGroup ∧ "Login" = name
  · obtain ⟨rfl, rfl⟩ := hlogin
    have hholding : ∀ type group, (Tree.single (login type group)).holding? .actionGroup "Login"
        address = (login type group).holding? address :=
      fun type group => Tree.holding?_single_self (login type group) address
    rw [hholding, hholding, hholding]
    -- The three releases hold the same wherever no step stands.
    by_cases haddress : ∃ i, address = ["Actions", i]
    · obtain ⟨i, rfl⟩ := haddress
      have hstep : ∀ type group, (login type group).holding? ["Actions", i] =
          (if "open" = i then some _ else none).map Step.holding :=
        fun type group => congrArg (Option.map Step.holding) (Catalog.get?_ofList_singleton _ i)
      rw [hstep, hstep, hstep]
      by_cases hi : "open" = i
      · subst hi
        intro aspect hne
        cases aspect with
        | presence => rfl
        | text => exact absurd rfl hne
        | value name => rfl
      · exact Holding.Kept.of_unchanged (by rw [if_neg hi, if_neg hi])
    · rw [not_exists] at haddress
      have harguments : (login Step.actionGroupType "OpenHome").body.arguments =
          (login Step.actionGroupType "OpenAdmin").body.arguments := rfl
      refine Holding.Kept.of_unchanged ?_
      cases address with
      | nil => rfl
      | cons s address => exact ActionGroup.holding?_eq harguments haddress
  · refine Holding.Kept.of_unchanged ?_
    rw [Tree.holding?_single_of_ne _ hlogin, Tree.holding?_single_of_ne _ hlogin]

end Reports

end ReleaseDiff

import Mathlib.Data.List.Nodup
import Mathlib.Data.List.Perm.Basic
import Mathlib.Data.Set.List
import ReleaseDiff.Proofs.Apart
import ReleaseDiff.Proofs.Messages

set_option autoImplicit false

/-!
# What a comparison finds

A finding says what happened to one item of two releases: it is in one of them only, or it differs
in some respect. A finding holds or does not hold of what the releases have under its key. A
comparison is complete and to the point if its result enumerates the findings that hold: every one
of them is there once, and nothing else is.

## Main definitions

* `ReleaseDiff.Enumerates` — a list shows every finding that holds once, and nothing else.
* `ReleaseDiff.ItemFinding` — what can be found about the items of a collection.
* `ReleaseDiff.ItemFinding.Holds` — a finding is true of two collections.
* `ReleaseDiff.ValueFinding` — what can be found about the values of two sets.

## Main results

* `ReleaseDiff.Enumerates.append`, `ReleaseDiff.Enumerates.flatMap` — lists one after the other.
* `ReleaseDiff.Enumerates.perm` — the list, up to order, where the findings that hold are known.
* `ReleaseDiff.enumerates_collectionChanges` — the changes of a collection.
* `ReleaseDiff.enumerates_attributeChanges` — the changes of attributes.
* `ReleaseDiff.enumerates_missing` — what is in one catalog only.
-/

namespace ReleaseDiff

/-! ## Enumerations -/

/-- **A list enumerates findings**: every finding that holds is rendered in it once, and nothing
else is in it. -/
def Enumerates {φ β : Type} (render : φ → β) (holds : φ → Prop) (shown : List β) : Prop :=
  ∃ found : List φ, found.Nodup ∧ (∀ f, f ∈ found ↔ holds f) ∧ shown = found.map render

namespace Enumerates

variable {φ ψ β γ : Type} {render : φ → β} {holds holds' : φ → Prop} {shown shown' : List β}

/-- The empty list enumerates findings of which none holds. -/
theorem nil (h : ∀ f, ¬holds f) : Enumerates render holds [] :=
  ⟨[], List.nodup_nil, fun f => iff_of_false List.not_mem_nil (h f), rfl⟩

/-- A list of one item enumerates findings of which one holds. -/
theorem singleton {f : φ} (h : ∀ g, holds g ↔ g = f) : Enumerates render holds [render f] :=
  ⟨[f], List.nodup_singleton f, fun g => List.mem_singleton.trans (h g).symm, rfl⟩

theorem congr (h : Enumerates render holds shown) (hholds : ∀ f, holds f ↔ holds' f) :
    Enumerates render holds' shown := by
  obtain ⟨found, hnodup, hmem, hshown⟩ := h
  exact ⟨found, hnodup, fun f => (hmem f).trans (hholds f), hshown⟩

/-- What is rendered further is rendered in one go. -/
theorem map (h : Enumerates render holds shown) (F : β → γ) :
    Enumerates (fun f => F (render f)) holds (shown.map F) := by
  obtain ⟨found, hnodup, hmem, rfl⟩ := h
  exact ⟨found, hnodup, hmem, List.map_map⟩

/-- Findings of one type are among those of a larger one. -/
theorem image (embed : ψ → φ) (hembed : Function.Injective embed) {part : ψ → Prop}
    (h : Enumerates (fun e => render (embed e)) part shown) :
    Enumerates render (fun f => ∃ e, part e ∧ embed e = f) shown := by
  obtain ⟨found, hnodup, hmem, rfl⟩ := h
  refine ⟨found.map embed, hnodup.map hembed, fun f => ?_, List.map_map.symm⟩
  simp only [List.mem_map, hmem]

/-- **Lists one after the other** enumerate the findings of both, if no finding is in both. -/
theorem append (h : Enumerates render holds shown) (h' : Enumerates render holds' shown')
    (hdisjoint : ∀ f, holds f → ¬holds' f) :
    Enumerates render (fun f => holds f ∨ holds' f) (shown ++ shown') := by
  obtain ⟨found, hnodup, hmem, rfl⟩ := h
  obtain ⟨found', hnodup', hmem', rfl⟩ := h'
  refine ⟨found ++ found', List.nodup_append'.2 ⟨hnodup, hnodup', fun f hf hf' => ?_⟩, fun f => ?_,
    List.map_append.symm⟩
  · exact hdisjoint f ((hmem f).1 hf) ((hmem' f).1 hf')
  · rw [List.mem_append, hmem, hmem']

/-- **Many lists one after the other** enumerate the findings of all, if no finding is in two. -/
theorem flatMap {ι : Type} {keys : List ι} (hkeys : keys.Nodup) {part : ι → φ → Prop}
    {list : ι → List β} (h : ∀ i ∈ keys, Enumerates render (part i) (list i))
    (hdisjoint : ∀ i j f, part i f → part j f → i = j) :
    Enumerates render (fun f => ∃ i ∈ keys, part i f) (keys.flatMap list) := by
  induction keys with
  | nil => exact nil fun f ⟨_, hi, _⟩ => List.not_mem_nil hi
  | cons i keys ih =>
    obtain ⟨hi, hkeys⟩ := List.nodup_cons.1 hkeys
    obtain ⟨hhead, htail⟩ := List.forall_mem_cons.1 h
    rw [List.flatMap_cons]
    refine (hhead.append (ih hkeys htail) fun f hf ⟨j, hj, hf'⟩ => ?_).congr fun f => ?_
    · exact hi (hdisjoint i j f hf hf' ▸ hj)
    · simp only [List.mem_cons, exists_eq_or_imp]

/-- The order of the list plays no part. -/
theorem of_perm (h : Enumerates render holds shown) (hperm : shown'.Perm shown) :
    Enumerates render holds shown' := by
  obtain ⟨found, hnodup, hmem, rfl⟩ := h
  obtain ⟨found', rfl, hfound⟩ :=
    (congrFun (congrFun (List.eq_map_comp_perm render) shown') found).mpr hperm
  exact ⟨found', hfound.nodup_iff.2 hnodup, fun f => hfound.mem_iff.trans (hmem f), rfl⟩

/-- **The list, up to order**, where it is known which findings hold. -/
theorem perm (h : Enumerates render holds shown) {known : List φ} (hknown : known.Nodup)
    (hholds : ∀ f, holds f ↔ f ∈ known) : shown.Perm (known.map render) := by
  obtain ⟨found, hnodup, hmem, rfl⟩ := h
  refine List.Perm.map render ((List.perm_ext_iff_of_nodup hnodup hknown).2 fun f => ?_)
  exact (hmem f).trans (hholds f)

/-- **A list without repetitions enumerates the findings of its items**, if an item tells its
finding. -/
theorem of_mem_iff (hrender : Function.Injective render) (hnodup : shown.Nodup)
    (hmem : ∀ b, b ∈ shown ↔ ∃ f, holds f ∧ render f = b) : Enumerates render holds shown := by
  obtain ⟨found, rfl⟩ : shown ∈ Set.range (List.map render) := by
    rw [Set.range_list_map]
    exact fun b hb => ((hmem b).1 hb).imp fun f hf => hf.2
  refine ⟨found, hnodup.of_map, fun f => ?_, rfl⟩
  rw [← List.mem_map_of_injective hrender, hmem]
  exact ⟨fun ⟨g, hg, h⟩ => hrender h ▸ hg, fun hf => ⟨f, hf, rfl⟩⟩

/-- The part of a list that passes a test enumerates the findings whose rendering passes it. -/
theorem filter (h : Enumerates render holds shown) (test : β → Bool) :
    Enumerates render (fun f => holds f ∧ test (render f) = true) (shown.filter test) := by
  obtain ⟨found, hnodup, hmem, rfl⟩ := h
  refine ⟨found.filter fun f => test (render f), hnodup.filter _, fun f => ?_, List.filter_map⟩
  rw [List.mem_filter, hmem]

end Enumerates

/-! ## Items of a collection -/

/-- **What can happen to an item** that two releases have, or one of them; `δ` tells the respects in
which items of one key differ. -/
inductive ItemEvent (δ : Type) where
  /-- The item is in the earlier release only. -/
  | removed
  /-- The item is in the later release only. -/
  | added
  /-- The item is in both, and differs in a respect. -/
  | differs (respect : δ)
  deriving DecidableEq, Repr

/-- **A finding about a collection**: a key, and what happened to the item under it. -/
structure ItemFinding (δ : Type) where
  /-- The key of the item. -/
  key : String
  /-- What happened. -/
  event : ItemEvent δ
  deriving DecidableEq, Repr

section Items

variable {k : Kind} {α δ : Type}

/-- **An event is true of what two releases have** under one key. -/
def ItemEvent.Holds (differ : δ → α → α → Prop) : ItemEvent δ → Option α → Option α → Prop
  | removed, some _, none => True
  | added, none, some _ => True
  | differs d, some x, some y => differ d x y
  | _, _, _ => False

/-- **A finding holds** of two collections, given by what they have under every key. -/
def ItemFinding.Holds (differ : δ → α → α → Prop) (before after : String → Option α)
    (f : ItemFinding δ) : Prop :=
  f.event.Holds differ (before f.key) (after f.key)

/-- The change that shows a finding. Where items differ, the change depends on the respect. -/
def ItemFinding.change (removed added : Shape k) (path : Path) (detail : String → δ → Change k) :
    ItemFinding δ → Change k
  | ⟨key, .removed⟩ => ⟨removed, path.child key, key⟩
  | ⟨key, .added⟩ => ⟨added, path.child key, key⟩
  | ⟨key, .differs d⟩ => detail key d

variable {differ : δ → α → α → Prop} {removed added : Shape k} {path : Path}
  {detail : String → δ → Change k}

namespace ItemEvent

variable {event : ItemEvent δ} {x y : α}

/-- Under a key that neither release has, nothing has happened. -/
theorem not_holds_none (event : ItemEvent δ) : ¬event.Holds differ none none := by
  cases event <;> exact not_false

/-- An item that only the earlier release has was removed. -/
theorem holds_some_none_iff : event.Holds differ (some x) none ↔ event = .removed := by
  cases event <;> simp [Holds]

/-- An item that only the later release has was added. -/
theorem holds_none_some_iff : event.Holds differ none (some y) ↔ event = .added := by
  cases event <;> simp [Holds]

/-- An item that both releases have differs in some respect. -/
theorem holds_some_some_iff :
    event.Holds differ (some x) (some y) ↔ ∃ d, differ d x y ∧ .differs d = event := by
  cases event <;> simp [Holds]

end ItemEvent

/-- What has happened under one key. -/
theorem enumerates_itemChanges {both : α → α → List (Change k)} (i : String) {x? y? : Option α}
    (hboth : ∀ x y, x? = some x → y? = some y →
      Enumerates (detail i) (fun d => differ d x y) (both x y)) :
    Enumerates (fun event => ItemFinding.change removed added path detail ⟨i, event⟩)
      (fun event => event.Holds differ x? y?) (itemChanges removed added path both i x? y?) := by
  cases x? with
  | none =>
    cases y? with
    | none => exact .nil ItemEvent.not_holds_none
    | some y => exact .singleton (f := ItemEvent.added) fun _ => ItemEvent.holds_none_some_iff
  | some x =>
    cases y? with
    | none => exact .singleton (f := ItemEvent.removed) fun _ => ItemEvent.holds_some_none_iff
    | some y =>
      have hboth' : Enumerates
          (fun event => ItemFinding.change removed added path detail ⟨i, event⟩) _ (both x y) :=
        (hboth x y rfl rfl).image .differs fun _ _ => ItemEvent.differs.inj
      exact hboth'.congr fun _ => ItemEvent.holds_some_some_iff.symm

variable [Keyed α] {both : α → α → List (Change k)} {before after : Catalog α}

/-- **The changes of a collection enumerate its findings**, if those of two items of one key
enumerate the respects in which they differ.

**Proof sketch.** A collection is compared key by key, up to the order of the changes, and under
every key at most one kind of event holds. Findings under different keys are different. -/
theorem enumerates_collectionChanges (hboth : ∀ i x y, before.get? i = some x →
      after.get? i = some y → Enumerates (detail i) (fun d => differ d x y) (both x y)) :
    Enumerates (ItemFinding.change removed added path detail)
      (ItemFinding.Holds differ before.get? after.get?)
      (collectionChanges removed added path both before after) := by
  have hinjective : ∀ i, Function.Injective (ItemFinding.mk (δ := δ) i) := fun _ _ _ h =>
    (ItemFinding.mk.inj h).2
  have hkeys : Enumerates (ItemFinding.change removed added path detail) _
      (Catalog.pointwise before after (itemChanges removed added path both)) :=
    .flatMap (Catalog.nodup_keysOfBoth before after)
      (fun i _ => (enumerates_itemChanges i (hboth i)).image _ (hinjective i))
      (fun i j f ⟨_, _, hi⟩ ⟨_, _, hj⟩ => congrArg ItemFinding.key (hi.trans hj.symm))
  refine (hkeys.of_perm (collectionChanges_perm removed added path both before after)).congr
    fun f => ⟨?_, fun h => ⟨f.key, ?_, f.event, h, rfl⟩⟩
  · rintro ⟨i, -, event, h, rfl⟩
    exact h
  · rw [Catalog.mem_keysOfBoth_iff]
    by_contra hnone
    rw [not_or, Bool.not_eq_true, Bool.not_eq_true, Catalog.contains_eq_false_iff,
      Catalog.contains_eq_false_iff] at hnone
    rw [ItemFinding.Holds, hnone.1, hnone.2] at h
    exact ItemEvent.not_holds_none _ h

end Items

/-- **The changes of attributes enumerate the names** under which the values differ. -/
theorem enumerates_attributeChanges {k : Kind} (shape : String → Shape k) (path : Path)
    (target : String → String) (before after : Attributes) :
    Enumerates (fun name => (⟨shape name, path.child name, target name⟩ : Change k))
      (fun name => before.value? name ≠ after.value? name)
      (attributeChanges shape path target before after) :=
  ⟨_, (Catalog.nodup_keysOfBoth before after).filter _,
    fun _ => Attributes.mem_changedNames_iff,
    attributeChanges_eq_map shape path target before after⟩

/-! ## Values of a set -/

/-- **A finding about two sets of values**: a value that only one of them has. -/
inductive ValueFinding where
  /-- The value is in the earlier set only. -/
  | removed (value : String)
  /-- The value is in the later set only. -/
  | added (value : String)
  deriving DecidableEq, Repr

/-- **A finding holds** of two sets, given by their members. -/
def ValueFinding.Holds (before after : String → Prop) : ValueFinding → Prop
  | removed v => before v ∧ ¬after v
  | added v => ¬before v ∧ after v

/-- The change that shows a finding about two sets, each value at its own place. -/
def ValueFinding.change {k : Kind} (removedShape addedShape : Shape k) (place : String → Path) :
    ValueFinding → Change k
  | removed v => ⟨removedShape, place v, v⟩
  | added v => ⟨addedShape, place v, v⟩

/-- **What is in one catalog only enumerates the findings about their keys.** -/
theorem enumerates_missing {α β : Type} [Keyed α] (render : ValueFinding → β)
    (before after : Catalog α) :
    Enumerates render (ValueFinding.Holds (before.contains · = true) (after.contains · = true))
      ((missingFrom before.items after.items).map (fun x => render (.removed (key x)))
        ++ (missingFrom after.items before.items).map fun x => render (.added (key x))) := by
  have hpart : ∀ (c d : Catalog α) (embed : String → ValueFinding), Function.Injective embed →
      Enumerates render (fun f => ∃ v, (c.contains v = true ∧ ¬d.contains v = true) ∧ embed v = f)
        ((missingFrom c.items d.items).map fun x => render (embed (key x))) := by
    intro c d embed hembed
    refine .image embed hembed ⟨(missingFrom c.items d.items).map key, ?_, fun v => ?_, ?_⟩
    · exact c.nodup_keys.sublist (List.filter_sublist.map key)
    · simp only [missingFrom, List.mem_map, List.mem_filter, Catalog.contains_iff (c := c)]
      constructor
      · rintro ⟨x, ⟨hx, hnone⟩, rfl⟩
        exact ⟨⟨x, hx, rfl⟩, by simpa [Catalog.contains, Catalog.get?] using hnone⟩
      · rintro ⟨⟨x, hx, rfl⟩, hnone⟩
        exact ⟨x, ⟨hx, by simpa [Catalog.contains, Catalog.get?] using hnone⟩, rfl⟩
    · rw [List.map_map]
      rfl
  have hremoved := hpart before after .removed fun _ _ => ValueFinding.removed.inj
  have hadded := hpart after before .added fun _ _ => ValueFinding.added.inj
  refine (hremoved.append hadded ?_).congr fun f => ?_
  · rintro _ ⟨v, -, rfl⟩ ⟨w, -, hw⟩
    cases hw
  · cases f <;> simp [ValueFinding.Holds, and_comm]

/-! ## Changes of some shapes -/

section Shapes

variable {k : Kind} {shapes : List (Shape k)}

/-- The changes of some shapes among others. -/
def ofShapes (shapes : List (Shape k)) (changes : List (Change k)) : List (Change k) :=
  changes.filter fun c => c.shape ∈ shapes

theorem ofShapes_append (cs ds : List (Change k)) :
    ofShapes shapes (cs ++ ds) = ofShapes shapes cs ++ ofShapes shapes ds :=
  List.filter_append cs ds

theorem ofShapes_eq_self {changes : List (Change k)} (h : ∀ c ∈ changes, c.shape ∈ shapes) :
    ofShapes shapes changes = changes :=
  List.filter_eq_self.2 fun c hc => decide_eq_true (h c hc)

theorem ofShapes_eq_nil {changes : List (Change k)} (h : ∀ c ∈ changes, c.shape ∉ shapes) :
    ofShapes shapes changes = [] :=
  List.filter_eq_nil_iff.2 fun c hc => by simpa using h c hc

variable {P : Shape k → Prop} {path : Path} {c : Change k}

/-- The changes of attributes have the shapes of the attributes. -/
theorem shape_of_mem_attributeChanges {shape : String → Shape k} {target : String → String}
    {before after : Attributes} (hshape : ∀ name, P (shape name))
    (hc : c ∈ attributeChanges shape path target before after) : P c.shape := by
  obtain ⟨name, -, rfl⟩ := mem_attributeChanges_iff.1 hc
  exact hshape name

/-- The changes of a collection have the two shapes of its items, and those of two items of one
key. -/
theorem shape_of_mem_collectionChanges {α : Type} [Keyed α] {removed added : Shape k}
    {both : α → α → List (Change k)} {before after : Catalog α} (hremoved : P removed)
    (hadded : P added) (hboth : ∀ x y, ∀ d ∈ both x y, P d.shape)
    (hc : c ∈ collectionChanges removed added path both before after) : P c.shape := by
  obtain ⟨i, ⟨x, -, -, rfl⟩ | ⟨y, -, -, rfl⟩ | ⟨x, y, -, -, hc⟩⟩ := mem_collectionChanges_iff.1 hc
  · exact hremoved
  · exact hadded
  · exact hboth x y c hc

/-- The changes of a collection of children have the shapes of its repertoire. -/
theorem shape_of_mem_childChanges {repertoire : ChildRepertoire k} {before after : Catalog Child}
    (hremoved : P repertoire.removed) (hadded : P repertoire.added)
    (hchanged : P repertoire.changed) (hc : c ∈ childChanges repertoire path before after) :
    P c.shape := by
  rw [childChanges_eq] at hc
  refine shape_of_mem_collectionChanges hremoved hadded (fun x y d hd => ?_) hc
  exact shape_of_mem_attributeChanges (fun _ => hchanged) hd

/-- Items that only appear and disappear have changes of two shapes. -/
theorem shape_of_mem_presenceChanges {α : Type} [Keyed α] {removed added : Shape k}
    {before after : Catalog α} (hremoved : P removed) (hadded : P added)
    (hc : c ∈ presenceChanges removed added path before.items after.items) : P c.shape := by
  rw [presenceChanges_eq] at hc
  exact shape_of_mem_collectionChanges hremoved hadded
    (fun _ _ _ hd => absurd hd List.not_mem_nil) hc

/-- The changes of annotations have one of four shapes. -/
theorem shape_of_mem_annotationChanges {P : Shape .test → Prop} {before after : Annotations}
    (hb : before.WellFormed) (ha : after.WellFormed) {c : Change .test}
    (hvalueRemoved : P .groupRemoved) (hvalueAdded : P .groupAdded)
    (hchanged : P .annotationChanged) (hadded : P .annotationAdded)
    (hc : c ∈ annotationChanges path before after) : P c.shape := by
  rcases (mem_annotationChanges_iff hb ha).1 hc with ⟨name, -, -, rfl⟩ | ⟨name, -, hc⟩
  · show P (if before.content? name = none then _ else _)
    split
    · exact hadded
    · exact hchanged
  · obtain ⟨v, ⟨-, -, rfl⟩ | ⟨-, -, rfl⟩⟩ := mem_valueChanges_iff.1 hc
    · exact hvalueRemoved
    · exact hvalueAdded

end Shapes

/-! ## Records -/

section Records

variable {k : Kind}

/-- Records are picked by code as their changes are by shape. -/
theorem filter_code_records {shapes : List (Shape k)} {codes : List String}
    (h : ∀ s, (Shape.row k s).code ∈ codes ↔ s ∈ shapes) (name : String)
    (changes : List (Change k)) :
    ((changes.map (Change.record name)).filter fun r => r.code ∈ codes) =
      (ofShapes shapes changes).map (Change.record name) := by
  rw [List.filter_map, ofShapes]
  refine congrArg (List.map _) (List.filter_congr fun c _ => decide_eq_decide.2 ?_)
  exact h c.shape

/-- A record whose message tells a target, and what happened to it. -/
def Record.ofTarget (k : Kind) (path : List String) (code : String) (severity : Severity)
    (tag target happened : String) : Record :=
  ⟨k, "/".intercalate path, code, severity, tag ++ " " ++ target ++ " " ++ happened⟩

/-- **The record of a change whose row tells the target.** -/
theorem Change.record_of_row {c : Change k} {code tag happened : String} {severity : Severity}
    (hrow : Shape.row k c.shape = .ofTarget code severity tag happened)
    (htag : TaxonomyRow.Plain tag) (hhappened : TaxonomyRow.Plain happened) (name : String) :
    c.record name =
      .ofTarget k c.path.segments code severity tag c.target happened := by
  rw [record, hrow, TaxonomyRow.render_ofTarget name c.target htag hhappened]
  rfl

end Records

end ReleaseDiff

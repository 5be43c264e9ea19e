import ReleaseDiff.Proofs.Building
import ReleaseDiff.Proofs.Findings

set_option autoImplicit false

/-!
# What the comparison of data entities finds

A data entity declares fields, arrays, required entities and variables. Two data entities are
compared by what they declare under every key: fields by their text, arrays by the texts in them,
whatever their order and however often they recur, and the others by their attributes.

## Main definitions

* `ReleaseDiff.DataFinding` — what can be found about two data entities.
* `ReleaseDiff.DataFinding.Holds` — a finding is true of what two data entities declare.
* `ReleaseDiff.DataFinding.record` — the record of a finding.

## Main results

* `ReleaseDiff.enumerates_dataFieldChanges`, `ReleaseDiff.enumerates_arrayChanges`,
  `ReleaseDiff.enumerates_childChanges` — the changes of the collections.
* `ReleaseDiff.ItemFinding.holds_congr` — findings about catalogs hold of what they were built from.
* `ReleaseDiff.DataFinding.enumerates_changes` — the changes of two data entities.
* `ReleaseDiff.data_compared_by_declaration` — the records of two built data entities.
-/

namespace ReleaseDiff

variable {k : Kind}

/-! ## The changes of the collections -/

/-- **The changes of a collection of children enumerate the findings**: a child that only one
release has, or an attribute that differs. -/
theorem enumerates_childChanges (repertoire : ChildRepertoire k) (path : Path)
    (before after : Catalog Child) :
    Enumerates
      (ItemFinding.change repertoire.removed repertoire.added path fun key name =>
        ⟨repertoire.changed, (path.child key).child name, key⟩)
      (ItemFinding.Holds (fun name x y => x.attributes.value? name ≠ y.attributes.value? name)
        before.get? after.get?)
      (childChanges repertoire path before after) := by
  rw [childChanges_eq]
  refine enumerates_collectionChanges fun i x y hx _ => ?_
  obtain rfl : x.key = i := (Catalog.get?_eq_some_iff.1 hx).2
  exact enumerates_attributeChanges _ _ _ _ _

/-- **The changes of the fields of a data entity enumerate the findings**: a field that only one
release has, or another text. -/
theorem enumerates_dataFieldChanges (path : Path) (before after : Catalog DataField) :
    Enumerates
      (ItemFinding.change (k := .data) .fieldRemoved .fieldAdded path fun key (_ : Unit) =>
        ⟨.fieldChanged, path.child key, key⟩)
      (ItemFinding.Holds (fun _ x y => x.value ≠ y.value) before.get? after.get?)
      (dataFieldChanges path before after) := by
  rw [dataFieldChanges_eq]
  refine enumerates_collectionChanges fun i x y hx _ => ?_
  obtain rfl : x.key = i := (Catalog.get?_eq_some_iff.1 hx).2
  unfold dataFieldPairChanges
  split
  · rename_i heq
    exact .nil fun _ hne => hne heq
  · rename_i hne
    exact .singleton (f := ()) fun _ => iff_of_true hne rfl

/-- **The changes of the arrays of a data entity enumerate the findings**: an array that only one
release has, or a text that only one of two arrays has. -/
theorem enumerates_arrayChanges (path : Path) (before after : Catalog DataArray) :
    Enumerates
      (ItemFinding.change (k := .data) .arrayRemoved .arrayAdded path fun key value =>
        value.change .arrayItemRemoved .arrayItemAdded ((path.child key).child "Items").child)
      (ItemFinding.Holds (fun value x y =>
        ValueFinding.Holds (x.items.contains · = true) (y.items.contains · = true) value)
        before.get? after.get?)
      (arrayChanges path before after) := by
  rw [arrayChanges_eq]
  refine enumerates_collectionChanges fun i x y hx _ => ?_
  obtain rfl : x.key = i := (Catalog.get?_eq_some_iff.1 hx).2
  exact enumerates_missing _ _ _

/-! ## From catalogs to what was declared -/

/-- **Findings about related collections hold together**, if related items differ in the same
respects. -/
theorem ItemFinding.holds_congr {α β δ : Type} {R : α → β → Prop} {differ : δ → α → α → Prop}
    {differ' : δ → β → β → Prop} {before after : String → Option α}
    {before' after' : String → Option β} (hb : ∀ i, Option.Rel R (before i) (before' i))
    (ha : ∀ i, Option.Rel R (after i) (after' i))
    (hdiffer : ∀ d x x' y y', R x x' → R y y' → (differ d x y ↔ differ' d x' y'))
    (f : ItemFinding δ) : f.Holds differ before after ↔ f.Holds differ' before' after' := by
  obtain ⟨i, event⟩ := f
  have hbefore := hb i
  have hafter := ha i
  unfold ItemFinding.Holds
  generalize before i = x?, before' i = x'? at hbefore
  generalize after i = y?, after' i = y'? at hafter
  cases hbefore <;> cases hafter <;> cases event <;> try exact Iff.rfl
  case some.some.differs hx _ _ hy d => exact hdiffer d _ _ _ _ hx hy

/-- What is found about catalogs of distinct items holds of the declared items. -/
theorem ItemFinding.holds_iff_of_files {α δ : Type} [Keyed α] {differ : δ → α → α → Prop}
    {items items' : List α} {before after : Catalog α} (hb : before.Files Eq items)
    (ha : after.Files Eq items') (f : ItemFinding δ) :
    f.Holds differ before.get? after.get? ↔ f.Holds differ (lookup items) (lookup items') :=
  (holds_congr hb.rel_lookup ha.rel_lookup (fun _ _ _ _ _ hx hy => by rw [hx, hy]) f).symm

/-! ## Findings -/

/-- **A finding about two data entities.** -/
inductive DataFinding where
  /-- About a field; the only respect is its text. -/
  | field (finding : ItemFinding Unit)
  /-- About an array; arrays differ in texts that only one of them has. -/
  | array (finding : ItemFinding ValueFinding)
  /-- About a required entity; required entities differ in attributes. -/
  | requiredEntity (finding : ItemFinding String)
  /-- About a variable; variables differ in attributes. -/
  | var (finding : ItemFinding String)
  deriving DecidableEq, Repr

namespace DataFinding

/-- **A finding holds** of what two data entities declare. -/
def Holds (before after : DataParts) : DataFinding → Prop
  | field f => f.Holds (fun _ x y => x.value ≠ y.value) (lookup before.fields) (lookup after.fields)
  | array f =>
    f.Holds (fun value x y => value.Holds (· ∈ x.items) (· ∈ y.items)) (lookup before.arrays)
      (lookup after.arrays)
  | requiredEntity f =>
    f.Holds (fun name x y => x.attributes.value? name ≠ y.attributes.value? name)
      (lookup before.requiredEntities) (lookup after.requiredEntities)
  | var f =>
    f.Holds (fun name x y => x.attributes.value? name ≠ y.attributes.value? name)
      (lookup before.vars) (lookup after.vars)

/-- **The record of a finding** in a data entity of a name. -/
def record (entity : String) : DataFinding → Record
  | field ⟨i, .removed⟩ =>
    .ofTarget .data [entity, "Fields", i] "M208" .major "<entity> <data>" i "was removed"
  | field ⟨i, .added⟩ =>
    .ofTarget .data [entity, "Fields", i] "M230" .minor "<entity> <data>" i "was added"
  | field ⟨i, .differs _⟩ =>
    .ofTarget .data [entity, "Fields", i] "M248" .patch "<entity> <data>" i "was changed"
  | array ⟨i, .removed⟩ =>
    .ofTarget .data [entity, "Arrays", i] "M206" .major "<entity> <array>" i "was removed"
  | array ⟨i, .added⟩ =>
    .ofTarget .data [entity, "Arrays", i] "M229" .minor "<entity> <array>" i "was added"
  | array ⟨i, .differs (.removed v)⟩ =>
    .ofTarget .data [entity, "Arrays", i, "Items", v] "M207" .minor "<entity> <array> <item>" v
      "was removed"
  | array ⟨i, .differs (.added v)⟩ =>
    .ofTarget .data [entity, "Arrays", i, "Items", v] "M249" .minor "<entity> <array> <item>" v
      "was added"
  | requiredEntity ⟨i, .removed⟩ =>
    .ofTarget .data [entity, "RequiredEntities", i] "M209" .major "<entity> <required-entity>" i
      "was removed"
  | requiredEntity ⟨i, .added⟩ =>
    .ofTarget .data [entity, "RequiredEntities", i] "M231" .patch "<entity> <required-entity>" i
      "was added"
  | requiredEntity ⟨i, .differs name⟩ =>
    .ofTarget .data [entity, "RequiredEntities", i, name] "M250" .patch
      "<entity> <required-entity>" i "was changed"
  | var ⟨i, .removed⟩ =>
    .ofTarget .data [entity, "Vars", i] "M210" .major "<entity> <var>" i "was removed"
  | var ⟨i, .added⟩ =>
    .ofTarget .data [entity, "Vars", i] "M232" .minor "<entity> <var>" i "was added"
  | var ⟨i, .differs name⟩ =>
    .ofTarget .data [entity, "Vars", i, name] "M251" .patch "<entity> <var>" i "was changed"

/-- The change that shows a finding. -/
def change (path : Path) : DataFinding → Change .data
  | field f =>
    f.change .fieldRemoved .fieldAdded (path.child "Fields") fun key _ =>
      ⟨.fieldChanged, (path.child "Fields").child key, key⟩
  | array f =>
    f.change .arrayRemoved .arrayAdded (path.child "Arrays") fun key value =>
      value.change .arrayItemRemoved .arrayItemAdded
        (((path.child "Arrays").child key).child "Items").child
  | requiredEntity f =>
    f.change .requiredEntityRemoved .requiredEntityAdded (path.child "RequiredEntities")
      fun key name =>
        ⟨.requiredEntityChanged, ((path.child "RequiredEntities").child key).child name, key⟩
  | var f =>
    f.change .varRemoved .varAdded (path.child "Vars") fun key name =>
      ⟨.varChanged, ((path.child "Vars").child key).child name, key⟩

/-- **The record of the change that shows a finding.** -/
theorem record_change (entity : String) (f : DataFinding) :
    (f.change (.root entity)).record entity = f.record entity := by
  rcases f with ⟨i, _ | _ | _⟩ | ⟨i, _ | _ | (v | v)⟩ | ⟨i, _ | _ | name⟩ | ⟨i, _ | _ | name⟩ <;>
    exact Change.record_of_row (by rfl) (by decide) (by decide) entity

end DataFinding

/-! ## The changes of two data entities -/

namespace DataFinding

variable {path : Path} {p q : DataParts} {a b : DataEntity}

/-- The findings of one sort that hold of what two data entities declare. -/
def Among {δ : Type} (sort : ItemFinding δ → DataFinding) (before after : DataParts)
    (f : DataFinding) : Prop :=
  ∃ e, (sort e).Holds before after ∧ sort e = f

/-- A finding of one sort is none of another. -/
theorem not_among {δ ε : Type} {sort : ItemFinding δ → DataFinding}
    {sort' : ItemFinding ε → DataFinding} (hsorts : ∀ e e', sort e ≠ sort' e') {f : DataFinding}
    (h : Among sort p q f) : ¬Among sort' p q f := by
  obtain ⟨e, -, rfl⟩ := h
  exact fun ⟨e', _, heq⟩ => hsorts e e' heq.symm

/-- A finding that holds is one of four sorts. -/
theorem holds_iff_among {f : DataFinding} :
    f.Holds p q ↔ ((Among field p q f ∨ Among array p q f) ∨ Among requiredEntity p q f) ∨
      Among var p q f := by
  unfold Among
  cases f <;> simp

/-- The changes of the fields enumerate the findings about fields. -/
theorem enumerates_field (ha : a.fields.Files Eq p.fields) (hb : b.fields.Files Eq q.fields) :
    Enumerates (change path) (Among field p q)
      (dataFieldChanges (path.child "Fields") a.fields b.fields) :=
  .image field (fun _ _ => field.inj)
    ((enumerates_dataFieldChanges _ _ _).congr (ItemFinding.holds_iff_of_files ha hb))

/-- The changes of the arrays enumerate the findings about arrays: an array holds the texts that
were declared. -/
theorem enumerates_array (ha : a.arrays.Files ArrayParts.Becomes p.arrays)
    (hb : b.arrays.Files ArrayParts.Becomes q.arrays) :
    Enumerates (change path) (Among array p q)
      (arrayChanges (path.child "Arrays") a.arrays b.arrays) := by
  have hvalues : ∀ (value : ValueFinding) (x : ArrayParts) (x' : DataArray) (y : ArrayParts)
      (y' : DataArray), x.Becomes x' → y.Becomes y' →
        (value.Holds (· ∈ x.items) (· ∈ y.items) ↔
          value.Holds (x'.items.contains · = true) (y'.items.contains · = true)) := by
    intro value x x' y y' hx hy
    simp only [hx.contains_iff, hy.contains_iff]
  exact .image array (fun _ _ => array.inj) ((enumerates_arrayChanges _ _ _).congr fun f =>
    (f.holds_congr ha.rel_lookup hb.rel_lookup hvalues).symm)

/-- The changes of the required entities enumerate the findings about them. -/
theorem enumerates_requiredEntity (ha : a.requiredEntities.Files Eq p.requiredEntities)
    (hb : b.requiredEntities.Files Eq q.requiredEntities) :
    Enumerates (change path) (Among requiredEntity p q)
      (childChanges (k := .data)
        ⟨.requiredEntityAdded, .requiredEntityRemoved, .requiredEntityChanged⟩
        (path.child "RequiredEntities") a.requiredEntities b.requiredEntities) :=
  .image requiredEntity (fun _ _ => requiredEntity.inj)
    ((enumerates_childChanges _ _ _ _).congr (ItemFinding.holds_iff_of_files ha hb))

/-- The changes of the variables enumerate the findings about them. -/
theorem enumerates_var (ha : a.vars.Files Eq p.vars) (hb : b.vars.Files Eq q.vars) :
    Enumerates (change path) (Among var p q)
      (childChanges (k := .data) ⟨.varAdded, .varRemoved, .varChanged⟩ (path.child "Vars") a.vars
        b.vars) :=
  .image var (fun _ _ => var.inj)
    ((enumerates_childChanges _ _ _ _).congr (ItemFinding.holds_iff_of_files ha hb))

/-- **The changes of two data entities enumerate the findings** that hold of what they declare. -/
theorem enumerates_changes (ha : Body.Shows .data p a) (hb : Body.Shows .data q b) :
    Enumerates (change path) (Holds p q) (DataEntity.changes path a b) := by
  obtain ⟨hfields, harrays, hrequired, hvars⟩ := ha
  obtain ⟨hfields', harrays', hrequired', hvars'⟩ := hb
  refine ((((enumerates_field hfields hfields').append
    (enumerates_array harrays harrays') ?_).append
      (enumerates_requiredEntity hrequired hrequired') ?_).append
        (enumerates_var hvars hvars') ?_).congr fun f => holds_iff_among.symm
  · exact fun f => not_among fun _ _ h => by cases h
  · rintro f (hf | hf)
    · exact not_among (fun _ _ h => by cases h) hf
    · exact not_among (fun _ _ h => by cases h) hf
  · rintro f ((hf | hf) | hf)
    · exact not_among (fun _ _ h => by cases h) hf
    · exact not_among (fun _ _ h => by cases h) hf
    · exact not_among (fun _ _ h => by cases h) hf

end DataFinding

/-- **Two built data entities, compared.** Besides those of the attributes of the entity, the
records are one for every finding that holds of what the two declare: a field, array, required
entity or variable under a key that only one declares; a field under a shared key with another text;
a text that only one of two arrays under a shared key declares, wherever and however often; an
attribute that differs between required entities or variables under a shared key. -/
theorem data_compared_by_declaration {d e : Draft .data} {a b : Entity .data}
    (hd : d.build? = .ok a) (he : e.build? = .ok b) (name : String) :
    ∃ findings : List DataFinding, findings.Nodup ∧
      (∀ f, f ∈ findings ↔ f.Holds d.parts e.parts) ∧
      Entity.records name (some a) (some b) =
        (attributeChanges (fun _ => Shape.attributeChanged .data) (.root name) id a.attributes
          b.attributes).map (Change.record name)
        ++ findings.map (DataFinding.record name) := by
  obtain ⟨findings, hnodup, hholds, hchanges⟩ :
      Enumerates _ _ (DataEntity.changes (.root name) a.body b.body) :=
    DataFinding.enumerates_changes (Draft.shows_of_build? hd).body (Draft.shows_of_build? he).body
  refine ⟨findings, hnodup, hholds, ?_⟩
  rw [Entity.records, Entity.changes, Body.changes, List.map_append, hchanges, List.map_map]
  exact congrArg _ (List.map_congr_left fun f _ => f.record_change name)

/-- An array in another order and with other repetitions, beside changes of every collection. -/
theorem data_compared_by_declaration_customer :
    let d : Draft .data := ⟨"Customer", [⟨"type", "person"⟩],
      { fields := [⟨"email", "a"⟩]
        arrays := [⟨"phones", ["2", "1", "2"]⟩, ⟨"old", ["x"]⟩]
        requiredEntities := [⟨"Address", ∅⟩]
        vars := [⟨"id", ∅⟩] }⟩
    let e : Draft .data := ⟨"Customer", [⟨"type", "customer"⟩],
      { fields := [⟨"name", "n"⟩, ⟨"email", "b"⟩]
        arrays := [⟨"phones", ["1", "3", "1"]⟩]
        requiredEntities := [⟨"Address", .ofList [⟨"type", "home"⟩]⟩] }⟩
    ∃ a b, d.build? = .ok a ∧ e.build? = .ok b ∧
      (∃ findings : List DataFinding, findings.Nodup ∧
        (∀ f, f ∈ findings ↔ f.Holds d.parts e.parts) ∧
        Entity.records "Customer" (some a) (some b) =
          (attributeChanges (fun _ => Shape.attributeChanged .data) (.root "Customer") id
            a.attributes b.attributes).map (Change.record "Customer")
          ++ findings.map (DataFinding.record "Customer")) ∧
      (Entity.records "Customer" (some a) (some b)).map (fun r => (r.path, r.code)) =
        [("Customer/type", "M247"), ("Customer/Fields/name", "M230"),
          ("Customer/Fields/email", "M248"), ("Customer/Arrays/old", "M206"),
          ("Customer/Arrays/phones/Items/2", "M207"), ("Customer/Arrays/phones/Items/3", "M249"),
          ("Customer/RequiredEntities/Address/type", "M250"), ("Customer/Vars/id", "M210")] := by
  intro d e
  refine ⟨_, _, rfl, rfl, ?_, by rfl⟩
  exact data_compared_by_declaration (d := d) (e := e) rfl rfl "Customer"

end ReleaseDiff

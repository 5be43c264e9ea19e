import ReleaseDiff.Classification
import ReleaseDiff.Proofs.Collections

set_option autoImplicit false

/-!
# From entities to reports

The records of a report are those of its kinds, and the records of a kind are those of its entities,
name by name. The order of a report plays no part in which records it holds.

## Main definitions

* `ReleaseDiff.Tree.entity?` — the entity of a name.

## Main results

* `ReleaseDiff.entityRecords_perm` — the entities of a kind are compared name by name.
* `ReleaseDiff.records_classify_perm` — the records of a report are those of the enabled kinds.
* `ReleaseDiff.mem_records_classify_iff` — where a record of a report comes from.
-/

namespace ReleaseDiff

/-- **The entity of a name**, if its kind could be built and the name is there. -/
def Tree.entity? (t : Tree) (k : Kind) (name : String) : Option (Entity k) :=
  (t k).entities.get? name

/-- The entities of a kind that could be built are those of its catalog. -/
theorem Tree.entity?_of_ok {t : Tree} {k : Kind} {entities : Catalog (Entity k)}
    (h : t k = .ok entities) (name : String) : t.entity? k name = entities.get? name := by
  rw [entity?, h, Slot.entities]

/-- **The entities of a kind are compared name by name**, up to the order of the records. -/
theorem entityRecords_perm {k : Kind} (before after : Catalog (Entity k)) :
    (entityRecords before after).Perm (Catalog.pointwise before after Entity.records) :=
  Catalog.matchWith_perm_pointwise before after Entity.records

/-- A name that neither release has gives no record. -/
@[simp] theorem Entity.records_none_none {k : Kind} (name : String) :
    Entity.records (k := k) name none none = [] := rfl

/-- No kind is enabled twice. -/
theorem Config.nodup_enabledKinds (config : Config) : config.enabledKinds.Nodup := by
  have hall : Kind.all.Nodup := by decide
  unfold Config.enabledKinds
  split
  · exact hall
  · exact hall.filter _

/-- Where both releases could build a kind, its outcome is what comparing its entities gives. -/
theorem compareKind_of_ok {k : Kind} {before after : Tree} {old new : Catalog (Entity k)}
    (hb : before k = .ok old) (ha : after k = .ok new) :
    compareKind k before after = .ok (entityRecords old new) := by
  rw [compareKind, hb, ha]

/-- Only a kind that both releases could build has records. -/
theorem mem_records_compareKind_iff {k : Kind} {before after : Tree} {r : Record} :
    r ∈ (compareKind k before after).records ↔
      ∃ old new, before k = .ok old ∧ after k = .ok new ∧ r ∈ entityRecords old new := by
  unfold compareKind
  cases hb : before k with
  | error m => simp [KindOutcome.records]
  | ok old =>
    cases ha : after k with
    | error m => simp [KindOutcome.records]
    | ok new => simp [KindOutcome.records]

/-- **The records of a report are those of the enabled kinds**, up to their order. -/
theorem records_classify_perm (config : Config) (before after : Tree) :
    (classify config before after).records.Perm
      (config.enabledKinds.flatMap fun k => (compareKind k before after).records) := by
  refine (List.mergeSort_perm _ _).trans (List.Perm.of_eq ?_)
  rw [List.flatMap_map]

/-- **The failures of a report are those of the enabled kinds**, up to their order. -/
theorem failures_classify_perm (config : Config) (before after : Tree) :
    (classify config before after).failures.Perm
      (config.enabledKinds.flatMap fun k => (compareKind k before after).failures) := by
  refine (List.mergeSort_perm _ _).trans (List.Perm.of_eq ?_)
  rw [List.flatMap_map]

/-- **Where a record of a report comes from**: it is a record of some name of an enabled kind that
both releases could build. -/
theorem mem_records_classify_iff {config : Config} {before after : Tree} {r : Record} :
    r ∈ (classify config before after).records ↔
      ∃ k ∈ config.enabledKinds, ∃ old new, before k = .ok old ∧ after k = .ok new ∧
        ∃ name, r ∈ Entity.records name (old.get? name) (new.get? name) := by
  rw [(records_classify_perm config before after).mem_iff, List.mem_flatMap]
  simp only [mem_records_compareKind_iff, (entityRecords_perm _ _).mem_iff,
    Catalog.mem_pointwise_iff fun _ => Entity.records_none_none _]

/-- A record of an entity has the kind of the entity. -/
theorem Entity.kind_of_mem_records {k : Kind} {name : String} {before after : Option (Entity k)}
    {r : Record} (h : r ∈ Entity.records name before after) : r.kind = k := by
  obtain ⟨c, -, rfl⟩ := List.mem_map.1 h
  rfl

/-- A record of comparing a kind has that kind. -/
theorem kind_of_mem_records_compareKind {k : Kind} {before after : Tree} {r : Record}
    (h : r ∈ (compareKind k before after).records) : r.kind = k := by
  obtain ⟨old, new, -, -, hr⟩ := mem_records_compareKind_iff.1 h
  rw [(entityRecords_perm old new).mem_iff,
    Catalog.mem_pointwise_iff fun _ => Entity.records_none_none _] at hr
  obtain ⟨name, hr⟩ := hr
  exact Entity.kind_of_mem_records hr

end ReleaseDiff

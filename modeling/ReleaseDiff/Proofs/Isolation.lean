import ReleaseDiff.Proofs.Coverage
import ReleaseDiff.Proofs.Decomposition
import ReleaseDiff.Proofs.Sorting

set_option autoImplicit false

/-!
# Kinds do not disturb each other

A kind that could not be built stops the comparison of that kind and of no other. What a report says
of a kind depends on the two slots of the kind alone, and leaving kinds out of a comparison is the
same as leaving them out of the report.

## Main definitions

* `ReleaseDiff.Slot.failure?` — what a report says of a slot that could not be built.
* `ReleaseDiff.Report.failuresFor` — the failures of a kind.
* `ReleaseDiff.Report.restrict` — a report cut down to some kinds.

## Main results

* `ReleaseDiff.filter_flatMap_of_kind` — choosing by kind from what the kinds give is choosing
  kinds.
* `ReleaseDiff.classify_eq_of_sorted` — what is found in report order makes up the report.
* `ReleaseDiff.recordsFor_classify`, `ReleaseDiff.failuresFor_classify` — what a report says of a
  kind.
* `ReleaseDiff.classify_eq_restrict` — leaving kinds out.
* `ReleaseDiff.classify_isolates_kinds` — all of it together.
-/

namespace ReleaseDiff

variable {k : Kind} {config : Config} {before after : Tree}

/-- **What a report says of a slot that could not be built.** -/
def Slot.failure? (side : Side) (s : Slot k) : Option Failure :=
  s.defect?.map fun m => ⟨k, side, m.1.code, m.1.message⟩

namespace Report

/-- The failures of a kind, in report order. -/
def failuresFor (r : Report) (k : Kind) : List Failure := r.failures.filter fun f => f.kind = k

/-- **A report cut down to some kinds**: what it says of them, and the verdict on that. -/
def restrict (r : Report) (kinds : List Kind) : Report where
  records := r.records.filter fun x => x.kind ∈ kinds
  severity := Verdict.worst ((r.records.filter fun x => x.kind ∈ kinds).map Record.severity)
  failures := r.failures.filter fun f => f.kind ∈ kinds

end Report

/-! ## What one kind gives -/

/-- What a slot fails with, told as the failure of its defect. -/
theorem Slot.toList_failure? (side : Side) (s : Slot k) :
    (s.failure? side).toList = s.defect?.toList.map fun m => Failure.of side m.1 := by
  have hof : ∀ m : Defect k, Failure.of side m.1 = ⟨k, side, m.1.code, m.1.message⟩ := by
    intro m
    rw [Failure.of, m.2]
  simp only [failure?, hof, Option.toList_map]

/-- The failures of a kind are those of its defects. -/
theorem failures_compareKind_eq_map (k : Kind) (before after : Tree) :
    (compareKind k before after).failures =
      (kindDefects k before after).map fun d => Failure.of d.1 d.2.1 := by
  unfold compareKind
  cases hb : before k with
  | error m => rfl
  | ok old =>
    cases ha : after k with
    | error n => rfl
    | ok new => simp [KindOutcome.failures, kindDefects, hb, ha, Slot.defect?]

/-- **The failures of a kind are those of its two slots**, the earlier release first. -/
theorem failures_compareKind (k : Kind) (before after : Tree) :
    (compareKind k before after).failures =
      ((before k).failure? .before).toList ++ ((after k).failure? .after).toList := by
  rw [failures_compareKind_eq_map, kindDefects, List.map_append, List.map_map, List.map_map,
    Slot.toList_failure?, Slot.toList_failure?]
  rfl

/-- A slot has no failure just when it was built. -/
theorem Slot.toList_failure?_eq_nil_iff {side : Side} {s : Slot k} :
    (s.failure? side).toList = [] ↔ s.isOk = true := by
  cases s with
  | ok c => exact iff_of_true rfl rfl
  | error m => exact iff_of_false (List.cons_ne_nil _ _) fun h => by cases h

/-- A failure of a slot has the kind and the side of the slot. -/
theorem Slot.kind_side_of_mem_failure? {side : Side} {s : Slot k} {f : Failure}
    (h : f ∈ (s.failure? side).toList) : f.kind = k ∧ f.side = side := by
  obtain ⟨m, -, rfl⟩ := Option.map_eq_some_iff.1 (Option.mem_toList.1 h)
  exact ⟨rfl, rfl⟩

/-- A failure that comparing a kind gives is one of that kind. -/
theorem kind_of_mem_failures_compareKind {f : Failure}
    (h : f ∈ (compareKind k before after).failures) : f.kind = k := by
  rw [failures_compareKind] at h
  rcases List.mem_append.1 h with h | h
  · exact (Slot.kind_side_of_mem_failure? h).1
  · exact (Slot.kind_side_of_mem_failure? h).1

/-- The failures of a kind are in report order. -/
theorem sorted_failures_compareKind (k : Kind) (before after : Tree) :
    Sorted Failure.before (compareKind k before after).failures := by
  rw [failures_compareKind]
  refine List.pairwise_append.2 ⟨?_, ?_, fun f hf g hg => ?_⟩
  · cases (before k).failure? .before with
    | none => exact List.Pairwise.nil
    | some f => exact List.pairwise_singleton _ _
  · cases (after k).failure? .after with
    | none => exact List.Pairwise.nil
    | some f => exact List.pairwise_singleton _ _
  · obtain ⟨hf, hf'⟩ := Slot.kind_side_of_mem_failure? hf
    obtain ⟨hg, hg'⟩ := Slot.kind_side_of_mem_failure? hg
    rw [Failure.before, hf, hg, hf', hg']
    simp [Side.rank]

/-! ## Choosing by kind -/

section Choosing

variable {α : Type} {kindOf : α → Kind} {give : Kind → List α}

/-- **Choosing by kind from what the kinds give is choosing kinds.** -/
theorem filter_flatMap_of_kind (hgive : ∀ k, ∀ x ∈ give k, kindOf x = k) (p : Kind → Bool)
    (kinds : List Kind) :
    (kinds.flatMap give).filter (fun x => p (kindOf x)) = (kinds.filter p).flatMap give := by
  induction kinds with
  | nil => rfl
  | cons k rest ih =>
    rw [List.flatMap_cons, List.filter_append, ih, List.filter_cons]
    by_cases hp : p k = true
    · have hall : (give k).filter (fun x => p (kindOf x)) = give k :=
        List.filter_eq_self.2 fun x hx => hgive k x hx ▸ hp
      rw [hall, if_pos hp, List.flatMap_cons]
    · have hnone : (give k).filter (fun x => p (kindOf x)) = [] :=
        List.filter_eq_nil_iff.2 fun x hx => hgive k x hx ▸ hp
      rw [hnone, if_neg hp, List.nil_append]

/-- What one of the kinds gives, each kind being asked once. -/
theorem filter_flatMap_of_kind_eq (hgive : ∀ k, ∀ x ∈ give k, kindOf x = k) {kinds : List Kind}
    (hkinds : kinds.Nodup) (k : Kind) :
    (kinds.flatMap give).filter (fun x => kindOf x = k) = if k ∈ kinds then give k else [] := by
  rw [filter_flatMap_of_kind hgive (fun j => decide (j = k)), List.filter_eq, hkinds.count]
  split
  · rw [List.replicate_one, List.flatMap_singleton]
  · rfl

end Choosing

/-! ## Enabled kinds -/

namespace Config

/-- The enabled kinds are the listed ones, or all if none is listed, in report order. -/
theorem enabledKinds_eq (config : Config) :
    config.enabledKinds = Kind.all.filter fun k => config.kinds = [] ∨ k ∈ config.kinds := by
  unfold enabledKinds
  split
  · rename_i hnone
    exact (List.filter_eq_self.2 fun k _ => by simp [hnone]).symm
  · rename_i hsome
    exact List.filter_congr fun k _ => by simp [hsome]

/-- **A kind is enabled just when it is listed or none is.** -/
theorem mem_enabledKinds_iff : k ∈ config.enabledKinds ↔ config.kinds = [] ∨ k ∈ config.kinds := by
  rw [enabledKinds_eq, List.mem_filter, and_iff_right (Kind.mem_all k), decide_eq_true_eq]

/-- Choosing the enabled kinds among all gives the enabled kinds. -/
theorem filter_mem_enabledKinds (config : Config) :
    Kind.all.filter (fun k => k ∈ config.enabledKinds) = config.enabledKinds := by
  simp only [mem_enabledKinds_iff]
  exact config.enabledKinds_eq.symm

/-- Which kinds are listed decides which are enabled; how often and in which order does not. -/
theorem enabledKinds_congr {config config' : Config}
    (h : ∀ k, k ∈ config.kinds ↔ k ∈ config'.kinds) :
    config.enabledKinds = config'.enabledKinds := by
  have hnone : config.kinds = [] ↔ config'.kinds = [] := by
    rw [List.eq_nil_iff_forall_not_mem, List.eq_nil_iff_forall_not_mem]
    simp only [h]
  rw [enabledKinds_eq, enabledKinds_eq]
  simp only [hnone, h]

end Config

/-! ## What a report says of a kind -/

/-- The records of a report are those of the enabled kinds, sorted. -/
theorem records_classify_eq (config : Config) (before after : Tree) :
    (classify config before after).records =
      Report.sortRecords
        (config.enabledKinds.flatMap fun k => (compareKind k before after).records) :=
  congrArg Report.sortRecords (List.flatMap_map _ _ _)

/-- The failures of a report are those of the enabled kinds, sorted. -/
theorem failures_classify_eq (config : Config) (before after : Tree) :
    (classify config before after).failures =
      Report.sortFailures
        (config.enabledKinds.flatMap fun k => (compareKind k before after).failures) :=
  congrArg Report.sortFailures (List.flatMap_map _ _ _)

/-- **What is found in report order makes up the report** as it is. -/
theorem classify_eq_of_sorted {records : List Record} {failures : List Failure}
    (hrecords : (config.enabledKinds.flatMap fun k => (compareKind k before after).records) =
      records)
    (hfailures : (config.enabledKinds.flatMap fun k => (compareKind k before after).failures) =
      failures)
    (hr : Sorted Record.before records) (hf : Sorted Failure.before failures) :
    classify config before after =
      ⟨records, Verdict.worst (records.map Record.severity), failures⟩ := by
  rw [classify, Report.ofOutcomes, List.flatMap_map, List.flatMap_map, hrecords, hfailures,
    Report.assemble, Report.sortRecords, Report.sortFailures, stableSort_of_sorted hr,
    stableSort_of_sorted hf]

/-- The records of a kind in a report are those of comparing the kind, in report order. -/
theorem recordsFor_classify (config : Config) (before after : Tree) (k : Kind) :
    (classify config before after).recordsFor k =
      if k ∈ config.enabledKinds then Report.sortRecords (compareKind k before after).records
      else [] := by
  rw [Report.recordsFor, records_classify_eq, Report.sortRecords,
    filter_stableSort Record.weakOrder_before,
    filter_flatMap_of_kind_eq (fun k r => kind_of_mem_records_compareKind)
      config.nodup_enabledKinds k]
  split
  · rfl
  · exact stableSort_nil _

/-- **The failures of a kind in a report are those of its slots**, the earlier release first. -/
theorem failuresFor_classify (config : Config) (before after : Tree) (k : Kind) :
    (classify config before after).failuresFor k =
      if k ∈ config.enabledKinds then
        ((before k).failure? .before).toList ++ ((after k).failure? .after).toList
      else [] := by
  rw [Report.failuresFor, failures_classify_eq, Report.sortFailures,
    filter_stableSort Failure.weakOrder_before,
    filter_flatMap_of_kind_eq (fun k f => kind_of_mem_failures_compareKind)
      config.nodup_enabledKinds k, ← failures_compareKind]
  split
  · exact stableSort_of_sorted (sorted_failures_compareKind k before after)
  · exact stableSort_nil _

/-- A kind fails in a report just when it is enabled and one of the releases could not build it. -/
theorem failuresFor_classify_ne_nil_iff :
    (classify config before after).failuresFor k ≠ [] ↔
      k ∈ config.enabledKinds ∧ ((before k).isOk = false ∨ (after k).isOk = false) := by
  rw [failuresFor_classify]
  by_cases hk : k ∈ config.enabledKinds
  · rw [if_pos hk, and_iff_right hk, ne_eq, List.append_eq_nil_iff,
      Slot.toList_failure?_eq_nil_iff, Slot.toList_failure?_eq_nil_iff, not_and_or,
      Bool.not_eq_true, Bool.not_eq_true]
  · rw [if_neg hk]
    exact iff_of_false (fun h => h rfl) fun h => hk h.1

/-- A kind that fails has no record. -/
theorem recordsFor_classify_eq_nil (h : (classify config before after).failuresFor k ≠ []) :
    (classify config before after).recordsFor k = [] := by
  obtain ⟨hk, hslots⟩ := failuresFor_classify_ne_nil_iff.1 h
  have hnone : (compareKind k before after).records = [] := by
    refine records_compareKind_eq_nil fun hboth => ?_
    rw [hboth.1, hboth.2] at hslots
    exact hslots.elim (fun hb => by cases hb) fun ha => by cases ha
  rw [recordsFor_classify, if_pos hk, hnone]
  exact stableSort_nil _

/-- **Other slots play no part in what a report says of a kind.** -/
theorem recordsFor_failuresFor_congr {before' after' : Tree} (hb : before' k = before k)
    (ha : after' k = after k) :
    (classify config before' after').recordsFor k = (classify config before after).recordsFor k ∧
      (classify config before' after').failuresFor k =
        (classify config before after).failuresFor k := by
  have hcompare : compareKind k before' after' = compareKind k before after := by
    simp only [compareKind, kindDefects, hb, ha]
  constructor
  · rw [recordsFor_classify, recordsFor_classify, hcompare]
  · rw [failuresFor_classify, failuresFor_classify, hb, ha]

/-! ## Leaving kinds out -/

/-- The verdict of a report is the worst of its records. -/
theorem severity_classify_eq (config : Config) (before after : Tree) :
    (classify config before after).severity =
      Verdict.worst ((classify config before after).records.map Record.severity) :=
  (Verdict.worst_eq_of_perm ((List.mergeSort_perm _ _).map Record.severity)).symm

/-- **Leaving kinds out of a comparison is leaving them out of the report.** -/
theorem classify_eq_restrict (config : Config) (before after : Tree) :
    classify config before after = (classify {} before after).restrict config.enabledKinds := by
  have hall : ({} : Config).enabledKinds = Kind.all := rfl
  have hrecords : (classify config before after).records =
      ((classify {} before after).records.filter fun x => x.kind ∈ config.enabledKinds) := by
    rw [records_classify_eq, records_classify_eq, hall, Report.sortRecords, Report.sortRecords,
      filter_stableSort Record.weakOrder_before,
      filter_flatMap_of_kind (fun k r => kind_of_mem_records_compareKind)
        (fun k => k ∈ config.enabledKinds), config.filter_mem_enabledKinds]
  have hfailures : (classify config before after).failures =
      ((classify {} before after).failures.filter fun f => f.kind ∈ config.enabledKinds) := by
    rw [failures_classify_eq, failures_classify_eq, hall, Report.sortFailures, Report.sortFailures,
      filter_stableSort Failure.weakOrder_before,
      filter_flatMap_of_kind (fun k f => kind_of_mem_failures_compareKind)
        (fun k => k ∈ config.enabledKinds), config.filter_mem_enabledKinds]
  rw [Report.restrict, ← hrecords, ← hfailures, ← severity_classify_eq]

/-- Leaving kinds out makes no verdict graver. -/
theorem rank_severity_classify_le_default (config : Config) (before after : Tree) :
    (classify config before after).severity.rank ≤ (classify {} before after).severity.rank := by
  refine rank_severity_classify_le fun r hr => rank_le_severity_classify ?_
  rw [classify_eq_restrict] at hr
  exact (List.mem_filter.1 hr).1

/-! ## Isolation -/

/-- **Kinds do not disturb each other.** An enabled kind fails where one of its slots could not be
built, once for each such slot, the earlier release first; a kind that fails has no record, and what
is said of a kind depends on its two slots only. A comparison of some kinds is the comparison of all
of them cut down to these, so that it depends on which kinds are listed and on nothing else of the
configuration, and its verdict is no graver.

**Proof sketch.** Sorting and choosing can change places, so what a report says of a kind is what
comparing the kind gives, sorted. -/
theorem classify_isolates_kinds (config : Config) (before after : Tree) :
    (∀ k, (classify config before after).failuresFor k =
      if k ∈ config.enabledKinds then
        ((before k).failure? .before).toList ++ ((after k).failure? .after).toList
      else []) ∧
    (∀ k, (classify config before after).failuresFor k ≠ [] ↔
      k ∈ config.enabledKinds ∧ ((before k).isOk = false ∨ (after k).isOk = false)) ∧
    (∀ k, (classify config before after).failuresFor k ≠ [] →
      (classify config before after).recordsFor k = []) ∧
    (∀ k before' after', before' k = before k → after' k = after k →
      (classify config before' after').recordsFor k = (classify config before after).recordsFor k ∧
        (classify config before' after').failuresFor k =
          (classify config before after).failuresFor k) ∧
    classify config before after = (classify {} before after).restrict config.enabledKinds ∧
    (∀ k, k ∈ config.enabledKinds ↔ config.kinds = [] ∨ k ∈ config.kinds) ∧
    (∀ config' : Config, (∀ k, k ∈ config'.kinds ↔ k ∈ config.kinds) →
      classify config' before after = classify config before after) ∧
    (classify config before after).severity.rank ≤ (classify {} before after).severity.rank := by
  refine ⟨failuresFor_classify config before after, fun k => failuresFor_classify_ne_nil_iff,
    fun k => recordsFor_classify_eq_nil, fun k before' after' => recordsFor_failuresFor_congr,
    classify_eq_restrict config before after, fun k => Config.mem_enabledKinds_iff,
    fun config' h => ?_, rank_severity_classify_le_default config before after⟩
  rw [classify, classify, Config.enabledKinds_congr h]

/-- A page is new, and the tests of the later release cannot be built. The tests fail without a
record, and the report says of the page what it says with the tests in order. -/
theorem classify_isolates_kinds_nameless_test :
    let page : Entity .page := ⟨"Checkout", ∅, ⟨∅⟩⟩
    let nameless : Malformed := .missingIdentifier .test "" "name"
    let release := Tree.ofSteps [.add .page page]
    let broken := Tree.ofSteps [.fail nameless, .add .page page]
    let config : Config := { kinds := [.test, .page, .test] }
    broken .page = release .page ∧
      (classify config Tree.empty broken).failuresFor .test = [.of .after nameless] ∧
      (classify config Tree.empty broken).recordsFor .test = [] ∧
      ((classify config Tree.empty broken).recordsFor .page).length = 1 ∧
      (classify config Tree.empty release).recordsFor .page =
        (classify config Tree.empty broken).recordsFor .page ∧
      classify { kinds := [.page, .test] } Tree.empty broken =
        classify config Tree.empty broken := by
  intro page nameless release broken config
  obtain ⟨hfailures, -, hnone, hslots, -, -, hlisted, -⟩ :=
    classify_isolates_kinds config Tree.empty broken
  have hfails : (classify config Tree.empty broken).failuresFor .test = [.of .after nameless] :=
    hfailures .test
  have hpage : ((classify config Tree.empty broken).recordsFor .page).length = 1 :=
    ((records_classify_perm config Tree.empty broken).filter _).length_eq.trans (by decide)
  refine ⟨rfl, hfails, hnone .test ?_, hpage, ?_, hlisted _ (by decide)⟩
  · rw [hfails]
    exact List.cons_ne_nil _ _
  · exact (hslots .page Tree.empty release rfl rfl).1

end ReleaseDiff

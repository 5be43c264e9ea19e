import Mathlib
import ReleaseDiff.Log.Capture
import ReleaseDiff.Proofs.Isolation

set_option autoImplicit false

/-!
# The log and the report tell the same story

The events of a comparison are written while it runs, the report is put together afterwards. Both
say which kinds were compared, how many records each of them gave, and which releases failed to
build a kind.

## Main definitions

* `ReleaseDiff.Log.Outline` — what an event is about.
* `ReleaseDiff.Log.course` — the course of a comparison, told by the slots of the releases alone.
* `ReleaseDiff.Log.Event.number?` — the number in a field of an event.

## Main results

* `ReleaseDiff.failures_classify_eq_flatMap` — the failures of a report are those of the enabled
  kinds, kind by kind.
* `ReleaseDiff.Log.outlines_ofRun` — a comparison takes its course.
* `ReleaseDiff.Log.find_failures_ofRun`, `ReleaseDiff.Log.find_ends_ofRun` — the events that tell of
  failures and of records.
* `ReleaseDiff.Log.ofRun_tells_report` — what the log says is what the report says.
-/

namespace ReleaseDiff

variable {k : Kind} {config : Config} {before after : Tree}

/-! ## The order of failures -/

/-- The enabled kinds are in report order. -/
theorem Config.pairwise_rank_enabledKinds (config : Config) :
    config.enabledKinds.Pairwise fun j k => j.rank < k.rank := by
  have hall : Kind.all.Pairwise fun j k => j.rank < k.rank := by decide
  rw [enabledKinds_eq]
  exact hall.filter _

/-- **The failures of a report are those of the enabled kinds**, kind by kind: they are in order
before they are sorted. -/
theorem failures_classify_eq_flatMap (config : Config) (before after : Tree) :
    (classify config before after).failures =
      config.enabledKinds.flatMap fun k => (compareKind k before after).failures := by
  rw [failures_classify_eq]
  refine stableSort_of_sorted (List.pairwise_flatMap.2
    ⟨fun k _ => sorted_failures_compareKind k before after, ?_⟩)
  refine config.pairwise_rank_enabledKinds.imp fun hlt f hf g hg => ?_
  rw [Failure.before, kind_of_mem_failures_compareKind hf, kind_of_mem_failures_compareKind hg,
    if_pos (Nat.ne_of_gt hlt)]
  exact decide_eq_false (Nat.not_lt_of_gt hlt)

/-! ## Kinds that are compared -/

/-- **Both releases could build a kind.** -/
def Tree.bothBuilt (before after : Tree) (k : Kind) : Bool := (before k).isOk && (after k).isOk

/-- A kind that both releases could build has records and no defect; any other kind has defects and
no record. -/
theorem compareKind_cases (k : Kind) (before after : Tree) :
    (Tree.bothBuilt before after k = true ∧ kindDefects k before after = [] ∧
        ∃ records, compareKind k before after = .ok records) ∨
      (Tree.bothBuilt before after k = false ∧
        ∃ failures, compareKind k before after = .error failures) := by
  unfold Tree.bothBuilt kindDefects compareKind
  cases before k <;> cases after k <;> simp [Slot.defect?, Except.isOk, Except.toBool]

/-- The records of an enabled kind in a report are as many as comparing the kind gives. -/
theorem length_recordsFor_classify (hk : k ∈ config.enabledKinds) :
    ((classify config before after).recordsFor k).length =
      (compareKind k before after).records.length := by
  rw [recordsFor_classify, if_pos hk]
  exact (List.mergeSort_perm _ _).length_eq

/-- Keeping what passes a test, and giving one thing for each. -/
theorem flatMap_ite_singleton {α β : Type} (p : α → Bool) (f : α → β) (items : List α) :
    (items.flatMap fun x => if p x then [f x] else []) = (items.filter p).map f := by
  induction items with
  | nil => rfl
  | cons x rest ih =>
    rw [List.flatMap_cons, ih, List.filter_cons]
    split
    · rfl
    · rfl

/-- What counts for nothing may be left out of a sum. -/
theorem sum_map_filter_of_ne_zero {α : Type} {p : α → Bool} {f : α → Nat}
    (h : ∀ x, f x ≠ 0 → p x = true) (items : List α) :
    ((items.filter p).map f).sum = (items.map f).sum := by
  induction items with
  | nil => rfl
  | cons x rest ih =>
    rw [List.filter_cons]
    split
    · simp only [List.map_cons, List.sum_cons, ih]
    · rename_i hp
      have hzero : f x = 0 := by
        by_contra hne
        exact hp (h x hne)
      simp only [List.map_cons, List.sum_cons, ih, hzero, Nat.zero_add]

namespace Log

/-! ## Reading events -/

/-- The number in a field of an event. -/
def Event.number? (e : Event) (name : String) : Option Nat := (e.field? name).bind String.toNat?

/-- **What an event is about**: the operation and its phase, the kind and the side if it names
them. -/
structure Outline where
  /-- The operation. -/
  operation : String
  /-- The phase of the operation. -/
  phase : Phase
  /-- The kind that the event names. -/
  kind : Option String := none
  /-- The side that the event names. -/
  side : Option String := none
  deriving DecidableEq, Repr

/-- The outline of an event. -/
def Event.outline (e : Event) : Outline :=
  ⟨e.operation, e.phase, e.field? Field.kind, e.field? Field.side⟩

/-- The sides on which a kind could not be built, the earlier release first. -/
def failedSides (k : Kind) (before after : Tree) : List Side :=
  (if (before k).isOk then [] else [.before]) ++ if (after k).isOk then [] else [.after]

/-- The course of comparing one kind: it starts, and it ends once or fails once for every side on
which the kind could not be built. -/
def kindCourse (before after : Tree) (k : Kind) : List Outline :=
  { operation := "diff_kind", phase := .start, kind := k.label }
    :: if Tree.bothBuilt before after k then
        [{ operation := "diff_kind", phase := .finish, kind := k.label }]
      else (failedSides k before after).map fun side =>
        { operation := "diff_kind", phase := .failure, kind := k.label, side := side.label }

/-- **The course of a comparison**: it starts, the enabled kinds take their course one after the
other, and it ends. -/
def course (config : Config) (before after : Tree) : List Outline :=
  { operation := "classify", phase := .start }
    :: config.enabledKinds.flatMap (kindCourse before after)
    ++ [{ operation := "classify", phase := .finish }]

section Run

variable (source : Source) (run : RunId) (clock : Moment → Nat) (config : Config)
  (before after : Tree) (k : Kind)

/-- The sides on which a kind could not be built are those of its defects. -/
theorem failedSides_eq_map :
    failedSides k before after = (kindDefects k before after).map Prod.fst := by
  unfold failedSides kindDefects
  cases before k <;> cases after k <;> rfl

/-- **The events of a kind**: the start, the end where the kind was compared, and a failure for
every defect. -/
theorem ofKind_eq :
    ofKind source clock k before after = kindStarted source k ::
      ((if Tree.bothBuilt before after k then
          [kindEnded source clock k (compareKind k before after).records.length]
        else []) ++
        (kindDefects k before after).map (kindFailed source clock k)) := by
  obtain ⟨hbuilt, hnone, records, hcompare⟩ | ⟨hbuilt, failures, hcompare⟩ :=
    compareKind_cases k before after
  · rw [ofKind, hcompare, hbuilt, hnone]
    rfl
  · rw [ofKind, hcompare, hbuilt]
    rfl

/-- The events of a kind take the course of the kind. -/
theorem outlines_ofKind :
    (ofKind source clock k before after).map Event.outline = kindCourse before after k := by
  obtain ⟨hbuilt, hnone, -⟩ | ⟨hbuilt, -⟩ := compareKind_cases k before after
  · rw [ofKind_eq, kindCourse, hbuilt, hnone]
    rfl
  · rw [ofKind_eq, kindCourse, hbuilt, failedSides_eq_map, List.map_map]
    exact congrArg (_ :: ·) (List.map_map ..)

/-- **A comparison takes its course.** -/
theorem outlines_ofRun :
    (ofRun run clock config before after).map Event.outline = course config before after := by
  simp only [ofRun, course, List.map_cons, List.map_append, List.map_flatMap, outlines_ofKind]
  rfl

/-- The events of a kind are of the run that logs them. -/
theorem run_of_mem_ofKind {e : Event} (he : e ∈ ofKind source clock k before after) :
    e.run = source.run := by
  rw [ofKind_eq] at he
  simp only [List.mem_cons, List.mem_append, List.mem_ite_nil_right, List.mem_map,
    List.not_mem_nil, or_false] at he
  obtain rfl | ⟨-, rfl⟩ | ⟨d, -, rfl⟩ := he
  · rfl
  · rfl
  · rfl

/-! ## Finding events -/

@[simp] theorem isOf_kindStarted (operation phase : String) :
    Capture.isOf operation phase (kindStarted source k) =
      ("diff_kind" == operation && "start" == phase) := rfl

@[simp] theorem isOf_kindEnded (operation phase : String) (count : Nat) :
    Capture.isOf operation phase (kindEnded source clock k count) =
      ("diff_kind" == operation && "end" == phase) := rfl

@[simp] theorem isOf_kindFailed (operation phase : String) (d : Side × Defect k) :
    Capture.isOf operation phase (kindFailed source clock k d) =
      ("diff_kind" == operation && "end_error" == phase) := rfl

/-- The ends among the events of a kind: one where the kind was compared. -/
theorem find_ends_ofKind :
    Capture.find (ofKind source clock k before after) "diff_kind" "end" =
      if Tree.bothBuilt before after k then
        [kindEnded source clock k (compareKind k before after).records.length]
      else [] := by
  rw [ofKind_eq, Capture.find]
  split <;> simp [List.filter_map, Function.comp_def]

/-- The failures among the events of a kind: one for every defect. -/
theorem find_failures_ofKind :
    Capture.find (ofKind source clock k before after) "diff_kind" "end_error" =
      (kindDefects k before after).map (kindFailed source clock k) := by
  rw [ofKind_eq, Capture.find]
  split <;> simp [List.filter_map, Function.comp_def]

/-- No event of a kind is one of the whole comparison. -/
theorem find_classify_ofKind (phase : String) :
    Capture.find (ofKind source clock k before after) "classify" phase = [] := by
  rw [ofKind_eq, Capture.find]
  split <;> simp [List.filter_map, Function.comp_def]

/-- **Events are found part by part**: at the start, kind by kind, and at the end. -/
theorem find_ofRun (operation phase : String) :
    Capture.find (ofRun run clock config before after) operation phase =
      Capture.find [runStarted ⟨classifier, some run⟩ config] operation phase ++
        (config.enabledKinds.flatMap fun k =>
          Capture.find (ofKind ⟨classifier, some run⟩ clock k before after) operation phase) ++
        Capture.find [runEnded ⟨classifier, some run⟩ clock (classify config before after)]
          operation phase := by
  simp only [ofRun, Capture.find, ← List.filter_flatMap, ← List.filter_append,
    List.singleton_append]

/-- The end of a comparison is told once, with the report. -/
theorem find_classify_ends_ofRun :
    Capture.find (ofRun run clock config before after) "classify" "end" =
      [runEnded ⟨classifier, some run⟩ clock (classify config before after)] := by
  have hkinds : (config.enabledKinds.flatMap fun k =>
      Capture.find (ofKind ⟨classifier, some run⟩ clock k before after) "classify" "end") = [] :=
    List.flatMap_eq_nil_iff.2 fun k _ => find_classify_ofKind _ _ _ _ _ _
  rw [find_ofRun, hkinds]
  rfl

/-- **The ends that a comparison logs of kinds**: one for every kind that is compared, with the
number of records that the report holds of it. -/
theorem find_ends_ofRun :
    Capture.find (ofRun run clock config before after) "diff_kind" "end" =
      (config.enabledKinds.filter (Tree.bothBuilt before after)).map fun k =>
        kindEnded ⟨classifier, some run⟩ clock k
          ((classify config before after).recordsFor k).length := by
  have hkind : ∀ k ∈ config.enabledKinds,
      Capture.find (ofKind ⟨classifier, some run⟩ clock k before after) "diff_kind" "end" =
        if Tree.bothBuilt before after k then
          [kindEnded ⟨classifier, some run⟩ clock k
            ((classify config before after).recordsFor k).length]
        else [] := by
    intro k hk
    rw [find_ends_ofKind, length_recordsFor_classify hk]
  calc Capture.find (ofRun run clock config before after) "diff_kind" "end"
      = config.enabledKinds.flatMap fun k =>
          Capture.find (ofKind ⟨classifier, some run⟩ clock k before after) "diff_kind" "end" := by
        rw [find_ofRun]
        exact List.append_nil _
    _ = _ := by
        rw [List.flatMap_congr hkind, flatMap_ite_singleton]

/-- **The failures that a comparison logs** are those of the report, in its order.

**Proof sketch.** Kind by kind, the log and the report go through the defects of the kind, and a
defect of a kind says that it is one of that kind. -/
theorem find_failures_ofRun :
    (Capture.find (ofRun run clock config before after) "diff_kind" "end_error").map
        (fun e => (e.field? Field.kind, e.field? Field.side, e.field? Field.faultCode)) =
      (classify config before after).failures.map fun f =>
        (some f.kind.label, some f.side.label, some f.code) := by
  have hfind : Capture.find (ofRun run clock config before after) "diff_kind" "end_error" =
      config.enabledKinds.flatMap fun k =>
        (kindDefects k before after).map (kindFailed ⟨classifier, some run⟩ clock k) := by
    simp only [find_ofRun, find_failures_ofKind]
    exact List.append_nil _
  rw [hfind, failures_classify_eq_flatMap, List.map_flatMap, List.map_flatMap]
  refine List.flatMap_congr fun k _ => ?_
  rw [failures_compareKind_eq_map, List.map_map, List.map_map]
  refine List.map_congr_left fun d _ => ?_
  have hkind : d.2.1.kind = k := d.2.2
  simp only [Function.comp_apply, Failure.of, hkind]
  rfl

/-- The ends of kinds count the records of the report, each once. -/
theorem sum_counts_ofRun :
    ((Capture.find (ofRun run clock config before after) "diff_kind" "end").filterMap
        fun e => e.number? Field.recordCount).sum =
      (classify config before after).records.length := by
  have hcount : ∀ k, (compareKind k before after).records.length ≠ 0 →
      Tree.bothBuilt before after k = true := by
    intro k hne
    obtain ⟨hbuilt, -⟩ | ⟨-, failures, hcompare⟩ := compareKind_cases k before after
    · exact hbuilt
    · rw [hcompare] at hne
      exact absurd rfl hne
  have hread : ∀ k count, (kindEnded ⟨classifier, some run⟩ clock k count).number?
      Field.recordCount = some count := fun k count => Nat.toNat?_repr count
  calc ((Capture.find (ofRun run clock config before after) "diff_kind" "end").filterMap
        fun e => e.number? Field.recordCount).sum
      = ((config.enabledKinds.filter (Tree.bothBuilt before after)).map fun k =>
          ((classify config before after).recordsFor k).length).sum := by
        rw [find_ends_ofRun, List.filterMap_map]
        simp only [Function.comp_def, hread, List.filterMap_eq_map']
    _ = ((config.enabledKinds.filter (Tree.bothBuilt before after)).map fun k =>
          (compareKind k before after).records.length).sum := by
        refine congrArg List.sum (List.map_congr_left fun k hk => ?_)
        exact length_recordsFor_classify (List.mem_filter.1 hk).1
    _ = (config.enabledKinds.map fun k => (compareKind k before after).records.length).sum :=
        sum_map_filter_of_ne_zero hcount _
    _ = (classify config before after).records.length := by
        rw [(records_classify_perm config before after).length_eq, List.length_flatMap]

/-! ## The log and the report -/

/-- **The log and the report tell the same story.** The events take the course of the comparison.
The failures are those of the report, in its order. Every kind that is compared is told with the
number of records that the report holds of it, and these numbers add up to that of all records,
which is told at the end together with the verdict. All events are of one run.

**Proof sketch.** The log goes through the enabled kinds in the order in which the report lists
them, so the failures of the report need no sorting, and sorting leaves the number of records of a
kind alone. -/
theorem ofRun_tells_report :
    (ofRun run clock config before after).map Event.outline = course config before after ∧
      ((Capture.find (ofRun run clock config before after) "diff_kind" "end_error").map fun e =>
          (e.field? Field.kind, e.field? Field.side, e.field? Field.faultCode)) =
        ((classify config before after).failures.map fun f =>
          (some f.kind.label, some f.side.label, some f.code)) ∧
      ((Capture.find (ofRun run clock config before after) "diff_kind" "end").map fun e =>
          (e.field? Field.kind, e.number? Field.recordCount)) =
        ((config.enabledKinds.filter (Tree.bothBuilt before after)).map fun k =>
          (some k.label, some ((classify config before after).recordsFor k).length)) ∧
      ((Capture.find (ofRun run clock config before after) "diff_kind" "end").filterMap fun e =>
          e.number? Field.recordCount).sum = (classify config before after).records.length ∧
      ((Capture.find (ofRun run clock config before after) "classify" "end").map fun e =>
          (e.number? Field.recordCount, e.field? Field.severity)) =
        [(some (classify config before after).records.length,
          some (classify config before after).severity.label)] ∧
      ∀ e ∈ ofRun run clock config before after, e.run = some run := by
  refine ⟨outlines_ofRun run clock config before after, find_failures_ofRun run clock config before
    after, ?_, sum_counts_ofRun run clock config before after, ?_, fun e he => ?_⟩
  · rw [find_ends_ofRun, List.map_map]
    refine List.map_congr_left fun k _ => ?_
    exact Prod.ext rfl (Nat.toNat?_repr _)
  · rw [find_classify_ends_ofRun]
    exact congrArg (fun n => [(n, some (classify config before after).severity.label)])
      (Nat.toNat?_repr _)
  · rcases List.mem_append.1 he with he | he
    · rcases List.mem_cons.1 he with rfl | he
      · rfl
      · obtain ⟨k, -, he⟩ := List.mem_flatMap.1 he
        exact run_of_mem_ofKind _ _ _ _ _ he
    · rw [List.mem_singleton.1 he]
      rfl

end Run

end Log

end ReleaseDiff

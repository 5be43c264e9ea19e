import ReleaseDiff.Proofs.Identity
import ReleaseDiff.Proofs.Isolation

set_option autoImplicit false

/-!
# The order in which kinds are compared

Kinds may be compared at the same time, and their outcomes may come in any order. A report does not
show that order: only what has one kind can tie, and what has one kind comes from one outcome.

## Main results

* `ReleaseDiff.flatMap_eq_of_perm` — where at most one item gives anything, the order of the items
  does not matter.
* `ReleaseDiff.stableSort_flatMap_outcomes` — the same for what outcomes give, once it is sorted.
* `ReleaseDiff.ofOutcomes_eq_classify` — outcomes in any order give one report.
-/

namespace ReleaseDiff

/-- **Where at most one item gives anything, the order of the items does not matter.**

**Proof sketch.** Induction over the permutation. Of two items that change places, one gives
nothing. -/
theorem flatMap_eq_of_perm {α β : Type} {f : α → List β} {xs ys : List α} (h : xs.Perm ys)
    (hone : xs.Pairwise fun x y => f x = [] ∨ f y = []) : xs.flatMap f = ys.flatMap f := by
  induction h with
  | nil => rfl
  | cons x _ ih => rw [List.flatMap_cons, List.flatMap_cons, ih (List.pairwise_cons.1 hone).2]
  | swap x y rest =>
    rw [List.flatMap_cons, List.flatMap_cons, List.flatMap_cons, List.flatMap_cons]
    rcases (List.pairwise_cons.1 hone).1 x List.mem_cons_self with hy | hx
    · rw [hy, List.nil_append, List.nil_append]
    · rw [hx, List.nil_append, List.nil_append]
  | trans hfirst _ ih ih' => exact (ih hone).trans (ih' (hone.perm hfirst Or.symm))

section Outcomes

variable {config : Config} {before after : Tree} {α : Type} {precedes : α → α → Bool}
  {kindOf : α → Kind} {give : KindOutcome → List α}

/-- Among the outcomes of the enabled kinds, at most one gives what ties with an item. -/
theorem pairwise_filter_tied_eq_nil
    (htied : ∀ x y, tied precedes x y = true → kindOf x = kindOf y)
    (hgive : ∀ k, ∀ x ∈ give (compareKind k before after), kindOf x = k) (x : α) :
    (config.enabledKinds.map fun k => compareKind k before after).Pairwise fun o o' =>
      (give o).filter (tied precedes x) = [] ∨ (give o').filter (tied precedes x) = [] := by
  have hother : ∀ k, kindOf x ≠ k →
      (give (compareKind k before after)).filter (tied precedes x) = [] := by
    intro k hk
    refine List.filter_eq_nil_iff.2 fun y hy hxy => hk ?_
    rw [htied x y hxy, hgive k y hy]
  refine List.pairwise_map.2 (config.nodup_enabledKinds.imp fun {j k} hjk => ?_)
  by_cases hj : kindOf x = j
  · exact Or.inr (hother k fun hk => hjk (hj.symm.trans hk))
  · exact Or.inl (hother j hj)

/-- **What outcomes give does not depend on their order**, once it is sorted.

**Proof sketch.** The classes of ties determine what a sort gives. A class comes from one outcome,
so the order of the outcomes does not matter to it. -/
theorem stableSort_flatMap_outcomes (horder : WeakOrder precedes)
    (htied : ∀ x y, tied precedes x y = true → kindOf x = kindOf y)
    (hgive : ∀ k, ∀ x ∈ give (compareKind k before after), kindOf x = k)
    {outcomes : List KindOutcome}
    (h : outcomes.Perm (config.enabledKinds.map fun k => compareKind k before after)) :
    stableSort precedes (outcomes.flatMap give) =
      stableSort precedes
        ((config.enabledKinds.map fun k => compareKind k before after).flatMap give) := by
  refine stableSort_congr horder fun x => ?_
  rw [List.filter_flatMap, List.filter_flatMap]
  exact (flatMap_eq_of_perm h.symm (pairwise_filter_tied_eq_nil htied hgive x)).symm

end Outcomes

/-- **Outcomes in any order give one report**, down to the order of records that agree in kind, path
and code. -/
theorem ofOutcomes_eq_classify (config : Config) (before after : Tree) (outcomes : List KindOutcome)
    (h : outcomes.Perm (config.enabledKinds.map fun k => compareKind k before after)) :
    Report.ofOutcomes outcomes = classify config before after := by
  have hrecords := stableSort_flatMap_outcomes Record.weakOrder_before
    (fun r s hrs => (Record.tied_before_iff.1 hrs).1)
    (fun k r => kind_of_mem_records_compareKind) h
  have hfailures := stableSort_flatMap_outcomes Failure.weakOrder_before
    (fun f g hfg => (Failure.tied_before_iff.1 hfg).1)
    (fun k f => kind_of_mem_failures_compareKind) h
  have hseverity := Verdict.worst_eq_of_perm
    ((h.flatMap_right KindOutcome.records).map Record.severity)
  rw [classify, Report.ofOutcomes, Report.ofOutcomes, Report.assemble, Report.assemble,
    Report.sortRecords, Report.sortRecords, Report.sortFailures, Report.sortFailures, hrecords,
    hfailures, hseverity]

/-- The pages of one release cannot be built, and two records of an operation tie: they agree in
kind, path and code. The operation is compared before the pages, and the report is the same. -/
theorem ofOutcomes_eq_classify_with_ties :
    let operation (fields : FieldForest) : TreeStep :=
      .ofResult (Draft.build? (⟨"SaveConfig", [], ⟨fields⟩⟩ : Draft .metadata))
    let web (below : FieldForest) : FieldForest → FieldForest := .cons "web" ∅ below
    let before := Tree.ofSteps
      [operation (web (.cons "url" ∅ .nil .nil) (.cons "web/url" ∅ .nil .nil))]
    let after := Tree.ofSteps
      [operation (web .nil .nil), .fail (.missingIdentifier .page "" "name")]
    let config : Config := { kinds := [.page, .metadata] }
    let outcomes := [compareKind .metadata before after, compareKind .page before after]
    outcomes.Perm (config.enabledKinds.map fun k => compareKind k before after) ∧
      ¬((classify config before after).records.map Record.place).Nodup ∧
      Report.ofOutcomes outcomes = classify config before after := by
  intro operation web before after config outcomes
  have hperm : outcomes.Perm (config.enabledKinds.map fun k => compareKind k before after) :=
    List.Perm.swap _ _ []
  have hplaces := ((records_classify_perm config before after).map Record.place).nodup_iff
  exact ⟨hperm, fun hnodup => absurd (hplaces.1 hnodup) (by decide),
    ofOutcomes_eq_classify config before after outcomes hperm⟩

end ReleaseDiff

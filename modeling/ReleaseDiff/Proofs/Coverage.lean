import ReleaseDiff.Proofs.Places

set_option autoImplicit false

/-!
# Changes that cover others

A comparison of two releases can take the place of another one: whatever the second one finds, the
first one finds too, or it finds that the item is gone as a whole. The change that is found instead
is then at the same place or above it, and it is no milder.

## Main definitions

* `ReleaseDiff.Change.Covers` — a change stands for another one.
* `ReleaseDiff.Covered` — every change of a list has one in another list that stands for it.
* `ReleaseDiff.Record.Covers` — the same, read off the records.

## Main results

* `ReleaseDiff.Change.Covers.record` — changes that cover give records that cover.
* `ReleaseDiff.rank_severity_classify_le` — the verdict of a report is the rank of its gravest
  record.

## Design

In some comparisons the place of the covering change is always right, but its severity only under a
condition on the releases. The condition is a parameter `p` of the relation: it guards the severity
and leaves the place alone.
-/

namespace ReleaseDiff

variable {k : Kind} {p : Prop}

/-! ## Changes -/

/-- **A change covers another one**: the other one is at the same place or below, and under the
condition `p` it is no graver. -/
def Change.Covers (p : Prop) (d c : Change k) : Prop :=
  c.Within d.path ∧ (p → Shape.severity k c.shape ≤ Shape.severity k d.shape)

/-- **Changes are covered** by a list if each of them is covered by one of the list. -/
def Covered (p : Prop) (cs ds : List (Change k)) : Prop :=
  ∀ c ∈ cs, ∃ d ∈ ds, Change.Covers p d c

namespace Severity

theorem le_refl (s : Severity) : s ≤ s := Nat.le_refl _

/-- Nothing is graver than a break. -/
theorem le_major (s : Severity) : s ≤ major := by cases s <;> decide

/-- Nothing is milder than a tweak. -/
theorem patch_le (s : Severity) : patch ≤ s := by cases s <;> decide

end Severity

/-- Every change covers itself. -/
theorem Change.Covers.refl (c : Change k) : Change.Covers p c c :=
  ⟨List.prefix_refl _, fun _ => Severity.le_refl _⟩

/-- A break covers whatever is found at its place or below. -/
theorem Change.covers_of_major {d c : Change k} (hd : Shape.severity k d.shape = .major)
    (hc : c.Within d.path) : Change.Covers p d c := by
  refine ⟨hc, fun _ => ?_⟩
  rw [hd]
  exact Severity.le_major _

namespace Covered

variable {cs cs' ds ds' es es' : List (Change k)}

theorem nil : Covered p [] ds := fun _ hc => absurd hc List.not_mem_nil

/-- What is found in the other list is covered. -/
theorem of_subset (h : ∀ c ∈ cs, c ∈ ds) : Covered p cs ds := by
  intro c hc
  exact ⟨c, h c hc, Change.Covers.refl c⟩

/-- Lists are covered part by part. -/
theorem append (h : Covered p cs ds) (h' : Covered p cs' ds') :
    Covered p (cs ++ cs') (ds ++ ds') := by
  intro c hc
  rcases List.mem_append.1 hc with hc | hc
  · obtain ⟨d, hd, hcovers⟩ := h c hc
    exact ⟨d, List.mem_append_left _ hd, hcovers⟩
  · obtain ⟨d, hd, hcovers⟩ := h' c hc
    exact ⟨d, List.mem_append_right _ hd, hcovers⟩

/-- More changes cover no less. -/
theorem mono (h : Covered p cs ds) (hsub : ∀ d ∈ ds, d ∈ es) : Covered p cs es := by
  intro c hc
  obtain ⟨d, hd, hcovers⟩ := h c hc
  exact ⟨d, hsub d hd, hcovers⟩

/-- Lists that two further lists cover together are covered part by part. -/
theorem append_two (h : Covered p cs (ds ++ es)) (h' : Covered p cs' (ds' ++ es')) :
    Covered p (cs ++ cs') ((ds ++ ds') ++ (es ++ es')) := by
  refine (h.append h').mono fun d hd => ?_
  simp only [List.mem_append] at hd ⊢
  tauto

end Covered

/-- The removal of an item covers whatever two items of its key differ in, if a removal is a
break. -/
theorem covers_of_mem_both {removed : Shape k} (hmajor : Shape.severity k removed = .major)
    {path : Path} {i : String} {cs : List (Change k)}
    (hwithin : ∀ c ∈ cs, c.Within (path.child i)) :
    ∀ c ∈ cs, Change.Covers p ⟨removed, path.child i, i⟩ c :=
  fun c hc => Change.covers_of_major hmajor (hwithin c hc)

/-! ## Steps -/

/-- The severity of an attribute of a step: a break for the reference of a step that calls an action
group in the later release, else a tweak. -/
theorem StepRepertoire.Graded.severity_ofAttribute {repertoire : StepRepertoire k}
    (h : repertoire.Graded) (s : Step) (name : String) :
    Shape.severity k (repertoire.ofAttribute s name) =
      if name = Step.refAttribute ∧ s.actionType = Step.actionGroupType then .major
      else .patch := by
  have hcalls : s.invokesActionGroup = true ↔ s.actionType = Step.actionGroupType := beq_iff_eq
  simp only [ofAttribute, hcalls]
  split
  · exact h.refChanged
  · exact h.changed

/-! ## Records -/

/-- **A record covers another one**: it is of the same kind, the path of the other one is the same
or goes on behind a slash, and under the condition `p` the other one is no graver. -/
def Record.Covers (p : Prop) (q r : Record) : Prop :=
  q.kind = r.kind ∧ (q.path = r.path ∨ ∃ rest, r.path = q.path ++ "/" ++ rest) ∧
    (p → r.severity ≤ q.severity)

/-- Below a path, the text of a path goes on behind a slash. -/
theorem Path.text_of_prefix {q r : Path} (hq : q.segments ≠ []) (h : q.segments <+: r.segments) :
    q.text = r.text ∨ ∃ rest, r.text = q.text ++ "/" ++ rest := by
  obtain ⟨more, hmore⟩ := h
  cases more with
  | nil =>
    refine Or.inl ?_
    rw [Path.text, Path.text, ← hmore, List.append_nil]
  | cons s more =>
    refine Or.inr ⟨"/".intercalate (s :: more), ?_⟩
    rw [Path.text, Path.text, ← hmore,
      String.intercalate_append_of_ne_nil hq (List.cons_ne_nil s more)]

/-- **Changes that cover give records that cover.** -/
theorem Change.Covers.record {d c : Change k} (h : Change.Covers p d c) {name : String}
    (hd : d.Within (.root name)) : Record.Covers p (d.record name) (c.record name) :=
  ⟨rfl, Path.text_of_prefix hd.segments_ne_nil h.1, h.2⟩

/-- The records of covered changes of an entity are covered. -/
theorem Covered.records {name : String} {x y : Option (Entity k)} {ds : List (Change k)}
    (h : Covered p (Entity.changes name x y) ds) (hds : ∀ d ∈ ds, d.Within (.root name)) :
    ∀ r ∈ Entity.records name x y, ∃ q ∈ ds.map (Change.record name), Record.Covers p q r := by
  intro r hr
  obtain ⟨c, hc, rfl⟩ := List.mem_map.1 hr
  obtain ⟨d, hd, hcovers⟩ := h c hc
  exact ⟨d.record name, List.mem_map_of_mem hd, hcovers.record (hds d hd)⟩

/-! ## Verdicts -/

/-- The worst of some severities is no lower than any of them. -/
theorem Verdict.rank_le_rank_worst {s : Severity} {ss : List Severity} (hs : s ∈ ss) :
    Verdict.rank (some s) ≤ Verdict.rank (Verdict.worst ss) := by
  cases hworst : Verdict.worst ss with
  | none =>
    rw [Verdict.worst_eq_none_iff.1 hworst] at hs
    cases hs
  | some t => exact Nat.succ_le_succ ((Verdict.worst_spec hworst).2 s hs)

/-- What no severity exceeds, the worst of them does not. -/
theorem Verdict.rank_worst_le {n : Nat} {ss : List Severity}
    (h : ∀ s ∈ ss, Verdict.rank (some s) ≤ n) : Verdict.rank (Verdict.worst ss) ≤ n := by
  cases hworst : Verdict.worst ss with
  | none => exact Nat.zero_le n
  | some t => exact h t (Verdict.worst_spec hworst).1

section Verdicts

variable {config : Config} {before after : Tree}

/-- The severity of a report is the worst of its records, in whichever order they are. -/
theorem mem_severities_iff {s : Severity} :
    s ∈ (((config.enabledKinds.map fun k => compareKind k before after).flatMap
      KindOutcome.records).map Record.severity) ↔
        ∃ r ∈ (classify config before after).records, r.severity = s := by
  have hsorted : (classify config before after).records.Perm
      ((config.enabledKinds.map fun k => compareKind k before after).flatMap
        KindOutcome.records) := List.mergeSort_perm _ _
  simp only [List.mem_map, hsorted.mem_iff]

/-- **No record is graver than the verdict.** -/
theorem rank_le_severity_classify {r : Record} (hr : r ∈ (classify config before after).records) :
    Verdict.rank (some r.severity) ≤ (classify config before after).severity.rank :=
  Verdict.rank_le_rank_worst (mem_severities_iff.2 ⟨r, hr, rfl⟩)

/-- **The verdict is no graver than the gravest record.** -/
theorem rank_severity_classify_le {n : Nat}
    (h : ∀ r ∈ (classify config before after).records, Verdict.rank (some r.severity) ≤ n) :
    (classify config before after).severity.rank ≤ n := by
  refine Verdict.rank_worst_le fun s hs => ?_
  obtain ⟨r, hr, rfl⟩ := mem_severities_iff.1 hs
  exact h r hr

end Verdicts

end ReleaseDiff

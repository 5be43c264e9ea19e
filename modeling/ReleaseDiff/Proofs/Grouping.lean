import ReleaseDiff.Proofs.Identity
import ReleaseDiff.Proofs.Sorting
import ReleaseDiff.Proofs.Verdict

set_option autoImplicit false

/-!
# The views of a report

A report shows its records as one list in order, in groups of one severity and kind by kind, and it
counts them and tells the worst severity. It is assembled from records and failures in any order,
and all its views agree.

## Main definitions

* `ReleaseDiff.StablySorted` — a list holds the items of another one in order, ties as they stood.
* `ReleaseDiff.Record.NotAfter`, `ReleaseDiff.Failure.NotAfter` — the orders of a report.
* `ReleaseDiff.Report.Grouped` — the groups of one severity show a report.

## Main results

* `ReleaseDiff.flatMap_filter_perm` — a list, tag by tag, has the items of the list.
* `ReleaseDiff.flatMap_filter_eq_self` — a list in the order of its tags is the list tag by tag.
* `ReleaseDiff.stablySorted_stableSort` — what a stable sort gives.
* `ReleaseDiff.Report.grouped_of_severity` — the groups of a report show it.
* `ReleaseDiff.Report.assemble_consistent` — a report is in order, and its views agree.
-/

namespace ReleaseDiff

/-! ## Lists tag by tag -/

section Tags

variable {α τ : Type} [DecidableEq τ] {tag : α → τ}

/-- Items that pass a test, then those that do not, are the whole list where all that pass it come
first. -/
theorem filter_append_filter_not_eq_self {p : α → Bool} {items : List α}
    (h : items.Pairwise fun x y => p y = true → p x = true) :
    items.filter p ++ items.filter (fun x => !p x) = items := by
  induction items with
  | nil => rfl
  | cons x rest ih =>
    obtain ⟨hx, hrest⟩ := List.pairwise_cons.1 h
    cases hp : p x with
    | true => simp only [List.filter_cons, hp, if_true, Bool.not_true, Bool.false_eq_true,
        if_false, List.cons_append, ih hrest]
    | false =>
      -- Nothing behind an item that fails the test passes it.
      have hnone : ∀ y ∈ rest, p y = false := fun y hy =>
        Bool.eq_false_iff.2 fun hy' => Bool.false_ne_true (hp.symm.trans (hx y hy hy'))
      have hfirst : (x :: rest).filter p = [] := by
        refine List.filter_eq_nil_iff.2 fun y hy => ?_
        rcases List.mem_cons.1 hy with rfl | hy
        · simp [hp]
        · simp [hnone y hy]
      have hsecond : (x :: rest).filter (fun y => !p y) = x :: rest := by
        refine List.filter_eq_self.2 fun y hy => ?_
        rcases List.mem_cons.1 hy with rfl | hy
        · simp [hp]
        · simp [hnone y hy]
      rw [hfirst, hsecond, List.nil_append]

/-- The items of any other tag are among those that do not have the first one. -/
theorem flatMap_filter_cons {t : τ} {tags : List τ} (ht : t ∉ tags) (items : List α) :
    ((t :: tags).flatMap fun u => items.filter fun x => tag x = u) =
      items.filter (fun x => tag x = t) ++
        tags.flatMap fun u => (items.filter fun x => !(tag x = t : Bool)).filter fun x =>
          tag x = u := by
  rw [List.flatMap_cons]
  refine congrArg _ (List.flatMap_congr fun u hu => ?_)
  rw [List.filter_filter]
  refine List.filter_congr fun x _ => ?_
  by_cases hx : tag x = u
  · have hne : tag x ≠ t := fun hxt => ht (hxt ▸ hx ▸ hu)
    simp [hx, hx ▸ hne]
  · simp [hx]

/-- An item without the first tag has one of the others. -/
theorem mem_tags_of_mem_filter {t : τ} {tags : List τ} {items : List α}
    (hmem : ∀ x ∈ items, tag x ∈ t :: tags) :
    ∀ x ∈ items.filter fun x => !(tag x = t : Bool), tag x ∈ tags := by
  intro x hx
  obtain ⟨hx, hne⟩ := List.mem_filter.1 hx
  exact (List.mem_cons.1 (hmem x hx)).resolve_left (by simpa using hne)

/-- **A list, tag by tag, has the items of the list.** -/
theorem flatMap_filter_perm {tags : List τ} (htags : tags.Nodup) {items : List α}
    (hmem : ∀ x ∈ items, tag x ∈ tags) :
    (tags.flatMap fun t => items.filter fun x => tag x = t).Perm items := by
  induction tags generalizing items with
  | nil =>
    rw [List.eq_nil_iff_forall_not_mem.2 fun x hx => List.not_mem_nil (hmem x hx)]
    exact List.Perm.refl _
  | cons t tags ih =>
    obtain ⟨ht, htags⟩ := List.nodup_cons.1 htags
    rw [flatMap_filter_cons ht]
    exact ((ih htags (mem_tags_of_mem_filter hmem)).append_left _).trans
      (List.filter_append_perm _ items)

/-- **A list in the order of its tags is the list tag by tag.** -/
theorem flatMap_filter_eq_self {tags : List τ} (htags : tags.Nodup) {items : List α}
    (hmem : ∀ x ∈ items, tag x ∈ tags)
    (horder : items.Pairwise fun x y => tags.idxOf (tag x) ≤ tags.idxOf (tag y)) :
    (tags.flatMap fun t => items.filter fun x => tag x = t) = items := by
  induction tags generalizing items with
  | nil => exact (List.eq_nil_iff_forall_not_mem.2 fun x hx => List.not_mem_nil (hmem x hx)).symm
  | cons t tags ih =>
    obtain ⟨ht, htags⟩ := List.nodup_cons.1 htags
    have hfirst : items.Pairwise fun x y => decide (tag y = t) = true →
        decide (tag x = t) = true := by
      refine horder.imp fun {x y} hxy hy => ?_
      rw [decide_eq_true_eq] at hy ⊢
      rw [hy, List.idxOf_cons_self, Nat.le_zero] at hxy
      by_contra hx
      rw [List.idxOf_cons_ne _ (fun heq => hx heq.symm)] at hxy
      cases hxy
    have hrest : (items.filter fun x => !(tag x = t : Bool)).Pairwise fun x y =>
        tags.idxOf (tag x) ≤ tags.idxOf (tag y) := by
      refine (horder.sublist List.filter_sublist).imp_of_mem fun {x y} hx hy hxy => ?_
      have hne : ∀ z ∈ items.filter fun x => !(tag x = t : Bool), t ≠ tag z := fun z hz heq => by
        simpa [heq.symm] using (List.mem_filter.1 hz).2
      rw [List.idxOf_cons_ne _ (hne x hx), List.idxOf_cons_ne _ (hne y hy)] at hxy
      exact Nat.le_of_succ_le_succ hxy
    rw [flatMap_filter_cons ht, ih htags (mem_tags_of_mem_filter hmem) hrest,
      filter_append_filter_not_eq_self hfirst]

end Tags

/-! ## Stable sorting by tags -/

/-- **A list holds the items of another one in order**, and items of one tag as they stood. -/
structure StablySorted {α τ : Type} [DecidableEq τ] (notAfter : α → α → Prop) (tag : α → τ)
    (given sorted : List α) : Prop where
  /-- The items are those of the other list. -/
  perm : sorted.Perm given
  /-- They are in order. -/
  inOrder : sorted.Pairwise notAfter
  /-- Items of one tag are in the order of the other list. -/
  stable : ∀ t, (sorted.filter fun x => tag x = t) = given.filter fun x => tag x = t

/-- **What a stable sort gives**, where items of one tag are those of which neither is before the
other. -/
theorem stablySorted_stableSort {α τ : Type} [DecidableEq τ] {before : α → α → Bool}
    {notAfter : α → α → Prop} {tag : α → τ} (h : WeakOrder before)
    (hnotAfter : ∀ x y, before y x = false → notAfter x y)
    (htag : ∀ x y, tag x = tag y → tied before x y = true) (items : List α) :
    StablySorted notAfter tag items (stableSort before items) where
  perm := List.mergeSort_perm _ _
  inOrder := (sorted_stableSort h items).imp (hnotAfter _ _)
  stable t := by
    rw [filter_stableSort h]
    refine stableSort_of_sorted (List.pairwise_of_forall_mem_list fun x hx y hy => ?_)
    have hx' : tag x = t := of_decide_eq_true (List.mem_filter.1 hx).2
    have hy' : tag y = t := of_decide_eq_true (List.mem_filter.1 hy).2
    exact (tied_iff.1 (htag x y (hx'.trans hy'.symm))).2

/-- **A record does not come after another one**: its kind is listed earlier, or its path is lower
by code points under the same kind, or its code is no higher under the same kind and path. -/
def Record.NotAfter (r s : Record) : Prop :=
  r.kind.rank < s.kind.rank ∨
    r.kind = s.kind ∧ (r.path < s.path ∨ r.path = s.path ∧ r.code ≤ s.code)

/-- A record that is not before another one does not let the other one come after it. -/
theorem Record.notAfter_of_not_before {r s : Record} (h : s.before r = false) : r.NotAfter s := by
  unfold before at h
  unfold NotAfter
  by_cases hkind : r.kind = s.kind
  · rw [if_neg (by simp [hkind])] at h
    refine Or.inr ⟨hkind, ?_⟩
    by_cases hpath : r.path = s.path
    · rw [if_neg (by simp [hpath]), decide_eq_false_iff_not] at h
      exact Or.inr ⟨hpath, String.not_lt.1 h⟩
    · rw [if_pos (fun heq => hpath heq.symm), decide_eq_false_iff_not] at h
      exact Or.inl (Decidable.by_contra fun hlt => hpath (eq_of_not_lt hlt h))
  · have hrank : s.kind.rank ≠ r.kind.rank := fun heq => hkind (Kind.eq_of_rank_eq heq).symm
    rw [if_pos hrank, decide_eq_false_iff_not] at h
    exact Or.inl (by omega)

/-- **A failure does not come after another one**: its kind is listed earlier, or its release is no
later under the same kind. -/
def Failure.NotAfter (f g : Failure) : Prop :=
  f.kind.rank < g.kind.rank ∨ f.kind = g.kind ∧ f.side.rank ≤ g.side.rank

/-- A failure that is not before another one does not let the other one come after it. -/
theorem Failure.notAfter_of_not_before {f g : Failure} (h : g.before f = false) :
    f.NotAfter g := by
  unfold before at h
  unfold NotAfter
  by_cases hkind : f.kind = g.kind
  · rw [if_neg (by simp [hkind]), decide_eq_false_iff_not] at h
    exact Or.inr ⟨hkind, Nat.not_lt.1 h⟩
  · have hrank : g.kind.rank ≠ f.kind.rank := fun heq => hkind (Kind.eq_of_rank_eq heq).symm
    rw [if_pos hrank, decide_eq_false_iff_not] at h
    exact Or.inl (by omega)

/-! ## Groups of one severity -/

namespace Report

/-- **The groups of one severity show a report**: there is one for every severity that occurs, the
gravest first, and it holds the records of the severity in report order. -/
structure Grouped (r : Report) : Prop where
  /-- The groups are of the severities that occur. -/
  occurring : ∀ s, s ∈ r.bySeverity.map Prod.fst ↔ ∃ x ∈ r.records, x.severity = s
  /-- Every group is of a milder severity than the one before it. -/
  gravestFirst : r.bySeverity.Pairwise fun g h => h.1.rank < g.1.rank
  /-- A group holds the records of its severity, in report order. -/
  members : ∀ g ∈ r.bySeverity, g.2 = r.records.filter fun x => x.severity = g.1
  /-- No group is empty. -/
  nonempty : ∀ g ∈ r.bySeverity, g.2 ≠ []
  /-- Together the groups hold every record once. -/
  complete : (r.bySeverity.flatMap Prod.snd).Perm r.records
  /-- The first group tells the verdict; where there is none, nothing changed. -/
  verdict : r.bySeverity.head?.map Prod.fst = r.severity
  /-- The size of a group is the number of records that is told for its severity. -/
  sizes : ∀ g ∈ r.bySeverity, r.count g.1 = g.2.length
  /-- No record is told for a severity without a group. -/
  absent : ∀ s, s ∉ r.bySeverity.map Prod.fst → r.count s = 0

variable {r : Report}

/-- A group is a severity that occurs, with the records of it. -/
theorem mem_bySeverity_iff {g : Severity × List Record} :
    g ∈ r.bySeverity ↔ g.2 = r.ofSeverity g.1 ∧ g.2 ≠ [] := by
  obtain ⟨s, group⟩ := g
  have hall : s ∈ Severity.all.reverse := by cases s <;> decide
  simp only [bySeverity, List.mem_filter, List.mem_map, Prod.mk.injEq, Bool.not_eq_true',
    List.isEmpty_eq_false_iff]
  constructor
  · rintro ⟨⟨t, -, rfl, rfl⟩, hne⟩
    exact ⟨rfl, hne⟩
  · rintro ⟨rfl, hne⟩
    exact ⟨⟨s, hall, rfl, rfl⟩, hne⟩

/-- There is a group of a severity just when a record has it. -/
theorem mem_map_fst_bySeverity_iff {s : Severity} :
    s ∈ r.bySeverity.map Prod.fst ↔ ∃ x ∈ r.records, x.severity = s := by
  have hgroup : s ∈ r.bySeverity.map Prod.fst ↔ r.ofSeverity s ≠ [] := by
    simp only [List.mem_map, mem_bySeverity_iff]
    constructor
    · rintro ⟨g, ⟨hg, hne⟩, rfl⟩
      exact hg ▸ hne
    · exact fun hne => ⟨(s, r.ofSeverity s), ⟨rfl, hne⟩, rfl⟩
  rw [hgroup, ofSeverity, Ne, List.filter_eq_nil_iff]
  simp

/-- The groups are in the order of the severities, the gravest first. -/
theorem pairwise_bySeverity (r : Report) :
    r.bySeverity.Pairwise fun g h => h.1.rank < g.1.rank := by
  have hall : Severity.all.reverse.Pairwise fun s t => t.rank < s.rank := by decide
  exact (List.pairwise_map.2 hall).sublist List.filter_sublist

/-- The groups together have the records of a report. -/
theorem flatMap_bySeverity_perm (r : Report) :
    (r.bySeverity.flatMap Prod.snd).Perm r.records := by
  have hgroups : r.bySeverity.flatMap Prod.snd =
      Severity.all.reverse.flatMap fun s => r.records.filter fun x => x.severity = s := by
    have hempty : ∀ groups : List (Severity × List Record),
        (groups.filter fun g => !g.2.isEmpty).flatMap Prod.snd = groups.flatMap Prod.snd := by
      intro groups
      induction groups with
      | nil => rfl
      | cons g rest ih => obtain ⟨s, _ | ⟨x, group⟩⟩ := g <;> simp [ih]
    rw [bySeverity, hempty, List.flatMap_map]
    rfl
  rw [hgroups]
  exact flatMap_filter_perm (by decide) fun x _ => by cases x.severity <;> decide

/-- **The first group tells the verdict**, which is the worst severity of the records. -/
theorem head?_bySeverity (h : r.severity = Verdict.worst (r.records.map Record.severity)) :
    r.bySeverity.head?.map Prod.fst = r.severity := by
  have hsorted := r.pairwise_bySeverity
  have hoccurs := fun s => mem_map_fst_bySeverity_iff (r := r) (s := s)
  cases hgroups : r.bySeverity with
  | nil =>
    -- Without a group no severity occurs, so there is no record.
    have hnone : r.records = [] := List.eq_nil_iff_forall_not_mem.2 fun x hx => by
      have hmem := (hoccurs x.severity).2 ⟨x, hx, rfl⟩
      rw [hgroups] at hmem
      exact List.not_mem_nil hmem
    rw [h, hnone]
    rfl
  | cons g rest =>
    rw [hgroups] at hsorted hoccurs
    have hfirst : r.severity = some g.1 := by
      rw [h, Verdict.worst_eq_some_iff]
      refine ⟨List.mem_map.2 ((hoccurs g.1).1 List.mem_cons_self), fun t ht => ?_⟩
      obtain ⟨u, hu, rfl⟩ := List.mem_map.1 ((hoccurs t).2 (List.mem_map.1 ht))
      rcases List.mem_cons.1 hu with rfl | hu
      · exact Nat.le_refl _
      · exact Nat.le_of_lt ((List.pairwise_cons.1 hsorted).1 u hu)
    exact hfirst.symm

/-- **The groups of a report**, if its verdict is the worst severity of its records. -/
theorem grouped_of_severity (h : r.severity = Verdict.worst (r.records.map Record.severity)) :
    r.Grouped where
  occurring _ := mem_map_fst_bySeverity_iff
  gravestFirst := r.pairwise_bySeverity
  members _ hg := (mem_bySeverity_iff.1 hg).1
  nonempty _ hg := (mem_bySeverity_iff.1 hg).2
  complete := r.flatMap_bySeverity_perm
  verdict := head?_bySeverity h
  sizes _ hg := congrArg List.length (mem_bySeverity_iff.1 hg).1.symm
  absent s hs := by
    rw [mem_map_fst_bySeverity_iff] at hs
    refine List.length_eq_zero_iff.2 (List.filter_eq_nil_iff.2 fun x hx hxs => hs ⟨x, hx, ?_⟩)
    exact of_decide_eq_true hxs

/-! ## Assembled reports -/

/-- The verdict of an assembled report is the worst severity of its records. -/
theorem severity_assemble (records : List Record) (failures : List Failure) :
    (assemble records failures).severity =
      Verdict.worst ((assemble records failures).records.map Record.severity) :=
  Verdict.worst_eq_of_perm ((List.mergeSort_perm records _).map Record.severity).symm

/-- **Assembling a report again changes nothing.** -/
theorem assemble_assemble (records : List Record) (failures : List Failure) :
    assemble (assemble records failures).records (assemble records failures).failures =
      assemble records failures := by
  have hrecords : sortRecords (sortRecords records) = sortRecords records :=
    stableSort_of_sorted (sorted_stableSort Record.weakOrder_before records)
  have hfailures : sortFailures (sortFailures failures) = sortFailures failures :=
    stableSort_of_sorted (sorted_stableSort Failure.weakOrder_before failures)
  have hseverity := severity_assemble records failures
  simp only [assemble] at hseverity ⊢
  rw [hrecords, hfailures, ← hseverity]

/-- **The records kind by kind are the records of an assembled report**, in report order. -/
theorem flatMap_recordsFor_assemble (records : List Record) (failures : List Failure) :
    Kind.all.flatMap (assemble records failures).recordsFor =
      (assemble records failures).records := by
  refine flatMap_filter_eq_self (by decide) (fun x _ => Kind.mem_all x.kind) ?_
  refine (sorted_stableSort Record.weakOrder_before records).imp fun {x y} hxy => ?_
  rcases Record.notAfter_of_not_before hxy with hlt | ⟨heq, -⟩
  · exact Nat.le_of_lt hlt
  · exact Nat.le_of_eq (congrArg Kind.rank heq)

/-- **A report is in order, and its views agree.** The records of an assembled report are those
given, by kind, path and code, and those of one place stand as they were given; so do the failures,
by kind and release. The verdict is the worst severity of the records, and there is none just when
there is no record. Assembling the report again changes nothing. The groups of one severity show the
report, and so do the records kind by kind, one kind after the other. -/
theorem assemble_consistent (records : List Record) (failures : List Failure) :
    let r := assemble records failures
    StablySorted Record.NotAfter Record.place records r.records ∧
      StablySorted Failure.NotAfter (fun f => (f.kind, f.side)) failures r.failures ∧
      (∀ s, r.severity = some s ↔
        (∃ x ∈ records, x.severity = s) ∧ ∀ x ∈ records, x.severity ≤ s) ∧
      (r.severity = none ↔ records = []) ∧
      assemble r.records r.failures = r ∧
      r.Grouped ∧
      (∀ k, ∀ x ∈ r.recordsFor k, x.kind = k) ∧
      Kind.all.flatMap r.recordsFor = r.records := by
  refine ⟨?_, ?_, fun s => ?_, ?_, assemble_assemble records failures,
    grouped_of_severity (severity_assemble records failures), fun k x hx => ?_,
    flatMap_recordsFor_assemble records failures⟩
  · refine stablySorted_stableSort Record.weakOrder_before
      (fun x y => Record.notAfter_of_not_before) (fun x y hxy => ?_) records
    simp only [Record.place, Prod.mk.injEq] at hxy
    exact Record.tied_before_iff.2 hxy
  · refine stablySorted_stableSort Failure.weakOrder_before
      (fun f g => Failure.notAfter_of_not_before) (fun f g hfg => ?_) failures
    exact Failure.tied_before_iff.2 (Prod.mk.inj hfg)
  · rw [assemble, Verdict.worst_eq_some_iff, List.mem_map, List.forall_mem_map]
  · rw [assemble, Verdict.worst_eq_none_iff, List.map_eq_nil_iff]
  · exact of_decide_eq_true (List.mem_filter.1 hx).2

end Report

end ReleaseDiff

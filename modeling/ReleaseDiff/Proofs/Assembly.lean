import ReleaseDiff.Proofs.DeclarationOrder

set_option autoImplicit false

/-!
# What a tree is assembled from

A tree is assembled step by step, in any mixture of kinds; adding what a build gave is a step that
adds an entity or one that reports a defect. The slot of a kind is decided by the steps of that kind
alone: by the entities they add, in order, and by the first defect they report.

## Main definitions

* `ReleaseDiff.TreeStep.added` — the entities that steps add to a kind.
* `ReleaseDiff.TreeStep.reported?` — the first defect that steps report for a kind.

## Main results

* `ReleaseDiff.Assembly.run_start` — what steps declare of a kind.
* `ReleaseDiff.History.slot_eq_ok_iff` — when a kind is built, and into what.
* `ReleaseDiff.Tree.slot_ofSteps` — the slots of an assembled tree.
* `ReleaseDiff.Tree.ofSteps_slot` — when a kind fails, what it holds otherwise, and on which steps
  that depends.
* `ReleaseDiff.Tree.first_failure_stays_iff` — what becomes of a kind that has failed.
-/

namespace ReleaseDiff

variable {k : Kind}

/-! ## Steps of a kind -/

namespace TreeStep

/-- The defect that a step reports for a kind. -/
def defect? (k : Kind) : TreeStep → Option (Defect k)
  | add _ _ => none
  | fail m => if h : m.kind = k then some ⟨m, h⟩ else none

/-- A step of another kind adds nothing to a kind. -/
theorem entity?_of_kind_ne {s : TreeStep} (h : s.kind ≠ k) : s.entity? k = none := by
  cases s with
  | add j e => exact entity?_add_of_ne h e
  | fail m => rfl

/-- A step of another kind reports nothing for a kind. -/
theorem defect?_of_kind_ne {s : TreeStep} (h : s.kind ≠ k) : s.defect? k = none := by
  cases s with
  | add j e => rfl
  | fail m => exact dif_neg h

/-- **The entities that steps add to a kind**, in order. -/
def added (k : Kind) (steps : List TreeStep) : List (Entity k) := steps.filterMap (entity? k)

/-- **The first defect that steps report for a kind.** -/
def reported? (k : Kind) (steps : List TreeStep) : Option (Defect k) := steps.findSome? (defect? k)

theorem added_append (steps more : List TreeStep) :
    added k (steps ++ more) = added k steps ++ added k more :=
  List.filterMap_append

theorem reported?_append (steps more : List TreeStep) :
    reported? k (steps ++ more) = (reported? k steps).or (reported? k more) :=
  List.findSome?_append

/-- **Steps report something for a kind** just when one of them reports a defect of the kind. -/
theorem reported?_ne_none_iff {steps : List TreeStep} :
    reported? k steps ≠ none ↔ ∃ m : Malformed, fail m ∈ steps ∧ m.kind = k := by
  rw [← Option.isSome_iff_ne_none, reported?, List.findSome?_isSome_iff]
  constructor
  · rintro ⟨s, hs, hdefect⟩
    cases s with
    | add j e => cases hdefect
    | fail m =>
      by_cases hm : m.kind = k
      · exact ⟨m, hs, hm⟩
      · rw [defect?_of_kind_ne (s := fail m) hm] at hdefect
        cases hdefect
  · rintro ⟨m, hs, rfl⟩
    refine ⟨fail m, hs, ?_⟩
    rw [defect?, dif_pos rfl]
    rfl

/-- What steps add to a kind is added by the steps of that kind. -/
theorem added_filter (steps : List TreeStep) :
    added k (steps.filter fun s => s.kind = k) = added k steps := by
  rw [added, List.filterMap_filter]
  refine List.filterMap_congr fun s _ => ?_
  by_cases hs : s.kind = k
  · rw [decide_eq_true hs, if_pos rfl]
  · rw [decide_eq_false hs, if_neg (by decide), entity?_of_kind_ne hs]

/-- What steps report for a kind is reported by the steps of that kind. -/
theorem reported?_filter (steps : List TreeStep) :
    reported? k (steps.filter fun s => s.kind = k) = reported? k steps := by
  induction steps with
  | nil => rfl
  | cons s rest ih =>
    rw [reported?, reported?] at ih
    rw [reported?, reported?, List.findSome?_cons, List.filter_cons]
    by_cases hs : s.kind = k
    · rw [decide_eq_true hs, if_pos rfl, List.findSome?_cons, ih]
    · rw [decide_eq_false hs, if_neg (by decide), ih, defect?_of_kind_ne hs]

end TreeStep

namespace Assembly

/-- One step can report the first defect of a kind. -/
theorem defect?_step (a : Assembly) (s : TreeStep) (k : Kind) :
    (a.step s k).defect? = (a k).defect?.or (s.defect? k) := by
  cases s with
  | add j e =>
    by_cases hj : k = j
    · subst hj
      simp [step, update, TreeStep.defect?, History.add]
    · simp [step, update, TreeStep.defect?, hj]
  | fail m =>
    by_cases hm : k = m.kind
    · subst hm
      cases hreported : (a m.kind).defect? with
      | none => simp [step, update, TreeStep.defect?, History.fail, hreported]
      | some n => simp [step, update, TreeStep.defect?, History.fail, hreported]
    · have hk : ¬m.kind = k := fun heq => hm heq.symm
      simp [step, update, TreeStep.defect?, hm, hk]

/-- **The first defect that a run reports for a kind stays.** -/
theorem defect?_run (steps : List TreeStep) (a : Assembly) (k : Kind) :
    (steps.foldl step a k).defect? = (a k).defect?.or (TreeStep.reported? k steps) := by
  induction steps generalizing a with
  | nil => exact (Option.or_none).symm
  | cons s rest ih =>
    rw [List.foldl_cons, ih, defect?_step, Option.or_assoc, TreeStep.reported?,
      TreeStep.reported?, List.findSome?_cons]
    cases s.defect? k with
    | none => rfl
    | some m => rfl

/-- **What steps declare of a kind**: the entities they add and the first defect they report. -/
theorem run_start (steps : List TreeStep) (k : Kind) :
    steps.foldl step start k = ⟨TreeStep.added k steps, TreeStep.reported? k steps⟩ := by
  have hentities := entities_run steps start k
  have hdefect := defect?_run steps start k
  rw [show (start k).entities = [] from rfl, List.nil_append] at hentities
  rw [show (start k).defect? = none from rfl, Option.none_or] at hdefect
  rw [← hdefect, TreeStep.added, ← hentities]

end Assembly

/-! ## Building a kind -/

namespace History

/-- **When a kind is built, and into what**: no defect was reported and no name recurs, and then the
entities are filed. -/
theorem slot_eq_ok_iff {h : History k} {c : Catalog (Entity k)} :
    h.slot = .ok c ↔
      h.defect? = none ∧ (h.entities.map key).Nodup ∧ c = Catalog.ofList h.entities := by
  unfold slot
  cases h.defect? with
  | some m => exact iff_of_false (fun heq => by cases heq) fun hnone => by cases hnone.1
  | none =>
    rw [Catalog.foldlM_eq_ok_iff (fun _ _ _ => file?_eq_ok_iff)]
    constructor
    · rintro ⟨-, -, hnodup, rfl⟩
      exact ⟨rfl, hnodup, rfl⟩
    · rintro ⟨-, hnodup, rfl⟩
      exact ⟨fun _ _ => trivial, fun _ _ => rfl, hnodup, rfl⟩

/-- **A kind is not built just when a defect was reported or a name recurs.** -/
theorem isOk_slot_eq_false_iff {h : History k} :
    h.slot.isOk = false ↔ h.defect? ≠ none ∨ ¬(h.entities.map key).Nodup := by
  rw [← not_iff_not, Bool.not_eq_false, not_or, not_not, not_not]
  constructor
  · intro hok
    cases hslot : h.slot with
    | error m => rw [hslot] at hok; cases hok
    | ok c =>
      obtain ⟨hnone, hnodup, -⟩ := slot_eq_ok_iff.1 hslot
      exact ⟨hnone, hnodup⟩
  · rintro ⟨hnone, hnodup⟩
    rw [slot_eq_ok_iff.2 ⟨hnone, hnodup, rfl⟩]
    rfl

/-- **What becomes of a kind that has failed** when more is added to it: it fails with the first
reported defect or, if none is reported, with the name that recurred first. -/
theorem slot_of_error {es es' : List (Entity k)} {d d' : Option (Defect k)} {m : Defect k}
    (h : slot ⟨es, d⟩ = .error m) : slot ⟨es ++ es', d.or d'⟩ = .error ((d.or d').getD m) := by
  cases hreported : d.or d' with
  | some n => rfl
  | none =>
    obtain ⟨rfl, rfl⟩ := Option.or_eq_none_iff.1 hreported
    -- Without a reported defect the entities are filed, and filing stops at the first error.
    have hfiled : es.foldlM file? ∅ = .error m := h
    have hlonger : (es ++ es').foldlM file? ∅ = .error m := by
      rw [List.foldlM_append, hfiled]
      rfl
    exact hlonger

end History

/-! ## The assembled tree -/

namespace Tree

open TreeStep

/-- **The slot of a kind in an assembled tree.** -/
theorem slot_ofSteps (steps : List TreeStep) (k : Kind) :
    ofSteps steps k = History.slot ⟨added k steps, reported? k steps⟩ :=
  congrArg History.slot (Assembly.run_start steps k)

/-- **What becomes of a kind that has failed**, whatever steps follow. -/
theorem slot_ofSteps_append_of_error {steps : List TreeStep} {e : Defect k}
    (h : ofSteps steps k = .error e) (more : List TreeStep) :
    ofSteps (steps ++ more) k = .error ((reported? k (steps ++ more)).getD e) := by
  rw [slot_ofSteps] at h
  rw [slot_ofSteps, added_append, reported?_append]
  exact History.slot_of_error h

/-- A kind goes on to fail with what it failed with, if that was reported or nothing else is. -/
theorem slot_ofSteps_append_eq_iff {steps : List TreeStep} {e : Defect k}
    (h : ofSteps steps k = .error e) (more : List TreeStep) :
    ofSteps (steps ++ more) k = .error e ↔
      reported? k steps ≠ none ∨ ∀ m, reported? k more = some m → m = e := by
  rw [slot_ofSteps_append_of_error h, Except.error.injEq, reported?_append]
  cases hreported : reported? k steps with
  | none =>
    rw [Option.none_or, or_iff_right fun hne => hne rfl]
    cases reported? k more with
    | none => exact iff_of_true rfl fun m hm => by cases hm
    | some n => exact ⟨fun hn m hm => (Option.some.inj hm).symm.trans hn, fun hn => hn n rfl⟩
  | some m =>
    rw [slot_ofSteps, hreported] at h
    exact iff_of_true (Except.error.inj h) (Or.inl (Option.some_ne_none m))

/-- **The slot of a kind, whatever was assembled.** A kind fails just when a defect of it was
reported or two entities of one name were added, and then with a defect of its own. Otherwise its
slot holds the entities that were added and nothing else, each under its name and in the order of
the names. Steps of other kinds play no part, and no further step mends a kind that has failed.

**Proof sketch.** A run keeps, for every kind, the entities it added and the first defect it
reported, and a step concerns one kind. Filing entities of distinct names keeps them all. -/
theorem ofSteps_slot (steps : List TreeStep) (k : Kind) :
    ((ofSteps steps k).isOk = false ↔
      (∃ m : Malformed, .fail m ∈ steps ∧ m.kind = k) ∨
        ¬((added k steps).map Entity.name).Nodup) ∧
    (∀ m, ofSteps steps k = .error m → m.1.kind = k) ∧
    (∀ c, ofSteps steps k = .ok c →
      c.items.Perm (added k steps) ∧ (c.items.map Entity.name).Pairwise (· < ·) ∧
        (∀ e ∈ added k steps, c.get? e.name = some e) ∧
        (ofSteps steps k).entities.size = (added k steps).length) ∧
    (∀ steps', (steps'.filter fun s => s.kind = k) = (steps.filter fun s => s.kind = k) →
      ofSteps steps' k = ofSteps steps k) ∧
    ∀ more, (ofSteps steps k).isOk = false → (ofSteps (steps ++ more) k).isOk = false := by
  refine ⟨?_, fun m _ => m.2, fun c hc => ?_, fun steps' h => ?_, fun more h => ?_⟩
  · rw [slot_ofSteps, History.isOk_slot_eq_false_iff, reported?_ne_none_iff]
    exact Iff.rfl
  · have hslot := hc
    rw [slot_ofSteps, History.slot_eq_ok_iff] at hslot
    obtain ⟨-, hnodup, rfl⟩ := hslot
    have hperm := Catalog.items_ofList_perm hnodup
    refine ⟨hperm, List.pairwise_map.2 (Catalog.increasing _),
      fun e he => Catalog.get?_ofList hnodup he, ?_⟩
    rw [hc]
    exact hperm.length_eq
  · rw [slot_ofSteps, slot_ofSteps, ← added_filter steps', ← reported?_filter steps', h,
      added_filter, reported?_filter]
  · cases he : ofSteps steps k with
    | ok c => rw [he] at h; cases h
    | error e => rw [slot_ofSteps_append_of_error he]; rfl

/-- Two sections of one name among other steps: the sections fail, whatever else is declared, and
the pages do not. -/
theorem ofSteps_slot_repeated_section :
    let header : TreeStep := .add .pageSection ⟨"Header", ∅, ⟨∅⟩⟩
    let home : Entity .page := ⟨"Home", ∅, ⟨∅⟩⟩
    let checkout : Entity .page := ⟨"Checkout", ∅, ⟨∅⟩⟩
    let steps := [header, .add .page home, header, .add .page checkout]
    (∀ more, (ofSteps (steps ++ more) .pageSection).isOk = false) ∧
      (∃ c, ofSteps steps .page = .ok c ∧ c.items.Perm [home, checkout] ∧
        c.get? "Checkout" = some checkout) ∧
      ofSteps [.add .page home, .add .page checkout, header] .page = ofSteps steps .page := by
  intro header home checkout steps
  obtain ⟨-, -, -, -, hstays⟩ := ofSteps_slot steps .pageSection
  obtain ⟨-, -, hholds, hothers, -⟩ := ofSteps_slot steps .page
  refine ⟨fun more => hstays more (by decide), ⟨_, rfl, ?_⟩, hothers _ rfl⟩
  obtain ⟨hperm, -, hfound, -⟩ := hholds _ rfl
  exact ⟨hperm, hfound checkout (List.mem_cons_of_mem _ List.mem_cons_self)⟩

/-- **The first failure of a kind, as steps go on.** From the point on at which a kind has failed,
it fails with the first defect that has been reported for it or, as long as none has been, with the
failure it began with. So the failure it began with stays just when that was a reported one or no
other defect is reported later.

**Proof sketch.** A reported defect comes before a repeated name, and of reported defects the first
one stays; so does the name that was repeated first. -/
theorem first_failure_stays_iff (steps : List TreeStep) (k : Kind) (n : Nat) (e : Defect k)
    (hfailed : ofSteps (steps.take n) k = .error e) :
    (∀ j, n ≤ j → ofSteps (steps.take j) k = .error ((reported? k (steps.take j)).getD e)) ∧
      ((∀ j, n ≤ j → ofSteps (steps.take j) k = .error e) ↔
        (∃ m : Malformed, .fail m ∈ steps.take n ∧ m.kind = k) ∨
          ∀ m, reported? k (steps.drop n) = some m → m = e) := by
  -- A later point is reached from the first one by some of the remaining steps.
  have hlater : ∀ j, n ≤ j → steps.take j = steps.take n ++ (steps.drop n).take (j - n) := by
    intro j hj
    rw [← List.take_add, Nat.add_sub_cancel' hj]
  refine ⟨fun j hj => ?_, fun hstays => ?_, fun h j hj => ?_⟩
  · rw [hlater j hj]
    exact slot_ofSteps_append_of_error hfailed _
  · have hend := hstays (n + (steps.drop n).length) (Nat.le_add_right n _)
    rw [List.take_add, List.take_length] at hend
    exact ((slot_ofSteps_append_eq_iff hfailed _).1 hend).imp_left reported?_ne_none_iff.1
  · rw [hlater j hj]
    refine (slot_ofSteps_append_eq_iff hfailed _).2 (h.imp reported?_ne_none_iff.2 ?_)
    intro hnone m hm
    refine hnone m ?_
    rw [← List.take_append_drop (j - n) (steps.drop n), reported?_append, hm]
    rfl

/-- A nameless section is reported first, and two sections of one name follow: the first failure
stays. -/
theorem first_failure_stays_iff_nameless_section :
    let header : TreeStep := .add .pageSection ⟨"Header", ∅, ⟨∅⟩⟩
    let nameless : Malformed := .missingIdentifier .pageSection "" "name"
    let steps := [.fail nameless, header, header]
    ofSteps (steps.take 1) .pageSection = .error ⟨nameless, rfl⟩ ∧
      ∀ j, 1 ≤ j → ofSteps (steps.take j) .pageSection = .error ⟨nameless, rfl⟩ := by
  intro header nameless steps
  refine ⟨rfl, (first_failure_stays_iff steps .pageSection 1 ⟨nameless, rfl⟩ rfl).2.2 (Or.inl ?_)⟩
  exact ⟨nameless, List.mem_cons_self, rfl⟩

/-- **A defect that is reported late takes the place of a repeated name.** Two sections of one name
come first and a nameless one after them: the sections fail with the repeated name, and one step
later with the missing one. -/
theorem first_failure_replaced :
    let header : TreeStep := .add .pageSection ⟨"Header", ∅, ⟨∅⟩⟩
    let nameless : TreeStep := .ofResult (Draft.build? (⟨"", [], {}⟩ : Draft .pageSection))
    let steps := [header, header, nameless]
    (∀ i < 2, (ofSteps (steps.take i) .pageSection).isOk = true) ∧
      ofSteps (steps.take 2) .pageSection =
        .error ⟨.duplicateEntity .pageSection "Header", rfl⟩ ∧
      ofSteps (steps.take 3) .pageSection =
        .error ⟨.missingIdentifier .pageSection "" "name", rfl⟩ := by
  exact ⟨by decide, rfl, rfl⟩

end Tree

end ReleaseDiff

import Mathlib.Data.Prod.Basic
import ReleaseDiff.Proofs.Findings

set_option autoImplicit false

/-!
# What the comparison of steps finds

Steps are compared key by key. A step is in one release only, or it is in both and differs: in what
it does, in the action group that it calls, or in any other attribute. A test has three lists of
steps, and each is compared on its own, so a step that moves to another list is removed from the one
and added to the other.

## Main definitions

* `ReleaseDiff.StepRespect` — the respects in which two steps differ.
* `ReleaseDiff.StepFinding` — what can be found about a collection of steps.
* `ReleaseDiff.StepList` — the lists of steps of a test.
* `ReleaseDiff.Test.Moves` — a step moves from one list to another.

## Main results

* `ReleaseDiff.enumerates_stepChanges` — the changes of a collection of steps.
* `ReleaseDiff.ActionGroup.enumerates_step_changes`, `ReleaseDiff.Test.enumerates_step_changes` —
  the changes of steps among those of an entity.
* `ReleaseDiff.steps_compared_by_key` — how steps are compared, and what a moved step gives.
-/

namespace ReleaseDiff

variable {k : Kind}

/-! ## Findings -/

/-- **A respect in which two steps differ.** -/
inductive StepRespect where
  /-- What the step does. -/
  | actionType
  /-- The action group that the later step calls. -/
  | reference
  /-- Any other attribute. -/
  | other (name : String)
  deriving DecidableEq, Repr

namespace StepRespect

/-- **Two steps differ in a respect.** The attribute that names a called action group counts apart,
if the later step still calls one. -/
def Differ : StepRespect → Step → Step → Prop
  | actionType, x, y => x.actionType ≠ y.actionType
  | reference, x, y =>
    y.actionType = "actionGroup" ∧ x.attributes.value? "ref" ≠ y.attributes.value? "ref"
  | other name, x, y =>
    ¬(name = "ref" ∧ y.actionType = "actionGroup") ∧
      x.attributes.value? name ≠ y.attributes.value? name

/-- The change that shows a difference of the steps under a key. -/
def change (repertoire : StepRepertoire k) (path : Path) (key : String) : StepRespect → Change k
  | actionType => ⟨repertoire.typeChanged, path.child key, key⟩
  | reference => ⟨repertoire.refChanged, (path.child key).child "ref", key⟩
  | other name => ⟨repertoire.changed, (path.child key).child name, key⟩

/-- The respect that an attribute belongs to. -/
def ofAttribute (later : Step) (name : String) : StepRespect :=
  if name = "ref" ∧ later.actionType = "actionGroup" then reference else other name

theorem ofAttribute_injective (later : Step) : Function.Injective (ofAttribute later) := by
  intro m n h
  unfold ofAttribute at h
  split at h <;> split at h
  · rename_i hm hn
    exact hm.1.trans hn.1.symm
  · cases h
  · cases h
  · cases h
    rfl

/-- Two steps differ in what they do, or in the respect of an attribute. -/
theorem differ_iff {x y : Step} {r : StepRespect} :
    r.Differ x y ↔ (r = actionType ∧ x.actionType ≠ y.actionType) ∨
      ∃ name, x.attributes.value? name ≠ y.attributes.value? name ∧ ofAttribute y name = r := by
  unfold ofAttribute
  constructor
  · intro h
    cases r with
    | actionType => exact Or.inl ⟨rfl, h⟩
    | reference => exact Or.inr ⟨"ref", h.2, if_pos ⟨rfl, h.1⟩⟩
    | other name => exact Or.inr ⟨name, h.2, if_neg h.1⟩
  · rintro (⟨rfl, h⟩ | ⟨name, h, rfl⟩)
    · exact h
    · split
      · rename_i href
        exact ⟨href.2, href.1 ▸ h⟩
      · rename_i hother
        exact ⟨hother, h⟩

end StepRespect

/-- **A finding about a collection of steps**: a key, and what happened to the step under it. -/
abbrev StepFinding := ItemFinding StepRespect

namespace StepFinding

/-- A finding holds of two collections of steps. -/
def Holds (before after : Catalog Step) (f : StepFinding) : Prop :=
  ItemFinding.Holds StepRespect.Differ before.get? after.get? f

/-- The change that shows a finding. -/
def change (repertoire : StepRepertoire k) (path : Path) (f : StepFinding) : Change k :=
  ItemFinding.change repertoire.removed repertoire.added path (StepRespect.change repertoire path) f

/-- A change tells the key of the finding that it shows. -/
theorem target_change (repertoire : StepRepertoire k) (path : Path) (f : StepFinding) :
    (change repertoire path f).target = f.key := by
  obtain ⟨key, _ | _ | respect⟩ := f
  · rfl
  · rfl
  · cases respect <;> rfl

end StepFinding

/-! ## The changes of a collection of steps -/

/-- What two steps of one key differ in. -/
theorem enumerates_stepPairChanges (repertoire : StepRepertoire k) (path : Path) (x y : Step) :
    Enumerates (StepRespect.change repertoire path x.key) (fun r => r.Differ x y)
      (stepPairChanges repertoire path (x, y)) := by
  have htype : Enumerates (StepRespect.change repertoire path x.key)
      (fun r => r = .actionType ∧ x.actionType ≠ y.actionType)
      (if x.actionType = y.actionType then []
        else [⟨repertoire.typeChanged, path.child x.key, x.key⟩]) := by
    split
    · rename_i heq
      exact .nil fun _ h => h.2 heq
    · rename_i hne
      exact .singleton (f := StepRespect.actionType) fun _ => and_iff_left hne
  have hshown : ∀ name, StepRespect.change repertoire path x.key (.ofAttribute y name) =
      ⟨repertoire.ofAttribute y name, (path.child x.key).child name, x.key⟩ := by
    intro name
    unfold StepRespect.ofAttribute StepRepertoire.ofAttribute Step.invokesActionGroup
    by_cases href : name = "ref" ∧ y.actionType = "actionGroup"
    · rw [if_pos href, if_pos ⟨href.1, beq_iff_eq.2 href.2⟩, href.1]
      rfl
    · rw [if_neg href, if_neg fun h => href ⟨h.1, beq_iff_eq.1 h.2⟩]
      rfl
  have hattributes := enumerates_attributeChanges (repertoire.ofAttribute y) (path.child x.key)
    (fun _ => x.key) x.attributes y.attributes
  simp only [← hshown] at hattributes
  refine (htype.append (hattributes.image _ (StepRespect.ofAttribute_injective y)) ?_).congr
    fun r => StepRespect.differ_iff.symm
  rintro _ ⟨rfl, -⟩ ⟨name, -, hname⟩
  unfold StepRespect.ofAttribute at hname
  split at hname <;> cases hname

/-- **The changes of a collection of steps enumerate the findings that hold.** -/
theorem enumerates_stepChanges (repertoire : StepRepertoire k) (path : Path)
    (before after : Catalog Step) :
    Enumerates (StepFinding.change repertoire path) (StepFinding.Holds before after)
      (stepChanges repertoire path before after) := by
  rw [stepChanges_eq]
  refine enumerates_collectionChanges fun i x y hx _ => ?_
  obtain rfl : x.key = i := (Catalog.get?_eq_some_iff.1 hx).2
  exact enumerates_stepPairChanges repertoire path x y

/-! ## Steps among the changes of an entity -/

/-- The shapes of the changes of steps. -/
def StepRepertoire.shapes (repertoire : StepRepertoire k) : List (Shape k) :=
  [repertoire.added, repertoire.removed, repertoire.changed, repertoire.typeChanged,
    repertoire.refChanged]

/-- Every change of a collection of steps has one of these shapes. -/
theorem shape_of_mem_stepChanges {repertoire : StepRepertoire k} {path : Path}
    {before after : Catalog Step} {c : Change k}
    (hc : c ∈ stepChanges repertoire path before after) : c.shape ∈ repertoire.shapes := by
  obtain ⟨found, -, -, hshown⟩ := enumerates_stepChanges repertoire path before after
  rw [hshown] at hc
  obtain ⟨⟨key, _ | _ | respect⟩, -, rfl⟩ := List.mem_map.1 hc
  · simp [StepRepertoire.shapes, StepFinding.change, ItemFinding.change]
  · simp [StepRepertoire.shapes, StepFinding.change, ItemFinding.change]
  · cases respect <;>
      simp [StepRepertoire.shapes, StepFinding.change, ItemFinding.change, StepRespect.change]

/-- All changes of a collection of steps are changes of steps. -/
theorem enumerates_ofShapes_stepChanges (repertoire : StepRepertoire k) (path : Path)
    (before after : Catalog Step) :
    Enumerates (StepFinding.change repertoire path) (StepFinding.Holds before after)
      (ofShapes repertoire.shapes (stepChanges repertoire path before after)) := by
  rw [ofShapes_eq_self fun c hc => shape_of_mem_stepChanges hc]
  exact enumerates_stepChanges repertoire path before after

/-- The shapes of the steps of an action group. -/
def ActionGroup.stepRepertoire : StepRepertoire .actionGroup :=
  ⟨.actionAdded, .actionRemoved, .actionChanged, .actionTypeChanged, .actionGroupRefChanged⟩

/-- **The changes of steps among those of an action group** enumerate the findings about its
steps. -/
theorem ActionGroup.enumerates_step_changes (name : String) (a b : Entity .actionGroup) :
    Enumerates (StepFinding.change ActionGroup.stepRepertoire ((Path.root name).child "Actions"))
      (StepFinding.Holds a.body.actions b.body.actions)
      (ofShapes stepRepertoire.shapes (Entity.changes name (some a) (some b))) := by
  rw [Entity.changes, Body.changes, ActionGroup.changes, ofShapes_append, ofShapes_append,
    ofShapes_eq_nil fun c hc => ?attributes, ofShapes_eq_nil fun c hc => ?arguments]
  case attributes =>
    exact shape_of_mem_attributeChanges (P := (· ∉ stepRepertoire.shapes)) (fun _ => by decide) hc
  case arguments =>
    exact shape_of_mem_childChanges (P := (· ∉ stepRepertoire.shapes)) (by decide) (by decide)
      (by decide) hc
  exact enumerates_ofShapes_stepChanges stepRepertoire _ _ _

/-- **The lists of steps of a test**, in the order in which they run. -/
inductive StepList where
  /-- The set-up hook. -/
  | before
  /-- The test itself. -/
  | actions
  /-- The clean-up hook. -/
  | after
  deriving DecidableEq, Repr

/-- The name of a list of steps. -/
def StepList.label : StepList → String
  | before => "Before"
  | actions => "Actions"
  | after => "After"

namespace Test

/-- The steps of a list. -/
def steps (t : Test) : StepList → Catalog Step
  | .before => t.before
  | .actions => t.actions
  | .after => t.after

/-- **The changes of steps among those of a test** enumerate the findings about its lists of steps,
each of which is compared on its own. -/
theorem enumerates_step_changes (name : String) (a b : Entity .test) :
    Enumerates
      (fun f : StepList × StepFinding =>
        f.2.change Test.stepRepertoire ((Path.root name).child f.1.label))
      (fun f => f.2.Holds (a.body.steps f.1) (b.body.steps f.1))
      (ofShapes stepRepertoire.shapes (Entity.changes name (some a) (some b))) := by
  let part : StepList → List (Change .test) := fun l =>
    ofShapes stepRepertoire.shapes (stepChanges stepRepertoire ((Path.root name).child l.label)
      (a.body.steps l) (b.body.steps l))
  have hparts : ofShapes stepRepertoire.shapes (Entity.changes name (some a) (some b)) =
      [StepList.before, .actions, .after].flatMap part := by
    have hdropped : ∀ path (x y : Catalog String), ofShapes stepRepertoire.shapes
        (presenceChanges (k := .test) .removeActionRemoved .removeActionAdded path x.items y.items)
          = [] := fun path x y => ofShapes_eq_nil fun c hc =>
      shape_of_mem_presenceChanges (P := (· ∉ stepRepertoire.shapes)) (by decide) (by decide) hc
    rw [Entity.changes, Body.changes, Test.changes]
    simp only [ofShapes_append, hdropped]
    rw [ofShapes_eq_nil fun c hc => ?attributes, ofShapes_eq_nil fun c hc => ?annotations]
    case attributes =>
      exact shape_of_mem_attributeChanges (P := (· ∉ stepRepertoire.shapes)) (fun _ => by decide) hc
    case annotations =>
      exact shape_of_mem_annotationChanges (P := (· ∉ stepRepertoire.shapes)) a.body.wellFormed
        b.body.wellFormed (by decide) (by decide) (by decide) (by decide) hc
    simp [part, steps, StepList.label]
  rw [hparts]
  refine (Enumerates.flatMap (by decide) (fun l _ => (enumerates_ofShapes_stepChanges _ _ _ _).image
    (Prod.mk l) (Prod.mk_right_injective l)) ?_).congr fun f => ?_
  · rintro l l' f ⟨_, -, rfl⟩ ⟨_, -, h⟩
    exact (Prod.mk.inj h).1.symm
  · obtain ⟨l, f⟩ := f
    constructor
    · rintro ⟨_, -, _, h, heq⟩
      cases heq
      exact h
    · exact fun h => ⟨l, by cases l <;> decide, f, h, rfl⟩

/-- **A step moves from one list of a test to another** that did not hold its key; what the third
list holds under the key stays. The step may differ in the other list. -/
structure Moves (a b : Test) (key : String) (source target : StepList) : Prop where
  /-- The earlier test has the step in the first list. -/
  held : ((a.steps source).get? key).isSome
  /-- The other list does not hold the key there. -/
  free : (a.steps target).get? key = none
  /-- The later test no longer has it in the first list. -/
  gone : (b.steps source).get? key = none
  /-- It has it in the other one. -/
  arrived : ((b.steps target).get? key).isSome
  /-- Under the key, the third list stays as it is. -/
  others : ∀ l, l ≠ source → l ≠ target → (a.steps l).get? key = (b.steps l).get? key

end Test

/-- Nothing has happened to a step that is the same in both releases. -/
theorem StepRespect.not_holds_self (event : ItemEvent StepRespect) (x? : Option Step) :
    ¬event.Holds Differ x? x? := by
  cases x? with
  | none => exact event.not_holds_none
  | some x =>
    cases event with
    | removed => exact not_false
    | added => exact not_false
    | differs respect =>
      cases respect with
      | actionType => exact fun h => h rfl
      | reference => exact fun h => h.2 rfl
      | other name => exact fun h => h.2 rfl

/-- **What is found about a moved step**: it is removed from the one list and added to the other. -/
theorem Test.Moves.findings_iff {a b : Test} {key : String} {source target : StepList}
    (h : a.Moves b key source target) (f : StepList × StepFinding) :
    (f.2.Holds (a.steps f.1) (b.steps f.1) ∧ f.2.key = key) ↔
      f ∈ [(source, ⟨key, .removed⟩), (target, ⟨key, .added⟩)] := by
  obtain ⟨x, hx⟩ := Option.isSome_iff_exists.1 h.held
  obtain ⟨y, hy⟩ := Option.isSome_iff_exists.1 h.arrived
  have hne : source ≠ target := by
    rintro rfl
    cases h.free.symm.trans hx
  obtain ⟨l, ⟨i, event⟩⟩ := f
  have hholds : StepFinding.Holds (a.steps l) (b.steps l) ⟨i, event⟩ ∧ i = key ↔
      i = key ∧ event.Holds StepRespect.Differ ((a.steps l).get? key) ((b.steps l).get? key) := by
    rw [and_comm]
    exact and_congr_right fun hkey => by rw [StepFinding.Holds, ItemFinding.Holds, hkey]
  rw [hholds]
  simp only [List.mem_cons, List.not_mem_nil, or_false, Prod.mk.injEq, ItemFinding.mk.injEq]
  by_cases hsource : l = source
  · subst hsource
    rw [hx, h.gone, ItemEvent.holds_some_none_iff]
    simp [hne]
  · by_cases htarget : l = target
    · subst htarget
      rw [hy, h.free, ItemEvent.holds_none_some_iff]
      simp [hsource]
    · rw [h.others l hsource htarget]
      simp [hsource, htarget, StepRespect.not_holds_self]

/-- **How steps are compared, and what a moved step gives.** The changes of two collections of steps
enumerate what is found under their keys: a step that only one has, another action type, an
attribute that differs; the attribute that names a called action group counts apart where the later
step calls one. Among the changes of two action groups, those of steps are found so about their
steps, and among the changes of two tests about each list on its own. A step that moves to a list
which did not hold its key gives one removed and one added step, and no other change of steps of its
key. -/
theorem steps_compared_by_key :
    (∀ {k : Kind} (repertoire : StepRepertoire k) (path : Path) (before after : Catalog Step),
      Enumerates (StepFinding.change repertoire path) (StepFinding.Holds before after)
        (stepChanges repertoire path before after)) ∧
    (∀ (name : String) (a b : Entity .actionGroup),
      Enumerates (StepFinding.change ActionGroup.stepRepertoire ((Path.root name).child "Actions"))
        (StepFinding.Holds a.body.actions b.body.actions)
        (ofShapes ActionGroup.stepRepertoire.shapes (Entity.changes name (some a) (some b)))) ∧
    (∀ (name : String) (a b : Entity .test),
      Enumerates
        (fun f : StepList × StepFinding =>
          f.2.change Test.stepRepertoire ((Path.root name).child f.1.label))
        (fun f => f.2.Holds (a.body.steps f.1) (b.body.steps f.1))
        (ofShapes Test.stepRepertoire.shapes (Entity.changes name (some a) (some b)))) ∧
    ∀ (name : String) (a b : Entity .test) (key : String) (source target : StepList),
      a.body.Moves b.body key source target →
        ((ofShapes Test.stepRepertoire.shapes (Entity.changes name (some a) (some b))).filter
          fun c => c.target = key).Perm
          [⟨.actionRemoved, ((Path.root name).child source.label).child key, key⟩,
            ⟨.actionAdded, ((Path.root name).child target.label).child key, key⟩] := by
  refine ⟨enumerates_stepChanges, ActionGroup.enumerates_step_changes,
    Test.enumerates_step_changes, fun name a b key source target hmoves => ?_⟩
  have hkey := (Test.enumerates_step_changes name a b).filter fun c => c.target = key
  simp only [StepFinding.target_change, decide_eq_true_eq] at hkey
  exact hkey.perm (by simp) hmoves.findings_iff

/-- The step that opens a page moves into the set-up hook of a test and opens another one. -/
theorem steps_compared_by_key_moved_to_hook :
    let step (page : String) : Step := ⟨"open", "amOnPage", .ofList [⟨"url", page⟩]⟩
    let a : Entity .test := ⟨"Checkout", ∅,
      { annotations := ∅, wellFormed := fun _ h => absurd h List.not_mem_nil, before := ∅
        actions := .ofList [step "cart"], after := ∅, removeActions := ∅ }⟩
    let b : Entity .test := ⟨"Checkout", ∅,
      { a.body with before := .ofList [step "home"], actions := ∅ }⟩
    a.body.Moves b.body "open" .actions .before ∧
      ((ofShapes Test.stepRepertoire.shapes (Entity.changes "Checkout" (some a) (some b))).filter
        fun c => c.target = "open").Perm
        [⟨.actionRemoved, ⟨["Checkout", "Actions", "open"]⟩, "open"⟩,
          ⟨.actionAdded, ⟨["Checkout", "Before", "open"]⟩, "open"⟩] := by
  intro step a b
  have hmoves : a.body.Moves b.body "open" .actions .before := by
    refine ⟨rfl, rfl, rfl, rfl, fun l hactions hbefore => ?_⟩
    cases l with
    | before => exact absurd rfl hbefore
    | actions => exact absurd rfl hactions
    | after => rfl
  exact ⟨hmoves, steps_compared_by_key.2.2.2 "Checkout" a b "open" .actions .before hmoves⟩

end ReleaseDiff

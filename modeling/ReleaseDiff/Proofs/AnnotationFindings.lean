import ReleaseDiff.Proofs.Building
import ReleaseDiff.Proofs.StepFindings

set_option autoImplicit false

/-!
# What the comparison of annotations finds

A test declares its annotations as pairs of a name and a text. The pairs named `group` are collected
in a set, and every other name is declared once. Two tests are compared by what they declare: a
group value that only one of them declares, a text that the later test lacks or replaces, and a name
that only the later test declares.

## Main definitions

* `ReleaseDiff.AnnotationFinding` — what can be found about the annotations of two tests.
* `ReleaseDiff.AnnotationFinding.Holds` — a finding is true of the declared pairs.
* `ReleaseDiff.AnnotationFinding.record` — the record of a finding.

## Main results

* `ReleaseDiff.enumerates_annotationChanges` — the changes of annotations.
* `ReleaseDiff.annotations_compared_by_pair` — the records of the annotations of two built tests.
-/

namespace ReleaseDiff

/-! ## Declared annotations -/

namespace Annotations

/-- The only name that may recur. -/
theorem mem_multiValued_iff {name : String} : name ∈ multiValued ↔ name = "group" :=
  List.mem_singleton

/-- In well-formed annotations the group and nothing else is a set, and that set is not empty. -/
theorem WellFormed.group_iff {annotations : Annotations} (hw : annotations.WellFormed)
    {x : Annotation} (hx : x ∈ annotations.items) :
    (x.name = "group" ↔ ∃ set, x.content = .values set) ∧
      ∀ set, x.content = .values set → set.items ≠ [] := by
  have hcontent := hw x hx
  cases h : x.content with
  | scalar text =>
    rw [h] at hcontent
    refine ⟨iff_of_false (fun hname => hcontent (mem_multiValued_iff.2 hname)) ?_, ?_⟩
    · rintro ⟨set, hset⟩
      cases hset
    · intro set hset
      cases hset
  | values set =>
    rw [h] at hcontent
    refine ⟨iff_of_true (mem_multiValued_iff.1 hcontent.1) ⟨set, rfl⟩, fun set' hset => ?_⟩
    cases hset
    exact hcontent.2

/-- Under one name, well-formed annotations have no text that stands against a set of others. -/
theorem WellFormed.not_mismatch {annotations others : Annotations} (hw : annotations.WellFormed)
    (ho : others.WellFormed) {name text : String} {set : Catalog String} :
    ¬(annotations.content? name = some (.scalar text) ∧
      others.content? name = some (.values set)) := by
  rintro ⟨htext, hset⟩
  obtain ⟨_, h⟩ := (hw.content_values htext).1 ((ho.content_values hset).2 ⟨set, rfl⟩)
  cases h

namespace Collects

variable {pairs : List (String × String)} {a : Annotations} {name : String}

/-- The values of the group are those declared. -/
theorem contains_group_iff (h : a.Collects pairs) {v : String} :
    (a.valuesSoFar "group").contains v = true ↔ ("group", v) ∈ pairs := by
  rw [← h.values "group" (mem_multiValued_iff.2 rfl), Catalog.contains_iff]
  exact ⟨fun ⟨x, hx, hkey⟩ => hkey ▸ hx, fun hv => ⟨v, hv, rfl⟩⟩

/-- Under any other name stands a text that was declared. -/
theorem exists_scalar (h : a.Collects pairs) (hname : name ≠ "group") {content : AnnotationContent}
    (hcontent : a.content? name = some content) :
    ∃ text, content = .scalar text ∧ (name, text) ∈ pairs := by
  have hmulti : name ∉ multiValued := fun hmem => hname (mem_multiValued_iff.1 hmem)
  cases content with
  | scalar text => exact ⟨text, rfl, (h.scalar name hmulti text).1 hcontent⟩
  | values set => exact absurd ((h.wellFormed.content_values hcontent).2 ⟨set, rfl⟩) hmulti

/-- Under any other name stands nothing just when nothing was declared. -/
theorem content?_eq_none_iff (h : a.Collects pairs) (hname : name ≠ "group") :
    a.content? name = none ↔ ∀ text, (name, text) ∉ pairs := by
  have hmulti : name ∉ multiValued := fun hmem => hname (mem_multiValued_iff.1 hmem)
  constructor
  · intro hnone text hmem
    rw [(h.scalar name hmulti text).2 hmem] at hnone
    cases hnone
  · intro hnone
    cases hcontent : a.content? name with
    | none => rfl
    | some content =>
      obtain ⟨text, -, hmem⟩ := h.exists_scalar hname hcontent
      exact absurd hmem (hnone text)

end Collects

end Annotations

/-! ## Findings -/

/-- **A finding about the annotations of two tests.** -/
inductive AnnotationFinding where
  /-- A group value that only one of them declares. -/
  | group (value : ValueFinding)
  /-- A name whose text the later test lacks or replaces. -/
  | changed (name : String)
  /-- A name that only the later test declares. -/
  | added (name : String)
  deriving DecidableEq, Repr

namespace AnnotationFinding

/-- **A finding holds** of the pairs that two tests declare. -/
def Holds (before after : List (String × String)) : AnnotationFinding → Prop
  | group value => value.Holds (fun v => ("group", v) ∈ before) (fun v => ("group", v) ∈ after)
  | changed name =>
    name ≠ "group" ∧ ∃ text, (name, text) ∈ before ∧
      ((∀ other, (name, other) ∉ after) ∨ ∃ other, (name, other) ∈ after ∧ other ≠ text)
  | added name =>
    name ≠ "group" ∧ (∃ text, (name, text) ∈ after) ∧ ∀ text, (name, text) ∉ before

/-- The change that shows a finding. -/
def change (path : Path) : AnnotationFinding → Change .test
  | group value => value.change .groupRemoved .groupAdded (valuePath path "group")
  | changed name => ⟨.annotationChanged, path.child name, name⟩
  | added name => ⟨.annotationAdded, path.child name, name⟩

/-- **The record of a finding** in a test of a name. -/
def record (test : String) : AnnotationFinding → Record
  | group (.removed v) =>
    .ofTarget .test [test, "Annotations", "group" ++ "(" ++ v ++ ")"] "M220" .major
      "<test> <annotation> <group>" v "was removed"
  | group (.added v) =>
    .ofTarget .test [test, "Annotations", "group" ++ "(" ++ v ++ ")"] "M246" .minor
      "<test> <annotation> <group>" v "was added"
  | changed name =>
    .ofTarget .test [test, "Annotations", name] "M221" .patch "<test> <annotation>" name
      "was removed or changed"
  | added name =>
    .ofTarget .test [test, "Annotations", name] "M245" .patch "<test> <annotation>" name
      "was added"

/-- The finding that a change shows. -/
def ofChange (c : Change .test) : AnnotationFinding :=
  match (c.shape : TestShape) with
  | .groupRemoved => group (.removed c.target)
  | .groupAdded => group (.added c.target)
  | .annotationChanged => changed c.target
  | _ => added c.target

/-- A change tells the finding that it shows. -/
theorem ofChange_change (path : Path) (f : AnnotationFinding) : ofChange (f.change path) = f := by
  rcases f with (v | v) | name | name <;> rfl

/-- **The record of the change that shows a finding.** -/
theorem record_change (test : String) (f : AnnotationFinding) :
    (f.change ((Path.root test).child "Annotations")).record test = f.record test := by
  rcases f with (v | v) | name | name <;>
    exact Change.record_of_row (by rfl) (by decide) (by decide) test

end AnnotationFinding

/-! ## The changes of annotations -/

section Changes

variable {path : Path} {before after : Annotations} {pairs pairs' : List (String × String)}
  (hb : before.Collects pairs) (ha : after.Collects pairs')

include hb ha

/-- The contents under a name differ, and there was one before. -/
theorem holds_changed_iff {name : String} (hname : name ≠ "group") :
    (AnnotationFinding.changed name).Holds pairs pairs' ↔
      before.content? name ≠ none ∧ before.content? name ≠ after.content? name := by
  have hmulti : name ∉ Annotations.multiValued :=
    fun hmem => hname (Annotations.mem_multiValued_iff.1 hmem)
  constructor
  · rintro ⟨-, text, htext, hafter⟩
    rw [(hb.scalar name hmulti text).2 htext]
    refine ⟨fun h => (by cases h), fun heq => ?_⟩
    have hsame := (ha.scalar name hmulti text).1 heq.symm
    rcases hafter with hnone | ⟨other, hother, hne⟩
    · exact hnone text hsame
    · have hcontent := heq.trans ((ha.scalar name hmulti other).2 hother)
      cases hcontent
      exact hne rfl
  · rintro ⟨hsome, hne⟩
    obtain ⟨content, hcontent⟩ := Option.ne_none_iff_exists'.1 hsome
    obtain ⟨text, rfl, htext⟩ := hb.exists_scalar hname hcontent
    refine ⟨hname, text, htext, ?_⟩
    cases hafter : after.content? name with
    | none => exact Or.inl ((ha.content?_eq_none_iff hname).1 hafter)
    | some content' =>
      obtain ⟨other, rfl, hother⟩ := ha.exists_scalar hname hafter
      refine Or.inr ⟨other, hother, fun heq => hne ?_⟩
      rw [hcontent, hafter, heq]

/-- The contents under a name differ, and there was none before. -/
theorem holds_added_iff {name : String} (hname : name ≠ "group") :
    (AnnotationFinding.added name).Holds pairs pairs' ↔
      before.content? name = none ∧ before.content? name ≠ after.content? name := by
  have hsome : (∃ text, (name, text) ∈ pairs') ↔ after.content? name ≠ none := by
    rw [Ne, ha.content?_eq_none_iff hname, not_forall_not]
  rw [AnnotationFinding.Holds, and_iff_right hname, hsome, ← hb.content?_eq_none_iff hname,
    and_comm]
  refine and_congr_right fun hnone => ?_
  rw [hnone]
  exact ne_comm

/-- **What a comparison of annotations finds** is what holds of the declared pairs. -/
theorem mem_annotationChanges_iff_holds {c : Change .test} :
    c ∈ annotationChanges path before after ↔
      ∃ f : AnnotationFinding, f.Holds pairs pairs' ∧ f.change path = c := by
  rw [mem_annotationChanges_iff hb.wellFormed ha.wellFormed]
  simp only [Annotations.mem_multiValued_iff, exists_eq_left, mem_valueChanges_iff,
    ← Bool.not_eq_true, hb.contains_group_iff, ha.contains_group_iff]
  constructor
  · rintro (⟨name, hname, hne, rfl⟩ | ⟨v, ⟨hold, hnew, rfl⟩ | ⟨hold, hnew, rfl⟩⟩)
    · by_cases hnone : before.content? name = none
      · exact ⟨.added name, (holds_added_iff hb ha hname).2 ⟨hnone, hne⟩, by rw [if_pos hnone]; rfl⟩
      · exact ⟨.changed name, (holds_changed_iff hb ha hname).2 ⟨hnone, hne⟩,
          by rw [if_neg hnone]; rfl⟩
    · exact ⟨.group (.removed v), ⟨hold, hnew⟩, rfl⟩
    · exact ⟨.group (.added v), ⟨hold, hnew⟩, rfl⟩
  · rintro ⟨(v | v) | name | name, hf, rfl⟩
    · exact Or.inr ⟨v, Or.inl ⟨hf.1, hf.2, rfl⟩⟩
    · exact Or.inr ⟨v, Or.inr ⟨hf.1, hf.2, rfl⟩⟩
    · obtain ⟨hsome, hne⟩ := (holds_changed_iff hb ha hf.1).1 hf
      exact Or.inl ⟨name, hf.1, hne, by rw [if_neg hsome]; rfl⟩
    · obtain ⟨hnone, hne⟩ := (holds_added_iff hb ha hf.1).1 hf
      exact Or.inl ⟨name, hf.1, hne, by rw [if_pos hnone]; rfl⟩

/-- **The changes of annotations enumerate the findings** that hold of the declared pairs. -/
theorem enumerates_annotationChanges :
    Enumerates (AnnotationFinding.change path) (AnnotationFinding.Holds pairs pairs')
      (annotationChanges path before after) := by
  refine .of_mem_iff (Function.LeftInverse.injective (AnnotationFinding.ofChange_change path)) ?_
    fun _ => mem_annotationChanges_iff_holds hb ha
  exact (apart_annotationChanges hb.wellFormed ha.wellFormed).imp fun hne heq => hne (by rw [heq])

end Changes

/-! ## The records of two built tests -/

/-- The shapes of the changes of annotations. -/
def annotationShapes : List (Shape .test) :=
  [.groupRemoved, .annotationChanged, .annotationAdded, .groupAdded]

/-- The changes of annotations among those of two tests. -/
theorem ofShapes_annotationShapes (name : String) (a b : Entity .test) :
    ofShapes annotationShapes (Entity.changes name (some a) (some b)) =
      annotationChanges ((Path.root name).child "Annotations") a.body.annotations
        b.body.annotations := by
  have hsteps : ∀ path (x y : Catalog Step),
      ofShapes annotationShapes (stepChanges Test.stepRepertoire path x y) = [] := by
    have hother : ∀ s ∈ Test.stepRepertoire.shapes, s ∉ annotationShapes := by decide
    exact fun path x y => ofShapes_eq_nil fun c hc => hother _ (shape_of_mem_stepChanges hc)
  rw [Entity.changes, Body.changes, Test.changes]
  simp only [ofShapes_append, hsteps, List.append_nil]
  rw [ofShapes_eq_nil fun c hc => ?attributes, ofShapes_eq_self fun c hc => ?annotations,
    ofShapes_eq_nil fun c hc => ?dropped, List.nil_append, List.append_nil]
  case attributes =>
    exact shape_of_mem_attributeChanges (P := (· ∉ annotationShapes)) (fun _ => by decide) hc
  case annotations =>
    exact shape_of_mem_annotationChanges (P := (· ∈ annotationShapes)) a.body.wellFormed
      b.body.wellFormed (by decide) (by decide) (by decide) (by decide) hc
  case dropped =>
    exact shape_of_mem_presenceChanges (P := (· ∉ annotationShapes)) (by decide) (by decide) hc

/-- The codes of the changes of annotations. -/
theorem code_mem_iff_annotationShapes (s : Shape .test) :
    (Shape.row .test s).code ∈ ["M220", "M221", "M245", "M246"] ↔ s ∈ annotationShapes := by
  cases s <;> decide

/-- The path of a name below the annotations of a test tells the name. -/
theorem intercalate_annotation_injective {test name name' : String}
    (h : "/".intercalate [test, "Annotations", name] =
      "/".intercalate [test, "Annotations", name']) : name = name' := by
  simp only [String.intercalate_cons_cons, String.intercalate_singleton] at h
  simpa using h

section Records

variable {d e : Draft .test} {a b : Entity .test} (hd : d.build? = .ok a) (he : e.build? = .ok b)
  (name : String)

include hd he

/-- **The records of annotations among those of two built tests** enumerate the findings that hold
of the declared pairs. -/
theorem enumerates_annotation_records :
    Enumerates (AnnotationFinding.record name)
      (AnnotationFinding.Holds d.parts.annotations e.parts.annotations)
      ((Entity.records name (some a) (some b)).filter fun r =>
        r.code ∈ ["M220", "M221", "M245", "M246"]) := by
  obtain ⟨ha, -⟩ := (Draft.shows_of_build? hd).body
  obtain ⟨hb, -⟩ := (Draft.shows_of_build? he).body
  have hchanges : Enumerates _ _ (annotationChanges ((Path.root name).child "Annotations")
    a.body.annotations b.body.annotations) := enumerates_annotationChanges ha hb
  rw [Entity.records, filter_code_records code_mem_iff_annotationShapes,
    ofShapes_annotationShapes]
  simpa only [AnnotationFinding.record_change] using hchanges.map (Change.record name)

/-- The group is not reported as an annotation with a single text. -/
theorem code_ne_of_path_eq_group {r : Record} (hr : r ∈ Entity.records name (some a) (some b))
    (hpath : r.path = "/".intercalate [name, "Annotations", "group"]) :
    r.code ≠ "M221" ∧ r.code ≠ "M245" := by
  by_contra hcode
  obtain ⟨found, -, hfound, hshown⟩ := enumerates_annotation_records hd he name
  have hannotation : r ∈ found.map (AnnotationFinding.record name) := by
    rw [← hshown, List.mem_filter, decide_eq_true_eq]
    refine ⟨hr, ?_⟩
    by_contra hother
    simp only [List.mem_cons, List.not_mem_nil, or_false, not_or] at hother
    exact hcode ⟨hother.2.1, hother.2.2.1⟩
  obtain ⟨(v | v) | n | n, hf, rfl⟩ := List.mem_map.1 hannotation
  · exact hcode ⟨(by decide : "M220" ≠ "M221"), (by decide : "M220" ≠ "M245")⟩
  · exact hcode ⟨(by decide : "M246" ≠ "M221"), (by decide : "M246" ≠ "M245")⟩
  · exact ((hfound _).1 hf).1 (intercalate_annotation_injective hpath)
  · exact ((hfound _).1 hf).1 (intercalate_annotation_injective hpath)

end Records

/-- **The annotations of two built tests, compared.** In both, the annotation `group` and no other
holds a set, and that set is not empty. So under no name a text stands against a set. The records of
annotations are one for every finding that holds of the declared pairs: a group value that only one
test declares, a text that the later test lacks or replaces, a name that only the later test
declares. The group itself is never reported as an annotation with a single text. -/
theorem annotations_compared_by_pair {d e : Draft .test} {a b : Entity .test}
    (hd : d.build? = .ok a) (he : e.build? = .ok b) (name : String) :
    (∀ x, x ∈ a.body.annotations.items ∨ x ∈ b.body.annotations.items →
      (x.name = "group" ↔ ∃ set, x.content = .values set) ∧
        ∀ set, x.content = .values set → set.items ≠ []) ∧
    (∀ n text set,
      ¬(a.body.annotations.content? n = some (.scalar text) ∧
          b.body.annotations.content? n = some (.values set)) ∧
        ¬(a.body.annotations.content? n = some (.values set) ∧
          b.body.annotations.content? n = some (.scalar text))) ∧
    Enumerates (AnnotationFinding.record name)
      (AnnotationFinding.Holds d.parts.annotations e.parts.annotations)
      ((Entity.records name (some a) (some b)).filter fun r =>
        r.code ∈ ["M220", "M221", "M245", "M246"]) ∧
    ∀ r ∈ Entity.records name (some a) (some b),
      r.path = "/".intercalate [name, "Annotations", "group"] →
        r.code ≠ "M221" ∧ r.code ≠ "M245" := by
  obtain ⟨ha, -⟩ := (Draft.shows_of_build? hd).body
  obtain ⟨hb, -⟩ := (Draft.shows_of_build? he).body
  refine ⟨fun x hx => hx.elim ha.wellFormed.group_iff hb.wellFormed.group_iff,
    fun n text set => ⟨ha.wellFormed.not_mismatch hb.wellFormed, fun h =>
      hb.wellFormed.not_mismatch ha.wellFormed h.symm⟩,
    enumerates_annotation_records hd he name, fun r => code_ne_of_path_eq_group hd he name⟩

/-- All group values are gone, one of them declared twice; a text is replaced and a name is new. -/
theorem annotations_compared_by_pair_all_groups_gone :
    let d : Draft .test := ⟨"Checkout", [], { annotations :=
      [("group", "shop"), ("title", "Pay"), ("group", "cart"), ("group", "shop")] }⟩
    let e : Draft .test := ⟨"Checkout", [], { annotations :=
      [("title", "Buy"), ("severity", "MINOR")] }⟩
    ∃ a b, d.build? = .ok a ∧ e.build? = .ok b ∧
      Enumerates (AnnotationFinding.record "Checkout")
        (AnnotationFinding.Holds d.parts.annotations e.parts.annotations)
        ((Entity.records "Checkout" (some a) (some b)).filter fun r =>
          r.code ∈ ["M220", "M221", "M245", "M246"]) ∧
      (Entity.records "Checkout" (some a) (some b)).map (fun r => (r.path, r.code)) =
        [("Checkout/Annotations/group(cart)", "M220"), ("Checkout/Annotations/group(shop)", "M220"),
          ("Checkout/Annotations/severity", "M245"), ("Checkout/Annotations/title", "M221")] := by
  intro d e
  refine ⟨_, _, rfl, rfl, ?_, by rfl⟩
  have h := annotations_compared_by_pair (d := d) (e := e) rfl rfl "Checkout"
  exact h.2.2.1

end ReleaseDiff

import Mathlib.Data.Set.List
import ReleaseDiff.Proofs.Apart
import ReleaseDiff.Proofs.Messages

set_option autoImplicit false

/-!
# What the comparison of two metadata operations finds

The fields of two metadata operations are compared at every depth that a chain of keys reaches in
both. A finding is a chain of keys and what happened to the field it leads to: the field is in one
operation only, or an attribute of it differs. Every finding that holds gives one record, and apart
from the attributes of the operation nothing else does.

## Main definitions

* `ReleaseDiff.FieldEvent`, `ReleaseDiff.FieldFinding` — what can be found about fields.
* `ReleaseDiff.FieldFinding.Holds` — a finding is true of two forests of fields.
* `ReleaseDiff.FieldFinding.record` — the record of a finding.

## Main results

* `ReleaseDiff.mem_fieldChanges_iff` — the changes of two forests of fields are the findings that
  hold.
* `ReleaseDiff.FieldFinding.trail_eq_of_prefix` — no finding is below a field that is in one
  operation only.
* `ReleaseDiff.Operation.exists_findings` — the records of two operations.
-/

namespace ReleaseDiff

/-! ## Findings -/

/-- **What can happen to a field** of a metadata operation. -/
inductive FieldEvent where
  /-- The field is in the earlier operation only. -/
  | removed
  /-- The field is in the later operation only. -/
  | added
  /-- An attribute of the field differs. -/
  | changed (name : String)
  deriving DecidableEq, Repr

namespace FieldEvent

/-- **An event is true of what two operations hold** under one key. -/
def Holds : FieldEvent → Option NestedField → Option NestedField → Prop
  | removed, some _, none => True
  | added, none, some _ => True
  | changed name, some x, some y => x.attributes.value? name ≠ y.attributes.value? name
  | _, _, _ => False

/-- When an event is true. -/
theorem holds_iff {event : FieldEvent} {x? y? : Option NestedField} :
    event.Holds x? y? ↔
      (event = removed ∧ ∃ x, x? = some x ∧ y? = none) ∨
      (event = added ∧ ∃ y, x? = none ∧ y? = some y) ∨
      ∃ name x y, event = changed name ∧ x? = some x ∧ y? = some y ∧
        x.attributes.value? name ≠ y.attributes.value? name := by
  cases event <;> cases x? <;> cases y? <;> simp [Holds]

/-- Whatever is no difference of attributes leaves one operation without the field. -/
theorem Holds.eq_none {event : FieldEvent} {x? y? : Option NestedField} (h : event.Holds x? y?)
    (hpresence : ∀ name, event ≠ changed name) : x? = none ∨ y? = none := by
  obtain ⟨-, _, -, hy⟩ | ⟨-, _, hx, -⟩ | ⟨name, _, _, hevent, -⟩ := holds_iff.1 h
  · exact Or.inr hy
  · exact Or.inl hx
  · exact absurd hevent (hpresence name)

/-- Where an attribute differs, both operations have the field. -/
theorem Holds.ne_none {name : String} {x? y? : Option NestedField}
    (h : (changed name).Holds x? y?) : x? ≠ none ∧ y? ≠ none := by
  cases x? <;> cases y? <;> simp_all [Holds]

/-- The shape of the change. -/
def shape : FieldEvent → OperationShape
  | removed => .childRemoved
  | added => .childAdded
  | changed _ => .childChanged

/-- What the path of the change goes on with behind the field. -/
def suffix : FieldEvent → List String
  | changed name => [name]
  | _ => []

theorem suffix_eq_nil {event : FieldEvent} (hpresence : ∀ name, event ≠ changed name) :
    event.suffix = [] := by
  cases event with
  | changed name => exact absurd rfl (hpresence name)
  | removed => rfl
  | added => rfl

/-- The code of the event. -/
def code : FieldEvent → String
  | removed => "M212"
  | added => "M239"
  | changed _ => "M253"

/-- The severity of the event. -/
def severity : FieldEvent → Severity
  | removed => .major
  | added => .minor
  | changed _ => .patch

/-- What happened, in words. -/
def happened : FieldEvent → String
  | removed => "was removed"
  | added => "was added"
  | changed _ => "was changed"

end FieldEvent

/-- **A finding**: the keys above a field, its key, and what happened to it. -/
structure FieldFinding where
  /-- The keys above the field, the top level first. -/
  above : List String
  /-- The key of the field. -/
  key : String
  /-- What happened. -/
  event : FieldEvent
  deriving DecidableEq, Repr

namespace FieldFinding

/-- The keys that lead to the field. -/
def chain (f : FieldFinding) : List String := f.above ++ [f.key]

/-- The names on the path of the change below the collection. -/
def trail (f : FieldFinding) : List String := f.chain ++ f.event.suffix

/-- **A finding holds** for two forests: the keys above the field lead to a level in both, and what
is said to have happened is true of what the two levels hold under the key. -/
def Holds (before after : FieldForest) (f : FieldFinding) : Prop :=
  ∃ F G, before.levelAt? f.above = some F ∧ after.levelAt? f.above = some G ∧
    f.event.Holds (F.find? f.key) (G.find? f.key)

/-- The change that shows a finding. -/
def change (path : Path) (f : FieldFinding) : Change .metadata :=
  ⟨f.event.shape, ⟨path.segments ++ f.trail⟩, f.key⟩

/-- **The record of a finding** in an operation of a name. -/
def record (name : String) (f : FieldFinding) : Record where
  kind := .metadata
  path := "/".intercalate (name :: "Fields" :: f.trail)
  code := f.event.code
  severity := f.event.severity
  message := "<operation> child element " ++ f.key ++ " " ++ f.event.happened

/-- A finding one level further down. -/
def under (key : String) (f : FieldFinding) : FieldFinding := { f with above := key :: f.above }

theorem change_under (path : Path) (key : String) (f : FieldFinding) :
    (f.under key).change path = f.change (path.child key) := by
  simp [change, under, trail, chain, Path.child]

/-- A finding further down holds below a field that both forests have. -/
theorem holds_under_iff {before after : FieldForest} {key : String} {f : FieldFinding} :
    (f.under key).Holds before after ↔
      ∃ x y, before.find? key = some x ∧ after.find? key = some y ∧
        f.Holds x.children y.children := by
  simp only [Holds, under, FieldForest.levelAt?_cons_eq_some_iff]
  constructor
  · rintro ⟨F, G, ⟨x, hx, hF⟩, ⟨y, hy, hG⟩, h⟩
    exact ⟨x, y, hx, hy, F, G, hF, hG, h⟩
  · rintro ⟨x, y, hx, hy, F, G, hF, hG, h⟩
    exact ⟨F, G, ⟨x, hx, hF⟩, ⟨y, hy, hG⟩, h⟩

/-- On the top level a finding holds if its event does. -/
theorem holds_top_iff {before after : FieldForest} {key : String} {event : FieldEvent} :
    (⟨[], key, event⟩ : FieldFinding).Holds before after ↔
      event.Holds (before.find? key) (after.find? key) :=
  ⟨fun ⟨_, _, hF, hG, h⟩ => by cases hF; cases hG; exact h, fun h => ⟨_, _, rfl, rfl, h⟩⟩

/-- A finding tells its change, and a change its finding. -/
theorem change_injective (path : Path) : Function.Injective (change path) := by
  rintro ⟨above, key, event⟩ ⟨above', key', event'⟩ h
  have htrail := List.append_cancel_left (congrArg (fun c => c.path.segments) h)
  have hkey : key = key' := congrArg Change.target h
  have hshape : event.shape = event'.shape := congrArg Change.shape h
  subst hkey
  cases event <;> cases event' <;> try cases hshape
  case removed.removed => simpa [trail, chain, FieldEvent.suffix] using htrail
  case added.added => simpa [trail, chain, FieldEvent.suffix] using htrail
  case changed.changed =>
    obtain ⟨hchain, hname⟩ := List.append_inj' htrail rfl
    simpa [chain, FieldEvent.suffix] using And.intro hchain hname

end FieldFinding

/-! ## The changes of two forests -/

/-- What two fields of one key differ in: an attribute, or something below. -/
theorem mem_fieldPairChanges_iff {path : Path} {x y : NestedField} {c : Change .metadata} :
    c ∈ fieldPairChanges path x y ↔
      (∃ name, x.attributes.value? name ≠ y.attributes.value? name ∧
        (⟨[], x.key, .changed name⟩ : FieldFinding).change path = c) ∨
      c ∈ fieldChanges (path.child x.key) x.children y.children := by
  rw [fieldPairChanges, List.mem_append, mem_attributeChanges_iff]
  have hchange : ∀ name, (⟨[], x.key, .changed name⟩ : FieldFinding).change path =
      ⟨.childChanged, (path.child x.key).child name, x.key⟩ := by
    intro name
    simp [FieldFinding.change, FieldFinding.trail, FieldFinding.chain, FieldEvent.suffix,
      FieldEvent.shape, Path.child]
  simp only [hchange, eq_comm (a := c)]

/-- **The changes of two forests of fields are the findings that hold.**

**Proof sketch.** Induction over the earlier forest. A level finds events under its own keys, and
what the levels below a shared key find; those are the findings with that key above them. -/
theorem mem_fieldChanges_iff {path : Path} {before after : FieldForest} (hb : before.Ordered)
    (ha : after.Ordered) {c : Change .metadata} :
    c ∈ fieldChanges path before after ↔
      ∃ f : FieldFinding, f.Holds before after ∧ f.change path = c := by
  induction hb using FieldForest.Ordered.induction generalizing path after c with
  | step before hb ih =>
    rw [fieldChanges_eq path hb ha, mem_collectionChanges_iff]
    simp only [FieldForest.get?_catalog]
    constructor
    · rintro ⟨i, ⟨x, hx, hy, rfl⟩ | ⟨y, hx, hy, rfl⟩ | ⟨x, y, hx, hy, hc⟩⟩
      · exact ⟨⟨[], i, .removed⟩, FieldFinding.holds_top_iff.2 (by rw [hx, hy]; trivial), rfl⟩
      · exact ⟨⟨[], i, .added⟩, FieldFinding.holds_top_iff.2 (by rw [hx, hy]; trivial), rfl⟩
      · obtain rfl : x.key = i := (FieldForest.mem_of_find? hx).2
        rcases mem_fieldPairChanges_iff.1 hc with ⟨name, hne, hchange⟩ | hc
        · exact ⟨_, FieldFinding.holds_top_iff.2 (by rw [hx, hy]; exact hne), hchange⟩
        · obtain ⟨f, hf, hchange⟩ := (ih _ x hx (ha.below hy)).1 hc
          refine ⟨f.under x.key, FieldFinding.holds_under_iff.2 ⟨x, y, hx, hy, hf⟩, ?_⟩
          rw [FieldFinding.change_under, hchange]
    · rintro ⟨⟨above, key, event⟩, h, rfl⟩
      cases above with
      | nil =>
        refine ⟨key, ?_⟩
        obtain ⟨rfl, x, hx, hy⟩ | ⟨rfl, y, hx, hy⟩ | ⟨name, x, y, rfl, hx, hy, hne⟩ :=
          FieldEvent.holds_iff.1 (FieldFinding.holds_top_iff.1 h)
        · exact Or.inl ⟨x, hx, hy, rfl⟩
        · exact Or.inr (Or.inl ⟨y, hx, hy, rfl⟩)
        · obtain rfl : x.key = key := (FieldForest.mem_of_find? hx).2
          exact Or.inr (Or.inr ⟨x, y, hx, hy, mem_fieldPairChanges_iff.2 (Or.inl ⟨name, hne, rfl⟩)⟩)
      | cons i above =>
        obtain ⟨x, y, hx, hy, hf⟩ :=
          FieldFinding.holds_under_iff (f := ⟨above, key, event⟩).1 h
        obtain rfl : x.key = i := (FieldForest.mem_of_find? hx).2
        refine ⟨x.key, Or.inr (Or.inr ⟨x, y, hx, hy, mem_fieldPairChanges_iff.2 (Or.inr ?_)⟩)⟩
        exact (ih _ x hx (ha.below hy)).2 ⟨⟨above, key, event⟩, hf,
          (FieldFinding.change_under path x.key ⟨above, key, event⟩).symm⟩

/-- The row of the shape of an event. -/
theorem FieldEvent.row_shape (event : FieldEvent) :
    Shape.row .metadata event.shape =
      .ofTarget event.code event.severity "<operation> child element" event.happened := by
  cases event <;> rfl

theorem FieldEvent.plain_happened (event : FieldEvent) : TaxonomyRow.Plain event.happened := by
  cases event with
  | removed => decide
  | added => decide
  | changed name => exact (by decide : TaxonomyRow.Plain "was changed")

/-- **The record of the change that shows a finding.** -/
theorem FieldFinding.record_change (name : String) (f : FieldFinding) :
    (f.change ((Path.root name).child "Fields")).record name = f.record name := by
  have hmessage : (Shape.row .metadata f.event.shape).render name f.key =
      "<operation> child element " ++ f.key ++ " " ++ f.event.happened := by
    rw [FieldEvent.row_shape, TaxonomyRow.render_ofTarget name f.key (by decide)
      f.event.plain_happened]
    rfl
  rw [Change.record, record, Record.mk.injEq]
  exact ⟨rfl, rfl, congrArg TaxonomyRow.code f.event.row_shape,
    congrArg TaxonomyRow.severity f.event.row_shape, hmessage⟩

/-! ## No finding below a field that is in one operation only -/

namespace FieldFinding

variable {before after : FieldForest} {f g : FieldFinding}

/-- Below a field that is in one operation only, no level is in both. -/
theorem not_prefix_above (hf : f.Holds before after) (hg : g.Holds before after)
    (hpresence : ∀ name, f.event ≠ .changed name) : ¬ f.chain <+: g.above := by
  rintro ⟨rest, hrest⟩
  obtain ⟨F, G, hF, hG, hevent⟩ := hf
  obtain ⟨F', G', hF', hG', -⟩ := hg
  rw [← hrest, chain, List.append_assoc, FieldForest.levelAt?_append, hF, Option.bind_some] at hF'
  rw [← hrest, chain, List.append_assoc, FieldForest.levelAt?_append, hG, Option.bind_some] at hG'
  obtain ⟨x, hx, -⟩ := FieldForest.levelAt?_cons_eq_some_iff.1 hF'
  obtain ⟨y, hy, -⟩ := FieldForest.levelAt?_cons_eq_some_iff.1 hG'
  rcases hevent.eq_none hpresence with hnone | hnone
  · cases hx.symm.trans hnone
  · cases hy.symm.trans hnone

/-- Where a field is in one operation only, no attribute of it differs. -/
theorem chain_ne_chain (hf : f.Holds before after) (hg : g.Holds before after)
    (hpresence : ∀ name, f.event ≠ .changed name) {name : String}
    (hchanged : g.event = .changed name) : f.chain ≠ g.chain := by
  intro hchain
  obtain ⟨habove, hkey⟩ := List.append_inj' hchain rfl
  obtain ⟨F, G, hF, hG, hevent⟩ := hf
  obtain ⟨F', G', hF', hG', hevent'⟩ := hg
  obtain rfl := Option.some.inj (hF.symm.trans (habove ▸ hF'))
  obtain rfl := Option.some.inj (hG.symm.trans (habove ▸ hG'))
  rw [← (List.cons.inj hkey).1, hchanged] at hevent'
  exact (hevent.eq_none hpresence).elim hevent'.ne_none.1 hevent'.ne_none.2

/-- **No finding is below a field that is in one operation only.** -/
theorem trail_eq_of_prefix (hf : f.Holds before after) (hg : g.Holds before after)
    (hpresence : ∀ name, f.event ≠ .changed name) (h : f.trail <+: g.trail) :
    g.trail = f.trail := by
  have habove := not_prefix_above hf hg hpresence
  have hf' : f.trail = f.chain := by
    rw [trail, FieldEvent.suffix_eq_nil hpresence, List.append_nil]
  rw [hf'] at h ⊢
  by_cases hchanged : ∃ name, g.event = .changed name
  · obtain ⟨name, hname⟩ := hchanged
    have hg' : g.trail = g.chain ++ [name] := by rw [trail, hname, FieldEvent.suffix]
    rw [hg'] at h ⊢
    rcases List.prefix_concat_iff.1 h with heq | h
    · exact heq.symm
    · rcases List.prefix_concat_iff.1 h with heq | h
      · exact absurd heq (chain_ne_chain hf hg hpresence hname)
      · exact absurd h habove
  · have hg' : g.trail = g.above ++ [g.key] := by
      rw [trail, FieldEvent.suffix_eq_nil (not_exists.1 hchanged), List.append_nil, chain]
    rw [hg'] at h ⊢
    exact ((List.prefix_concat_iff.1 h).resolve_right habove).symm

end FieldFinding

/-- **The records of two operations**: those of the attributes of the operation, and one for every
finding that holds. A field that is in one operation only is found where the keys above it lead to a
level in both; an attribute is found wherever a chain of keys leads to a field in both. The record
shows the whole chain and, for an attribute, its name; its message tells the key of the field. No
finding occurs twice, and none is below a field that is in one operation only.

**Proof sketch.** The changes of the fields are the findings that hold, and a change tells its
finding, so the list of changes is a list of findings. Changes are apart from each other, so no
finding occurs twice. -/
theorem Operation.exists_findings (name : String) (a b : Entity .metadata) :
    ∃ findings : List FieldFinding, findings.Nodup ∧
      (∀ f, f ∈ findings ↔ f.Holds a.body.fields b.body.fields) ∧
      Entity.records name (some a) (some b) =
        (attributeChanges (fun _ => Shape.attributeChanged .metadata) (.root name) id
          a.attributes b.attributes).map (Change.record name)
        ++ findings.map (FieldFinding.record name) ∧
      ∀ f ∈ findings, ∀ g ∈ findings, (∀ n, f.event ≠ .changed n) →
        f.trail <+: g.trail → g.trail = f.trail := by
  let path := (Path.root name).child "Fields"
  let changes := fieldChanges path a.body.fields b.body.fields
  have hmem : ∀ c, c ∈ changes ↔ ∃ f : FieldFinding, f.Holds a.body.fields b.body.fields ∧
      f.change path = c := fun c => mem_fieldChanges_iff a.body.ordered b.body.ordered
  obtain ⟨findings, hfindings⟩ : changes ∈ Set.range (List.map (FieldFinding.change path)) := by
    rw [Set.range_list_map]
    exact fun c hc => ((hmem c).1 hc).imp fun f hf => hf.2
  have hholds : ∀ f, f ∈ findings ↔ f.Holds a.body.fields b.body.fields := by
    intro f
    rw [← List.mem_map_of_injective (FieldFinding.change_injective path), hfindings, hmem]
    exact ⟨fun ⟨g, hg, h⟩ => FieldFinding.change_injective path h ▸ hg, fun hf => ⟨f, hf, rfl⟩⟩
  have hnodup : findings.Nodup := by
    refine List.Nodup.of_map (FieldFinding.change path) ?_
    rw [hfindings]
    exact (apart_fieldChanges a.body.ordered b.body.ordered).imp fun hne heq => hne (by rw [heq])
  refine ⟨findings, hnodup, hholds, ?_, fun f hf g hg hpresence h =>
    FieldFinding.trail_eq_of_prefix ((hholds f).1 hf) ((hholds g).1 hg) hpresence h⟩
  have hrecords : changes.map (Change.record name) = findings.map (FieldFinding.record name) := by
    rw [← hfindings, List.map_map]
    exact List.map_congr_left fun f _ => f.record_change name
  rw [← hrecords]
  exact List.map_append

end ReleaseDiff

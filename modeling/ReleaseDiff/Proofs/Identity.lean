import ReleaseDiff.Proofs.Apart
import ReleaseDiff.Proofs.Names

set_option autoImplicit false

/-!
# What identifies a record

A record shows its place as one text, the names joined by slashes, and a slash inside a name is not
marked. With such names two records can agree in kind, path and code. Where no name of either
release holds a slash they cannot, for then the path tells every name on the way.

## Main definitions

* `ReleaseDiff.Record.place` — kind, path and code of a record.
* `ReleaseDiff.Path.ofText` — the names between the slashes of a text.
* `ReleaseDiff.Tree.Slashless` — no name in a release holds a slash.

## Main results

* `ReleaseDiff.Shape.code_injective` — shapes of a kind have different codes.
* `ReleaseDiff.Path.ofText_text`, `ReleaseDiff.Path.text_injective` — splitting the text of a path
  without a slash in a name gives the path back, and such paths have different texts.
* `ReleaseDiff.Entity.slashless_of_mem_changes` — releases without a slash in a name give changes
  without a slash in a name.
* `ReleaseDiff.nodup_places_classify` — the records of such releases have different places.
* `ReleaseDiff.places_classify_slash_in_key` — with a slash in a key, two records have one place.
-/

namespace ReleaseDiff

variable {k : Kind}

/-! ## Codes and texts -/

/-- **Shapes of a kind have different codes.** -/
theorem Shape.code_injective (k : Kind) :
    Function.Injective fun s : Shape k => (Shape.row k s).code := by
  have hnodup : ∀ k, ((Shape.all k).map fun s => (Shape.row k s).code).Nodup := by decide
  intro s t h
  exact List.inj_on_of_nodup_map (hnodup k) (Shape.mem_all k s) (Shape.mem_all k t) h

/-- A name without a slash. -/
def Slashless (s : String) : Prop := '/' ∉ s.toList

instance (s : String) : Decidable (Slashless s) := inferInstanceAs (Decidable ('/' ∉ s.toList))

/-- A path without a slash in a name. -/
def Path.Slashless (p : Path) : Prop := ∀ s ∈ p.segments, ReleaseDiff.Slashless s

/-- The path of a text: the names between its slashes. -/
def Path.ofText (text : String) : Path := ⟨(text.toList.splitOn '/').map String.ofList⟩

/-- **Splitting the text of a path at its slashes gives the path back**, if no name holds one. -/
theorem Path.ofText_text {p : Path} (hne : p.segments ≠ []) (hfree : p.Slashless) :
    ofText p.text = p := by
  have hsplit : p.text.toList.splitOn '/' = p.segments.map String.toList := by
    rw [text, String.toList_intercalate]
    refine List.splitOn_intercalate _ (fun name hname => ?_) (by simpa using hne)
    obtain ⟨s, hs, rfl⟩ := List.mem_map.1 hname
    exact hfree s hs
  rw [ofText, hsplit, List.map_map]
  simp [Function.comp_def]

/-- **Paths without a slash in a name have different texts.** -/
theorem Path.text_injective {p q : Path} (hp : p.segments ≠ []) (hq : q.segments ≠ [])
    (hp' : p.Slashless) (hq' : q.Slashless) (h : p.text = q.text) : p = q := by
  rw [← ofText_text hp hp', ← ofText_text hq hq', h]

/-! ## Releases without a slash -/

/-- What stands at an address has no slash in the name of an attribute. -/
def Holding.Slashless (h : Holding) : Prop :=
  ∀ name, h.attributes.value? name ≠ none → ReleaseDiff.Slashless name

/-- A body without a slash in a name. -/
def Body.Slashless (k : Kind) (b : Body k) : Prop :=
  ∀ address h, Body.holding? k b address = some h →
    (∀ s ∈ address, ReleaseDiff.Slashless s) ∧ h.Slashless

/-- **A release without a slash in a name**: in the name of an entity, in a key at any depth, in the
name of an attribute or of an annotation, or in a value of a set. -/
def Tree.Slashless (t : Tree) : Prop :=
  ∀ k name address h, t.holding? k name address = some h →
    ReleaseDiff.Slashless name ∧ (∀ s ∈ address, ReleaseDiff.Slashless s) ∧ h.Slashless

/-- **Releases without a slash in a name give changes without one.** -/
theorem Entity.slashless_of_mem_changes {before after : Tree} (hb : before.Slashless)
    (ha : after.Slashless) {name : String} {c : Change k}
    (hc : c ∈ Entity.changes name (before.entity? k name) (after.entity? k name)) :
    c.path.Slashless :=
  Entity.not_mem_path_of_mem_changes hb ha hc (by decide) (by decide)

/-! ## Releases of a single entity without a slash -/

/-- A section without a slash in the name of an element or of an attribute of one. -/
theorem Body.slashless_of_elements {b : PageSection} (h : ∀ x ∈ b.elements.items,
    ReleaseDiff.Slashless x.key ∧ ∀ a ∈ x.attributes.items, ReleaseDiff.Slashless a.name) :
    Body.Slashless .pageSection b :=
  Body.namesLack_of_elements (by decide) h

/-- The release of a single entity without a slash. -/
theorem Tree.slashless_single {e : Entity k} (hname : ReleaseDiff.Slashless e.name)
    (hnames : ∀ a ∈ e.attributes.items, ReleaseDiff.Slashless a.name)
    (hbody : Body.Slashless k e.body) : (Tree.single e).Slashless :=
  Tree.namesLack_single hname hnames hbody

/-! ## Records -/

/-- **The place of a record**: its kind, its path and its code. -/
def Record.place (r : Record) : Kind × String × String := (r.kind, r.path, r.code)

/-- Records of changes at different places without a slash have different places. -/
theorem Change.place_record_ne {name name' : String} {c d : Change k}
    (hc : c.Within (.root name)) (hd : d.Within (.root name')) (hc' : c.path.Slashless)
    (hd' : d.path.Slashless) (hne : c.place ≠ d.place) :
    (c.record name).place ≠ (d.record name').place := by
  intro heq
  obtain ⟨-, htext, hcode⟩ : k = k ∧ c.path.text = d.path.text ∧
      (Shape.row k c.shape).code = (Shape.row k d.shape).code := by
    simpa [Record.place, Change.record] using heq
  have hpath := Path.text_injective hc.segments_ne_nil hd.segments_ne_nil hc' hd' htext
  have hshape := Shape.code_injective k hcode
  exact hne (Prod.ext (congrArg Path.segments hpath) hshape)

/-- The records of one name have different places. -/
theorem Entity.pairwise_place_records {before after : Tree} (hb : before.Slashless)
    (ha : after.Slashless) (name : String) :
    (Entity.records name (before.entity? k name) (after.entity? k name)).Pairwise
      fun r s => r.place ≠ s.place :=
  List.pairwise_map.2 ((Entity.apart_changes name _ _).imp_of_mem fun hc hd hne =>
    Change.place_record_ne (within_of_mem_changes hc) (within_of_mem_changes hd)
      (slashless_of_mem_changes hb ha hc) (slashless_of_mem_changes hb ha hd) hne)

/-- The records of different names of a kind have different places. -/
theorem Entity.place_records_ne {before after : Tree} (hb : before.Slashless)
    (ha : after.Slashless) {name name' : String} (hne : name ≠ name') {r s : Record}
    (hr : r ∈ Entity.records name (before.entity? k name) (after.entity? k name))
    (hs : s ∈ Entity.records name' (before.entity? k name') (after.entity? k name')) :
    r.place ≠ s.place := by
  obtain ⟨c, hc, rfl⟩ := List.mem_map.1 hr
  obtain ⟨d, hd, rfl⟩ := List.mem_map.1 hs
  refine Change.place_record_ne (within_of_mem_changes hc) (within_of_mem_changes hd)
    (slashless_of_mem_changes hb ha hc) (slashless_of_mem_changes hb ha hd)
    (Change.place_ne_of_path_ne fun heq => hne ?_)
  have hc' : d.Within ((⟨[]⟩ : Path).child name) := by
    rw [Change.Within, ← heq]
    exact within_of_mem_changes hc
  exact hc'.child_unique (within_of_mem_changes hd)

/-- The records of one kind have different places. -/
theorem pairwise_place_compareKind {before after : Tree} (hb : before.Slashless)
    (ha : after.Slashless) (k : Kind) :
    (compareKind k before after).records.Pairwise fun r s => r.place ≠ s.place := by
  cases hold : before k with
  | error m => simp [compareKind, hold, KindOutcome.records]
  | ok old =>
    cases hnew : after k with
    | error m => simp [compareKind, hold, hnew, KindOutcome.records]
    | ok new =>
      have hbefore := Tree.entity?_of_ok hold
      have hafter := Tree.entity?_of_ok hnew
      rw [compareKind_of_ok hold hnew, KindOutcome.records,
        (entityRecords_perm old new).pairwise_iff fun hne => hne.symm]
      refine List.pairwise_flatMap.2 ⟨fun name _ => ?_, ?_⟩
      · rw [← hbefore, ← hafter]
        exact Entity.pairwise_place_records hb ha name
      · refine (Catalog.nodup_keysOfBoth old new).imp fun hne r hr s hs => ?_
        rw [← hbefore, ← hafter] at hr hs
        exact Entity.place_records_ne hb ha hne hr hs

/-- The records of a report have different places.

**Proof sketch.** Records of different kinds differ in the kind. The changes of one kind are below
different entities or are changes of one entity; either way they have different paths, name by name,
or different shapes. Without a slash in a name the text of a path tells every name, and the code of
a shape tells the shape. -/
theorem pairwise_place_classify {before after : Tree} (hb : before.Slashless)
    (ha : after.Slashless) (config : Config) :
    (classify config before after).records.Pairwise fun r s => r.place ≠ s.place := by
  rw [(records_classify_perm config before after).pairwise_iff fun hne => hne.symm]
  refine List.pairwise_flatMap.2 ⟨fun k _ => pairwise_place_compareKind hb ha k, ?_⟩
  refine config.nodup_enabledKinds.imp fun hne r hr s hs heq => hne ?_
  rw [← kind_of_mem_records_compareKind hr, ← kind_of_mem_records_compareKind hs]
  exact congrArg Prod.fst heq

/-- **No two records of releases without a slash in a name have one place.** -/
theorem nodup_places_classify (config : Config) (before after : Tree) (hb : before.Slashless)
    (ha : after.Slashless) : ((classify config before after).records.map Record.place).Nodup :=
  List.pairwise_map.2 (pairwise_place_classify hb ha config)

/-- An element is removed from a section and another one added: two records, at two places. -/
theorem nodup_places_classify_renamed_element :
    let form (element : String) : Entity .pageSection :=
      ⟨"LoginForm", ∅, ⟨Catalog.ofList [⟨element, ∅⟩]⟩⟩
    let before := Tree.single (form "send")
    let after := Tree.single (form "submit")
    before.Slashless ∧ after.Slashless ∧ (classify {} before after).records.length = 2 ∧
      ((classify {} before after).records.map Record.place).Nodup := by
  intro form before after
  have hslashless : ∀ element, Slashless element → (Tree.single (form element)).Slashless := by
    intro element helement
    have hname : Slashless "LoginForm" := by decide
    refine Tree.slashless_single hname (fun a ha => absurd ha List.not_mem_nil)
      (Body.slashless_of_elements fun x hx => ?_)
    obtain rfl : x = ⟨element, ∅⟩ := List.mem_singleton.1 hx
    exact ⟨helement, fun a ha => absurd ha List.not_mem_nil⟩
  have hb := hslashless "send" (by decide)
  have ha := hslashless "submit" (by decide)
  have hlength : (classify {} before after).records.length = 2 :=
    (records_classify_perm {} before after).length_eq.trans (by decide)
  exact ⟨hb, ha, hlength, nodup_places_classify {} before after hb ha⟩

/-- **With a slash in a key, two records have one place.** A field `url` below the field `web` and a
field `web/url` beside it are removed: the records differ in their messages and in nothing else. -/
theorem places_classify_slash_in_key :
    let release (fields : FieldForest) : Tree := Tree.ofSteps
      [.ofResult (Draft.build? (⟨"SaveConfig", [], ⟨fields⟩⟩ : Draft .metadata))]
    let web (below : FieldForest) : FieldForest → FieldForest := .cons "web" ∅ below
    let before := release (web (.cons "url" ∅ .nil .nil) (.cons "web/url" ∅ .nil .nil))
    let after := release (web .nil .nil)
    (∀ k, (before k).isOk = true) ∧ (∀ k, (after k).isOk = true) ∧
      (classify {} before after).records.Nodup ∧
      ¬((classify {} before after).records.map Record.place).Nodup := by
  intro release web before after
  have hfound := records_classify_perm {} before after
  refine ⟨by decide, by decide, hfound.nodup_iff.2 (by decide), fun hnodup => ?_⟩
  exact absurd ((hfound.map Record.place).nodup_iff.1 hnodup) (by decide)

end ReleaseDiff

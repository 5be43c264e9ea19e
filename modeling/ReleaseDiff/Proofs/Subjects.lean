import ReleaseDiff.Proofs.Coverage
import ReleaseDiff.Proofs.Facts

set_option autoImplicit false

/-!
# What a record is about

A record shows a change of some subject: an entity, an attribute of it, an annotation with a single
text, a group value, an item of a collection, or an attribute of such an item. Its shape says which
of these it is, its path leads to the subject, and its message names the target of the change.

## Main definitions

* `ReleaseDiff.Focus`, `ReleaseDiff.Shape.focus` — what the changes of a shape are about.
* `ReleaseDiff.Subject` — what a change in an entity is about.
* `ReleaseDiff.Subject.path`, `ReleaseDiff.Subject.target` — where its changes are, and what they
  name.
* `ReleaseDiff.Change.About` — a change is about a subject on which two releases disagree.
* `ReleaseDiff.Record.InstanceOf` — a record shows the row of a shape for a subject.

## Main results

* `ReleaseDiff.AnyShape.code_injective` — shapes of whatever kind have different codes.
* `ReleaseDiff.Body.exists_about_of_mem_changes`,
  `ReleaseDiff.Entity.exists_about_of_mem_changes` — every change is about a subject.
* `ReleaseDiff.exists_instanceOf_of_mem_classify` — every record is an instance of exactly one
  shape.

## Design

The target of a change is the innermost item: where a path goes on from an item to an attribute, the
target is still the key of the item. Attributes of the entity are the exception, their target is the
attribute. On a path, a group value stands in parentheses behind the name of its annotation.
-/

namespace ReleaseDiff

variable {k : Kind}

/-! ## Subjects -/

/-- **What a change can be about.** -/
inductive Focus where
  /-- An entity. -/
  | entity
  /-- An attribute of an entity. -/
  | entityAttribute
  /-- An annotation with a single text. -/
  | scalar
  /-- A value of the annotation that holds a set. -/
  | groupValue
  /-- An item of a collection. -/
  | item
  /-- An attribute of an item of a collection. -/
  | itemAttribute
  deriving DecidableEq, Repr

/-- What the shapes of an action group are about. -/
def ActionGroupShape.focus : ActionGroupShape → Focus
  | entityAdded | entityRemoved => .entity
  | attributeChanged => .entityAttribute
  | argumentAdded | argumentRemoved | actionAdded | actionRemoved | actionTypeChanged => .item
  | argumentChanged | actionChanged | actionGroupRefChanged => .itemAttribute

/-- What the shapes of a test are about. -/
def TestShape.focus : TestShape → Focus
  | entityAdded | entityRemoved => .entity
  | attributeChanged => .entityAttribute
  | annotationAdded | annotationChanged => .scalar
  | groupAdded | groupRemoved => .groupValue
  | actionAdded | actionRemoved | actionTypeChanged | removeActionAdded | removeActionRemoved =>
    .item
  | actionChanged | actionGroupRefChanged => .itemAttribute

/-- What the shapes of a page are about. -/
def PageShape.focus : PageShape → Focus
  | entityAdded | entityRemoved => .entity
  | attributeChanged => .entityAttribute
  | sectionAdded | sectionRemoved => .item
  | sectionChanged => .itemAttribute

/-- What the shapes of a section are about. -/
def PageSectionShape.focus : PageSectionShape → Focus
  | entityAdded | entityRemoved => .entity
  | attributeChanged => .entityAttribute
  | elementAdded | elementRemoved => .item
  | elementChanged => .itemAttribute

/-- What the shapes of a data entity are about. -/
def DataEntityShape.focus : DataEntityShape → Focus
  | entityAdded | entityRemoved => .entity
  | attributeChanged => .entityAttribute
  | fieldAdded | fieldRemoved | fieldChanged | arrayAdded | arrayRemoved | arrayItemAdded
  | arrayItemRemoved | requiredEntityAdded | requiredEntityRemoved | varAdded | varRemoved => .item
  | requiredEntityChanged | varChanged => .itemAttribute

/-- What the shapes of a metadata operation are about. -/
def OperationShape.focus : OperationShape → Focus
  | entityAdded | entityRemoved => .entity
  | attributeChanged => .entityAttribute
  | childAdded | childRemoved => .item
  | childChanged => .itemAttribute

/-- **What the changes of a shape are about.** -/
def Shape.focus : (k : Kind) → Shape k → Focus
  | .actionGroup, s => ActionGroupShape.focus s
  | .test, s => TestShape.focus s
  | .page, s => PageShape.focus s
  | .pageSection, s => PageSectionShape.focus s
  | .data, s => DataEntityShape.focus s
  | .metadata, s => OperationShape.focus s

/-- **A subject**: what a change in an entity is about. A collection is told by its address. -/
inductive Subject where
  /-- The entity. -/
  | entity
  /-- An attribute of the entity. -/
  | entityAttribute (name : String)
  /-- An annotation with a single text. -/
  | scalar (name : String)
  /-- A group value. -/
  | groupValue (value : String)
  /-- An item of a collection. -/
  | item (collection : List String) (key : String)
  /-- An attribute of an item of a collection. -/
  | itemAttribute (collection : List String) (key name : String)
  deriving DecidableEq, Repr

namespace Subject

/-- What kind of subject it is. -/
def focus : Subject → Focus
  | entity => .entity
  | entityAttribute _ => .entityAttribute
  | scalar _ => .scalar
  | groupValue _ => .groupValue
  | item _ _ => .item
  | itemAttribute _ _ _ => .itemAttribute

/-- **The target of a change** of a subject in an entity of a name. -/
def target (entityName : String) : Subject → String
  | entity => entityName
  | entityAttribute name => name
  | scalar name => name
  | groupValue value => value
  | item _ key => key
  | itemAttribute _ key _ => key

/-- The names below the entity on the path of a change of a subject. -/
def trail : Subject → List String
  | entity => []
  | entityAttribute name => [name]
  | scalar name => ["Annotations", name]
  | groupValue value => ["Annotations", "group" ++ "(" ++ value ++ ")"]
  | item collection key => collection ++ [key]
  | itemAttribute collection key name => collection ++ [key] ++ [name]

/-- The address of a subject in its entity; that of an attribute is the address of its owner. -/
def address : Subject → List String
  | entity => []
  | entityAttribute _ => []
  | scalar name => ["Annotations", name]
  | groupValue value => ["Annotations", "group", value]
  | item collection key => collection ++ [key]
  | itemAttribute collection key _ => collection ++ [key]

/-- What is asked of a subject. -/
def aspects : Subject → List Aspect
  | entity => [.presence]
  | entityAttribute name => [.value name]
  | scalar _ => [.text]
  | groupValue _ => [.presence]
  | item _ _ => [.presence, .text]
  | itemAttribute _ _ name => [.value name]

/-- **The path of a change** of a subject in an entity of a name. -/
def path (entityName : String) (s : Subject) : Path := ⟨entityName :: s.trail⟩

/-- **A subject differs** between what two releases hold in an entity. -/
def Differs (x y : List String → Option Holding) (s : Subject) : Prop :=
  ∃ aspect ∈ s.aspects, Holding.tells (x s.address) aspect ≠ Holding.tells (y s.address) aspect

end Subject

/-- **A change is about a subject** of an entity that the releases `x` and `y` hold. -/
structure Change.About (name : String) (x y : List String → Option Holding) (c : Change k)
    (s : Subject) : Prop where
  /-- The shape is one for such subjects. -/
  focus : s.focus = Shape.focus k c.shape
  /-- The change is at the path of the subject. -/
  path : c.path = s.path name
  /-- The target of the change is that of the subject. -/
  target : c.target = s.target name
  /-- The releases disagree on the subject. -/
  differs : s.Differs x y

/-! ## Collections -/

/-- **A collection stands at an address**: what is held below the address is what the collection
holds under the key. -/
def Catalog.StandsAt {α : Type} [Keyed α] (holding : α → Holding) (c : Catalog α)
    (x : List String → Option Holding) (address : List String) : Prop :=
  ∀ i, x (address ++ [i]) = (c.get? i).map holding

section Collections

variable {name : String} {x y : List String → Option Holding} {address : List String}

/-- A change of an attribute of an item is about that attribute. -/
theorem exists_about_of_mem_attributeChanges {shape : String → Shape k}
    (hshape : ∀ n, Shape.focus k (shape n) = .itemAttribute) {i : String} {u v : Holding}
    (hx : x (address ++ [i]) = some u) (hy : y (address ++ [i]) = some v) {c : Change k}
    (hc : c ∈ attributeChanges shape ⟨name :: (address ++ [i])⟩ (fun _ => i) u.attributes
      v.attributes) : ∃ s, c.About name x y s := by
  obtain ⟨n, hne, rfl⟩ := mem_attributeChanges_iff.1 hc
  refine ⟨.itemAttribute address i n, (hshape n).symm, rfl, rfl, .value n, List.mem_cons_self, ?_⟩
  rw [Subject.address, hx, hy]
  exact hne

/-- An item that one release has and the other one has not differs. -/
theorem Subject.differs_of_presence {s : Subject} (h : .presence ∈ s.aspects)
    (hne : (x s.address).isSome ≠ (y s.address).isSome) : s.Differs x y := by
  refine ⟨.presence, h, ?_⟩
  cases hx : x s.address <;> cases hy : y s.address <;> simp_all [Holding.tells]

section Items

variable {α : Type} [Keyed α] {holding : α → Holding} {before after : Catalog α}
  {removed added : Shape k}

/-- **A change of a collection is about an item**, if what two items of one key differ in is about
something. -/
theorem exists_about_of_mem_collectionChanges (hremoved : Shape.focus k removed = .item)
    (hadded : Shape.focus k added = .item) (hx : before.StandsAt holding x address)
    (hy : after.StandsAt holding y address) {both : α → α → List (Change k)}
    (hboth : ∀ u v, before.get? (key u) = some u → after.get? (key u) = some v →
      x (address ++ [key u]) = some (holding u) → y (address ++ [key u]) = some (holding v) →
        ∀ c ∈ both u v, ∃ s, c.About name x y s) {c : Change k}
    (hc : c ∈ collectionChanges removed added ⟨name :: address⟩ both before after) :
    ∃ s, c.About name x y s := by
  obtain ⟨i, h⟩ := mem_collectionChanges_iff.1 hc
  obtain ⟨u, hu, hv, rfl⟩ | ⟨v, hu, hv, rfl⟩ | ⟨u, v, hu, hv, hc⟩ := h
  · refine ⟨.item address i, hremoved.symm, rfl, rfl,
      Subject.differs_of_presence List.mem_cons_self ?_⟩
    rw [Subject.address, hx i, hy i, hu, hv]
    exact Bool.noConfusion
  · refine ⟨.item address i, hadded.symm, rfl, rfl,
      Subject.differs_of_presence List.mem_cons_self ?_⟩
    rw [Subject.address, hx i, hy i, hu, hv]
    exact Bool.noConfusion
  · have hkey : key u = i := (Catalog.get?_eq_some_iff.1 hu).2
    subst hkey
    exact hboth u v hu hv (by rw [hx, hu, Option.map_some]) (by rw [hy, hv, Option.map_some]) c hc

/-- A change of items that only appear and disappear is about one of them. -/
theorem exists_about_of_mem_presenceChanges (hremoved : Shape.focus k removed = .item)
    (hadded : Shape.focus k added = .item) (hx : before.StandsAt holding x address)
    (hy : after.StandsAt holding y address) {c : Change k}
    (hc : c ∈ presenceChanges removed added ⟨name :: address⟩ before.items after.items) :
    ∃ s, c.About name x y s := by
  rw [presenceChanges_eq] at hc
  exact exists_about_of_mem_collectionChanges hremoved hadded hx hy
    (fun _ _ _ _ _ _ _ h => absurd h List.not_mem_nil) hc

end Items

/-- **A repertoire of children is focused**: children appear and disappear as items, and what
differs is an attribute of one. -/
structure ChildRepertoire.Focused (repertoire : ChildRepertoire k) : Prop where
  /-- A child appears as an item. -/
  added : Shape.focus k repertoire.added = .item
  /-- A child disappears as an item. -/
  removed : Shape.focus k repertoire.removed = .item
  /-- An attribute of a child differs. -/
  changed : Shape.focus k repertoire.changed = .itemAttribute

/-- A change of a collection of children is about a child or about an attribute of one. -/
theorem exists_about_of_mem_childChanges {repertoire : ChildRepertoire k} (h : repertoire.Focused)
    {before after : Catalog Child} (hx : before.StandsAt Child.holding x address)
    (hy : after.StandsAt Child.holding y address) {c : Change k}
    (hc : c ∈ childChanges repertoire ⟨name :: address⟩ before after) :
    ∃ s, c.About name x y s := by
  rw [childChanges_eq] at hc
  refine exists_about_of_mem_collectionChanges h.removed h.added hx hy
    (fun u v _ _ hxu hyv c hc => ?_) hc
  exact exists_about_of_mem_attributeChanges (fun _ => h.changed) hxu hyv hc

/-- **A repertoire of steps is focused**: steps appear, disappear and do something else as items,
and what differs otherwise is an attribute of one. -/
structure StepRepertoire.Focused (repertoire : StepRepertoire k) : Prop where
  /-- A step appears as an item. -/
  added : Shape.focus k repertoire.added = .item
  /-- A step disappears as an item. -/
  removed : Shape.focus k repertoire.removed = .item
  /-- An attribute of a step differs. -/
  changed : Shape.focus k repertoire.changed = .itemAttribute
  /-- A step as a whole does something else. -/
  typeChanged : Shape.focus k repertoire.typeChanged = .item
  /-- The called action group is an attribute of a step. -/
  refChanged : Shape.focus k repertoire.refChanged = .itemAttribute

/-- The steps of an action group are focused. -/
theorem ActionGroup.focused :
    (⟨.actionAdded, .actionRemoved, .actionChanged, .actionTypeChanged, .actionGroupRefChanged⟩ :
      StepRepertoire .actionGroup).Focused :=
  ⟨rfl, rfl, rfl, rfl, rfl⟩

/-- The steps of a test and of its hooks are focused. -/
theorem Test.focused : Test.stepRepertoire.Focused := ⟨rfl, rfl, rfl, rfl, rfl⟩

/-- A change of a collection of steps is about a step or about an attribute of one. -/
theorem exists_about_of_mem_stepChanges {repertoire : StepRepertoire k} (h : repertoire.Focused)
    {before after : Catalog Step} (hx : before.StandsAt Step.holding x address)
    (hy : after.StandsAt Step.holding y address) {c : Change k}
    (hc : c ∈ stepChanges repertoire ⟨name :: address⟩ before after) :
    ∃ s, c.About name x y s := by
  rw [stepChanges_eq] at hc
  refine exists_about_of_mem_collectionChanges h.removed h.added hx hy
    (fun u v _ _ hxu hyv c hc => ?_) hc
  rcases List.mem_append.1 hc with hc | hc
  · split at hc
    · cases hc
    · rename_i hne
      rw [List.mem_singleton.1 hc]
      refine ⟨.item address (key u), h.typeChanged.symm, rfl, rfl, .text,
        List.mem_cons_of_mem _ List.mem_cons_self, ?_⟩
      rw [Subject.address, hxu, hyv]
      exact fun htext => hne (Option.some.inj htext)
  · refine exists_about_of_mem_attributeChanges (fun n => ?_) hxu hyv hc
    unfold StepRepertoire.ofAttribute
    split
    · exact h.refChanged
    · exact h.changed

/-- A change of the fields of a data entity is about one of them. -/
theorem exists_about_of_mem_dataFieldChanges {before after : Catalog DataField}
    (hx : before.StandsAt DataField.holding x address)
    (hy : after.StandsAt DataField.holding y address) {c : Change .data}
    (hc : c ∈ dataFieldChanges ⟨name :: address⟩ before after) : ∃ s, c.About name x y s := by
  rw [dataFieldChanges_eq] at hc
  refine exists_about_of_mem_collectionChanges rfl rfl hx hy (fun u v _ _ hxu hyv c hc => ?_) hc
  unfold dataFieldPairChanges at hc
  split at hc
  · cases hc
  · rename_i hne
    rw [List.mem_singleton.1 hc]
    refine ⟨.item address (key u), rfl, rfl, rfl, .text,
      List.mem_cons_of_mem _ List.mem_cons_self, ?_⟩
    rw [Subject.address, hxu, hyv]
    exact fun htext => hne (Option.some.inj htext)

/-- A change of the arrays of a data entity is about an array or about an item of one. -/
theorem exists_about_of_mem_arrayChanges {before after : Catalog DataArray}
    (hx : before.StandsAt Holding.mark x address) (hy : after.StandsAt Holding.mark y address)
    (hxitems : ∀ i u, before.get? i = some u →
      u.items.StandsAt Holding.mark x (address ++ [i] ++ ["Items"]))
    (hyitems : ∀ i v, after.get? i = some v →
      v.items.StandsAt Holding.mark y (address ++ [i] ++ ["Items"])) {c : Change .data}
    (hc : c ∈ arrayChanges ⟨name :: address⟩ before after) : ∃ s, c.About name x y s := by
  rw [arrayChanges_eq] at hc
  refine exists_about_of_mem_collectionChanges rfl rfl hx hy (fun u v hu hv _ _ c hc => ?_) hc
  exact exists_about_of_mem_presenceChanges rfl rfl (hxitems u.key u hu) (hyitems u.key v hv) hc

/-- **A forest of fields stands at an address**: what is held below the address is what the forest
holds along the chain of keys. -/
def FieldForest.StandsAt (f : FieldForest) (x : List String → Option Holding)
    (address : List String) : Prop :=
  ∀ chain, chain ≠ [] → x (address ++ chain) = (f.fieldAt? chain).map NestedField.holding

/-- Below a field of a forest stands the level below it. -/
theorem FieldForest.StandsAt.below {f : FieldForest} (h : f.StandsAt x address) {i : String}
    {n : NestedField} (hn : f.find? i = some n) : n.children.StandsAt x (address ++ [i]) := by
  intro chain hchain
  rw [List.append_assoc, List.singleton_append, h _ (List.cons_ne_nil _ _),
    fieldAt?_cons f i hchain, hn, Option.bind_some]

/-- **A change of a forest of fields is about a field or an attribute of one**, at any depth.

**Proof sketch.** Induction over the earlier forest. What two fields of one key differ in is an
attribute of theirs or is found on the levels below them, and these stand at the address of the
field. -/
theorem exists_about_of_mem_fieldChanges {before after : FieldForest} (hb : before.Ordered)
    (ha : after.Ordered) (hx : before.StandsAt x address) (hy : after.StandsAt y address)
    {c : Change .metadata} (hc : c ∈ fieldChanges ⟨name :: address⟩ before after) :
    ∃ s, c.About name x y s := by
  induction hb using FieldForest.Ordered.induction generalizing address after c with
  | step before hb ih =>
    have hxlevel : (before.catalog hb).StandsAt NestedField.holding x address := fun i =>
      hx [i] (List.cons_ne_nil _ _)
    have hylevel : (after.catalog ha).StandsAt NestedField.holding y address := fun i =>
      hy [i] (List.cons_ne_nil _ _)
    rw [fieldChanges_eq _ hb ha] at hc
    refine exists_about_of_mem_collectionChanges rfl rfl hxlevel hylevel
      (fun u v hu hv hxu hyv c hc => ?_) hc
    rcases List.mem_append.1 hc with hc | hc
    · exact exists_about_of_mem_attributeChanges (k := .metadata) (fun _ => rfl) hxu hyv hc
    · exact ih u.key u hu (ha.below hv) (hx.below hu) (hy.below hv) hc

/-- Where two contents of a name that may not recur differ, so do the texts that stand there. -/
theorem Annotations.holding?_text_ne {before after : Annotations} {n : String}
    (hb : before.WellFormed) (ha : after.WellFormed) (hn : n ∉ multiValued)
    (hne : before.content? n ≠ after.content? n) :
    Holding.tells (before.holding? [n]) .text ≠ Holding.tells (after.holding? [n]) .text := by
  -- A name that may not recur holds a single text or nothing, and the text tells which.
  have htext : ∀ {a : Annotations}, a.WellFormed →
      (Holding.tells (a.holding? [n]) .text).map AnnotationContent.scalar = a.content? n := by
    intro a hw
    cases hcontent : a.content? n with
    | none => simp [holding?, hcontent, Holding.tells]
    | some content =>
      cases content with
      | scalar text => simp [holding?, hcontent, Holding.tells]
      | values set => exact absurd ((hw.content_values hcontent).2 ⟨set, rfl⟩) hn
  intro heq
  exact hne (by rw [← htext hb, ← htext ha, heq])

/-- A change of annotations is about an annotation with a single text or about a group value. -/
theorem exists_about_of_mem_annotationChanges {before after : Annotations} (hb : before.WellFormed)
    (ha : after.WellFormed) (hx : ∀ address, x ("Annotations" :: address) = before.holding? address)
    (hy : ∀ address, y ("Annotations" :: address) = after.holding? address) {c : Change .test}
    (hc : c ∈ annotationChanges ⟨[name, "Annotations"]⟩ before after) :
    ∃ s, c.About name x y s := by
  rcases (mem_annotationChanges_iff hb ha).1 hc with ⟨n, hn, hne, rfl⟩ | ⟨n, hn, hc⟩
  · refine ⟨.scalar n, ?_, rfl, rfl, .text, List.mem_cons_self, ?_⟩
    · dsimp only
      split <;> rfl
    · rw [Subject.address, hx, hy]
      exact Annotations.holding?_text_ne hb ha hn hne
  · obtain rfl : n = "group" := List.mem_singleton.1 hn
    have hvalue : ∀ v, (before.valuesSoFar "group").contains v ≠
        (after.valuesSoFar "group").contains v → (Subject.groupValue v).Differs x y := by
      intro v hne
      refine Subject.differs_of_presence List.mem_cons_self ?_
      rw [Subject.address, hx, hy, Annotations.holding?, Annotations.holding?, Option.isSome_map,
        Option.isSome_map]
      exact hne
    obtain ⟨v, ⟨hv, hv', rfl⟩ | ⟨hv, hv', rfl⟩⟩ := mem_valueChanges_iff.1 hc
    · exact ⟨.groupValue v, rfl, rfl, rfl, hvalue v (by rw [hv, hv']; exact Bool.noConfusion)⟩
    · exact ⟨.groupValue v, rfl, rfl, rfl, hvalue v (by rw [hv, hv']; exact Bool.noConfusion)⟩

end Collections

/-! ## Bodies and entities -/

/-- **A change of a body is about something in it.** -/
theorem Body.exists_about_of_mem_changes {name : String} (k : Kind) {a b : Body k}
    {x y : List String → Option Holding}
    (hx : ∀ label rest, x (label :: rest) = Body.holding? k a (label :: rest))
    (hy : ∀ label rest, y (label :: rest) = Body.holding? k b (label :: rest)) {c : Change k}
    (hc : c ∈ Body.changes (.root name) k a b) : ∃ s, c.About name x y s := by
  cases k with
  | actionGroup =>
    rcases List.mem_append.1 hc with hc | hc
    · exact exists_about_of_mem_childChanges ⟨rfl, rfl, rfl⟩ (fun _ => hx _ _) (fun _ => hy _ _) hc
    · exact exists_about_of_mem_stepChanges ActionGroup.focused (fun _ => hx _ _)
        (fun _ => hy _ _) hc
  | test =>
    simp only [changes, Test.changes, List.mem_append] at hc
    rcases hc with (((hc | hc) | hc) | hc) | hc
    · exact exists_about_of_mem_annotationChanges a.wellFormed b.wellFormed (fun _ => hx _ _)
        (fun _ => hy _ _) hc
    · exact exists_about_of_mem_stepChanges Test.focused (fun _ => hx _ _) (fun _ => hy _ _) hc
    · exact exists_about_of_mem_stepChanges Test.focused (fun _ => hx _ _) (fun _ => hy _ _) hc
    · exact exists_about_of_mem_stepChanges Test.focused (fun _ => hx _ _) (fun _ => hy _ _) hc
    · exact exists_about_of_mem_presenceChanges rfl rfl (fun _ => hx _ _) (fun _ => hy _ _) hc
  | page =>
    exact exists_about_of_mem_childChanges ⟨rfl, rfl, rfl⟩ (fun _ => hx _ _) (fun _ => hy _ _) hc
  | pageSection =>
    exact exists_about_of_mem_childChanges ⟨rfl, rfl, rfl⟩ (fun _ => hx _ _) (fun _ => hy _ _) hc
  | data =>
    have hitems : ∀ {e : DataEntity} {z : List String → Option Holding},
        (∀ label rest, z (label :: rest) = Body.holding? .data e (label :: rest)) →
        ∀ i u, e.arrays.get? i = some u →
          u.items.StandsAt Holding.mark z (["Arrays"] ++ [i] ++ ["Items"]) := by
      intro e z hz i u hu v
      refine (hz "Arrays" [i, "Items", v]).trans ?_
      rw [holding?, hu, Option.bind_some]
    simp only [changes, DataEntity.changes, List.mem_append] at hc
    rcases hc with ((hc | hc) | hc) | hc
    · exact exists_about_of_mem_dataFieldChanges (fun _ => hx _ _) (fun _ => hy _ _) hc
    · exact exists_about_of_mem_arrayChanges (fun _ => hx _ _) (fun _ => hy _ _) (hitems hx)
        (hitems hy) hc
    · exact exists_about_of_mem_childChanges ⟨rfl, rfl, rfl⟩ (fun _ => hx _ _) (fun _ => hy _ _) hc
    · exact exists_about_of_mem_childChanges ⟨rfl, rfl, rfl⟩ (fun _ => hx _ _) (fun _ => hy _ _) hc
  | metadata =>
    exact exists_about_of_mem_fieldChanges a.ordered b.ordered (fun _ _ => hx _ _)
      (fun _ _ => hy _ _) hc

/-- The shapes that every kind has are about the entity or about its attributes. -/
theorem Shape.focus_common (k : Kind) :
    focus k (entityAdded k) = .entity ∧ focus k (entityRemoved k) = .entity ∧
      focus k (attributeChanged k) = .entityAttribute := by
  cases k <;> decide

/-- **A change of an entity is about something in it.** -/
theorem Entity.exists_about_of_mem_changes {before after : Tree} {name : String} {c : Change k}
    (hc : c ∈ Entity.changes name (before.entity? k name) (after.entity? k name)) :
    ∃ s, c.About name (before.holding? k name) (after.holding? k name) s := by
  obtain ⟨hadded, hremoved, hattribute⟩ := Shape.focus_common k
  have hmissing : ∀ {t : Tree}, t.entity? k name = none → t.holding? k name [] = none := by
    intro t ht
    rw [Tree.holding?, ht, Option.bind_none]
  have hthere : ∀ {t : Tree} {e}, t.entity? k name = some e →
      ∀ address, t.holding? k name address = e.holding? address := by
    intro t e ht address
    rw [Tree.holding?, ht, Option.bind_some]
  cases hx : before.entity? k name with
  | none =>
    cases hy : after.entity? k name with
    | none =>
      rw [hx, hy] at hc
      cases hc
    | some y =>
      rw [hx, hy] at hc
      rw [List.mem_singleton.1 hc]
      refine ⟨.entity, hadded.symm, rfl, rfl, Subject.differs_of_presence List.mem_cons_self ?_⟩
      rw [Subject.address, hmissing hx, hthere hy, Entity.holding?]
      exact Bool.noConfusion
  | some x =>
    cases hy : after.entity? k name with
    | none =>
      rw [hx, hy] at hc
      rw [List.mem_singleton.1 hc]
      refine ⟨.entity, hremoved.symm, rfl, rfl, Subject.differs_of_presence List.mem_cons_self ?_⟩
      rw [Subject.address, hmissing hy, hthere hx, Entity.holding?]
      exact Bool.noConfusion
    | some y =>
      rw [hx, hy] at hc
      rcases List.mem_append.1 hc with hc | hc
      · obtain ⟨n, hne, rfl⟩ := mem_attributeChanges_iff.1 hc
        refine ⟨.entityAttribute n, hattribute.symm, rfl, rfl, .value n, List.mem_cons_self, ?_⟩
        rw [Subject.address, hthere hx, hthere hy]
        exact hne
      · exact Body.exists_about_of_mem_changes k (fun _ _ => hthere hx _)
          (fun _ _ => hthere hy _) hc

/-! ## Records -/

/-- **A record is an instance of a shape**: it shows the row of the shape for a subject of an
entity. -/
structure Record.InstanceOf (before after : Tree) (r : Record) (s : AnyShape) (name : String)
    (subject : Subject) : Prop where
  /-- The record is of the kind of the shape. -/
  kind : r.kind = s.kind
  /-- The record has the severity of the row. -/
  severity : r.severity = s.row.severity
  /-- One of the releases has the entity. -/
  entity : before.entity? s.kind name ≠ none ∨ after.entity? s.kind name ≠ none
  /-- The shape is one for such subjects. -/
  focus : subject.focus = Shape.focus s.kind s.shape
  /-- The releases disagree on the subject. -/
  differs : subject.Differs (before.holding? s.kind name) (after.holding? s.kind name)
  /-- The record is at the path of the subject. -/
  path : r.path = (subject.path name).text
  /-- The message is the text of the row, filled in with the entity and the target. -/
  message : r.message = s.row.render name (subject.target name)

/-- The shape of a code is found, and by its code alone. -/
theorem AnyShape.ofCode?_code (s : AnyShape) : ofCode? s.row.code = some s := by
  have hall : ∀ s ∈ all, ofCode? s.row.code = some s := by decide
  exact hall s (mem_all s)

/-- **Shapes of whatever kind have different codes.** -/
theorem AnyShape.code_injective : Function.Injective fun s : AnyShape => s.row.code := by
  intro s t h
  have hfound : ofCode? s.row.code = ofCode? t.row.code := congrArg ofCode? h
  rw [ofCode?_code, ofCode?_code] at hfound
  exact Option.some.inj hfound

/-- Every record of a report is that of a change of some entity. -/
theorem exists_change_of_mem_classify {config : Config} {before after : Tree} {r : Record}
    (hr : r ∈ (classify config before after).records) :
    ∃ k name, ∃ c ∈ Entity.changes name (before.entity? k name) (after.entity? k name),
      c.record name = r := by
  obtain ⟨k, -, old, new, hold, hnew, name, hr⟩ := mem_records_classify_iff.1 hr
  rw [← Tree.entity?_of_ok hold, ← Tree.entity?_of_ok hnew] at hr
  exact ⟨k, name, List.mem_map.1 hr⟩

/-- **Every record is an instance of exactly one shape.** It has the code of that shape and of no
other one, the shape is the one that is looked up for the code, and the record shows the row of the
shape for some subject of an entity that one of the releases has: the entity, an attribute of it, an
annotation, a group value, an item of a collection or an attribute of such an item. The path starts
with the name of the entity.

**Proof sketch.** Codes are distinct, so the shape of the change that the record shows is the only
one of the code. Every comparison of a collection says which item a change is about; the paths of
the items follow the path of their collection down to any depth. -/
theorem exists_instanceOf_of_mem_classify (config : Config) (before after : Tree) (r : Record)
    (hr : r ∈ (classify config before after).records) :
    ∃ s ∈ AnyShape.all, (∀ t ∈ AnyShape.all, t.row.code = r.code ↔ t = s) ∧
      AnyShape.ofCode? r.code = some s ∧
      ∃ name subject, r.InstanceOf before after s name subject ∧
        (r.path = name ∨ ∃ rest, r.path = name ++ "/" ++ rest) := by
  obtain ⟨k, name, c, hc, rfl⟩ := exists_change_of_mem_classify hr
  obtain ⟨subject, habout⟩ := Entity.exists_about_of_mem_changes hc
  have hentity : before.entity? k name ≠ none ∨ after.entity? k name ≠ none := by
    by_contra hmissing
    rw [not_or, not_not, not_not] at hmissing
    rw [hmissing.1, hmissing.2] at hc
    cases hc
  have hpath : name = c.path.text ∨ ∃ rest, c.path.text = name ++ "/" ++ rest :=
    Path.text_of_prefix (q := Path.root name) (List.cons_ne_nil _ _)
      (Entity.within_of_mem_changes hc)
  refine ⟨⟨k, c.shape⟩, AnyShape.mem_all _, fun t _ => ⟨fun h => AnyShape.code_injective h, ?_⟩,
    AnyShape.ofCode?_code ⟨k, c.shape⟩, name, subject, ?_, hpath.imp Eq.symm id⟩
  · rintro rfl
    rfl
  · exact {
      kind := rfl
      severity := rfl
      entity := hentity
      focus := habout.focus
      differs := habout.differs
      path := congrArg Path.text habout.path
      message := congrArg (TaxonomyRow.render _ name) habout.target }

/-- An attribute of an element differs: the path goes on to the attribute, and the message tells the
element. -/
theorem exists_instanceOf_of_mem_classify_element_attribute :
    let form (kind : String) : Entity .pageSection :=
      ⟨"LoginForm", ∅, ⟨Catalog.ofList [⟨"send", Catalog.ofList [⟨"type", kind⟩]⟩]⟩⟩
    let before := Tree.single (form "button")
    let after := Tree.single (form "input")
    let r : Record := ⟨.pageSection, "LoginForm/Elements/send/type", "M217", .patch,
      "<section> <element> send was changed"⟩
    r ∈ (classify {} before after).records ∧
      ∃ s ∈ AnyShape.all, (∀ t ∈ AnyShape.all, t.row.code = r.code ↔ t = s) ∧
        AnyShape.ofCode? r.code = some s ∧
        ∃ name subject, r.InstanceOf before after s name subject ∧
          (r.path = name ∨ ∃ rest, r.path = name ++ "/" ++ rest) := by
  intro form before after r
  have hr : r ∈ (classify {} before after).records :=
    (records_classify_perm {} before after).mem_iff.2 (by decide)
  exact ⟨hr, exists_instanceOf_of_mem_classify {} before after r hr⟩

end ReleaseDiff

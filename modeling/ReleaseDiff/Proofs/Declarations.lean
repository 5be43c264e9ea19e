import ReleaseDiff.Entity.Draft
import ReleaseDiff.Proofs.Filing

set_option autoImplicit false

/-!
# Drafts declared in any order

The collections of a draft are lists. Drafts that declare the same things in different orders build
together, and into equal entities. The items of an array may also recur any number of times, since
an array keeps each text once.

## Main definitions

* `ReleaseDiff.FieldForest.Rearranged` — nested fields declared in another order on any level.
* `ReleaseDiff.ArrayParts.Rearranged` — arrays that declare the same texts.
* `ReleaseDiff.Draft.Rearranged` — drafts that declare the same things.
* `ReleaseDiff.Blames` — every defect of a reading is one of a kind.

## Main results

* `ReleaseDiff.Annotations.agree_ofPairs?` — annotations read from permuted pairs agree.
* `ReleaseDiff.FieldForest.Rearranged.of_reordered` — any permutation of a level rearranges it.
* `ReleaseDiff.FieldForest.agree_arrange?` — rearranged fields agree once every level is in order.
* `ReleaseDiff.Draft.agree_build?` — rearranged drafts agree.
* `ReleaseDiff.Draft.blames_build?` — a draft fails with a defect of its own kind.
-/

namespace ReleaseDiff

variable {k : Kind}

/-! ## Annotations -/

namespace Annotations

/-- Adds a value under a name that may recur. -/
def collect (annotations : Annotations) (name value : String) : Annotations :=
  annotations.insert ⟨name, .values ((valuesSoFar annotations name).insert value)⟩

/-- What is collected under a name does not depend on what is filed under another one. -/
theorem valuesSoFar_insert_of_ne {a : Annotation} {name : String} (h : a.name ≠ name)
    (annotations : Annotations) :
    valuesSoFar (annotations.insert a) name = annotations.valuesSoFar name := by
  have hget : (annotations.insert a).get? name = annotations.get? name :=
    (Catalog.get?_insert annotations a name).trans (if_neg h)
  rw [valuesSoFar, valuesSoFar, content?, content?, hget]

theorem valuesSoFar_collect (annotations : Annotations) (name value : String) :
    (annotations.collect name value).valuesSoFar name =
      (annotations.valuesSoFar name).insert value := by
  have hget : (annotations.collect name value).get? name =
      some ⟨name, .values ((valuesSoFar annotations name).insert value)⟩ :=
    (Catalog.get?_insert annotations _ name).trans (if_pos rfl)
  rw [valuesSoFar, content?, hget]
  rfl

/-- Two values of one name are filed in one go. -/
theorem collect_collect_self (annotations : Annotations) (name value value' : String) :
    (annotations.collect name value).collect name value' = annotations.insert
      ⟨name, .values (((annotations.valuesSoFar name).insert value).insert value')⟩ := by
  have hlast : (annotations.collect name value).collect name value' =
      (annotations.collect name value).insert
        ⟨name, .values ((valuesSoFar (annotations.collect name value) name).insert value')⟩ := rfl
  rw [hlast, valuesSoFar_collect]
  refine Catalog.insert_insert ?_ annotations
  rfl

/-- Values of two names are filed one after the other. -/
theorem collect_collect_of_ne {name name' : String} (h : name ≠ name') (annotations : Annotations)
    (value value' : String) :
    (annotations.collect name value).collect name' value' =
      (annotations.insert ⟨name, .values ((annotations.valuesSoFar name).insert value)⟩).insert
        ⟨name', .values ((annotations.valuesSoFar name').insert value')⟩ := by
  unfold collect
  rw [valuesSoFar_insert_of_ne h]

/-- Values can be collected in any order. -/
theorem collect_comm (annotations : Annotations) (name value name' value' : String) :
    (annotations.collect name value).collect name' value' =
      (annotations.collect name' value').collect name value := by
  by_cases hname : name = name'
  · subst hname
    rw [collect_collect_self, collect_collect_self]
    by_cases hvalue : value = value'
    · rw [hvalue]
    · rw [Catalog.insert_comm hvalue]
  · rw [collect_collect_of_ne hname, collect_collect_of_ne (Ne.symm hname)]
    exact Catalog.insert_comm hname annotations

/-- A new name can be filed before or after a value of another name. -/
theorem insertNew?_collect {a : Annotation} {name : String} (h : a.name ≠ name)
    (annotations : Annotations) (value : String) :
    (annotations.collect name value).insertNew? a =
      annotations.insertNew? a >>= fun c => .ok (collect c name value) := by
  have hcontains : (annotations.collect name value).contains a.name =
      annotations.contains a.name := by
    unfold Catalog.contains collect
    rw [Catalog.get?_insert, if_neg fun heq => h heq.symm]
  have hinsert : (annotations.collect name value).insert a =
      collect (annotations.insert a) name value := by
    unfold collect
    rw [valuesSoFar_insert_of_ne h]
    exact Catalog.insert_comm (fun heq => h heq.symm) annotations
  unfold Catalog.insertNew?
  rw [show key a = a.name from rfl, hcontains, hinsert]
  split
  · rfl
  · split
    · rfl
    · rfl

/-- A pair whose name may recur can be declared before or after one whose name may not. -/
theorem declare?_comm_of_recurring {p q : String × String} (hp : multiValued.contains p.1 = true)
    (hq : ¬multiValued.contains q.1 = true) (annotations : Annotations) :
    (annotations.declare? p >>= fun c => c.declare? q) =
      annotations.declare? q >>= fun c => c.declare? p := by
  have hne : q.1 ≠ p.1 := fun heq => hq (heq ▸ hp)
  simp only [declare?, if_pos hp, if_neg hq]
  exact insertNew?_collect (a := ⟨q.1, .scalar q.2⟩) hne annotations p.2

/-- Two declared pairs can change places. -/
theorem declare?_comm (annotations : Annotations) (p q : String × String) :
    Agree Eq (annotations.declare? p >>= fun c => c.declare? q)
      (annotations.declare? q >>= fun c => c.declare? p) := by
  by_cases hp : multiValued.contains p.1 = true
  · by_cases hq : multiValued.contains q.1 = true
    · simp only [declare?, if_pos hp, if_pos hq]
      exact .ok (collect_comm annotations p.1 p.2 q.1 q.2)
    · rw [declare?_comm_of_recurring hp hq]
      exact Agree.refl _
  · by_cases hq : multiValued.contains q.1 = true
    · rw [declare?_comm_of_recurring hq hp]
      exact Agree.refl _
    · have hswap := Catalog.agree_foldlM_insertNew?_of_perm
        (List.Perm.swap (⟨q.1, .scalar q.2⟩ : Annotation) ⟨p.1, .scalar p.2⟩ []) annotations
      simpa only [declare?, if_neg hp, if_neg hq, List.foldlM_cons, List.foldlM_nil, bind_pure]
        using hswap

/-- **Annotations read from permuted pairs agree.** -/
theorem agree_ofPairs? {pairs pairs' : List (String × String)} (h : pairs.Perm pairs') :
    Agree Eq (ofPairs? pairs) (ofPairs? pairs') :=
  agree_foldlM_of_perm declare?_comm h ∅

end Annotations

/-- The annotations of a test are those read from the declared pairs. -/
theorem TestParts.map_annotations? (place : Place) (pairs : List (String × String)) :
    (annotations? place pairs).map Subtype.val = place.blame (Annotations.ofPairs? pairs) := by
  unfold annotations?
  split
  · rename_i c hc
    exact (congrArg place.blame hc).symm
  · rename_i m hm
    exact (congrArg place.blame hm).symm

/-! ## Collections -/

/-- A collection read from permuted lists agrees. -/
theorem Place.agree_distinct? {α : Type} [Keyed α] (place : Place) {xs ys : List α}
    (h : xs.Perm ys) :
    Agree Eq (place.distinct? xs) (place.distinct? ys) :=
  (Catalog.agree_foldlM_insertNew?_of_perm h ∅).blame place

namespace ArrayParts

/-- **Arrays that declare the same texts**, in any order and any number of times. -/
def Rearranged (a b : ArrayParts) : Prop :=
  a.key = b.key ∧ ∀ v, v ∈ a.items ↔ v ∈ b.items

/-- The keys of the texts with their places are the texts. -/
theorem map_key_positioned (texts : List String) :
    (positioned texts).map Keyed.key = texts := by
  rw [positioned, List.map_map]
  exact List.zipIdx_map_fst 0 texts

theorem exists_positioned_iff {texts : List String} {v : String} :
    (∃ x ∈ positioned texts, Keyed.key x = v) ↔ v ∈ texts := by
  rw [← List.mem_map, map_key_positioned]

/-- Arrays that declare the same texts agree, positions apart. -/
theorem agree_build? (place : Place) {a b : ArrayParts} (h : a.Rearranged b) :
    Agree (fun c d : DataArray => c.contents = d.contents) (a.build? place) (b.build? place) := by
  have hitems : Agree (fun c d : Catalog ArrayItem => c.keys = d.keys) (items? a.items)
      (items? b.items) := by
    refine Catalog.agree_ofFirsts? fun v => ?_
    rw [exists_positioned_iff, exists_positioned_iff]
    exact h.2 v
  exact (hitems.blame place).bind fun c d hcd => .ok (Prod.ext h.1 hcd)

end ArrayParts

/-! ## Nested fields -/

namespace FieldForest

/-- **Nested fields declared in another order**, on this level or on any level below it. -/
inductive Rearranged : FieldForest → FieldForest → Prop where
  /-- No field. -/
  | nil : Rearranged nil nil
  /-- The first field stays, and what is below it or after it is rearranged. -/
  | cons (key : String) (attributes : Attributes) {children children' rest rest' : FieldForest}
      (below : Rearranged children children') (after : Rearranged rest rest') :
      Rearranged (cons key attributes children rest) (cons key attributes children' rest')
  /-- The first two fields change places. -/
  | swap (key key' : String) (attributes attributes' : Attributes)
      (children children' rest : FieldForest) :
      Rearranged (cons key attributes children (cons key' attributes' children' rest))
        (cons key' attributes' children' (cons key attributes children rest))
  /-- One after the other. -/
  | trans {f g h : FieldForest} (first : Rearranged f g) (second : Rearranged g h) :
      Rearranged f h

/-- Nothing has to move. -/
theorem Rearranged.refl (f : FieldForest) : Rearranged f f := by
  induction f with
  | nil => exact .nil
  | cons key attributes children rest ihbelow ihafter => exact .cons key attributes ihbelow ihafter

/-- **A level is rearranged by any permutation of its fields**, each with a rearranged level below
it. -/
theorem Rearranged.of_reordered {ns ms : List NestedField}
    (h : Reordered (fun n m => n.key = m.key ∧ n.attributes = m.attributes ∧
      Rearranged n.children m.children) ns ms) : Rearranged (ofNodes ns) (ofNodes ms) := by
  obtain ⟨mid, hperm, hrel⟩ := h
  have hmoved : Rearranged (ofNodes ns) (ofNodes mid) := by
    clear hrel
    induction hperm with
    | nil => exact .nil
    | cons n _ ih => exact .cons n.key n.attributes (.refl n.children) ih
    | swap n m rest => exact .swap _ _ _ _ _ _ (ofNodes rest)
    | trans _ _ ih ih' => exact .trans ih ih'
  have hbelow : Rearranged (ofNodes mid) (ofNodes ms) := by
    clear hperm hmoved
    induction hrel with
    | nil => exact .nil
    | @cons n m _ _ hnm _ ih =>
      obtain ⟨hkey, hattributes, hchildren⟩ := hnm
      rw [ofNodes, ofNodes, hkey, hattributes]
      exact .cons m.key m.attributes hchildren ih
  exact hmoved.trans hbelow

/-- A field with the level below it put into order. -/
def arrangeNode? (place : Place) (n : NestedField) : Except Malformed NestedField := do
  return ⟨n.key, n.attributes, ← arrange? (levelBelow place n.key) n.children⟩

/-- The fields of a level are arranged one by one. -/
theorem arrangeBelow?_eq_mapM (place : Place) (f : FieldForest) :
    arrangeBelow? place f = f.nodes.mapM (arrangeNode? place) := by
  induction f with
  | nil => rfl
  | cons k a children rest _ ih =>
    rw [nodes, List.mapM_cons, ← ih]
    simp only [arrangeBelow?, arrangeNode?, arrange?, bind_assoc, pure_bind]

/-- A level read from permuted fields agrees. -/
theorem agree_arrangeLevel? (place : Place) {ns ms : List NestedField} (h : ns.Perm ms) :
    Agree Eq (arrangeLevel? place ns) (arrangeLevel? place ms) := by
  refine (place.agree_distinct? h).bind fun c d hcd => ?_
  rw [hcd]
  exact Agree.refl _

/-- The fields of rearranged levels are the same once the levels below them are in order. -/
theorem agree_arrangeBelow? {f g : FieldForest} (h : f.Rearranged g) (place : Place) :
    Agree List.Perm (arrangeBelow? place f) (arrangeBelow? place g) := by
  induction h generalizing place with
  | nil => exact .ok (List.Perm.refl [])
  | cons key attributes _ _ ihbelow ihafter =>
    refine (ihbelow (levelBelow place key)).bind fun ns ms hperm => ?_
    refine (agree_arrangeLevel? (levelBelow place key) hperm).bind fun c d hcd => ?_
    refine (ihafter place).bind fun rest rest' hrest => ?_
    rw [hcd]
    exact .ok (hrest.cons _)
  | swap key key' attributes attributes' children children' rest =>
    rw [arrangeBelow?_eq_mapM, arrangeBelow?_eq_mapM]
    exact agree_mapM_of_perm _ (List.Perm.swap _ _ _)
  | trans _ _ ih ih' =>
    refine ((ih place).trans (ih' place)).mono fun ns ms h => ?_
    obtain ⟨mid, hperm, hperm'⟩ := h
    exact hperm.trans hperm'

/-- **Rearranged fields agree once every level is in order.** -/
theorem agree_arrange? {f g : FieldForest} (h : f.Rearranged g) (place : Place) :
    Agree Eq (arrange? place f) (arrange? place g) :=
  (agree_arrangeBelow? h place).bind fun _ _ hperm => agree_arrangeLevel? place hperm

end FieldForest

/-! ## Drafts -/

/-- **Declared collections in another order.** Every collection is permuted, and nested fields and
the items of arrays are rearranged. -/
def Parts.Rearranged : (k : Kind) → Parts k → Parts k → Prop
  | .actionGroup, p, q => p.arguments.Perm q.arguments ∧ p.actions.Perm q.actions
  | .test, p, q =>
    p.annotations.Perm q.annotations ∧ p.before.Perm q.before ∧ p.actions.Perm q.actions
      ∧ p.after.Perm q.after ∧ p.removeActions.Perm q.removeActions
  | .page, p, q => p.sections.Perm q.sections
  | .pageSection, p, q => p.elements.Perm q.elements
  | .data, p, q =>
    p.fields.Perm q.fields ∧ Reordered ArrayParts.Rearranged p.arrays q.arrays
      ∧ p.requiredEntities.Perm q.requiredEntities ∧ p.vars.Perm q.vars
  | .metadata, p, q => p.fields.Rearranged q.fields

/-- **Drafts that declare the same things**, in any order. -/
structure Draft.Rearranged (d e : Draft k) : Prop where
  /-- The same name. -/
  name : d.name = e.name
  /-- The same attributes. -/
  attributes : d.attributes = e.attributes
  /-- The same collections, in any order. -/
  parts : Parts.Rearranged k d.parts e.parts

/-- Rearranged action groups agree. -/
theorem ActionGroupParts.agree_build? (place : String → Place) {p q : ActionGroupParts}
    (h : Parts.Rearranged .actionGroup p q) :
    Agree Eq (p.build? place) (q.build? place) := by
  obtain ⟨harguments, hactions⟩ := h
  refine ((place "Arguments").agree_distinct? harguments).bind_eq fun arguments => ?_
  refine ((place "Actions").agree_distinct? hactions).bind_eq fun actions => ?_
  exact Agree.refl _

/-- Rearranged tests agree. -/
theorem TestParts.agree_build? (place : String → Place) {p q : TestParts}
    (h : Parts.Rearranged .test p q) :
    Agree Eq (p.build? place) (q.build? place) := by
  obtain ⟨hannotations, hbefore, hactions, hafter, hremoveActions⟩ := h
  have hread : Agree Eq (annotations? (place "Annotations") p.annotations)
      (annotations? (place "Annotations") q.annotations) := by
    refine Agree.of_map (f := Subtype.val) (fun c d hcd => Subtype.ext hcd) ?_
    rw [map_annotations?, map_annotations?]
    exact (Annotations.agree_ofPairs? hannotations).blame _
  refine hread.bind_eq fun annotations => ?_
  refine ((place "Before").agree_distinct? hbefore).bind_eq fun before => ?_
  refine ((place "Actions").agree_distinct? hactions).bind_eq fun actions => ?_
  refine ((place "After").agree_distinct? hafter).bind_eq fun after => ?_
  refine ((place "RemoveActions").agree_distinct? hremoveActions).bind_eq fun removeActions => ?_
  exact Agree.refl _

/-- Rearranged data entities agree, positions of array items apart. -/
theorem DataParts.agree_build? (place : String → Place) {p q : DataParts}
    (h : Parts.Rearranged .data p q) :
    Agree (Body.Same .data) (p.build? place) (q.build? place) := by
  obtain ⟨hfields, harrays, hrequired, hvars⟩ := h
  have hdeclared := agree_mapM_of_reordered harrays fun a b hab =>
    ArrayParts.agree_build? (place "Items") hab
  refine hdeclared.bind fun declared declared' hreordered => ?_
  refine ((place "Fields").agree_distinct? hfields).bind_eq fun fields => ?_
  have hfiled := Catalog.agree_ofDistinct? (fun a b hab => congrArg Prod.fst hab) hreordered
  refine (hfiled.blame (place "Arrays")).bind fun arrays arrays' hsame => ?_
  refine ((place "RequiredEntities").agree_distinct? hrequired).bind_eq fun required => ?_
  refine ((place "Vars").agree_distinct? hvars).bind_eq fun vars => ?_
  exact .ok ⟨rfl, forall₂_iff_map_eq.1 hsame, rfl, rfl⟩

/-- The fields of an operation are the declared ones, arranged. -/
theorem OperationParts.map_build? (place : String → Place) (p : OperationParts) :
    (p.build? place).map Operation.fields = p.fields.arrange? (place "Fields") := by
  unfold build?
  split
  · rename_i f hf
    exact hf.symm
  · rename_i m hm
    exact hm.symm

/-- Rearranged metadata operations agree. -/
theorem OperationParts.agree_build? (place : String → Place) {p q : OperationParts}
    (h : Parts.Rearranged .metadata p q) :
    Agree Eq (p.build? place) (q.build? place) := by
  have hfields : ∀ a b : Operation, a.fields = b.fields → a = b := by
    rintro ⟨f, _⟩ ⟨g, _⟩ rfl
    rfl
  refine Agree.of_map hfields ?_
  rw [map_build?, map_build?]
  exact FieldForest.agree_arrange? h (place "Fields")

/-- **Rearranged bodies agree**, positions of array items apart. -/
theorem Parts.agree_build? (place : String → Place) {p q : Parts k} (h : Parts.Rearranged k p q) :
    Agree (Body.Same k) (Parts.build? place k p) (Parts.build? place k q) := by
  cases k with
  | actionGroup => exact ActionGroupParts.agree_build? place h
  | test => exact TestParts.agree_build? place h
  | page =>
    exact ((place "Sections").agree_distinct? h).bind_eq fun sections => Agree.refl _
  | pageSection =>
    exact ((place "Elements").agree_distinct? h).bind_eq fun elements => Agree.refl _
  | data => exact DataParts.agree_build? place h
  | metadata => exact OperationParts.agree_build? place h

/-- **Rearranged drafts agree**: they build together, and into equal entities. -/
theorem Draft.agree_build? {d e : Draft k} (h : d.Rearranged e) :
    Agree Entity.Same d.build? e.build? := by
  unfold build?
  rw [h.name, h.attributes]
  split
  · exact .error _ _
  · refine (Parts.agree_build? (⟨k, e.name, ·⟩) h.parts).bind fun b b' hsame => ?_
    exact .ok ⟨rfl, rfl, hsame⟩

/-! ## The kind of a defect -/

/-- **Every defect of a reading is one of a kind.** -/
def Blames {α : Type} (k : Kind) (x : Except Malformed α) : Prop :=
  ∀ m, x = .error m → m.kind = k

namespace Blames

variable {α β : Type}

theorem ok (a : α) : Blames k (.ok a : Except Malformed α) := fun _ h => by cases h

theorem bind {x : Except Malformed α} {f : α → Except Malformed β} (h : Blames k x)
    (hf : ∀ a, Blames k (f a)) : Blames k (x >>= f) := by
  cases x with
  | ok a => exact hf a
  | error m =>
    intro n hn
    cases hn
    exact h m rfl

theorem blame (place : Place) (x : Except KeyDefect α) : Blames place.kind (place.blame x) := by
  cases x with
  | ok a => exact ok a
  | error defect =>
    intro m hm
    cases hm
    cases defect with
    | empty => rfl
    | repeated key => rfl

/-- The image of a reading has the defects of the reading. -/
theorem of_map {x : Except Malformed α} {f : α → β} (h : Blames k (x.map f)) : Blames k x := by
  intro m hm
  subst hm
  exact h m rfl

theorem mapM {f : α → Except Malformed β} (hf : ∀ a, Blames k (f a)) (xs : List α) :
    Blames k (xs.mapM f) := by
  induction xs with
  | nil => exact ok []
  | cons x rest ih =>
    rw [List.mapM_cons]
    exact (hf x).bind fun b => ih.bind fun bs => ok (b :: bs)

end Blames

namespace FieldForest

theorem blames_arrangeLevel? (place : Place) (ns : List NestedField) :
    Blames place.kind (arrangeLevel? place ns) :=
  (Blames.blame place _).bind fun _ => Blames.ok _

theorem blames_arrangeBelow? (place : Place) (f : FieldForest) :
    Blames place.kind (arrangeBelow? place f) := by
  induction f generalizing place with
  | nil => exact Blames.ok []
  | cons key attributes children rest ihbelow ihafter =>
    refine (ihbelow (levelBelow place key)).bind fun ns => ?_
    refine (blames_arrangeLevel? (levelBelow place key) ns).bind fun below => ?_
    exact (ihafter place).bind fun others => Blames.ok _

/-- Fields that cannot be arranged are blamed on the kind of their place. -/
theorem blames_arrange? (place : Place) (f : FieldForest) :
    Blames place.kind (arrange? place f) :=
  (blames_arrangeBelow? place f).bind fun ns => blames_arrangeLevel? place ns

end FieldForest

/-- The body of an entity fails with a defect of its kind. -/
theorem Parts.blames_build? (name : String) (p : Parts k) :
    Blames k (Parts.build? (⟨k, name, ·⟩) k p) := by
  have hdistinct : ∀ {α : Type} [Keyed α] (collection : String) (items : List α),
      Blames k (Place.distinct? ⟨k, name, collection⟩ items) :=
    fun collection items => Blames.blame ⟨k, name, collection⟩ _
  cases k with
  | actionGroup =>
    exact (hdistinct _ _).bind fun _ => (hdistinct _ _).bind fun _ => Blames.ok _
  | test =>
    refine Blames.bind (Blames.of_map (f := Subtype.val) ?_) fun _ => ?_
    · rw [TestParts.map_annotations?]
      exact Blames.blame ⟨.test, name, "Annotations"⟩ _
    exact (hdistinct _ _).bind fun _ => (hdistinct _ _).bind fun _ =>
      (hdistinct _ _).bind fun _ => (hdistinct _ _).bind fun _ => Blames.ok _
  | page => exact (hdistinct _ _).bind fun _ => Blames.ok _
  | pageSection => exact (hdistinct _ _).bind fun _ => Blames.ok _
  | data =>
    have harrays : ∀ a : ArrayParts, Blames .data (a.build? ⟨.data, name, "Items"⟩) :=
      fun a => (Blames.blame ⟨.data, name, "Items"⟩ _).bind fun _ => Blames.ok _
    refine (Blames.mapM harrays _).bind fun _ => ?_
    exact (hdistinct _ _).bind fun _ => (hdistinct _ _).bind fun _ =>
      (hdistinct _ _).bind fun _ => (hdistinct _ _).bind fun _ => Blames.ok _
  | metadata =>
    refine Blames.of_map (f := Operation.fields) ?_
    exact OperationParts.map_build? _ p ▸ FieldForest.blames_arrange? ⟨.metadata, name, "Fields"⟩ _

/-- **A draft fails with a defect of its own kind.** -/
theorem Draft.blames_build? (d : Draft k) : Blames k d.build? := by
  unfold build?
  split
  · intro m hm
    cases hm
    rfl
  · exact (Parts.blames_build? d.name d.parts).bind fun body => Blames.ok _

end ReleaseDiff

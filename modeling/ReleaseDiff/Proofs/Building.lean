import Mathlib.Data.List.Induction
import ReleaseDiff.Proofs.Validation

set_option autoImplicit false

/-!
# Building a draft

A draft is built into an entity that holds everything it declares: every item under its key, the
last value of every attribute, every value of an annotation that collects them, every text of an
array with the place where it stands first. If something declared does not fit, the draft is not
built, and the first defect in the order of validation is reported.

## Main definitions

* `ReleaseDiff.Catalog.Files` — a catalog holds what was declared, and nothing else.
* `ReleaseDiff.Annotations.Collects` — annotations hold the declared pairs.
* `ReleaseDiff.ArrayParts.Becomes` — an array holds the declared texts.
* `ReleaseDiff.Parts.keyLists` — the lists of keys of a draft, in the order of validation.
* `ReleaseDiff.Draft.FirstDefect` — the first defect of a draft in that order.
* `ReleaseDiff.Entity.Shows` — an entity holds all that its draft declares.

## Main results

* `ReleaseDiff.Parts.validates_build?` — building a body validates its lists of keys.
* `ReleaseDiff.Draft.build?_shows_or_blames` — when a draft is built, into what, and how it fails.
-/

namespace ReleaseDiff

variable {k : Kind} {entity : String}

/-! ## What is filed -/

namespace Catalog

variable {α β : Type} [Keyed α] [Keyed β]

/-- **A catalog files what was declared**: in key order, and under the key of every declared item
what that item becomes, and nothing else. -/
structure Files (becomes : β → α → Prop) (items : List β) (c : Catalog α) : Prop where
  /-- The keys increase strictly. -/
  increasing : Increasing c.items
  /-- What was declared is found under its key. -/
  found : ∀ d ∈ items, ∃ x, c.get? (key d) = some x ∧ becomes d x
  /-- What is found was declared under the key. -/
  declared : ∀ i x, c.get? i = some x → ∃ d ∈ items, key d = i ∧ becomes d x

/-- A key is filed just when it was declared, and what is filed is what the declared item
becomes. -/
theorem Files.rel_lookup {becomes : β → α → Prop} {items : List β} {c : Catalog α}
    (h : c.Files becomes items) (i : String) : Option.Rel becomes (lookup items i) (c.get? i) := by
  cases hlookup : lookup items i with
  | some d =>
    obtain ⟨hd, rfl⟩ := mem_of_lookup hlookup
    obtain ⟨x, hx, hbecomes⟩ := h.found d hd
    rw [hx]
    exact .some hbecomes
  | none =>
    cases hget : c.get? i with
    | none => exact .none
    | some x =>
      obtain ⟨d, hd, hkey, -⟩ := h.declared i x hget
      exact absurd (beq_iff_eq.2 hkey) (List.find?_eq_none.1 hlookup d hd)

/-- Items of distinct keys are filed as they are. -/
theorem files_of_ofDistinct? {items : List α} {c : Catalog α} (h : ofDistinct? items = .ok c) :
    c.Files Eq items := by
  obtain ⟨-, hnodup, rfl⟩ := ofDistinct?_eq_ok_iff.1 h
  refine ⟨increasing _, fun x hx => ⟨x, get?_ofList hnodup hx, rfl⟩, fun i x hx => ?_⟩
  rw [get?_ofList_eq_lookup hnodup] at hx
  obtain ⟨hmem, hkey⟩ := mem_of_lookup hx
  exact ⟨x, hmem, hkey, rfl⟩

/-- Of items with one key the last one stays. -/
theorem get?_ofList_eq_lookup_reverse (items : List α) (i : String) :
    (ofList items).get? i = lookup items.reverse i := by
  induction items using List.reverseRecOn with
  | nil => rfl
  | append_singleton front x ih =>
    have hlast : ofList (front ++ [x]) = (ofList front).insert x := by
      rw [ofList, List.foldl_append]
      rfl
    rw [hlast, get?_insert, List.reverse_concat, lookup_cons, ih]

/-- Behind the items of a list, a look-up goes on only where it has found nothing. -/
theorem lookup_append (xs ys : List α) (i : String) :
    lookup (xs ++ ys) i = (lookup xs i).or (lookup ys i) :=
  List.find?_append

/-- **Of items with one key the first one stays**, where a key may recur. -/
theorem get?_of_ofFirsts? {items : List α} {c : Catalog α} (h : ofFirsts? items = .ok c)
    (i : String) : c.get? i = lookup items i := by
  refine foldlM_tracks (fun front c => ∀ i, c.get? i = lookup front i)
    (fun front b x d hfront hd i => ?_) (fun i => rfl) h i
  have hx : lookup [x] i = if key x = i then some x else none := by
    rw [lookup_cons]
    rfl
  unfold insertFirst? at hd
  split at hd
  · cases hd
  · split at hd
    · rename_i htaken
      cases hd
      rw [lookup_append, ← hfront i, hx]
      by_cases hkey : key x = i
      · subst hkey
        obtain ⟨y, hy⟩ := Option.isSome_iff_exists.1 htaken
        rw [hy, Option.some_or]
      · rw [if_neg hkey, Option.or_none]
    · rename_i hfree
      cases hd
      rw [lookup_append, ← hfront i, hx, get?_insert]
      by_cases hkey : key x = i
      · subst hkey
        rw [if_pos rfl, if_pos rfl, contains_eq_false_iff.1 (Bool.not_eq_true _ ▸ hfree),
          Option.none_or]
      · rw [if_neg hkey, if_neg hkey, Option.or_none]

end Catalog

/-- Reading a collection whose keys must be distinct validates its keys. -/
theorem Place.validates_distinct? {α : Type} [Keyed α] (entity collection : String)
    (items : List α) :
    Validates k entity [.distinct collection items] (fun c : Catalog α => c.Files Eq items)
      (Place.distinct? ⟨k, entity, collection⟩ items) :=
  admitsKeys_insertNew?.validates entity collection fun _ => Catalog.files_of_ofDistinct?

/-! ### Arrays -/

instance : Keyed ArrayParts := ⟨ArrayParts.key⟩

namespace ArrayParts

/-- **A declared array becomes an array** of the same key: in the order of the texts, with every
declared text and the first place where it stands. -/
structure Becomes (p : ArrayParts) (a : DataArray) : Prop where
  /-- The same key. -/
  key : a.key = p.key
  /-- The texts increase strictly. -/
  increasing : Increasing a.items.items
  /-- A text is there if it was declared, with the first of its places. -/
  position : ∀ v, (a.items.get? v).map ArrayItem.position = p.items.idxOf? v

/-- Among texts with their places, the first place of a text is found. -/
theorem lookup_zipIdx (texts : List String) (start : Nat) (v : String) :
    (lookup ((texts.zipIdx start).map fun p => (⟨p.1, p.2⟩ : ArrayItem)) v).map
      ArrayItem.position = (texts.idxOf? v).map (· + start) := by
  induction texts generalizing start with
  | nil => rfl
  | cons t texts ih =>
    rw [List.zipIdx_cons, List.map_cons, Catalog.lookup_cons, List.idxOf?_cons]
    by_cases h : t = v
    · subst h
      simp [Keyed.key]
    · rw [if_neg (show Keyed.key (⟨t, start⟩ : ArrayItem) ≠ v from h), ih,
        if_neg (by simpa using h), Option.map_map]
      refine congrArg (fun f => (texts.idxOf? v).map f) (funext fun i => ?_)
      show i + (start + 1) = i + 1 + start
      omega

/-- Reading a declared array validates its texts. -/
theorem validates_build? (p : ArrayParts) :
    Validates k entity [⟨"Items", p.items, fun _ => true⟩] p.Becomes
      (p.build? ⟨k, entity, "Items"⟩) := by
  have hitems : Validates k entity [⟨"Items", (positioned p.items).map Keyed.key, fun _ => true⟩]
      (fun c => ∀ v, c.get? v = lookup (positioned p.items) v)
      (Place.blame ⟨k, entity, "Items"⟩ (items? p.items)) :=
    admitsKeys_insertFirst?.validates entity "Items" fun _ hc => Catalog.get?_of_ofFirsts? hc
  rw [map_key_positioned] at hitems
  refine hitems.bind_cons fun items hfound => .pure ⟨rfl, items.increasing, fun v => ?_⟩
  rw [hfound v, positioned, lookup_zipIdx]
  exact Option.map_id'

/-- An array holds the texts that were declared. -/
theorem Becomes.contains_iff {p : ArrayParts} {a : DataArray} (h : p.Becomes a) {v : String} :
    a.items.contains v = true ↔ v ∈ p.items := by
  rw [Catalog.contains, ← Option.isSome_map (f := ArrayItem.position), h.position,
    List.isSome_idxOf?]

/-- Arrays filed under the keys of the declared ones are what those become. -/
theorem files_of_forall₂ {declared : List ArrayParts} {arrays : List DataArray}
    (h : List.Forall₂ Becomes declared arrays) {c : Catalog DataArray} (hc : c.Files Eq arrays) :
    c.Files Becomes declared := by
  refine ⟨hc.increasing, fun p hp => ?_, fun i x hx => ?_⟩
  · obtain ⟨y, hy, hpy⟩ := (Reordered.of_forall₂ h).exists_right hp
    obtain ⟨x, hx, rfl⟩ := hc.found y hy
    exact ⟨y, (congrArg c.get? hpy.key.symm).trans hx, hpy⟩
  · obtain ⟨y, hy, rfl, rfl⟩ := hc.declared i x hx
    obtain ⟨p, hp, hpy⟩ := (Reordered.of_forall₂ h).exists_left hy
    exact ⟨p, hp, hpy.key.symm, hpy⟩

end ArrayParts

/-! ### Annotations -/

namespace Annotations

/-- **Annotations collect declared pairs**: under a name that may not recur stands the text that was
declared, and under one that may stand all the values that were. -/
structure Collects (pairs : List (String × String)) (a : Annotations) : Prop where
  /-- The names increase strictly. -/
  increasing : Increasing a.items
  /-- Sets of values stand where a name may recur, and only there. -/
  wellFormed : a.WellFormed
  /-- A text is there if it was declared. -/
  scalar : ∀ name ∉ multiValued, ∀ text,
    a.content? name = some (.scalar text) ↔ (name, text) ∈ pairs
  /-- A value is there if it was declared. -/
  values : ∀ name ∈ multiValued, ∀ v, v ∈ (a.valuesSoFar name).items ↔ (name, v) ∈ pairs

/-- A value joins the values of a set. -/
theorem mem_insert_value {set : Catalog String} {v w : String} :
    w ∈ (set.insert v).items ↔ w ∈ set.items ∨ w = v := by
  have hmem : ∀ c : Catalog String, w ∈ c.items ↔ c.get? w = some w := fun c =>
    ⟨fun h => Catalog.get?_eq_some_iff.2 ⟨h, rfl⟩, fun h => (Catalog.get?_eq_some_iff.1 h).1⟩
  rw [hmem, hmem, Catalog.get?_insert]
  by_cases h : v = w
  · subst h
    exact iff_of_true (if_pos rfl) (Or.inr rfl)
  · rw [if_neg (show key v ≠ w from h), or_iff_left (Ne.symm h)]

/-- What is filed under another name is not seen under a name. -/
theorem content?_insert_of_ne {x : Annotation} {name : String} (h : x.name ≠ name)
    (a : Annotations) : content? (a.insert x) name = a.content? name :=
  congrArg (Option.map Annotation.content) ((Catalog.get?_insert a x name).trans (if_neg h))

/-- Under its own name an annotation just filed is seen. -/
theorem content?_insert_self (x : Annotation) (a : Annotations) :
    content? (a.insert x) x.name = some x.content :=
  congrArg (Option.map Annotation.content) ((Catalog.get?_insert a x x.name).trans (if_pos rfl))

section Pairs

variable {front : List (String × String)} {a b : Annotations} {name text : String}

/-- A pair of another name says nothing about a name. -/
theorem mem_concat_iff_of_ne {name' v : String} (h : name ≠ name') :
    (name', v) ∈ front ++ [(name, text)] ↔ (name', v) ∈ front := by
  rw [List.mem_append, List.mem_singleton, or_iff_left]
  rintro heq
  exact h (congrArg Prod.fst heq).symm

/-- A pair of the name adds its text. -/
theorem mem_concat_iff_self {v : String} :
    (name, v) ∈ front ++ [(name, text)] ↔ (name, v) ∈ front ∨ v = text := by
  rw [List.mem_append, List.mem_singleton, Prod.mk.injEq, and_iff_right rfl]

/-- Collecting a value of a name that may recur collects the pair. -/
theorem Collects.collect (h : a.Collects front) (hname : name ∈ multiValued) :
    (a.collect name text).Collects (front ++ [(name, text)]) := by
  refine ⟨(a.collect name text).increasing, ?_, fun other hother v => ?_, fun other hother v => ?_⟩
  · exact wellFormed_of_declare? (declare?_eq_ok_iff.2 (Or.inl ⟨hname, rfl⟩)) h.wellFormed
  · have hne : name ≠ other := fun heq => hother (heq ▸ hname)
    rw [mem_concat_iff_of_ne hne, Annotations.collect, content?_insert_of_ne hne,
      h.scalar other hother]
  · by_cases hne : name = other
    · subst hne
      rw [valuesSoFar_collect, mem_insert_value, h.values name hname, mem_concat_iff_self]
    · rw [mem_concat_iff_of_ne hne, Annotations.collect, valuesSoFar_insert_of_ne hne,
        h.values other hother]

/-- Filing a text under a new name that may not recur collects the pair. -/
theorem Collects.insert_scalar (h : a.Collects front) (hname : name ∉ multiValued)
    (hne : name ≠ "") (hfree : a.contains name = false) :
    Collects (front ++ [(name, text)]) (a.insert ⟨name, .scalar text⟩) := by
  refine ⟨(a.insert ⟨name, .scalar text⟩).increasing, ?_, fun other hother v => ?_,
    fun other hother v => ?_⟩
  · exact wellFormed_of_declare? (declare?_eq_ok_iff.2 (Or.inr ⟨hname, hne, hfree, rfl⟩))
      h.wellFormed
  · by_cases hne : name = other
    · subst hne
      have hnone : a.content? name = none :=
        congrArg (Option.map Annotation.content) (Catalog.contains_eq_false_iff.1 hfree)
      have hnew : (name, v) ∉ front := fun hmem => by
        rw [(h.scalar name hname v).2 hmem] at hnone
        cases hnone
      rw [content?_insert_self ⟨name, .scalar text⟩, mem_concat_iff_self, or_iff_right hnew,
        Option.some_inj, AnnotationContent.scalar.injEq, eq_comm]
    · rw [mem_concat_iff_of_ne hne, content?_insert_of_ne hne, h.scalar other hother]
  · have hne : name ≠ other := fun heq => hname (heq ▸ hother)
    rw [mem_concat_iff_of_ne hne, valuesSoFar_insert_of_ne hne, h.values other hother]

/-- Declaring one more pair collects it. -/
theorem Collects.declare? {x : String × String} (h : a.Collects front)
    (hb : a.declare? x = .ok b) : b.Collects (front ++ [x]) := by
  rcases declare?_eq_ok_iff.1 hb with ⟨hname, rfl⟩ | ⟨hname, hne, hfree, rfl⟩
  · exact h.collect hname
  · exact h.insert_scalar hname hne hfree

end Pairs

/-- **Annotations read from pairs collect them.** -/
theorem collects_of_ofPairs? {pairs : List (String × String)} {a : Annotations}
    (h : ofPairs? pairs = .ok a) : a.Collects pairs := by
  refine foldlM_tracks (fun front a => Collects front a) (fun _ _ _ _ hb hd => hb.declare? hd)
    ⟨(∅ : Annotations).increasing, ?_, fun _ _ _ => ?_, fun _ _ _ => ?_⟩ h
  · exact fun a ha => absurd ha List.not_mem_nil
  · exact iff_of_false (fun h => by cases h) List.not_mem_nil
  · exact iff_of_false List.not_mem_nil List.not_mem_nil

/-- Reading the annotations of a test validates the names of the declared pairs. -/
theorem validates_annotations? (pairs : List (String × String)) :
    Validates k entity [⟨"Annotations", pairs.map Prod.fst, multiValued.contains⟩]
      (fun a => a.val.Collects pairs)
      (TestParts.annotations? ⟨k, entity, "Annotations"⟩ pairs) := by
  refine .of_map (Q := fun a : Annotations => a.Collects pairs) ?_
  rw [TestParts.map_annotations?]
  exact admitsKeys_declare?.validates entity "Annotations" fun _ => collects_of_ofPairs?

end Annotations

/-! ### Nested fields -/

namespace FieldForest

/-- The lists of keys below the fields of a level, field by field. -/
def keyListsBelow (collection : String) : FieldForest → List KeyList
  | nil => []
  | cons key _ children rest =>
    (keyListsBelow (collection ++ "/" ++ key) children ++
      [.distinct (collection ++ "/" ++ key) children.nodes]) ++ keyListsBelow collection rest

/-- **The lists of keys of nested fields**: those below every field of a level before that of the
level itself. -/
def keyLists (collection : String) (f : FieldForest) : List KeyList :=
  f.keyListsBelow collection ++ [.distinct collection f.nodes]

theorem keyListsBelow_eq_flatMap (collection : String) (f : FieldForest) :
    f.keyListsBelow collection =
      f.nodes.flatMap fun n => n.children.keyLists (collection ++ "/" ++ n.key) := by
  induction f with
  | nil => rfl
  | cons key attributes children rest _ ih =>
    rw [keyListsBelow, nodes, List.flatMap_cons, ih]
    rfl

/-- **Arranging nested fields validates the keys of every level** and gives a mirror of what was
declared.

**Proof sketch.** Induction, level by level. The fields of a level are arranged one by one; the
arranged ones have the keys of the level, which are validated last. -/
theorem validates_arrange? (collection : String) (f : FieldForest) :
    Validates k entity (f.keyLists collection) f.Mirrors
      (f.arrange? ⟨k, entity, collection⟩) := by
  induction f using level_induction generalizing collection with
  | step f ih =>
    have hnodes : Validates k entity (f.keyListsBelow collection)
        (List.Forall₂ (fun n m => m.key = n.key ∧ m.attributes = n.attributes ∧
          n.children.Mirrors m.children) f.nodes) (arrangeBelow? ⟨k, entity, collection⟩ f) := by
      rw [arrangeBelow?_eq_mapM, keyListsBelow_eq_flatMap]
      refine .mapM fun n hn => ?_
      rw [← List.append_nil (n.children.keyLists _)]
      exact (ih n hn (collection ++ "/" ++ n.key)).bind fun g hg => .pure ⟨rfl, rfl, hg⟩
    refine hnodes.bind fun ns hrel => ?_
    have hkeys : ns.map key = f.keys := map_key_eq_keys_of_forall₂ hrel
    have hlevel : Validates k entity [.distinct collection f.nodes]
        (fun c => f.Mirrors (ofNodes c.items))
        (Place.blame ⟨k, entity, collection⟩ (Catalog.ofDistinct? ns)) := by
      rw [KeyList.distinct, show f.nodes.map key = ns.map key from hkeys.symm]
      refine admitsKeys_insertNew?.validates entity collection fun c hc => ?_
      obtain ⟨-, hnodup, rfl⟩ := Catalog.ofDistinct?_eq_ok_iff.1 hc
      exact mirrors_ofList hrel (hkeys ▸ hnodup)
    exact hlevel.bind_cons fun c hc => .pure hc

end FieldForest

/-- Building an operation validates the keys of every level of its fields. -/
theorem OperationParts.validates_build? (p : OperationParts) :
    Validates k entity (p.fields.keyLists "Fields") (fun b => p.fields.Mirrors b.fields)
      (p.build? (⟨k, entity, ·⟩)) := by
  refine .of_map (Q := p.fields.Mirrors) ?_
  rw [map_build?]
  exact p.fields.validates_arrange? "Fields"

/-! ## Drafts -/

/-- **The lists of keys of a draft**, in the order of validation. -/
def Parts.keyLists : (k : Kind) → Parts k → List KeyList
  | .actionGroup, p => [.distinct "Arguments" p.arguments, .distinct "Actions" p.actions]
  | .test, p =>
    [⟨"Annotations", p.annotations.map Prod.fst, Annotations.multiValued.contains⟩,
      .distinct "Before" p.before, .distinct "Actions" p.actions, .distinct "After" p.after,
      .distinct "RemoveActions" p.removeActions]
  | .page, p => [.distinct "Sections" p.sections]
  | .pageSection, p => [.distinct "Elements" p.elements]
  | .data, p =>
    p.arrays.map (fun a => ⟨"Items", a.items, fun _ => true⟩) ++
      [.distinct "Fields" p.fields, .distinct "Arrays" p.arrays,
        .distinct "RequiredEntities" p.requiredEntities, .distinct "Vars" p.vars]
  | .metadata, p => p.fields.keyLists "Fields"

/-- **A body shows what is declared.** Every collection holds the declared items under their keys
and nothing else. -/
def Body.Shows : (k : Kind) → Parts k → Body k → Prop
  | .actionGroup, p, b => b.arguments.Files Eq p.arguments ∧ b.actions.Files Eq p.actions
  | .test, p, b =>
    b.annotations.Collects p.annotations ∧ b.before.Files Eq p.before ∧
      b.actions.Files Eq p.actions ∧ b.after.Files Eq p.after ∧
      b.removeActions.Files Eq p.removeActions
  | .page, p, b => b.sections.Files Eq p.sections
  | .pageSection, p, b => b.elements.Files Eq p.elements
  | .data, p, b =>
    b.fields.Files Eq p.fields ∧ b.arrays.Files ArrayParts.Becomes p.arrays ∧
      b.requiredEntities.Files Eq p.requiredEntities ∧ b.vars.Files Eq p.vars
  | .metadata, p, b => p.fields.Mirrors b.fields

/-- Building a data entity validates the items of its arrays before all else. -/
theorem DataParts.validates_build? (p : DataParts) :
    Validates .data entity (Parts.keyLists .data p) (Body.Shows .data p)
      (p.build? (⟨.data, entity, ·⟩)) := by
  have hdeclared : Validates .data entity (p.arrays.map fun a => ⟨"Items", a.items, fun _ => true⟩)
      (List.Forall₂ ArrayParts.Becomes p.arrays)
      (p.arrays.mapM (ArrayParts.build? ⟨.data, entity, "Items"⟩)) := by
    rw [List.map_eq_flatMap]
    exact .mapM fun a _ => a.validates_build?
  refine hdeclared.bind fun arrays harrays => ?_
  have hkeys : arrays.map key = p.arrays.map key := by
    rw [← List.forall₂_eq_eq_eq, List.forall₂_map_left_iff, List.forall₂_map_right_iff]
    exact (harrays.imp fun _ _ h => h.key).flip
  have hfiled := Place.validates_distinct? (k := .data) entity "Arrays" arrays
  rw [KeyList.distinct, hkeys] at hfiled
  refine (Place.validates_distinct? entity "Fields" _).bind_cons fun fields hfields => ?_
  refine hfiled.bind_cons fun filed hfiled => ?_
  refine (Place.validates_distinct? entity "RequiredEntities" _).bind_cons fun required hreq => ?_
  refine (Place.validates_distinct? entity "Vars" _).bind_cons fun vars hvars => ?_
  exact .pure ⟨hfields, ArrayParts.files_of_forall₂ harrays hfiled, hreq, hvars⟩

/-- Building a test validates its annotations, then the steps in the order in which they run, then
the dropped steps. -/
theorem TestParts.validates_build? (p : TestParts) :
    Validates .test entity (Parts.keyLists .test p) (Body.Shows .test p)
      (p.build? (⟨.test, entity, ·⟩)) := by
  refine (Annotations.validates_annotations? _).bind_cons fun annotations hannotations => ?_
  refine (Place.validates_distinct? entity "Before" _).bind_cons fun before hbefore => ?_
  refine (Place.validates_distinct? entity "Actions" _).bind_cons fun actions hactions => ?_
  refine (Place.validates_distinct? entity "After" _).bind_cons fun after hafter => ?_
  refine (Place.validates_distinct? entity "RemoveActions" _).bind_cons fun removed hremoved => ?_
  exact .pure ⟨hannotations, hbefore, hactions, hafter, hremoved⟩

/-- **Building a body validates its lists of keys** and gives a body that shows what is declared. -/
theorem Parts.validates_build? (p : Parts k) :
    Validates k entity (Parts.keyLists k p) (Body.Shows k p)
      (Parts.build? (⟨k, entity, ·⟩) k p) := by
  cases k with
  | actionGroup =>
    refine (Place.validates_distinct? entity "Arguments" _).bind_cons fun arguments hargs => ?_
    refine (Place.validates_distinct? entity "Actions" _).bind_cons fun actions hactions => ?_
    exact .pure ⟨hargs, hactions⟩
  | test => exact TestParts.validates_build? p
  | page =>
    exact (Place.validates_distinct? entity "Sections" _).bind_cons fun sections h => .pure h
  | pageSection =>
    exact (Place.validates_distinct? entity "Elements" _).bind_cons fun elements h => .pure h
  | data => exact DataParts.validates_build? p
  | metadata => exact OperationParts.validates_build? p

/-- **An entity shows its draft**: it has the name, the last value declared of every attribute, and
everything that is declared in the collections. -/
structure Entity.Shows (e : Entity k) (d : Draft k) : Prop where
  /-- The same name. -/
  name : e.name = d.name
  /-- The names of the attributes increase strictly. -/
  increasing : Increasing e.attributes.items
  /-- The value of an attribute is the last one declared. -/
  attributes : ∀ name, e.attributes.get? name = lookup d.attributes.reverse name
  /-- The body shows the declared collections. -/
  body : Body.Shows k d.parts e.body

/-- **What is built shows its draft.** -/
theorem Draft.shows_of_build? {d : Draft k} {e : Entity k} (h : d.build? = .ok e) : e.Shows d := by
  obtain ⟨-, hname, hattributes, hbody⟩ := build?_eq_ok_iff.1 h
  have hvalidates : Validates k d.name _ _ _ := Parts.validates_build? d.parts
  rw [hbody] at hvalidates
  cases hvalidates with
  | ok _ hshows =>
    refine ⟨hname, e.attributes.increasing, fun name => ?_, hshows⟩
    rw [hattributes, Catalog.get?_ofList_eq_lookup_reverse]

/-- **The first defect of a draft**: it has no name, or it has one and this is the first defect of
its lists of keys. -/
def Draft.FirstDefect (d : Draft k) (m : Malformed) : Prop :=
  d.name = "" ∧ m = .missingIdentifier k "" "name" ∨
    d.name ≠ "" ∧ KeyList.FirstDefectIn k d.name (Parts.keyLists k d.parts) m

namespace Draft

variable {d : Draft k} {m m' : Malformed}

/-- A draft with a first defect has no name, or one of its lists of keys is not sound. -/
theorem FirstDefect.not_sound (h : d.FirstDefect m) :
    ¬(d.name ≠ "" ∧ ∀ l ∈ Parts.keyLists k d.parts, l.Sound) := by
  rintro ⟨hname, hsound⟩
  rcases h with ⟨hempty, -⟩ | ⟨-, hdefect⟩
  · exact hname hempty
  · exact hdefect.not_sound hsound

/-- A draft has at most one first defect. -/
theorem FirstDefect.unique (h : d.FirstDefect m) (h' : d.FirstDefect m') : m = m' := by
  rcases h with ⟨hempty, rfl⟩ | ⟨hname, hdefect⟩ <;>
    rcases h' with ⟨hempty', rfl⟩ | ⟨hname', hdefect'⟩
  · rfl
  · exact absurd hempty hname'
  · exact absurd hempty' hname
  · exact hdefect.unique hdefect'

/-- A draft is sound and built, or it fails with its first defect. -/
theorem build?_cases (d : Draft k) :
    ((d.name ≠ "" ∧ ∀ l ∈ Parts.keyLists k d.parts, l.Sound) ∧ ∃ e, d.build? = .ok e) ∨
      ∃ m, d.FirstDefect m ∧ d.build? = .error m := by
  by_cases hname : d.name = ""
  · exact Or.inr ⟨_, Or.inl ⟨hname, rfl⟩, build?_of_nameless hname⟩
  · have hbody : Validates k d.name _ _ _ := Parts.validates_build? d.parts
    generalize hread : Parts.build? (⟨k, d.name, ·⟩) k d.parts = x at hbody
    cases hbody with
    | @ok b hsound _ =>
      exact Or.inl ⟨⟨hname, hsound⟩, ⟨d.name, Catalog.ofList d.attributes, b⟩,
        build?_eq_ok_iff.2 ⟨hname, rfl, rfl, hread⟩⟩
    | error hdefect =>
      exact Or.inr ⟨_, Or.inr ⟨hname, hdefect⟩, (build?_eq_error_iff hname).2 hread⟩

end Draft

end ReleaseDiff

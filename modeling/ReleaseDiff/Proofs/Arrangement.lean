import Mathlib.Algebra.GroupWithZero.Nat
import ReleaseDiff.Proofs.Declarations
import ReleaseDiff.Proofs.Facts

set_option autoImplicit false

/-!
# Building a metadata operation

The declared fields of a metadata operation nest to any depth. They are arranged level by level, the
levels below the fields of a level before the level itself. This succeeds just when on every level
the keys are distinct and not empty; otherwise the defect that is told is one of a level below which
nothing is wrong.

## Main definitions

* `ReleaseDiff.FieldForest.Reaches` — a chain of keys leads to a declared level.
* `ReleaseDiff.FieldForest.WellKeyed` — on every declared level the keys are distinct and not empty.
* `ReleaseDiff.FieldForest.Mirrors` — an arranged forest shows the declared one.
* `ReleaseDiff.KeyDefect.Spoils` — a defect is one of a list of keys.

## Main results

* `ReleaseDiff.FieldForest.arrange?_cases` — arranging gives a mirror of the declared fields, or a
  defect of a level below which nothing is wrong.
* `ReleaseDiff.Draft.build?_metadata` — when an operation is built, into what, and how it fails.
-/

namespace ReleaseDiff

/-! ## Declared levels -/

namespace FieldForest

/-- **A chain of keys leads to a declared level.** Where a key recurs on a level, the chain leads to
the level below each of its fields. -/
inductive Reaches : FieldForest → List String → FieldForest → Prop where
  /-- Without a key, the level itself. -/
  | here (f : FieldForest) : Reaches f [] f
  /-- The level below a field. -/
  | under {f level : FieldForest} {n : NestedField} {chain : List String} (hn : n ∈ f.nodes)
      (h : Reaches n.children chain level) : Reaches f (n.key :: chain) level

/-- The keys of a level, in the order of declaration. -/
def keys (f : FieldForest) : List String := f.nodes.map NestedField.key

/-- **On every declared level the keys are distinct and not empty.** -/
def WellKeyed (f : FieldForest) : Prop :=
  ∀ chain level, f.Reaches chain level → "" ∉ level.keys ∧ level.keys.Nodup

/-- Nothing is wrong on any level just when nothing is wrong on the first level and on those below
it. -/
theorem wellKeyed_iff {f : FieldForest} :
    f.WellKeyed ↔ ("" ∉ f.keys ∧ f.keys.Nodup) ∧ ∀ n ∈ f.nodes, n.children.WellKeyed := by
  constructor
  · intro h
    exact ⟨h [] f (.here f), fun n hn chain level hlevel => h _ level (.under hn hlevel)⟩
  · rintro ⟨hkeys, hbelow⟩ chain level hlevel
    cases hlevel with
    | here => exact hkeys
    | under hn hlevel => exact hbelow _ hn _ level hlevel

end FieldForest

/-- **A defect is one of a list of keys**: the empty text is among them, or the reported key occurs
at least twice. -/
def KeyDefect.Spoils (keys : List String) : KeyDefect → Prop
  | .empty => "" ∈ keys
  | .repeated key => 2 ≤ keys.count key

/-- Keys that are distinct and not empty have no defect. -/
theorem KeyDefect.Spoils.not_sound {keys : List String} {defect : KeyDefect}
    (h : defect.Spoils keys) : ¬("" ∉ keys ∧ keys.Nodup) := by
  rintro ⟨hne, hnodup⟩
  cases defect with
  | empty => exact hne h
  | repeated key =>
    have hone : keys.count key ≤ 1 := List.nodup_iff_count_le_one.1 hnodup key
    exact absurd (Nat.le_trans h hone) (by decide)

/-- A defect that reading a list reports is one of its keys. -/
theorem Catalog.spoils_of_ofDistinct?_eq_error {α : Type} [Keyed α] {items : List α}
    {defect : KeyDefect} (h : ofDistinct? items = .error defect) :
    defect.Spoils (items.map key) := by
  obtain ⟨front, x, behind, rfl, -, -, ⟨hempty, rfl⟩ | ⟨-, htaken, rfl⟩⟩ :=
    ofDistinct?_eq_error_iff.1 h
  · exact List.mem_map.2 ⟨x, by simp, hempty⟩
  · have hfront : 1 ≤ (front.map key).count (key x) := List.one_le_count_iff.2 htaken
    simp only [KeyDefect.Spoils, List.map_append, List.map_cons, List.count_append,
      List.count_cons_self]
    omega

/-! ## Places -/

/-- A text before the first of joined texts is one before all of them. -/
theorem intercalate_append_cons (sep a b : String) (texts : List String) :
    sep.intercalate ((a ++ b) :: texts) = a ++ sep.intercalate (b :: texts) := by
  cases texts with
  | nil => rw [String.intercalate_singleton, String.intercalate_singleton]
  | cons c texts =>
    simp only [String.intercalate_cons_cons, String.append_assoc]

/-- **The place at the end of a chain of keys.** -/
theorem Place.foldl_levelBelow (place : Place) (chain : List String) :
    chain.foldl FieldForest.levelBelow place =
      { place with collection := "/".intercalate (place.collection :: chain) } := by
  induction chain generalizing place with
  | nil => rw [List.foldl_nil, String.intercalate_singleton]
  | cons k chain ih =>
    rw [List.foldl_cons, ih, FieldForest.levelBelow, String.intercalate_cons_cons,
      intercalate_append_cons]

/-! ## Arranging -/

namespace FieldForest

/-- **An arranged forest shows the declared one**: level by level it has the same fields with the
same attributes, in key order. -/
structure Mirrors (declared arranged : FieldForest) : Prop where
  /-- The fields of every level are in key order. -/
  ordered : arranged.Ordered
  /-- Nothing but the order on the levels is another one. -/
  rearranged : declared.Rearranged arranged
  /-- Every chain of keys leads to a field with the same attributes, or to none in both. -/
  attributes : ∀ chain, (arranged.fieldAt? chain).map NestedField.attributes =
    (declared.fieldAt? chain).map NestedField.attributes

/-- Forests that only differ in the order of their levels have as many fields. -/
theorem Rearranged.size_eq {f g : FieldForest} (h : f.Rearranged g) : f.size = g.size := by
  induction h with
  | nil => rfl
  | cons _ _ _ _ ihbelow ihafter => rw [size, size, ihbelow, ihafter]
  | swap => simp only [size]; omega
  | trans _ _ ih ih' => exact ih.trans ih'

/-- The number of fields, counted field by field. -/
theorem size_eq_sum (f : FieldForest) :
    f.size = (f.nodes.map fun n => 1 + n.children.size).sum := by
  induction f with
  | nil => rfl
  | cons k a children rest _ ih => rw [size, nodes, List.map_cons, List.sum_cons, ih]

section Level

variable {f : FieldForest} {ns : List NestedField}
  (hrel : List.Forall₂ (fun n m => m.key = n.key ∧ m.attributes = n.attributes ∧
    n.children.Mirrors m.children) f.nodes ns)

include hrel

/-- Such fields have the keys of the level. -/
theorem map_key_eq_keys_of_forall₂ : ns.map key = f.keys :=
  (forall₂_iff_map_eq.1 (hrel.imp fun _ _ h => h.1.symm)).symm

/-- **A level whose fields have mirrors below them has a mirror**, if its keys are distinct. -/
theorem mirrors_ofList (hkeys : f.keys.Nodup) :
    f.Mirrors (ofNodes (Catalog.ofList ns).items) := by
  have hns : (ns.map key).Nodup := map_key_eq_keys_of_forall₂ hrel ▸ hkeys
  have hperm : (Catalog.ofList ns).items.Perm ns := Catalog.items_ofList_perm hns
  have hfind : ∀ i, Option.Rel (fun n m => m.key = n.key ∧ m.attributes = n.attributes ∧
      n.children.Mirrors m.children) (f.find? i) ((ofNodes (Catalog.ofList ns).items).find? i) := by
    intro i
    have hlookup := Catalog.rel_lookup_of_reordered (fun _ _ h => h.1.symm) hkeys hns
      (.of_forall₂ hrel) i
    have hfiled : lookup (Catalog.ofList ns).items i = lookup ns i :=
      Catalog.get?_ofList_eq_lookup hns i
    rwa [find?, find?, nodes_ofNodes, hfiled]
  refine ⟨?_, ?_, fun chain => ?_⟩
  · refine ordered_ofNodes (Catalog.ofList ns).increasing fun m hm => ?_
    obtain ⟨n, -, -, -, hmirrors⟩ := (Reordered.of_forall₂ hrel).exists_left (hperm.mem_iff.1 hm)
    exact hmirrors.ordered
  · have hbelow : f.Rearranged (ofNodes ns) := by
      rw [← ofNodes_nodes f]
      refine .of_reordered (.of_forall₂ (hrel.imp fun n m h => ?_))
      exact ⟨h.1.symm, h.2.1.symm, h.2.2.rearranged⟩
    refine hbelow.trans (.of_reordered ⟨_, hperm.symm, List.forall₂_same.2 fun n _ => ?_⟩)
    exact ⟨rfl, rfl, .refl n.children⟩
  · cases chain with
    | nil => rfl
    | cons i chain =>
      have hi := hfind i
      cases chain with
      | nil =>
        rw [fieldAt?, fieldAt?]
        generalize f.find? i = x?, (ofNodes (Catalog.ofList ns).items).find? i = y? at hi
        cases hi with
        | none => rfl
        | some h => exact congrArg some h.2.1
      | cons j chain =>
        rw [fieldAt?, fieldAt?]
        generalize f.find? i = x?, (ofNodes (Catalog.ofList ns).items).find? i = y? at hi
        cases hi with
        | none => rfl
        | some h => exact h.2.2.attributes (j :: chain)

end Level

/-- A field is arranged by arranging the level below it. -/
theorem arrangeNode?_eq_ok_iff {place : Place} {n m : NestedField} :
    arrangeNode? place n = .ok m ↔ m.key = n.key ∧ m.attributes = n.attributes ∧
      n.children.arrange? (levelBelow place n.key) = .ok m.children := by
  obtain ⟨key, attributes, children⟩ := m
  rw [arrangeNode?]
  cases n.children.arrange? (levelBelow place n.key) <;>
    simp [bind, Except.bind, pure, Except.pure, eq_comm]

theorem arrangeNode?_eq_error_iff {place : Place} {n : NestedField} {m : Malformed} :
    arrangeNode? place n = .error m ↔
      n.children.arrange? (levelBelow place n.key) = .error m := by
  rw [arrangeNode?]
  cases n.children.arrange? (levelBelow place n.key) <;>
    simp [bind, Except.bind, pure, Except.pure]

/-- **Arranging gives a mirror of the declared fields**, or a defect of a level below which nothing
is wrong, told with the place of that level.

**Proof sketch.** Induction, level by level. A field that cannot be arranged has its defect below
it. If every field can be arranged, nothing is wrong below the level, and its own keys decide. -/
theorem arrange?_cases (place : Place) (f : FieldForest) :
    (f.WellKeyed ∧ ∃ g, f.arrange? place = .ok g ∧ f.Mirrors g) ∨
      ∃ chain level defect, f.Reaches chain level ∧ (∀ n ∈ level.nodes, n.children.WellKeyed) ∧
        defect.Spoils level.keys ∧
        f.arrange? place = .error ((chain.foldl levelBelow place).malformed defect) := by
  induction f using level_induction generalizing place with
  | step f ih =>
    rw [arrange?, arrangeBelow?_eq_mapM]
    cases hm : f.nodes.mapM (arrangeNode? place) with
    | error m =>
      obtain ⟨n, hn, herror⟩ := exists_of_mapM_eq_error hm
      rw [arrangeNode?_eq_error_iff] at herror
      rcases ih n hn (levelBelow place n.key) with
        ⟨-, g, hg, -⟩ | ⟨chain, level, defect, hlevel, hbelow, hdefect, harrange⟩
      · cases herror.symm.trans hg
      · cases herror.symm.trans harrange
        exact Or.inr ⟨n.key :: chain, level, defect, .under hn hlevel, hbelow, hdefect, rfl⟩
    | ok ns =>
      have hread : ∀ n m, n ∈ f.nodes ∧ arrangeNode? place n = .ok m →
          (m.key = n.key ∧ m.attributes = n.attributes ∧ n.children.Mirrors m.children) ∧
            n.children.WellKeyed := by
        rintro n m ⟨hn, hnm⟩
        obtain ⟨hkey, hattributes, hchildren⟩ := arrangeNode?_eq_ok_iff.1 hnm
        rcases ih n hn (levelBelow place n.key) with
          ⟨hkeyed, g, hg, hmirrors⟩ | ⟨_, _, _, -, -, -, harrange⟩
        · cases hchildren.symm.trans hg
          exact ⟨⟨hkey, hattributes, hmirrors⟩, hkeyed⟩
        · cases hchildren.symm.trans harrange
      have hfields := (List.forall₂_and_left _ _).2 ⟨fun n hn => hn, mapM_eq_ok_iff.1 hm⟩
      have hrel := hfields.imp fun n m h => (hread n m h).1
      have hbelow : ∀ n ∈ f.nodes, n.children.WellKeyed := by
        intro n hn
        obtain ⟨m, -, h⟩ := (Reordered.of_forall₂ hfields).exists_right hn
        exact (hread n m h).2
      have hkeys : ns.map key = f.keys := map_key_eq_keys_of_forall₂ hrel
      cases hd : Catalog.ofDistinct? ns with
      | error defect =>
        refine Or.inr ⟨[], f, defect, .here f, hbelow, ?_, ?_⟩
        · exact hkeys ▸ Catalog.spoils_of_ofDistinct?_eq_error hd
        · show arrangeLevel? place ns = _
          rw [arrangeLevel?, hd]
          rfl
      | ok c =>
        obtain ⟨hne, hnodup, rfl⟩ := Catalog.ofDistinct?_eq_ok_iff.1 hd
        refine Or.inl ⟨wellKeyed_iff.2 ⟨⟨?_, hkeys ▸ hnodup⟩, hbelow⟩, _, ?_,
          mirrors_ofList hrel (hkeys ▸ hnodup)⟩
        · rw [← hkeys, List.mem_map]
          rintro ⟨m, hm, hempty⟩
          exact hne m hm hempty
        · show arrangeLevel? place ns = _
          rw [arrangeLevel?, hd]
          rfl

end FieldForest

/-! ## Operations -/

/-- What building the body of an operation gives is what arranging its fields gives. -/
theorem OperationParts.build?_eq_ok_iff {place : String → Place} {p : OperationParts}
    {b : Operation} :
    p.build? place = .ok b ↔ p.fields.arrange? (place "Fields") = .ok b.fields := by
  obtain ⟨fields, hordered⟩ := b
  rw [← map_build?]
  cases p.build? place with
  | error m => simp [Except.map]
  | ok b' =>
    obtain ⟨fields', _⟩ := b'
    simp [Except.map]

theorem OperationParts.build?_eq_error_iff {place : String → Place} {p : OperationParts}
    {m : Malformed} :
    p.build? place = .error m ↔ p.fields.arrange? (place "Fields") = .error m := by
  rw [← map_build?]
  cases p.build? place <;> simp [Except.map]

/-- An entity with a name is built from its body. -/
theorem Draft.build?_eq_ok_iff {k : Kind} {d : Draft k} {e : Entity k} :
    d.build? = .ok e ↔ d.name ≠ "" ∧ e.name = d.name ∧
      e.attributes = Catalog.ofList d.attributes ∧
      Parts.build? (⟨k, d.name, ·⟩) k d.parts = .ok e.body := by
  obtain ⟨name, attributes, body⟩ := e
  unfold build?
  by_cases hname : d.name = ""
  · simp [hname, throw, throwThe, MonadExceptOf.throw, bind, Except.bind]
  · cases Parts.build? (⟨k, d.name, ·⟩) k d.parts <;>
      simp [hname, bind, Except.bind, pure, Except.pure, eq_comm]

/-- A draft without a name fails with that, whatever else it declares. -/
theorem Draft.build?_of_nameless {k : Kind} {d : Draft k} (hname : d.name = "") :
    d.build? = .error (.missingIdentifier k "" "name") := by
  rw [build?, if_pos hname]
  rfl

theorem Draft.build?_eq_error_iff {k : Kind} {d : Draft k} (hname : d.name ≠ "") {m : Malformed} :
    d.build? = .error m ↔ Parts.build? (⟨k, d.name, ·⟩) k d.parts = .error m := by
  unfold build?
  cases Parts.build? (⟨k, d.name, ·⟩) k d.parts <;>
    simp [hname, bind, Except.bind, pure, Except.pure]

/-- **An operation with a name** is built into a mirror of its declared fields, or has a defect of a
level below which nothing is wrong. -/
theorem Draft.build?_metadata_cases (d : Draft .metadata) (hname : d.name ≠ "") :
    (d.parts.fields.WellKeyed ∧ ∃ e, d.build? = .ok e ∧ e.name = d.name ∧
        e.attributes = Catalog.ofList d.attributes ∧ d.parts.fields.Mirrors e.body.fields) ∨
      ∃ chain level defect, d.parts.fields.Reaches chain level ∧
        (∀ n ∈ level.nodes, n.children.WellKeyed) ∧ KeyDefect.Spoils level.keys defect ∧
        d.build? = .error (Place.malformed
          ⟨.metadata, d.name, "/".intercalate ("Fields" :: chain)⟩ defect) := by
  rcases FieldForest.arrange?_cases ⟨.metadata, d.name, "Fields"⟩ d.parts.fields with
    ⟨hkeyed, g, hg, hmirrors⟩ | ⟨chain, level, defect, hlevel, hbelow, hdefect, herror⟩
  · have hbody : Parts.build? (⟨.metadata, d.name, ·⟩) .metadata d.parts =
        .ok ⟨g, hmirrors.ordered⟩ := OperationParts.build?_eq_ok_iff.2 hg
    exact Or.inl ⟨hkeyed, ⟨d.name, Catalog.ofList d.attributes, ⟨g, hmirrors.ordered⟩⟩,
      Draft.build?_eq_ok_iff.2 ⟨hname, rfl, rfl, hbody⟩, rfl, rfl, hmirrors⟩
  · rw [Place.foldl_levelBelow] at herror
    refine Or.inr ⟨chain, level, defect, hlevel, hbelow, hdefect, ?_⟩
    exact (Draft.build?_eq_error_iff hname).2 (OperationParts.build?_eq_error_iff.2 herror)

/-- **When an operation is built, into what, and how it fails.** An operation is built just when it
has a name and on every level of its fields the keys are distinct and not empty. Then it shows the
declared fields, level by level, and has as many of them. An operation with a name that is not built
fails with a defect of one declared level, told with the keys that lead there: the level has an
empty key, or the reported key at least twice, and below its fields nothing is wrong. -/
theorem Draft.build?_metadata (d : Draft .metadata) :
    (d.build?.isOk = true ↔ d.name ≠ "" ∧ d.parts.fields.WellKeyed) ∧
      (∀ e, d.build? = .ok e →
        e.name = d.name ∧ e.attributes = Catalog.ofList d.attributes ∧
          d.parts.fields.Mirrors e.body.fields ∧
          (e.body.fields.nodes.map fun n => 1 + n.children.size).sum = d.parts.fields.size) ∧
      ∀ m, d.build? = .error m → d.name ≠ "" →
        ∃ chain level, d.parts.fields.Reaches chain level ∧
          (∀ n ∈ level.nodes, n.children.WellKeyed) ∧
          (m = .missingIdentifier .metadata d.name ("/".intercalate ("Fields" :: chain)) ∧
              "" ∈ level.keys ∨
            ∃ key, m = .duplicateKey .metadata d.name ("/".intercalate ("Fields" :: chain)) key ∧
              2 ≤ level.keys.count key) := by
  by_cases hname : d.name = ""
  · cases hbuilt : d.build? with
    | ok e => exact absurd hname (Draft.build?_eq_ok_iff.1 hbuilt).1
    | error m =>
      exact ⟨iff_of_false (fun h => by cases h) fun h => h.1 hname, (fun e he => by cases he),
        fun m _ hnamed => absurd hname hnamed⟩
  rcases Draft.build?_metadata_cases d hname with
    ⟨hkeyed, e, he, hnamed, hattributes, hmirrors⟩ |
      ⟨chain, level, defect, hlevel, hbelow, hdefect, herror⟩
  · rw [he]
    refine ⟨iff_of_true rfl ⟨hname, hkeyed⟩, fun e' he' => ?_, fun m hm => by cases hm⟩
    cases he'
    refine ⟨hnamed, hattributes, hmirrors, ?_⟩
    rw [← FieldForest.size_eq_sum, hmirrors.rearranged.size_eq]
  · rw [herror]
    refine ⟨iff_of_false (fun h => by cases h) fun h => ?_, (fun e he => by cases he),
      fun m hm _ => ?_⟩
    · exact hdefect.not_sound (h.2 chain level hlevel)
    · cases hm
      refine ⟨chain, level, hlevel, hbelow, ?_⟩
      cases defect with
      | empty => exact Or.inl ⟨rfl, hdefect⟩
      | repeated key => exact Or.inr ⟨key, rfl, hdefect⟩

/-- A key recurs below a field, and so does the key of that field: the lower level is blamed. -/
theorem Draft.build?_metadata_repeated_below :
    let customer (rest : FieldForest) : FieldForest :=
      .cons "customer" ∅ (.cons "email" ∅ .nil (.cons "email" ∅ .nil .nil)) rest
    let d : Draft .metadata := ⟨"SaveCustomer", [], ⟨customer (customer .nil)⟩⟩
    let m := Malformed.duplicateKey .metadata "SaveCustomer" "Fields/customer" "email"
    d.build? = .error m ∧ d.name ≠ "" ∧
      ∃ chain level, d.parts.fields.Reaches chain level ∧
        (∀ n ∈ level.nodes, n.children.WellKeyed) ∧
        (m = .missingIdentifier .metadata d.name ("/".intercalate ("Fields" :: chain)) ∧
            "" ∈ level.keys ∨
          ∃ key, m = .duplicateKey .metadata d.name ("/".intercalate ("Fields" :: chain)) key ∧
            2 ≤ level.keys.count key) := by
  intro customer d m
  have hm : d.build? = .error m := by rfl
  exact ⟨hm, by decide, (Draft.build?_metadata d).2.2 m hm (by decide)⟩

end ReleaseDiff

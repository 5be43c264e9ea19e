import Mathlib.Data.List.Forall2
import ReleaseDiff.Proofs.Arrangement

set_option autoImplicit false

/-!
# Validation

A draft declares lists of keys, one for every collection that it fills. They are validated one list
after the other and, inside a list, key by key. No key may be empty, and where a key may not recur
it must not have been declared before in the same list. The first key that breaks this is reported
with its collection.

## Main definitions

* `ReleaseDiff.KeyList` — a declared list of keys, with the keys that may recur.
* `ReleaseDiff.KeyList.Sound` — no key is empty, and only keys that may recur do.
* `ReleaseDiff.KeyList.FirstDefectIn` — the first defect of several lists.
* `ReleaseDiff.Validates` — a reading validates lists of keys and gives a result with a property.
* `ReleaseDiff.AdmitsKeys` — a step admits keys by a rule on those that may recur.

## Main results

* `ReleaseDiff.KeyList.FirstDefectIn.unique` — there is at most one first defect.
* `ReleaseDiff.Validates.bind`, `ReleaseDiff.Validates.mapM` — readings one after the other.
* `ReleaseDiff.AdmitsKeys.validates` — a fold that admits keys one by one validates their list.
-/

namespace ReleaseDiff

variable {k : Kind}

/-! ## Lists of keys -/

/-- **A declared list of keys**: what validation looks at in one collection of a draft. -/
structure KeyList where
  /-- The name of the collection. -/
  collection : String
  /-- The keys, in the order of declaration. -/
  keys : List String
  /-- Which keys may be declared more than once. -/
  mayRecur : String → Bool

namespace KeyList

/-- The keys of declared items, none of which may recur. -/
def distinct {α : Type} [Keyed α] (collection : String) (items : List α) : KeyList :=
  ⟨collection, items.map key, fun _ => false⟩

/-- **Keys keep to a rule** on which of them may recur: none is empty, and a key that may not recur
is there at most once. -/
def Allowed (mayRecur : String → Bool) (keys : List String) : Prop :=
  "" ∉ keys ∧ ∀ key, mayRecur key = false → keys.count key ≤ 1

/-- **A key breaks the rule** behind others: it is empty, or it is there already and may not
recur. -/
def Breaks (mayRecur : String → Bool) (front : List String) (key : String) : KeyDefect → Prop
  | .empty => key = ""
  | .repeated i => key ≠ "" ∧ i = key ∧ key ∈ front ∧ mayRecur key = false

/-- **A list of keys is sound**: no key is empty, and a key that may not recur is declared at most
once. -/
def Sound (l : KeyList) : Prop := Allowed l.mayRecur l.keys

/-- **The first defect of a list of keys**: the keys in front of some key keep to the rule, and that
key breaks it. -/
def FirstDefect (l : KeyList) (defect : KeyDefect) : Prop :=
  ∃ front key behind, l.keys = front ++ key :: behind ∧ Allowed l.mayRecur front ∧
    Breaks l.mayRecur front key defect

/-- **The first defect of several lists of keys** in an entity: the lists in front of some list are
sound, and it is the first defect of that list, told with its collection. -/
def FirstDefectIn (k : Kind) (entity : String) (lists : List KeyList) (m : Malformed) : Prop :=
  ∃ front l behind defect, lists = front ++ l :: behind ∧ (∀ l' ∈ front, l'.Sound) ∧
    l.FirstDefect defect ∧ m = Place.malformed ⟨k, entity, l.collection⟩ defect

/-! ### There is one first defect, or none -/

variable {mayRecur : String → Bool} {front : List String} {key : String} {l : KeyList}

/-- One more key keeps to the rule if it is not empty, and new where it may not recur. -/
theorem allowed_concat_iff :
    Allowed mayRecur (front ++ [key]) ↔
      Allowed mayRecur front ∧ key ≠ "" ∧ (key ∈ front → mayRecur key = true) := by
  have hcount : ∀ i, (front ++ [key]).count i = front.count i + if key = i then 1 else 0 := by
    intro i
    rw [List.count_append, List.count_singleton]
    simp only [beq_iff_eq]
  simp only [Allowed, List.mem_append, List.mem_singleton, not_or, hcount]
  constructor
  · rintro ⟨⟨hfront, hkey⟩, honce⟩
    refine ⟨⟨hfront, fun i hi => ?_⟩, fun h => hkey h.symm, fun hmem => ?_⟩
    · exact Nat.le_trans (Nat.le_add_right _ _) (honce i hi)
    · by_contra hrecur
      have htwice := honce key (Bool.not_eq_true _ ▸ hrecur)
      have hthere : 1 ≤ front.count key := List.one_le_count_iff.2 hmem
      rw [if_pos rfl] at htwice
      omega
  · rintro ⟨⟨hfront, honce⟩, hkey, hrecur⟩
    refine ⟨⟨hfront, fun h => hkey h.symm⟩, fun i hi => ?_⟩
    by_cases hik : key = i
    · subst hik
      have hnew : key ∉ front := fun hmem => by rw [hrecur hmem] at hi; cases hi
      have hzero := List.count_eq_zero.2 hnew
      rw [if_pos rfl]
      omega
    · rw [if_neg hik]
      exact honce i hi

/-- The keys in front keep to the rule if all of them do. -/
theorem Allowed.of_append {behind : List String} (h : Allowed mayRecur (front ++ behind)) :
    Allowed mayRecur front := by
  refine ⟨fun hmem => h.1 (List.mem_append_left _ hmem), fun key hkey => ?_⟩
  have hcount := h.2 key hkey
  rw [List.count_append] at hcount
  omega

/-- With a key that breaks the rule, the keys do not keep to it. -/
theorem Breaks.not_allowed {defect : KeyDefect} (h : Breaks mayRecur front key defect) :
    ¬Allowed mayRecur (front ++ [key]) := by
  rw [allowed_concat_iff]
  rintro ⟨-, hkey, hrecur⟩
  cases defect with
  | empty => exact hkey h
  | repeated i =>
    obtain ⟨-, -, hmem, hnot⟩ := h
    rw [hrecur hmem] at hnot
    cases hnot

/-- A key breaks the rule in one way. -/
theorem Breaks.unique {defect defect' : KeyDefect} (h : Breaks mayRecur front key defect)
    (h' : Breaks mayRecur front key defect') : defect = defect' := by
  cases defect <;> cases defect'
  case empty.empty => rfl
  case empty.repeated => exact absurd h h'.1
  case repeated.empty => exact absurd h' h.1
  case repeated.repeated => rw [h.2.1, h'.2.1]

/-- A list with a first defect is not sound. -/
theorem FirstDefect.not_sound {defect : KeyDefect} (h : l.FirstDefect defect) : ¬l.Sound := by
  obtain ⟨front, key, behind, hkeys, -, hkey⟩ := h
  intro hsound
  have hall : Allowed l.mayRecur (front ++ [key] ++ behind) := by
    rw [List.append_assoc, List.singleton_append, ← hkeys]
    exact hsound
  exact hkey.not_allowed hall.of_append

end KeyList

/-- **The place at which a list loses a property** is the only one, if whatever is in front of a
list with the property has it too. -/
theorem eq_of_first_loss {α : Type} {P : List α → Prop} (hP : ∀ xs ys, P (xs ++ ys) → P xs)
    {front front' behind behind' : List α} {x x' : α}
    (h : front ++ x :: behind = front' ++ x' :: behind') (hf : P front) (hx : ¬P (front ++ [x]))
    (hf' : P front') (hx' : ¬P (front' ++ [x'])) : front = front' ∧ x = x' := by
  have hlonger : ∀ {as bs cs : List α} {a b : α}, a :: as = bs ++ b :: cs → bs ≠ [] →
      ∃ ds, bs = [a] ++ ds := by
    rintro as (_ | ⟨c, bs⟩) cs a b heq hne
    · exact absurd rfl hne
    · exact ⟨bs, by rw [(List.cons.inj heq).1]; rfl⟩
  rcases List.append_eq_append_iff.1 h with ⟨as, rfl, has⟩ | ⟨as, rfl, has⟩
  · by_cases hnil : as = []
    · subst hnil
      exact ⟨(List.append_nil _).symm, (List.cons.inj has).1⟩
    · obtain ⟨ds, rfl⟩ := hlonger has hnil
      exact absurd (hP _ ds (List.append_assoc .. ▸ hf')) hx
  · by_cases hnil : as = []
    · subst hnil
      exact ⟨List.append_nil _, (List.cons.inj has).1.symm⟩
    · obtain ⟨ds, rfl⟩ := hlonger has hnil
      exact absurd (hP _ ds (List.append_assoc .. ▸ hf)) hx'

namespace KeyList

variable {l : KeyList} {entity : String} {lists : List KeyList}

/-- A list of keys has at most one first defect. -/
theorem FirstDefect.unique {defect defect' : KeyDefect} (h : l.FirstDefect defect)
    (h' : l.FirstDefect defect') : defect = defect' := by
  obtain ⟨front, key, behind, hkeys, hfront, hkey⟩ := h
  obtain ⟨front', key', behind', hkeys', hfront', hkey'⟩ := h'
  obtain ⟨rfl, rfl⟩ := eq_of_first_loss (fun _ _ => Allowed.of_append) (hkeys.symm.trans hkeys')
    hfront hkey.not_allowed hfront' hkey'.not_allowed
  exact hkey.unique hkey'

/-- **Several lists of keys have at most one first defect.** -/
theorem FirstDefectIn.unique {m m' : Malformed} (h : FirstDefectIn k entity lists m)
    (h' : FirstDefectIn k entity lists m') : m = m' := by
  obtain ⟨front, l, behind, defect, hlists, hfront, hdefect, rfl⟩ := h
  obtain ⟨front', l', behind', defect', hlists', hfront', hdefect', rfl⟩ := h'
  have hlost : ∀ {front : List KeyList} {l : KeyList} {defect : KeyDefect}, l.FirstDefect defect →
      ¬∀ l' ∈ front ++ [l], l'.Sound := fun hdefect hsound =>
    hdefect.not_sound (hsound _ (List.mem_append_right _ (List.mem_singleton_self _)))
  obtain ⟨rfl, rfl⟩ := eq_of_first_loss (P := fun lists => ∀ l ∈ lists, l.Sound)
    (fun _ _ hsound l hl => hsound l (List.mem_append_left _ hl)) (hlists.symm.trans hlists')
    hfront (hlost hdefect) hfront' (hlost hdefect')
  rw [hdefect.unique hdefect']

/-- Sound lists have no first defect. -/
theorem FirstDefectIn.not_sound {m : Malformed} (h : FirstDefectIn k entity lists m) :
    ¬∀ l ∈ lists, l.Sound := by
  obtain ⟨front, l, behind, defect, rfl, -, hdefect, -⟩ := h
  exact fun hsound => hdefect.not_sound (hsound l (by simp))

/-- The first defect of some lists stays the first one when lists are added behind them. -/
theorem FirstDefectIn.append_right {m : Malformed} (h : FirstDefectIn k entity lists m)
    (others : List KeyList) : FirstDefectIn k entity (lists ++ others) m := by
  obtain ⟨front, l, behind, defect, rfl, hfront, hdefect, hm⟩ := h
  exact ⟨front, l, behind ++ others, defect, by simp, hfront, hdefect, hm⟩

/-- The first defect behind sound lists is the first one of all. -/
theorem FirstDefectIn.append_left {m : Malformed} (h : FirstDefectIn k entity lists m)
    {others : List KeyList} (hothers : ∀ l ∈ others, l.Sound) :
    FirstDefectIn k entity (others ++ lists) m := by
  obtain ⟨front, l, behind, defect, rfl, hfront, hdefect, hm⟩ := h
  refine ⟨others ++ front, l, behind, defect, by simp, fun l' hl' => ?_, hdefect, hm⟩
  exact (List.mem_append.1 hl').elim (hothers l') (hfront l')

/-- **The first defect of lists in two parts** is one of the first part, or that part is sound and
it is one of the second. -/
theorem FirstDefectIn.of_append {m : Malformed} {others : List KeyList}
    (h : FirstDefectIn k entity (lists ++ others) m) :
    FirstDefectIn k entity lists m ∨
      (∀ l ∈ lists, l.Sound) ∧ FirstDefectIn k entity others m := by
  obtain ⟨front, l, behind, defect, hlists, hfront, hdefect, hm⟩ := h
  rcases List.append_eq_append_iff.1 hlists with ⟨as, rfl, has⟩ | ⟨as, rfl, has⟩
  · obtain ⟨hsound, hfront⟩ := List.forall_mem_append.1 hfront
    exact Or.inr ⟨hsound, as, l, behind, defect, has, hfront, hdefect, hm⟩
  · cases as with
    | nil =>
      rw [List.append_nil]
      exact Or.inr ⟨hfront, [], l, behind, defect, has.symm, List.forall_mem_nil _, hdefect, hm⟩
    | cons l' as =>
      obtain ⟨rfl, -⟩ := List.cons.inj has
      exact Or.inl ⟨front, l, as, defect, rfl, hfront, hdefect, hm⟩

/-- A missing identifier is told with the collection of one of the lists. -/
theorem FirstDefectIn.mem_collections {collection : String}
    (h : FirstDefectIn k entity lists (.missingIdentifier k entity collection)) :
    collection ∈ lists.map KeyList.collection := by
  obtain ⟨front, l, behind, defect, rfl, -, -, hm⟩ := h
  cases defect with
  | empty =>
    obtain rfl : collection = l.collection := (Malformed.missingIdentifier.inj hm).2.2
    exact List.mem_map_of_mem (List.mem_append_right _ List.mem_cons_self)
  | repeated => cases hm

/-- **Where every key may recur, the first defect is an empty key.** -/
theorem FirstDefectIn.exists_empty {m : Malformed} (h : FirstDefectIn k entity lists m)
    (hrecur : ∀ l ∈ lists, ∀ key, l.mayRecur key = true) :
    ∃ l ∈ lists, "" ∈ l.keys ∧ m = .missingIdentifier k entity l.collection := by
  obtain ⟨front, l, behind, defect, rfl, -, ⟨before, key, after, hkeys, -, hkey⟩, rfl⟩ := h
  have hl : l ∈ front ++ l :: behind := List.mem_append_right _ List.mem_cons_self
  cases defect with
  | empty =>
    obtain rfl : key = "" := hkey
    exact ⟨l, hl, hkeys ▸ List.mem_append_right _ List.mem_cons_self, rfl⟩
  | repeated i =>
    obtain ⟨-, -, -, hnot⟩ := hkey
    rw [hrecur l hl key] at hnot
    cases hnot

end KeyList

/-! ## Readings that validate -/

/-- **A reading validates lists of keys**: it succeeds, with a result that has a property, and the
lists are sound, or it fails with their first defect. -/
inductive Validates (k : Kind) (entity : String) {β : Type} (lists : List KeyList) (P : β → Prop) :
    Except Malformed β → Prop where
  /-- Every list is sound. -/
  | ok {b : β} (hsound : ∀ l ∈ lists, l.Sound) (hb : P b) : Validates k entity lists P (.ok b)
  /-- Some list has a defect. -/
  | error {m : Malformed} (h : KeyList.FirstDefectIn k entity lists m) :
    Validates k entity lists P (.error m)

namespace Validates

variable {entity : String} {α β : Type} {lists others : List KeyList} {P : α → Prop} {Q : β → Prop}

/-- A result that needs no list. -/
theorem pure {a : α} (h : P a) : Validates k entity [] P (.ok a) :=
  .ok (List.forall_mem_nil _) h

theorem mono {P' : α → Prop} {x : Except Malformed α} (h : Validates k entity lists P x)
    (hP : ∀ a, P a → P' a) : Validates k entity lists P' x := by
  cases h with
  | ok hsound ha => exact .ok hsound (hP _ ha)
  | error hm => exact .error hm

/-- **Readings one after the other** validate the lists of the first and then those of the
second. -/
theorem bind {x : Except Malformed α} {f : α → Except Malformed β}
    (h : Validates k entity lists P x) (hf : ∀ a, P a → Validates k entity others Q (f a)) :
    Validates k entity (lists ++ others) Q (x >>= f) := by
  cases h with
  | error hm => exact .error (hm.append_right others)
  | @ok a hsound ha =>
    show Validates k entity (lists ++ others) Q (f a)
    have hnext := hf a ha
    generalize f a = y at hnext
    cases hnext with
    | ok hsound' hb => exact .ok (List.forall_mem_append.2 ⟨hsound, hsound'⟩) hb
    | error hm => exact .error (hm.append_left hsound)

/-- One list, and then others. -/
theorem bind_cons {l : KeyList} {x : Except Malformed α} {f : α → Except Malformed β}
    (h : Validates k entity [l] P x) (hf : ∀ a, P a → Validates k entity others Q (f a)) :
    Validates k entity (l :: others) Q (x >>= f) :=
  h.bind hf

/-- What holds of the image of a reading holds of the reading. -/
theorem of_map {x : Except Malformed α} {f : α → β} (h : Validates k entity lists Q (x.map f)) :
    Validates k entity lists (fun a => Q (f a)) x := by
  cases x with
  | ok a =>
    cases h with
    | ok hsound hb => exact .ok hsound hb
  | error m =>
    cases h with
    | error hm => exact .error hm

/-- **Reading every item** validates the lists of the items, one item after the other. -/
theorem mapM {f : α → Except Malformed β} {listsOf : α → List KeyList} {R : α → β → Prop}
    {xs : List α} (h : ∀ x ∈ xs, Validates k entity (listsOf x) (R x) (f x)) :
    Validates k entity (xs.flatMap listsOf) (List.Forall₂ R xs) (xs.mapM f) := by
  induction xs with
  | nil => exact pure List.Forall₂.nil
  | cons x xs ih =>
    obtain ⟨hx, hxs⟩ := List.forall_mem_cons.1 h
    rw [List.flatMap_cons, List.mapM_cons]
    refine hx.bind fun y hy => ?_
    rw [← List.append_nil (xs.flatMap listsOf)]
    exact (ih hxs).bind fun ys hys => pure (List.Forall₂.cons hy hys)

end Validates

/-! ## Keys admitted one by one -/

/-- **What every step of a fold tells of the items so far, the fold tells of all items**, if it
comes to an end. -/
theorem foldlM_tracks {α β ε : Type} {step : β → α → Except ε β} (P : List α → β → Prop)
    (hstep : ∀ front b x c, P front b → step b x = .ok c → P (front ++ [x]) c) {b c : β}
    {items : List α} (hb : P [] b) (h : items.foldlM step b = .ok c) : P items c := by
  suffices hall : ∀ front b, P front b → items.foldlM step b = .ok c → P (front ++ items) c from
    hall [] b hb h
  clear hb h
  induction items with
  | nil =>
    intro front b hb h
    cases h
    rwa [List.append_nil]
  | cons x rest ih =>
    intro front b hb h
    rw [List.foldlM_cons] at h
    cases hx : step b x with
    | error e => rw [hx] at h; cases h
    | ok d =>
      rw [hx] at h
      rw [← List.singleton_append, ← List.append_assoc]
      exact ih (front ++ [x]) d (hstep front b x d hb hx) h

section Admission

variable {α β : Type} [Keyed α]

/-- The keys that a catalog has taken. -/
def Catalog.Takes (c : Catalog α) (keys : List String) : Prop :=
  ∀ i, c.contains i = true ↔ i ∈ keys

/-- **A step admits keys by a rule**: a key that keeps to the rule behind those taken so far is
taken, and of any other key it is reported how it breaks the rule. -/
structure AdmitsKeys (mayRecur : String → Bool) (keyOf : β → String)
    (step : Catalog α → β → Except KeyDefect (Catalog α)) : Prop where
  /-- A key that is taken keeps to the rule. -/
  ok : ∀ front c x d, c.Takes front → step c x = .ok d →
    (keyOf x ≠ "" ∧ (keyOf x ∈ front → mayRecur (keyOf x) = true)) ∧ d.Takes (front ++ [keyOf x])
  /-- A key that is refused breaks it. -/
  error : ∀ front c x defect, c.Takes front → step c x = .error defect →
    KeyList.Breaks mayRecur front (keyOf x) defect

variable {mayRecur : String → Bool} {keyOf : β → String}
  {step : Catalog α → β → Except KeyDefect (Catalog α)}

/-- Items that were all admitted keep to the rule. -/
theorem AdmitsKeys.allowed (h : AdmitsKeys mayRecur keyOf step) {items : List β} {c : Catalog α}
    (hc : items.foldlM step ∅ = .ok c) :
    KeyList.Allowed mayRecur (items.map keyOf) ∧ c.Takes (items.map keyOf) := by
  refine foldlM_tracks
    (fun front c => KeyList.Allowed mayRecur (front.map keyOf) ∧ c.Takes (front.map keyOf))
    (fun front c x d hfront hd => ?_) ⟨⟨List.not_mem_nil, fun _ _ => Nat.zero_le 1⟩, ?_⟩ hc
  · obtain ⟨hkey, htakes⟩ := h.ok _ c x d hfront.2 hd
    rw [List.map_append, List.map_singleton]
    exact ⟨KeyList.allowed_concat_iff.2 ⟨hfront.1, hkey⟩, htakes⟩
  · exact fun i => iff_of_false (fun htaken => by cases htaken) List.not_mem_nil

/-- **A fold that admits keys one by one validates their list.** -/
theorem AdmitsKeys.validates (h : AdmitsKeys mayRecur keyOf step) (entity collection : String)
    {items : List β} {P : Catalog α → Prop} (hP : ∀ c, items.foldlM step ∅ = .ok c → P c) :
    Validates k entity [⟨collection, items.map keyOf, mayRecur⟩] P
      (Place.blame ⟨k, entity, collection⟩ (items.foldlM step ∅)) := by
  cases hfold : items.foldlM step ∅ with
  | ok c => exact .ok (List.forall_mem_singleton.2 (h.allowed hfold).1) (hP c hfold)
  | error defect =>
    obtain ⟨front, x, behind, c, rfl, hfront, hx⟩ := foldlM_eq_error_iff.1 hfold
    obtain ⟨hallowed, htakes⟩ := h.allowed hfront
    refine .error ⟨[], _, [], defect, rfl, List.forall_mem_nil _, ?_, rfl⟩
    refine ⟨front.map keyOf, keyOf x, behind.map keyOf, ?_, hallowed, h.error _ c x _ htakes hx⟩
    rw [List.map_append, List.map_cons]

/-- Filing an item takes its key. -/
theorem Catalog.Takes.insert {c : Catalog α} {front : List String} (h : c.Takes front) (x : α) :
    (c.insert x).Takes (front ++ [key x]) := by
  intro i
  rw [List.mem_append, List.mem_singleton, ← h i, eq_comm (a := i)]
  refine (contains_foldl_insert [x] c i).trans (or_congr Iff.rfl ?_)
  exact ⟨fun ⟨y, hy, hkey⟩ => List.mem_singleton.1 hy ▸ hkey,
    fun hkey => ⟨x, List.mem_singleton_self x, hkey⟩⟩

/-- Filing items whose keys must be new admits their keys. -/
theorem admitsKeys_insertNew? :
    AdmitsKeys (fun _ => false) key (Catalog.insertNew? : Catalog α → α → _) where
  ok front c x d htakes hd := by
    obtain ⟨hne, hfree, rfl⟩ := Catalog.insertNew?_eq_ok_iff.1 hd
    refine ⟨⟨hne, fun hmem => ?_⟩, htakes.insert x⟩
    rw [(htakes _).2 hmem] at hfree
    cases hfree
  error front c x defect htakes hx := by
    obtain ⟨hempty, rfl⟩ | ⟨hne, htaken, rfl⟩ := Catalog.insertNew?_eq_error_iff.1 hx
    · exact hempty
    · exact ⟨hne, rfl, (htakes _).1 htaken, rfl⟩

/-- Filing the first item of every key admits any key that is not empty. -/
theorem admitsKeys_insertFirst? :
    AdmitsKeys (fun _ => true) key (Catalog.insertFirst? : Catalog α → α → _) where
  ok front c x d htakes hd := by
    have hne : key x ≠ "" := by
      intro hempty
      rw [Catalog.insertFirst?, if_pos hempty] at hd
      cases hd
    obtain ⟨d', hd', hkeys⟩ := Catalog.insertFirst?_of_ne hne c
    cases hd.symm.trans hd'
    refine ⟨⟨hne, fun _ => rfl⟩, fun i => ?_⟩
    rw [hkeys i, htakes i, List.mem_append, List.mem_singleton, eq_comm (a := i)]
  error front c x defect htakes hx := by
    by_cases hempty : key x = ""
    · rw [Catalog.insertFirst?, if_pos hempty] at hx
      cases hx
      exact hempty
    · obtain ⟨d, hd, -⟩ := Catalog.insertFirst?_of_ne hempty c
      rw [hd] at hx
      cases hx

end Admission

namespace Annotations

variable {annotations after : Annotations} {name text : String}

/-- **What declaring a pair does**: a value joins those of its name, or a text is filed under a new
name. -/
theorem declare?_eq_ok_iff :
    annotations.declare? (name, text) = .ok after ↔
      name ∈ multiValued ∧ after = annotations.collect name text ∨
        name ∉ multiValued ∧ name ≠ "" ∧ annotations.contains name = false ∧
          after = annotations.insert ⟨name, .scalar text⟩ := by
  unfold declare?
  rw [← List.contains_iff_mem]
  split
  · rename_i hmulti
    rw [or_iff_left (fun h => h.1 hmulti), and_iff_right hmulti, Except.ok.injEq, eq_comm]
    rfl
  · rename_i hmulti
    rw [or_iff_right (fun h => hmulti h.1), and_iff_right hmulti]
    exact Catalog.insertNew?_eq_ok_iff

/-- A pair does not fit if its name may not recur, and is empty or there already. -/
theorem declare?_eq_error_iff {defect : KeyDefect} :
    annotations.declare? (name, text) = .error defect ↔
      name ∉ multiValued ∧ (name = "" ∧ defect = .empty ∨
        name ≠ "" ∧ annotations.contains name = true ∧ defect = .repeated name) := by
  unfold declare?
  rw [← List.contains_iff_mem]
  split
  · rename_i hmulti
    exact iff_of_false (fun h => by cases h) fun h => h.1 hmulti
  · rename_i hmulti
    rw [and_iff_right hmulti]
    exact Catalog.insertNew?_eq_error_iff

/-- Declaring annotations admits a name once, and a name that may recur any number of times. -/
theorem admitsKeys_declare? : AdmitsKeys multiValued.contains Prod.fst declare? where
  ok := by
    rintro front c ⟨name, text⟩ d htakes hd
    rcases declare?_eq_ok_iff.1 hd with ⟨hmulti, rfl⟩ | ⟨-, hne, hfree, rfl⟩
    · refine ⟨⟨?_, fun _ => List.contains_iff_mem.2 hmulti⟩, htakes.insert ⟨name, _⟩⟩
      rintro rfl
      exact absurd hmulti (by decide)
    · refine ⟨⟨hne, fun hmem => ?_⟩, htakes.insert ⟨name, _⟩⟩
      cases hfree.symm.trans ((htakes name).2 hmem)
  error := by
    rintro front c ⟨name, text⟩ defect htakes hx
    obtain ⟨hmulti, ⟨hempty, rfl⟩ | ⟨hne, htaken, rfl⟩⟩ := declare?_eq_error_iff.1 hx
    · exact hempty
    · refine ⟨hne, rfl, (htakes name).1 htaken, ?_⟩
      rw [← Bool.not_eq_true, List.contains_iff_mem]
      exact hmulti

end Annotations

end ReleaseDiff

import ReleaseDiff.Proofs.Matching

set_option autoImplicit false

/-!
# Value changes as a patch

The disagreements of two attribute maps say how to get from the one to the other. Carried out on the
earlier map they give the later one, carried out the other way round on the later map they give the
earlier one, and the order in which they are carried out does not matter.

## Main definitions

* `ReleaseDiff.ValueChange.reverse` — a value change the other way round.
* `ReleaseDiff.Attributes.assign` — sets an attribute, or deletes it.
* `ReleaseDiff.Attributes.patch` — carries out value changes.

## Main results

* `ReleaseDiff.Attributes.patch_eq` — changes that lead to a map and leave out nothing that differs
  from it give that map.
* `ReleaseDiff.Attributes.valueChanges_reverse` — the disagreements, seen from the later map.
* `ReleaseDiff.Attributes.valueChanges_exact` — the disagreements of two maps are an exact patch.
-/

namespace ReleaseDiff

/-- **A value change the other way round.** -/
def ValueChange.reverse (d : ValueChange) : ValueChange where
  name := d.name
  before := d.after
  after := d.before

namespace Attributes

/-! ## Carrying out changes -/

/-- Sets an attribute to a value, or deletes it where there is no value. -/
def assign (attributes : Attributes) (name : String) : Option String → Attributes
  | some value => attributes.insert ⟨name, value⟩
  | none => attributes.erase name

/-- **Carries out value changes**, one after the other. -/
def patch (attributes : Attributes) (changes : List ValueChange) : Attributes :=
  changes.foldl (fun a d => a.assign d.name d.after) attributes

/-- An attribute that is set has its new value, any other attribute the value it had. -/
theorem value?_assign (attributes : Attributes) (name : String) (value : Option String)
    (i : String) :
    (attributes.assign name value).value? i = if i = name then value else attributes.value? i := by
  cases value with
  | none =>
    rw [assign, value?, Catalog.get?_erase]
    split
    · rfl
    · rfl
  | some text =>
    have hname : key (⟨name, text⟩ : Attribute) = i ↔ i = name := eq_comm
    rw [assign, value?, Catalog.get?_insert, if_congr hname rfl rfl]
    split
    · rfl
    · rfl

/-- **Changes that lead to a map, and leave out nothing that differs from it, give that map**, in
whichever order they are carried out.

**Proof sketch.** Induction on the changes. Once a change is carried out, its name has the value of
the map, so the names that still differ are names of the changes that follow. -/
theorem patch_eq {target : Attributes} {changes : List ValueChange}
    (hto : ∀ d ∈ changes, d.after = target.value? d.name) {source : Attributes}
    (hcover : ∀ i, source.value? i ≠ target.value? i → ∃ d ∈ changes, d.name = i) :
    source.patch changes = target := by
  induction changes generalizing source with
  | nil =>
    refine ext_value? fun i => ?_
    by_contra hne
    obtain ⟨d, hd, -⟩ := hcover i hne
    exact List.not_mem_nil hd
  | cons d rest ih =>
    obtain ⟨hd, hrest⟩ := List.forall_mem_cons.1 hto
    refine ih hrest fun i hne => ?_
    rw [value?_assign] at hne
    split at hne
    · rename_i hi
      exact absurd (hi ▸ hd) hne
    · rename_i hi
      obtain ⟨e, he, rfl⟩ := hcover i hne
      rcases List.mem_cons.1 he with rfl | he
      · exact absurd rfl hi
      · exact ⟨e, he, rfl⟩

/-! ## The disagreements of two maps -/

variable {before after : Attributes}

/-- The disagreements of two maps are the names under which the values differ, with both values. -/
theorem mem_valueChanges_iff {d : ValueChange} :
    d ∈ valueChanges before after ↔
      d.before ≠ d.after ∧ d.before = before.value? d.name ∧ d.after = after.value? d.name := by
  obtain ⟨name, old, new⟩ := d
  rw [valueChanges_eq_map, List.mem_map]
  simp only [mem_changedNames_iff, ValueChange.mk.injEq]
  constructor
  · rintro ⟨i, hne, rfl, rfl, rfl⟩
    exact ⟨hne, rfl, rfl⟩
  · rintro ⟨hne, rfl, rfl⟩
    exact ⟨name, hne, rfl, rfl, rfl⟩

/-- The disagreements are in strict order of names. -/
theorem pairwise_valueChanges (before after : Attributes) :
    (valueChanges before after).Pairwise fun d e => d.name < e.name := by
  rw [valueChanges_eq_map, List.pairwise_map]
  exact (Catalog.increasing (Catalog.ofList (before.keys ++ after.keys))).sublist
    List.filter_sublist

/-- A name whose values differ is the name of a disagreement. -/
theorem exists_valueChange {i : String} (h : before.value? i ≠ after.value? i) :
    ∃ d ∈ valueChanges before after, d.name = i :=
  ⟨⟨i, before.value? i, after.value? i⟩, mem_valueChanges_iff.2 ⟨h, rfl, rfl⟩, rfl⟩

/-- **The disagreements, seen from the later map**, are the same ones the other way round. -/
theorem valueChanges_reverse (before after : Attributes) :
    valueChanges after before = (valueChanges before after).map ValueChange.reverse := by
  rw [valueChanges_eq_map, valueChanges_eq_map, changedNames_comm, List.map_map]
  rfl

/-- **The disagreements of two maps are an exact patch.** They are in strict order of names; each
has two different values, those of the maps; a name without one has equal values. Carried out on the
earlier map in any order, they give the later one, and the other way round on the later map, the
earlier one. Seen from the later map they are the same ones the other way round. -/
theorem valueChanges_exact (before after : Attributes) :
    (valueChanges before after).Pairwise (fun d e => d.name < e.name) ∧
    (∀ d ∈ valueChanges before after,
      d.before ≠ d.after ∧ d.before = before.value? d.name ∧ d.after = after.value? d.name) ∧
    (∀ i, i ∉ (valueChanges before after).map ValueChange.name →
      before.value? i = after.value? i) ∧
    (∀ changes, changes.Perm (valueChanges before after) →
      before.patch changes = after ∧ after.patch (changes.map ValueChange.reverse) = before) ∧
    valueChanges after before = (valueChanges before after).map ValueChange.reverse := by
  refine ⟨pairwise_valueChanges before after, fun d => mem_valueChanges_iff.1, fun i hi => ?_,
    fun changes hperm => ⟨patch_eq (fun d hd => ?_) fun i hne => ?_,
      patch_eq (fun d hd => ?_) fun i hne => ?_⟩, valueChanges_reverse before after⟩
  · by_contra hne
    exact hi (List.mem_map.2 (exists_valueChange hne))
  · exact (mem_valueChanges_iff.1 (hperm.mem_iff.1 hd)).2.2
  · obtain ⟨d, hd, hname⟩ := exists_valueChange hne
    exact ⟨d, hperm.mem_iff.2 hd, hname⟩
  · obtain ⟨e, he, rfl⟩ := List.mem_map.1 hd
    exact (mem_valueChanges_iff.1 (hperm.mem_iff.1 he)).2.1
  · obtain ⟨d, hd, hname⟩ := exists_valueChange hne.symm
    exact ⟨d.reverse, List.mem_map_of_mem (hperm.mem_iff.2 hd), hname⟩

/-- One attribute becomes empty, one disappears and one appears. -/
theorem valueChanges_exact_empty_value :
    let before : Attributes := .ofList [⟨"url", "/"⟩, ⟨"area", "admin"⟩, ⟨"module", "Cart"⟩]
    let after : Attributes := .ofList [⟨"module", "Cart"⟩, ⟨"", "x"⟩, ⟨"url", ""⟩]
    let changes : List ValueChange :=
      [⟨"url", some "/", some ""⟩, ⟨"", none, some "x"⟩, ⟨"area", some "admin", none⟩]
    changes.Perm (valueChanges before after) ∧
      before.patch changes = after ∧ after.patch (changes.map ValueChange.reverse) = before ∧
      "module" ∉ (valueChanges before after).map ValueChange.name ∧
      before.value? "module" = after.value? "module" := by
  intro before after changes
  obtain ⟨-, -, hsame, hpatch, -⟩ := valueChanges_exact before after
  have hperm : changes.Perm (valueChanges before after) := by decide
  have hmodule : "module" ∉ (valueChanges before after).map ValueChange.name := by decide
  exact ⟨hperm, (hpatch changes hperm).1, (hpatch changes hperm).2, hmodule, hsame _ hmodule⟩

end Attributes

end ReleaseDiff

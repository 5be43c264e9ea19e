import ReleaseDiff.Proofs.Identity
import ReleaseDiff.Proofs.Isolation

set_option autoImplicit false

/-!
# Reading a location back

A record shows its location as kind, path and code. Where no name of either release holds a slash,
splitting the path at its slashes gives back the names on the way to the change, the records of a
report increase strictly by their locations, and a location belongs to one subject: it tells the
entity, the collection at whatever depth, the item and the attribute.

## Main definitions

* `ReleaseDiff.Subject.LocatedAt` — a subject of one of two releases is at a location.

## Main results

* `ReleaseDiff.Subject.eq_of_trail_eq` — the trail tells subjects of one focus apart.
* `ReleaseDiff.pairwise_before_classify` — the records of a report increase strictly.
* `ReleaseDiff.classify_located` — locations can be read back.
-/

namespace ReleaseDiff

variable {k : Kind}

/-! ## Subjects of a release -/

namespace Subject

/-- **The trail tells subjects of one focus apart.** -/
theorem eq_of_trail_eq {s t : Subject} (hfocus : s.focus = t.focus) (htrail : s.trail = t.trail) :
    s = t := by
  -- Only subjects of one constructor have one focus.
  cases s <;> cases t <;> try cases hfocus
  case entity.entity => rfl
  case entityAttribute.entityAttribute => simpa [trail] using htrail
  case scalar.scalar => simpa [trail] using htrail
  case groupValue.groupValue => simpa [trail] using htrail
  case item.item =>
    obtain ⟨hcollection, hkey⟩ := List.append_inj' htrail rfl
    rw [hcollection, List.cons.inj hkey |>.1]
  case itemAttribute.itemAttribute =>
    obtain ⟨hitem, hname⟩ := List.append_inj' htrail rfl
    obtain ⟨hcollection, hkey⟩ := List.append_inj' hitem rfl
    rw [hcollection, List.cons.inj hkey |>.1, List.cons.inj hname |>.1]

end Subject

/-- **A subject is at a location**: one of two releases tells of it under the name of an entity of
the kind, it is one for a shape of the code, and the text of its path is the path. -/
structure Subject.LocatedAt (before after : Tree) (location : Kind × String × String)
    (name : String) (s : Subject) : Prop where
  /-- One of the releases tells of the subject. -/
  told : s.ToldBy (before.holding? location.1 name) ∨ s.ToldBy (after.holding? location.1 name)
  /-- The shape of the code is one for such subjects. -/
  focus : ∃ shape : Shape location.1,
    (Shape.row location.1 shape).code = location.2.2 ∧ s.focus = Shape.focus location.1 shape
  /-- The path leads to the subject. -/
  path : (s.path name).text = location.2.1

/-! ## Reports -/

section Reports

variable {before after : Tree} (hb : before.Slashless) (ha : after.Slashless)

include hb ha

/-- Splitting the path of a record gives back the path of its change. -/
theorem Change.ofText_path_record {name : String} {c : Change k}
    (hc : c ∈ Entity.changes name (before.entity? k name) (after.entity? k name)) :
    Path.ofText (c.record name).path = c.path :=
  Path.ofText_text (Entity.within_of_mem_changes hc).segments_ne_nil
    (Entity.slashless_of_mem_changes hb ha hc)

/-- **The location of a record belongs to the subject of its change and to no other one.** -/
theorem Subject.locatedAt_record_iff {name name' : String} {c : Change k} {s s' : Subject}
    (hc : c ∈ Entity.changes name (before.entity? k name) (after.entity? k name))
    (hs : c.About name (before.holding? k name) (after.holding? k name) s) :
    s'.LocatedAt before after (c.record name).place name' ↔ name' = name ∧ s' = s := by
  constructor
  · rintro ⟨htold, ⟨shape, hcode, hfocus⟩, hpath⟩
    have hsplit : Path.ofText (s'.path name').text = s'.path name' :=
      Path.ofText_text (List.cons_ne_nil _ _) (htold.elim
        (not_mem_path (by decide) (by decide) hb) (not_mem_path (by decide) (by decide) ha))
    have hsame : s'.path name' = s.path name := by
      rw [← hsplit, hpath, ← hs.path]
      exact Change.ofText_path_record hb ha hc
    obtain ⟨hname, htrail⟩ := List.cons.inj (congrArg Path.segments hsame)
    have hshape : shape = c.shape := Shape.code_injective k hcode
    exact ⟨hname, eq_of_trail_eq (hfocus.trans (hshape ▸ hs.focus.symm)) htrail⟩
  · rintro ⟨rfl, rfl⟩
    exact ⟨hs.differs.toldBy, ⟨c.shape, rfl, hs.focus⟩, congrArg Path.text hs.path.symm⟩

/-- **The records of a report increase strictly** in kind, path and code. -/
theorem pairwise_before_classify (config : Config) :
    (classify config before after).records.Pairwise fun r s => Record.before r s = true := by
  have hsorted : Sorted Record.before (classify config before after).records :=
    sorted_stableSort Record.weakOrder_before _
  refine (hsorted.and (pairwise_place_classify hb ha config)).imp fun {r s} ⟨hnot, hne⟩ => ?_
  -- A record that is not before another one is after it, unless both have one location.
  by_contra hbefore
  obtain ⟨hkind, hpath, hcode⟩ :=
    Record.tied_before_iff.1 (tied_iff.2 ⟨Bool.eq_false_iff.2 hbefore, hnot⟩)
  exact hne (by rw [Record.place, Record.place, hkind, hpath, hcode])

end Reports

/-- **Locations can be read back** if no name of either release holds a slash. The records of a
report increase strictly in kind, path and code. Splitting the path of a record at its slashes gives
the names on the way to the change, whatever change of the two releases it is. And every record is
that of a change about a subject that is the only one at the location of the record: of all that
either release holds, the location tells one entity, collection, item and attribute.

**Proof sketch.** The text of a path without a slash in a name tells every name, and the first of
them is the entity. The code tells the shape, the shape tells whether the last names are a key, an
attribute or a key and an attribute, and what stands before them is the address of the collection,
at whatever depth. -/
theorem classify_located (config : Config) (before after : Tree) (hb : before.Slashless)
    (ha : after.Slashless) :
    ((classify config before after).records.Pairwise fun r s => Record.before r s = true) ∧
      (∀ k name, ∀ c ∈ Entity.changes name (before.entity? k name) (after.entity? k name),
        Path.ofText (c.record name).path = c.path) ∧
      ∀ r ∈ (classify config before after).records, ∃ k name,
        ∃ c ∈ Entity.changes name (before.entity? k name) (after.entity? k name),
          c.record name = r ∧
          ∃ s, c.About name (before.holding? k name) (after.holding? k name) s ∧
            ∀ name' s', Subject.LocatedAt before after r.place name' s' ↔
              name' = name ∧ s' = s := by
  refine ⟨pairwise_before_classify hb ha config,
    fun k name c hc => Change.ofText_path_record hb ha hc, fun r hr => ?_⟩
  obtain ⟨k, name, c, hc, rfl⟩ := exists_change_of_mem_classify hr
  obtain ⟨s, hs⟩ := Entity.exists_about_of_mem_changes hc
  exact ⟨k, name, c, hc, rfl, s, hs, fun name' s' => Subject.locatedAt_record_iff hb ha hc hs⟩

/-- An element is removed and an attribute of another one differs: two records, and each location
belongs to one subject. -/
theorem classify_located_two_elements :
    let form (elements : List Child) : Entity .pageSection :=
      ⟨"LoginForm", ∅, ⟨Catalog.ofList elements⟩⟩
    let before := Tree.single (form [⟨"cancel", ∅⟩, ⟨"send", Catalog.ofList [⟨"type", "button"⟩]⟩])
    let after := Tree.single (form [⟨"send", Catalog.ofList [⟨"type", "input"⟩]⟩])
    before.Slashless ∧ after.Slashless ∧
      (classify {} before after).records.map Record.path =
        ["LoginForm/Elements/cancel", "LoginForm/Elements/send/type"] ∧
      ((classify {} before after).records.Pairwise fun r s => Record.before r s = true) ∧
      (∀ k name, ∀ c ∈ Entity.changes name (before.entity? k name) (after.entity? k name),
        Path.ofText (c.record name).path = c.path) ∧
      ∀ r ∈ (classify {} before after).records, ∃ k name,
        ∃ c ∈ Entity.changes name (before.entity? k name) (after.entity? k name),
          c.record name = r ∧
          ∃ s, c.About name (before.holding? k name) (after.holding? k name) s ∧
            ∀ name' s', Subject.LocatedAt before after r.place name' s' ↔
              name' = name ∧ s' = s := by
  intro form before after
  have hb : before.Slashless :=
    Tree.slashless_single (by decide) (by decide) (Body.slashless_of_elements (by decide))
  have ha : after.Slashless :=
    Tree.slashless_single (by decide) (by decide) (Body.slashless_of_elements (by decide))
  have hreport : classify {} before after = _ :=
    classify_eq_of_sorted rfl rfl (by decide) (by decide)
  exact ⟨hb, ha, by rw [hreport]; decide, classify_located {} before after hb ha⟩

end ReleaseDiff

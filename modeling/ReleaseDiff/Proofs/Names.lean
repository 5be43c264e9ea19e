import ReleaseDiff.Proofs.Messages
import ReleaseDiff.Proofs.Subjects

set_option autoImplicit false

/-!
# The characters of names

Whatever a record shows comes from the names in the two releases: names of entities, keys,
names of attributes and of annotations, values of sets. So a character that is in none of them is
not in the paths of the changes and not in their messages.

## Main definitions

* `ReleaseDiff.Subject.ToldBy` — a release answers something that is asked of a subject.
* `ReleaseDiff.Tree.NamesLack` — no name in a release holds a character.

## Main results

* `ReleaseDiff.Subject.not_mem_path`, `ReleaseDiff.Subject.not_mem_target` — a character that is in
  no name is not on the path of a subject and not in its target.
* `ReleaseDiff.Entity.not_mem_path_of_mem_changes` — and not on the path of a change.
* `ReleaseDiff.Entity.not_mem_message_of_mem_changes` — and not in its message.
-/

namespace ReleaseDiff

variable {k : Kind}

namespace Subject

/-- **A release tells of a subject**: it answers something that is asked of it. -/
def ToldBy (x : List String → Option Holding) (s : Subject) : Prop :=
  ∃ aspect ∈ s.aspects, Holding.tells (x s.address) aspect ≠ none

/-- Where two releases differ on a subject, one of them tells of it. -/
theorem Differs.toldBy {x y : List String → Option Holding} {s : Subject} (h : s.Differs x y) :
    s.ToldBy x ∨ s.ToldBy y := by
  obtain ⟨aspect, hmem, hne⟩ := h
  by_cases hx : Holding.tells (x s.address) aspect = none
  · exact Or.inr ⟨aspect, hmem, fun hy => hne (hx.trans hy.symm)⟩
  · exact Or.inl ⟨aspect, hmem, hx⟩

end Subject

/-- No attribute of what stands at an address has a character in its name. -/
def Holding.NamesLack (c : Char) (h : Holding) : Prop :=
  ∀ a, h.attributes.value? a ≠ none → c ∉ a.toList

/-- No name in a body holds a character. -/
def Body.NamesLack (c : Char) (k : Kind) (b : Body k) : Prop :=
  ∀ address h, Body.holding? k b address = some h →
    (∀ s ∈ address, c ∉ s.toList) ∧ h.NamesLack c

/-- **No name in a release holds a character**: no name of an entity, no key at any depth, no name
of an attribute or of an annotation, no value of a set. -/
def Tree.NamesLack (c : Char) (t : Tree) : Prop :=
  ∀ k name address h, t.holding? k name address = some h →
    c ∉ name.toList ∧ (∀ s ∈ address, c ∉ s.toList) ∧ h.NamesLack c

namespace Subject

variable {c : Char} {t : Tree} {name : String} {s : Subject}

/-- The names that lead to a subject that a release tells of. -/
theorem ToldBy.not_mem_names (h : s.ToldBy (t.holding? k name)) (ht : t.NamesLack c) :
    c ∉ name.toList ∧ (∀ n ∈ s.address, c ∉ n.toList) ∧
      ∀ a, .value a ∈ s.aspects → c ∉ a.toList := by
  obtain ⟨aspect, hmem, hne⟩ := h
  cases hh : t.holding? k name s.address with
  | none =>
    rw [hh] at hne
    exact absurd rfl hne
  | some held =>
    rw [hh] at hne
    obtain ⟨hname, haddress, hattributes⟩ := ht k name s.address held hh
    refine ⟨hname, haddress, fun a ha => hattributes a ?_⟩
    -- Where the value of an attribute is asked for, nothing else is.
    cases s <;> simp only [aspects, List.mem_cons, List.not_mem_nil, or_false, reduceCtorEq]
      at ha hmem
    all_goals
      subst hmem
      cases ha
      exact hne

/-- **A character that is in no name is not on the path of a subject**, but for the parentheses
around a group value. -/
theorem not_mem_path (hopen : c ≠ '(') (hclose : c ≠ ')') (ht : t.NamesLack c)
    (h : s.ToldBy (t.holding? k name)) : ∀ n ∈ (s.path name).segments, c ∉ n.toList := by
  obtain ⟨hname, haddress, hattributes⟩ := h.not_mem_names ht
  have htrail : ∀ n ∈ s.trail, c ∉ n.toList := by
    cases s with
    | entity => exact fun n hn => absurd hn List.not_mem_nil
    | entityAttribute a => exact List.forall_mem_singleton.2 (hattributes a List.mem_cons_self)
    | scalar a => exact haddress
    | groupValue v =>
      have hlabel := haddress "Annotations" (by simp [address])
      have hgroup := haddress "group" (by simp [address])
      have hv := haddress v (by simp [address])
      refine List.forall_mem_cons.2 ⟨hlabel, List.forall_mem_singleton.2 ?_⟩
      simp only [String.toList_append, List.mem_append, not_or]
      exact ⟨⟨⟨hgroup, by simpa using hopen⟩, hv⟩, by simpa using hclose⟩
    | item collection i => exact haddress
    | itemAttribute collection i a =>
      intro n hn
      rcases List.mem_append.1 hn with hn | hn
      · exact haddress n hn
      · exact List.mem_singleton.1 hn ▸ hattributes a List.mem_cons_self
  exact List.forall_mem_cons.2 ⟨hname, htrail⟩

/-- **A character that is in no name is not in the target** of a subject. -/
theorem not_mem_target (ht : t.NamesLack c) (h : s.ToldBy (t.holding? k name)) :
    c ∉ (s.target name).toList := by
  obtain ⟨hname, haddress, hattributes⟩ := h.not_mem_names ht
  cases s with
  | entity => exact hname
  | entityAttribute a => exact hattributes a List.mem_cons_self
  | scalar a => exact haddress a (by simp [address])
  | groupValue v => exact haddress v (by simp [address])
  | item collection i => exact haddress i (by simp [address])
  | itemAttribute collection i a => exact haddress i (by simp [address])

end Subject

/-- The text of a path holds the characters of its names, and slashes. -/
theorem Path.not_mem_text {c : Char} {p : Path} (hslash : c ≠ '/')
    (h : ∀ n ∈ p.segments, c ∉ n.toList) : c ∉ p.text.toList := by
  have hjoin : ∀ names : List String, (∀ n ∈ names, c ∉ n.toList) →
      c ∉ ("/".intercalate names).toList := by
    intro names hnames
    induction names with
    | nil => simp
    | cons n names ih =>
      rw [List.forall_mem_cons] at hnames
      cases names with
      | nil => simpa using hnames.1
      | cons m names =>
        have hrest := ih hnames.2
        simp only [String.intercalate_cons_cons, String.toList_append, List.mem_append, not_or]
        exact ⟨⟨hnames.1, by simpa using hslash⟩, hrest⟩
  exact hjoin p.segments h

namespace Entity

variable {c : Char} {before after : Tree} (hb : before.NamesLack c) (ha : after.NamesLack c)
  {name : String} {change : Change k}
  (hchange : change ∈ Entity.changes name (before.entity? k name) (after.entity? k name))

include hb ha hchange

/-- **A character that is in no name is not on the path of a change.** -/
theorem not_mem_path_of_mem_changes (hopen : c ≠ '(') (hclose : c ≠ ')') :
    ∀ n ∈ change.path.segments, c ∉ n.toList := by
  obtain ⟨s, habout⟩ := Entity.exists_about_of_mem_changes hchange
  rw [habout.path]
  rcases habout.differs.toldBy with h | h
  · exact Subject.not_mem_path hopen hclose hb h
  · exact Subject.not_mem_path hopen hclose ha h

/-- **A character that is in no name and not in the template is not in the message of a change.** -/
theorem not_mem_message_of_mem_changes
    (htemplate : c ∉ (Shape.row k change.shape).template.toList) :
    c ∉ (change.record name).message.toList := by
  obtain ⟨s, habout⟩ := Entity.exists_about_of_mem_changes hchange
  have hnames : c ∉ name.toList ∧ c ∉ (s.target name).toList := by
    rcases habout.differs.toldBy with h | h
    · exact ⟨(h.not_mem_names hb).1, Subject.not_mem_target hb h⟩
    · exact ⟨(h.not_mem_names ha).1, Subject.not_mem_target ha h⟩
  exact TaxonomyRow.not_mem_render htemplate hnames.1 (habout.target ▸ hnames.2)

end Entity

/-! ## Releases of a single entity -/

section Single

variable {c : Char}

/-- Attributes without a character in a name. -/
theorem Holding.namesLack_of_forall {h : Holding}
    (hnames : ∀ a ∈ h.attributes.items, c ∉ a.name.toList) : h.NamesLack c := by
  intro name hname
  obtain ⟨value, hvalue⟩ := Option.ne_none_iff_exists'.1 hname
  obtain ⟨a, ha, -⟩ := Option.map_eq_some_iff.1 hvalue
  obtain ⟨hmem, hkey⟩ := Catalog.get?_eq_some_iff.1 ha
  exact hkey ▸ hnames a hmem

/-- A section without a character in the name of an element or of an attribute of one. -/
theorem Body.namesLack_of_elements {b : PageSection} (hlabel : c ∉ "Elements".toList)
    (h : ∀ x ∈ b.elements.items,
      c ∉ x.key.toList ∧ ∀ a ∈ x.attributes.items, c ∉ a.name.toList) :
    Body.NamesLack c .pageSection b := by
  intro address held hheld
  obtain ⟨i, rfl⟩ : ∃ i, address = ["Elements", i] := by
    by_contra hother
    rw [not_exists] at hother
    simp [holding?, hother] at hheld
  obtain ⟨x, hx, rfl⟩ := Option.map_eq_some_iff.1 hheld
  obtain ⟨hmem, hkey⟩ := Catalog.get?_eq_some_iff.1 hx
  obtain ⟨hi, hnames⟩ := h x hmem
  exact ⟨List.forall_mem_cons.2 ⟨hlabel, List.forall_mem_singleton.2 (hkey ▸ hi)⟩,
    Holding.namesLack_of_forall hnames⟩

/-- The release of a single entity without a character in a name. -/
theorem Tree.namesLack_single {e : Entity k} (hname : c ∉ e.name.toList)
    (hnames : ∀ a ∈ e.attributes.items, c ∉ a.name.toList)
    (hbody : Body.NamesLack c k e.body) : (Tree.single e).NamesLack c := by
  intro j name address held hheld
  by_cases h : j = k ∧ e.name = name
  · obtain ⟨rfl, rfl⟩ := h
    rw [Tree.holding?_single_self] at hheld
    refine ⟨hname, ?_⟩
    cases address with
    | nil =>
      cases hheld
      exact ⟨fun s hs => absurd hs List.not_mem_nil, Holding.namesLack_of_forall hnames⟩
    | cons label rest => exact hbody (label :: rest) held hheld
  · rw [Tree.holding?_single_of_ne e h] at hheld
    cases hheld

end Single

end ReleaseDiff

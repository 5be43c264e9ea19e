import ReleaseDiff.Proofs.Substitution
import ReleaseDiff.Taxonomy.Row

set_option autoImplicit false

/-!
# Messages

The template of a row has a mark for the name of the entity and a mark for the target of the change.
Filling it in at once puts both texts where their marks are and keeps them as they are. Rendering a
message puts the entity in first, and then the target for every mark in the text so obtained, so a
mark for the target inside the name of the entity is taken for one of the template.

## Main definitions

* `ReleaseDiff.TaxonomyRow.fill` — the template with both marks filled in at once.
* `ReleaseDiff.TaxonomyRow.Formed` — a row has one of three forms.

## Main results

* `ReleaseDiff.TaxonomyRow.render_ofEntity`, `ReleaseDiff.TaxonomyRow.render_ofTarget`,
  `ReleaseDiff.TaxonomyRow.render_ofAttribute` — the message of a row of each form.
* `ReleaseDiff.Shape.row_formed` — every row of the taxonomy has one of these forms.
* `ReleaseDiff.AnyShape.render_eq_fill_iff` — what a message is, and when it is the template with
  both marks filled in at once.
* `ReleaseDiff.AnyShape.render_mark_in_name` — a name with a mark for the target in it.
* `ReleaseDiff.TaxonomyRow.not_mem_render` — a character that is in no text is not in the message.
-/

namespace ReleaseDiff

open Text (substitute substituteAll Occurs)

namespace TaxonomyRow

/-- **The template with both marks filled in at once**: every mark of the template gives way to its
text, and the texts are kept as they are. -/
def fill (row : TaxonomyRow) (entity target : String) : String :=
  substituteAll row.template [(entityMark, entity), (targetMark, target)]

/-- A text on one line that no mark starts in. -/
def Plain (text : String) : Prop := '{' ∉ text.toList ∧ '\n' ∉ text.toList

instance (text : String) : Decidable (Plain text) :=
  inferInstanceAs (Decidable ('{' ∉ text.toList ∧ '\n' ∉ text.toList))

/-- **A row has one of three forms**, with plain text around its marks. -/
inductive Formed : TaxonomyRow → Prop where
  /-- A mark for the entity. -/
  | ofEntity {code : String} {severity : Severity} {tag happened : String} (htag : Plain tag)
      (hhappened : Plain happened) : Formed (ofEntity code severity tag happened)
  /-- A mark for the target. -/
  | ofTarget {code : String} {severity : Severity} {tag happened : String} (htag : Plain tag)
      (hhappened : Plain happened) : Formed (ofTarget code severity tag happened)
  /-- A mark for the entity, and behind it one for the target. -/
  | ofAttribute {code tag : String} (htag : Plain tag) : Formed (ofAttribute code tag)

/-! ## Templates word by word -/

section Words

variable {table : List (String × String)}
  (hmarks : ∀ entry ∈ table, entry.1 = entityMark ∨ entry.1 = targetMark)

include hmarks

/-- Marks start with a brace. -/
theorem substituteAll_of_plain {a : String} (ha : Plain a) : substituteAll a table = a := by
  have hfree : ∀ entry ∈ table, ∃ c ∈ entry.1.toList.head?, c ∉ a.toList := fun entry hentry => by
    rcases hmarks entry hentry with h | h <;> exact ⟨'{', by rw [h]; decide, ha.1⟩
  simpa using Text.substituteAll_append_of_free (b := "") hfree

/-- No mark holds a blank, so a text is filled in word by word. -/
theorem substituteAll_words (a b : String) :
    substituteAll (a ++ " " ++ b) table =
      substituteAll a table ++ " " ++ substituteAll b table := by
  have hblank : ∀ entry ∈ table, ∀ c ∈ (" " ++ b).toList.head?, c ∉ entry.1.toList := by
    intro entry hentry c hc
    obtain rfl : c = ' ' := by simpa [eq_comm] using hc
    rcases hmarks entry hentry with h | h <;> rw [h] <;> decide
  have hfree : ∀ entry ∈ table, ∃ c ∈ entry.1.toList.head?, c ∉ " ".toList := fun entry hentry => by
    rcases hmarks entry hentry with h | h <;> exact ⟨'{', by rw [h]; decide, by decide⟩
  rw [String.append_assoc, Text.substituteAll_append_of_head hblank,
    Text.substituteAll_append_of_free hfree, String.append_assoc]

end Words

section Marks

variable (entity target : String)

theorem forall_mem_entityMark :
    ∀ entry ∈ [(entityMark, entity)], entry.1 = entityMark ∨ entry.1 = targetMark :=
  List.forall_mem_singleton.2 (Or.inl rfl)

theorem forall_mem_targetMark :
    ∀ entry ∈ [(targetMark, target)], entry.1 = entityMark ∨ entry.1 = targetMark :=
  List.forall_mem_singleton.2 (Or.inr rfl)

theorem forall_mem_marks : ∀ entry ∈ [(entityMark, entity), (targetMark, target)],
    entry.1 = entityMark ∨ entry.1 = targetMark :=
  List.forall_mem_cons.2 ⟨Or.inl rfl, forall_mem_targetMark target⟩

/-- The mark for the entity gives way to the entity. -/
theorem substituteAll_entityMark (rest : List (String × String)) :
    substituteAll entityMark ((entityMark, entity) :: rest) = entity := by
  simpa using Text.substituteAll_pattern_append (b := "") (by decide) (by simp)

/-- The mark for the target gives way to the target. -/
theorem substituteAll_targetMark (rest : List (String × String)) :
    substituteAll targetMark ((targetMark, target) :: rest) = target := by
  simpa using Text.substituteAll_pattern_append (b := "") (by decide) (by simp)

/-- The mark for the target is none for the entity. -/
theorem substituteAll_targetMark_of_entity :
    substituteAll targetMark [(entityMark, entity)] = targetMark := by
  rw [← Text.substitute_eq_substituteAll]
  exact (Text.substitute_eq_self_iff (by decide)).2 (Or.inl (by decide))

theorem substituteAll_targetMark_of_both :
    substituteAll targetMark [(entityMark, entity), (targetMark, target)] = target := by
  have hother : entityMark.toList.isPrefixOf targetMark.toList = false := by decide
  simpa using Text.substituteAll_pattern_append (b := "") (by decide) (by simp [hother])

end Marks

/-! ## The message of each form -/

section Forms

variable {code tag happened : String} {severity : Severity} (entity target : String)

/-- The template of a row for an attribute, word by word. -/
theorem ofAttribute_template (code tag : String) :
    (ofAttribute code tag).template =
      tag ++ " " ++ entityMark ++ " " ++ "attribute" ++ " " ++ targetMark ++ " "
        ++ "was changed" := by
  have hattribute : " attribute " = " " ++ "attribute" ++ " " := by decide
  have hchanged : " was changed" = " " ++ "was changed" := by decide
  simp only [ofAttribute, hattribute, hchanged, ← String.append_assoc]

/-- **The message of a row with a mark for the entity**: marks for the target in the name of the
entity are filled in, too. -/
theorem render_ofEntity (htag : Plain tag) (hhappened : Plain happened) :
    (ofEntity code severity tag happened).render entity target =
      tag ++ " " ++ substitute entity targetMark target ++ " " ++ happened := by
  have he := forall_mem_entityMark entity
  have ht := forall_mem_targetMark target
  simp only [render, ofEntity, Text.substitute_eq_substituteAll, substituteAll_words he,
    substituteAll_words ht, substituteAll_of_plain he htag, substituteAll_of_plain ht htag,
    substituteAll_of_plain he hhappened, substituteAll_of_plain ht hhappened,
    substituteAll_entityMark]

/-- **The message of a row with a mark for the target** holds the target as it is. -/
theorem render_ofTarget (htag : Plain tag) (hhappened : Plain happened) :
    (ofTarget code severity tag happened).render entity target =
      tag ++ " " ++ target ++ " " ++ happened := by
  have he := forall_mem_entityMark entity
  have ht := forall_mem_targetMark target
  simp only [render, ofTarget, Text.substitute_eq_substituteAll, substituteAll_words he,
    substituteAll_words ht, substituteAll_of_plain he htag, substituteAll_of_plain ht htag,
    substituteAll_of_plain he hhappened, substituteAll_of_plain ht hhappened,
    substituteAll_targetMark_of_entity, substituteAll_targetMark]

/-- **The message of a row for an attribute**: marks for the target in the name of the entity are
filled in, too. -/
theorem render_ofAttribute (htag : Plain tag) :
    (ofAttribute code tag).render entity target =
      tag ++ " " ++ substitute entity targetMark target ++ " " ++ "attribute" ++ " " ++ target
        ++ " " ++ "was changed" := by
  have he := forall_mem_entityMark entity
  have ht := forall_mem_targetMark target
  have hattribute : Plain "attribute" := by decide
  have hchanged : Plain "was changed" := by decide
  simp only [render, ofAttribute_template, Text.substitute_eq_substituteAll, substituteAll_words he,
    substituteAll_words ht, substituteAll_of_plain he htag, substituteAll_of_plain ht htag,
    substituteAll_of_plain he hattribute, substituteAll_of_plain ht hattribute,
    substituteAll_of_plain he hchanged, substituteAll_of_plain ht hchanged,
    substituteAll_entityMark, substituteAll_targetMark_of_entity, substituteAll_targetMark]

theorem fill_ofEntity (htag : Plain tag) (hhappened : Plain happened) :
    (ofEntity code severity tag happened).fill entity target =
      tag ++ " " ++ entity ++ " " ++ happened := by
  have hm := forall_mem_marks entity target
  simp only [fill, ofEntity, substituteAll_words hm, substituteAll_of_plain hm htag,
    substituteAll_of_plain hm hhappened, substituteAll_entityMark]

theorem fill_ofTarget (htag : Plain tag) (hhappened : Plain happened) :
    (ofTarget code severity tag happened).fill entity target =
      tag ++ " " ++ target ++ " " ++ happened := by
  have hm := forall_mem_marks entity target
  simp only [fill, ofTarget, substituteAll_words hm, substituteAll_of_plain hm htag,
    substituteAll_of_plain hm hhappened, substituteAll_targetMark_of_both]

theorem fill_ofAttribute (htag : Plain tag) :
    (ofAttribute code tag).fill entity target =
      tag ++ " " ++ entity ++ " " ++ "attribute" ++ " " ++ target ++ " " ++ "was changed" := by
  have hm := forall_mem_marks entity target
  simp only [fill, ofAttribute_template, substituteAll_words hm, substituteAll_of_plain hm htag,
    substituteAll_of_plain hm (show Plain "attribute" by decide),
    substituteAll_of_plain hm (show Plain "was changed" by decide),
    substituteAll_entityMark, substituteAll_targetMark_of_both]

/-- A character that is in neither text and not in the template is not in the message. -/
theorem not_mem_render {row : TaxonomyRow} {c : Char} (hrow : c ∉ row.template.toList)
    {entity target : String} (hentity : c ∉ entity.toList) (htarget : c ∉ target.toList) :
    c ∉ (row.render entity target).toList :=
  Text.not_mem_substitute (Text.not_mem_substitute hrow hentity) htarget

/-- A row with a mark for the target alone has none for the entity. -/
theorem not_occurs_ofTarget (htag : Plain tag) (hhappened : Plain happened) :
    ¬ Occurs entityMark (ofTarget code severity tag happened).template := by
  have he := forall_mem_entityMark ""
  have hkept : substitute (ofTarget code severity tag happened).template entityMark "" =
      (ofTarget code severity tag happened).template := by
    simp only [ofTarget, Text.substitute_eq_substituteAll, substituteAll_words he,
      substituteAll_of_plain he htag, substituteAll_of_plain he hhappened,
      substituteAll_targetMark_of_entity]
  exact ((Text.substitute_eq_self_iff (by decide)).1 hkept).resolve_right (by decide)

/-- The template of a row is one line. -/
theorem Formed.not_mem_template {row : TaxonomyRow} (h : row.Formed) :
    '\n' ∉ row.template.toList := by
  have hblank : '\n' ∉ " ".toList := by decide
  have hentity : '\n' ∉ entityMark.toList := by decide
  have htarget : '\n' ∉ targetMark.toList := by decide
  cases h with
  | ofEntity htag hhappened =>
    simp only [TaxonomyRow.ofEntity, String.toList_append, List.mem_append, not_or]
    exact ⟨⟨⟨⟨htag.2, hblank⟩, hentity⟩, hblank⟩, hhappened.2⟩
  | ofTarget htag hhappened =>
    simp only [TaxonomyRow.ofTarget, String.toList_append, List.mem_append, not_or]
    exact ⟨⟨⟨⟨htag.2, hblank⟩, htarget⟩, hblank⟩, hhappened.2⟩
  | ofAttribute htag =>
    simp only [TaxonomyRow.ofAttribute, String.toList_append, List.mem_append, not_or]
    exact ⟨⟨⟨⟨⟨htag.2, hblank⟩, hentity⟩, by decide⟩, htarget⟩, by decide⟩

/-- **A row is rendered** as its template is filled in, but for marks for the target in the name of
the entity, which are filled in before. -/
theorem Formed.render_eq_fill {row : TaxonomyRow} (h : row.Formed) :
    row.render entity target = row.fill (substitute entity targetMark target) target := by
  cases h with
  | ofEntity htag hhappened =>
    rw [render_ofEntity entity target htag hhappened, fill_ofEntity _ target htag hhappened]
  | ofTarget htag hhappened =>
    rw [render_ofTarget entity target htag hhappened, fill_ofTarget _ target htag hhappened]
  | ofAttribute htag => rw [render_ofAttribute entity target htag, fill_ofAttribute _ target htag]

/-- Two names give one text if the template has no mark for the entity, and are equal otherwise. -/
theorem Formed.fill_eq_iff {row : TaxonomyRow} (h : row.Formed) (e e' : String) :
    row.fill e target = row.fill e' target ↔ ¬ Occurs entityMark row.template ∨ e = e' := by
  cases h with
  | @ofEntity code severity tag happened htag hhappened =>
    have hoccurs : Occurs entityMark (TaxonomyRow.ofEntity code severity tag happened).template :=
      ⟨(tag ++ " ").toList, (" " ++ happened).toList, by simp [TaxonomyRow.ofEntity]⟩
    rw [fill_ofEntity e target htag hhappened, fill_ofEntity e' target htag hhappened]
    simp [hoccurs]
  | ofTarget htag hhappened =>
    rw [fill_ofTarget e target htag hhappened, fill_ofTarget e' target htag hhappened]
    exact iff_of_true rfl (Or.inl (not_occurs_ofTarget htag hhappened))
  | @ofAttribute code tag htag =>
    have hoccurs : Occurs entityMark (TaxonomyRow.ofAttribute code tag).template :=
      ⟨(tag ++ " ").toList, (" attribute " ++ targetMark ++ " was changed").toList,
        by simp [TaxonomyRow.ofAttribute]⟩
    rw [fill_ofAttribute e target htag, fill_ofAttribute e' target htag]
    simp [hoccurs, String.append_assoc]

end Forms

end TaxonomyRow

open TaxonomyRow (entityMark targetMark)

/-- **Every row of the taxonomy has one of the three forms.** -/
theorem Shape.row_formed (k : Kind) (s : Shape k) : (Shape.row k s).Formed := by
  -- Comparing templates is slow; the form is told by the function that makes the row.
  cases k <;> cases s <;>
    simp only [Shape.row, ActionGroupShape.row, TestShape.row, PageShape.row, PageSectionShape.row,
      DataEntityShape.row, OperationShape.row] <;>
    first
    | with_reducible exact .ofEntity (by decide) (by decide)
    | with_reducible exact .ofTarget (by decide) (by decide)
    | with_reducible exact .ofAttribute (by decide)

namespace AnyShape

/-- **What a message is, and when it is the template with both marks filled in at once.** A message
is its template with every mark for the target replaced by the target, and every mark for the entity
by the name of the entity in which the marks for the target are replaced as well. So both texts
stand in the message as they are exactly if the template has no mark for the entity, or the name
has no mark for the target, or the target is that mark itself.

**Proof sketch.** No mark holds a blank, so the template is filled in word by word, and a word of a
template is a mark or has no brace. The second substitution meets the name of the entity as a word
of its own; it leaves the name alone if nothing in it is a mark, or if the mark is replaced by
itself. -/
theorem render_eq_fill_iff (s : AnyShape) (entity target : String) :
    s.row.render entity target = s.row.fill (substitute entity targetMark target) target ∧
      (s.row.render entity target = s.row.fill entity target ↔
        ¬ Occurs entityMark s.row.template ∨ ¬ Occurs targetMark entity ∨ target = targetMark) := by
  have hrow : s.row.Formed := Shape.row_formed s.kind s.shape
  have hrender := hrow.render_eq_fill entity target
  refine ⟨hrender, ?_⟩
  rw [hrender, hrow.fill_eq_iff, Text.substitute_eq_self_iff (by decide)]

/-- **A name with a mark for the target in it**: an attribute of a page differs, and the message
shows the attribute inside the name of the page. -/
theorem render_mark_in_name :
    let s : AnyShape := ⟨.page, PageShape.attributeChanged⟩
    s.row.render "Home\x7btarget\x7d" "url" = "<page> Homeurl attribute url was changed" ∧
      s.row.fill "Home\x7btarget\x7d" "url" =
        "<page> Home\x7btarget\x7d attribute url was changed" := by
  decide

end AnyShape

end ReleaseDiff

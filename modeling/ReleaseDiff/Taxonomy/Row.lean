import ReleaseDiff.Severity
import ReleaseDiff.Taxonomy.Shape
import ReleaseDiff.Text.Substitution

set_option autoImplicit false

/-!
# The taxonomy

Every shape of change has a row: a stable code, a severity and a message. A code belongs to one
shape for ever.

## Main definitions

* `ReleaseDiff.TaxonomyRow` — code, severity and template of a shape.
* `ReleaseDiff.TaxonomyRow.render` — the message for a change.
* `ReleaseDiff.AnyShape.row` — the row of a shape.
* `ReleaseDiff.AnyShape.ofCode?` — the shape of a code.
-/

namespace ReleaseDiff

/-- **A row of the taxonomy.** -/
structure TaxonomyRow where
  /-- The stable code. -/
  code : String
  /-- The severity of every change of the shape. -/
  severity : Severity
  /-- The message, with marks for the entity and for the target. -/
  template : String
  deriving DecidableEq, Repr

namespace TaxonomyRow

/-- The mark in a template that stands for the name of the entity. -/
def entityMark : String := "\x7bentity\x7d"

/-- The mark in a template that stands for the target of the change. -/
def targetMark : String := "\x7btarget\x7d"

/-- **The message for a change**: the entity is put in first, and then the target for every mark in
the text so obtained. -/
def render (row : TaxonomyRow) (entity target : String) : String :=
  Text.substitute (Text.substitute row.template entityMark entity) targetMark target

/-- The row of a change that the name of the entity tells. -/
def ofEntity (code : String) (severity : Severity) (tag happened : String) : TaxonomyRow :=
  ⟨code, severity, tag ++ " " ++ entityMark ++ " " ++ happened⟩

/-- The row of a change that the target tells. -/
def ofTarget (code : String) (severity : Severity) (tag happened : String) : TaxonomyRow :=
  ⟨code, severity, tag ++ " " ++ targetMark ++ " " ++ happened⟩

/-- The row of an attribute of an entity that differs. -/
def ofAttribute (code tag : String) : TaxonomyRow :=
  ⟨code, .patch, tag ++ " " ++ entityMark ++ " attribute " ++ targetMark ++ " was changed"⟩

end TaxonomyRow

open TaxonomyRow (ofEntity ofTarget ofAttribute)

/-- The rows of an action group. -/
def ActionGroupShape.row : ActionGroupShape → TaxonomyRow
  | .entityAdded => ofEntity "M225" .minor "<actionGroup>" "was added"
  | .entityRemoved => ofEntity "M200" .major "<actionGroup>" "was removed"
  | .attributeChanged => ofAttribute "M242" "<actionGroup>"
  | .argumentAdded => ofTarget "M227" .major "<actionGroup> <argument>" "was added"
  | .argumentRemoved => ofTarget "M201" .major "<actionGroup> <argument>" "was removed"
  | .argumentChanged => ofTarget "M203" .major "<actionGroup> <argument>" "was changed"
  | .actionAdded => ofTarget "M226" .minor "<actionGroup> <action>" "was added"
  | .actionRemoved => ofTarget "M202" .major "<actionGroup> <action>" "was removed"
  | .actionChanged => ofTarget "M204" .patch "<actionGroup> <action>" "was changed"
  | .actionTypeChanged => ofTarget "M223" .patch "<actionGroup> <action>" "type was changed"
  | .actionGroupRefChanged => ofTarget "M243" .major "<actionGroup> <actionGroup>" "ref was changed"

/-- The rows of a test. -/
def TestShape.row : TestShape → TaxonomyRow
  | .entityAdded => ofEntity "M237" .minor "<test>" "was added"
  | .entityRemoved => ofEntity "M218" .major "<test>" "was removed"
  | .attributeChanged => ofAttribute "M244" "<test>"
  | .actionAdded => ofTarget "M238" .minor "<test> <action>" "was added"
  | .actionRemoved => ofTarget "M219" .major "<test> <action>" "was removed"
  | .actionChanged => ofTarget "M222" .patch "<test> <action>" "was changed"
  | .actionTypeChanged => ofTarget "M224" .patch "<test> <action>" "type was changed"
  | .actionGroupRefChanged => ofTarget "M241" .major "<test> <actionGroup>" "ref was changed"
  | .annotationAdded => ofTarget "M245" .patch "<test> <annotation>" "was added"
  | .annotationChanged => ofTarget "M221" .patch "<test> <annotation>" "was removed or changed"
  | .groupAdded => ofTarget "M246" .minor "<test> <annotation> <group>" "was added"
  | .groupRemoved => ofTarget "M220" .major "<test> <annotation> <group>" "was removed"
  | .removeActionAdded => ofTarget "M401" .major "<test> <remove action>" "was added"
  | .removeActionRemoved => ofTarget "M402" .minor "<test> <remove action>" "was removed"

/-- The rows of a page. -/
def PageShape.row : PageShape → TaxonomyRow
  | .entityAdded => ofEntity "M233" .minor "<page>" "was added"
  | .entityRemoved => ofEntity "M213" .major "<page>" "was removed"
  | .attributeChanged => ofAttribute "M254" "<page>"
  | .sectionAdded => ofTarget "M234" .minor "<page> <section>" "was added"
  | .sectionRemoved => ofTarget "M214" .major "<page> <section>" "was removed"
  | .sectionChanged => ofTarget "M255" .patch "<page> <section>" "was changed"

/-- The rows of a section. -/
def PageSectionShape.row : PageSectionShape → TaxonomyRow
  | .entityAdded => ofEntity "M235" .minor "<section>" "was added"
  | .entityRemoved => ofEntity "M215" .major "<section>" "was removed"
  | .attributeChanged => ofAttribute "M256" "<section>"
  | .elementAdded => ofTarget "M236" .minor "<section> <element>" "was added"
  | .elementRemoved => ofTarget "M216" .major "<section> <element>" "was removed"
  | .elementChanged => ofTarget "M217" .patch "<section> <element>" "was changed"

/-- The rows of a data entity. -/
def DataEntityShape.row : DataEntityShape → TaxonomyRow
  | .entityAdded => ofEntity "M228" .minor "<entity>" "was added"
  | .entityRemoved => ofEntity "M205" .major "<entity>" "was removed"
  | .attributeChanged => ofAttribute "M247" "<entity>"
  | .fieldAdded => ofTarget "M230" .minor "<entity> <data>" "was added"
  | .fieldRemoved => ofTarget "M208" .major "<entity> <data>" "was removed"
  | .fieldChanged => ofTarget "M248" .patch "<entity> <data>" "was changed"
  | .arrayAdded => ofTarget "M229" .minor "<entity> <array>" "was added"
  | .arrayRemoved => ofTarget "M206" .major "<entity> <array>" "was removed"
  | .arrayItemAdded => ofTarget "M249" .minor "<entity> <array> <item>" "was added"
  | .arrayItemRemoved => ofTarget "M207" .minor "<entity> <array> <item>" "was removed"
  | .requiredEntityAdded => ofTarget "M231" .patch "<entity> <required-entity>" "was added"
  | .requiredEntityRemoved => ofTarget "M209" .major "<entity> <required-entity>" "was removed"
  | .requiredEntityChanged => ofTarget "M250" .patch "<entity> <required-entity>" "was changed"
  | .varAdded => ofTarget "M232" .minor "<entity> <var>" "was added"
  | .varRemoved => ofTarget "M210" .major "<entity> <var>" "was removed"
  | .varChanged => ofTarget "M251" .patch "<entity> <var>" "was changed"

/-- The rows of a metadata operation. -/
def OperationShape.row : OperationShape → TaxonomyRow
  | .entityAdded => ofEntity "M240" .minor "<operation>" "was added"
  | .entityRemoved => ofEntity "M211" .major "<operation>" "was removed"
  | .attributeChanged => ofAttribute "M252" "<operation>"
  | .childAdded => ofTarget "M239" .minor "<operation> child element" "was added"
  | .childRemoved => ofTarget "M212" .major "<operation> child element" "was removed"
  | .childChanged => ofTarget "M253" .patch "<operation> child element" "was changed"

/-- The rows of every kind. -/
def Shape.row : (k : Kind) → Shape k → TaxonomyRow
  | .actionGroup, s => ActionGroupShape.row s
  | .test, s => TestShape.row s
  | .page, s => PageShape.row s
  | .pageSection, s => PageSectionShape.row s
  | .data, s => DataEntityShape.row s
  | .metadata, s => OperationShape.row s

namespace AnyShape

/-- **The row of a shape.** -/
def row (s : AnyShape) : TaxonomyRow := Shape.row s.kind s.shape

/-- **The shape of a code.** -/
def ofCode? (code : String) : Option AnyShape :=
  all.find? fun s => s.row.code == code

end AnyShape

end ReleaseDiff

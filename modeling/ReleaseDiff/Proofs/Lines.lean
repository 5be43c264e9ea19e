import Mathlib.Algebra.GroupWithZero.Nat
import ReleaseDiff.Proofs.Isolation
import ReleaseDiff.Proofs.Names
import ReleaseDiff.Report.Text

set_option autoImplicit false

/-!
# The lines of a report

A report as text shows a heading, a line for every record and for every failure, and a closing line.
The texts in it are shown as they are, so a line feed in one of them starts a line of its own. What
stands between the line feeds of the text is the intended layout exactly if no path and no message
holds a line feed, and no path and no message does if no name in either release does.

## Main definitions

* `ReleaseDiff.Text.splitLines`, `ReleaseDiff.Text.lineFeeds` — the lines of a text, and the number
  of its line feeds.
* `ReleaseDiff.Report.layout` — the intended lines of a report.
* `ReleaseDiff.Tree.Lacks` — no name in a release and no text of a defect in it holds a character.

## Main results

* `ReleaseDiff.Text.splitLines_join`, `ReleaseDiff.Text.length_splitLines` — the lines of texts that
  are closed by line feeds, and how many lines a text has.
* `ReleaseDiff.not_mem_of_mem_records_classify`, `ReleaseDiff.not_mem_of_mem_failures_classify` — a
  character that is in no name is not in what a report shows.
* `ReleaseDiff.splitLines_text_classify` — the lines of a report.
* `ReleaseDiff.splitLines_text_classify_line_feed_in_name` — a name with a line feed.
-/

namespace ReleaseDiff

/-! ## The lines of a text -/

namespace Text

/-- **The lines of a text**: what stands before, between and behind its line feeds. -/
def splitLines (text : String) : List String := (text.toList.splitOn '\n').map String.ofList

/-- The number of line feeds in a text. -/
def lineFeeds (text : String) : Nat := text.toList.count '\n'

@[simp] theorem lineFeeds_append (a b : String) :
    lineFeeds (a ++ b) = lineFeeds a + lineFeeds b := by
  rw [lineFeeds, String.toList_append, List.count_append, lineFeeds, lineFeeds]

theorem lineFeeds_eq_zero_iff {text : String} : lineFeeds text = 0 ↔ '\n' ∉ text.toList :=
  List.count_eq_zero

/-- **A text has one line more than line feeds.** -/
theorem length_splitLines (text : String) : (splitLines text).length = lineFeeds text + 1 := by
  have hchars : ∀ cs : List Char, (cs.splitOn '\n').length = cs.count '\n' + 1 := by
    intro cs
    induction cs with
    | nil => rfl
    | cons c cs ih =>
      rw [List.splitOn_cons_eq_if_modifyHead, List.count_cons]
      split <;> simp [ih]
  rw [splitLines, List.length_map, hchars, lineFeeds]

/-- A text without a line feed is one line. -/
theorem splitLines_of_not_mem {text : String} (h : '\n' ∉ text.toList) :
    splitLines text = [text] := by
  rw [splitLines, List.splitOn_eq_singleton h, List.map_singleton, String.ofList_toList]

/-- A line feed stands between the lines before it and the lines behind it. -/
theorem splitLines_append_line_feed (a b : String) :
    splitLines (a ++ "\n" ++ b) = splitLines a ++ splitLines b := by
  have hchars : (a ++ "\n" ++ b).toList = a.toList ++ '\n' :: b.toList := by simp
  rw [splitLines, hchars, List.splitOn_append_cons_self, List.map_append, splitLines, splitLines]

/-- **The lines of texts that are closed by line feeds**: those of each of them, and behind the last
line feed an empty line. -/
theorem splitLines_join (texts : List String) :
    splitLines (String.join (texts.map (· ++ "\n"))) = texts.flatMap splitLines ++ [""] := by
  induction texts with
  | nil => rfl
  | cons text texts ih =>
    rw [List.map_cons, String.join_cons, splitLines_append_line_feed, ih, List.flatMap_cons,
      List.append_assoc]

/-- **How many lines texts have together.** -/
theorem length_flatMap_splitLines (texts : List String) :
    (texts.flatMap splitLines).length = texts.length + (texts.map lineFeeds).sum := by
  induction texts with
  | nil => rfl
  | cons text texts ih =>
    rw [List.flatMap_cons, List.length_append, ih, length_splitLines, List.map_cons, List.sum_cons,
      List.length_cons]
    omega

/-- **Texts are their own lines exactly if there is no line feed in them.** -/
theorem flatMap_splitLines_eq_self_iff {texts : List String} :
    texts.flatMap splitLines = texts ↔ (texts.map lineFeeds).sum = 0 := by
  constructor
  · intro h
    have hlength := length_flatMap_splitLines texts
    rw [h] at hlength
    omega
  · intro h
    induction texts with
    | nil => rfl
    | cons text texts ih =>
      rw [List.map_cons, List.sum_cons, Nat.add_eq_zero_iff] at h
      rw [List.flatMap_cons, splitLines_of_not_mem (lineFeeds_eq_zero_iff.1 h.1), ih h.2,
        List.singleton_append]

end Text

/-! ## The layout of a report -/

/-- The label of a kind is on one line. -/
@[simp] theorem Kind.lineFeeds_label (k : Kind) : Text.lineFeeds k.label = 0 := by
  cases k <;> decide

/-- **The line feeds in the line of a record** are those of its path and its message, if its code
holds none. -/
theorem Record.lineFeeds_line {x : Record} (hcode : '\n' ∉ x.code.toList) :
    Text.lineFeeds x.line = Text.lineFeeds x.path + Text.lineFeeds x.message := by
  have hslash : Text.lineFeeds "/" = 0 := by decide
  have hbar : Text.lineFeeds " | " = 0 := by decide
  simp only [Record.line, Text.lineFeeds_append, Kind.lineFeeds_label, hslash, hbar,
    Text.lineFeeds_eq_zero_iff.2 hcode]
  omega

/-- **The line feeds in the line of a failure** are those of its message, if its code holds none. -/
theorem Failure.lineFeeds_line {f : Failure} (hcode : '\n' ∉ f.code.toList) :
    Text.lineFeeds f.line = Text.lineFeeds f.message := by
  have hside : Text.lineFeeds f.side.label = 0 := by cases f.side <;> decide
  have hopen : Text.lineFeeds " (" = 0 := by decide
  have hclose : Text.lineFeeds ") not compared | " = 0 := by decide
  have hbar : Text.lineFeeds " | " = 0 := by decide
  simp only [Failure.line, Text.lineFeeds_append, Kind.lineFeeds_label, hside, hopen, hclose, hbar,
    Text.lineFeeds_eq_zero_iff.2 hcode]
  omega

namespace Report

open Text (splitLines lineFeeds)

/-- **The intended lines of a report**: the heading, a line for every record, the failures behind an
empty line if there are any, an empty line and the closing line, which is closed by a line feed as
every other line is. -/
def layout (r : Report) : List String :=
  ["Mftf (" ++ r.severity.label ++ ")"]
    ++ r.records.map (fun x =>
        x.kind.label ++ "/" ++ x.path ++ " | " ++ x.message ++ " | " ++ x.code)
    ++ (if r.failures = [] then [] else
        "" :: r.failures.map fun f =>
          f.kind.label ++ " (" ++ f.side.label ++ ") not compared | " ++ f.message ++
            " | " ++ f.code)
    ++ ["", r.severity.closingLine, ""]

/-- The number of lines is told by the numbers of records and failures. -/
theorem length_layout (r : Report) : r.layout.length =
    r.records.length + (if r.failures = [] then 0 else r.failures.length + 1) + 4 := by
  unfold layout
  split
  · simp
  · simp
    omega

/-- The lines that are written, and an empty one behind them, are laid out as intended. -/
theorem lines_append_eq_layout (r : Report) : r.lines ++ [""] = r.layout := by
  have hrecord : Record.line = fun x =>
      x.kind.label ++ "/" ++ x.path ++ " | " ++ x.message ++ " | " ++ x.code := rfl
  have hfailure : Failure.line = fun f =>
      f.kind.label ++ " (" ++ f.side.label ++ ") not compared | " ++ f.message ++ " | "
        ++ f.code := rfl
  unfold lines layout
  cases r.failures <;> simp [Verdict.heading, hrecord, hfailure]

/-- The line feeds that records and failures bring along. -/
def lineFeeds (r : Report) : Nat :=
  (r.records.map fun x => Text.lineFeeds x.path + Text.lineFeeds x.message).sum
    + (r.failures.map fun f => Text.lineFeeds f.message).sum

theorem lineFeeds_eq_zero_iff {r : Report} : r.lineFeeds = 0 ↔
    (∀ x ∈ r.records, '\n' ∉ x.path.toList ∧ '\n' ∉ x.message.toList) ∧
      ∀ f ∈ r.failures, '\n' ∉ f.message.toList := by
  simp only [lineFeeds, Nat.add_eq_zero_iff, List.sum_eq_zero_iff_forall_eq_nat,
    List.forall_mem_map, Text.lineFeeds_eq_zero_iff]

variable {r : Report} (hrecords : ∀ x ∈ r.records, '\n' ∉ x.code.toList)
  (hfailures : ∀ f ∈ r.failures, '\n' ∉ f.code.toList)

include hrecords hfailures

/-- **The line feeds in the lines of a report** are those of paths and messages, if the codes hold
none. -/
theorem sum_lineFeeds_lines : (r.lines.map Text.lineFeeds).sum = r.lineFeeds := by
  have hfixed : ∀ v : Verdict, Text.lineFeeds v.heading = 0 ∧ Text.lineFeeds v.closingLine = 0 := by
    rintro (_ | _ | _ | _) <;> decide
  have hempty : Text.lineFeeds "" = 0 := by decide
  have hrecord : ∀ x ∈ r.records, Text.lineFeeds x.line =
      Text.lineFeeds x.path + Text.lineFeeds x.message := fun x hx =>
    Record.lineFeeds_line (hrecords x hx)
  have hfailure : ∀ f ∈ r.failures, Text.lineFeeds f.line = Text.lineFeeds f.message := fun f hf =>
    Failure.lineFeeds_line (hfailures f hf)
  have hfailed : ((if r.failures.isEmpty then [] else "" :: r.failures.map Failure.line).map
      Text.lineFeeds).sum = (r.failures.map fun f => Text.lineFeeds f.message).sum := by
    rw [← List.map_congr_left hfailure]
    cases r.failures <;> simp [hempty, Function.comp_def]
  simp only [lines, List.map_cons, List.map_append, List.sum_cons, List.sum_append, List.map_map,
    List.map_nil, List.sum_nil, hfailed, hfixed, hempty, Function.comp_def, lineFeeds,
    ← List.map_congr_left hrecord]
  omega

/-- **The text of a report is laid out as intended exactly if no path and no message in it holds a
line feed**, and it has one line more for every line feed in them. -/
theorem splitLines_text_iff :
    (Text.splitLines r.text).length = r.layout.length + r.lineFeeds ∧
      (Text.splitLines r.text = r.layout ↔ r.lineFeeds = 0) := by
  rw [text, Text.splitLines_join, ← lines_append_eq_layout, List.append_cancel_right_eq,
    Text.flatMap_splitLines_eq_self_iff, List.length_append, Text.length_flatMap_splitLines,
    sum_lineFeeds_lines hrecords hfailures, List.length_append]
  exact ⟨by omega, Iff.rfl⟩

end Report

/-! ## Reports of a comparison -/

/-- No text of a defect holds a character. -/
def Malformed.Lacks (c : Char) : Malformed → Prop
  | .duplicateKey _ entity collection key =>
    c ∉ entity.toList ∧ c ∉ collection.toList ∧ c ∉ key.toList
  | .duplicateEntity _ name => c ∉ name.toList
  | .missingIdentifier _ entity collection => c ∉ entity.toList ∧ c ∉ collection.toList

/-- **A release without a character**: no name in it holds the character, and no text of a defect
does. -/
structure Tree.Lacks (c : Char) (t : Tree) : Prop where
  /-- No name of an entity, of an item or of an attribute holds it. -/
  names : t.NamesLack c
  /-- What keeps a kind from being built is told without it. -/
  defects : ∀ k m, t k = .error m → m.1.Lacks c

section Comparison

variable {config : Config} {before after : Tree}

/-- The codes of a report hold no line feed. -/
theorem not_mem_code_of_mem_records_classify {x : Record}
    (hx : x ∈ (classify config before after).records) : '\n' ∉ x.code.toList := by
  have hcodes : ∀ s ∈ AnyShape.all, '\n' ∉ s.row.code.toList := by decide
  obtain ⟨k, name, c, -, rfl⟩ := exists_change_of_mem_classify hx
  exact hcodes ⟨k, c.shape⟩ (AnyShape.mem_all _)

/-- A slot has a defect only if it could not be built for that reason. -/
theorem Slot.eq_error_of_mem_defect? {k : Kind} {s : Slot k} {side side' : Side} {m : Defect k}
    (h : (side, m) ∈ s.defect?.toList.map (Prod.mk side')) : s = .error m := by
  cases s with
  | ok c => cases h
  | error n => cases List.mem_singleton.1 h; rfl

/-- A failure of a report is that of a defect in one of the releases. -/
theorem exists_defect_of_mem_failures_classify {f : Failure}
    (hf : f ∈ (classify config before after).failures) :
    ∃ k side, ∃ m : Defect k, (before k = .error m ∨ after k = .error m) ∧
      f = Failure.of side m.1 := by
  rw [(failures_classify_perm config before after).mem_iff, List.mem_flatMap] at hf
  obtain ⟨k, -, hf⟩ := hf
  rw [failures_compareKind_eq_map] at hf
  obtain ⟨⟨side, m⟩, hm, rfl⟩ := List.mem_map.1 hf
  exact ⟨k, side, m, (List.mem_append.1 hm).imp Slot.eq_error_of_mem_defect?
    Slot.eq_error_of_mem_defect?, rfl⟩

theorem not_mem_code_of_mem_failures_classify {f : Failure}
    (hf : f ∈ (classify config before after).failures) : '\n' ∉ f.code.toList := by
  obtain ⟨k, side, m, -, rfl⟩ := exists_defect_of_mem_failures_classify hf
  have hcodes : ∀ kind : FaultKind, '\n' ∉ kind.code.toList := fun kind => by cases kind <;> decide
  exact hcodes m.1.faultKind

/-- **A line feed that is in no name is not in the paths and messages of the records.** -/
theorem not_mem_of_mem_records_classify (hb : before.NamesLack '\n') (ha : after.NamesLack '\n')
    {x : Record} (hx : x ∈ (classify config before after).records) :
    '\n' ∉ x.path.toList ∧ '\n' ∉ x.message.toList := by
  obtain ⟨k, name, c, hc, rfl⟩ := exists_change_of_mem_classify hx
  exact ⟨Path.not_mem_text (by decide)
      (Entity.not_mem_path_of_mem_changes hb ha hc (by decide) (by decide)),
    Entity.not_mem_message_of_mem_changes hb ha hc (Shape.row_formed k c.shape).not_mem_template⟩

/-- **A line feed that is in no text of a defect is not in its wording.** -/
theorem Malformed.not_mem_message {m : Malformed} (h : m.Lacks '\n') : '\n' ∉ m.message.toList := by
  have hkind : ∀ k : Kind, '\n' ∉ k.label.toList := by decide
  cases m <;> simp_all [Malformed.message, Malformed.Lacks]

theorem not_mem_of_mem_failures_classify (hb : before.Lacks '\n') (ha : after.Lacks '\n')
    {f : Failure} (hf : f ∈ (classify config before after).failures) :
    '\n' ∉ f.message.toList := by
  obtain ⟨k, side, m, hm, rfl⟩ := exists_defect_of_mem_failures_classify hf
  exact Malformed.not_mem_message (hm.elim (hb.defects k m) (ha.defects k m))

end Comparison

/-- **The lines of a report** on any two releases. The text has the lines of the layout and one more
for every line feed in a path or in a message; it has exactly the lines of the layout just when no
path and no message holds a line feed; and it does so wherever no name in either release and no text
of a defect holds one. Then every record and every failure has one line, and their numbers tell how
many lines there are.

**Proof sketch.** Every written line is closed by a line feed, so the lines of the text are those of
the written lines and an empty one. Codes, kinds, sides and the fixed texts hold no line feed.
What a change is about tells its path and its target, and a message is its template, the name of the
entity and the target. -/
theorem splitLines_text_classify (config : Config) (before after : Tree) :
    let r := classify config before after
    (Text.splitLines r.text).length = r.layout.length + r.lineFeeds ∧
      (Text.splitLines r.text = r.layout ↔
        (∀ x ∈ r.records, '\n' ∉ x.path.toList ∧ '\n' ∉ x.message.toList) ∧
          ∀ f ∈ r.failures, '\n' ∉ f.message.toList) ∧
      (before.Lacks '\n' → after.Lacks '\n' →
        Text.splitLines r.text = r.layout ∧
          (Text.splitLines r.text).length =
            r.records.length + (if r.failures = [] then 0 else r.failures.length + 1) + 4) := by
  intro r
  obtain ⟨hlength, hiff⟩ := Report.splitLines_text_iff (r := r)
    (fun x => not_mem_code_of_mem_records_classify) (fun f => not_mem_code_of_mem_failures_classify)
  rw [Report.lineFeeds_eq_zero_iff] at hiff
  refine ⟨hlength, hiff, fun hb ha => ?_⟩
  have hlayout : Text.splitLines r.text = r.layout :=
    hiff.2 ⟨fun x hx => not_mem_of_mem_records_classify hb.names ha.names hx,
      fun f hf => not_mem_of_mem_failures_classify hb ha hf⟩
  exact ⟨hlayout, by rw [hlayout, Report.length_layout]⟩

/-- An element is removed and an attribute of another one differs: a line for each. -/
theorem splitLines_text_classify_two_elements :
    let form (elements : List Child) : Entity .pageSection :=
      ⟨"LoginForm", ∅, ⟨Catalog.ofList elements⟩⟩
    let before := Tree.single (form [⟨"cancel", ∅⟩, ⟨"send", Catalog.ofList [⟨"type", "button"⟩]⟩])
    let after := Tree.single (form [⟨"send", Catalog.ofList [⟨"type", "input"⟩]⟩])
    let r := classify {} before after
    before.Lacks '\n' ∧ after.Lacks '\n' ∧
      r.layout = ["Mftf (MAJOR)",
        "Section/LoginForm/Elements/cancel | <section> <element> cancel was removed | M216",
        "Section/LoginForm/Elements/send/type | <section> <element> send was changed | M217",
        "", "Major change is detected.", ""] ∧
      Text.splitLines r.text = r.layout ∧
      (Text.splitLines r.text).length =
        r.records.length + (if r.failures = [] then 0 else r.failures.length + 1) + 4 := by
  intro form before after r
  have hbuilt : ∀ (e : Entity .pageSection) k m, Tree.single e k ≠ .error m := by
    intro e k m h
    have hok := Tree.isOk_single e k
    rw [h] at hok
    cases hok
  have hb : before.Lacks '\n' := ⟨Tree.namesLack_single (by decide) (by decide)
    (Body.namesLack_of_elements (by decide) (by decide)), fun k m h => absurd h (hbuilt _ k m)⟩
  have ha : after.Lacks '\n' := ⟨Tree.namesLack_single (by decide) (by decide)
    (Body.namesLack_of_elements (by decide) (by decide)), fun k m h => absurd h (hbuilt _ k m)⟩
  have hreport : r = _ := classify_eq_of_sorted rfl rfl (by decide) (by decide)
  have hlayout : r.layout = ["Mftf (MAJOR)",
      "Section/LoginForm/Elements/cancel | <section> <element> cancel was removed | M216",
      "Section/LoginForm/Elements/send/type | <section> <element> send was changed | M217",
      "", "Major change is detected.", ""] := by
    rw [hreport]
    decide
  exact ⟨hb, ha, hlayout, (splitLines_text_classify {} before after).2.2 hb ha⟩

/-- **A name with a line feed**: a section is removed, and its record takes three lines. -/
theorem splitLines_text_classify_line_feed_in_name :
    let r := classify {} (Tree.single (⟨"Login\nForm", ∅, ⟨∅⟩⟩ : Entity .pageSection)) Tree.empty
    r.records.length = 1 ∧ r.failures = [] ∧
      Text.splitLines r.text = ["Mftf (MAJOR)", "Section/Login", "Form | <section> Login",
        "Form was removed | M215", "", "Major change is detected.", ""] ∧
      r.layout = ["Mftf (MAJOR)", "Section/Login\nForm | <section> Login\nForm was removed | M215",
        "", "Major change is detected.", ""] := by
  intro r
  have hreport : r = _ := classify_eq_of_sorted rfl rfl (by decide) (by decide)
  rw [hreport]
  decide

end ReleaseDiff

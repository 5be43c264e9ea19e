import ReleaseDiff.Config.Toml
import ReleaseDiff.Proofs.Agreement

set_option autoImplicit false

/-!
# Configurations read back from their TOML text

The text of a configuration is a document of assignments: on every line a key without quotes, an
equals sign between blanks, and a value up to the end of the line. Such a document is read line by
line, and its entries are the keys and values of the lines in their order. Where the items stand in
the text plays no part in what a configuration is, so items are described up to their place.

## Main definitions

* `ReleaseDiff.Toml.ReadsAs` — a value that is read up to the end of its line.
* `ReleaseDiff.Toml.Assignment` — a line that gives a key its value.
* `ReleaseDiff.Config.assignments` — the lines of a configuration.

## Main results

* `ReleaseDiff.Toml.readItems?_quoteAll` — a list of texts in quotes is read item by item.
* `ReleaseDiff.Toml.parse?_assignments` — a document of assignments is read line by line.
* `ReleaseDiff.Config.ofEntries_assignments` — the entries of a configuration give it back.
* `ReleaseDiff.Config.toToml_faithful` — TOML is a faithful encoding of a configuration.

## Implementation notes

The reader counts its steps. A value takes at most as many steps as its text has characters, and a
document as many as it has lines, which is all that the bounds below say.
-/

namespace ReleaseDiff

namespace Toml

/-! ## Blanks and line ends -/

/-- A text that starts with no blank has none to skip. -/
theorem skipBlanks_cons {c : Char} (h : isBlank c = false) (cs : List Char) :
    skipBlanks (c :: cs) = c :: cs := by
  rw [skipBlanks, List.dropWhile_cons_of_neg (by simp [h])]

/-- A blank in front is skipped. -/
theorem skipBlanks_blank (cs : List Char) : skipBlanks (' ' :: cs) = skipBlanks cs := rfl

/-- A line feed ends its line. -/
theorem endOfLine?_lineFeed (rest : List Char) : endOfLine? ('\n' :: rest) = some rest := rfl

/-- The blank behind a comma is skipped. -/
theorem readItems?_blank (fuel : Nat) (cs : List Char) :
    readItems? fuel (' ' :: cs) = readItems? fuel cs := by
  cases fuel with
  | zero => rfl
  | succ fuel => rw [readItems?, readItems?]; rfl

/-! ## Texts in quotes -/

/-- Whether a character stands for itself in a text in quotes. -/
def isOrdinary (c : Char) : Bool := isPlain c && c != '"' && c != '\\'

/-- An ordinary character is read as itself. -/
theorem readBasic?_cons {c : Char} (h : isOrdinary c = true) (cs : List Char) :
    readBasic? (c :: cs) = (readBasic? cs).cons c := by
  simp only [isOrdinary, Bool.and_eq_true, bne_iff_ne] at h
  obtain ⟨⟨hplain, hquote⟩, hbackslash⟩ := h
  -- Every equation of the reader but the last one starts at a quote or at a backslash.
  rw [readBasic?]
  · rw [if_pos hplain]
  all_goals simp_all

/-- **A text of ordinary characters is read up to its closing quote.** -/
theorem readBasic?_quote {cs : List Char} (h : ∀ c ∈ cs, isOrdinary c = true) (rest : List Char) :
    readBasic? (cs ++ '"' :: rest) = some (cs, rest) := by
  induction cs with
  | nil => simp [readBasic?]
  | cons c cs ih =>
    obtain ⟨hc, hcs⟩ := List.forall_mem_cons.1 h
    rw [List.cons_append, readBasic?_cons hc, ih hcs]
    rfl

/-- **A text that can be written in quotes as it is.** -/
structure Quotable (text : String) : Prop where
  /-- It is not empty. -/
  ne_nil : text.toList ≠ []
  /-- Nothing in it has to be escaped. -/
  ordinary : ∀ c ∈ text.toList, isOrdinary c = true

/-- A text in quotes. -/
def quote (text : String) : List Char := '"' :: (text.toList ++ ['"'])

/-- Whether an item is a given text, wherever it stands. -/
def IsText (text : String) (item : Item) : Prop := ∃ span, item = .string span text

/-- **A text in quotes is read as that text.** A quote behind it does not open a text of several
lines, as the text is not empty. -/
theorem readItem?_quote {text : String} (h : Quotable text) (fuel : Nat) (rest : List Char) :
    ∃ item, readItem? (fuel + 1) (quote text ++ rest) = some (item, rest) ∧ IsText text item := by
  have hbasic := readBasic?_quote h.ordinary rest
  obtain ⟨c, cs, hcs⟩ := List.exists_cons_of_ne_nil h.ne_nil
  have hc : c ≠ '"' := by
    have hordinary := h.ordinary c (by simp [hcs])
    simp only [isOrdinary, Bool.and_eq_true, bne_iff_ne] at hordinary
    exact hordinary.1.2
  have htext : readText? (quote text ++ rest) = some (text.toList, rest) := by
    rw [← hbasic, quote, hcs]
    simp [readText?, hc]
  refine ⟨.string (.between (quote text ++ rest) rest) text, ?_, _, rfl⟩
  rw [show quote text ++ rest = '"' :: (text.toList ++ '"' :: rest) by simp [quote]] at htext ⊢
  simp [readItem?, htext]

/-! ## Lists of texts -/

/-- The items of a list of texts, with a comma and a blank between two of them. -/
def quoteAll (texts : List String) : List Char := [',', ' '].intercalate (texts.map quote)

/-- A list of texts takes at least one character for each text. -/
theorem length_le_length_quoteAll (texts : List String) :
    texts.length ≤ (quoteAll texts).length := by
  induction texts with
  | nil => exact Nat.zero_le _
  | cons text texts ih =>
    cases texts with
    | nil => simp [quoteAll, quote]
    | cons next texts =>
      simp only [quoteAll, List.map_cons, List.intercalate_cons_cons, List.length_append,
        List.length_cons, quote] at ih ⊢
      omega

section Items

variable {text : String} {fuel : Nat} {item : Item} {more : List Char}
  (hread : readItem? fuel (quote text ++ more) = some (item, more))

include hread

/-- The last text is read in front of the closing bracket. -/
theorem readItems?_last {rest : List Char} (hmore : more = ']' :: rest) :
    readItems? (fuel + 1) (quote text ++ more) = some ([item], rest) := by
  rw [quote, List.cons_append] at hread ⊢
  generalize text.toList ++ ['"'] ++ more = cs at hread ⊢
  simp [readItems?, skipLayout, skipLayoutFrom, isBlank, hread, hmore]

/-- A text is read in front of a comma, and the texts behind the comma are read on. -/
theorem readItems?_next {rest : List Char} (hmore : more = ',' :: ' ' :: rest) :
    readItems? (fuel + 1) (quote text ++ more) =
      (readItems? fuel rest).map fun (items, rest) => (item :: items, rest) := by
  rw [quote, List.cons_append] at hread ⊢
  generalize text.toList ++ ['"'] ++ more = cs at hread ⊢
  rw [readItems?]
  simp [skipLayout, skipLayoutFrom, isBlank, hread, hmore, readItems?_blank]

end Items

/-- **A list of texts in quotes is read item by item**, in its order and with its repeats, up to the
closing bracket. -/
theorem readItems?_quoteAll {texts : List String} (h : ∀ text ∈ texts, Quotable text) (fuel : Nat)
    (hfuel : texts.length < fuel) (rest : List Char) :
    ∃ items, readItems? fuel (quoteAll texts ++ ']' :: rest) = some (items, rest) ∧
      List.Forall₂ IsText texts items := by
  induction texts generalizing fuel with
  | nil =>
    obtain ⟨fuel, rfl⟩ := Nat.exists_eq_add_of_lt hfuel
    exact ⟨[], rfl, .nil⟩
  | cons text texts ih =>
    obtain ⟨htext, htexts⟩ := List.forall_mem_cons.1 h
    obtain ⟨fuel, rfl⟩ : ∃ n, fuel = n + 2 := ⟨fuel - 2, by simp at hfuel; omega⟩
    cases texts with
    | nil =>
      obtain ⟨item, hread, hitem⟩ := readItem?_quote htext fuel (']' :: rest)
      refine ⟨[item], ?_, .cons hitem .nil⟩
      simpa [quoteAll] using readItems?_last hread rfl
    | cons next texts =>
      obtain ⟨items, hreadItems, hitems⟩ := ih htexts (fuel + 1) (by simp at hfuel ⊢; omega)
      obtain ⟨item, hread, hitem⟩ :=
        readItem?_quote htext fuel (',' :: ' ' :: (quoteAll (next :: texts) ++ ']' :: rest))
      have hnext := readItems?_next hread rfl
      rw [hreadItems] at hnext
      refine ⟨item :: items, ?_, .cons hitem hitems⟩
      simpa [quoteAll] using hnext

/-! ## Values -/

/-- **A value that is read up to the end of its line** as an item with the given meaning. -/
def ReadsAs (value : List Char) (Means : Item → Prop) : Prop :=
  ∀ fuel rest, value.length < fuel →
    ∃ item, readItem? fuel (skipBlanks (value ++ '\n' :: rest)) = some (item, '\n' :: rest) ∧
      Means item

/-- Whether an item is a given truth value, wherever it stands. -/
def IsTruth (b : Bool) (item : Item) : Prop := ∃ span, item = .boolean span b

/-- Whether an item is a list of given texts, wherever it and they stand. -/
def IsTexts (texts : List String) (item : Item) : Prop :=
  ∃ span items, item = .array span items ∧ List.Forall₂ IsText texts items

/-- A truth value is read as itself. -/
theorem readsAs_truth (b : Bool) : ReadsAs (toString b).toList (IsTruth b) := by
  intro fuel rest hfuel
  obtain ⟨fuel, rfl⟩ := Nat.exists_eq_add_of_lt hfuel
  refine ⟨.boolean (.between ((toString b).toList ++ '\n' :: rest) ('\n' :: rest)) b, ?_, _, rfl⟩
  cases b
  · rw [show (toString false).toList = ['f', 'a', 'l', 's', 'e'] by rfl]
    simp [skipBlanks, isBlank, readItem?, readScalar?, splitWord, isWordChar, scalar?,
      Scalar.toItem]
  · rw [show (toString true).toList = ['t', 'r', 'u', 'e'] by rfl]
    simp [skipBlanks, isBlank, readItem?, readScalar?, splitWord, isWordChar, scalar?,
      Scalar.toItem]

/-- A list of texts in brackets is read as the list of these texts. -/
theorem readsAs_texts {texts : List String} (h : ∀ text ∈ texts, Quotable text) :
    ReadsAs ('[' :: (quoteAll texts ++ [']'])) (IsTexts texts) := by
  intro fuel rest hfuel
  simp only [List.length_cons, List.length_append, List.length_nil] at hfuel
  have hlength := length_le_length_quoteAll texts
  obtain ⟨fuel, rfl⟩ : ∃ n, fuel = n + 1 := ⟨fuel - 1, by omega⟩
  obtain ⟨items, hread, hitems⟩ := readItems?_quoteAll h fuel (by omega) ('\n' :: rest)
  refine ⟨.array (.between ('[' :: (quoteAll texts ++ ']' :: '\n' :: rest)) ('\n' :: rest)) items,
    ?_, _, _, rfl, hitems⟩
  rw [List.cons_append, List.append_assoc, List.singleton_append, skipBlanks_cons (by decide)]
  simp [readItem?, hread]

/-! ## Keys -/

/-- **A key that can be written without quotes.** -/
structure Bare (name : String) : Prop where
  /-- It is not empty. -/
  ne_nil : name.toList ≠ []
  /-- All its characters may stand in such a key. -/
  bare : ∀ c ∈ name.toList, isBareKeyChar c = true

/-- A character of a key without quotes differs from all that cannot stand in one. -/
theorem ne_of_isBareKeyChar {c d : Char} (h : isBareKeyChar c = true)
    (hd : isBareKeyChar d = false) : c ≠ d := by
  rintro rfl
  rw [h] at hd
  cases hd

/-- A character of a key without quotes is no blank. -/
theorem isBlank_of_isBareKeyChar {c : Char} (h : isBareKeyChar c = true) : isBlank c = false := by
  simp [isBlank, ne_of_isBareKeyChar h (d := ' ') (by decide),
    ne_of_isBareKeyChar h (d := '\t') (by decide)]

/-- **A key without quotes is read up to the equals sign.** -/
theorem readKeys?_bare {name : String} (h : Bare name) (rest : List Char) :
    ∃ span, readKeys? (name.toList ++ ' ' :: '=' :: rest) =
      some ([⟨name, span⟩], '=' :: rest) := by
  have htake : (name.toList ++ ' ' :: '=' :: rest).takeWhile isBareKeyChar = name.toList := by
    rw [List.takeWhile_append_of_pos h.bare]
    simp [isBareKeyChar]
  have hdrop :
      (name.toList ++ ' ' :: '=' :: rest).dropWhile isBareKeyChar = ' ' :: '=' :: rest := by
    rw [List.dropWhile_append_of_pos h.bare]
    simp [isBareKeyChar]
  obtain ⟨c, cs, hcs⟩ := List.exists_cons_of_ne_nil h.ne_nil
  have hc : isBareKeyChar c = true := h.bare c (by simp [hcs])
  have hpart : readKeyPart? (name.toList ++ ' ' :: '=' :: rest) =
      some (name.toList, ' ' :: '=' :: rest) := by
    rw [hcs, List.cons_append] at htake hdrop ⊢
    rw [readKeyPart?, htake, hdrop]
    · exact fun r hr => ne_of_isBareKeyChar hc (by decide) (List.cons.inj hr).1
    · exact fun r hr => ne_of_isBareKeyChar hc (by decide) (List.cons.inj hr).1
  have hskip : skipBlanks (name.toList ++ ' ' :: '=' :: rest) =
      name.toList ++ ' ' :: '=' :: rest := by
    rw [hcs, List.cons_append, skipBlanks_cons (isBlank_of_isBareKeyChar hc)]
  refine ⟨.between (name.toList ++ ' ' :: '=' :: rest) (' ' :: '=' :: rest), ?_⟩
  rw [readKeys?, readKeyParts?]
  simp [hskip, hpart, skipBlanks_blank, skipBlanks_cons (c := '=') (by decide)]

/-! ## Documents -/

/-- **A line that gives a key its value**, with what the value is read as. -/
structure Assignment where
  /-- The key. -/
  name : String
  /-- The value, as it is written. -/
  value : List Char
  /-- The items that the value may be read as. -/
  Means : Item → Prop
  /-- The key needs no quotes. -/
  bare : Bare name
  /-- The value is read as one of the items. -/
  readsAs : ReadsAs value Means

namespace Assignment

variable (l : Assignment)

/-- The text of a line. -/
def text : List Char := l.name.toList ++ ' ' :: '=' :: ' ' :: (l.value ++ ['\n'])

/-- Whether an entry of a document is what a line says. -/
def Gives (entry : Key × Item) : Prop := entry.1.name = l.name ∧ l.Means entry.2

/-- A line starts at a character of its key. -/
theorem exists_text_eq_cons : ∃ c cs, l.text = c :: cs ∧ isBareKeyChar c = true := by
  obtain ⟨c, cs, hcs⟩ := List.exists_cons_of_ne_nil l.bare.ne_nil
  exact ⟨c, _, by rw [text, hcs, List.cons_append], l.bare.bare c (by simp [hcs])⟩

/-- A line is read as its key and its value, up to its end. -/
theorem readAssignment?_text (rest : List Char) :
    ∃ entry, readAssignment? (l.text ++ rest) = some (([entry.1], entry.2), '\n' :: rest) ∧
      l.Gives entry := by
  obtain ⟨span, hkey⟩ := readKeys?_bare l.bare (' ' :: (l.value ++ '\n' :: rest))
  have htext : l.text ++ rest =
      l.name.toList ++ ' ' :: '=' :: ' ' :: (l.value ++ '\n' :: rest) := by simp [text]
  obtain ⟨item, hitem, hmeans⟩ := l.readsAs (2 * (l.text ++ rest).length + 2) rest (by
    simp only [htext, List.length_append, List.length_cons]; omega)
  refine ⟨(⟨l.name, span⟩, item), ?_, rfl, hmeans⟩
  rw [htext] at hitem ⊢
  rw [readAssignment?, hkey]
  simp only [Option.bind_eq_bind, Option.bind_some, skipBlanks_blank, hitem]

end Assignment

/-- A value under a new name comes last. -/
theorem addAt?_singleton {entries : Entries} {k : Key} (h : find? entries k.name = none)
    (item : Item) : addAt? [k] item entries = some (entries ++ [(k, item)]) := by
  simp [addAt?, changeAt?, addNew?, h]

/-- **One step of reading a document**: a line with a new key adds its entry. -/
theorem readLines?_assignment (l : Assignment) {entries : Entries}
    (hnew : find? entries l.name = none) (fuel : Nat) (rest : List Char) :
    ∃ entry, l.Gives entry ∧
      readLines? (fuel + 1) ⟨[], none, entries⟩ (l.text ++ rest) =
        readLines? fuel ⟨[], none, entries ++ [entry]⟩ rest := by
  obtain ⟨entry, hread, hgives⟩ := l.readAssignment?_text rest
  obtain ⟨c, cs, hcs, hc⟩ := l.exists_text_eq_cons
  have hskip : skipBlanks (l.text ++ rest) = l.text ++ rest := by
    rw [hcs, List.cons_append, skipBlanks_cons (isBlank_of_isBareKeyChar hc)]
  have hadd : addAt? [entry.1] entry.2 entries = some (entries ++ [entry]) :=
    addAt?_singleton (hgives.1 ▸ hnew) entry.2
  refine ⟨entry, hgives, ?_⟩
  rw [readLines?, hskip]
  rw [hcs, List.cons_append] at hread ⊢
  -- No character of a key opens a comment, a header or an empty line.
  have hcomment : c ≠ '#' := ne_of_isBareKeyChar hc (by decide)
  have hlineFeed : c ≠ '\n' := ne_of_isBareKeyChar hc (by decide)
  have hreturn : c ≠ '\r' := ne_of_isBareKeyChar hc (by decide)
  have hheader : c ≠ '[' := ne_of_isBareKeyChar hc (by decide)
  simp [hcomment, hlineFeed, hreturn, hheader, hread, Assembly.add?, hadd, endOfLine?_lineFeed]

/-- An entry under another name leaves a name new. -/
theorem find?_append_of_ne {entries : Entries} {name : String} {entry : Key × Item}
    (h : find? entries name = none) (hne : entry.1.name ≠ name) :
    find? (entries ++ [entry]) name = none := by
  simp only [find?, Option.map_eq_none_iff] at h ⊢
  simp [List.find?_append, h, hne]

/-- **A run of the reader over a document of lines with different keys** gives one entry for every
line, in the order of the lines.

**Proof sketch.** Induction on the lines; one step adds the entry of the first line, and as the keys
differ, those of the other lines are still new. -/
theorem readLines?_assignments {lines : List Assignment}
    (hnames : (lines.map (·.name)).Nodup) (before : Entries)
    (hnew : ∀ l ∈ lines, find? before l.name = none) (fuel : Nat) (hfuel : lines.length < fuel) :
    ∃ entries, List.Forall₂ Assignment.Gives lines entries ∧
      readLines? fuel ⟨[], none, before⟩ (lines.flatMap Assignment.text) =
        some ⟨[], none, before ++ entries⟩ := by
  induction lines generalizing before fuel with
  | nil =>
    obtain ⟨fuel, rfl⟩ := Nat.exists_eq_add_of_lt hfuel
    exact ⟨[], .nil, by simp [readLines?, skipBlanks]⟩
  | cons l lines ih =>
    obtain ⟨hl, hlines⟩ := List.forall_mem_cons.1 hnew
    rw [List.map_cons, List.nodup_cons] at hnames
    obtain ⟨fuel, rfl⟩ : ∃ n, fuel = n + 1 := ⟨fuel - 1, by omega⟩
    obtain ⟨entry, hgives, hstep⟩ :=
      readLines?_assignment l hl fuel (lines.flatMap Assignment.text)
    have hstill : ∀ l' ∈ lines, find? (before ++ [entry]) l'.name = none := fun l' hl' =>
      find?_append_of_ne (hlines l' hl') fun heq =>
        hnames.1 (List.mem_map.2 ⟨l', hl', by rw [← heq, hgives.1]⟩)
    obtain ⟨entries, hentries, hrun⟩ := ih hnames.2 _ hstill fuel (by simpa using hfuel)
    refine ⟨entry :: entries, .cons hgives hentries, ?_⟩
    rw [List.flatMap_cons, hstep, hrun, List.append_assoc, List.singleton_append]

/-- There are at least as many characters as lines. -/
theorem length_le_length_flatMap_text (lines : List Assignment) :
    lines.length ≤ (lines.flatMap Assignment.text).length := by
  induction lines with
  | nil => exact Nat.zero_le _
  | cons l lines ih =>
    simp only [List.flatMap_cons, List.length_append, List.length_cons, Assignment.text]
    omega

/-- The mark that may stand before a document is no part of a key. -/
theorem skipMark_flatMap_text (lines : List Assignment) :
    skipMark (lines.flatMap Assignment.text) = lines.flatMap Assignment.text := by
  cases lines with
  | nil => rfl
  | cons l lines =>
    obtain ⟨c, cs, hcs, hc⟩ := l.exists_text_eq_cons
    rw [List.flatMap_cons, hcs, List.cons_append, skipMark]
    exact fun r hr => ne_of_isBareKeyChar hc (by decide) (List.cons.inj hr).1

/-- **A document of lines with different keys is read line by line.** -/
theorem parse?_assignments {lines : List Assignment} (hnames : (lines.map (·.name)).Nodup) :
    ∃ entries, parse? (String.ofList (lines.flatMap Assignment.text)) = some entries ∧
      List.Forall₂ Assignment.Gives lines entries := by
  have hlength := length_le_length_flatMap_text lines
  obtain ⟨entries, hentries, hrun⟩ := readLines?_assignments hnames [] (fun _ _ => rfl)
    ((lines.flatMap Assignment.text).length + 1) (by omega)
  refine ⟨entries, ?_, hentries⟩
  rw [parse?, String.toList_ofList, skipMark_flatMap_text]
  simp only [Assembly.start, hrun, Option.bind_some, Assembly.close?, List.nil_append]

/-- The keys of a document are those of its lines. -/
theorem map_name_eq_of_gives {lines : List Assignment} {entries : Entries}
    (h : List.Forall₂ Assignment.Gives lines entries) :
    entries.map (·.1.name) = lines.map (·.name) := by
  induction h with
  | nil => rfl
  | cons hentry _ ih => rw [List.map_cons, List.map_cons, ih, hentry.1]

end Toml

namespace Config

open Toml (Assignment Entries Item)

/-- The name of a kind can be written in quotes as it is. -/
theorem quotable_label (k : Kind) : Toml.Quotable k.label := by
  cases k <;> exact ⟨by decide, List.all_eq_true.1 (by decide)⟩

/-- **A kind is told by its name.** -/
theorem read_label (k : Kind) : Kind.read k.label = .ok k := by
  cases k <;> rfl

/-- The line that says whether kinds are compared at the same time. -/
def parallelLine (b : Bool) : Assignment where
  name := "parallel"
  value := (toString b).toList
  Means := Toml.IsTruth b
  bare := ⟨by decide, List.all_eq_true.1 (by decide)⟩
  readsAs := Toml.readsAs_truth b

/-- The line of the kinds to compare. -/
def kindsLine (kinds : List Kind) : Assignment where
  name := "kinds"
  value := '[' :: (Toml.quoteAll (kinds.map Kind.label) ++ [']'])
  Means := Toml.IsTexts (kinds.map Kind.label)
  bare := ⟨by decide, List.all_eq_true.1 (by decide)⟩
  readsAs := Toml.readsAs_texts fun _ htext => by
    obtain ⟨k, -, rfl⟩ := List.mem_map.1 htext
    exact quotable_label k

/-- **The lines of a configuration.** -/
def assignments (c : Config) : List Assignment :=
  (c.parallel.map parallelLine).toList ++ [kindsLine c.kinds]

/-- The kinds as listed, each in quotes and with commas between them. -/
theorem toList_intercalate_quotedKind (kinds : List Kind) :
    (", ".intercalate (kinds.map quotedKind)).toList = Toml.quoteAll (kinds.map Kind.label) := by
  have hquote : ∀ k : Kind, (quotedKind k).toList = Toml.quote k.label := fun k => by
    simp [quotedKind, Toml.quote]
  simp [String.toList_intercalate, Toml.quoteAll, Function.comp_def, hquote]

/-- The text of the line of the kinds. -/
theorem ofList_kindsLine (kinds : List Kind) :
    String.ofList (kindsLine kinds).text =
      "kinds = [" ++ ", ".intercalate (kinds.map quotedKind) ++ "]\n" := by
  rw [← String.toList_inj, String.toList_append, String.toList_append,
    toList_intercalate_quotedKind, String.toList_ofList]
  simp [Assignment.text, kindsLine]

/-- **The text of a configuration is the text of its lines.** -/
theorem toToml_eq_assignments (c : Config) :
    c.toToml = String.ofList (c.assignments.flatMap Assignment.text) := by
  obtain ⟨parallel, kinds⟩ := c
  cases parallel with
  | none => simp [toToml, assignments, ofList_kindsLine]
  | some b =>
    have htext : toToml ⟨some b, kinds⟩ = String.ofList (parallelLine b).text ++ "kinds = [" ++
        ", ".intercalate (kinds.map quotedKind) ++ "]\n" := by cases b <;> rfl
    simp [htext, assignments, ofList_kindsLine, String.append_assoc]

example : toToml ⟨some false, [.test, .data, .test]⟩ =
    "parallel = false\nkinds = [\"Test\", \"Data\", \"Test\"]\n" := by rfl

/-! ## Configurations read back -/

section Entries

variable (c : Config) {entry : Toml.Key × Item}

/-- The first line says whether kinds are compared at the same time. -/
theorem set_parallelLine {b : Bool} (h : (parallelLine b).Gives entry) :
    set c entry = .ok { c with parallel := some b } := by
  obtain ⟨⟨name, span⟩, item⟩ := entry
  obtain ⟨rfl, itemSpan, rfl⟩ := h
  rfl

/-- The line of the kinds says which kinds are compared, in their order and with their repeats. -/
theorem set_kindsLine {kinds : List Kind} (h : (kindsLine kinds).Gives entry) :
    set c entry = .ok { c with kinds := kinds } := by
  obtain ⟨⟨name, span⟩, item⟩ := entry
  obtain ⟨rfl, itemSpan, items, rfl, hitems⟩ := h
  have hkinds : items.mapM (kindOfItem itemSpan) = .ok kinds := by
    refine mapM_eq_ok_iff.2 (List.Forall₂.flip ?_)
    refine (List.forall₂_map_left_iff.1 hitems).imp fun k item hitem => ?_
    obtain ⟨span, rfl⟩ := hitem
    rw [flip, kindOfItem, kindOfName, read_label]
  have hset : set c (⟨(kindsLine kinds).name, span⟩, .array itemSpan items) =
      (return { c with kinds := ← items.mapM (kindOfItem itemSpan) }) := rfl
  rw [hset, hkinds]
  rfl

end Entries

/-- **The entries of a configuration give it back.** -/
theorem ofEntries_assignments (c : Config) {entries : Entries}
    (h : List.Forall₂ Assignment.Gives c.assignments entries) : ofEntries entries = .ok c := by
  obtain ⟨parallel, kinds⟩ := c
  cases parallel with
  | none =>
    obtain ⟨entry, _, hentry, hnil, rfl⟩ := List.forall₂_cons_left_iff.1 h
    obtain rfl := List.forall₂_nil_left_iff.1 hnil
    rw [ofEntries, List.foldlM_cons, set_kindsLine {} hentry]
    rfl
  | some b =>
    obtain ⟨first, _, hfirst, hrest, rfl⟩ := List.forall₂_cons_left_iff.1 h
    obtain ⟨entry, _, hentry, hnil, rfl⟩ := List.forall₂_cons_left_iff.1 hrest
    obtain rfl := List.forall₂_nil_left_iff.1 hnil
    rw [ofEntries, List.foldlM_cons, set_parallelLine {} hfirst]
    change List.foldlM set { parallel := some b } [entry] = _
    rw [List.foldlM_cons, set_kindsLine _ hentry]
    rfl

/-- The keys of a configuration: the first one is written just when it is said whether kinds are
compared at the same time. -/
theorem map_name_assignments (c : Config) :
    c.assignments.map (·.name) =
      (if c.parallel.isSome then ["parallel"] else []) ++ ["kinds"] := by
  obtain ⟨_ | b, kinds⟩ := c <;> rfl

/-- **The text of a configuration is read as its lines.** -/
theorem parse?_toToml (c : Config) :
    ∃ entries, Toml.parse? c.toToml = some entries ∧
      List.Forall₂ Assignment.Gives c.assignments entries := by
  have hnames : (c.assignments.map (·.name)).Nodup := by
    rw [map_name_assignments]
    split <;> decide
  rw [toToml_eq_assignments]
  exact Toml.parse?_assignments hnames

/-- **TOML is a faithful encoding of a configuration.** The text of a configuration is a TOML
document, in which the key `parallel` stands just when it is said whether kinds are compared at the
same time. Read as a configuration, the text gives back the configuration that it was written for,
with the kinds in their order and with their repeats. So two configurations have the same text
exactly if they are equal. -/
theorem toToml_faithful (c : Config) :
    ofToml c.toToml = .ok c ∧
      (∀ d : Config, c.toToml = d.toToml ↔ c = d) ∧
      ∃ entries, Toml.parse? c.toToml = some entries ∧
        entries.map (·.1.name) = (if c.parallel.isSome then ["parallel"] else []) ++ ["kinds"] := by
  have hread : ∀ c : Config, ofToml c.toToml = .ok c := fun c => by
    obtain ⟨entries, hparse, hentries⟩ := parse?_toToml c
    rw [ofToml, hparse]
    simp only [ofEntries_assignments c hentries]
  obtain ⟨entries, hparse, hentries⟩ := parse?_toToml c
  refine ⟨hread c, fun d => ⟨fun htext => ?_, congrArg toToml⟩, entries, hparse, ?_⟩
  · have hd := hread d
    rw [← htext, hread c] at hd
    exact Except.ok.inj hd
  · rw [← map_name_assignments]
    exact Toml.map_name_eq_of_gives hentries

end Config

end ReleaseDiff

import ReleaseDiff.Report.Json

set_option autoImplicit false

/-!
# Reports read back from their JSON text

The reader undoes the printer. A character that the printer escapes is read as that character, a
text in quotes ends at its own closing quote, and the blanks, commas and colons that the printer
puts between values are skipped and never read as part of one. Numbers are left out, as no report
holds one.

## Main definitions

* `ReleaseDiff.Json.Fits` — a value without numbers that needs at most so many levels.
* `ReleaseDiff.Json.ReadsBack` — a value that is read from its own text, whatever follows.

## Main results

* `ReleaseDiff.Json.readQuoted?_escapeChar` — an escaped character is read as that character.
* `ReleaseDiff.Json.Fits.readsBack` — every value without numbers is read back.
* `ReleaseDiff.Json.parse?_pretty` — a document is read back from its text.
* `ReleaseDiff.Report.jsonText_faithful` — JSON is a faithful encoding of a report.

## Implementation notes

The reader counts its steps. One step is spent on an opening bracket, an opening brace, a comma or
the first character of a value, so as many steps as the text of a value has characters are enough to
read it.
-/

namespace ReleaseDiff

namespace Json

/-! ## Blanks -/

/-- A new line is skipped with its blanks. -/
@[simp] theorem skipBlanks_newLine (level : Nat) (cs : List Char) :
    skipBlanks (newLine level ++ cs) = skipBlanks cs := by
  have hblanks : ∀ n, skipBlanks (List.replicate n ' ' ++ cs) = skipBlanks cs := by
    intro n
    induction n with
    | zero => rfl
    | succ n ih => exact ih
  exact hblanks (2 * level)

/-- A text that starts with no blank has none to skip. -/
theorem skipBlanks_cons {c : Char} (h : isBlank c = false) (cs : List Char) :
    skipBlanks (c :: cs) = c :: cs := by
  rw [skipBlanks, List.dropWhile_cons_of_neg (by simp [h])]

@[simp] theorem length_newLine (level : Nat) : (newLine level).length = 2 * level + 1 := by
  simp [newLine]

/-! ## Texts in quotes -/

/-- The number of two escaped digits. -/
theorem hexUnit?_hexDigit : ∀ n < 32,
    hexUnit? '0' '0' (hexDigit (n / 16)) (hexDigit (n % 16)) = some n := by decide

/-- **An escaped character is read as that character.** -/
theorem readQuoted?_escapeChar (c : Char) (rest : List Char) :
    readQuoted? (escapeChar c ++ rest) = (readQuoted? rest).map (consRead c) := by
  -- The cases of the printer: seven short escapes, the other control characters, all the rest.
  by_cases hquote : c = '"'
  · subst c; simp [escapeChar, readQuoted?, shortEscape?]
  by_cases hbackslash : c = '\\'
  · subst c; simp [escapeChar, readQuoted?, shortEscape?]
  by_cases hbackspace : c = '\x08'
  · subst c; simp [escapeChar, readQuoted?, shortEscape?]
  by_cases hformFeed : c = '\x0c'
  · subst c; simp [escapeChar, readQuoted?, shortEscape?]
  by_cases hlineFeed : c = '\n'
  · subst c; simp [escapeChar, readQuoted?, shortEscape?]
  by_cases hreturn : c = '\r'
  · subst c; simp [escapeChar, readQuoted?, shortEscape?]
  by_cases htab : c = '\t'
  · subst c; simp [escapeChar, readQuoted?, shortEscape?]
  simp only [escapeChar, hquote, hbackslash, hbackspace, hformFeed, hlineFeed, hreturn, htab,
    if_false]
  by_cases hcontrol : c.toNat < 0x20
  · have hunit := hexUnit?_hexDigit c.toNat hcontrol
    -- Below the blank no unit is half of a pair, so the reader takes it as a character.
    have hhigh : isHighHalf c.toNat = false := by simp [isHighHalf]; omega
    have hlow : isLowHalf c.toNat = false := by simp [isLowHalf]; omega
    rw [if_pos hcontrol]
    simp only [List.cons_append, List.nil_append]
    rw [readQuoted?]
    simp [hunit, hhigh, hlow]
  · rw [if_neg hcontrol, List.singleton_append, readQuoted?]
    · rw [if_neg hcontrol]
    · exact hquote
    · intro a b c' d rest' hc
      exact absurd hc hbackslash
    · intro e rest' hc
      exact absurd hc hbackslash

/-- **A text in quotes is read up to its closing quote.** -/
theorem readQuoted?_quote (cs rest : List Char) :
    readQuoted? (cs.flatMap escapeChar ++ '"' :: rest) = some (cs, rest) := by
  induction cs with
  | nil => simp [readQuoted?]
  | cons c cs ih =>
    rw [List.flatMap_cons, List.append_assoc, readQuoted?_escapeChar, ih]
    rfl

example : "say \"hi\"\n\x00😀".toList.flatMap escapeChar =
    "say \\\"hi\\\"\\n\\u0000😀".toList := by decide

/-! ## Values -/

/-- **A value without numbers that needs at most so many levels.** -/
inductive Fits : Nat → Json → Prop where
  | null (levels : Nat) : Fits levels .null
  | bool (levels : Nat) (value : Bool) : Fits levels (.bool value)
  | string (levels : Nat) (text : String) : Fits levels (.string text)
  | array (levels : Nat) (items : List Json) (h : ∀ item ∈ items, Fits levels item) :
    Fits (levels + 1) (.array items)
  | object (levels : Nat) (fields : List (String × Json)) (h : ∀ f ∈ fields, Fits levels f.2) :
    Fits (levels + 1) (.object fields)

/-- A value is written without a blank or a closing bracket in front. -/
theorem exists_render_eq_cons {levels : Nat} {j : Json} (h : Fits levels j) (level : Nat) :
    ∃ c cs, render level j = c :: cs ∧ isBlank c = false ∧ c ≠ ']' := by
  cases h with
  | null => exact ⟨_, _, by rw [render]; rfl, by decide, by decide⟩
  | bool _ value =>
    cases value
    · exact ⟨_, _, by rw [render]; rfl, by decide, by decide⟩
    · exact ⟨_, _, by rw [render]; rfl, by decide, by decide⟩
  | string _ text => exact ⟨_, _, by rw [render]; rfl, by decide, by decide⟩
  | array _ items =>
    cases items with
    | nil => exact ⟨_, _, by rw [render], by decide, by decide⟩
    | cons item rest => exact ⟨'[', _, by rw [render]; rfl, by decide, by decide⟩
  | object _ fields =>
    cases fields with
    | nil => exact ⟨_, _, by rw [render], by decide, by decide⟩
    | cons f rest => exact ⟨'{', _, by rw [render]; rfl, by decide, by decide⟩

/-! ## Reading values -/

section Reading

variable {levels : Nat}

/-- Blanks in front of a value are skipped. -/
theorem readValue?_newLine (fuel levels level : Nat) (cs : List Char) :
    readValue? fuel levels (newLine level ++ cs) = readValue? fuel levels cs := by
  cases fuel with
  | zero => rfl
  | succ fuel => rw [readValue?, readValue?, skipBlanks_newLine]

theorem readItems?_newLine (fuel levels level : Nat) (cs : List Char) :
    readItems? fuel levels (newLine level ++ cs) = readItems? fuel levels cs := by
  cases fuel with
  | zero => rfl
  | succ fuel => rw [readItems?, readItems?, readValue?_newLine]

theorem readFields?_newLine (fuel levels level : Nat) (cs : List Char) :
    readFields? fuel levels (newLine level ++ cs) = readFields? fuel levels cs := by
  cases fuel with
  | zero => rfl
  | succ fuel => rw [readFields?, readFields?, skipBlanks_newLine]

/-- **A value can be read back** from its text, whatever follows the text, if as many steps are
allowed as the text has characters. -/
def ReadsBack (levels : Nat) (j : Json) : Prop :=
  ∀ level fuel rest, (render level j).length ≤ fuel →
    readValue? fuel levels (render level j ++ rest) = some (j, rest)

/-- The items of an array are read back if each of them is. -/
theorem readItems?_render {item : Json} {items : List Json}
    (hitem : ReadsBack levels item) (hitems : ∀ j ∈ items, ReadsBack levels j)
    (level outer fuel : Nat) (rest : List Char)
    (hfuel : (render level item ++ renderItems level items).length < fuel) :
    readItems? fuel levels (render level item ++ (renderItems level items ++
        (newLine outer ++ ']' :: rest))) = some (item :: items, rest) := by
  induction items generalizing item fuel with
  | nil =>
    cases fuel with
    | zero => exact absurd hfuel (Nat.not_lt_zero _)
    | succ fuel =>
      have hread := hitem level fuel (newLine outer ++ ']' :: rest) (by
        simp only [renderItems, List.append_nil] at hfuel; omega)
      rw [readItems?, renderItems, List.nil_append, hread]
      simp [skipBlanks_cons (c := ']') (by decide)]
  | cons next items ih =>
    obtain ⟨hnext, hitems⟩ := List.forall_mem_cons.1 hitems
    cases fuel with
    | zero => exact absurd hfuel (Nat.not_lt_zero _)
    | succ fuel =>
      simp only [renderItems, List.length_append, List.length_cons, length_newLine] at hfuel
      have hread := hitem level fuel (renderItems level (next :: items) ++
        (newLine outer ++ ']' :: rest)) (by omega)
      have hmore := ih hnext hitems fuel (by simp only [List.length_append]; omega)
      rw [readItems?, hread]
      simp [renderItems, skipBlanks_cons (c := ',') (by decide), readItems?_newLine, hmore]

/-- An array with items is opened by a bracket. -/
theorem readValue?_openArray {c : Char} (hblank : isBlank c = false) (hclose : c ≠ ']')
    (fuel levels level : Nat) (cs : List Char) :
    readValue? (fuel + 1) (levels + 1) ('[' :: (newLine level ++ c :: cs)) =
      (readItems? fuel levels (c :: cs)).map fun (vs, rest) => (array vs, rest) := by
  rw [readValue?, skipBlanks_cons (by decide)]
  simp only [Nat.add_one_ne_zero, if_false, skipBlanks_newLine, skipBlanks_cons hblank]
  split
  · rename_i heq
    exact absurd (List.cons.inj heq).1 hclose
  · rfl

/-- An object with fields is opened by a brace. -/
theorem readValue?_openObject (fuel levels level : Nat) (cs : List Char) :
    readValue? (fuel + 1) (levels + 1) ('{' :: (newLine level ++ '"' :: cs)) =
      (readFields? fuel levels ('"' :: cs)).map fun (fs, rest) => (object fs, rest) := by
  rw [readValue?, skipBlanks_cons (by decide)]
  simp only [Nat.add_one_ne_zero, if_false, skipBlanks_newLine,
    skipBlanks_cons (c := '"') (by decide)]
  rfl

/-- The blank behind a colon is skipped. -/
theorem readValue?_blank (fuel levels : Nat) (cs : List Char) :
    readValue? fuel levels (' ' :: cs) = readValue? fuel levels cs := by
  cases fuel with
  | zero => rfl
  | succ fuel => rw [readValue?, readValue?]; rfl

section Field

variable {fuel : Nat} {cs more : List Char} {value : Json} (name : String)
  (hvalue : readValue? fuel levels cs = some (value, more))

include hvalue

/-- A field in front of the closing brace is read with its value. -/
theorem readFields?_last {rest : List Char} (hmore : skipBlanks more = '}' :: rest) :
    readFields? (fuel + 1) levels (quote name ++ (':' :: ' ' :: cs)) =
      some ([(name, value)], rest) := by
  have hname := readQuoted?_quote name.toList (':' :: ' ' :: cs)
  rw [readFields?, quote]
  simp [skipBlanks_cons (c := '"') (by decide), skipBlanks_cons (c := ':') (by decide), hname,
    readValue?_blank, hvalue, hmore]

/-- A field in front of a comma is read with its value, and the fields behind it are read on. -/
theorem readFields?_next {rest : List Char} (hmore : skipBlanks more = ',' :: rest) :
    readFields? (fuel + 1) levels (quote name ++ (':' :: ' ' :: cs)) =
      (readFields? fuel levels rest).map fun (fs, rest) => ((name, value) :: fs, rest) := by
  have hname := readQuoted?_quote name.toList (':' :: ' ' :: cs)
  rw [readFields?, quote]
  simp [skipBlanks_cons (c := '"') (by decide), skipBlanks_cons (c := ':') (by decide), hname,
    readValue?_blank, hvalue, hmore]

end Field

/-- The fields of an object are read back if each of their values is. -/
theorem readFields?_render (name : String) {value : Json} {fields : List (String × Json)}
    (hvalue : ReadsBack levels value) (hfields : ∀ f ∈ fields, ReadsBack levels f.2)
    (level outer fuel : Nat) (rest : List Char)
    (hfuel : (render level value ++ renderFields level fields).length < fuel) :
    readFields? fuel levels (quote name ++ (':' :: ' ' :: (render level value ++
        (renderFields level fields ++ (newLine outer ++ '}' :: rest))))) =
      some ((name, value) :: fields, rest) := by
  induction fields generalizing name value fuel with
  | nil =>
    cases fuel with
    | zero => exact absurd hfuel (Nat.not_lt_zero _)
    | succ fuel =>
      have hread := hvalue level fuel (newLine outer ++ '}' :: rest) (by
        simp only [renderFields, List.append_nil] at hfuel; omega)
      have hclose : skipBlanks (newLine outer ++ '}' :: rest) = '}' :: rest := by
        rw [skipBlanks_newLine, skipBlanks_cons (by decide)]
      rw [renderFields, List.nil_append, readFields?_last name hread hclose]
  | cons next fields ih =>
    obtain ⟨nextName, nextValue⟩ := next
    obtain ⟨hnext, hfields⟩ := List.forall_mem_cons.1 hfields
    cases fuel with
    | zero => exact absurd hfuel (Nat.not_lt_zero _)
    | succ fuel =>
      simp only [renderFields, List.length_append, List.length_cons, length_newLine] at hfuel
      have hread := hvalue level fuel (renderFields level ((nextName, nextValue) :: fields) ++
        (newLine outer ++ '}' :: rest)) (by omega)
      have hmore := ih nextName hnext hfields fuel (by
        simp only [List.length_append]; omega)
      have hcomma : skipBlanks (renderFields level ((nextName, nextValue) :: fields) ++
            (newLine outer ++ '}' :: rest)) =
          ',' :: (newLine level ++ (quote nextName ++ (':' :: ' ' :: (render level nextValue ++
            (renderFields level fields ++ (newLine outer ++ '}' :: rest)))))) := by
        simp [renderFields, skipBlanks_cons (c := ',') (by decide)]
      rw [readFields?_next name hread hcomma, readFields?_newLine, hmore]
      rfl

end Reading

/-- A value is read back if it is with at least one step, since its text is not empty. -/
theorem readsBack_of_succ {levels : Nat} {j : Json} (hfits : Fits levels j)
    (h : ∀ level fuel rest, (render level j).length ≤ fuel + 1 →
      readValue? (fuel + 1) levels (render level j ++ rest) = some (j, rest)) :
    ReadsBack levels j := by
  intro level fuel rest hfuel
  cases fuel with
  | zero =>
    obtain ⟨c, cs, hcs, -⟩ := exists_render_eq_cons hfits level
    rw [hcs] at hfuel
    exact absurd hfuel (Nat.not_succ_le_zero _)
  | succ fuel => exact h level fuel rest hfuel

/-- **Every value without numbers is read back from its text**, if as many levels are allowed as it
needs. -/
theorem Fits.readsBack {levels : Nat} {j : Json} (h : Fits levels j) : ReadsBack levels j := by
  -- Over the value: what an array or an object holds is read back by the induction hypothesis.
  induction h with
  | null levels =>
    refine readsBack_of_succ (.null levels) fun level fuel rest _ => ?_
    rw [render]
    rfl
  | bool levels value =>
    refine readsBack_of_succ (.bool levels value) fun level fuel rest _ => ?_
    cases value
    · rw [render]
      rfl
    · rw [render]
      rfl
  | string levels text =>
    refine readsBack_of_succ (.string levels text) fun level fuel rest _ => ?_
    rw [readValue?, render, quote]
    simp [skipBlanks_cons (c := '"') (by decide), readQuoted?_quote]
  | array levels items hitems ih =>
    refine readsBack_of_succ (.array levels items hitems) fun level fuel rest hfuel => ?_
    cases items with
    | nil =>
      rw [render]
      rfl
    | cons item items =>
      obtain ⟨hitem, hmore⟩ := List.forall_mem_cons.1 ih
      obtain ⟨c, cs, hcs, hblank, hbracket⟩ :=
        exists_render_eq_cons (hitems item List.mem_cons_self) (level + 1)
      have hlength : (render (level + 1) item ++ renderItems (level + 1) items).length < fuel := by
        simp only [render, List.length_append, List.length_cons, length_newLine,
          List.length_nil] at hfuel ⊢
        omega
      have hread := readItems?_render hitem hmore (level + 1) level fuel rest hlength
      simp only [render, hcs, List.cons_append, List.append_assoc, List.nil_append] at hread ⊢
      rw [readValue?_openArray hblank hbracket, hread]
      rfl
  | object levels fields hfields ih =>
    refine readsBack_of_succ (.object levels fields hfields) fun level fuel rest hfuel => ?_
    cases fields with
    | nil =>
      rw [render]
      rfl
    | cons field fields =>
      obtain ⟨name, value⟩ := field
      obtain ⟨(hvalue : ReadsBack levels value), hmore⟩ := List.forall_mem_cons.1 ih
      have hlength : (render (level + 1) value ++ renderFields (level + 1) fields).length
          < fuel := by
        simp only [render, List.length_append, List.length_cons, length_newLine,
          List.length_nil] at hfuel ⊢
        omega
      have hread := readFields?_render name hvalue hmore (level + 1) level fuel rest hlength
      simp only [render, quote, List.cons_append, List.append_assoc, List.nil_append] at hread ⊢
      rw [readValue?_openObject, hread]
      rfl

/-- A value that takes more levels fits where more are allowed. -/
theorem Fits.mono {m n : Nat} {j : Json} (h : Fits m j) (hmn : m ≤ n) : Fits n j := by
  induction h generalizing n with
  | null => exact .null n
  | bool _ value => exact .bool n value
  | string _ text => exact .string n text
  | array levels items _ ih =>
    obtain ⟨n, rfl⟩ : ∃ k, n = k + 1 := ⟨n - 1, by omega⟩
    exact .array n items fun item hitem => ih item hitem (Nat.le_of_succ_le_succ hmn)
  | object levels fields _ ih =>
    obtain ⟨n, rfl⟩ : ∃ k, n = k + 1 := ⟨n - 1, by omega⟩
    exact .object n fields fun f hf => ih f hf (Nat.le_of_succ_le_succ hmn)

/-- **A document is read back from its text.** -/
theorem parse?_pretty {j : Json} (h : Fits maxLevels j) : parse? j.pretty = some j := by
  have hread := h.readsBack 0 (2 * (render 0 j).length + 2) [] (by omega)
  rw [List.append_nil] at hread
  simp [parse?, pretty, hread, skipBlanks]

end Json

/-! ## Records and failures -/

/-- A record takes one level. -/
theorem Record.fits_toJson (r : Record) : Json.Fits 1 r.toJson := by
  refine .object 0 _ ?_
  simp only [List.forall_mem_cons]
  exact ⟨.string _ _, .string _ _, .string _ _, .string _ _, .string _ _, by simp⟩

/-- A failure takes one level. -/
theorem Failure.fits_toJson (f : Failure) : Json.Fits 1 f.toJson := by
  refine .object 0 _ ?_
  simp only [List.forall_mem_cons]
  exact ⟨.string _ _, .string _ _, .string _ _, .string _ _, by simp⟩

@[simp] theorem Kind.ofLabel?_label (k : Kind) : Kind.ofLabel? k.label = some k := by
  cases k <;> decide

@[simp] theorem Severity.ofLabel?_label (s : Severity) : Severity.ofLabel? s.label = some s := by
  cases s <;> decide

@[simp] theorem Side.ofLabel?_label (s : Side) : Side.ofLabel? s.label = some s := by
  cases s <;> decide

@[simp] theorem Verdict.ofLabel?_label (v : Verdict) : Verdict.ofLabel? v.label = some v := by
  match v with
  | none => decide
  | some .patch => decide
  | some .minor => decide
  | some .major => decide

/-- **A record is read back from its JSON value.** -/
@[simp] theorem Record.ofJson?_toJson (r : Record) : Record.ofJson? r.toJson = some r := by
  simp [Record.ofJson?, Record.toJson, Json.textField?, Json.field?, Json.text?]

/-- **A failure is read back from its JSON value.** -/
@[simp] theorem Failure.ofJson?_toJson (f : Failure) : Failure.ofJson? f.toJson = some f := by
  simp [Failure.ofJson?, Failure.toJson, Json.textField?, Json.field?, Json.text?]

/-! ## Reports -/

/-- What is written item by item is read back item by item. -/
theorem mapM_map_eq_some {α β : Type} {write : α → β} {read : β → Option α}
    (h : ∀ x, read (write x) = some x) (xs : List α) : (xs.map write).mapM read = some xs := by
  induction xs with
  | nil => rfl
  | cons x xs ih => rw [List.map_cons, List.mapM_cons, h, ih]; rfl

namespace Report

/-- A report takes three levels: its own, one for a list and one for what the list holds. -/
theorem fits_toJson (r : Report) : Json.Fits 3 r.toJson := by
  have hrecords : ∀ j ∈ r.records.map Record.toJson, Json.Fits 1 j := by
    intro j hj
    obtain ⟨x, -, rfl⟩ := List.mem_map.1 hj
    exact x.fits_toJson
  have hfailures : ∀ j ∈ r.failures.map Failure.toJson, Json.Fits 1 j := by
    intro j hj
    obtain ⟨f, -, rfl⟩ := List.mem_map.1 hj
    exact f.fits_toJson
  refine .object 2 _ ?_
  simp only [List.forall_mem_cons]
  exact ⟨.array 1 _ hrecords, .string _ _, .array 1 _ hfailures, by simp⟩

/-- **A report is read back from its JSON value.** -/
theorem ofJson?_toJson (r : Report) : ofJson? r.toJson = some r := by
  have hrecords := mapM_map_eq_some Record.ofJson?_toJson r.records
  have hfailures := mapM_map_eq_some Failure.ofJson?_toJson r.failures
  simp [ofJson?, toJson, Json.textField?, Json.field?, Json.text?, Json.items?, hrecords, hfailures]

/-- **JSON is a faithful encoding of a report.** The text of a report is one document; the document
gives back the report, with its records and failures in their order; and no two reports share a
text.

**Proof sketch.** The reader undoes the printer on documents without numbers, since an escaped
character is read as that character and nothing that the printer puts between values is read as part
of one. A report takes three levels, which the reader allows. Two reports of one text are both read
back from it. -/
theorem jsonText_faithful (r : Report) :
    Json.parse? r.jsonText = some r.toJson ∧ ofJson? r.toJson = some r ∧
      ∀ s : Report, r.jsonText = s.jsonText ↔ r = s := by
  have hparse : ∀ s : Report, Json.parse? s.jsonText = some s.toJson := fun s =>
    Json.parse?_pretty (s.fits_toJson.mono (by decide))
  have hread : ∀ s : Report, ofJsonText? s.jsonText = some s := by
    intro s
    rw [ofJsonText?, hparse, Option.bind_some, ofJson?_toJson]
  refine ⟨hparse r, ofJson?_toJson r, fun s => ⟨fun h => ?_, fun h => h ▸ rfl⟩⟩
  have hsame : some r = some s := by rw [← hread r, ← hread s, h]
  exact Option.some.inj hsame

end Report

end ReleaseDiff

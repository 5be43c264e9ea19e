import Mathlib.Data.List.Find
import Mathlib.Data.List.Infix
import Mathlib.Order.Defs.LinearOrder
import ReleaseDiff.Text.Substitution

set_option autoImplicit false

/-!
# The laws of substitution

Replacing a pattern reads the text once, from left to right, and never reads what it has put in.
The same is said here for several patterns at once, and what one pattern does is the case of a table
with one entry. Two substitutions one after the other are something else: the second one reads what
the first one has put in.

## Main definitions

* `ReleaseDiff.Text.substituteAll` — replaces the occurrences of several patterns at once.
* `ReleaseDiff.Text.Occurs` — a pattern occurs in a text.

## Main results

* `ReleaseDiff.Text.substitute_eq_substituteAll` — one pattern is a table with one entry.
* `ReleaseDiff.Text.substituteAll_append_of_free`, `ReleaseDiff.Text.substituteAll_pattern_append` —
  what becomes of a text that no pattern starts in, and of an occurrence.
* `ReleaseDiff.Text.substituteAll_append_of_head` — a text can be cut before a character that is in
  no pattern.
* `ReleaseDiff.Text.scan_induction` — induction along a text as it is read for a pattern.
* `ReleaseDiff.Text.exists_first_occurrence` — the first occurrence is replaced, and then the rest.
* `ReleaseDiff.Text.substitute_eq_self_iff` — when a substitution leaves a text alone.
* `ReleaseDiff.Text.not_mem_substitute` — a character that neither text nor replacement holds.
-/

namespace ReleaseDiff.Text

/-! ## Several patterns at once -/

/-- Replaces the occurrences of the patterns of a table after passing over a number of characters
that an occurrence has already taken. Where several patterns fit, the first of them is taken. -/
def substituteAllFrom (table : List (List Char × List Char)) : Nat → List Char → List Char
  | _, [] => []
  | skip + 1, _ :: cs => substituteAllFrom table skip cs
  | 0, c :: cs =>
    match table.find? fun entry => entry.1.isPrefixOf (c :: cs) with
    | some entry => entry.2 ++ substituteAllFrom table (entry.1.length - 1) cs
    | none => c :: substituteAllFrom table 0 cs

/-- **Replaces the occurrences of several patterns at once**: the text is read once, left to right,
and nothing that was put in is read. -/
def substituteAll (text : String) (table : List (String × String)) : String :=
  String.ofList
    (substituteAllFrom (table.map fun entry => (entry.1.toList, entry.2.toList)) 0 text.toList)

section Lists

variable {table : List (List Char × List Char)} {pattern replacement xs ys : List Char}

theorem substituteAllFrom_eq_drop (table : List (List Char × List Char)) (skip : Nat)
    (cs : List Char) :
    substituteAllFrom table skip cs = substituteAllFrom table 0 (cs.drop skip) := by
  induction skip generalizing cs with
  | zero => rfl
  | succ skip ih =>
    cases cs with
    | nil => rfl
    | cons c cs => exact ih cs

/-- An occurrence is replaced, and the text goes on behind it. -/
theorem substituteAllFrom_pattern_append (hne : pattern ≠ [])
    (hfind : (table.find? fun entry => entry.1.isPrefixOf (pattern ++ xs)) =
      some (pattern, replacement)) :
    substituteAllFrom table 0 (pattern ++ xs) = replacement ++ substituteAllFrom table 0 xs := by
  obtain ⟨c, cs, rfl⟩ := List.exists_cons_of_ne_nil hne
  have hrest : substituteAllFrom table cs.length (cs ++ xs) = substituteAllFrom table 0 xs := by
    rw [substituteAllFrom_eq_drop, List.drop_left]
  rw [List.cons_append] at hfind ⊢
  simp only [substituteAllFrom, hfind, List.length_cons, Nat.add_sub_cancel, hrest]

/-- A text that no pattern starts in is kept. -/
theorem substituteAllFrom_append_of_free
    (hfree : ∀ entry ∈ table, ∃ c ∈ entry.1.head?, c ∉ xs) :
    substituteAllFrom table 0 (xs ++ ys) = xs ++ substituteAllFrom table 0 ys := by
  induction xs with
  | nil => rfl
  | cons x xs ih =>
    have hnone : (table.find? fun entry => entry.1.isPrefixOf (x :: (xs ++ ys))) = none := by
      refine List.find?_eq_none.2 fun entry hentry hstarts => ?_
      obtain ⟨c, hc, hx⟩ := hfree entry hentry
      obtain ⟨cs, hcs⟩ := List.head?_eq_some_iff.1 hc
      rw [hcs, List.isPrefixOf_cons_cons, Bool.and_eq_true, beq_iff_eq] at hstarts
      exact hx (hstarts.1 ▸ List.mem_cons_self)
    have hrest := ih fun entry hentry =>
      (hfree entry hentry).imp fun c hc => ⟨hc.1, fun hx => hc.2 (List.mem_cons_of_mem x hx)⟩
    simp only [List.cons_append, substituteAllFrom, hnone, hrest]

/-- A pattern without the first character of `ys` does not reach into `ys`. -/
theorem prefix_append_iff_of_head (hhead : ∀ c ∈ ys.head?, c ∉ pattern) :
    pattern <+: xs ++ ys ↔ pattern <+: xs := by
  refine ⟨fun h => ?_, fun h => h.trans (List.prefix_append xs ys)⟩
  induction xs generalizing pattern with
  | nil =>
    cases pattern with
    | nil => exact List.nil_prefix
    | cons p pattern =>
      obtain ⟨rest, hrest⟩ := h
      exact absurd List.mem_cons_self (hhead p (by rw [← List.nil_append ys, ← hrest]; rfl))
  | cons x xs ih =>
    cases pattern with
    | nil => exact List.nil_prefix
    | cons p pattern =>
      obtain ⟨rfl, hstarts⟩ := List.cons_prefix_cons.1 h
      refine List.cons_prefix_cons.2 ⟨rfl, ih (fun c hc hmem => ?_) hstarts⟩
      exact hhead c hc (List.mem_cons_of_mem p hmem)

/-- **A text can be cut before a character that is in no pattern.**

**Proof sketch.** Induction on the length of the first part: where it starts with a pattern, the
pattern ends before the cut. -/
theorem substituteAllFrom_append_of_head
    (hhead : ∀ entry ∈ table, ∀ c ∈ ys.head?, c ∉ entry.1) (xs : List Char) :
    substituteAllFrom table 0 (xs ++ ys) =
      substituteAllFrom table 0 xs ++ substituteAllFrom table 0 ys := by
  induction hn : xs.length using Nat.strong_induction_on generalizing xs with
  | _ n ih =>
    cases xs with
    | nil => rfl
    | cons x xs =>
      rw [List.length_cons] at hn
      have hsame : (table.find? fun entry => entry.1.isPrefixOf (x :: (xs ++ ys))) =
          table.find? fun entry => entry.1.isPrefixOf (x :: xs) := by
        refine List.find?_congr fun entry hentry => Bool.eq_iff_iff.2 ?_
        rw [List.isPrefixOf_iff_prefix, List.isPrefixOf_iff_prefix, ← List.cons_append]
        exact prefix_append_iff_of_head (hhead entry hentry)
      rw [List.cons_append, substituteAllFrom, substituteAllFrom, hsame]
      cases hfind : table.find? fun entry => entry.1.isPrefixOf (x :: xs) with
      | none => exact congrArg (x :: ·) (ih xs.length (by omega) xs rfl)
      | some entry =>
        have hstarts : entry.1.isPrefixOf (x :: xs) = true := by simpa using List.find?_some hfind
        have hshort : entry.1.length - 1 ≤ xs.length := by
          have := (List.isPrefixOf_iff_prefix.1 hstarts).length_le
          rw [List.length_cons] at this
          omega
        have hrest := ih (xs.drop (entry.1.length - 1)).length
          (by rw [List.length_drop]; omega) _ rfl
        simp only [substituteAllFrom_eq_drop table (entry.1.length - 1)]
        rw [List.drop_append_of_le_length hshort, hrest, List.append_assoc]

/-- One pattern is a table with one entry. -/
theorem substituteFrom_eq_substituteAllFrom (pattern replacement : List Char) (skip : Nat)
    (cs : List Char) :
    substituteFrom pattern replacement skip cs =
      substituteAllFrom [(pattern, replacement)] skip cs := by
  induction cs generalizing skip with
  | nil => rw [substituteFrom, substituteAllFrom]
  | cons c cs ih =>
    cases skip with
    | succ skip => exact ih skip
    | zero =>
      rw [substituteFrom, substituteAllFrom, List.find?_singleton]
      split
      · rw [ih]
      · rw [ih]

/-- An occurrence of the pattern is replaced, and the text goes on behind it. -/
theorem substituteFrom_pattern_append (hne : pattern ≠ []) (replacement xs : List Char) :
    substituteFrom pattern replacement 0 (pattern ++ xs) =
      replacement ++ substituteFrom pattern replacement 0 xs := by
  simp only [substituteFrom_eq_substituteAllFrom]
  refine substituteAllFrom_pattern_append hne ?_
  rw [List.find?_singleton, if_pos (List.isPrefixOf_iff_prefix.2 (List.prefix_append _ _))]

/-- Where the text does not start with the pattern, its first character is kept. -/
theorem substituteFrom_cons_of_mismatch {c : Char} (h : ¬ pattern <+: c :: xs)
    (replacement : List Char) :
    substituteFrom pattern replacement 0 (c :: xs) =
      c :: substituteFrom pattern replacement 0 xs := by
  rw [substituteFrom, if_neg fun hstarts => h (List.isPrefixOf_iff_prefix.1 hstarts)]

/-! ## Where the pattern occurs -/

/-- **The first occurrence is replaced, and then the rest.** -/
theorem exists_first_occurrence (hne : pattern ≠ []) (replacement : List Char)
    (h : pattern <:+: xs) :
    ∃ before behind, xs = before ++ (pattern ++ behind) ∧
      substituteFrom pattern replacement 0 xs =
        before ++ (replacement ++ substituteFrom pattern replacement 0 behind) := by
  induction xs with
  | nil => exact absurd (List.infix_nil.1 h) hne
  | cons x xs ih =>
    by_cases hstarts : pattern <+: x :: xs
    · obtain ⟨behind, hbehind⟩ := hstarts
      refine ⟨[], behind, hbehind.symm, ?_⟩
      rw [← hbehind, substituteFrom_pattern_append hne, List.nil_append]
    · obtain ⟨before, behind, htext, hresult⟩ :=
        ih ((List.infix_cons_iff.1 h).resolve_left hstarts)
      refine ⟨x :: before, behind, ?_, ?_⟩
      · rw [List.cons_append, ← htext]
      · rw [substituteFrom_cons_of_mismatch hstarts, hresult, List.cons_append]

/-- Without an occurrence the text is kept. -/
theorem substituteFrom_of_not_infix (replacement : List Char) (h : ¬ pattern <:+: xs) :
    substituteFrom pattern replacement 0 xs = xs := by
  induction xs with
  | nil => rfl
  | cons x xs ih =>
    rw [List.infix_cons_iff, not_or] at h
    rw [substituteFrom_cons_of_mismatch h.1, ih h.2]

/-- **Induction along a text as it is read for a pattern**: the pattern as a whole where the text
starts with it, one character elsewhere. -/
theorem scan_induction {motive : List Char → Prop} (hne : pattern ≠ []) (nil : motive [])
    (occurrence : ∀ rest, motive rest → motive (pattern ++ rest))
    (other : ∀ c cs, ¬ pattern <+: c :: cs → motive cs → motive (c :: cs)) (xs : List Char) :
    motive xs := by
  induction hn : xs.length using Nat.strong_induction_on generalizing xs with
  | _ n ih =>
    by_cases hstarts : pattern <+: xs
    · obtain ⟨rest, rfl⟩ := hstarts
      have hpattern := List.length_pos_iff.2 hne
      rw [List.length_append] at hn
      exact occurrence rest (ih rest.length (by omega) rest rfl)
    · cases xs with
      | nil => exact nil
      | cons c cs =>
        rw [List.length_cons] at hn
        exact other c cs hstarts (ih cs.length (by omega) cs rfl)

/-- **The length of the result**: every occurrence that is taken trades the length of the pattern
for that of the replacement. -/
theorem exists_length_substituteFrom (hne : pattern ≠ []) (replacement xs : List Char) :
    ∃ n, (substituteFrom pattern replacement 0 xs).length + n * pattern.length =
      xs.length + n * replacement.length := by
  induction xs using scan_induction hne with
  | nil => exact ⟨0, by rw [Nat.zero_mul, Nat.zero_mul]; rfl⟩
  | occurrence rest ih =>
    obtain ⟨n, hlength⟩ := ih
    refine ⟨n + 1, ?_⟩
    rw [substituteFrom_pattern_append hne, List.length_append, List.length_append, Nat.succ_mul,
      Nat.succ_mul]
    omega
  | other c cs hstarts ih =>
    obtain ⟨n, hlength⟩ := ih
    refine ⟨n, ?_⟩
    rw [substituteFrom_cons_of_mismatch hstarts, List.length_cons, List.length_cons]
    omega

/-- Replacing a pattern by itself keeps the text. -/
theorem substituteFrom_self (hne : pattern ≠ []) (xs : List Char) :
    substituteFrom pattern pattern 0 xs = xs := by
  induction xs using scan_induction hne with
  | nil => rfl
  | occurrence rest ih => rw [substituteFrom_pattern_append hne, ih]
  | other c cs hstarts ih => rw [substituteFrom_cons_of_mismatch hstarts, ih]

/-- **When a substitution leaves a text alone**: the pattern does not occur, or it is replaced by
itself.

**Proof sketch.** If the pattern occurs, compare the text with the result from the first occurrence
on. Replacement and pattern of one length are then equal. Otherwise the result is longer than the
text, or shorter, according to which of the two is longer. -/
theorem substituteFrom_eq_self_iff (hne : pattern ≠ []) :
    substituteFrom pattern replacement 0 xs = xs ↔
      ¬ pattern <:+: xs ∨ replacement = pattern := by
  constructor
  · intro hself
    by_contra hboth
    rw [not_or, not_not] at hboth
    obtain ⟨hoccurs, hdifferent⟩ := hboth
    obtain ⟨before, behind, htext, hresult⟩ := exists_first_occurrence hne replacement hoccurs
    have hbehind : replacement ++ substituteFrom pattern replacement 0 behind =
        pattern ++ behind := by
      rw [hself, htext] at hresult
      exact (List.append_cancel_left hresult).symm
    have hlengths := congrArg List.length hbehind
    rw [List.length_append, List.length_append] at hlengths
    obtain ⟨n, hn⟩ := exists_length_substituteFrom hne replacement behind
    rcases lt_trichotomy replacement.length pattern.length with hlt | heq | hgt
    · have := Nat.mul_le_mul_left n hlt.le
      omega
    · exact hdifferent (List.append_inj hbehind heq).1
    · have := Nat.mul_le_mul_left n hgt.le
      omega
  · rintro (hnot | rfl)
    · exact substituteFrom_of_not_infix replacement hnot
    · exact substituteFrom_self hne xs

/-- A character that neither the text nor the replacement holds is not in the result. -/
theorem not_mem_substituteFrom {c : Char} (htext : c ∉ xs) (hreplacement : c ∉ replacement)
    (skip : Nat) : c ∉ substituteFrom pattern replacement skip xs := by
  induction xs generalizing skip with
  | nil => rw [substituteFrom]; exact List.not_mem_nil
  | cons x xs ih =>
    rw [List.mem_cons, not_or] at htext
    cases skip with
    | succ skip => exact ih htext.2 skip
    | zero =>
      rw [substituteFrom]
      split
      · exact fun h => (List.mem_append.1 h).elim hreplacement (ih htext.2 _)
      · exact fun h => (List.mem_cons.1 h).elim htext.1 (ih htext.2 _)

end Lists

/-! ## Texts -/

/-- **A pattern occurs in a text.** -/
def Occurs (pattern text : String) : Prop := pattern.toList <:+: text.toList

instance (pattern text : String) : Decidable (Occurs pattern text) :=
  inferInstanceAs (Decidable (pattern.toList <:+: text.toList))

section Texts

variable {pattern replacement a b : String} {table : List (String × String)}

/-- **One pattern is a table with one entry.** -/
theorem substitute_eq_substituteAll (text pattern replacement : String) :
    substitute text pattern replacement = substituteAll text [(pattern, replacement)] :=
  congrArg String.ofList (substituteFrom_eq_substituteAllFrom _ _ 0 _)

@[simp] theorem substituteAll_empty (table : List (String × String)) :
    substituteAll "" table = "" := rfl

/-- **A text that no pattern starts in is kept.** -/
theorem substituteAll_append_of_free
    (hfree : ∀ entry ∈ table, ∃ c ∈ entry.1.toList.head?, c ∉ a.toList) :
    substituteAll (a ++ b) table = a ++ substituteAll b table := by
  rw [substituteAll, String.toList_append, substituteAllFrom_append_of_free
    (List.forall_mem_map.2 hfree), String.ofList_append, String.ofList_toList, substituteAll]

/-- **An occurrence is replaced**, and the text goes on behind it. -/
theorem substituteAll_pattern_append (hne : pattern ≠ "")
    (hfind : (table.find? fun entry => entry.1.toList.isPrefixOf (pattern.toList ++ b.toList)) =
      some (pattern, replacement)) :
    substituteAll (pattern ++ b) table = replacement ++ substituteAll b table := by
  have hentry : ((table.map fun entry => (entry.1.toList, entry.2.toList)).find? fun entry =>
      entry.1.isPrefixOf (pattern.toList ++ b.toList)) =
        some (pattern.toList, replacement.toList) := by
    rw [List.find?_map, Function.comp_def, hfind, Option.map_some]
  rw [substituteAll, String.toList_append, substituteAllFrom_pattern_append
    (fun h => hne (String.toList_eq_nil_iff.1 h)) hentry, String.ofList_append,
    String.ofList_toList, substituteAll]

/-- **A text can be cut before a character that is in no pattern.** -/
theorem substituteAll_append_of_head
    (hhead : ∀ entry ∈ table, ∀ c ∈ b.toList.head?, c ∉ entry.1.toList) (a : String) :
    substituteAll (a ++ b) table = substituteAll a table ++ substituteAll b table := by
  rw [substituteAll, String.toList_append, substituteAllFrom_append_of_head
    (List.forall_mem_map.2 hhead), String.ofList_append, substituteAll, substituteAll]

/-- **When a substitution leaves a text alone**: the pattern does not occur, or it is replaced by
itself. -/
theorem substitute_eq_self_iff (hne : pattern ≠ "") :
    substitute a pattern replacement = a ↔ ¬ Occurs pattern a ∨ replacement = pattern := by
  have hchars : pattern.toList ≠ [] := fun h => hne (String.toList_eq_nil_iff.1 h)
  rw [← String.toList_inj, substitute, String.toList_ofList, substituteFrom_eq_self_iff hchars,
    String.toList_inj, Occurs]

/-- **A character that neither the text nor the replacement holds** is not in the result. -/
theorem not_mem_substitute {c : Char} (htext : c ∉ a.toList)
    (hreplacement : c ∉ replacement.toList) : c ∉ (substitute a pattern replacement).toList := by
  rw [substitute, String.toList_ofList]
  exact not_mem_substituteFrom htext hreplacement 0

end Texts

end ReleaseDiff.Text

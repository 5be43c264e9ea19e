import ReleaseDiff.Toml.Basic

set_option autoImplicit false

/-!
# Putting values into tables

A key may be given once. A dotted key and a header make the tables on their way; a dotted key may
add only to tables that dotted keys have made, and a header may open a table that was merely on the
way to another one.

## Main definitions

* `ReleaseDiff.Toml.addAt?` — adds a value under a dotted key.
* `ReleaseDiff.Toml.Assembly` — a document as far as it has been read.
-/

namespace ReleaseDiff.Toml

/-- The value under a name. -/
def find? (entries : Entries) (name : String) : Option Item :=
  (entries.find? fun e => e.1.name == name).map Prod.snd

/-- Replaces the value under a name. -/
def replace (entries : Entries) (name : String) (item : Item) : Entries :=
  entries.map fun e => if e.1.name = name then (e.1, item) else e

/-- Removes the value under a name. -/
def remove (entries : Entries) (name : String) : Entries :=
  entries.filter fun e => e.1.name != name

/-- What is done to the table at the end of a way, given whether dots have made it: it gives
something, and the values that the table has afterwards. -/
abbrev TableChange (α : Type) := Bool → Entries → Option (α × Entries)

namespace TableForm

/-- Whether dots have made a table. -/
def isDotted : TableForm → Bool
  | dotted => true
  | _ => false

/-- Whether a way may pass through a table: never through braces, and by dots not through a table
that a header has opened. -/
def isPassable (byDots : Bool) : TableForm → Bool
  | braces _ => false
  | header _ => !byDots
  | onTheWay | dotted => true

end TableForm

/-- Changes the last of the tables that share a header. -/
def changeLast? {α : Type} (change : TableChange α) : List Item → Option (α × List Item)
  | [] => none
  | [.table form entries] =>
    (change form.isDotted entries).map fun (a, es) => (a, [.table form es])
  | [_] => none
  | item :: rest => (changeLast? change rest).map fun (a, items) => (a, item :: items)

/-- **Changes the table at the end of a way**, making the tables on the way that are missing. A way
of dotted keys passes only through tables that no header has opened. -/
def changeAt? {α : Type} (byDots : Bool) (change : TableChange α) : List Key → TableChange α
  | [], isDotted, entries => change isDotted entries
  | k :: way, _, entries =>
    let further := changeAt? byDots change way
    match find? entries k.name with
    | none =>
      let form : TableForm := if byDots then .dotted else .onTheWay
      (further byDots []).map fun (a, es) => (a, entries ++ [(k, .table form es)])
    | some (.table form inner) =>
      if form.isPassable byDots then
        (further form.isDotted inner).map fun (a, es) =>
          (a, replace entries k.name (.table form es))
      else none
    | some (.tables span items) =>
      (changeLast? further items).map fun (a, ts) => (a, replace entries k.name (.tables span ts))
    | some _ => none

/-- Adds a value under a new name; behind dots, only to a table that dots have made. -/
def addNew? (behindDots : Bool) (k : Key) (item : Item) : TableChange Unit :=
  fun isDotted entries =>
  if behindDots ∧ ¬ isDotted then none
  else if (find? entries k.name).isSome then none
  else some ((), entries ++ [(k, item)])

/-- **Adds a value under a dotted key.** -/
def addAt? (ks : List Key) (item : Item) (entries : Entries) : Option Entries :=
  match ks.reverse with
  | [] => none
  | last :: way =>
    (changeAt? true (addNew? (!way.isEmpty) last item) way.reverse false entries).map Prod.snd

/-- The table of the values in a pair of braces. -/
def ofBraces? (values : List (List Key × Item)) : Option Entries :=
  values.foldlM (fun entries v => addAt? v.1 v.2 entries) []

/-! ## Documents -/

/-- The header of the table that the lines at hand belong to. -/
structure Header where
  /-- The keys on the way to the table. -/
  way : List Key
  /-- The key of the table. -/
  key : Key
  /-- Whether the table is one of several that share the header. -/
  isShared : Bool
  /-- Where the table stands, as far as it has been read: from the first bracket of the header to
  the end of the last value. -/
  span : Span

/-- **A document as far as it has been read**: the tables that are complete, and the one that the
lines at hand belong to. -/
structure Assembly where
  /-- The values of the document, apart from the open table. -/
  root : Entries
  /-- The header of the open table; none before the first header. -/
  header : Option Header
  /-- The values of the open table. -/
  entries : Entries

namespace Assembly

/-- Nothing has been read. -/
def start : Assembly := ⟨[], none, []⟩

/-- Puts a finished table in its place. -/
def finish (h : Header) (entries : Entries) : TableChange Unit := fun _ siblings =>
  let finished : Item := .table (.header h.span) entries
  if h.isShared then
    match find? siblings h.key.name with
    | none => some ((), siblings ++ [(h.key, .tables h.span [finished])])
    | some (.tables span items) =>
      some ((), replace siblings h.key.name (.tables (span.upTo h.span) (items ++ [finished])))
    | some _ => none
  else some ((), remove siblings h.key.name ++ [(h.key, finished)])

/-- Closes the open table; gives the values of the document. -/
def close? (a : Assembly) : Option Entries :=
  match a.header with
  | none => some a.entries
  | some h => (changeAt? false (finish h a.entries) h.way false a.root).map Prod.snd

/-- Takes out the values that a table opened by a header starts with: those of a table that was
merely on the way to another header. A table that shares its header starts empty. -/
def takeOut (h : Header) : TableChange Entries := fun _ siblings =>
  match h.isShared, find? siblings h.key.name with
  | _, none => some ([], siblings)
  | true, some (.tables _ _) => some ([], siblings)
  | false, some (.table .onTheWay entries) => some (entries, remove siblings h.key.name)
  | _, some _ => none

/-- Opens the table of a header. -/
def openTable? (a : Assembly) (h : Header) : Option Assembly := do
  let root ← a.close?
  let (entries, root) ← changeAt? false (takeOut h) h.way false root
  return ⟨root, some h, entries⟩

/-- Adds a value to the open table, which then reaches to the end of the value. -/
def add? (a : Assembly) (ks : List Key) (item : Item) : Option Assembly :=
  (addAt? ks item a.entries).map fun es =>
    { a with
      header := a.header.map fun h => { h with span := h.span.upTo (item.spanWithin h.span) }
      entries := es }

end Assembly

end ReleaseDiff.Toml

import ReleaseDiff.Report.Basic

set_option autoImplicit false

/-!
# What a stable sort gives

Sorting puts a list into an order in which items may tie, and leaves ties as they were. Both parts
together determine the outcome: two lists that hold the same items in the same order within every
class of ties are sorted alike.

## Main definitions

* `ReleaseDiff.WeakOrder` — a test for "before" that lets items tie.
* `ReleaseDiff.Sorted` — no item of a list is before one that stands in front of it.
* `ReleaseDiff.tied` — neither of two items is before the other.

## Main results

* `ReleaseDiff.sorted_stableSort` — what was sorted is in order.
* `ReleaseDiff.stableSort_of_sorted` — what is in order stays as it is.
* `ReleaseDiff.filter_stableSort` — choosing some items and sorting can change places.
* `ReleaseDiff.filter_tied_stableSort` — ties stay as they were.
* `ReleaseDiff.stableSort_congr` — the classes of ties determine what a sort gives.
* `ReleaseDiff.Record.tied_before_iff`, `ReleaseDiff.Failure.tied_before_iff` — the ties of a
  report.
-/

namespace ReleaseDiff

variable {α : Type} {before : α → α → Bool}

/-- **A test for "before" that lets items tie**: no two items are before each other, and of an item
and a later one, any third item is after the first or before the second. -/
structure WeakOrder (before : α → α → Bool) : Prop where
  /-- No two items are before each other. -/
  asymm : ∀ x y, before x y = true → before y x = false
  /-- Any third item is after the earlier or before the later of two items. -/
  cotrans : ∀ x y z, before x z = true → before x y = true ∨ before y z = true

/-- **No item of a list is before one that stands in front of it.** -/
def Sorted (before : α → α → Bool) (items : List α) : Prop :=
  items.Pairwise fun x y => before y x = false

instance (items : List α) : Decidable (Sorted before items) :=
  inferInstanceAs (Decidable (items.Pairwise fun x y => before y x = false))

/-- Neither of two items is before the other. -/
def tied (before : α → α → Bool) (x y : α) : Bool := !before x y && !before y x

theorem tied_iff {x y : α} :
    tied before x y = true ↔ before x y = false ∧ before y x = false := by
  simp [tied]

namespace WeakOrder

variable (h : WeakOrder before)

include h

/-- Nothing is before itself. -/
theorem irrefl (x : α) : before x x = false := by
  cases hx : before x x with
  | false => rfl
  | true => exact hx.symm.trans (h.asymm x x hx)

/-- Not being before is transitive. -/
theorem not_before_trans {x y z : α} (hyx : before y x = false) (hzy : before z y = false) :
    before z x = false := by
  cases hzx : before z x with
  | false => rfl
  | true =>
    rcases h.cotrans z y x hzx with hlt | hlt
    · exact hlt.symm.trans hzy
    · exact hlt.symm.trans hyx

/-- The test by which a list is sorted is transitive. -/
theorem trans_not_before (x y z : α) (hyx : (!before y x) = true) (hzy : (!before z y) = true) :
    (!before z x) = true := by
  rw [Bool.not_eq_true'] at *
  exact h.not_before_trans hyx hzy

/-- The test by which a list is sorted is total. -/
theorem total_not_before (x y : α) : (!before y x || !before x y) = true := by
  cases hyx : before y x with
  | false => rfl
  | true => rw [h.asymm y x hyx]; rfl

end WeakOrder

/-! ## Sorting -/

section Sorting

variable (h : WeakOrder before)

include h

/-- **What was sorted is in order.** -/
theorem sorted_stableSort (items : List α) : Sorted before (stableSort before items) := by
  have hsorted : (stableSort before items).Pairwise fun x y => (!before y x) = true :=
    List.pairwise_mergeSort h.trans_not_before h.total_not_before items
  exact hsorted.imp fun hxy => by simpa using hxy

omit h in
/-- **What is in order stays as it is.** -/
theorem stableSort_of_sorted {items : List α} (hs : Sorted before items) :
    stableSort before items = items :=
  List.mergeSort_of_pairwise (hs.imp fun hxy => by rw [hxy]; rfl)

/-- **Ties stay as they were.**

**Proof sketch.** Items that tie are in order, so a stable sort leaves them a sublist of what it
gives. There are as many of them as before, which leaves one list. -/
theorem filter_tied_stableSort (x : α) (items : List α) :
    (stableSort before items).filter (tied before x) = items.filter (tied before x) := by
  have horder : (items.filter (tied before x)).Pairwise fun y z => (!before z y) = true := by
    refine List.pairwise_of_forall_mem_list fun y hy z hz => ?_
    have hxy := tied_iff.1 (List.mem_filter.1 hy).2
    have hxz := tied_iff.1 (List.mem_filter.1 hz).2
    rw [h.not_before_trans hxy.1 hxz.2]
    rfl
  have hkept : (items.filter (tied before x)).Sublist (stableSort before items) :=
    List.sublist_mergeSort h.trans_not_before h.total_not_before horder List.filter_sublist
  have hties := hkept.filter (tied before x)
  rw [List.filter_filter] at hties
  simp only [Bool.and_self] at hties
  have hperm : (stableSort before items).Perm items := List.mergeSort_perm _ _
  exact (hties.eq_of_length (hperm.filter _).length_eq.symm).symm

/-- In a list in order, what the first item is not after, no item is before. -/
theorem Sorted.forall_not_before {x y : α} {rest : List α} (hs : Sorted before (y :: rest))
    (hyx : before y x = false) : ∀ z ∈ y :: rest, before z x = false := by
  intro z hz
  rcases List.mem_cons.1 hz with rfl | hz
  · exact hyx
  · exact h.not_before_trans hyx ((List.pairwise_cons.1 hs).1 z hz)

/-- Whatever is in one of two lists with the same classes of ties is in the other. -/
theorem mem_iff_of_filter_tied {as bs : List α}
    (htied : ∀ x, as.filter (tied before x) = bs.filter (tied before x)) {x : α} :
    x ∈ as ↔ x ∈ bs := by
  have hself : tied before x x = true := tied_iff.2 ⟨h.irrefl x, h.irrefl x⟩
  have hchosen : ∀ items : List α, x ∈ items.filter (tied before x) ↔ x ∈ items := by
    intro items
    rw [List.mem_filter, and_iff_left hself]
  rw [← hchosen as, htied x, hchosen bs]

/-- **Two lists in order with the same classes of ties are equal.**

**Proof sketch.** The first item of either list is in the other one, so neither is before the other.
They are the first of one class of ties, hence one item, and the rest is by induction. -/
theorem Sorted.eq_of_filter_tied {as bs : List α} (ha : Sorted before as) (hb : Sorted before bs)
    (htied : ∀ x, as.filter (tied before x) = bs.filter (tied before x)) : as = bs := by
  induction as generalizing bs with
  | nil =>
    refine (List.eq_nil_iff_forall_not_mem.2 fun x hx => ?_).symm
    exact List.not_mem_nil ((mem_iff_of_filter_tied h htied).2 hx)
  | cons a as ih =>
    cases bs with
    | nil =>
      exact absurd ((mem_iff_of_filter_tied h htied).1 List.mem_cons_self) List.not_mem_nil
    | cons b bs =>
      have hfirst : ∀ {x y : α} {rest : List α}, Sorted before (x :: rest) → y ∈ x :: rest →
          before y x = false :=
        fun hs hy => hs.forall_not_before h (h.irrefl _) _ hy
      have hab : tied before a b = true := by
        refine tied_iff.2 ⟨hfirst hb ?_, hfirst ha ?_⟩
        · exact (mem_iff_of_filter_tied h htied).1 List.mem_cons_self
        · exact (mem_iff_of_filter_tied h htied).2 List.mem_cons_self
      have hclass := htied a
      have haa : tied before a a = true := tied_iff.2 ⟨h.irrefl a, h.irrefl a⟩
      rw [List.filter_cons_of_pos haa, List.filter_cons_of_pos hab, List.cons.injEq] at hclass
      obtain ⟨rfl, -⟩ := hclass
      refine congrArg (a :: ·) (ih (List.pairwise_cons.1 ha).2 (List.pairwise_cons.1 hb).2 ?_)
      intro x
      have hx := htied x
      rw [List.filter_cons, List.filter_cons] at hx
      split at hx
      · exact (List.cons.inj hx).2
      · exact hx

/-- **Choosing some items and sorting can change places.** -/
theorem filter_stableSort (p : α → Bool) (items : List α) :
    (stableSort before items).filter p = stableSort before (items.filter p) := by
  have hchosen : Sorted before ((stableSort before items).filter p) :=
    (sorted_stableSort h items).sublist List.filter_sublist
  refine hchosen.eq_of_filter_tied h (sorted_stableSort h (items.filter p)) fun x => ?_
  have hswap : ∀ ys : List α, (ys.filter p).filter (tied before x) =
      (ys.filter (tied before x)).filter p := by
    intro ys
    simp only [List.filter_filter, Bool.and_comm]
  rw [filter_tied_stableSort h, hswap, filter_tied_stableSort h, ← hswap]

/-- **The classes of ties determine what a sort gives.** -/
theorem stableSort_congr {xs ys : List α}
    (htied : ∀ x, xs.filter (tied before x) = ys.filter (tied before x)) :
    stableSort before xs = stableSort before ys := by
  refine (sorted_stableSort h xs).eq_of_filter_tied h (sorted_stableSort h ys) fun x => ?_
  rw [filter_tied_stableSort h, filter_tied_stableSort h, htied x]

end Sorting

/-! ## The orders of a report -/

/-- Kinds of one rank are one kind. -/
theorem Kind.eq_of_rank_eq : ∀ {j k : Kind}, j.rank = k.rank → j = k := by decide

/-- Sides of one rank are one side. -/
theorem Side.eq_of_rank_eq {s t : Side} (h : s.rank = t.rank) : s = t := by
  cases s <;> cases t <;> first | rfl | cases h

namespace Record

/-- Records are ordered level by level, and every level is ordered. -/
theorem weakOrder_before : WeakOrder Record.before where
  asymm r s h := by
    unfold Record.before at *
    grind [String.lt_asymm]
  cotrans r s t h := by
    unfold Record.before at *
    grind [String.lt_trans, String.lt_irrefl]

/-- **Records tie just when they agree in kind, path and code.** -/
theorem tied_before_iff {r s : Record} :
    tied Record.before r s = true ↔ r.kind = s.kind ∧ r.path = s.path ∧ r.code = s.code := by
  rw [tied_iff]
  unfold Record.before
  constructor
  · rintro ⟨hrs, hsr⟩
    have hkind : r.kind = s.kind := Kind.eq_of_rank_eq (by grind)
    have hpath : r.path = s.path := eq_of_not_lt (by grind) (by grind)
    exact ⟨hkind, hpath, eq_of_not_lt (by grind) (by grind)⟩
  · rintro ⟨hkind, hpath, hcode⟩
    simp [hkind, hpath, hcode]

end Record

namespace Failure

/-- Failures are ordered level by level, and every level is ordered. -/
theorem weakOrder_before : WeakOrder Failure.before where
  asymm f g h := by
    unfold Failure.before at *
    grind
  cotrans f g i h := by
    unfold Failure.before at *
    grind

/-- **Failures tie just when they agree in kind and side.** -/
theorem tied_before_iff {f g : Failure} :
    tied Failure.before f g = true ↔ f.kind = g.kind ∧ f.side = g.side := by
  rw [tied_iff]
  unfold Failure.before
  constructor
  · rintro ⟨hfg, hgf⟩
    exact ⟨Kind.eq_of_rank_eq (by grind), Side.eq_of_rank_eq (by grind)⟩
  · rintro ⟨hkind, hside⟩
    simp [hkind, hside]

end Failure

end ReleaseDiff

import Mathlib.Data.List.Forall2
import ReleaseDiff.Malformed

set_option autoImplicit false

/-!
# Readings that agree

A declared list is read item by item, and the first item that does not fit stops the reading. Which
item that is depends on the order of the list, and so does the defect that is reported. Two readings
are compared without it: both succeed with related results, or both fail.

## Main definitions

* `ReleaseDiff.Agree` — two readings agree.
* `ReleaseDiff.Reordered` — two lists hold related items, in any order.

## Main results

* `ReleaseDiff.foldlM_eq_error_iff`, `ReleaseDiff.mapM_eq_ok_iff` — when a fold fails, and when
  reading every item succeeds.
* `ReleaseDiff.agree_foldlM_of_perm` — a fold whose steps change places agrees on permuted lists.
* `ReleaseDiff.agree_mapM_of_reordered` — reading every item of a list agrees on reordered lists.
-/

namespace ReleaseDiff

/-! ## Readings that agree -/

/-- **Two readings agree**: both succeed with related results, or both fail. -/
inductive Agree {ε α β : Type} (R : α → β → Prop) : Except ε α → Except ε β → Prop where
  /-- Both succeed. -/
  | ok {a : α} {b : β} (h : R a b) : Agree R (.ok a) (.ok b)
  /-- Both fail. -/
  | error (m n : ε) : Agree R (.error m) (.error n)

namespace Agree

variable {ε α β γ δ : Type} {R : α → β → Prop} {S : γ → δ → Prop}

/-- Of two readings that agree, both or neither succeed. -/
theorem isOk_eq {x : Except ε α} {y : Except ε β} (h : Agree R x y) : x.isOk = y.isOk := by
  cases h <;> rfl

/-- What follows readings that agree agrees if it does for related results. -/
theorem bind {x : Except ε α} {y : Except ε β} {f : α → Except ε γ} {g : β → Except ε δ}
    (h : Agree R x y) (hfg : ∀ a b, R a b → Agree S (f a) (g b)) :
    Agree S (x >>= f) (y >>= g) := by
  cases h with
  | ok h => exact hfg _ _ h
  | error m n => exact .error m n

/-- What follows readings that agree on their result agrees if it does for every result. -/
theorem bind_eq {x y : Except ε α} {f : α → Except ε γ} {g : α → Except ε δ}
    (h : Agree Eq x y) (hfg : ∀ a, Agree S (f a) (g a)) :
    Agree S (x >>= f) (y >>= g) :=
  h.bind fun a _ hab => hab ▸ hfg a

/-- Readings whose results are told apart by an image agree if the images do. -/
theorem of_map {x y : Except ε α} {f : α → γ} (hf : ∀ a b, f a = f b → a = b)
    (h : Agree Eq (x.map f) (y.map f)) : Agree Eq x y := by
  cases x with
  | ok a =>
    cases y with
    | ok b =>
      cases h with
      | ok hab => exact .ok (hf a b hab)
    | error n => cases h
  | error m =>
    cases y with
    | ok b => cases h
    | error n => exact .error m n

theorem mono {R' : α → β → Prop} {x : Except ε α} {y : Except ε β} (h : Agree R x y)
    (hR : ∀ a b, R a b → R' a b) : Agree R' x y := by
  cases h with
  | ok h => exact .ok (hR _ _ h)
  | error m n => exact .error m n

theorem trans {T : β → γ → Prop} {x : Except ε α} {y : Except ε β} {z : Except ε γ}
    (h : Agree R x y) (h' : Agree T y z) : Agree (fun a c => ∃ b, R a b ∧ T b c) x z := by
  cases h with
  | ok h =>
    cases h' with
    | ok h' => exact .ok ⟨_, h, h'⟩
  | error m n =>
    cases h' with
    | error _ n' => exact .error m n'

theorem refl (x : Except ε α) : Agree Eq x x := by
  cases x with
  | ok a => exact .ok rfl
  | error m => exact .error m m

/-- Readings that succeed together agree if their results are related. -/
theorem of_isOk {x : Except ε α} {y : Except ε β} (h : x.isOk = y.isOk)
    (hR : ∀ a b, x = .ok a → y = .ok b → R a b) : Agree R x y := by
  cases x with
  | ok a =>
    cases y with
    | ok b => exact .ok (hR a b rfl rfl)
    | error n => cases h
  | error m =>
    cases y with
    | ok b => cases h
    | error n => exact .error m n

end Agree

/-- Readings agree when their defects are told with a place. -/
theorem Agree.blame {α β : Type} {R : α → β → Prop} {x : Except KeyDefect α}
    {y : Except KeyDefect β} (h : Agree R x y) (place : Place) :
    Agree R (place.blame x) (place.blame y) := by
  cases h with
  | ok h => exact .ok h
  | error m n => exact .error _ _

/-! ## Reordered lists -/

/-- **Reordered lists**: up to their order, the items of the one are related to those of the
other, one by one. -/
def Reordered {α β : Type} (R : α → β → Prop) (xs : List α) (ys : List β) : Prop :=
  ∃ mid, xs.Perm mid ∧ List.Forall₂ R mid ys

namespace Reordered

variable {α β γ δ : Type} {R : α → β → Prop} {S : γ → δ → Prop} {xs : List α} {ys : List β}

theorem of_perm {xs ys : List α} (h : xs.Perm ys) : Reordered Eq xs ys :=
  ⟨ys, h, List.forall₂_same.2 fun _ _ => rfl⟩

theorem of_forall₂ (h : List.Forall₂ R xs ys) : Reordered R xs ys := ⟨xs, List.Perm.refl xs, h⟩

/-- What one list holds, the other one holds too. -/
theorem exists_right (h : Reordered R xs ys) {x : α} (hx : x ∈ xs) : ∃ y ∈ ys, R x y := by
  obtain ⟨mid, hperm, hrel⟩ := h
  rw [hperm.mem_iff] at hx
  clear hperm
  induction hrel with
  | nil => cases hx
  | cons hxy _ ih =>
    rcases List.mem_cons.1 hx with rfl | hx
    · exact ⟨_, List.mem_cons_self, hxy⟩
    · obtain ⟨y, hy, hR⟩ := ih hx
      exact ⟨y, List.mem_cons_of_mem _ hy, hR⟩

theorem exists_left (h : Reordered R xs ys) {y : β} (hy : y ∈ ys) : ∃ x ∈ xs, R x y := by
  obtain ⟨mid, hperm, hrel⟩ := h
  simp only [hperm.mem_iff]
  clear hperm
  induction hrel with
  | nil => cases hy
  | cons hxy _ ih =>
    rcases List.mem_cons.1 hy with rfl | hy
    · exact ⟨_, List.mem_cons_self, hxy⟩
    · obtain ⟨x, hx, hR⟩ := ih hy
      exact ⟨x, List.mem_cons_of_mem _ hx, hR⟩

/-- Images that send related items to related items are reordered. -/
theorem map {f : α → γ} {g : β → δ} (h : Reordered R xs ys) (hfg : ∀ x y, R x y → S (f x) (g y)) :
    Reordered S (xs.map f) (ys.map g) := by
  obtain ⟨mid, hperm, hrel⟩ := h
  refine ⟨mid.map f, hperm.map f, ?_⟩
  rw [List.forall₂_map_left_iff, List.forall₂_map_right_iff]
  exact hrel.imp hfg

/-- Images that do not tell related items apart are the same up to their order. -/
theorem map_perm {f : α → γ} {g : β → γ} (h : Reordered R xs ys) (hfg : ∀ x y, R x y → f x = g y) :
    (xs.map f).Perm (ys.map g) := by
  obtain ⟨mid, hperm, hrel⟩ := h.map (S := fun c d => c = d) hfg
  rw [List.forall₂_eq_eq_eq] at hrel
  exact hrel ▸ hperm

/-- Partial images that send related items to related items, or to nothing, are reordered. -/
theorem filterMap {f : α → Option γ} {g : β → Option δ} (h : Reordered R xs ys)
    (hfg : ∀ x y, R x y → Option.Rel S (f x) (g y)) :
    Reordered S (xs.filterMap f) (ys.filterMap g) := by
  obtain ⟨mid, hperm, hrel⟩ := h
  exact ⟨mid.filterMap f, hperm.filterMap f, List.rel_filterMap (fun x y => hfg x y) hrel⟩

end Reordered

/-! ## Folds -/

/-- **A fold fails at the first step that fails.** -/
theorem foldlM_eq_error_iff {ε α β : Type} {step : β → α → Except ε β} {xs : List α} {b : β}
    {m : ε} :
    xs.foldlM step b = .error m ↔
      ∃ front x behind c, xs = front ++ x :: behind ∧ front.foldlM step b = .ok c ∧
        step c x = .error m := by
  induction xs generalizing b with
  | nil => exact iff_of_false (fun h => by cases h) fun ⟨front, x, behind, _, h, _⟩ => by simp at h
  | cons x xs ih =>
    rw [List.foldlM_cons]
    constructor
    · intro h
      cases hx : step b x with
      | error n =>
        rw [hx] at h
        cases h
        exact ⟨[], x, xs, b, rfl, rfl, hx⟩
      | ok d =>
        rw [hx] at h
        obtain ⟨front, y, behind, c, rfl, hfront, hy⟩ := ih.1 h
        refine ⟨x :: front, y, behind, c, rfl, ?_, hy⟩
        rw [List.foldlM_cons, hx]
        exact hfront
    · rintro ⟨front, y, behind, c, hxs, hfront, hy⟩
      cases front with
      | nil =>
        obtain ⟨rfl, rfl⟩ := List.cons.inj hxs
        cases hfront
        rw [hy]
        rfl
      | cons z front =>
        obtain ⟨rfl, rfl⟩ := List.cons.inj hxs
        rw [List.foldlM_cons] at hfront
        cases hx : step b x with
        | error n =>
          rw [hx] at hfront
          cases hfront
        | ok d =>
          rw [hx] at hfront
          exact ih.2 ⟨front, y, behind, c, rfl, hfront, hy⟩

/-! ### Folds whose steps change places -/

/-- **A fold whose steps change places agrees on permuted lists**: two steps in a row have to agree
with the same steps the other way round. -/
theorem agree_foldlM_of_perm {ε α β : Type} {step : β → α → Except ε β}
    (hcomm : ∀ b x y, Agree Eq (step b x >>= fun c => step c y)
      (step b y >>= fun c => step c x)) {xs ys : List α} (h : xs.Perm ys) (b : β) :
    Agree Eq (xs.foldlM step b) (ys.foldlM step b) := by
  induction h generalizing b with
  | nil => exact Agree.refl _
  | cons x _ ih =>
    rw [List.foldlM_cons, List.foldlM_cons]
    refine (Agree.refl (step b x)).bind fun c d hcd => ?_
    subst hcd
    exact ih c
  | swap x y rest =>
    simp only [List.foldlM_cons, ← bind_assoc]
    refine (hcomm b y x).bind fun c d hcd => ?_
    subst hcd
    exact Agree.refl _
  | trans _ _ ih ih' =>
    refine ((ih b).trans (ih' b)).mono fun c d h => ?_
    obtain ⟨e, rfl, rfl⟩ := h
    rfl

/-! ## Reading every item -/

/-- **Reading every item succeeds** just when every item is read, one by one. -/
theorem mapM_eq_ok_iff {ε α β : Type} {f : α → Except ε β} {xs : List α} {ys : List β} :
    xs.mapM f = .ok ys ↔ List.Forall₂ (fun x y => f x = .ok y) xs ys := by
  induction xs generalizing ys with
  | nil =>
    rw [List.mapM_nil, List.forall₂_nil_left_iff]
    exact ⟨fun h => by cases h; rfl, fun h => h ▸ rfl⟩
  | cons x xs ih =>
    rw [List.mapM_cons, List.forall₂_cons_left_iff]
    constructor
    · intro h
      cases hx : f x with
      | error m => rw [hx] at h; cases h
      | ok y =>
        cases hxs : xs.mapM f with
        | error m => rw [hx, hxs] at h; cases h
        | ok rest =>
          rw [hx, hxs] at h
          cases h
          exact ⟨y, rest, rfl, ih.1 hxs, rfl⟩
    · rintro ⟨y, rest, hx, hxs, rfl⟩
      rw [hx, ih.2 hxs]
      rfl

/-- Where reading every item fails, some item cannot be read. -/
theorem exists_of_mapM_eq_error {ε α β : Type} {f : α → Except ε β} {xs : List α} {m : ε}
    (h : xs.mapM f = .error m) : ∃ x ∈ xs, f x = .error m := by
  induction xs with
  | nil => cases h
  | cons x xs ih =>
    rw [List.mapM_cons] at h
    cases hx : f x with
    | error n =>
      rw [hx] at h
      cases h
      exact ⟨x, List.mem_cons_self, hx⟩
    | ok y =>
      cases hxs : xs.mapM f with
      | error n =>
        rw [hx, hxs] at h
        cases h
        obtain ⟨z, hz, hm⟩ := ih hxs
        exact ⟨z, List.mem_cons_of_mem x hz, hm⟩
      | ok rest => rw [hx, hxs] at h; cases h

/-- Reading the items of a list one by one agrees on permuted lists. -/
theorem agree_mapM_of_perm {ε α γ : Type} (f : α → Except ε γ) {xs ys : List α} (h : xs.Perm ys) :
    Agree List.Perm (xs.mapM f) (ys.mapM f) := by
  induction h with
  | nil => exact .ok (List.Perm.refl [])
  | cons x _ ih =>
    rw [List.mapM_cons, List.mapM_cons]
    refine (Agree.refl (f x)).bind fun c d hcd => ih.bind fun cs ds hperm => ?_
    subst hcd
    exact .ok (hperm.cons c)
  | swap x y rest =>
    simp only [List.mapM_cons]
    cases f x with
    | error m =>
      cases f y with
      | error n => exact .error n m
      | ok d => exact .error m m
    | ok c =>
      cases f y with
      | error n => exact .error n n
      | ok d =>
        cases rest.mapM f with
        | error m => exact .error m m
        | ok cs => exact .ok (List.Perm.swap c d cs)
  | trans _ _ ih ih' =>
    refine (ih.trans ih').mono fun cs ds h => ?_
    obtain ⟨es, hperm, hperm'⟩ := h
    exact hperm.trans hperm'

/-- Reading the items of a list one by one agrees on reordered lists. -/
theorem agree_mapM_of_reordered {ε α β γ δ : Type} {R : α → β → Prop} {S : γ → δ → Prop}
    {f : α → Except ε γ} {g : β → Except ε δ} {xs : List α} {ys : List β} (h : Reordered R xs ys)
    (hfg : ∀ x y, R x y → Agree S (f x) (g y)) :
    Agree (Reordered S) (xs.mapM f) (ys.mapM g) := by
  obtain ⟨mid, hperm, hrel⟩ := h
  have hys : Agree (List.Forall₂ S) (mid.mapM f) (ys.mapM g) := by
    clear hperm
    induction hrel with
    | nil => exact .ok List.Forall₂.nil
    | cons hxy _ ih =>
      rw [List.mapM_cons, List.mapM_cons]
      refine (hfg _ _ hxy).bind fun c d hcd => ih.bind fun cs ds hcds => ?_
      exact .ok (List.Forall₂.cons hcd hcds)
  exact (agree_mapM_of_perm f hperm).trans hys

end ReleaseDiff

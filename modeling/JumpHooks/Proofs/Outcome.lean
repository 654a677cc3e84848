import Mathlib.Data.List.Forall2

/-!
# Outcomes of several steps

A sequence of steps that can fail succeeds exactly if each of its steps does. Otherwise it fails
with the error of the first step that does not.
-/

namespace JumpHooks
namespace Outcome

variable {ε α β : Type}

theorem bind_eq_ok {x : Except ε α} {f : α → Except ε β} {b : β} :
    (x >>= f) = .ok b ↔ ∃ a, x = .ok a ∧ f a = .ok b := by
  cases x with
  | error e =>
      constructor
      · intro h
        cases h
      · intro h
        rcases h with ⟨a, ha, _⟩
        cases ha
  | ok a =>
      constructor
      · intro h
        exact ⟨a, rfl, h⟩
      · intro h
        rcases h with ⟨_, ha, h⟩
        cases ha
        exact h

theorem map_eq_ok {x : Except ε α} {f : α → β} {b : β} :
    x.map f = .ok b ↔ ∃ a, x = .ok a ∧ f a = b := by
  cases x <;> simp [Except.map]

theorem map_eq_error {x : Except ε α} {f : α → β} {e : ε} :
    x.map f = .error e ↔ x = .error e := by
  cases x <;> simp [Except.map]

theorem exists_map_eq_ok {x : Except ε α} {f : α → β} :
    (∃ b, x.map f = .ok b) ↔ ∃ a, x = .ok a := by
  cases x <;> simp [Except.map]

theorem bind_eq_error {x : Except ε α} {f : α → Except ε β} {e : ε} :
    (x >>= f) = .error e ↔ x = .error e ∨ ∃ a, x = .ok a ∧ f a = .error e := by
  cases x with
  | error e' =>
      constructor
      · intro h
        cases h
        exact .inl rfl
      · intro h
        rcases h with h | ⟨a, ha, _⟩
        · cases h
          rfl
        · cases ha
  | ok a =>
      constructor
      · intro h
        exact .inr ⟨a, rfl, h⟩
      · intro h
        rcases h with h | ⟨_, ha, h⟩
        · cases h
        · cases ha
          exact h

theorem mapM_eq_ok {f : α → Except ε β} {xs : List α} {ys : List β} :
    xs.mapM f = .ok ys ↔ List.Forall₂ (fun x y => f x = .ok y) xs ys := by
  induction xs generalizing ys with
  | nil =>
      rw [List.mapM_nil, List.forall₂_nil_left_iff]
      constructor
      · intro h
        cases h
        rfl
      · intro heq
        subst heq
        rfl
  | cons x xs ih =>
      rw [List.mapM_cons, bind_eq_ok, List.forall₂_cons_left_iff]
      constructor
      · intro h
        rcases h with ⟨y, hy, hrest⟩
        rcases bind_eq_ok.mp hrest with ⟨tail, htail, hdone⟩
        cases hdone
        exact ⟨y, tail, hy, ih.mp htail, rfl⟩
      · intro h
        rcases h with ⟨y, tail, hy, htail, rfl⟩
        exact ⟨y, hy, bind_eq_ok.mpr ⟨tail, ih.mpr htail, rfl⟩⟩

theorem mapM_eq_ok_map {f : α → Except ε β} {g : α → β} {xs : List α}
    (h : ∀ x ∈ xs, f x = .ok (g x)) : xs.mapM f = .ok (xs.map g) := by
  rw [mapM_eq_ok, List.forall₂_map_right_iff, List.forall₂_same]
  exact h

/-- Every result comes from one of the steps. -/
theorem exists_of_mem {R : α → β → Prop} {xs : List α} {ys : List β}
    (h : List.Forall₂ R xs ys) {y : β} (hy : y ∈ ys) : ∃ x ∈ xs, R x y := by
  induction h with
  | nil => exact absurd hy List.not_mem_nil
  | @cons a b xs ys hfirst _ ih =>
      rcases List.mem_cons.mp hy with heq | hmem
      · rw [heq]
        exact ⟨a, List.mem_cons_self, hfirst⟩
      · rcases ih hmem with ⟨x, hx, hxy⟩
        exact ⟨x, List.mem_cons_of_mem _ hx, hxy⟩

theorem exists_forall₂_iff {R : α → β → Prop} {xs : List α} :
    (∃ ys, List.Forall₂ R xs ys) ↔ ∀ x ∈ xs, ∃ y, R x y := by
  constructor
  · intro h x hx
    rcases h with ⟨ys, hys⟩
    rcases exists_of_mem hys.flip hx with ⟨y, _, hy⟩
    exact ⟨y, hy⟩
  · intro h
    induction xs with
    | nil => exact ⟨[], .nil⟩
    | cons x xs ih =>
        rcases h x List.mem_cons_self with ⟨y, hy⟩
        rcases ih fun other hother => h other (List.mem_cons_of_mem _ hother) with ⟨ys, hys⟩
        exact ⟨y :: ys, .cons hy hys⟩

/-- Steps on the results of other steps. -/
theorem forall₂_comp {γ : Type} {R : α → β → Prop} {S : β → γ → Prop} {xs : List α}
    {zs : List γ} : List.Forall₂ (fun x z => ∃ y, R x y ∧ S y z) xs zs ↔
      ∃ ys, List.Forall₂ R xs ys ∧ List.Forall₂ S ys zs := by
  constructor
  · intro h
    induction h with
    | nil => exact ⟨[], .nil, .nil⟩
    | cons hfirst _ ih =>
        rcases hfirst with ⟨y, hxy, hyz⟩
        rcases ih with ⟨ys, hxys, hyzs⟩
        exact ⟨y :: ys, .cons hxy hxys, .cons hyz hyzs⟩
  · intro h
    rcases h with ⟨ys, hxys, hyzs⟩
    induction hxys generalizing zs with
    | nil =>
        cases hyzs
        exact .nil
    | cons hfirst _ ih =>
        cases hyzs with
        | cons hsecond hrest => exact .cons ⟨_, hfirst, hsecond⟩ (ih hrest)

theorem forall₂_getElem? {R : α → β → Prop} {xs : List α} {ys : List β}
    (h : List.Forall₂ R xs ys) {i : Nat} {x : α} (hx : xs[i]? = some x) :
    ∃ y, ys[i]? = some y ∧ R x y := by
  induction h generalizing i with
  | nil => cases hx
  | cons hfirst _ ih =>
      cases i with
      | zero =>
          cases hx
          exact ⟨_, rfl, hfirst⟩
      | succ i => exact ih hx

/-- A row of steps that are numbered. -/
theorem forall₂_range_iff {R : Nat → α → Prop} {n : Nat} {xs : List α} :
    List.Forall₂ R (List.range n) xs ↔
      xs.length = n ∧ ∀ (i : Nat) (x : α), xs[i]? = some x → R i x := by
  constructor
  · intro h
    have hlength := h.length_eq
    rw [List.length_range] at hlength
    refine ⟨hlength.symm, ?_⟩
    intro i x hx
    rcases List.getElem?_eq_some_iff.mp hx with ⟨hi, _⟩
    have hrange : (List.range n)[i]? = some i := List.getElem?_range (by lia)
    rcases forall₂_getElem? h hrange with ⟨y, hy, hrow⟩
    rw [hx] at hy
    cases hy
    exact hrow
  · intro h
    rcases h with ⟨rfl, h⟩
    rw [List.forall₂_iff_get]
    refine ⟨List.length_range, ?_⟩
    intro i _ hi
    simpa using h i _ (List.getElem?_eq_getElem hi)

/-- Steps that have a result or none. -/
theorem mapM_eq_some {f : α → Option β} {xs : List α} {ys : List β} :
    xs.mapM f = some ys ↔ List.Forall₂ (fun x y => f x = some y) xs ys := by
  induction xs generalizing ys with
  | nil =>
      rw [List.mapM_nil, List.forall₂_nil_left_iff]
      simp [eq_comm]
  | cons x xs ih =>
      rw [List.mapM_cons, List.forall₂_cons_left_iff]
      constructor
      · intro h
        rcases Option.bind_eq_some_iff.mp h with ⟨y, hy, hrest⟩
        rcases Option.bind_eq_some_iff.mp hrest with ⟨tail, htail, hdone⟩
        cases hdone
        exact ⟨y, tail, hy, ih.mp htail, rfl⟩
      · intro h
        rcases h with ⟨y, tail, hy, htail, rfl⟩
        exact Option.bind_eq_some_iff.mpr
          ⟨y, hy, Option.bind_eq_some_iff.mpr ⟨tail, ih.mpr htail, rfl⟩⟩

/-!
# The first error
-/

/-- All steps in front of one that fails with this error succeed. -/
def FirstError (f : α → Except ε β) (xs : List α) (e : ε) : Prop :=
  ∃ before x after, xs = before ++ x :: after ∧
    (∀ y ∈ before, ∃ b, f y = .ok b) ∧ f x = .error e

theorem not_firstError_nil (f : α → Except ε β) (e : ε) : ¬ FirstError f [] e := by
  intro h
  rcases h with ⟨before, x, after, hnil, _⟩
  cases before <;> cases hnil

theorem firstError_cons {f : α → Except ε β} {x : α} {xs : List α} {e : ε} :
    FirstError f (x :: xs) e ↔ f x = .error e ∨ (∃ b, f x = .ok b) ∧ FirstError f xs e := by
  constructor
  · intro h
    rcases h with ⟨before, y, after, heq, hbefore, hy⟩
    cases before with
    | nil =>
        cases heq
        exact .inl hy
    | cons z before =>
        cases heq
        refine .inr ⟨hbefore _ List.mem_cons_self, before, y, after, rfl, ?_, hy⟩
        intro w hw
        exact hbefore w (List.mem_cons_of_mem _ hw)
  · intro h
    rcases h with hx | ⟨hx, before, y, after, heq, hbefore, hy⟩
    · exact ⟨[], x, xs, rfl, fun y hy => absurd hy List.not_mem_nil, hx⟩
    · rw [heq]
      refine ⟨x :: before, y, after, rfl, ?_, hy⟩
      intro w hw
      rcases List.mem_cons.mp hw with hfirst | hmem
      · rw [hfirst]
        exact hx
      · exact hbefore w hmem

theorem firstError_map {γ : Type} {f : α → Except ε β} {g : γ → α} {xs : List γ} {e : ε} :
    FirstError f (xs.map g) e ↔ FirstError (fun x => f (g x)) xs e := by
  induction xs with
  | nil => simp [not_firstError_nil]
  | cons x xs ih => rw [List.map_cons, firstError_cons, firstError_cons, ih]

/-- What becomes of the results makes no difference to the errors. -/
theorem firstError_map_right {γ : Type} {f : α → Except ε β} {g : α → β → γ} {xs : List α}
    {e : ε} : FirstError (fun x => (f x).map (g x)) xs e ↔ FirstError f xs e := by
  unfold FirstError
  simp only [map_eq_error, exists_map_eq_ok]

theorem mapM_eq_error {f : α → Except ε β} {xs : List α} {e : ε} :
    xs.mapM f = .error e ↔ FirstError f xs e := by
  induction xs with
  | nil =>
      rw [List.mapM_nil]
      constructor
      · intro h
        cases h
      · intro h
        exact absurd h (not_firstError_nil f e)
  | cons x xs ih =>
      rw [List.mapM_cons, bind_eq_error, firstError_cons]
      apply or_congr Iff.rfl
      constructor
      · intro h
        rcases h with ⟨b, hb, hrest⟩
        rcases bind_eq_error.mp hrest with hrest | ⟨_, _, hdone⟩
        · exact ⟨⟨b, hb⟩, ih.mp hrest⟩
        · cases hdone
      · intro h
        rcases h with ⟨⟨b, hb⟩, hrest⟩
        exact ⟨b, hb, bind_eq_error.mpr (.inl (ih.mpr hrest))⟩

theorem exists_mapM_eq_ok_iff {f : α → Except ε β} {xs : List α} :
    (∃ ys, xs.mapM f = .ok ys) ↔ ∀ x ∈ xs, ∃ y, f x = .ok y := by
  simp only [mapM_eq_ok, exists_forall₂_iff]

/-- If there is only one error, it makes no difference which step comes first. -/
theorem mapM_eq_only_error_iff {f : α → Except ε β} {xs : List α} {only : ε}
    (h : ∀ x ∈ xs, ∀ e, f x = .error e → e = only) {e : ε} :
    xs.mapM f = .error e ↔ (∃ x ∈ xs, f x = .error only) ∧ e = only := by
  have hfirst : ∀ e', xs.mapM f = .error e' → (∃ x ∈ xs, f x = .error only) ∧ e' = only := by
    intro e' herror
    rcases mapM_eq_error.mp herror with ⟨before, x, after, heq, _, hx⟩
    have hmem : x ∈ xs := by
      rw [heq]
      exact List.mem_append_right before List.mem_cons_self
    have honly := h x hmem e' hx
    rw [honly] at hx
    exact ⟨⟨x, hmem, hx⟩, honly⟩
  constructor
  · exact hfirst e
  · rintro ⟨⟨x, hmem, hx⟩, rfl⟩
    cases hresult : xs.mapM f with
    | ok ys =>
        rcases exists_mapM_eq_ok_iff.mp ⟨ys, hresult⟩ x hmem with ⟨y, hy⟩
        rw [hy] at hx
        cases hx
    | error e' => rw [(hfirst e' hresult).2]

theorem forall_ok_or_firstError (f : α → Except ε β) (xs : List α) :
    (∀ x ∈ xs, ∃ b, f x = .ok b) ∨ ∃ e, FirstError f xs e := by
  cases h : xs.mapM f with
  | error e => exact .inr ⟨e, mapM_eq_error.mp h⟩
  | ok ys => exact .inl (exists_mapM_eq_ok_iff.mp ⟨ys, h⟩)

end Outcome
end JumpHooks

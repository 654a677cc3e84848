import JumpHooks.Proofs.Hook.Agreement
import Mathlib.Algebra.Order.Ring.Nat
import Mathlib.Order.Bounds.Basic

/-!
# What a hook covers

A target gives up the fewest leading instructions that make room for the jump. A stub is as
long as these instructions are in every target of its instruction set.
-/

namespace JumpHooks

/-!
# The fewest leading instructions
-/

namespace Match

theorem coverFrom_eq_none_iff {required size : Nat} {lengths : List Nat} (h : size < required) :
    coverFrom required size lengths = none ↔ size + lengths.sum < required := by
  induction lengths generalizing size with
  | nil => simpa [coverFrom] using h
  | cons n lengths ih =>
      unfold coverFrom
      rw [List.sum_cons, ← Nat.add_assoc]
      by_cases henough : required ≤ size + n
      · rw [if_pos henough]
        have hreached : ¬ size + n + lengths.sum < required :=
          Nat.not_lt.mpr (Nat.le_trans henough (Nat.le_add_right _ _))
        simp [hreached]
      · rw [if_neg henough]
        exact ih (Nat.not_le.mp henough)

theorem coverFrom_eq_some {required size total : Nat} {lengths : List Nat}
    (h : coverFrom required size lengths = some total) :
    ∃ k, 1 ≤ k ∧ k ≤ lengths.length ∧ total = size + (lengths.take k).sum ∧
      required ≤ total ∧ ∀ j, 1 ≤ j → j < k → size + (lengths.take j).sum < required := by
  -- On the lengths, with the bytes that were taken before in `size`.
  induction lengths generalizing size with
  | nil => cases h
  | cons n lengths ih =>
      unfold coverFrom at h
      by_cases henough : required ≤ size + n
      · rw [if_pos henough] at h
        cases h
        refine ⟨1, Nat.le_refl 1, ?_, ?_, henough, ?_⟩
        · simp
        · simp
        · intro j hj hlt
          exact absurd hj (Nat.not_le.mpr hlt)
      · rw [if_neg henough] at h
        rcases ih h with ⟨k, hk, hle, htotal, hreaches, hleast⟩
        refine ⟨k + 1, Nat.succ_le_succ (Nat.zero_le k), ?_, ?_, hreaches, ?_⟩
        · simpa using hle
        · rw [htotal, List.take_succ_cons, List.sum_cons, Nat.add_assoc]
        · intro j hj hlt
          cases j with
          | zero => exact absurd hj (Nat.not_succ_le_zero 0)
          | succ j =>
              rw [List.take_succ_cons, List.sum_cons, ← Nat.add_assoc]
              by_cases hzero : j = 0
              · simpa [hzero] using henough
              · exact hleast j (Nat.pos_of_ne_zero hzero) (Nat.lt_of_succ_lt_succ hlt)

/-- No shorter run of leading instructions makes enough room. -/
theorem cover_eq_some {m : Match} {required size : Nat} (hrequired : 0 < required)
    (h : m.cover required = some size) :
    ∃ k, 1 ≤ k ∧ k ≤ m.lengths.length ∧ size = (m.lengths.take k).sum ∧
      IsLeast {k | required ≤ (m.lengths.take k).sum} k := by
  rcases coverFrom_eq_some h with ⟨k, hk, hle, hsize, hreaches, hleast⟩
  rw [Nat.zero_add] at hsize
  refine ⟨k, hk, hle, hsize, ?_, ?_⟩
  · show required ≤ (m.lengths.take k).sum
    rw [← hsize]
    exact hreaches
  · intro j hj
    change required ≤ (m.lengths.take j).sum at hj
    by_contra hlt
    cases j with
    | zero =>
        rw [List.take_zero, List.sum_nil] at hj
        exact absurd hrequired (Nat.not_lt.mpr hj)
    | succ j =>
        have hless := hleast (j + 1) (Nat.succ_pos j) (Nat.not_le.mp hlt)
        rw [Nat.zero_add] at hless
        exact absurd hj (Nat.not_le.mpr hless)

/-- A subroutine cannot be covered exactly if it is shorter than the jump. -/
theorem cover_eq_none_iff {m : Match} {required : Nat} (hrequired : 0 < required) :
    m.cover required = none ↔ m.byteLength < required := by
  have hnone : m.cover required = none ↔ 0 + m.lengths.sum < required :=
    coverFrom_eq_none_iff hrequired
  rwa [Nat.zero_add] at hnone

theorem sum_take_le_byteLength (m : Match) (k : Nat) :
    (m.lengths.take k).sum ≤ m.byteLength := by
  have hsplit : (m.lengths.take k).sum + (m.lengths.drop k).sum = m.byteLength := by
    rw [← List.sum_append, List.take_append_drop]
    rfl
  lia

/-- No sum of leading lengths wraps around, so adding them up as words makes no difference. -/
theorem toNat_foldr_take (m : Match) (k : Nat) :
    ((m.lengths.take k).foldr (fun n size => UInt64.ofNat n + size) 0).toNat =
      (m.lengths.take k).sum := by
  have hwords : ∀ lengths : List Nat,
      lengths.foldr (fun n size => UInt64.ofNat n + size) 0 = UInt64.ofNat lengths.sum := by
    intro lengths
    induction lengths with
    | nil => rfl
    | cons n lengths ih => rw [List.foldr_cons, ih, List.sum_cons, UInt64.ofNat_add]
  have hfits : m.byteLength < UInt64.size := m.fits
  rw [hwords, UInt64.toNat_ofNat_of_lt' ((m.sum_take_le_byteLength k).trans_lt hfits)]

theorem cover_eq_some_iff {m : Match} {required size : Nat} (hrequired : 0 < required) :
    m.cover required = some size ↔
      ∃ k, IsLeast {k | required ≤ (m.lengths.take k).sum} k ∧
        size = (m.lengths.take k).sum := by
  constructor
  · intro h
    rcases cover_eq_some hrequired h with ⟨k, _, _, hsize, hleast⟩
    exact ⟨k, hleast, hsize⟩
  · intro h
    rcases h with ⟨k, hleast, hsize⟩
    cases hcover : m.cover required with
    | none =>
        have hreaches : required ≤ (m.lengths.take k).sum := hleast.1
        have hshort := (cover_eq_none_iff hrequired).mp hcover
        have hlong := Nat.le_trans hreaches (m.sum_take_le_byteLength k)
        exact absurd hshort (Nat.not_lt.mpr hlong)
    | some other =>
        rcases cover_eq_some hrequired hcover with ⟨k', _, _, hother, hleast'⟩
        rw [hother, hsize, hleast.unique hleast']

theorem cover_le {m : Match} {required size : Nat} (hrequired : 0 < required)
    (h : m.cover required = some size) : required ≤ size ∧ size ≤ m.byteLength := by
  rcases cover_eq_some hrequired h with ⟨k, _, _, hsize, hleast⟩
  rw [hsize]
  exact ⟨hleast.1, m.sum_take_le_byteLength k⟩

end Match

/-!
# The size for all targets
-/

namespace HookSize

/-- A target covers the jump with its shortest run of leading instructions that is long enough. A
common size is what all targets of the instruction set cover; without one, the error is about the
first of them that is too short or covers another size than the first one. Targets of the other
instruction set make no difference, and the order of its own decides only about the error. -/
theorem common_exact (signature : String) (b : Bitness) {required : Nat}
    (hrequired : 1 ≤ required) (targets : List Match) :
    (∀ m : Match, (m.cover required = none ↔ m.byteLength < required) ∧
      ∀ size, (m.cover required = some size → required ≤ size ∧ size ≤ m.byteLength) ∧
        (m.cover required = some size ↔
          ∃ k, IsLeast {k | required ≤ (m.lengths.take k).sum} k ∧
            size = (m.lengths.take k).sum)) ∧
    (common signature b required targets = .ok none ↔ own b targets = []) ∧
    (∀ size, common signature b required targets = .ok (some size) ↔
      own b targets ≠ [] ∧ ∀ m ∈ own b targets, m.cover required = some size) ∧
    (∀ e, common signature b required targets = .error e ↔
      Disagreement signature b required (own b targets) e) ∧
    (∀ others, own b others = own b targets →
      common signature b required others = common signature b required targets) ∧
    ∀ others, (own b others).Perm (own b targets) → ∀ agreed,
      common signature b required others = .ok agreed ↔
        common signature b required targets = .ok agreed := by
  refine ⟨?_, common_eq_ok_none_iff, fun size => common_eq_ok_some_iff,
    fun e => common_eq_error_iff, ?_, ?_⟩
  · intro m
    refine ⟨Match.cover_eq_none_iff hrequired, ?_⟩
    intro size
    exact ⟨Match.cover_le hrequired, Match.cover_eq_some_iff hrequired⟩
  · intro others hown
    rw [common_eq, common_eq, hown]
  · intro others hperm agreed
    exact common_perm hperm

/-- A target of build `build` with instructions of these lengths. -/
def sizedTarget (build : Nat) (b : Bitness) (lengths : List Nat)
    (h : lengths.sum < UInt64.size) : Match :=
  ⟨"HookCryWarning", ⟨.system, build, b⟩, 0x1000, lengths, h⟩

/-- The targets in front of the one that gives up less than they do. -/
def evenTargets : List Match :=
  [sizedTarget 5767 .x64 [5, 5, 1, 4] (by decide), sizedTarget 5879 .x64 [10, 5, 5] (by decide)]

/-- The third of the 64-bit targets gives up less than the two in front of it. -/
def unevenTargets : List Match :=
  [sizedTarget 5767 .x64 [5, 5, 1, 4] (by decide), sizedTarget 5767 .x86 [1] (by decide),
    sizedTarget 5879 .x64 [10, 5, 5] (by decide), sizedTarget 6115 .x64 [7, 7, 1] (by decide),
    sizedTarget 6156 .x64 [3] (by decide)]

theorem common_exact_uneven : 1 ≤ 12 ∧ common "HookCryWarning" .x64 12 unevenTargets =
    .error (.inconsistentSize "HookCryWarning" .x64 ⟨.system, 6115, .x64⟩ 14 15 5767) := by
  have hrequired : 1 ≤ 12 := by decide
  have hown : own .x64 unevenTargets = evenTargets ++
      sizedTarget 6115 .x64 [7, 7, 1] (by decide) :: [sizedTarget 6156 .x64 [3] (by decide)] :=
    rfl
  have hsame : ∀ m ∈ evenTargets, m.cover 12 = some 15 := by
    decide
  have hother : (sizedTarget 6115 .x64 [7, 7, 1] (by decide)).cover 12 = some 14 := rfl
  rcases common_exact "HookCryWarning" .x64 hrequired unevenTargets with ⟨_, _, _, herror, _⟩
  exact ⟨hrequired, (herror _).mpr (.otherSize hown hsame hother (by decide))⟩

end HookSize

/-!
# Stubs
-/

namespace HookStub

theorem required_eq (b : Bitness) : required b = if b = .x64 then 12 else 7 := by
  cases b
  · rfl
  · rfl

theorem required_pos (b : Bitness) : 0 < required b := by
  cases b
  · decide
  · decide

theorem encodedSize_append (xs ys : List Encoded) :
    encodedSize (xs ++ ys) = encodedSize xs + encodedSize ys := by
  unfold encodedSize
  rw [List.map_append]
  exact List.sum_append

theorem encodedSize_padding (n : Nat) : encodedSize (List.replicate n padding) = n := by
  unfold encodedSize
  rw [List.map_replicate]
  show (List.replicate n 1).sum = n
  simp

/-- Padding fills a stub up to exactly the size that was asked for. -/
theorem assemble_ok {b : Bitness} {size : Nat} {s : HookStub} (h : assemble b size = .ok s) :
    s.bitness = b ∧ s.size = size := by
  unfold assemble at h
  by_cases hsize : size < required b
  · rw [if_pos hsize] at h
    cases h
  · rw [if_neg hsize] at h
    cases h
    refine ⟨rfl, ?_⟩
    have hle : required b ≤ size := Nat.not_lt.mp hsize
    show encodedSize (jump b ++ List.replicate (size - required b) padding) = size
    rw [encodedSize_append, encodedSize_padding]
    exact Nat.add_sub_cancel' hle

/-- A stub is as long as the instructions that each of its targets gives up. -/
theorem forTargets_ok {signature : String} {b : Bitness} {targets : List Match}
    {s : HookStub} (h : forTargets signature b targets = .ok s) :
    s.bitness = b ∧ ∀ m ∈ targets, m.variant.bitness = b → m.cover (required b) = some s.size := by
  unfold forTargets at h
  rcases Outcome.bind_eq_ok.mp h with ⟨size, hsize, hassemble⟩
  rcases assemble_ok hassemble with ⟨hbitness, hlength⟩
  refine ⟨hbitness, ?_⟩
  intro m hm hm'
  rw [hlength]
  exact (HookSize.stubSize_eq_ok.mp hsize).1 m hm hm'

end HookStub
end JumpHooks

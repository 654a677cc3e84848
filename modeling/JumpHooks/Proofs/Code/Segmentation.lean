import JumpHooks.Instruction.GeneralPurpose
import JumpHooks.Proofs.Code.Calls
import Mathlib.Data.Set.Lattice
import Mathlib.Order.Bounds.Basic
import Mathlib.Order.CompletePartialOrder
import Mathlib.Order.Interval.Set.Basic

/-!
# Segmentation

The two walks from an instruction end on the nearest places where a subroutine can begin and
end. These places are fixed by the instructions alone, so the subroutines around two
instructions that are no padding are the same or have nothing in common.
-/

namespace JumpHooks
namespace Variant

/-!
# Edges of subroutines
-/

/-- A subroutine can begin with instruction `k`. -/
def BeginsAt (v : Variant) (k : Nat) : Prop :=
  k = 0 ∨ v.Entered k ∨ v.isPadding (k - 1) = true

/-- A subroutine can end before instruction `k`. -/
def EndsAt (v : Variant) (k : Nat) : Prop :=
  k = v.size ∨ v.Entered k ∨ v.isPadding k = true

/-- The subroutine reaches from the last place before instruction `i` where one can begin to
the first place after it where one can end. -/
structure IsSegment (v : Variant) (i : Nat) (s : Subroutine) : Prop where
  start : IsGreatest {k | k ≤ i ∧ v.BeginsAt k} s.start
  stop : IsLeast {k | i < k ∧ v.EndsAt k} s.stop

theorem beginsAt_succ_of_isPadding {v : Variant} {k : Nat} (h : v.isPadding k = true) :
    v.BeginsAt (k + 1) :=
  .inr (.inr h)

theorem endsAt_of_isPadding {v : Variant} {k : Nat} (h : v.isPadding k = true) :
    v.EndsAt k :=
  .inr (.inr h)

/-!
# The two walks
-/

theorem begins_iff (v : Variant) (k : Nat) :
    (v.isEntered (k + 1) || v.isPadding k) = true ↔ v.BeginsAt (k + 1) := by
  rw [Bool.or_eq_true, v.isEntered_iff_entered]
  constructor
  · intro h
    exact .inr h
  · intro h
    rcases h with h | h
    · lia
    · exact h

theorem ends_iff (v : Variant) {k : Nat} (hk : k < v.size) :
    (v.isEntered k || v.isPadding k) = true ↔ v.EndsAt k := by
  rw [Bool.or_eq_true, v.isEntered_iff_entered]
  constructor
  · intro h
    exact .inr h
  · intro h
    rcases h with h | h
    · lia
    · exact h

/-- The walk back passes over no place where a subroutine can begin. -/
theorem startOf_isGreatest (v : Variant) (i : Nat) :
    IsGreatest {k | k ≤ i ∧ v.BeginsAt k} (v.startOf i) := by
  induction i with
  | zero =>
      constructor
      · exact ⟨Nat.le_refl 0, .inl rfl⟩
      · intro k hk
        exact hk.1
  | succ i ih =>
      unfold startOf
      by_cases hbegins : (v.isEntered (i + 1) || v.isPadding i) = true
      · rw [if_pos hbegins]
        constructor
        · exact ⟨Nat.le_refl _, (v.begins_iff i).mp hbegins⟩
        · intro k hk
          exact hk.1
      · rw [if_neg hbegins]
        constructor
        · exact ⟨Nat.le_succ_of_le ih.1.1, ih.1.2⟩
        · intro k hk
          have hne : k ≠ i + 1 := by
            intro heq
            subst heq
            exact hbegins ((v.begins_iff i).mpr hk.2)
          exact ih.2 ⟨by have := hk.1; lia, hk.2⟩

/-- The walk forward passes over no place where a subroutine can end. -/
theorem stopFrom_isLeast (v : Variant) {remaining k : Nat} (hk : k + remaining = v.size) :
    IsLeast {j | k ≤ j ∧ v.EndsAt j} (v.stopFrom remaining k) := by
  induction remaining generalizing k with
  | zero =>
      constructor
      · exact ⟨Nat.le_refl k, .inl hk⟩
      · intro j hj
        exact hj.1
  | succ remaining ih =>
      unfold stopFrom
      have hlt : k < v.size := by lia
      by_cases hends : (v.isEntered k || v.isPadding k) = true
      · rw [if_pos hends]
        constructor
        · exact ⟨Nat.le_refl k, (v.ends_iff hlt).mp hends⟩
        · intro j hj
          exact hj.1
      · rw [if_neg hends]
        have hrest := ih (k := k + 1) (by lia)
        constructor
        · exact ⟨Nat.le_of_succ_le hrest.1.1, hrest.1.2⟩
        · intro j hj
          have hne : j ≠ k := by
            intro heq
            subst heq
            exact hends ((v.ends_iff hlt).mpr hj.2)
          exact hrest.2 ⟨by have := hj.1; lia, hj.2⟩

theorem subroutineAt_isSegment (v : Variant) {i : Nat} (hi : i < v.size) :
    v.IsSegment i (v.subroutineAt i) where
  start := v.startOf_isGreatest i
  stop := v.stopFrom_isLeast (by lia)

/-!
# Segments
-/

namespace IsSegment

variable {v : Variant} {i j : Nat} {s t : Subroutine}

theorem start_le (h : v.IsSegment i s) : s.start ≤ i := h.start.1.1

theorem lt_stop (h : v.IsSegment i s) : i < s.stop := h.stop.1.1

theorem stop_le_size (h : v.IsSegment i s) (hi : i < v.size) : s.stop ≤ v.size :=
  h.stop.2 ⟨hi, .inl rfl⟩

theorem le_start (h : v.IsSegment i s) {k : Nat} (hk : k ≤ i) (hbegins : v.BeginsAt k) :
    k ≤ s.start :=
  h.start.2 ⟨hk, hbegins⟩

theorem stop_le (h : v.IsSegment i s) {k : Nat} (hk : i < k) (hends : v.EndsAt k) :
    s.stop ≤ k :=
  h.stop.2 ⟨hk, hends⟩

theorem unique (hs : v.IsSegment i s) (ht : v.IsSegment i t) : s = t := by
  have hstart : s.start = t.start := hs.start.unique ht.start
  have hstop : s.stop = t.stop := hs.stop.unique ht.stop
  cases s
  cases t
  cases hstart
  cases hstop
  rfl

theorem eq_start_of_entered (h : v.IsSegment i s) {k : Nat} (hstart : s.start ≤ k)
    (hstop : k < s.stop) (hentered : v.Entered k) : k = s.start := by
  by_cases hki : k ≤ i
  · have hle := h.le_start hki (.inr (.inl hentered))
    lia
  · have hle := h.stop_le (Nat.not_le.mp hki) (.inr (.inl hentered))
    lia

theorem isPadding_eq_false (h : v.IsSegment i s) (hi : v.isPadding i = false) {k : Nat}
    (hstart : s.start ≤ k) (hstop : k < s.stop) : v.isPadding k = false := by
  cases hk : v.isPadding k with
  | false => rfl
  | true =>
      rcases Nat.lt_trichotomy k i with hlt | rfl | hgt
      · have hle := h.le_start hlt (beginsAt_succ_of_isPadding hk)
        lia
      · rw [hk] at hi
        cases hi
      · have hle := h.stop_le hgt (endsAt_of_isPadding hk)
        lia

/-- The segment around an instruction that is no padding is the segment around everything in
it. -/
theorem of_mem (h : v.IsSegment i s) (hsize : i < v.size) (hi : v.isPadding i = false)
    (hstart : s.start ≤ j) (hstop : j < s.stop) : v.IsSegment j s := by
  -- A later start or an earlier end would be entered or padding, which the segment is free of.
  constructor
  · constructor
    · exact ⟨hstart, h.start.1.2⟩
    · intro k hk
      rcases hk with ⟨hkj, rfl | hentered | hpadding⟩
      · exact Nat.zero_le _
      · by_contra hlt
        exact hlt (h.eq_start_of_entered (by lia) (by lia) hentered).le
      · by_contra hlt
        have hfalse := h.isPadding_eq_false hi (k := k - 1) (by lia) (by lia)
        rw [hpadding] at hfalse
        cases hfalse
  · constructor
    · exact ⟨hstop, h.stop.1.2⟩
    · intro k hk
      rcases hk with ⟨hjk, rfl | hentered | hpadding⟩
      · exact h.stop_le_size hsize
      · by_contra hlt
        have heq := h.eq_start_of_entered (k := k) (by lia) (by lia) hentered
        lia
      · by_contra hlt
        have hfalse := h.isPadding_eq_false hi (k := k) (by lia) (by lia)
        rw [hpadding] at hfalse
        cases hfalse

theorem eq_of_mem (hs : v.IsSegment i s) (ht : v.IsSegment j t) (hsize : i < v.size)
    (hi : v.isPadding i = false) (hstart : s.start ≤ j) (hstop : j < s.stop) : t = s :=
  ht.unique (hs.of_mem hsize hi hstart hstop)

/-- Two segments with an instruction in common are the same. -/
theorem disjoint (hs : v.IsSegment i s) (ht : v.IsSegment j t) (hisize : i < v.size)
    (hjsize : j < v.size) (hi : v.isPadding i = false) (hj : v.isPadding j = false)
    (hne : s ≠ t) : Disjoint (Set.Ico s.start s.stop) (Set.Ico t.start t.stop) := by
  rw [Set.disjoint_left]
  intro m hms hmt
  have hsm := hs.of_mem hisize hi hms.1 hms.2
  have htm := ht.of_mem hjsize hj hmt.1 hmt.2
  exact hne (hsm.unique htm)

theorem start_le_start (hs : v.IsSegment i s) (ht : v.IsSegment j t) (hij : i ≤ j) :
    s.start ≤ t.start :=
  ht.le_start (hs.start_le.trans hij) hs.start.1.2

theorem eq_of_start_eq_of_lt (hs : v.IsSegment i s) (ht : v.IsSegment j t) (hij : i < j)
    (hj : j < v.size) (hpadding : v.isPadding i = v.isPadding j)
    (hstart : s.start = t.start) : s = t := by
  have hsi := hs.start_le
  have his := hs.lt_stop
  cases hi : v.isPadding i with
  | true =>
      have hle := ht.le_start hij (beginsAt_succ_of_isPadding hi)
      lia
  | false =>
      rw [hi] at hpadding
      -- Something that ends the first segment before `j` would begin the second one.
      have hjs : j < s.stop := by
        by_contra hle
        rcases hs.stop.1.2 with hsize | hentered | hend
        · lia
        · have hle' := ht.le_start (k := s.stop) (by lia) (.inr (.inl hentered))
          lia
        · have hne : s.stop ≠ j := by
            intro heq
            rw [heq, ← hpadding] at hend
            cases hend
          have hle' := ht.le_start (k := s.stop + 1) (by lia)
            (beginsAt_succ_of_isPadding hend)
          lia
      exact (hs.eq_of_mem ht (hij.trans hj) hi (by lia) hjs).symm

/-- Among instructions that are all padding, or all none, a segment is known by its start. -/
theorem eq_of_start_eq (hs : v.IsSegment i s) (ht : v.IsSegment j t) (hi : i < v.size)
    (hj : j < v.size) (hpadding : v.isPadding i = v.isPadding j)
    (hstart : s.start = t.start) : s = t := by
  rcases Nat.lt_trichotomy i j with hlt | heq | hgt
  · exact hs.eq_of_start_eq_of_lt ht hlt hj hpadding hstart
  · rw [← heq] at ht
    exact hs.unique ht
  · exact (ht.eq_of_start_eq_of_lt hs hgt hi hpadding.symm hstart.symm).symm

end IsSegment

/-!
# The partition
-/

theorem subroutine_eq_ok {v : Variant} {i : Nat} (hi : i < v.size) :
    v.subroutine i = .ok (v.subroutineAt i) :=
  if_pos hi

/-- The subroutine around an instruction is its segment, and the segments around
instructions that are no padding form a partition. -/
theorem subroutine_partition (v : Variant) {i : Nat} (hi : i < v.size) :
    ∃ s, v.subroutine i = .ok s ∧ v.IsSegment i s ∧
      (v.isPadding i = false →
        (∀ k, s.start ≤ k → k < s.stop →
          v.isPadding k = false ∧ (v.Entered k → k = s.start)) ∧
        ∀ j, j < v.size → v.isPadding j = false →
          ∃ t, v.subroutine j = .ok t ∧
            (s.start ≤ j ∧ j < s.stop → t = s) ∧
            (¬ (s.start ≤ j ∧ j < s.stop) →
              Disjoint (Set.Ico s.start s.stop) (Set.Ico t.start t.stop))) := by
  have hs := v.subroutineAt_isSegment hi
  refine ⟨v.subroutineAt i, subroutine_eq_ok hi, hs, ?_⟩
  intro hpadding
  constructor
  · intro k hstart hstop
    exact ⟨hs.isPadding_eq_false hpadding hstart hstop,
      hs.eq_start_of_entered hstart hstop⟩
  · intro j hj hjpadding
    have ht := v.subroutineAt_isSegment hj
    refine ⟨v.subroutineAt j, subroutine_eq_ok hj, ?_, ?_⟩
    · intro h
      rcases h with ⟨hstart, hstop⟩
      exact hs.eq_of_mem ht hi hpadding hstart hstop
    · intro hout
      apply hs.disjoint ht hi hj hpadding hjpadding
      intro heq
      apply hout
      rw [heq]
      exact ⟨ht.start_le, ht.lt_stop⟩

/-- A function that calls the one behind it, and a third one behind padding. -/
def calledCode : Section where
  image := ⟨0x180000000, 0x100000⟩
  address := 0x180001000
  bytes := [0xE8, 0x01, 0, 0, 0, 0xC3, 0x90, 0xC3, 0xCC, 0xCC, 0x90, 0xC3]

set_option maxRecDepth 10000 in
theorem subroutine_partition_behind_call :
    ∃ v, decode .generalPurpose ⟨.game, 6156, .x64⟩ calledCode = .ok v ∧ 3 < v.size ∧
      v.IsSegment 3 ⟨2, 4⟩ := by
  have hfound : ∃ v, decode .generalPurpose ⟨.game, 6156, .x64⟩ calledCode = .ok v ∧
      3 < v.size ∧ v.subroutine 3 = .ok ⟨2, 4⟩ :=
    ⟨_, rfl, by decide, by decide +kernel⟩
  rcases hfound with ⟨v, hdecode, hsize, hsubroutine⟩
  rcases v.subroutine_partition hsize with ⟨s, hs, hsegment, _⟩
  cases hs.symm.trans hsubroutine
  exact ⟨v, hdecode, hsize, hsegment⟩

end Variant
end JumpHooks

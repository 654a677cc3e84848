import JumpHooks.Proofs.Code.Segmentation
import Mathlib.Tactic.IntervalCases

/-!
# Padding

The walks around an instruction ask what stands before and behind it, and not what it is itself.
Around padding they end at once only at more padding, at an entered instruction and at the ends of
the code. Everywhere else they go on through the code that touches the padding, so that the
subroutine around it is no segment of its own.
-/

namespace JumpHooks
namespace Variant

theorem lt_size_of_isPadding {v : Variant} {i : Nat} (h : v.isPadding i = true) :
    i < v.size := by
  unfold isPadding at h
  cases hp : v.instructions[i]? with
  | none =>
      rw [hp] at h
      cases h
  | some p => exact lt_size_of_instruction hp

/-!
# Segments of one instruction
-/

/-- No code that touches instruction `i` goes on in it. -/
def StandsAlone (v : Variant) (i : Nat) : Prop :=
  v.BeginsAt i ∧ v.EndsAt (i + 1)

namespace IsSegment

variable {v : Variant} {i : Nat} {s t : Subroutine}

theorem start_eq_iff (h : v.IsSegment i s) : s.start = i ↔ v.BeginsAt i := by
  constructor
  · intro heq
    rw [← heq]
    exact h.start.1.2
  · intro hbegins
    exact Nat.le_antisymm h.start_le (h.le_start (Nat.le_refl i) hbegins)

theorem stop_eq_iff (h : v.IsSegment i s) : s.stop = i + 1 ↔ v.EndsAt (i + 1) := by
  constructor
  · intro heq
    rw [← heq]
    exact h.stop.1.2
  · intro hends
    exact Nat.le_antisymm (h.stop_le (Nat.lt_succ_self i) hends) h.lt_stop

theorem eq_single_iff (h : v.IsSegment i s) : s = ⟨i, i + 1⟩ ↔ v.StandsAlone i := by
  unfold StandsAlone
  rw [← h.start_eq_iff, ← h.stop_eq_iff]
  cases s
  simp

/-- Where no subroutine can begin, the walk back goes on from the instruction before. -/
theorem start_eq_start (ht : v.IsSegment i t) (hs : v.IsSegment (i + 1) s)
    (h : ¬ v.BeginsAt (i + 1)) : s.start = t.start := by
  apply Nat.le_antisymm
  · have hne : s.start ≠ i + 1 := mt hs.start_eq_iff.mp h
    have hle := hs.start_le
    exact ht.le_start (by lia) hs.start.1.2
  · exact ht.start_le_start hs (Nat.le_succ i)

/-- Where no subroutine can end, the walk forward goes on from the next instruction. -/
theorem stop_eq_stop (hs : v.IsSegment i s) (ht : v.IsSegment (i + 1) t)
    (h : ¬ v.EndsAt (i + 1)) : s.stop = t.stop := by
  apply Nat.le_antisymm
  · have hlt := ht.lt_stop
    exact hs.stop_le (by lia) ht.stop.1.2
  · have hne : s.stop ≠ i + 1 := mt hs.stop_eq_iff.mp h
    have hlt := hs.lt_stop
    exact ht.stop_le (by lia) hs.stop.1.2

end IsSegment

/-!
# Segments of padding
-/

/-- The subroutine `s` around the padding `i`. It begins where the subroutine before the padding
does and ends where the one behind it does, unless the padding is at an edge on this side. -/
structure IsPaddingSegment (v : Variant) (i : Nat) (s : Subroutine) : Prop where
  start : v.BeginsAt i ∧ s.start = i ∨
    ¬ v.BeginsAt i ∧ ∃ t, v.subroutine (i - 1) = .ok t ∧ t.stop = i ∧ s.start = t.start
  stop : v.EndsAt (i + 1) ∧ s.stop = i + 1 ∨
    ¬ v.EndsAt (i + 1) ∧ ∃ t, v.subroutine (i + 1) = .ok t ∧ t.start = i + 1 ∧
      s.stop = t.stop

/-- The subroutines around any two instructions are the same or have nothing in common. -/
def IsPartitioned (v : Variant) : Prop :=
  ∀ i j s t, v.subroutine i = .ok s → v.subroutine j = .ok t →
    s = t ∨ Disjoint (Set.Ico s.start s.stop) (Set.Ico t.start t.stop)

theorem subroutine_eq_ok_iff {v : Variant} {i : Nat} {s : Subroutine} :
    v.subroutine i = .ok s ↔ i < v.size ∧ v.subroutineAt i = s := by
  unfold subroutine
  by_cases hi : i < v.size
  · rw [if_pos hi]
    simp [hi]
  · rw [if_neg hi]
    simp [hi]

theorem IsPartitioned.eq_of_mem {v : Variant} (h : v.IsPartitioned) {i j m : Nat}
    {s t : Subroutine} (hs : v.subroutine i = .ok s) (ht : v.subroutine j = .ok t)
    (hms : m ∈ Set.Ico s.start s.stop) (hmt : m ∈ Set.Ico t.start t.stop) : s = t := by
  rcases h i j s t hs ht with heq | hdisjoint
  · exact heq
  · exact absurd hmt (Set.disjoint_left.mp hdisjoint hms)

variable {i : Nat}

theorem isPaddingSegment (v : Variant) (hi : v.isPadding i = true) :
    v.IsPaddingSegment i (v.subroutineAt i) := by
  have hsize := lt_size_of_isPadding hi
  have hs := v.subroutineAt_isSegment hsize
  constructor
  · by_cases hbegins : v.BeginsAt i
    · exact .inl ⟨hbegins, hs.start_eq_iff.mpr hbegins⟩
    · refine .inr ⟨hbegins, v.subroutineAt (i - 1), subroutine_eq_ok (by lia), ?_⟩
      cases i with
      | zero => exact absurd (.inl rfl) hbegins
      | succ k =>
          have ht := v.subroutineAt_isSegment (i := k) (by lia)
          exact ⟨ht.stop_eq_iff.mpr (endsAt_of_isPadding hi), ht.start_eq_start hs hbegins⟩
  · by_cases hends : v.EndsAt (i + 1)
    · exact .inl ⟨hends, hs.stop_eq_iff.mpr hends⟩
    · have hne : i + 1 ≠ v.size := fun heq => hends (.inl heq)
      have ht := v.subroutineAt_isSegment (i := i + 1) (by lia)
      exact .inr ⟨hends, v.subroutineAt (i + 1), subroutine_eq_ok (by lia),
        ht.start_eq_iff.mpr (beginsAt_succ_of_isPadding hi), hs.stop_eq_stop ht hends⟩

/-- In a partition no code shares an instruction with the padding that it touches. -/
theorem standsAlone_of_isPartitioned (v : Variant) (h : v.IsPartitioned)
    (hi : v.isPadding i = true) : v.StandsAlone i := by
  have hsize := lt_size_of_isPadding hi
  have hs := v.subroutineAt_isSegment hsize
  have hstart := hs.start_le
  have hstop := hs.lt_stop
  rcases v.isPaddingSegment hi with ⟨hbefore, hbehind⟩
  constructor
  · rcases hbefore with ⟨hbegins, _⟩ | ⟨_, t, ht, htstop, htstart⟩
    · exact hbegins
    · rcases subroutine_eq_ok_iff.mp ht with ⟨hlt, rfl⟩
      have hprevious := (v.subroutineAt_isSegment hlt).lt_stop
      have hle := (v.subroutineAt_isSegment hlt).start_le
      have heq := h.eq_of_mem (m := i - 1) (subroutine_eq_ok hsize) ht
        ⟨by lia, by lia⟩ ⟨hle, hprevious⟩
      rw [heq, htstop] at hstop
      exact absurd hstop (lt_irrefl i)
  · rcases hbehind with ⟨hends, _⟩ | ⟨_, t, ht, htstart, htstop⟩
    · exact hends
    · rcases subroutine_eq_ok_iff.mp ht with ⟨hlt, rfl⟩
      have hnext := (v.subroutineAt_isSegment hlt).lt_stop
      have heq := h.eq_of_mem (m := i + 1) (subroutine_eq_ok hsize) ht
        ⟨by lia, by lia⟩ ⟨htstart.le, hnext⟩
      rw [heq, htstart] at hstart
      lia

/-- If all padding stands alone, each segment is the segment of everything in it. -/
theorem isSegment_of_mem (v : Variant) (hi : i < v.size)
    (halone : v.isPadding i = true → v.StandsAlone i) {m : Nat}
    (hm : m ∈ Set.Ico (v.subroutineAt i).start (v.subroutineAt i).stop) :
    v.IsSegment m (v.subroutineAt i) := by
  have hs := v.subroutineAt_isSegment hi
  cases hpadding : v.isPadding i with
  | false => exact hs.of_mem hi hpadding hm.1 hm.2
  | true =>
      have hsingle := hs.eq_single_iff.mpr (halone hpadding)
      rw [hsingle] at hm
      have heq : m = i := Nat.le_antisymm (Nat.le_of_lt_succ hm.2) hm.1
      rw [heq]
      exact hs

theorem isPartitioned_of_standsAlone (v : Variant)
    (halone : ∀ i, v.isPadding i = true → v.StandsAlone i) : v.IsPartitioned := by
  intro i j s t hs ht
  rcases subroutine_eq_ok_iff.mp hs with ⟨hi, rfl⟩
  rcases subroutine_eq_ok_iff.mp ht with ⟨hj, rfl⟩
  by_cases heq : v.subroutineAt i = v.subroutineAt j
  · exact .inl heq
  · right
    rw [Set.disjoint_left]
    intro m hmi hmj
    have hsm := v.isSegment_of_mem hi (halone i) hmi
    have htm := v.isSegment_of_mem hj (halone j) hmj
    exact heq (hsm.unique htm)

/-- The subroutine around padding is the padding alone exactly if code neither runs into it nor
follows it, and takes in this code otherwise. So the subroutines around all instructions form a
partition exactly if all padding stands alone. -/
theorem padding_segments (v : Variant) :
    (∀ i, v.isPadding i = true →
      ∃ s, v.subroutine i = .ok s ∧ v.IsPaddingSegment i s ∧
        (s = ⟨i, i + 1⟩ ↔ v.StandsAlone i)) ∧
    (v.IsPartitioned ↔ ∀ i, v.isPadding i = true → v.StandsAlone i) := by
  constructor
  · intro i hi
    have hsize := lt_size_of_isPadding hi
    exact ⟨v.subroutineAt i, subroutine_eq_ok hsize, v.isPaddingSegment hi,
      (v.subroutineAt_isSegment hsize).eq_single_iff⟩
  · constructor
    · intro hpartitioned i hi
      exact v.standsAlone_of_isPartitioned hpartitioned hi
    · exact v.isPartitioned_of_standsAlone

/-- Padding in front of a function that calls itself. -/
def recursiveCode : Section where
  image := ⟨0x180000000, 0x100000⟩
  address := 0x180001000
  bytes := [0xCC, 0xCC, 0xE8, 0xFB, 0xFF, 0xFF, 0xFF, 0xC3]

set_option maxRecDepth 10000 in
theorem padding_segments_recursive :
    ∃ v, Variant.decode .generalPurpose ⟨.game, 6156, .x64⟩ recursiveCode = .ok v ∧
      v.isPadding 0 = true ∧ v.isPadding 1 = true ∧
      v.subroutine 1 = .ok ⟨1, 2⟩ ∧ v.IsPartitioned := by
  have hfound : ∃ v, Variant.decode .generalPurpose ⟨.game, 6156, .x64⟩ recursiveCode = .ok v ∧
      v.size = 4 ∧ v.isEntered 2 = true ∧
      (List.range 4).map v.isPadding = [true, true, false, false] :=
    ⟨_, rfl, by decide, by decide +kernel, by decide +kernel⟩
  rcases hfound with ⟨v, hdecode, hsize, hcalled, hkinds⟩
  simp only [List.range, List.range.loop, List.map_cons, List.map_nil, List.cons.injEq,
    and_true] at hkinds
  rcases hkinds with ⟨hfirst, hsecond, hcall, hret⟩
  have hentered := v.isEntered_iff_entered.mp hcalled
  have hbehind : v.StandsAlone 1 := ⟨.inr (.inr hfirst), .inr (.inl hentered)⟩
  rcases v.padding_segments with ⟨hpadding, hpartitioned⟩
  rcases hpadding 1 hsecond with ⟨s, hs, _, hsingle⟩
  rw [hsingle.mpr hbehind] at hs
  refine ⟨v, hdecode, hfirst, hsecond, hs, hpartitioned.mpr ?_⟩
  intro i hi
  have hlt : i < 4 := hsize ▸ lt_size_of_isPadding hi
  interval_cases i
  · exact ⟨.inl rfl, .inr (.inr hsecond)⟩
  · exact hbehind
  · exact absurd hi (by rw [hcall]; decide)
  · exact absurd hi (by rw [hret]; decide)

/-- Two functions with one instruction of padding in between. -/
def paddedCode : Section where
  image := ⟨0x180000000, 0x100000⟩
  address := 0x180001000
  bytes := [0xC3, 0xCC, 0xC3]

set_option maxRecDepth 10000 in
/-- The subroutine around the padding is made of both functions, and shares an instruction with the
subroutine around the first of them. -/
theorem padding_joins_functions :
    ∃ v, Variant.decode .generalPurpose ⟨.game, 6156, .x64⟩ paddedCode = .ok v ∧
      v.isPadding 1 = true ∧ v.subroutine 1 = .ok ⟨0, 3⟩ ∧
      v.subroutine 0 = .ok ⟨0, 1⟩ ∧ ¬ v.IsPartitioned := by
  have hdecode : decode .generalPurpose ⟨.game, 6156, .x64⟩ paddedCode = .ok _ := rfl
  refine ⟨_, hdecode, by decide +kernel, by decide +kernel, by decide +kernel, ?_⟩
  intro hpartitioned
  have heq := hpartitioned.eq_of_mem (i := 1) (j := 0) (m := 0) (s := ⟨0, 3⟩) (t := ⟨0, 1⟩)
    (by decide +kernel) (by decide +kernel) (by decide) (by decide)
  cases heq

end Variant
end JumpHooks

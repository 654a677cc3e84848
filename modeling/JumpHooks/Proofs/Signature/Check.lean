import JumpHooks.Signature.Pattern
import JumpHooks.Proofs.Code.Segmentation
import JumpHooks.Proofs.Outcome

/-!
# Checks

A pattern none of whose rules asks for the place after the last instruction always has an
answer, and the answer says whether every rule holds.
-/

namespace JumpHooks

/-!
# Rules
-/

theorem Position.resolve_ok {position : Position} (h : position ≠ .fromEnd 0)
    (window : List Placed) : ∃ o, position.resolve window = .ok o := by
  unfold Position.resolve
  cases position with
  | fromStart i => exact ⟨_, rfl⟩
  | fromEnd n =>
      dsimp only
      by_cases hn : n ≤ window.length
      · have hpos : n ≠ 0 := by
          intro heq
          subst heq
          exact h rfl
        rw [if_pos hn, List.getElem?_eq_getElem (by lia)]
        exact ⟨_, rfl⟩
      · rw [if_neg hn]
        exact ⟨_, rfl⟩

theorem Predicate.reaches_ok {position : Position} (h : position ≠ .fromEnd 0)
    (window : List Placed) (target : UInt64) :
    ∃ b, Predicate.reaches window target position = .ok b := by
  rcases Position.resolve_ok h window with ⟨o, ho⟩
  unfold Predicate.reaches
  rw [ho]
  cases o with
  | none => exact ⟨_, rfl⟩
  | some p => exact ⟨_, rfl⟩

namespace Rule

/-- A rule that does not ask for the place after the last instruction has an answer. -/
theorem holds_ok {r : Rule} (hr : r.predicate ≠ .branch (.fromEnd 0)) (window : List Placed) :
    ∃ b, r.holds window = .ok b := by
  unfold Rule.holds Predicate.holds
  cases window[r.index]? with
  | none => exact ⟨_, rfl⟩
  | some p =>
      cases hpredicate : r.predicate with
      | exact i => exact ⟨_, rfl⟩
      | form f => exact ⟨_, rfl⟩
      | register operand register => exact ⟨_, rfl⟩
      | branch position =>
          dsimp only
          cases p.instruction.target? with
          | none => exact ⟨_, rfl⟩
          | some target =>
              apply Predicate.reaches_ok
              intro heq
              subst heq
              exact hr hpredicate

theorem firstFailure_ok {rules : List Rule} {window : List Placed}
    (h : ∀ r ∈ rules, ∃ b, r.holds window = .ok b) (number : Nat) :
    ∃ reason, firstFailure window number rules = .ok reason ∧
      (reason = none ↔ ∀ r ∈ rules, r.holds window = .ok true) := by
  induction rules generalizing number with
  | nil => exact ⟨none, rfl, by simp⟩
  | cons r rules ih =>
      rcases h r List.mem_cons_self with ⟨b, hb⟩
      unfold firstFailure
      rw [hb]
      cases b with
      | false => exact ⟨_, rfl, by simp [hb]⟩
      | true =>
          rcases ih (fun r hr => h r (List.mem_cons_of_mem _ hr)) (number + 1) with
            ⟨reason, hreason, hiff⟩
          refine ⟨reason, hreason, ?_⟩
          rw [hiff]
          simp [hb]

end Rule

namespace Pattern

/-!
# Accepted anchors
-/

/-- No rule asks for the place after the last instruction. -/
def NamesInstructions (p : Pattern) : Prop :=
  ∀ r ∈ p.rules, r.predicate ≠ .branch (.fromEnd 0)

instance (p : Pattern) : Decidable p.NamesInstructions :=
  inferInstanceAs (Decidable (∀ r ∈ p.rules, r.predicate ≠ .branch (.fromEnd 0)))

/-- The subroutine around instruction `i` satisfies the pattern, seen from this instruction. -/
structure AcceptsFrom (p : Pattern) (v : Variant) (i : Nat) : Prop where
  anchor : ∃ q, v.instructions[i]? = some q ∧ q.instruction = p.anchor
  offset : i - (v.subroutineAt i).start ∈ p.offsets
  minimum : p.minimum ≤ (v.subroutineAt i).size
  rules : ∀ r ∈ p.rules, r.holds (v.slice i (v.subroutineAt i).stop) = .ok true

/-- The subroutine satisfies the pattern, seen from one of its anchors. -/
def Accepts (p : Pattern) (v : Variant) (s : Subroutine) : Prop :=
  ∃ i, p.AcceptsFrom v i ∧ s = v.subroutineAt i

theorem check_eq_firstFailure {p : Pattern} {v : Variant} {s : Subroutine} {i : Nat}
    (hstart : s.start ≤ i) (hstop : i < s.stop) (hoffset : i - s.start ∈ p.offsets)
    (hminimum : p.minimum ≤ s.size) :
    p.check v s i = Rule.firstFailure (v.slice i s.stop) 0 p.rules := by
  unfold check
  rw [if_neg (Nat.not_lt.mpr hstart), if_neg (by simpa using hoffset),
    if_neg (Nat.not_lt.mpr hminimum), if_neg (by lia)]

/-- The rules are only asked if the anchor is in its place and the subroutine is long enough. -/
theorem exists_check_eq_some {p : Pattern} {v : Variant} {s : Subroutine} {i : Nat}
    (hstart : s.start ≤ i) (h : ¬ (i - s.start ∈ p.offsets ∧ p.minimum ≤ s.size)) :
    ∃ reason, p.check v s i = .ok (some reason) := by
  unfold check
  rw [if_neg (Nat.not_lt.mpr hstart)]
  by_cases hoffset : i - s.start ∈ p.offsets
  · have hsize : s.size < p.minimum := Nat.not_le.mp fun hle => h ⟨hoffset, hle⟩
    rw [if_neg (by simpa using hoffset), if_pos hsize]
    exact ⟨_, rfl⟩
  · rw [if_pos (by simpa using hoffset)]
    exact ⟨_, rfl⟩

theorem check_ok {p : Pattern} (hp : p.NamesInstructions) {v : Variant} {s : Subroutine}
    {i : Nat} (hstart : s.start ≤ i) (hstop : i < s.stop) :
    ∃ reason, p.check v s i = .ok reason ∧
      (reason = none ↔ i - s.start ∈ p.offsets ∧ p.minimum ≤ s.size ∧
        ∀ r ∈ p.rules, r.holds (v.slice i s.stop) = .ok true) := by
  by_cases hfits : i - s.start ∈ p.offsets ∧ p.minimum ≤ s.size
  · rw [check_eq_firstFailure hstart hstop hfits.1 hfits.2]
    rcases Rule.firstFailure_ok (fun r hr => Rule.holds_ok (hp r hr) (v.slice i s.stop)) 0
      with ⟨reason, hreason, hiff⟩
    refine ⟨reason, hreason, ?_⟩
    rw [hiff, ← and_assoc, and_iff_right hfits]
  · rcases exists_check_eq_some hstart hfits with ⟨reason, hreason⟩
    refine ⟨some reason, hreason, ?_⟩
    constructor
    · intro h
      cases h
    · rintro ⟨hoffset, hminimum, _⟩
      exact absurd ⟨hoffset, hminimum⟩ hfits

theorem mem_anchors {p : Pattern} {v : Variant} {i : Nat} :
    i ∈ p.anchors v ↔ ∃ q, v.instructions[i]? = some q ∧ q.instruction = p.anchor := by
  unfold anchors
  constructor
  · intro h
    rcases List.mem_filterMap.mp h with ⟨⟨q, j⟩, hmem, hsome⟩
    rw [List.mk_mem_zipIdx_iff_getElem?, Array.getElem?_toList] at hmem
    dsimp only at hsome
    split at hsome
    · rename_i heq
      cases hsome
      exact ⟨q, hmem, heq⟩
    · cases hsome
  · intro h
    rcases h with ⟨q, hq, heq⟩
    refine List.mem_filterMap.mpr ⟨(q, i), ?_, if_pos heq⟩
    rw [List.mk_mem_zipIdx_iff_getElem?, Array.getElem?_toList]
    exact hq

theorem lt_size_of_mem_anchors {p : Pattern} {v : Variant} {i : Nat} (hi : i ∈ p.anchors v) :
    i < v.size := by
  rcases mem_anchors.mp hi with ⟨q, hq, _⟩
  exact Variant.lt_size_of_instruction hq

theorem isSegment_of_mem_anchors {p : Pattern} {v : Variant} {i : Nat}
    (hi : i ∈ p.anchors v) : v.IsSegment i (v.subroutineAt i) :=
  v.subroutineAt_isSegment (lt_size_of_mem_anchors hi)

theorem anchors_ascending (p : Pattern) (v : Variant) : (p.anchors v).Pairwise (· < ·) := by
  have hindices : v.instructions.toList.zipIdx.Pairwise fun a b => a.2 < b.2 := by
    rw [← List.pairwise_map, List.zipIdx_map_snd]
    exact List.pairwise_lt_range'
  refine List.Pairwise.filterMap _ ?_ hindices
  intro a b hab i hi j hj
  dsimp only at hi hj
  split at hi
  · split at hj
    · cases hi
      cases hj
      exact hab
    · cases hj
  · cases hi

end Pattern
end JumpHooks

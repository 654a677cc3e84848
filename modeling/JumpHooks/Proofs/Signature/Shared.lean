import JumpHooks.Proofs.Signature.Candidates
import JumpHooks.Signature.Catalog

/-!
# Subroutines that two signatures look for

The 64-bit patterns of the catalog want different instructions in the first place, so no
subroutine satisfies both. The 32-bit ones begin alike. What keeps them apart is the place of
the anchor and the third instruction, about which only one of them says anything.
-/

namespace JumpHooks

namespace Variant

/-- The instruction loads four bytes into `eax`. -/
def LoadsAccumulator (v : Variant) (i : Nat) : Prop :=
  ∃ q, v.instructions[i]? = some q ∧ q.instruction.form = .load .dword ∧
    q.instruction.operands[0]? = some (.register .eax)

theorem getElem?_slice {v : Variant} {start stop k : Nat} (h : start + k < stop) :
    (v.slice start stop)[k]? = v.instructions[start + k]? := by
  unfold slice
  rw [Array.getElem?_toList, Array.getElem?_extract]
  by_cases hsize : start + k < v.instructions.size
  · rw [if_pos (by lia)]
  · rw [if_neg (by lia), Array.getElem?_eq_none (Nat.not_lt.mp hsize)]

end Variant

/-!
# Rules of a window
-/

namespace Predicate

theorem isRegister_eq_true {i : Instruction} {operand : Nat} {r : Register} :
    isRegister i operand (some r) = true ↔ i.operands[operand]? = some (.register r) := by
  unfold isRegister
  cases i.operands[operand]? with
  | none => simp
  | some o => cases o <;> simp

end Predicate

namespace Rule

theorem form_holds {window : List Placed} {k : Nat} {f : Form} :
    (⟨k, .form f⟩ : Rule).holds window = .ok true ↔
      ∃ q, window[k]? = some q ∧ q.instruction.form = f := by
  unfold Rule.holds Predicate.holds
  cases window[k]? <;> simp

theorem register_holds {window : List Placed} {k operand : Nat} {r : Register} :
    (⟨k, .register operand (some r)⟩ : Rule).holds window = .ok true ↔
      ∃ q, window[k]? = some q ∧ q.instruction.operands[operand]? = some (.register r) := by
  unfold Rule.holds Predicate.holds
  cases window[k]? <;> simp [Predicate.isRegister_eq_true]

end Rule

/-!
# Both signatures of the catalog
-/

namespace Pattern

/-- A pattern that takes anchors only in the first place is satisfied from there. -/
theorem Accepts.of_start {p : Pattern} {v : Variant} {s : Subroutine}
    (hoffsets : p.offsets = [0]) (h : p.Accepts v s) :
    s = v.subroutineAt s.start ∧ p.AcceptsFrom v s.start := by
  rcases h with ⟨i, hi, heq⟩
  have hle := (v.subroutineAt_isSegment hi.lt_size).start_le
  have hoffset := hi.offset
  rw [hoffsets, List.mem_singleton] at hoffset
  rw [← heq] at hle hoffset
  have hstart : s.start = i := by lia
  rw [hstart]
  exact ⟨heq, hi⟩

end Pattern

namespace GameWarning

theorem not_accepts_both64 {v : Variant} {s : Subroutine}
    (hgame : pattern64.Accepts v s) : ¬ CryWarning.pattern64.Accepts v s := by
  intro hcry
  rcases (hgame.of_start rfl).2.anchor with ⟨q, hq, hanchor⟩
  rcases (hcry.of_start rfl).2.anchor with ⟨r, hr, hother⟩
  rw [hq] at hr
  cases hr
  rw [hanchor] at hother
  exact absurd hother (by decide)

/-- The third instruction of a subroutine that is found is a load into `eax`. -/
theorem loadsAccumulator {v : Variant} {i : Nat} (h : pattern32.AcceptsFrom v i)
    (hlong : i + 2 < (v.subroutineAt i).stop) : v.LoadsAccumulator (i + 2) := by
  rcases Rule.form_holds.mp (h.rules ⟨2, .form (.load .dword)⟩ (by decide)) with ⟨q, hq, hform⟩
  rcases Rule.register_holds.mp (h.rules ⟨2, .register 0 (some .eax)⟩ (by decide)) with
    ⟨r, hr, hregister⟩
  rw [hq] at hr
  cases hr
  rw [Variant.getElem?_slice hlong] at hq
  exact ⟨q, hq, hform, hregister⟩

/-- The rules that the other 32-bit pattern does not have are those about the load. -/
theorem acceptsFrom_of_cryWarning {v : Variant} {i : Nat}
    (h : CryWarning.pattern32.AcceptsFrom v i) (hstart : i = (v.subroutineAt i).start)
    (hload : v.LoadsAccumulator (i + 2)) : pattern32.AcceptsFrom v i := by
  have hminimum := h.minimum
  change 30 ≤ (v.subroutineAt i).stop - (v.subroutineAt i).start at hminimum
  rcases hload with ⟨q, hq, hform, hregister⟩
  have hlong : i + 2 < (v.subroutineAt i).stop := by lia
  rw [← Variant.getElem?_slice hlong] at hq
  refine ⟨h.anchor, ?_, ?_, ?_⟩
  · rw [← hstart, Nat.sub_self]
    decide
  · show 14 ≤ (v.subroutineAt i).stop - (v.subroutineAt i).start
    lia
  · intro r hr
    by_cases hshared : r ∈ CryWarning.pattern32.rules
    · exact h.rules r hshared
    · have hown : r = ⟨2, .form (.load .dword)⟩ ∨ r = ⟨2, .register 0 (some .eax)⟩ := by
        revert r
        decide
      rcases hown with heq | heq
      · rw [heq]
        exact Rule.form_holds.mpr ⟨q, hq, hform⟩
      · rw [heq]
        exact Rule.register_holds.mpr ⟨q, hq, hregister⟩

/-- Both 32-bit patterns are satisfied by what satisfies the longer one from the first
instruction on, and loads into `eax` where this one has no rule. -/
theorem accepts_both32 {v : Variant} {s : Subroutine} :
    pattern32.Accepts v s ∧ CryWarning.pattern32.Accepts v s ↔
      s = v.subroutineAt s.start ∧ CryWarning.pattern32.AcceptsFrom v s.start ∧
        v.LoadsAccumulator (s.start + 2) := by
  constructor
  · intro h
    rcases h.1.of_start rfl with ⟨heq, hgame⟩
    have hminimum := hgame.minimum
    change 14 ≤ (v.subroutineAt s.start).stop - (v.subroutineAt s.start).start at hminimum
    rw [← heq] at hminimum
    have hload := loadsAccumulator hgame (by rw [← heq]; lia)
    rcases h.2 with ⟨j, hcry, hsegment⟩
    have hle := (v.subroutineAt_isSegment hcry.lt_size).start_le
    have hoffset : j - (v.subroutineAt j).start ∈ [0, 2] := hcry.offset
    rw [← hsegment] at hle hoffset
    rcases List.mem_cons.mp hoffset with hzero | htwo
    · have hstart : j = s.start := by lia
      rw [hstart] at hcry
      exact ⟨heq, hcry, hload⟩
    · -- The anchor would stand where the other pattern wants the load.
      have hstart : j = s.start + 2 := by
        have hdistance := List.mem_singleton.mp htwo
        lia
      rcases hcry.anchor with ⟨q, hq, hanchor⟩
      rcases hload with ⟨r, hr, hform, _⟩
      rw [← hstart, hq] at hr
      cases hr
      rw [hanchor] at hform
      exact absurd hform (by decide)
  · intro h
    rcases h with ⟨heq, hcry, hload⟩
    have hstart : s.start = (v.subroutineAt s.start).start := congrArg Subroutine.start heq
    exact ⟨⟨_, acceptsFrom_of_cryWarning hcry hstart hload, heq⟩, _, hcry, heq⟩

end GameWarning

namespace Signature

/-- The search for the signature in the variant comes upon the subroutine. -/
def Candidate (g : Signature) (v : Variant) (s : Subroutine) : Prop :=
  ∃ p found, g.pattern v.id.bitness = .ok p ∧ p.candidates v = .ok found ∧ s ∈ found

theorem candidate_iff {g : Signature} {v : Variant} {p : Pattern}
    (hpattern : g.pattern v.id.bitness = .ok p) (hp : p.NamesInstructions) (s : Subroutine) :
    g.Candidate v s ↔ p.Accepts v s := by
  rcases Pattern.candidates_isSearchResult hp v with ⟨found, hfound, hresult⟩
  rw [← hresult.mem_iff]
  constructor
  · intro h
    rcases h with ⟨p', found', hpattern', hfound', hs⟩
    rw [hpattern] at hpattern'
    cases hpattern'
    rw [hfound] at hfound'
    cases hfound'
    exact hs
  · intro hs
    exact ⟨p, found, hpattern, hfound, hs⟩

/-- Both signatures of the catalog look for the subroutine. -/
def Shared (v : Variant) (s : Subroutine) : Prop :=
  gameWarning.Candidate v s ∧ cryWarning.Candidate v s

theorem shared_iff {v : Variant} (s : Subroutine) :
    Shared v s ↔ v.id.bitness = .x86 ∧ s = v.subroutineAt s.start ∧
      CryWarning.pattern32.AcceptsFrom v s.start ∧ v.LoadsAccumulator (s.start + 2) := by
  unfold Shared
  cases hbitness : v.id.bitness with
  | x64 =>
      have hgame : gameWarning.pattern v.id.bitness = .ok GameWarning.pattern64 := by
        rw [hbitness]
        rfl
      have hcry : cryWarning.pattern v.id.bitness = .ok CryWarning.pattern64 := by
        rw [hbitness]
        rfl
      rw [candidate_iff hgame (by decide), candidate_iff hcry (by decide)]
      constructor
      · intro h
        exact absurd h.2 (GameWarning.not_accepts_both64 h.1)
      · intro h
        cases h.1
  | x86 =>
      have hgame : gameWarning.pattern v.id.bitness = .ok GameWarning.pattern32 := by
        rw [hbitness]
        rfl
      have hcry : cryWarning.pattern v.id.bitness = .ok CryWarning.pattern32 := by
        rw [hbitness]
        rfl
      rw [candidate_iff hgame (by decide), candidate_iff hcry (by decide),
        GameWarning.accepts_both32]
      simp

end Signature
end JumpHooks

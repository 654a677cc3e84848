import JumpHooks.Hook.Size
import JumpHooks.Proofs.Outcome
import Mathlib.Data.List.Induction

/-!
# Agreement on a size

The targets of one instruction set agree on a size if each of them gives up the same number of
bytes. Otherwise there is a first one that cannot agree with those in front of it, and the
error is about this one.
-/

namespace JumpHooks
namespace HookSize

variable {signature : String} {b : Bitness} {required : Nat}

/-- The targets of an instruction set, in their order. -/
def own (b : Bitness) (targets : List Match) : List Match :=
  targets.filter fun m => m.variant.bitness == b

theorem mem_own {targets : List Match} {m : Match} :
    m ∈ own b targets ↔ m ∈ targets ∧ m.variant.bitness = b := by
  unfold own
  rw [List.mem_filter, beq_iff_eq]

theorem common_eq (targets : List Match) :
    common signature b required targets =
      (own b targets).foldlM (agree signature b required) none >>= fun agreed =>
        .ok (agreed.map Agreement.size) := rfl

/-!
# Targets that agree
-/

theorem agree_of_same {m : Match} {size build : Nat} (hm : m.cover required = some size) :
    agree signature b required (some ⟨size, build⟩) m = .ok (some ⟨size, build⟩) := by
  unfold agree
  rw [hm]
  exact if_pos rfl

theorem agree_first {m : Match} {size : Nat} (hm : m.cover required = some size) :
    agree signature b required none m = .ok (some ⟨size, m.variant.build⟩) := by
  unfold agree
  rw [hm]

/-- The size and the build of the first target last as long as the others agree. -/
theorem foldlM_agree_of_same {ms : List Match} {size build : Nat}
    (h : ∀ m ∈ ms, m.cover required = some size) :
    ms.foldlM (agree signature b required) (some ⟨size, build⟩) = .ok (some ⟨size, build⟩) := by
  induction ms with
  | nil => rfl
  | cons m ms ih =>
      rw [List.forall_mem_cons] at h
      rw [List.foldlM_cons, agree_of_same h.1]
      exact ih h.2

theorem foldlM_agree_cons {first : Match} {ms : List Match} {size : Nat}
    (h : ∀ m ∈ first :: ms, m.cover required = some size) :
    (first :: ms).foldlM (agree signature b required) none =
      .ok (some ⟨size, first.variant.build⟩) := by
  rw [List.forall_mem_cons] at h
  rw [List.foldlM_cons, agree_first h.1]
  exact foldlM_agree_of_same h.2

theorem common_of_same {targets : List Match} {size : Nat}
    (h : ∀ m ∈ own b targets, m.cover required = some size) :
    common signature b required targets = .ok ((own b targets).head?.map fun _ => size) := by
  rw [common_eq]
  cases hown : own b targets with
  | nil => rfl
  | cons first ms =>
      rw [hown] at h
      rw [foldlM_agree_cons h]
      rfl

/-!
# The first target that does not agree
-/

/-- The first of the targets that is too small or gives up another size than those in front of
it, as the error says it. -/
inductive Disagreement (signature : String) (b : Bitness) (required : Nat) (ms : List Match) :
    Error → Prop
  | tooSmall {before later : List Match} {m : Match} {size : Nat}
      (hms : ms = before ++ m :: later) (hbefore : ∀ o ∈ before, o.cover required = some size)
      (hm : m.cover required = none) :
      Disagreement signature b required ms
        (.subroutineTooSmall signature m.variant m.rva m.byteLength required)
  | otherSize {first : Match} {between later : List Match} {m : Match} {size other : Nat}
      (hms : ms = first :: between ++ m :: later)
      (hbefore : ∀ o ∈ first :: between, o.cover required = some size)
      (hm : m.cover required = some other) (hother : other ≠ size) :
      Disagreement signature b required ms
        (.inconsistentSize signature b m.variant other size first.variant.build)

theorem Disagreement.append {ms : List Match} {e : Error}
    (h : Disagreement signature b required ms e) (more : List Match) :
    Disagreement signature b required (ms ++ more) e := by
  cases h with
  | @tooSmall before later m size hms hbefore hm =>
      have hmore : ms ++ more = before ++ m :: (later ++ more) := by
        rw [hms, List.append_assoc, List.cons_append]
      exact .tooSmall hmore hbefore hm
  | @otherSize first between later m size other hms hbefore hm hother =>
      have hmore : ms ++ more = first :: between ++ m :: (later ++ more) := by
        rw [hms, List.append_assoc]
        rfl
      exact .otherSize hmore hbefore hm hother

theorem foldlM_agree_of_error {agreed : Option Agreement} {m : Match} {e : Error}
    (h : agree signature b required agreed m = .error e) (later : List Match) :
    (m :: later).foldlM (agree signature b required) agreed = .error e := by
  rw [List.foldlM_cons]
  exact Outcome.bind_eq_error.mpr (.inl h)

theorem Disagreement.foldlM_agree {ms : List Match} {e : Error}
    (h : Disagreement signature b required ms e) :
    ms.foldlM (agree signature b required) none = .error e := by
  cases h with
  | @tooSmall before later m size hms hbefore hm =>
      have herror : ∀ agreed, agree signature b required agreed m =
          .error (.subroutineTooSmall signature m.variant m.rva m.byteLength required) := by
        intro agreed
        unfold agree
        rw [hm]
      rw [hms]
      cases before with
      | nil => exact foldlM_agree_of_error (herror _) later
      | cons first between =>
          rw [List.foldlM_append]
          apply Outcome.bind_eq_error.mpr
          exact .inr ⟨_, foldlM_agree_cons hbefore, foldlM_agree_of_error (herror _) later⟩
  | @otherSize first between later m size other hms hbefore hm hother =>
      have herror : agree signature b required (some ⟨size, first.variant.build⟩) m =
          .error (.inconsistentSize signature b m.variant other size first.variant.build) := by
        unfold agree
        rw [hm]
        exact if_neg (Ne.symm hother)
      rw [hms, List.foldlM_append]
      apply Outcome.bind_eq_error.mpr
      exact .inr ⟨_, foldlM_agree_cons hbefore, foldlM_agree_of_error herror later⟩

theorem Disagreement.common_eq_error {targets : List Match} {e : Error}
    (h : Disagreement signature b required (own b targets) e) :
    common signature b required targets = .error e := by
  rw [common_eq, h.foldlM_agree]
  rfl

/-- Either all targets give up the same size, or one is the first that does not. -/
theorem same_or_disagreement (signature : String) (b : Bitness) (required : Nat)
    (ms : List Match) :
    (∃ size, ∀ m ∈ ms, m.cover required = some size) ∨
      ∃ e, Disagreement signature b required ms e := by
  -- On the targets from the last one: those in front of it agree or have a first disagreement.
  induction ms using List.reverseRecOn with
  | nil => exact .inl ⟨0, by simp⟩
  | append_singleton ms m ih =>
      rcases ih with ⟨size, hsame⟩ | ⟨e, hfirst⟩
      · cases hm : m.cover required with
        | none => exact .inr ⟨_, .tooSmall rfl hsame hm⟩
        | some other =>
            cases ms with
            | nil =>
                left
                refine ⟨other, ?_⟩
                intro o ho
                rw [List.mem_singleton.mp ho]
                exact hm
            | cons first between =>
                by_cases hother : other = size
                · left
                  refine ⟨size, ?_⟩
                  intro o ho
                  rcases List.mem_append.mp ho with hold | hlast
                  · exact hsame o hold
                  · rw [List.mem_singleton.mp hlast, hm, hother]
                · exact .inr ⟨_, .otherSize rfl hsame hm hother⟩
      · exact .inr ⟨e, hfirst.append [m]⟩

/-!
# The outcome
-/

theorem common_eq_ok_iff {targets : List Match} {agreed : Option Nat} :
    common signature b required targets = .ok agreed ↔
      ∃ size, (∀ m ∈ own b targets, m.cover required = some size) ∧
        agreed = (own b targets).head?.map fun _ => size := by
  constructor
  · intro h
    rcases same_or_disagreement signature b required (own b targets) with
      ⟨size, hsame⟩ | ⟨e, hfirst⟩
    · rw [common_of_same hsame, Except.ok.injEq] at h
      exact ⟨size, hsame, h.symm⟩
    · rw [hfirst.common_eq_error] at h
      cases h
  · intro h
    rcases h with ⟨size, hsame, hagreed⟩
    rw [hagreed]
    exact common_of_same hsame

/-- Without targets of its own, an instruction set has no size. -/
theorem common_eq_ok_none_iff {targets : List Match} :
    common signature b required targets = .ok none ↔ own b targets = [] := by
  rw [common_eq_ok_iff]
  constructor
  · intro h
    rcases h with ⟨size, _, hnone⟩
    rw [eq_comm, Option.map_eq_none_iff, List.head?_eq_none_iff] at hnone
    exact hnone
  · intro h
    rw [h]
    exact ⟨0, by simp, rfl⟩

theorem common_eq_ok_some_iff {targets : List Match} {size : Nat} :
    common signature b required targets = .ok (some size) ↔
      own b targets ≠ [] ∧ ∀ m ∈ own b targets, m.cover required = some size := by
  rw [common_eq_ok_iff]
  constructor
  · intro h
    rcases h with ⟨other, hsame, hsome⟩
    rcases Option.map_eq_some_iff.mp hsome.symm with ⟨first, hfirst, hother⟩
    rw [hother] at hsame
    refine ⟨?_, hsame⟩
    intro hnil
    rw [hnil] at hfirst
    cases hfirst
  · intro h
    rcases h with ⟨hne, hsame⟩
    refine ⟨size, hsame, ?_⟩
    rw [List.head?_eq_some_head hne]
    rfl

theorem common_eq_error_iff {targets : List Match} {e : Error} :
    common signature b required targets = .error e ↔
      Disagreement signature b required (own b targets) e := by
  constructor
  · intro h
    rcases same_or_disagreement signature b required (own b targets) with
      ⟨size, hsame⟩ | ⟨e', hfirst⟩
    · rw [common_of_same hsame] at h
      cases h
    · rw [hfirst.common_eq_error, Except.error.injEq] at h
      rw [← h]
      exact hfirst
  · intro h
    exact h.common_eq_error

/-- The order of the targets decides at most which of them an error is about. -/
theorem common_perm {targets others : List Match} (h : (own b others).Perm (own b targets))
    {agreed : Option Nat} : common signature b required others = .ok agreed ↔
      common signature b required targets = .ok agreed := by
  cases agreed with
  | none =>
      rw [common_eq_ok_none_iff, common_eq_ok_none_iff, ← List.isEmpty_iff, h.isEmpty_eq,
        List.isEmpty_iff]
  | some size =>
      simp only [common_eq_ok_some_iff, h.mem_iff, ne_eq, ← List.isEmpty_iff, h.isEmpty_eq]

/-- The size of a stub is the one that every target gives up, or that of the bare jump. -/
theorem stubSize_eq_ok {targets : List Match} {size : Nat} :
    stubSize signature b targets = .ok size ↔
      (∀ m ∈ targets, m.variant.bitness = b → m.cover (HookStub.required b) = some size) ∧
        ((∀ m ∈ targets, m.variant.bitness ≠ b) → size = HookStub.required b) := by
  have hsame : (∀ m ∈ targets, m.variant.bitness = b →
      m.cover (HookStub.required b) = some size) ↔
        ∀ m ∈ own b targets, m.cover (HookStub.required b) = some size := by
    simp only [mem_own, and_imp]
  have hnone : (∀ m ∈ targets, m.variant.bitness ≠ b) ↔ own b targets = [] := by
    simp [own]
  rw [hsame, hnone]
  unfold stubSize
  constructor
  · intro h
    rcases Outcome.bind_eq_ok.mp h with ⟨agreed, hagreed, hsize⟩
    cases agreed with
    | none =>
        cases hsize
        have hnil := common_eq_ok_none_iff.mp hagreed
        rw [hnil]
        exact ⟨by simp, fun _ => rfl⟩
    | some n =>
        cases hsize
        rcases common_eq_ok_some_iff.mp hagreed with ⟨hne, hcover⟩
        exact ⟨hcover, fun hnil => absurd hnil hne⟩
  · intro h
    rcases h with ⟨hcover, hbare⟩
    by_cases hnil : own b targets = []
    · rw [common_eq_ok_none_iff.mpr hnil, hbare hnil]
      rfl
    · rw [common_eq_ok_some_iff.mpr ⟨hnil, hcover⟩]
      rfl

end HookSize
end JumpHooks

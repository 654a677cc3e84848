import JumpHooks.Proofs.Code.Placement
import JumpHooks.Proofs.Signature.Grammar

/-!
# Matches at two places

A function that the catalog describes is still one when its code is loaded elsewhere. What the
patterns compare are forms, registers, fixed instructions and branches inside the function, and
all of these move with the code. So the searches come upon the same functions at both places.
-/

namespace JumpHooks

open Placed

/-!
# Properties that do not see the place
-/

/-- An instruction keeps the property wherever it stands. -/
def Placed.Kept (P : Placed → Prop) : Prop :=
  ∀ {b : Bitness} {shift : UInt64} {p q : Placed}, Moved b shift p q → P p → P q

theorem kept_is {i : Instruction} (hi : i.isFixed = true) : Kept (Is i) :=
  fun h => (h.instruction_eq_iff hi).mp

theorem kept_hasForm (f : Form) : Kept (HasForm f) :=
  fun h hp => h.form_eq.trans hp

theorem kept_names (operand : Nat) (r : Register) : Kept (Names operand r) :=
  fun h => h.register_iff.mp

theorem kept_and {P Q : Placed → Prop} (hP : Kept P) (hQ : Kept Q) :
    Kept fun q => P q ∧ Q q :=
  fun h hp => ⟨hP h hp.1, hQ h hp.2⟩

/-!
# Functions
-/

namespace Variant
namespace Moved

variable {shift : UInt64} {v w : Variant}

theorem length_body (h : Moved shift v w) (s : Subroutine) :
    (w.body s).length = (v.body s).length :=
  (h.body_moved s).length_eq.symm

theorem at_body (h : Moved shift v w) (s : Subroutine) {k : Nat} {P : Placed → Prop} (hP : Kept P)
    (hk : At (v.body s) k P) : At (w.body s) k P := by
  rcases hk with ⟨p, hp, hholds⟩
  rcases Outcome.forall₂_getElem? (h.body_moved s) hp with ⟨q, hq, hmoved⟩
  exact ⟨q, hq, hP hmoved hholds⟩

theorem mem_of_mem_body {v : Variant} {s : Subroutine} {p : Placed} (hp : p ∈ v.body s) :
    p ∈ v.instructions := by
  rw [body_eq] at hp
  exact Array.mem_toList_iff.mp (List.mem_of_mem_drop (List.mem_of_mem_take hp))

/-- A jump inside the function still skips the same instructions. -/
theorem skipsTo (h : Moved shift v w) (s : Subroutine) {k target : Nat}
    (hskip : SkipsTo (v.body s) v.id.bitness k target) :
    SkipsTo (w.body s) v.id.bitness k target := by
  rcases hskip with ⟨hform, p, t, hp, ht, htarget⟩
  rcases Outcome.forall₂_getElem? (h.body_moved s) hp with ⟨q, hq, hmoved⟩
  rcases Outcome.forall₂_getElem? (h.body_moved s) ht with ⟨u, hu, htmoved⟩
  have hkinds : p.instruction.form.kinds = [.relative .byte v.id.bitness.pointer] := by
    rcases hform with ⟨p', hp', hform⟩
    rw [hp] at hp'
    cases hp'
    exact congrArg Form.kinds hform
  have hreach := h.reaches t (mem_of_mem_body (List.mem_of_getElem? ht))
  have hreach' := h.reaches_moved u (mem_of_mem_body (List.mem_of_getElem? hu))
  refine ⟨h.at_body s (kept_hasForm _) hform, q, u, hq, hu, ?_⟩
  rw [htmoved.address] at hreach' ⊢
  exact (hmoved.target_iff hkinds hreach hreach').mp htarget

end Moved
end Variant

namespace GameWarning

theorem kept_stores (r : Register) : Kept (Stores r) :=
  kept_and (kept_hasForm _) (kept_names 1 r)

theorem function_moved {shift : UInt64} {v w : Variant} (h : v.Moved shift w) {s : Subroutine}
    (hv : Function v.id.bitness (v.body s)) : Function v.id.bitness (w.body s) := by
  have hlength := h.length_body s
  have hskip : ∀ {k target}, SkipsTo (v.body s) v.id.bitness k target → _ := h.skipsTo s
  cases hb : v.id.bitness with
  | x64 =>
      rw [hb] at hv hskip
      constructor
      · rw [hlength]
        exact hv.long
      · exact h.at_body s (kept_is rfl) hv.test
      · rw [hlength]
        exact hskip hv.skip
      · exact h.at_body s (kept_stores _) hv.stores_rcx
      · exact h.at_body s (kept_stores _) hv.stores_rdx
      · exact h.at_body s (kept_stores _) hv.stores_r8
      · exact h.at_body s (kept_stores _) hv.stores_r9
      · exact h.at_body s (kept_and (kept_hasForm _) (kept_names _ _)) hv.size
      · exact h.at_body s (kept_hasForm _) hv.probe
  | x86 =>
      rw [hb] at hv hskip
      constructor
      · rw [hlength]
        exact hv.long
      · exact h.at_body s (kept_is rfl) hv.size
      · exact h.at_body s (kept_hasForm _) hv.probe
      · exact h.at_body s (kept_and (kept_hasForm _) (kept_names _ _)) hv.load
      · exact h.at_body s (kept_is rfl) hv.test
      · rw [hlength]
        exact hskip hv.skip

end GameWarning

namespace CryWarning

theorem function_moved {shift : UInt64} {v w : Variant} (h : v.Moved shift w) {s : Subroutine}
    (hv : Function v.id.bitness (v.body s)) : Function v.id.bitness (w.body s) := by
  have hlength := h.length_body s
  have hskip : ∀ {k target}, SkipsTo (v.body s) v.id.bitness k target → _ := h.skipsTo s
  cases hb : v.id.bitness with
  | x64 =>
      rw [hb] at hv
      constructor
      · rw [hlength]
        exact hv.long
      · exact h.at_body s (kept_is rfl) hv.spills_r8
      · exact h.at_body s (kept_is rfl) hv.spills_r9
      · exact h.at_body s (kept_is rfl) hv.saves_rbx
      · exact h.at_body s (kept_is rfl) hv.saves_rdi
      · exact h.at_body s (kept_is rfl) hv.size
      · exact h.at_body s (kept_hasForm _) hv.probe
      · exact h.at_body s (kept_is rfl) hv.frame
  | x86 =>
      rw [hb] at hv hskip
      rcases hv with ⟨o, ho, hv⟩
      refine ⟨o, ho, ?_⟩
      constructor
      · rw [hlength]
        exact hv.long
      · exact h.at_body s (kept_is rfl) hv.size
      · exact h.at_body s (kept_hasForm _) hv.probe
      · exact h.at_body s (kept_is rfl) hv.test
      · rw [hlength]
        exact hskip hv.skip
      · exact h.at_body s (kept_is rfl) hv.compare
      · rw [hlength]
        exact hskip hv.skip_empty

end CryWarning

/-!
# Searches
-/

namespace Pattern

/-- There is one list of what a pattern accepts in address order. -/
theorem IsSearchResult.unique {p : Pattern} {v w : Variant} {found other : List Subroutine}
    (hfound : p.IsSearchResult v found) (hother : p.IsSearchResult w other)
    (h : ∀ s, p.Accepts v s ↔ p.Accepts w s) : found = other := by
  have hperm : found.Perm other := by
    rw [List.perm_ext_iff_of_nodup hfound.nodup hother.nodup]
    intro s
    rw [hfound.mem_iff, hother.mem_iff, h]
  apply hperm.eq_of_pairwise _ hfound.ascending hother.ascending
  intro s t _ _ hlt hgt
  exact absurd hgt (Nat.lt_asymm hlt)

theorem findUnique_moved {p : Pattern} (hp : p.NamesInstructions) {shift : UInt64} {v w : Variant}
    (h : v.Moved shift w) (haccepts : ∀ s, p.Accepts v s ↔ p.Accepts w s) (name : String) :
    p.findUnique name v = p.findUnique name w := by
  rcases candidates_isSearchResult hp v with ⟨found, hfound, hresult⟩
  rcases candidates_isSearchResult hp w with ⟨other, hother, hresult'⟩
  have hsame := hresult.unique hresult' haccepts
  have hrva : w.rvaOf = v.rvaOf := funext h.rvaOf_eq
  unfold findUnique
  rw [hfound, hother, ← hsame, h.id, hrva]

end Pattern

namespace Signature

/-- The signature is searched for by its patterns. They describe functions with the property `F`,
which does not depend on where the code is, and their anchors are no padding. -/
structure Describes (g : Signature) (F : Bitness → List Placed → Prop) : Prop where
  find_eq : ∀ v, g.find v = (g.pattern v.id.bitness >>= fun p => p.findUnique g.name v)
  pattern_ok : ∀ b, ∃ p, g.pattern b = .ok p ∧ p.NamesInstructions
  accepts_iff : ∀ {v : Variant} {i : Nat} {s : Subroutine}, i < v.size →
    v.isPadding i = false → v.IsSegment i s → ∀ b, ∃ p, g.pattern b = .ok p ∧
      p.NamesInstructions ∧ (p.Accepts v s ↔ F b (v.body s))
  anchor : ∀ {b p}, g.pattern b = .ok p → p.anchor.form.isPadding = false
  moved : ∀ {shift : UInt64} {v w : Variant}, v.Moved shift w → ∀ {s}, F v.id.bitness (v.body s) →
    F v.id.bitness (w.body s)

theorem describes_gameWarning : gameWarning.Describes GameWarning.Function where
  find_eq _ := rfl
  pattern_ok b := by
    cases b <;> exact ⟨_, rfl, by decide⟩
  accepts_iff := GameWarning.accepts_iff_function
  anchor := by
    intro b p hp
    cases b <;> cases hp <;> rfl
  moved := GameWarning.function_moved

theorem describes_cryWarning : cryWarning.Describes CryWarning.Function where
  find_eq _ := rfl
  pattern_ok b := by
    cases b <;> exact ⟨_, rfl, by decide⟩
  accepts_iff := CryWarning.accepts_iff_function
  anchor := by
    intro b p hp
    cases b <;> cases hp <;> rfl
  moved := CryWarning.function_moved

variable {g : Signature} {F : Bitness → List Placed → Prop} {shift : UInt64} {v w : Variant}

theorem Describes.accepts_moved (hg : g.Describes F) {p : Pattern}
    (hp : g.pattern v.id.bitness = .ok p) (h : v.Moved shift w) {s : Subroutine}
    (hs : p.Accepts v s) : p.Accepts w s := by
  rcases hs.isSegment with ⟨i, hi, hpadding, hsegment⟩
  rw [hg.anchor hp] at hpadding
  rcases hg.accepts_iff hi hpadding hsegment v.id.bitness with ⟨p', hp', _, hiff⟩
  rw [hp] at hp'
  cases hp'
  have hi' : i < w.size := h.size_eq ▸ hi
  have hpadding' := (h.isPadding_eq i).trans hpadding
  rcases hg.accepts_iff hi' hpadding' (h.isSegment hi hsegment) v.id.bitness
    with ⟨p', hp', _, hiff'⟩
  rw [hp] at hp'
  cases hp'
  exact hiff'.mpr (hg.moved h (hiff.mp hs))

theorem Describes.find_moved (hg : g.Describes F) (h : v.Moved shift w) : g.find v = g.find w := by
  rcases hg.pattern_ok v.id.bitness with ⟨p, hp, hnames⟩
  have haccepts : ∀ s, p.Accepts v s ↔ p.Accepts w s := by
    intro s
    constructor
    · exact hg.accepts_moved hp h
    · rw [← h.id] at hp
      exact hg.accepts_moved hp h.symm
  rw [hg.find_eq, hg.find_eq, h.id, hp]
  exact Pattern.findUnique_moved hnames h haccepts g.name

theorem find_moved (hg : g ∈ catalog) (h : v.Moved shift w) : g.find v = g.find w := by
  rcases List.mem_cons.mp hg with rfl | hg
  · exact describes_gameWarning.find_moved h
  · rw [List.mem_singleton.mp hg]
    exact describes_cryWarning.find_moved h

end Signature

namespace Variant

/-- The two variants have the same subroutines in the same places of their images, and searches
end in the same way. -/
structure MatchesAlike (v w : Variant) : Prop where
  lengths : v.instructions.map Placed.length = w.instructions.map Placed.length
  entered : ∀ i, v.isEntered i = w.isEntered i
  subroutine : ∀ i, v.subroutine i = w.subroutine i
  rva : ∀ s, v.rvaOf s = w.rvaOf s
  find : ∀ g ∈ Signature.catalog, g.find v = g.find w

theorem Moved.matchesAlike {shift : UInt64} {v w : Variant} (h : v.Moved shift w) :
    v.MatchesAlike w where
  lengths := h.lengths_eq.symm
  entered i := (h.isEntered_eq i).symm
  subroutine i := (h.subroutine_eq i).symm
  rva s := (h.rvaOf_eq s).symm
  find _ hg := Signature.find_moved hg h

/-- Where an image is loaded makes no difference to what is found in it. Bytes that are no
instruction are met at the same offset, and otherwise the same subroutines are found. -/
theorem decode_matches_alike {d : Disassembler} (hd : d.Relocates) {id : VariantId} {s : Section}
    {shift : UInt64} (hinside : s.isInside = true) (hinside' : (s.moved shift).isInside = true)
    (hlow : id.bitness = .x86 →
      s.image.stop.toNat ≤ 2 ^ 32 ∧ (s.moved shift).image.stop.toNat ≤ 2 ^ 32) :
    (∃ k, k < s.bytes.length ∧
      decode d id s = .error (.decode id (s.address + UInt64.ofNat k)) ∧
        decode d id (s.moved shift) =
          .error (.decode id ((s.moved shift).address + UInt64.ofNat k))) ∨
      ∃ v w, decode d id s = .ok v ∧ decode d id (s.moved shift) = .ok w ∧
        v.MatchesAlike w := by
  rcases decode_moved hd hinside hinside' hlow with hfailed | ⟨v, w, hv, hw, hmoved⟩
  · exact .inl hfailed
  · exact .inr ⟨v, w, hv, hw, hmoved.matchesAlike⟩

theorem decode_matches_alike_saving :
    Disassembler.generalPurpose.Relocates ∧ savingWarningCode.isInside = true ∧
      (savingWarningCode.moved 0x30000000).isInside = true ∧
        (savingWarningCode.moved 0x30000000).image.stop.toNat ≤ 2 ^ 32 ∧
          ∃ v w, decode .generalPurpose ⟨.system, 6156, .x86⟩ savingWarningCode = .ok v ∧
            decode .generalPurpose ⟨.system, 6156, .x86⟩ (savingWarningCode.moved 0x30000000) =
              .ok w ∧ v.MatchesAlike w := by
  have hd := Disassembler.generalPurpose_relocates
  have hinside : savingWarningCode.isInside = true := by decide
  have hinside' : (savingWarningCode.moved 0x30000000).isInside = true := by decide
  have hstop : (savingWarningCode.moved 0x30000000).image.stop.toNat ≤ 2 ^ 32 := by decide
  refine ⟨hd, hinside, hinside', hstop, ?_⟩
  rcases @decode_matches_alike _ hd ⟨.system, 6156, .x86⟩ _ _ hinside hinside'
    (fun _ => ⟨by decide, hstop⟩) with ⟨k, _, hfailed, _⟩ | hfound
  · have hdecoded : (decode .generalPurpose ⟨.system, 6156, .x86⟩ savingWarningCode).isOk =
        true := by
      decide +kernel
    rw [hfailed] at hdecoded
    cases hdecoded
  · exact hfound

end Variant
end JumpHooks

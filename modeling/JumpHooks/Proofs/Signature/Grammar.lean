import JumpHooks.Proofs.Signature.Shared

/-!
# The functions that the catalog accepts

What a pattern of the catalog accepts, said of a function alone: which instructions it consists
of, counted from its first one, and where its jumps go. The patterns themselves are searched
for from an anchor in the middle of other code and count from there and from both ends.
-/

namespace JumpHooks

/-!
# Instructions of a function
-/

namespace Placed

def Is (i : Instruction) (q : Placed) : Prop :=
  q.instruction = i

def HasForm (f : Form) (q : Placed) : Prop :=
  q.instruction.form = f

/-- The operand with this number is this register. -/
def Names (operand : Nat) (r : Register) (q : Placed) : Prop :=
  q.instruction.operands[operand]? = some (.register r)

/-- `mov r/m64, r64` from this register. -/
def Stores (r : Register) (q : Placed) : Prop :=
  q.HasForm (.store .qword) ∧ q.Names 1 r

end Placed

open Placed

/-- Instruction number `k` is there and has the property. -/
def At (body : List Placed) (k : Nat) (P : Placed → Prop) : Prop :=
  ∃ q, body[k]? = some q ∧ P q

/-- The near branch number `k` goes to instruction number `target`. -/
def BranchesTo (body : List Placed) (k target : Nat) : Prop :=
  ∃ q t, body[k]? = some q ∧ body[target]? = some t ∧ q.instruction.target? = some t.address

/-- `je` with a distance of one byte to instruction number `target`. -/
def SkipsTo (body : List Placed) (b : Bitness) (k target : Nat) : Prop :=
  At body k (HasForm (.shortJumpEqual b)) ∧ BranchesTo body k target

theorem at_and {body : List Placed} {k : Nat} {P Q : Placed → Prop} :
    At body k P ∧ At body k Q ↔ At body k fun q => P q ∧ Q q := by
  constructor
  · intro h
    rcases h with ⟨⟨q, hq, hp⟩, r, hr, hother⟩
    rw [hq] at hr
    cases hr
    exact ⟨q, hq, hp, hother⟩
  · intro h
    rcases h with ⟨q, hq, hp, hother⟩
    exact ⟨⟨q, hq, hp⟩, q, hq, hother⟩

theorem at_drop {body : List Placed} {o k : Nat} {P : Placed → Prop} :
    At (body.drop o) k P ↔ At body (o + k) P := by
  unfold At
  rw [List.getElem?_drop]

theorem branchesTo_drop {body : List Placed} {o k target : Nat} :
    BranchesTo (body.drop o) k target ↔ BranchesTo body (o + k) (o + target) := by
  unfold BranchesTo
  rw [List.getElem?_drop, List.getElem?_drop]

/-!
# Documented functions
-/

namespace GameWarning

/-- `test rcx,rcx` and a jump to the last instruction, the four register arguments stored, and
a size in `eax` for the stack probe that is called. -/
structure Function64 (body : List Placed) : Prop where
  long : 16 ≤ body.length
  test : At body 0 (Is (.testSelf .qword .rcx))
  skip : SkipsTo body .x64 1 (body.length - 1)
  stores_rcx : At body 2 (Stores .rcx)
  stores_rdx : At body 3 (Stores .rdx)
  stores_r8 : At body 4 (Stores .r8)
  stores_r9 : At body 5 (Stores .r9)
  size : At body 6 fun q => q.HasForm (.moveImmediate .dword) ∧ q.Names 0 .eax
  probe : At body 7 (HasForm (.directCall .x64))

/-- A frame of 1000h bytes, and something loaded into `eax` that is tested for zero. -/
structure Function32 (body : List Placed) : Prop where
  long : 14 ≤ body.length
  size : At body 0 (Is (.moveImmediate .dword .eax 0x1000))
  probe : At body 1 (HasForm (.directCall .x86))
  load : At body 2 fun q => q.HasForm (.load .dword) ∧ q.Names 0 .eax
  test : At body 3 (Is (.testSelf .dword .eax))
  skip : SkipsTo body .x86 4 (body.length - 2)

def Function : Bitness → List Placed → Prop
  | .x64 => Function64
  | .x86 => Function32

end GameWarning

namespace CryWarning

/-- Two spills, two pushes and a frame of 1038h bytes. -/
structure Function64 (body : List Placed) : Prop where
  long : 32 ≤ body.length
  spills_r8 : At body 0 (Is (.spill 0x18 .r8))
  spills_r9 : At body 1 (Is (.spill 0x20 .r9))
  saves_rbx : At body 2 (Is (.push .qword .rbx))
  saves_rdi : At body 3 (Is (.push .qword .rdi))
  size : At body 4 (Is (.moveImmediate .dword .eax 0x1038))
  probe : At body 5 (HasForm (.directCall .x64))
  frame : At body 6 (Is (.subtract .qword .rsp .rax))

/-- A frame of 1000h bytes behind `o` instructions, and two tests that skip all that is done
with the message. -/
structure Function32From (o : Nat) (body : List Placed) : Prop where
  long : 30 ≤ body.length
  size : At body o (Is (.moveImmediate .dword .eax 0x1000))
  probe : At body (o + 1) (HasForm (.directCall .x86))
  test : At body (o + 3) (Is (.testSelf .dword .eax))
  skip : SkipsTo body .x86 (o + 4) (body.length - 2)
  compare : At body (o + 5) (Is (.compareNull .eax))
  skip_empty : SkipsTo body .x86 (o + 6) (body.length - 2)

def Function : Bitness → List Placed → Prop
  | .x64 => Function64
  | .x86 => fun body => ∃ o, (o = 0 ∨ o = 2) ∧ Function32From o body

end CryWarning

/-!
# Rules
-/

theorem Predicate.reaches_fromEnd {window : List Placed} {n : Nat} (hn : 0 < n)
    (hlength : n ≤ window.length) {a : UInt64} :
    Predicate.reaches window a (.fromEnd n) = .ok true ↔
      ∃ t, window[window.length - n]? = some t ∧ t.address = a := by
  have hplace : window.length - n < window.length := by lia
  have hresolve : Position.resolve window (.fromEnd n) =
      .ok (some window[window.length - n]) := by
    simp only [Position.resolve, if_pos hlength, List.getElem?_eq_getElem hplace]
  unfold Predicate.reaches
  rw [hresolve, List.getElem?_eq_getElem hplace, Outcome.bind_eq_ok]
  constructor
  · intro h
    rcases h with ⟨_, heq, hreaches⟩
    cases heq
    exact ⟨_, rfl, eq_of_beq (Except.ok.inj hreaches)⟩
  · intro h
    rcases h with ⟨t, heq, haddress⟩
    cases heq
    exact ⟨_, rfl, congrArg Except.ok (beq_iff_eq.mpr haddress)⟩

namespace Rule

theorem holds_form {window : List Placed} {k : Nat} {f : Form} :
    (⟨k, .form f⟩ : Rule).holds window = .ok true ↔ At window k (HasForm f) :=
  form_holds

theorem holds_register {window : List Placed} {k operand : Nat} {r : Register} :
    (⟨k, .register operand (some r)⟩ : Rule).holds window = .ok true ↔
      At window k (Names operand r) :=
  register_holds

theorem holds_exact {window : List Placed} {k : Nat} {i : Instruction} :
    (⟨k, .exact i⟩ : Rule).holds window = .ok true ↔ At window k (Is i) := by
  unfold Rule.holds Predicate.holds At Is
  cases window[k]? <;> simp

theorem holds_branch {window : List Placed} {k n : Nat} (hn : 0 < n)
    (hlength : n ≤ window.length) :
    (⟨k, .branch (.fromEnd n)⟩ : Rule).holds window = .ok true ↔
      BranchesTo window k (window.length - n) := by
  unfold Rule.holds Predicate.holds BranchesTo
  cases window[k]? with
  | none => simp
  | some q =>
      cases htarget : q.instruction.target? with
      | none => simp [htarget]
      | some a => simp [htarget, Predicate.reaches_fromEnd hn hlength, eq_comm]

end Rule

namespace Pattern

/-!
# Patterns
-/

theorem length_body {v : Variant} {i : Nat} {s : Subroutine} (hs : v.IsSegment i s)
    (hi : i < v.size) : (v.body s).length = s.size := by
  have hstop := hs.stop_le_size hi
  unfold Variant.size at hstop
  unfold Variant.body Variant.slice Subroutine.size
  rw [Array.length_toList, Array.size_extract]
  lia

theorem getElem?_body {v : Variant} {s : Subroutine} {k : Nat} (hk : s.start + k < s.stop) :
    (v.body s)[k]? = v.instructions[s.start + k]? :=
  Variant.getElem?_slice hk

/-- The window of an anchor is the function without what stands before the anchor. -/
theorem slice_eq_drop {v : Variant} {s : Subroutine} (o : Nat) :
    v.slice (s.start + o) s.stop = (v.body s).drop o := by
  unfold Variant.body Variant.slice
  rw [Array.toList_extract, Array.toList_extract, List.extract_eq_take_drop,
    List.extract_eq_take_drop, List.drop_take, List.drop_drop]
  congr 1
  lia

/-- A function that holds no padding satisfies a pattern seen from an anchor of its own. Every
anchor in it leads to it, since it is the segment around each of its instructions. -/
theorem accepts_iff {p : Pattern} {v : Variant} {i : Nat} (hi : i < v.size)
    (hpadding : v.isPadding i = false) {s : Subroutine} (hs : v.IsSegment i s) :
    p.Accepts v s ↔ ∃ o ∈ p.offsets, At (v.body s) o (Is p.anchor) ∧
      p.minimum ≤ (v.body s).length ∧
        ∀ r ∈ p.rules, r.holds ((v.body s).drop o) = .ok true := by
  rw [length_body hs hi]
  constructor
  · intro h
    rcases h with ⟨j, hj, heq⟩
    have ht := v.subroutineAt_isSegment hj.lt_size
    have hoffset := hj.offset
    have hminimum := hj.minimum
    have hrules := hj.rules
    rw [← heq] at ht hoffset hminimum hrules
    have hplace : s.start + (j - s.start) = j := Nat.add_sub_cancel' ht.start_le
    have hwindow : v.slice j s.stop = (v.body s).drop (j - s.start) := by
      rw [← slice_eq_drop, hplace]
    rw [hwindow] at hrules
    rcases hj.anchor with ⟨q, hq, hanchor⟩
    refine ⟨j - s.start, hoffset, ⟨q, ?_, hanchor⟩, hminimum, hrules⟩
    rw [getElem?_body (by rw [hplace]; exact ht.lt_stop), hplace]
    exact hq
  · intro h
    rcases h with ⟨o, hoffset, ⟨q, hq, hanchor⟩, hminimum, hrules⟩
    have hlt : o < (v.body s).length := (List.getElem?_eq_some_iff.mp hq).1
    rw [length_body hs hi] at hlt
    unfold Subroutine.size at hlt
    have hstop : s.start + o < s.stop := by lia
    rw [getElem?_body hstop] at hq
    have hsize := Variant.lt_size_of_instruction hq
    have heq : s = v.subroutineAt (s.start + o) :=
      ((hs.of_mem hi hpadding (Nat.le_add_right _ _) hstop).unique
        (v.subroutineAt_isSegment hsize))
    refine ⟨s.start + o, ⟨⟨q, hq, hanchor⟩, ?_, ?_, ?_⟩, heq⟩
    · rw [← heq, Nat.add_sub_cancel_left]
      exact hoffset
    · rw [← heq]
      exact hminimum
    · rw [← heq, slice_eq_drop]
      exact hrules

/-- A pattern with its anchor in the first place accepts the functions that its rules describe
from there. -/
theorem accepts_iff_of_start {p : Pattern} (hoffsets : p.offsets = [0])
    {F : List Placed → Prop} (hlong : ∀ body, F body → p.minimum ≤ body.length)
    (hrules : ∀ body, p.minimum ≤ body.length →
      (At body 0 (Is p.anchor) ∧ (∀ r ∈ p.rules, r.holds body = .ok true) ↔ F body))
    {v : Variant} {i : Nat} (hi : i < v.size)
    (hpadding : v.isPadding i = false) {s : Subroutine} (hs : v.IsSegment i s) :
    p.Accepts v s ↔ F (v.body s) := by
  rw [accepts_iff hi hpadding hs, hoffsets]
  constructor
  · intro h
    rcases h with ⟨o, ho, hanchor, hminimum, hholds⟩
    rw [List.mem_singleton.mp ho] at hanchor hholds
    exact (hrules _ hminimum).mp ⟨hanchor, hholds⟩
  · intro h
    have hminimum := hlong _ h
    rcases (hrules _ hminimum).mpr h with ⟨hanchor, hholds⟩
    exact ⟨0, List.mem_singleton_self 0, hanchor, hminimum, hholds⟩

end Pattern

/-!
# The catalog
-/

namespace GameWarning

theorem rules64_iff {body : List Placed} (hlong : 16 ≤ body.length) :
    At body 0 (Is pattern64.anchor) ∧ (∀ r ∈ pattern64.rules, r.holds body = .ok true) ↔
      Function64 body := by
  have hlast : 1 ≤ body.length := by lia
  unfold pattern64
  simp only [List.forall_mem_cons, List.not_mem_nil, false_implies, implies_true, and_true,
    Rule.holds_form, Rule.holds_register, Rule.holds_branch Nat.one_pos hlast]
  constructor
  · rintro ⟨htest, hskip, hlast, h2, hrcx, h3, hrdx, h4, hr8, h5, hr9, h6, heax, hprobe⟩
    exact ⟨hlong, htest, ⟨hskip, hlast⟩, at_and.mp ⟨h2, hrcx⟩, at_and.mp ⟨h3, hrdx⟩,
      at_and.mp ⟨h4, hr8⟩, at_and.mp ⟨h5, hr9⟩, at_and.mp ⟨h6, heax⟩, hprobe⟩
  · intro h
    rcases at_and.mpr h.stores_rcx with ⟨h2, hrcx⟩
    rcases at_and.mpr h.stores_rdx with ⟨h3, hrdx⟩
    rcases at_and.mpr h.stores_r8 with ⟨h4, hr8⟩
    rcases at_and.mpr h.stores_r9 with ⟨h5, hr9⟩
    rcases at_and.mpr h.size with ⟨h6, heax⟩
    exact ⟨h.test, h.skip.1, h.skip.2, h2, hrcx, h3, hrdx, h4, hr8, h5, hr9, h6, heax, h.probe⟩

theorem rules32_iff {body : List Placed} (hlong : 14 ≤ body.length) :
    At body 0 (Is pattern32.anchor) ∧ (∀ r ∈ pattern32.rules, r.holds body = .ok true) ↔
      Function32 body := by
  have hlast : 2 ≤ body.length := by lia
  unfold pattern32
  simp only [List.forall_mem_cons, List.not_mem_nil, false_implies, implies_true, and_true,
    Rule.holds_form, Rule.holds_register, Rule.holds_exact, Rule.holds_branch Nat.two_pos hlast]
  constructor
  · rintro ⟨hsize, hprobe, hload, heax, htest, hskip, hlast⟩
    exact ⟨hlong, hsize, hprobe, at_and.mp ⟨hload, heax⟩, htest, hskip, hlast⟩
  · intro h
    rcases at_and.mpr h.load with ⟨hload, heax⟩
    exact ⟨h.size, h.probe, hload, heax, h.test, h.skip.1, h.skip.2⟩

end GameWarning

namespace CryWarning

theorem rules64_iff {body : List Placed} (hlong : 32 ≤ body.length) :
    At body 0 (Is pattern64.anchor) ∧ (∀ r ∈ pattern64.rules, r.holds body = .ok true) ↔
      Function64 body := by
  unfold pattern64
  simp only [List.forall_mem_cons, List.not_mem_nil, false_implies, implies_true, and_true,
    Rule.holds_form, Rule.holds_exact]
  constructor
  · rintro ⟨hr8, hr9, hrbx, hrdi, hsize, hprobe, hframe⟩
    exact ⟨hlong, hr8, hr9, hrbx, hrdi, hsize, hprobe, hframe⟩
  · intro h
    exact ⟨h.spills_r8, h.spills_r9, h.saves_rbx, h.saves_rdi, h.size, h.probe, h.frame⟩

/-- The two jumps count from the end, so what stands before the anchor does not move them. -/
theorem rules32_iff {body : List Placed} (hlong : 30 ≤ body.length) {o : Nat} (ho : o ≤ 2) :
    At body o (Is pattern32.anchor) ∧
        (∀ r ∈ pattern32.rules, r.holds (body.drop o) = .ok true) ↔
      Function32From o body := by
  have hlast : 2 ≤ (body.drop o).length := by
    rw [List.length_drop]
    lia
  have hplace : o + ((body.drop o).length - 2) = body.length - 2 := by
    rw [List.length_drop]
    lia
  unfold pattern32
  simp only [List.forall_mem_cons, List.not_mem_nil, false_implies, implies_true, and_true,
    Rule.holds_form, Rule.holds_exact, Rule.holds_branch Nat.two_pos hlast, at_drop,
    branchesTo_drop, hplace]
  constructor
  · rintro ⟨hsize, hprobe, htest, hskip, hlast, hcompare, hempty, hlast'⟩
    exact ⟨hlong, hsize, hprobe, htest, ⟨hskip, hlast⟩, hcompare, hempty, hlast'⟩
  · intro h
    exact ⟨h.size, h.probe, h.test, h.skip.1, h.skip.2, h.compare, h.skip_empty.1,
      h.skip_empty.2⟩

end CryWarning

section Catalog

variable {v : Variant} {i : Nat} {s : Subroutine}

theorem GameWarning.accepts_iff_function (hi : i < v.size)
    (hpadding : v.isPadding i = false) (hs : v.IsSegment i s) (b : Bitness) :
    ∃ p, Signature.gameWarning.pattern b = .ok p ∧ p.NamesInstructions ∧
      (p.Accepts v s ↔ Function b (v.body s)) := by
  cases b with
  | x64 =>
      refine ⟨pattern64, rfl, by decide, ?_⟩
      apply Pattern.accepts_iff_of_start rfl _ _ hi hpadding hs
      · intro body h
        exact h.long
      · intro body hlong
        exact rules64_iff hlong
  | x86 =>
      refine ⟨pattern32, rfl, by decide, ?_⟩
      apply Pattern.accepts_iff_of_start rfl _ _ hi hpadding hs
      · intro body h
        exact h.long
      · intro body hlong
        exact rules32_iff hlong

theorem CryWarning.accepts_iff_function (hi : i < v.size)
    (hpadding : v.isPadding i = false) (hs : v.IsSegment i s) (b : Bitness) :
    ∃ p, Signature.cryWarning.pattern b = .ok p ∧ p.NamesInstructions ∧
      (p.Accepts v s ↔ Function b (v.body s)) := by
  cases b with
  | x64 =>
      refine ⟨pattern64, rfl, by decide, ?_⟩
      apply Pattern.accepts_iff_of_start rfl _ _ hi hpadding hs
      · intro body h
        exact h.long
      · intro body hlong
        exact rules64_iff hlong
  | x86 =>
      refine ⟨pattern32, rfl, by decide, ?_⟩
      have hoffset : ∀ o, o ∈ pattern32.offsets ↔ o = 0 ∨ o = 2 := by
        intro o
        simp [pattern32]
      rw [Pattern.accepts_iff hi hpadding hs]
      constructor
      · intro h
        rcases h with ⟨o, ho, hanchor, hminimum, hholds⟩
        have ho' := (hoffset o).mp ho
        exact ⟨o, ho', (rules32_iff hminimum (by lia)).mp ⟨hanchor, hholds⟩⟩
      · intro h
        rcases h with ⟨o, ho, hfunction⟩
        rcases (rules32_iff hfunction.long (by lia)).mpr hfunction with ⟨hanchor, hholds⟩
        exact ⟨o, (hoffset o).mpr ho, hanchor, hfunction.long, hholds⟩

end Catalog

/-- The function around an instruction that is no padding is a candidate of a pattern of the
catalog exactly if it is one of those that the pattern is documented to describe. -/
theorem candidates_documented (v : Variant) {i : Nat} (hi : i < v.size)
    (hpadding : v.isPadding i = false) :
    ∃ s, v.subroutine i = .ok s ∧ ∀ b,
      (∃ p found, Signature.gameWarning.pattern b = .ok p ∧ p.candidates v = .ok found ∧
        (s ∈ found ↔ GameWarning.Function b (v.body s))) ∧
      ∃ p found, Signature.cryWarning.pattern b = .ok p ∧ p.candidates v = .ok found ∧
        (s ∈ found ↔ CryWarning.Function b (v.body s)) := by
  have hs := v.subroutineAt_isSegment hi
  refine ⟨_, Variant.subroutine_eq_ok hi, ?_⟩
  intro b
  constructor
  · rcases GameWarning.accepts_iff_function hi hpadding hs b with ⟨p, hp, hnames, haccepts⟩
    rcases Pattern.candidates_isSearchResult hnames v with ⟨found, hfound, hresult⟩
    exact ⟨p, found, hp, hfound, (hresult.mem_iff _).trans haccepts⟩
  · rcases CryWarning.accepts_iff_function hi hpadding hs b with ⟨p, hp, hnames, haccepts⟩
    rcases Pattern.candidates_isSearchResult hnames v with ⟨found, hfound, hresult⟩
    exact ⟨p, found, hp, hfound, (hresult.mem_iff _).trans haccepts⟩

/-- A 32-bit function that saves two registers before it makes room for its frame. -/
def savingWarningCode : Section where
  image := ⟨0x10000000, 0x100000⟩
  address := 0x10001000
  bytes := [0x53, 0x56, 0xB8, 0, 0x10, 0, 0, 0xE8, 0, 0x10, 0, 0, 0x8B, 0x43, 0x08,
    0x85, 0xC0, 0x74, 0x2B, 0x83, 0x38, 0, 0x74, 0x26] ++
    (List.replicate 19 [0x8B, 0xCA]).flatten ++ [0x5E, 0xC3]

theorem candidates_documented_saving :
    ∃ v, Variant.decode .generalPurpose ⟨.system, 6156, .x86⟩ savingWarningCode = .ok v ∧
      4 < v.size ∧ v.isPadding 4 = false ∧ CryWarning.Function .x86 (v.body ⟨0, 30⟩) := by
  have hdecoded : ∃ v, Variant.decode .generalPurpose ⟨.system, 6156, .x86⟩ savingWarningCode =
      .ok v ∧ 4 < v.size ∧ v.isPadding 4 = false ∧ v.subroutine 4 = .ok ⟨0, 30⟩ ∧
        CryWarning.pattern32.candidates v = .ok [⟨0, 30⟩] :=
    ⟨_, rfl, by decide +kernel, by decide +kernel, by decide +kernel, by decide +kernel⟩
  rcases hdecoded with ⟨v, hdecode, hi, hpadding, hsubroutine, hcandidates⟩
  rcases candidates_documented v hi hpadding with ⟨s, hs, hfunctions⟩
  cases hsubroutine.symm.trans hs
  rcases (hfunctions .x86).2 with ⟨p, found, hp, hfound, hiff⟩
  cases hp
  cases hcandidates.symm.trans hfound
  exact ⟨v, hdecode, hi, hpadding, hiff.mp (List.mem_singleton_self _)⟩

end JumpHooks

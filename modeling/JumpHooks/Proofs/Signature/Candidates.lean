import JumpHooks.Instruction.Named
import JumpHooks.Proofs.Signature.Check

/-!
# The search for a pattern

The search goes through the anchors in address order and drops a subroutine only if it is the
same as its neighbour. Segments grow with the instruction that they are taken around, so
neighbours that begin together are equal and nothing else is ever repeated: the candidates are
exactly the subroutines that satisfy the pattern.
-/

namespace JumpHooks
namespace Pattern

/-!
# Candidates
-/

/-- The check of an anchor, without the reason for which it fails. -/
def isAccepted (p : Pattern) (v : Variant) (i : Nat) : Bool :=
  match p.check v (v.subroutineAt i) i with
  | .ok none => true
  | _ => false

theorem isAccepted_iff {p : Pattern} (hp : p.NamesInstructions) {v : Variant}
    {i : Nat} (hi : i ∈ p.anchors v) :
    p.isAccepted v i = true ↔ p.AcceptsFrom v i := by
  have hsegment := isSegment_of_mem_anchors hi
  rcases check_ok hp hsegment.start_le hsegment.lt_stop with ⟨reason, hreason, hiff⟩
  unfold isAccepted
  rw [hreason]
  constructor
  · intro h
    have hnone : reason = none := by
      cases reason with
      | none => rfl
      | some r => cases h
    rcases hiff.mp hnone with ⟨hoffset, hminimum, hrules⟩
    exact ⟨mem_anchors.mp hi, hoffset, hminimum, hrules⟩
  · intro h
    rw [hiff.mpr ⟨h.offset, h.minimum, h.rules⟩]

theorem accepted_check {p : Pattern} (hp : p.NamesInstructions) {v : Variant}
    {i : Nat} (hi : i ∈ p.anchors v) :
    accepted (v.subroutineAt i, p.check v (v.subroutineAt i) i) =
      .ok (if p.isAccepted v i then some (v.subroutineAt i) else none) := by
  have hsegment := isSegment_of_mem_anchors hi
  rcases check_ok hp hsegment.start_le hsegment.lt_stop with ⟨reason, hreason, _⟩
  unfold isAccepted
  rw [hreason]
  cases reason with
  | none => rfl
  | some r => rfl

/-- The subroutines of all anchors that pass their check, in the order of the anchors. -/
def matching (p : Pattern) (v : Variant) : List Subroutine :=
  ((p.anchors v).filter fun i => p.isAccepted v i).map v.subroutineAt

theorem candidates_eq {p : Pattern} (hp : p.NamesInstructions) (v : Variant) :
    p.candidates v = .ok (withoutRepeats (p.matching v)) := by
  have hfound : (p.checks v).mapM accepted = .ok ((p.anchors v).map fun i =>
      if p.isAccepted v i then some (v.subroutineAt i) else none) := by
    unfold checks
    rw [List.mapM_map]
    exact Outcome.mapM_eq_ok_map fun i hi => accepted_check hp hi
  have hmatching : ((p.anchors v).map fun i =>
      if p.isAccepted v i then some (v.subroutineAt i) else none).filterMap id =
        p.matching v := by
    unfold matching
    induction p.anchors v with
    | nil => rfl
    | cons i is ih =>
        by_cases hi : p.isAccepted v i = true
        · simpa [hi] using ih
        · simpa [hi] using ih
  unfold candidates
  rw [hfound]
  show Except.ok (withoutRepeats _) = _
  rw [hmatching]

theorem mem_matching {p : Pattern} (hp : p.NamesInstructions) {v : Variant}
    {s : Subroutine} : s ∈ p.matching v ↔ p.Accepts v s := by
  unfold matching
  rw [List.mem_map]
  constructor
  · intro h
    rcases h with ⟨i, hi, rfl⟩
    rcases List.mem_filter.mp hi with ⟨hanchor, haccepted⟩
    exact ⟨i, (isAccepted_iff hp hanchor).mp haccepted, rfl⟩
  · intro h
    rcases h with ⟨i, hi, rfl⟩
    have hanchor : i ∈ p.anchors v := mem_anchors.mpr hi.anchor
    exact ⟨i, List.mem_filter.mpr ⟨hanchor, (isAccepted_iff hp hanchor).mpr hi⟩, rfl⟩

/-!
# Repetitions
-/

/-- A subroutine stays in front of the kept ones, and takes the place of the first of them if
they begin together. -/
theorem withoutRepeats_cons (s : Subroutine) (rest : List Subroutine) :
    (withoutRepeats (s :: rest) = s :: withoutRepeats rest ∧
      ∀ t ∈ (withoutRepeats rest).head?, s.start ≠ t.start) ∨
      ∃ t others, withoutRepeats rest = t :: others ∧ s.start = t.start ∧
        withoutRepeats (s :: rest) = s :: others := by
  cases hrest : withoutRepeats rest with
  | nil =>
      left
      simp [withoutRepeats, hrest]
  | cons t others =>
      by_cases heq : s.start = t.start
      · right
        refine ⟨t, others, rfl, heq, ?_⟩
        simp [withoutRepeats, hrest, heq]
      · left
        simp [withoutRepeats, hrest, heq]

theorem withoutRepeats_subset {found : List Subroutine} {s : Subroutine}
    (h : s ∈ withoutRepeats found) : s ∈ found := by
  induction found with
  | nil => exact h
  | cons t rest ih =>
      have hmem : s = t ∨ s ∈ withoutRepeats rest := by
        rcases withoutRepeats_cons t rest with ⟨hkept, _⟩ | ⟨u, others, hrest, _, hkept⟩
        · rw [hkept] at h
          exact List.mem_cons.mp h
        · rw [hkept] at h
          rw [hrest]
          exact (List.mem_cons.mp h).imp_right (List.mem_cons_of_mem u)
      rcases hmem with heq | hmem
      · rw [heq]
        exact List.mem_cons_self
      · exact List.mem_cons_of_mem t (ih hmem)

theorem withoutRepeats_ascending {found : List Subroutine}
    (h : found.Pairwise fun s t => s.start ≤ t.start) :
    (withoutRepeats found).Pairwise fun s t => s.start < t.start := by
  induction found with
  | nil => exact .nil
  | cons s rest ih =>
      rw [List.pairwise_cons] at h
      have hrest := ih h.2
      rcases withoutRepeats_cons s rest with ⟨hkept, hne⟩ | ⟨t, others, hcase, heq, hkept⟩
      · rw [hkept, List.pairwise_cons]
        refine ⟨?_, hrest⟩
        intro u hu
        cases hcase : withoutRepeats rest with
        | nil =>
            rw [hcase] at hu
            exact absurd hu List.not_mem_nil
        | cons t others =>
            have ht : t ∈ rest := withoutRepeats_subset (by rw [hcase]; exact List.mem_cons_self)
            rw [hcase] at hne hrest hu
            have hlt : s.start < t.start := lt_of_le_of_ne (h.1 t ht) (hne t rfl)
            rcases List.mem_cons.mp hu with heq | hmem
            · rw [heq]
              exact hlt
            · exact hlt.trans ((List.pairwise_cons.mp hrest).1 u hmem)
      · rw [hcase, List.pairwise_cons] at hrest
        rw [hkept, List.pairwise_cons, heq]
        exact hrest

/-- If subroutines that begin together are equal, none is lost. -/
theorem mem_withoutRepeats {found : List Subroutine}
    (h : ∀ s ∈ found, ∀ t ∈ found, s.start = t.start → s = t) {s : Subroutine} :
    s ∈ withoutRepeats found ↔ s ∈ found := by
  constructor
  · exact withoutRepeats_subset
  · intro hs
    induction found with
    | nil => exact hs
    | cons t rest ih =>
        have hrest : ∀ u ∈ rest, ∀ w ∈ rest, u.start = w.start → u = w := by
          intro u hu w hw
          exact h u (List.mem_cons_of_mem _ hu) w (List.mem_cons_of_mem _ hw)
        have hkept : s ∈ rest → s ∈ withoutRepeats rest := ih hrest
        rcases withoutRepeats_cons t rest with ⟨hcons, _⟩ | ⟨u, others, hcase, heq, hcons⟩
        · rw [hcons]
          rcases List.mem_cons.mp hs with hst | hmem
          · rw [hst]
            exact List.mem_cons_self
          · exact List.mem_cons_of_mem t (hkept hmem)
        · have hu : u ∈ rest := withoutRepeats_subset (by rw [hcase]; exact List.mem_cons_self)
          have htu : t = u := h t List.mem_cons_self u (List.mem_cons_of_mem _ hu) heq
          rw [hcons, htu, ← hcase]
          rcases List.mem_cons.mp hs with hst | hmem
          · rw [hst, htu, hcase]
            exact List.mem_cons_self
          · exact hkept hmem

/-!
# Exactness
-/

theorem AcceptsFrom.lt_size {p : Pattern} {v : Variant} {i : Nat} (h : p.AcceptsFrom v i) :
    i < v.size := by
  exact lt_size_of_mem_anchors (mem_anchors.mpr h.anchor)

theorem AcceptsFrom.isPadding_eq {p : Pattern} {v : Variant} {i : Nat}
    (h : p.AcceptsFrom v i) : v.isPadding i = p.anchor.form.isPadding := by
  rcases h.anchor with ⟨q, hq, heq⟩
  unfold Variant.isPadding
  rw [hq, ← heq]
  rfl

theorem matching_ascending (p : Pattern) (v : Variant) :
    (p.matching v).Pairwise fun s t => s.start ≤ t.start := by
  have hkept : ((p.anchors v).filter fun i => p.isAccepted v i).Pairwise (· < ·) :=
    (p.anchors_ascending v).filter _
  unfold matching
  rw [List.pairwise_map]
  apply hkept.imp_of_mem
  intro i j hi hj hij
  have hs := isSegment_of_mem_anchors (List.mem_filter.mp hi).1
  have ht := isSegment_of_mem_anchors (List.mem_filter.mp hj).1
  exact hs.start_le_start ht hij.le

/-- An accepted subroutine is the segment around one of its anchors. -/
theorem Accepts.isSegment {p : Pattern} {v : Variant} {s : Subroutine}
    (h : p.Accepts v s) :
    ∃ i, i < v.size ∧ v.isPadding i = p.anchor.form.isPadding ∧ v.IsSegment i s := by
  rcases h with ⟨i, hi, heq⟩
  rw [heq]
  exact ⟨i, hi.lt_size, hi.isPadding_eq, v.subroutineAt_isSegment hi.lt_size⟩

theorem Accepts.start_lt_size {p : Pattern} {v : Variant} {s : Subroutine}
    (h : p.Accepts v s) : s.start < v.size := by
  rcases h.isSegment with ⟨i, hi, _, hs⟩
  exact hs.start_le.trans_lt hi

theorem Accepts.eq_of_start_eq {p : Pattern} {v : Variant}
    {s t : Subroutine} (hs : p.Accepts v s) (ht : p.Accepts v t) (h : s.start = t.start) :
    s = t := by
  rcases hs.isSegment with ⟨i, hi, hipadding, hs⟩
  rcases ht.isSegment with ⟨j, hj, hjpadding, ht⟩
  exact hs.eq_of_start_eq ht hi hj (hipadding.trans hjpadding.symm) h

theorem Accepts.disjoint {p : Pattern} {v : Variant}
    (hanchor : p.anchor.form.isPadding = false) {s t : Subroutine} (hs : p.Accepts v s)
    (ht : p.Accepts v t) (hne : s ≠ t) :
    Disjoint (Set.Ico s.start s.stop) (Set.Ico t.start t.stop) := by
  rcases hs.isSegment with ⟨i, hi, hipadding, hs⟩
  rcases ht.isSegment with ⟨j, hj, hjpadding, ht⟩
  exact hs.disjoint ht hi hj (hipadding.trans hanchor) (hjpadding.trans hanchor) hne

/-- The list holds the subroutines that satisfy the pattern, each once and in address order. -/
structure IsSearchResult (p : Pattern) (v : Variant) (found : List Subroutine) : Prop where
  ascending : found.Pairwise fun s t => s.start < t.start
  rvas_ascending : (found.map v.rvaOf).Pairwise (· < ·)
  nodup : found.Nodup
  mem_iff : ∀ s, s ∈ found ↔ p.Accepts v s
  disjoint : p.anchor.form.isPadding = false →
    found.Pairwise fun s t => Disjoint (Set.Ico s.start s.stop) (Set.Ico t.start t.stop)

theorem candidates_isSearchResult {p : Pattern} (hp : p.NamesInstructions) (v : Variant) :
    ∃ found, p.candidates v = .ok found ∧ p.IsSearchResult v found := by
  have hequal : ∀ s ∈ p.matching v, ∀ t ∈ p.matching v, s.start = t.start → s = t := by
    intro s hs t ht h
    exact ((mem_matching hp).mp hs).eq_of_start_eq ((mem_matching hp).mp ht) h
  have hmem : ∀ s, s ∈ withoutRepeats (p.matching v) ↔ p.Accepts v s := by
    intro s
    rw [mem_withoutRepeats hequal, mem_matching hp]
  have hascending := withoutRepeats_ascending (p.matching_ascending v)
  have hnodup : (withoutRepeats (p.matching v)).Nodup := by
    apply hascending.imp
    intro s t hlt heq
    rw [heq] at hlt
    exact lt_irrefl _ hlt
  refine ⟨withoutRepeats (p.matching v), candidates_eq hp v, ?_⟩
  constructor
  · exact hascending
  · rw [List.pairwise_map]
    apply hascending.imp_of_mem
    intro s t hs ht hlt
    rw [UInt64.lt_iff_toNat_lt, v.rvaOf_toNat ((hmem s).mp hs).start_lt_size,
      v.rvaOf_toNat ((hmem t).mp ht).start_lt_size]
    exact v.boundary_lt hlt ((hmem t).mp ht).start_lt_size.le
  · exact hnodup
  · exact hmem
  · intro hanchor
    apply hnodup.imp_of_mem
    intro s t hs ht hne
    exact ((hmem s).mp hs).disjoint hanchor ((hmem t).mp ht) hne

/-!
# The only match
-/

section FindUnique

variable {p : Pattern} {v : Variant} {found : List Subroutine}

theorem findUnique_eq_ok_iff (hfound : p.candidates v = .ok found)
    (hresult : p.IsSearchResult v found) (name : String) (s : Subroutine) :
    p.findUnique name v = .ok s ↔ p.Accepts v s ∧ ∀ t, p.Accepts v t → t = s := by
  simp only [← hresult.mem_iff]
  unfold findUnique
  rw [hfound]
  cases found with
  | nil =>
      constructor
      · intro h
        cases h
      · intro h
        exact absurd h.1 List.not_mem_nil
  | cons t rest =>
      cases rest with
      | nil =>
          constructor
          · intro h
            cases h
            exact ⟨List.mem_singleton_self s, fun u hu => List.mem_singleton.mp hu⟩
          · intro h
            rw [h.2 t (List.mem_singleton_self t)]
            rfl
      | cons u others =>
          constructor
          · intro h
            cases h
          · intro h
            have ht := h.2 t List.mem_cons_self
            have hu := h.2 u (List.mem_cons_of_mem _ List.mem_cons_self)
            have hne := (List.nodup_cons.mp hresult.nodup).1
            rw [ht, ← hu] at hne
            exact absurd List.mem_cons_self hne

theorem findUnique_eq_noMatch_iff (hfound : p.candidates v = .ok found)
    (hresult : p.IsSearchResult v found) (name : String) :
    p.findUnique name v = .error (.noMatch name v.id) ↔ ∀ s, ¬ p.Accepts v s := by
  simp only [← hresult.mem_iff]
  unfold findUnique
  rw [hfound]
  cases found with
  | nil =>
      constructor
      · intro _ s
        exact List.not_mem_nil
      · intro _
        rfl
  | cons t rest =>
      constructor
      · intro h
        cases rest with
        | nil => cases h
        | cons u others => cases h
      · intro h
        exact absurd List.mem_cons_self (h t)

theorem findUnique_eq_ambiguousMatch_iff (hfound : p.candidates v = .ok found)
    (hresult : p.IsSearchResult v found) (name : String) (rvas : List UInt64) :
    p.findUnique name v = .error (.ambiguousMatch name v.id rvas) ↔
      rvas = found.map v.rvaOf ∧ ∃ s t, p.Accepts v s ∧ p.Accepts v t ∧ s ≠ t := by
  simp only [← hresult.mem_iff]
  unfold findUnique
  rw [hfound]
  cases found with
  | nil =>
      constructor
      · intro h
        cases h
      · intro h
        rcases h with ⟨_, s, t, hs, _⟩
        exact absurd hs List.not_mem_nil
  | cons t rest =>
      cases rest with
      | nil =>
          constructor
          · intro h
            cases h
          · intro h
            rcases h with ⟨_, s, u, hs, hu, hne⟩
            rw [List.mem_singleton.mp hs, List.mem_singleton.mp hu] at hne
            exact absurd rfl hne
      | cons u others =>
          constructor
          · intro h
            cases h
            refine ⟨rfl, t, u, List.mem_cons_self, ?_, ?_⟩
            · exact List.mem_cons_of_mem _ List.mem_cons_self
            · intro heq
              apply (List.nodup_cons.mp hresult.nodup).1
              rw [heq]
              exact List.mem_cons_self
          · intro h
            rw [h.1]
            rfl

end FindUnique

/-- The search finds exactly the subroutines that satisfy the pattern, and a unique match is
one that has no rival. -/
theorem search_exact (v : Variant) {p : Pattern} (hp : p.NamesInstructions) (name : String) :
    ∃ found, p.candidates v = .ok found ∧ p.IsSearchResult v found ∧
      (∀ s, p.findUnique name v = .ok s ↔ p.Accepts v s ∧ ∀ t, p.Accepts v t → t = s) ∧
      (p.findUnique name v = .error (.noMatch name v.id) ↔ ∀ s, ¬ p.Accepts v s) ∧
      ∀ rvas, p.findUnique name v = .error (.ambiguousMatch name v.id rvas) ↔
        rvas = found.map v.rvaOf ∧ ∃ s t, p.Accepts v s ∧ p.Accepts v t ∧ s ≠ t := by
  rcases candidates_isSearchResult hp v with ⟨found, hfound, hresult⟩
  exact ⟨found, hfound, hresult, findUnique_eq_ok_iff hfound hresult name,
    findUnique_eq_noMatch_iff hfound hresult name,
    findUnique_eq_ambiguousMatch_iff hfound hresult name⟩

/-- A function of at least two instructions that begins by doing nothing. -/
def idleStart : Pattern where
  anchor := .nop
  offsets := [0]
  minimum := 2
  rules := [⟨0, .exact .nop⟩]

set_option maxRecDepth 10000 in
theorem search_exact_two_copies :
    ∃ v, Variant.decode .generalPurpose ⟨.game, 6156, .x64⟩ Variant.calledCode = .ok v ∧
      idleStart.NamesInstructions ∧ idleStart.Accepts v ⟨2, 4⟩ ∧
      idleStart.Accepts v ⟨6, 8⟩ ∧
      idleStart.findUnique "Idle" v =
        .error (.ambiguousMatch "Idle" v.id [0x1006, 0x100A]) := by
  have hnames : idleStart.NamesInstructions := by
    simp [NamesInstructions, idleStart]
  have hdecoded : ∃ v, Variant.decode .generalPurpose ⟨.game, 6156, .x64⟩ Variant.calledCode =
      .ok v ∧ idleStart.candidates v = .ok [⟨2, 4⟩, ⟨6, 8⟩] ∧
        [0x1006, 0x100A] = [⟨2, 4⟩, ⟨6, 8⟩].map v.rvaOf :=
    ⟨_, rfl, by decide +kernel, by decide +kernel⟩
  rcases hdecoded with ⟨v, hdecode, hcopies, hrvas⟩
  rcases search_exact v hnames "Idle" with ⟨found, hfound, hresult, _, _, hambiguous⟩
  cases hcopies.symm.trans hfound
  have hfirst := (hresult.mem_iff ⟨2, 4⟩).mp (by decide)
  have hsecond := (hresult.mem_iff ⟨6, 8⟩).mp (by decide)
  refine ⟨v, hdecode, hnames, hfirst, hsecond, (hambiguous _).mpr ⟨hrvas, ?_⟩⟩
  exact ⟨_, _, hfirst, hsecond, by decide⟩

end Pattern
end JumpHooks

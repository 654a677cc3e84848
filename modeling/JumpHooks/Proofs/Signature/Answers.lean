import JumpHooks.Proofs.Signature.Candidates

/-!
# Answers of a search

A search stays inside the code whatever its pattern is: the anchor lies in its subroutine, and a
rule about a place that a window does not have fails. The one exception is the place right behind
the last instruction. A rule that asks a near branch for it has no answer, and neither has a search
that comes to such a rule.
-/

namespace JumpHooks

/-!
# Positions outside a window
-/

namespace Position

/-- The window has no instruction in this position. -/
def IsOutside (window : List Placed) : Position → Prop
  | fromStart i => window.length ≤ i
  | fromEnd n => n = 0 ∨ window.length < n

theorem resolve_fromEnd_zero (window : List Placed) :
    (fromEnd 0).resolve window = .error .placeOutOfRange := by
  simp [resolve]

theorem resolve_of_isOutside {window : List Placed} {position : Position}
    (h : position.IsOutside window) (hposition : position ≠ .fromEnd 0) :
    position.resolve window = .ok none := by
  cases position with
  | fromStart i =>
      show Except.ok window[i]? = Except.ok none
      rw [List.getElem?_eq_none h]
  | fromEnd n =>
      rcases h with rfl | hlt
      · exact absurd rfl hposition
      · exact if_neg (Nat.not_le.mpr hlt)

end Position

namespace Predicate

theorem reaches_fromEnd_zero (window : List Placed) (target : UInt64) :
    reaches window target (.fromEnd 0) = .error .placeOutOfRange := by
  unfold reaches
  rw [Position.resolve_fromEnd_zero]
  rfl

theorem reaches_of_isOutside {window : List Placed} {position : Position}
    (h : position.IsOutside window) (hposition : position ≠ .fromEnd 0) (target : UInt64) :
    reaches window target position = .ok false := by
  unfold reaches
  rw [Position.resolve_of_isOutside h hposition]
  rfl

theorem isRegister_of_length_le {i : Instruction} {operand : Nat}
    (h : i.operands.length ≤ operand) (register : Option Register) :
    isRegister i operand register = false := by
  unfold isRegister
  rw [List.getElem?_eq_none h]

end Predicate

/-!
# Rules without an answer
-/

namespace Rule

/-- The rule asks a near branch whether it goes to the place behind the last instruction. -/
structure AsksBehind (window : List Placed) (r : Rule) : Prop where
  position : r.predicate = .branch (.fromEnd 0)
  branch : ∃ q target, window[r.index]? = some q ∧ q.instruction.target? = some target

/-- What the rule asks for is not there: no instruction in its place, none where the branch should
go, or no operand with this number. -/
inductive IsOutside (window : List Placed) (r : Rule) : Prop where
  | place (h : window.length ≤ r.index)
  | target {position : Position} (hpredicate : r.predicate = .branch position)
      (h : position.IsOutside window)
  | operand {q : Placed} {operand : Nat} {register : Option Register}
      (hq : window[r.index]? = some q) (hpredicate : r.predicate = .register operand register)
      (h : q.instruction.operands.length ≤ operand)

theorem holds_of_asksBehind {window : List Placed} {r : Rule} (h : r.AsksBehind window) :
    r.holds window = .error .placeOutOfRange := by
  rcases h with ⟨hposition, q, target, hq, htarget⟩
  unfold Rule.holds Predicate.holds
  rw [hq, hposition]
  dsimp only
  rw [htarget]
  dsimp only
  exact Predicate.reaches_fromEnd_zero window target

theorem holds_ok_of_not_asksBehind {window : List Placed} {r : Rule}
    (h : ¬ r.AsksBehind window) : ∃ b, r.holds window = .ok b := by
  by_cases hposition : r.predicate = .branch (.fromEnd 0)
  · unfold Rule.holds Predicate.holds
    rw [hposition]
    cases hq : window[r.index]? with
    | none => exact ⟨false, rfl⟩
    | some q =>
        cases htarget : q.instruction.target? with
        | none =>
            refine ⟨false, ?_⟩
            dsimp only
            rw [htarget]
        | some target => exact absurd ⟨hposition, q, target, hq, htarget⟩ h
  · exact holds_ok hposition window

theorem holds_eq_error_iff {window : List Placed} {r : Rule} {e : Error} :
    r.holds window = .error e ↔ r.AsksBehind window ∧ e = .placeOutOfRange := by
  constructor
  · intro h
    by_cases hasks : r.AsksBehind window
    · rw [holds_of_asksBehind hasks] at h
      cases h
      exact ⟨hasks, rfl⟩
    · rcases holds_ok_of_not_asksBehind hasks with ⟨b, hb⟩
      rw [hb] at h
      cases h
  · rintro ⟨hasks, rfl⟩
    exact holds_of_asksBehind hasks

/-- A rule about a place that the window does not have fails, if it has an answer. -/
theorem holds_eq_false_iff {window : List Placed} {r : Rule} (h : r.IsOutside window) :
    r.holds window = .ok false ↔ ¬ r.AsksBehind window := by
  constructor
  · intro hfalse hasks
    rw [holds_of_asksBehind hasks] at hfalse
    cases hfalse
  · intro hasks
    unfold Rule.holds Predicate.holds
    cases h with
    | place hle => rw [List.getElem?_eq_none hle]
    | @target position hpredicate houtside =>
        cases hq : window[r.index]? with
        | none => rfl
        | some q =>
            rw [hpredicate]
            dsimp only
            cases htarget : q.instruction.target? with
            | none => rfl
            | some target =>
                have hposition : position ≠ .fromEnd 0 := by
                  rintro rfl
                  exact hasks ⟨hpredicate, q, target, hq, htarget⟩
                exact Predicate.reaches_of_isOutside houtside hposition target
    | operand hq hpredicate hle =>
        rw [hq, hpredicate]
        dsimp only
        rw [Predicate.isRegister_of_length_le hle]

/-- Tested one after the other, the rules hold up to one that asks behind the window. -/
inductive AskBehind (window : List Placed) : List Rule → Prop where
  | here {r : Rule} {rules : List Rule} (h : r.AsksBehind window) :
      AskBehind window (r :: rules)
  | there {r : Rule} {rules : List Rule} (h : r.holds window = .ok true)
      (rest : AskBehind window rules) : AskBehind window (r :: rules)

theorem firstFailure_eq_error_iff {window : List Placed} {rules : List Rule} {e : Error}
    (number : Nat) :
    firstFailure window number rules = .error e ↔
      AskBehind window rules ∧ e = .placeOutOfRange := by
  induction rules generalizing number with
  | nil =>
      constructor
      · intro h
        cases h
      · rintro ⟨hasks, _⟩
        cases hasks
  | cons r rules ih =>
      unfold firstFailure
      rw [Outcome.bind_eq_error, holds_eq_error_iff]
      constructor
      · rintro (⟨hasks, rfl⟩ | ⟨b, hb, hrest⟩)
        · exact ⟨.here hasks, rfl⟩
        · cases b with
          | false => cases hrest
          | true =>
              rcases (ih (number + 1)).mp hrest with ⟨hasks, rfl⟩
              exact ⟨.there hb hasks, rfl⟩
      · rintro ⟨hasks, rfl⟩
        cases hasks with
        | here h => exact .inl ⟨h, rfl⟩
        | there h rest => exact .inr ⟨true, h, (ih (number + 1)).mpr ⟨rest, rfl⟩⟩

end Rule

/-!
# Searches without an answer
-/

namespace Pattern

/-- Seen from instruction `i`, an anchor in the right place of a subroutine that is long enough,
the rules lead behind the end of the subroutine. -/
structure AsksBehindFrom (p : Pattern) (v : Variant) (i : Nat) : Prop where
  anchor : ∃ q, v.instructions[i]? = some q ∧ q.instruction = p.anchor
  offset : i - (v.subroutineAt i).start ∈ p.offsets
  minimum : p.minimum ≤ (v.subroutineAt i).size
  rules : Rule.AskBehind (v.slice i (v.subroutineAt i).stop) p.rules

theorem check_eq_error_iff {p : Pattern} {v : Variant} {s : Subroutine} {i : Nat} {e : Error}
    (hstart : s.start ≤ i) (hstop : i < s.stop) :
    p.check v s i = .error e ↔
      (i - s.start ∈ p.offsets ∧ p.minimum ≤ s.size ∧
        Rule.AskBehind (v.slice i s.stop) p.rules) ∧ e = .placeOutOfRange := by
  by_cases hfits : i - s.start ∈ p.offsets ∧ p.minimum ≤ s.size
  · rw [check_eq_firstFailure hstart hstop hfits.1 hfits.2, Rule.firstFailure_eq_error_iff]
    simp [hfits]
  · rcases exists_check_eq_some (v := v) hstart hfits with ⟨reason, hreason⟩
    rw [hreason]
    constructor
    · intro h
      cases h
    · rintro ⟨⟨hoffset, hminimum, _⟩, _⟩
      exact absurd ⟨hoffset, hminimum⟩ hfits

theorem accepted_eq_error_iff {s : Subroutine} {result : Except Error (Option Rejection)}
    {e : Error} : accepted (s, result) = .error e ↔ result = .error e := by
  cases result with
  | error e' =>
      constructor
      · intro h
        cases h
        rfl
      · intro h
        cases h
        rfl
  | ok reason =>
      constructor
      · intro h
        cases reason <;> cases h
      · intro h
        cases h

theorem accepted_check_eq_error_iff {p : Pattern} {v : Variant} {i : Nat}
    (hi : i ∈ p.anchors v) {e : Error} :
    accepted (v.subroutineAt i, p.check v (v.subroutineAt i) i) = .error e ↔
      p.AsksBehindFrom v i ∧ e = .placeOutOfRange := by
  have hs := isSegment_of_mem_anchors hi
  rw [accepted_eq_error_iff, check_eq_error_iff hs.start_le hs.lt_stop]
  constructor
  · rintro ⟨⟨hoffset, hminimum, hrules⟩, he⟩
    exact ⟨⟨mem_anchors.mp hi, hoffset, hminimum, hrules⟩, he⟩
  · rintro ⟨hasks, he⟩
    exact ⟨⟨hasks.offset, hasks.minimum, hasks.rules⟩, he⟩

theorem candidates_eq_error_iff {p : Pattern} {v : Variant} {e : Error} :
    p.candidates v = .error e ↔ (∃ i, p.AsksBehindFrom v i) ∧ e = .placeOutOfRange := by
  have hchecks : p.candidates v = .error e ↔ (p.checks v).mapM accepted = .error e := by
    unfold candidates
    rw [Outcome.bind_eq_error]
    constructor
    · rintro (h | ⟨found, _, h⟩)
      · exact h
      · cases h
    · exact .inl
  have honly : ∀ i ∈ p.anchors v, ∀ e,
      accepted (v.subroutineAt i, p.check v (v.subroutineAt i) i) = .error e →
        e = .placeOutOfRange := by
    intro i hi e herror
    exact ((accepted_check_eq_error_iff hi).mp herror).2
  rw [hchecks]
  unfold checks
  rw [List.mapM_map]
  refine (Outcome.mapM_eq_only_error_iff honly).trans ?_
  constructor
  · rintro ⟨⟨i, hi, herror⟩, he⟩
    exact ⟨⟨i, ((accepted_check_eq_error_iff hi).mp herror).1⟩, he⟩
  · rintro ⟨⟨i, hasks⟩, he⟩
    have hi : i ∈ p.anchors v := mem_anchors.mpr hasks.anchor
    exact ⟨⟨i, hi, (accepted_check_eq_error_iff hi).mpr ⟨hasks, rfl⟩⟩, he⟩

/-- What is said about the number of matches. -/
inductive IsAnswer (name : String) (v : Variant) : Except Error Subroutine → Prop where
  | found (s : Subroutine) : IsAnswer name v (.ok s)
  | noMatch : IsAnswer name v (.error (.noMatch name v.id))
  | ambiguousMatch (rvas : List UInt64) :
      IsAnswer name v (.error (.ambiguousMatch name v.id rvas))

theorem findUnique_isAnswer {p : Pattern} {v : Variant} {found : List Subroutine}
    (h : p.candidates v = .ok found) (name : String) :
    IsAnswer name v (p.findUnique name v) := by
  unfold findUnique
  rw [h]
  rcases found with _ | ⟨s, _ | ⟨t, rest⟩⟩
  · exact .noMatch
  · exact .found s
  · exact .ambiguousMatch _

theorem findUnique_eq_error {p : Pattern} {v : Variant} {e : Error}
    (h : p.candidates v = .error e) (name : String) : p.findUnique name v = .error e := by
  unfold findUnique
  rw [h]
  rfl

theorem findUnique_isAnswer_iff {p : Pattern} {v : Variant} (name : String) :
    IsAnswer name v (p.findUnique name v) ↔ ¬ ∃ i, p.AsksBehindFrom v i := by
  constructor
  · intro hanswer hasks
    rw [findUnique_eq_error (candidates_eq_error_iff.mpr ⟨hasks, rfl⟩) name] at hanswer
    cases hanswer
  · intro hnone
    cases hfound : p.candidates v with
    | ok found => exact findUnique_isAnswer hfound name
    | error e => exact absurd (candidates_eq_error_iff.mp hfound).1 hnone

theorem findUnique_eq_placeOutOfRange_iff {p : Pattern} {v : Variant}
    (name : String) :
    p.findUnique name v = .error .placeOutOfRange ↔ ∃ i, p.AsksBehindFrom v i := by
  constructor
  · intro herror
    by_contra hnone
    have hanswer := (findUnique_isAnswer_iff name).mpr hnone
    rw [herror] at hanswer
    cases hanswer
  · intro hasks
    exact findUnique_eq_error (candidates_eq_error_iff.mpr ⟨hasks, rfl⟩) name

theorem exists_subroutine_of_mem_anchors {p : Pattern} {v : Variant} {i : Nat}
    (hi : i ∈ p.anchors v) :
    ∃ s, v.subroutine i = .ok s ∧ s.start ≤ i ∧ i < s.stop ∧ s.stop ≤ v.size := by
  have hlt := lt_size_of_mem_anchors hi
  have hs := isSegment_of_mem_anchors hi
  exact ⟨v.subroutineAt i, Variant.subroutine_eq_ok hlt, hs.start_le, hs.lt_stop,
    hs.stop_le_size hlt⟩

/-- A search has an answer exactly if its rules lead it from no anchor behind the end of a
subroutine. In all other respects it stays inside: each anchor lies in the subroutine around it,
and a rule about an instruction or an operand that is not there fails. -/
theorem search_answers_iff (v : Variant) (p : Pattern) (name : String) :
    (∀ i ∈ p.anchors v,
      ∃ s, v.subroutine i = .ok s ∧ s.start ≤ i ∧ i < s.stop ∧ s.stop ≤ v.size) ∧
    (∀ window (r : Rule), r.IsOutside window →
      (r.holds window = .ok false ↔ ¬ r.AsksBehind window)) ∧
    (∀ e, p.candidates v = .error e ↔
      (∃ i, p.AsksBehindFrom v i) ∧ e = .placeOutOfRange) ∧
    (p.findUnique name v = .error .placeOutOfRange ↔ ∃ i, p.AsksBehindFrom v i) ∧
    (IsAnswer name v (p.findUnique name v) ↔ ¬ ∃ i, p.AsksBehindFrom v i) := by
  refine ⟨?_, ?_, ?_, findUnique_eq_placeOutOfRange_iff name, findUnique_isAnswer_iff name⟩
  · intro i hi
    exact exists_subroutine_of_mem_anchors hi
  · intro window r houtside
    exact Rule.holds_eq_false_iff houtside
  · intro e
    exact candidates_eq_error_iff

/-- A function that does nothing and then goes to the place behind its end. -/
def runsOut : Pattern where
  anchor := .nop
  offsets := [0]
  minimum := 1
  rules := [⟨0, .exact .nop⟩, ⟨1, .branch (.fromEnd 0)⟩]

set_option maxRecDepth 10000 in
/-- Where no branch follows, the pattern has an answer. -/
theorem search_answers_iff_runsOut :
    ∃ v, Variant.decode .generalPurpose ⟨.game, 6156, .x64⟩ Variant.calledCode = .ok v ∧
      ¬ runsOut.NamesInstructions ∧ runsOut.anchors v = [2, 6] ∧
      IsAnswer "RunsOut" v (runsOut.findUnique "RunsOut" v) := by
  have hdecoded : ∃ v, Variant.decode .generalPurpose ⟨.game, 6156, .x64⟩ Variant.calledCode =
      .ok v ∧ runsOut.anchors v = [2, 6] ∧ runsOut.candidates v = .ok [] :=
    ⟨_, rfl, by decide +kernel, by decide +kernel⟩
  rcases hdecoded with ⟨v, hdecode, hanchors, hnone⟩
  rcases search_answers_iff v runsOut "RunsOut" with ⟨_, _, hcandidates, _, hanswer⟩
  refine ⟨v, hdecode, by decide, hanchors, hanswer.mpr ?_⟩
  intro hasks
  cases hnone.symm.trans ((hcandidates _).mpr ⟨hasks, rfl⟩)

/-- A function that does nothing, and jumps to its last instruction. -/
def jumpingCode : Section where
  image := ⟨0x180000000, 0x100000⟩
  address := 0x180001000
  bytes := [0x90, 0xEB, 0, 0xC3]

set_option maxRecDepth 10000 in
theorem search_asks_behind :
    ∃ v, Variant.decode .generalPurpose ⟨.game, 6156, .x64⟩ jumpingCode = .ok v ∧
      runsOut.candidates v = .error .placeOutOfRange ∧
      runsOut.findUnique "RunsOut" v = .error .placeOutOfRange :=
  ⟨_, rfl, by decide +kernel, by decide +kernel⟩

end Pattern
end JumpHooks

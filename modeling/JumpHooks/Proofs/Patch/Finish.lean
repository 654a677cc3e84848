import JumpHooks.Proofs.Patch.Branches
import JumpHooks.Proofs.Patch.History
import JumpHooks.Proofs.Signature.Candidates
import JumpHooks.Proofs.Text.Words

/-!
# Finished patches

Finishing a draft fills every target and leaves placeholders for the builds that are not
handled on purpose. A finished patch has every build that was taken in, in one branch, with
the statement that was made for this build, and otherwise only placeholders.
-/

namespace JumpHooks

theorem Branch.eq_of_filter {branches : List Branch} {only branch : Branch} {n : Nat}
    (honly : (branches.filter fun b => n ∈ b.builds) = [only]) (hbranch : branch ∈ branches)
    (hn : n ∈ branch.builds) : branch = only := by
  have hmem : branch ∈ branches.filter fun b => n ∈ b.builds := by
    simp [hbranch, hn]
  rw [honly] at hmem
  exact List.mem_singleton.mp hmem

namespace Draft

/-!
# Filling
-/

/-- The draft with the statement for one target. -/
def fill (d : Draft) (m : Match) : Draft :=
  d.push m.variant.bitness m.variant.build (fillStatement d.subsystem m)

theorem statements?_foldl_fill {d : Draft} {ms : List Match}
    (hkeys : (ms.map Match.key).Nodup)
    (hnew : ∀ m ∈ ms, (d.cases m.variant.bitness).statements? m.variant.build = none)
    (n : Nat) (b : Bitness) (statements : List String) :
    ((ms.foldl fill d).cases b).statements? n = some statements ↔
      (d.cases b).statements? n = some statements ∨
        ∃ m ∈ ms, m.key = (n, b) ∧ statements = [fillStatement d.subsystem m] := by
  -- On the targets: filling the first one leaves the builds of the others without a statement,
  -- since no key comes twice.
  induction ms generalizing d with
  | nil => simp
  | cons m ms ih =>
      rw [List.map_cons, List.nodup_cons] at hkeys
      have hfirst := hnew m List.mem_cons_self
      have hrest : ∀ o ∈ ms,
          ((d.fill m).cases o.variant.bitness).statements? o.variant.build = none := by
        intro o ho
        have hother : (m.variant.build, m.variant.bitness) ≠
            (o.variant.build, o.variant.bitness) := by
          intro heq
          exact hkeys.1 (List.mem_map.mpr ⟨o, ho, heq.symm⟩)
        unfold fill
        rw [statements?_push, if_neg hother]
        exact hnew o (List.mem_cons_of_mem _ ho)
      rw [List.foldl_cons, ih hkeys.2 hrest]
      unfold fill
      rw [statements?_push_new hfirst, subsystem_push]
      simp [Match.key, or_assoc]

/-- The statement for a variant: of its exemption, or the one that fills its target. -/
def statement? (d : Draft) (v : Variant) : Option String :=
  match d.signature.exemption v.id with
  | some statement => some statement
  | none => (d.signature.target? v).map (fillStatement d.subsystem)

theorem statement?_eq_some {d : Draft} {v : Variant} {own : String} :
    d.statement? v = some own ↔
      d.signature.exemption v.id = some own ∨
        ∃ m, d.signature.target? v = some m ∧ own = fillStatement d.subsystem m := by
  unfold statement?
  cases hexempt : d.signature.exemption v.id with
  | some statement => simp [Signature.target?_of_exempt hexempt]
  | none => simp [eq_comm]

theorem Records.statement?_isSome {d : Draft} {vs : List Variant} (h : d.Records vs)
    {v : Variant} (hv : v ∈ vs) : ∃ statement, d.statement? v = some statement := by
  cases hexempt : d.signature.exemption v.id with
  | some statement => exact ⟨statement, statement?_eq_some.mpr (.inl hexempt)⟩
  | none =>
      rcases h.handled v hv hexempt with ⟨m, hm⟩
      exact ⟨_, statement?_eq_some.mpr (.inr ⟨m, hm, rfl⟩)⟩

/-- No target has the key of an exempt variant, so filling adds no second statement. -/
theorem Records.unfilled {d : Draft} {vs : List Variant} (h : d.Records vs) :
    ∀ m ∈ d.targets, (d.cases m.variant.bitness).statements? m.variant.build = none := by
  intro m hm
  rw [h.targets] at hm
  rcases List.mem_filterMap.mp hm with ⟨v, hv, hm⟩
  cases hsome : (d.cases m.variant.bitness).statements? m.variant.build with
  | none => rfl
  | some statements =>
      rcases (h.exempt _ _ _).mp hsome with ⟨w, hw, hkey, own, hown, _⟩
      have hsame : w = v := by
        apply List.inj_on_of_nodup_map h.keys hw hv
        exact hkey.trans (Signature.key_of_target? hm)
      rw [hsame] at hown
      exact absurd ((Signature.target?_eq_some hm).1.symm.trans hown) (by simp)

theorem Records.statements?_withFills {d : Draft} {vs : List Variant} (h : d.Records vs)
    (n : Nat) (b : Bitness) (statements : List String) :
    (d.withFills.cases b).statements? n = some statements ↔
      ∃ v ∈ vs, v.key = (n, b) ∧
        ∃ statement, d.statement? v = some statement ∧ statements = [statement] := by
  have hkeys : (d.targets.map Match.key).Nodup := by
    rw [h.targets]
    exact (d.signature.keys_filterMap_target? vs).nodup h.keys
  have hfills := statements?_foldl_fill hkeys h.unfilled n b statements
  apply hfills.trans
  rw [h.exempt, h.targets]
  constructor
  · intro hcase
    rcases hcase with ⟨v, hv, hkey, own, hown, heq⟩ | ⟨m, hm, hkey, heq⟩
    · exact ⟨v, hv, hkey, own, statement?_eq_some.mpr (.inl hown), heq⟩
    · rcases List.mem_filterMap.mp hm with ⟨v, hv, hm⟩
      have hvkey : v.key = (n, b) := (Signature.key_of_target? hm).symm.trans hkey
      exact ⟨v, hv, hvkey, _, statement?_eq_some.mpr (.inr ⟨m, hm, rfl⟩), heq⟩
  · intro hcase
    rcases hcase with ⟨v, hv, hkey, statement, hstatement, heq⟩
    rcases statement?_eq_some.mp hstatement with hexempt | ⟨m, hm, hfill⟩
    · exact .inl ⟨v, hv, hkey, statement, hexempt, heq⟩
    · have hmkey : m.key = (n, b) := (Signature.key_of_target? hm).trans hkey
      exact .inr ⟨m, List.mem_filterMap.mpr ⟨v, hv, hm⟩, hmkey, by rw [heq, hfill]⟩

/-!
# Placeholders
-/

theorem statements?_withPlaceholders {x y : BuildCases} (h : withPlaceholders x = .ok y)
    (n : Nat) (statements : List String) :
    y.statements? n = some statements ↔
      x.statements? n = some statements ∨
        1 < x.size ∧ n ∈ Game.warhead.builds .x86 ∧ statements = [unsupported] := by
  unfold withPlaceholders at h
  by_cases hsize : x.size ≤ 1
  · rw [if_pos hsize] at h
    cases h
    simp [Nat.not_lt.mpr hsize]
  · rw [if_neg hsize] at h
    rw [BuildCases.statements?_placeholders h]
    simp [Nat.not_le.mp hsize]

theorem exists_withPlaceholders_iff {x : BuildCases} :
    (∃ y, withPlaceholders x = .ok y) ↔
      x.size ≤ 1 ∨ ∀ n ∈ Game.warhead.builds .x86, x.statements? n = none := by
  unfold withPlaceholders
  by_cases hsize : x.size ≤ 1
  · rw [if_pos hsize]
    exact iff_of_true ⟨x, rfl⟩ (.inl hsize)
  · rw [if_neg hsize, BuildCases.exists_placeholders_iff (by decide)]
    simp only [hsize, false_or]

theorem finish_ok {d : Draft} {p : Patch} (h : d.finish = .ok p) :
    ∃ hooks x86, d.hooks = .ok hooks ∧ withPlaceholders d.withFills.x86 = .ok x86 ∧
      p = {
        subsystem := d.subsystem
        name := d.signature.name
        doc := d.signature.doc
        params := [s!"void* p{d.subsystem.name}", "int gameBuild", d.signature.handler]
        hooks := hooks
        targets := d.targets
        x64 := d.withFills.x64.branches
        x86 := x86.branches } := by
  unfold finish at h
  rcases Outcome.bind_eq_ok.mp h with ⟨hooks, hhooks, hrest⟩
  rcases Outcome.bind_eq_ok.mp hrest with ⟨x86, hx86, hdone⟩
  cases hdone
  exact ⟨hooks, x86, hhooks, hx86, rfl⟩

theorem targets_finish {d : Draft} {p : Patch} (h : d.finish = .ok p) :
    p.targets = d.targets := by
  rcases finish_ok h with ⟨_, _, _, _, hp⟩
  rw [hp]

theorem targets_finish_new {subsystem : Subsystem} {g : Signature} {offered : List Variant}
    {p : Patch} (h : ((new subsystem g).after offered).finish = .ok p) :
    p.targets = ((new subsystem g).accepted offered).filterMap g.target? := by
  rw [targets_finish h, (new_after_records subsystem g offered).targets, signature_new_after]

/-- The branches of a finished patch are those of cases that hold the statement of every
variant, and placeholders. -/
theorem Records.finish {d : Draft} {vs : List Variant} (h : d.Records vs) {p : Patch}
    (hfinish : d.finish = .ok p) (b : Bitness) :
    ∃ x : BuildCases, p.branches b = x.branches ∧ ∀ n statements,
      x.statements? n = some statements ↔
        (∃ v ∈ vs, v.key = (n, b) ∧
          ∃ statement, d.statement? v = some statement ∧ statements = [statement]) ∨
        b = .x86 ∧ 1 < d.withFills.x86.size ∧ n ∈ Game.warhead.builds .x86 ∧
          statements = [unsupported] := by
  rcases finish_ok hfinish with ⟨hooks, x86, _, hx86, hp⟩
  cases b with
  | x64 =>
      refine ⟨d.withFills.x64, by rw [hp]; rfl, ?_⟩
      intro n statements
      rw [← h.statements?_withFills]
      simp [cases]
  | x86 =>
      refine ⟨x86, by rw [hp]; rfl, ?_⟩
      intro n statements
      rw [statements?_withPlaceholders hx86, ← h.statements?_withFills]
      simp [cases]

/-!
# Every build at its own address
-/

theorem fillStatement_inj {subsystem : Subsystem} {m o : Match}
    (h : Text.words (fillStatement subsystem m) = Text.words (fillStatement subsystem o)) :
    m.rva = o.rva :=
  UInt64.toNat_inj.mp (Text.hex_inj_of_words h)

/-- A variant that was taken in stands in one branch, with a single statement that is its own
but for blanks. -/
theorem Records.exists_only_branch {d : Draft} {vs : List Variant} (h : d.Records vs)
    {p : Patch} (hfinish : d.finish = .ok p) {v : Variant} (hv : v ∈ vs) {own : String}
    (hown : d.statement? v = some own) :
    ∃ branch statement,
      ((p.branches v.id.bitness).filter fun b => v.id.build ∈ b.builds) = [branch] ∧
        branch.builds.count v.id.build = 1 ∧ branch.statements = [statement] ∧
          Text.words statement = Text.words own := by
  rcases h.finish hfinish v.id.bitness with ⟨x, hbranches, hx⟩
  have hcase : x.statements? v.id.build = some [own] :=
    (hx _ _).mpr (.inl ⟨v, hv, rfl, own, hown, rfl⟩)
  rcases BuildCases.exists_only_branch hcase with ⟨branch, _, honly, hcount, hsame⟩
  rcases BuildCases.exists_of_sameStatements hsame with ⟨statement, hstatement, hwords⟩
  rw [hbranches]
  exact ⟨branch, statement, honly, hcount, hstatement, hwords⟩

/-- Every build in a branch was taken in, or is not supported at all and has the statement of a
placeholder but for blanks. -/
theorem Records.of_mem_builds {d : Draft} {vs : List Variant} (h : d.Records vs) {p : Patch}
    (hfinish : d.finish = .ok p) {b : Bitness} {branch : Branch}
    (hbranch : branch ∈ p.branches b) {n : Nat} (hn : n ∈ branch.builds) :
    (∃ v ∈ vs, v.key = (n, b)) ∨
      b = .x86 ∧ n ∈ Game.warhead.builds .x86 ∧ ∃ statement, branch.statements = [statement] ∧
        Text.words statement = Text.words unsupported := by
  rcases h.finish hfinish b with ⟨x, hbranches, hx⟩
  rw [hbranches] at hbranch
  rcases x.branches_agree branch hbranch n hn with ⟨statements, hstatements, hsame⟩
  rcases (hx n statements).mp hstatements with ⟨v, hv, hkey, _⟩ | ⟨hb, _, hbuild, hown⟩
  · exact .inl ⟨v, hv, hkey⟩
  · rw [hown] at hsame
    exact .inr ⟨hb, hbuild, BuildCases.exists_of_sameStatements hsame⟩

/-- Found variants with their builds in one branch were found at the same place. -/
theorem Records.rva_eq_of_mem_builds {d : Draft} {vs : List Variant} (h : d.Records vs)
    {p : Patch} (hfinish : d.finish = .ok p) {v w : Variant} (hv : v ∈ vs) (hw : w ∈ vs)
    {m o : Match} (hm : d.signature.target? v = some m) (ho : d.signature.target? w = some o)
    (hbitness : v.id.bitness = w.id.bitness) {branch : Branch}
    (hbranch : branch ∈ p.branches v.id.bitness) (hvbuild : v.id.build ∈ branch.builds)
    (hwbuild : w.id.build ∈ branch.builds) : m.rva = o.rva := by
  have hvown := statement?_eq_some.mpr (.inr ⟨m, hm, rfl⟩)
  have hwown := statement?_eq_some.mpr (.inr ⟨o, ho, rfl⟩)
  rcases h.exists_only_branch hfinish hv hvown with
    ⟨first, _, hfirst, _, hstatement, hwords⟩
  rcases h.exists_only_branch hfinish hw hwown with
    ⟨second, _, hsecond, _, hstatement', hwords'⟩
  rw [← hbitness] at hsecond
  have hfirst := Branch.eq_of_filter hfirst hbranch hvbuild
  have hsecond := Branch.eq_of_filter hsecond hbranch hwbuild
  rw [← hfirst] at hstatement
  rw [← hsecond, hstatement, List.cons.injEq] at hstatement'
  have hfills : Text.words (fillStatement d.subsystem m) =
      Text.words (fillStatement d.subsystem o) := by
    rw [← hwords, ← hwords', hstatement'.1]
  exact fillStatement_inj hfills

/-- After any run, a finished patch has each variant that was taken in under its own address
or exemption, in one place, and no other build but those that are not supported, under the
statement of a placeholder. -/
theorem finish_own_address {subsystem : Subsystem} {g : Signature} {offered : List Variant}
    {p : Patch} (h : ((new subsystem g).after offered).finish = .ok p) :
    (∀ v ∈ (new subsystem g).accepted offered, ∃ branch statement,
      ((p.branches v.id.bitness).filter fun b => v.id.build ∈ b.builds) = [branch] ∧
        branch.builds.count v.id.build = 1 ∧ branch.statements = [statement] ∧
          ((∃ own, g.exemption v.id = some own ∧ Text.words statement = Text.words own) ∨
            g.exemption v.id = none ∧ ∃ s, g.find v = .ok s ∧
              Text.words statement = Text.words
                s!"FillMem(p{subsystem.name}, 0x{Text.hex (v.rvaOf s).toNat}, &code, sizeof(code));")) ∧
      (∀ v ∈ (new subsystem g).accepted offered, ∀ w ∈ (new subsystem g).accepted offered,
        ∀ s t, g.exemption v.id = none → g.find v = .ok s →
          g.exemption w.id = none → g.find w = .ok t → v.id.bitness = w.id.bitness →
            ∀ branch ∈ p.branches v.id.bitness, v.id.build ∈ branch.builds →
              w.id.build ∈ branch.builds → v.rvaOf s = w.rvaOf t) ∧
        ∀ bitness, ∀ branch ∈ p.branches bitness, ∀ n ∈ branch.builds,
          (∃ v ∈ (new subsystem g).accepted offered,
            v.id.build = n ∧ v.id.bitness = bitness) ∨
            bitness = .x86 ∧ n ∈ Game.warhead.builds .x86 ∧
              ∃ statement, branch.statements = [statement] ∧
                Text.words statement = Text.words unsupported := by
  have hrecords := new_after_records subsystem g offered
  rcases (new subsystem g).after_fixed offered with ⟨hsubsystem, hsignature⟩
  change _ = subsystem at hsubsystem
  change _ = g at hsignature
  have htarget : ∀ {v s}, g.exemption v.id = none → g.find v = .ok s →
      ((new subsystem g).after offered).signature.target? v =
        some (Match.ofSubroutine g.name v s) := by
    intro v s hexempt hfind
    rw [hsignature]
    exact Signature.target?_of_found hexempt hfind
  refine ⟨?_, ?_, ?_⟩
  · intro v hv
    rcases hrecords.statement?_isSome hv with ⟨own, hown⟩
    rcases hrecords.exists_only_branch h hv hown with
      ⟨branch, statement, honly, hcount, hstatement, hwords⟩
    refine ⟨branch, statement, honly, hcount, hstatement, ?_⟩
    rcases statement?_eq_some.mp hown with hexempt | ⟨m, hm, hfill⟩
    · left
      rw [hsignature] at hexempt
      exact ⟨own, hexempt, hwords⟩
    · right
      rw [hsignature] at hm
      rcases Signature.target?_eq_some hm with ⟨hexempt, s, hfind, hmatch⟩
      refine ⟨hexempt, s, hfind, ?_⟩
      rw [hwords, hfill, hmatch, hsubsystem]
      rfl
  · intro v hv w hw s t hvexempt hvfind hwexempt hwfind hbitness branch hbranch hvbuild hwbuild
    exact hrecords.rva_eq_of_mem_builds h hv hw (htarget hvexempt hvfind)
      (htarget hwexempt hwfind) hbitness hbranch hvbuild hwbuild
  · intro bitness branch hbranch n hn
    rcases hrecords.of_mem_builds h hbranch hn with ⟨v, hv, hkey⟩ | hunsupported
    · cases hkey
      exact .inl ⟨v, hv, rfl, rfl⟩
    · exact .inr hunsupported

/-- A function that does nothing for as long as the longest jump takes. -/
def idleCode : Section where
  image := ⟨0x180000000, 0x100000⟩
  address := 0x180001000
  bytes := List.replicate 12 0x90 ++ [0xC3]

/-- A signature that is found where a function begins by doing nothing, but for build 711. -/
def idle : Signature where
  name := "Idle"
  doc := "Waits."
  handler := "void* handler"
  subsystems := [.game]
  pattern := fun _ => .ok Pattern.idleStart
  exemption := fun id => if id.build = 711 then some "// never idle" else none

/-- Two builds with the same code, one of them offered twice, and a build that is exempt. -/
def idleRun : List Variant :=
  [(6156, .x64), (5767, .x64), (6156, .x64), (711, .x86)].filterMap fun (build, bitness) =>
    (Variant.decode .generalPurpose ⟨.game, build, bitness⟩ idleCode).toOption

theorem finish_own_address_repeated :
    ∃ p, ((new .game idle).after idleRun).finish = .ok p ∧
      p.x64 = [⟨[5767, 6156], ["FillMem(pCryGame, 0x1000, &code, sizeof(code));"]⟩] ∧
        ∃ v ∈ (new .game idle).accepted idleRun, v.id.build = 5767 ∧ v.id.bitness = .x64 := by
  have hfinish : ((new .game idle).after idleRun).finish.map Patch.x64 =
      .ok [⟨[5767, 6156], ["FillMem(pCryGame, 0x1000, &code, sizeof(code));"]⟩] := by
    decide +kernel
  rcases Outcome.map_eq_ok.mp hfinish with ⟨p, hp, hx64⟩
  rcases finish_own_address hp with ⟨_, _, hbuilds⟩
  have hbuild := hbuilds .x64 ⟨[5767, 6156], _⟩
    (by show _ ∈ p.x64; rw [hx64]; exact List.mem_cons_self) 5767 (by simp)
  rcases hbuild with haccepted | ⟨hx86, _⟩
  · exact ⟨p, hp, hx64, haccepted⟩
  · cases hx86

end Draft
end JumpHooks

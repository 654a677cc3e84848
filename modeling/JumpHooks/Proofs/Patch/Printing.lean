import JumpHooks.Proofs.Hook.Jump
import JumpHooks.Proofs.Patch.Overwrite
import JumpHooks.Proofs.Source.Rendering

/-!
# Patches of the catalog can be written

Whatever was offered to a draft of the catalog, the patch that it is finished into has a head
that is known beforehand, stubs that are a jump with padding, and short statements. So its
function is written without a fault and reads back.
-/

namespace JumpHooks

open Source

/-!
# Stubs
-/

namespace HookStub

theorem longest_padded (b : Bitness) (count : Nat) :
    longest ⟨b, jump b ++ List.replicate count padding⟩ = fieldStart b + fieldLength b := by
  have hshort : ∀ n, 1 ≤ n → (List.replicate count 1).foldl max n = n := by
    intro n hn
    induction count with
    | zero => rfl
    | succ count ih =>
        rw [List.replicate_succ, List.foldl_cons, Nat.max_eq_left hn]
        exact ih
  unfold longest
  rw [lengths_padded]
  cases b with
  | x64 => exact hshort 10 (by decide)
  | x86 => exact hshort 5 (by decide)

theorem length_text_le (b : Bitness) :
    ∀ e ∈ padding :: jump b, e.code.length ≤ fieldStart b + fieldLength b ∧
      (e.instruction.text .comment b).length ≤ 10 := by
  cases b with
  | x64 => decide +kernel
  | x86 => decide +kernel

theorem length_encodedLine_le {b : Bitness} {e : Encoded} (he : e ∈ padding :: jump b) :
    2 + (encodedLine b (fieldStart b + fieldLength b) e).length ≤ lineLimit := by
  rcases length_text_le b e he with ⟨hcode, htext⟩
  have hfield : fieldStart b + fieldLength b ≤ 10 := by
    cases b <;> decide
  have hroom := Nat.mul_le_mul_right byteColumns hfield
  rw [length_encodedLine b hcode]
  unfold lineLimit
  unfold byteColumns at hroom ⊢
  lia

/-- A jump with padding fits into a function, however long it is. -/
theorem fitsFunction_padded (b : Bitness) (count : Nat) :
    FitsFunction ⟨b, jump b ++ List.replicate count padding⟩ := by
  constructor
  · intro e he
    rw [longest_padded]
    apply length_encodedLine_le
    rcases List.mem_append.mp he with hjump | hpadding
    · exact List.mem_cons_of_mem _ hjump
    · rw [List.eq_of_mem_replicate hpadding]
      exact List.mem_cons_self
  · have hcopy : (⟨b, jump b ++ List.replicate count padding⟩ : HookStub).copyStatement =
        (⟨b, []⟩ : HookStub).copyStatement := rfl
    rw [hcopy]
    cases b with
    | x64 => decide +kernel
    | x86 => decide +kernel

end HookStub

/-- A finished patch has hooks for both instruction sets, or for none. -/
theorem Draft.finish_hooks {d : Draft} {p : Patch} (h : d.finish = .ok p) (hne : p.hooks ≠ [])
    (b : Bitness) : ∃ s, p.hook? b = some s ∧ FitsFunction s := by
  rcases finish_ok h with ⟨hooks, _, hhooks, _, hp⟩
  have hpatch : p.hooks = hooks := by rw [hp]
  rw [hpatch] at hne
  unfold Draft.hooks at hhooks
  split at hhooks
  · cases hhooks
    exact absurd rfl hne
  · have hbitness : ∀ b s, HookStub.forTargets d.signature.name b d.targets = .ok s →
        s.bitness = b := by
      intro b s hs
      exact (HookStub.forTargets_ok hs).1
    rcases hookOrder_mapM_ok hhooks hbitness b with ⟨s, hs, hfind⟩
    unfold HookStub.forTargets at hs
    rcases Outcome.bind_eq_ok.mp hs with ⟨size, _, hassemble⟩
    refine ⟨s, ?_, ?_⟩
    · unfold Patch.hook?
      rw [hpatch]
      exact hfind
    · rw [(HookStub.assemble_eq_ok.mp hassemble).2]
      exact HookStub.fitsFunction_padded b _

/-!
# Statements
-/

theorem length_hex_le (v : UInt64) : (Text.hex v.toNat).length ≤ 16 := by
  unfold Text.hex
  rw [← String.length_toList, String.toList_ofList]
  exact (Nat.length_toDigits_le_iff (by decide) (by decide)).mpr v.toNat_lt

theorem Subsystem.utf8ByteSize_name_le (s : Subsystem) : s.name.utf8ByteSize ≤ 15 := by
  cases s <;> decide

/-- The statement that fills a target is short whatever its address. -/
theorem Draft.fillStatement_fits (subsystem : Subsystem) (m : Match) :
    IsStatement (fillStatement subsystem m) ∧
      3 + (fillStatement subsystem m).length ≤ lineLimit := by
  have hname := (length_le_utf8ByteSize _).trans subsystem.utf8ByteSize_name_le
  have hhex := length_hex_le m.rva
  have htext : fillStatement subsystem m = "FillMem(p" ++ subsystem.name ++ ", 0x" ++
      Text.hex m.rva.toNat ++ ", &code, sizeof(code));" := rfl
  constructor
  · apply isStatement_of_head (c := 'F') _ (by decide)
    rw [htext]
    simp
  · rw [htext]
    simp only [String.length_append]
    have hcall : "FillMem(p".length = 9 := by decide
    have haddress : ", 0x".length = 4 := by decide
    have hend : ", &code, sizeof(code));".length = 23 := by decide
    unfold lineLimit
    lia

/-- The texts of the catalog that go into the head of a function. -/
theorem Signature.short_of_mem_catalog {g : Signature} (hg : g ∈ catalog) :
    g.name.utf8ByteSize ≤ 15 ∧ g.doc.length + 3 ≤ lineLimit ∧
      Begins (Writer.indent ++ g.handler) ∧ g.handler.utf8ByteSize + 2 ≤ lineLimit := by
  have hdocSize : ∀ text : String, text.utf8ByteSize + 3 ≤ lineLimit →
      text.length + 3 ≤ lineLimit := by
    intro text htext
    have hlength := length_le_utf8ByteSize text
    lia
  unfold catalog at hg
  rcases List.mem_cons.mp hg with heq | hrest
  · rw [heq]
    exact ⟨by decide, hdocSize _ (by decide), ⟨'v', by decide, by decide, by decide⟩, by decide⟩
  · rw [List.mem_singleton.mp hrest]
    exact ⟨by decide, hdocSize _ (by decide), ⟨'v', by decide, by decide, by decide⟩, by decide⟩

/-- The descriptions of the catalog take one line each. -/
theorem Signature.commentTexts_of_mem_catalog {g : Signature} (hg : g ∈ catalog) :
    commentTexts g.doc = ["/**", " * " ++ g.doc, " */"] := by
  unfold catalog at hg
  rcases List.mem_cons.mp hg with heq | hrest
  · rw [heq]
    decide +kernel
  · rw [List.mem_singleton.mp hrest]
    decide +kernel

theorem Signature.exemption_fits {g : Signature} (hg : g ∈ catalog) {id : VariantId}
    {statement : String} (h : g.exemption id = some statement) :
    IsStatement statement ∧ 3 + statement.length ≤ lineLimit := by
  unfold catalog at hg
  rcases List.mem_cons.mp hg with heq | hrest
  · rw [heq] at h
    cases h
  · rw [List.mem_singleton.mp hrest] at h
    change CryWarning.exemption id = some statement at h
    unfold CryWarning.exemption at h
    split at h
    · cases h
      exact ⟨isStatement_of_head (c := '/') (by decide) (by decide), by decide⟩
    · cases h

/-!
# Finished patches
-/

namespace Draft

/-- A branch of a finished patch has the statement of a variant that was taken in, or that of
a placeholder. -/
theorem Records.statements_of_mem {d : Draft} {vs : List Variant} (h : d.Records vs) {p : Patch}
    (hfinish : d.finish = .ok p) {b : Bitness} {branch : Branch}
    (hbranch : branch ∈ p.branches b) :
    branch.builds ≠ [] ∧ ∀ text ∈ branch.statements,
      (∃ v ∈ vs, d.statement? v = some text) ∨ text = unsupported := by
  rcases h.finish hfinish b with ⟨x, hbranches, hx⟩
  rw [hbranches] at hbranch
  rcases x.branches_verbatim branch hbranch with ⟨hbuilds, c, hc, hstatements⟩
  refine ⟨hbuilds, ?_⟩
  intro text htext
  rw [hstatements] at htext
  rcases (hx c.build c.statements).mp (Case.lookup_of_mem x.ascending hc) with
    ⟨v, hv, _, own, hown, heq⟩ | ⟨_, _, _, heq⟩
  · rw [heq] at htext
    rw [List.mem_singleton.mp htext]
    exact .inl ⟨v, hv, hown⟩
  · rw [heq] at htext
    exact .inr (List.mem_singleton.mp htext)

theorem Records.nodup_builds {d : Draft} {vs : List Variant} (h : d.Records vs) {p : Patch}
    (hfinish : d.finish = .ok p) (b : Bitness) :
    ((p.branches b).flatMap Branch.builds).Nodup := by
  rcases h.finish hfinish b with ⟨x, hbranches, _⟩
  rw [hbranches]
  exact x.branches_nodup

/-- What the head of a patch function says does not depend on the variants. -/
theorem finish_fixed {subsystem : Subsystem} {g : Signature} {offered : List Variant} {p : Patch}
    (h : ((new subsystem g).after offered).finish = .ok p) :
    p.subsystem = subsystem ∧ p.name = g.name ∧ p.doc = g.doc ∧
      p.params = ["void* p" ++ subsystem.name, "int gameBuild", g.handler] := by
  rcases finish_ok h with ⟨_, _, _, _, hp⟩
  rw [hp, subsystem_new_after, signature_new_after]
  exact ⟨rfl, rfl, rfl, rfl⟩

theorem isHead_headItems {subsystem : Subsystem} {g : Signature} (hg : g ∈ Signature.catalog)
    {offered : List Variant} {p : Patch}
    (h : ((new subsystem g).after offered).finish = .ok p) :
    ∀ item ∈ headItems p, item.IsHead := by
  rcases Signature.short_of_mem_catalog hg with ⟨hname, hdoc, hhandler⟩
  rcases finish_fixed h with ⟨hpsubsystem, hpname, hpdoc, hpparams⟩
  have hpointer := subsystem.utf8ByteSize_name_le
  intro item hitem
  rcases List.mem_append.mp hitem with hcomment | hdeclaration
  · rcases List.mem_cons.mp hcomment with heq | hmem
    · exact ⟨"", heq, by decide, by decide, by decide⟩
    · rw [hpdoc] at hmem
      exact docComment_isHead hdoc item hmem
  · refine headLines_isHead ?_ ?_ ?_ item hdeclaration
    · rw [String.append_assoc]
      exact Begins.append ⟨'v', by decide, by decide, by decide⟩ _
    · have hresult : "void ".utf8ByteSize = 5 := by decide
      have hopening : "(".utf8ByteSize = 1 := by decide
      have hspace : "MemoryPatch::".utf8ByteSize = 13 := by decide
      have hcolons : "::".utf8ByteSize = 2 := by decide
      have hfunction : p.functionName.utf8ByteSize =
          13 + subsystem.name.utf8ByteSize + 2 + g.name.utf8ByteSize := by
        have htext : p.functionName = "MemoryPatch::" ++ p.subsystem.name ++ "::" ++ p.name := rfl
        rw [htext, hpsubsystem, hpname]
        simp only [String.utf8ByteSize_append, hspace, hcolons]
      rw [String.utf8ByteSize_append, String.utf8ByteSize_append, hresult, hopening, hfunction]
      unfold lineLimit
      lia
    · rw [hpparams]
      intro q hq
      rcases List.mem_cons.mp hq with heq | hrest
      · rw [heq]
        constructor
        · rw [← String.append_assoc]
          exact Begins.append ⟨'v', by decide, by decide, by decide⟩ _
        · have hpointerText : "void* p".utf8ByteSize = 7 := by decide
          rw [String.utf8ByteSize_append, hpointerText]
          unfold lineLimit
          lia
      · rcases List.mem_cons.mp hrest with heq | hlast
        · rw [heq]
          exact ⟨⟨'i', by decide, by decide, by decide⟩, by decide⟩
        · rw [List.mem_singleton.mp hlast]
          exact hhandler

/-- Whatever was offered to a draft of the catalog, its patch can be written. -/
theorem finish_printable {subsystem : Subsystem} {g : Signature} (hg : g ∈ Signature.catalog)
    {offered : List Variant} (hbuilds : ∀ v ∈ offered, v.id.build < 2 ^ 32) {p : Patch}
    (h : ((new subsystem g).after offered).finish = .ok p) : Printable p := by
  have hrecords := new_after_records subsystem g offered
  constructor
  · exact isHead_headItems hg h
  · exact finish_hooks h
  · intro b branch hbranch
    refine ⟨(hrecords.statements_of_mem h hbranch).1, ?_⟩
    intro build hbuild
    rcases hrecords.of_mem_builds h hbranch hbuild with ⟨v, hv, hkey⟩ | ⟨_, hwarhead, _⟩
    · have hoffered := hbuilds v (accepted_subset _ _ v hv)
      cases hkey
      exact hoffered
    · have hall : ∀ build ∈ Game.warhead.builds .x86, build < 2 ^ 32 := by decide
      exact hall build hwarhead
  · exact hrecords.nodup_builds h
  · intro b branch hbranch text htext
    rcases (hrecords.statements_of_mem h hbranch).2 text htext with ⟨v, _, hown⟩ | heq
    · rcases statement?_eq_some.mp hown with hexempt | ⟨m, _, hfill⟩
      · rw [signature_new_after] at hexempt
        exact Signature.exemption_fits hg hexempt
      · rw [hfill]
        exact fillStatement_fits _ m
    · rw [heq]
      exact ⟨isStatement_of_head (by decide : unsupported.toList.head? = some '/') (by decide),
        by decide⟩

/-- The function of a patch of the catalog is written without a fault, with no line over 120
characters and back at the margin, and reads back as the patch for both instruction sets. Build
numbers have 32 bits. -/
theorem finish_reads_back {subsystem : Subsystem} {g : Signature} (hg : g ∈ Signature.catalog)
    {offered : List Variant} (hbuilds : ∀ v ∈ offered, v.id.build < 2 ^ 32) {p : Patch}
    (h : ((new subsystem g).after offered).finish = .ok p) :
    ∃ lines, Writer.empty.write (patchItems p) = (⟨0, lines⟩, none) ∧
      (∀ l ∈ lines, l.length ≤ 120) ∧
        ∀ b, ∃ r, read? (compiled b true lines.toList) = some r ∧ r.Says p b :=
  write_patchItems (finish_printable hg hbuilds h)

/-- The lines of that function begin with a blank line, the description of the signature as a
comment, and the declaration. Its parameters stand on its lines in their order, and only the
first of these lines may be without one. -/
theorem finish_head {subsystem : Subsystem} {g : Signature} (hg : g ∈ Signature.catalog)
    {offered : List Variant} (hbuilds : ∀ v ∈ offered, v.id.build < 2 ^ 32) {p : Patch}
    (h : ((new subsystem g).after offered).finish = .ok p) :
    ∃ (group : List String) (groups : List (List String)) (body : List String),
      (group :: groups).flatten = ["void* p" ++ subsystem.name, "int gameBuild", g.handler] ∧
        (∀ later ∈ groups, later ≠ []) ∧
          Writer.empty.write (patchItems p) = (⟨0, (["", "/**", " * " ++ g.doc, " */"] ++
            declarationLines ("void MemoryPatch::" ++ subsystem.name ++ "::" ++ g.name ++ "(")
              group groups ++ "\x7b" :: body).toArray⟩, none) := by
  rcases finish_fixed h with ⟨hsubsystem, hname, hdoc, hparams⟩
  rcases write_patchItems_head (finish_printable hg hbuilds h) with
    ⟨group, groups, body, hflatten, hnonempty, hwrite⟩
  have hfunction : p.functionName =
      "MemoryPatch::" ++ subsystem.name ++ "::" ++ g.name := by
    rw [← hsubsystem, ← hname]
    rfl
  refine ⟨group, groups, body, hflatten.trans hparams, hnonempty, ?_⟩
  rw [hwrite, hdoc, Signature.commentTexts_of_mem_catalog hg, hfunction]
  simp only [← String.append_assoc]
  rfl

/-- Two builds with the same code. -/
def warningRun : List Variant :=
  [6156, 5767].filterMap fun build => (warningBuild build).toOption

theorem finish_reads_back_shared_branch :
    ∃ p lines r, ((new .system .cryWarning).after warningRun).finish = .ok p ∧
      Writer.empty.write (patchItems p) = (⟨0, lines⟩, none) ∧
        read? (compiled .x64 true lines.toList) = some r ∧
          Clause.select 6156 r.clauses = ["FillMem(pCrySystem, 0x1000, &code, sizeof(code));"] := by
  have hbuilds : ∀ v ∈ warningRun, v.id.build < 2 ^ 32 := by
    decide +kernel
  have hfinish : ((new .system .cryWarning).after warningRun).finish.map Patch.x64 =
      .ok [⟨[5767, 6156], ["FillMem(pCrySystem, 0x1000, &code, sizeof(code));"]⟩] := by
    decide +kernel
  have hg : Signature.cryWarning ∈ Signature.catalog :=
    List.mem_cons_of_mem _ (List.mem_singleton_self _)
  rcases Outcome.map_eq_ok.mp hfinish with ⟨p, hp, hx64⟩
  change p.branches .x64 = _ at hx64
  rcases finish_reads_back hg hbuilds hp with ⟨lines, hwrite, _, hread⟩
  rcases hread .x64 with ⟨r, hr, hsays⟩
  refine ⟨p, lines, r, hp, hwrite, hr, ?_⟩
  exact hsays.selected ⟨[5767, 6156], _⟩ (by rw [hx64]; exact List.mem_cons_self) 6156 (by simp)

end Draft
end JumpHooks

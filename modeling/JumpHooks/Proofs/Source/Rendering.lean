import JumpHooks.Proofs.Source.Array
import JumpHooks.Proofs.Source.Balance
import JumpHooks.Proofs.Source.Declaration
import JumpHooks.Proofs.Source.Switch

/-!
# Patch functions that read back

A patch whose parts are short enough is written without a fault, and what is compiled of it for
either instruction set says what the patch says.
-/

namespace JumpHooks
namespace Source

/-!
# Patches that can be written
-/

/-- Everything in front of the body of a function. -/
def headItems (p : Patch) : List Item :=
  .line "" :: docComment p.doc ++ headLines ("void " ++ p.functionName ++ "(") true p.params

/-- The lines of a stub fit into a function. -/
structure FitsFunction (s : HookStub) : Prop where
  rows : ∀ e ∈ s.body, 2 + (encodedLine s.bitness (longest s) e).length ≤ lineLimit
  copy : s.copyStatement.toList.head? = some 's' ∧ 1 + s.copyStatement.length ≤ lineLimit ∧
    s.copyStatement ≠ "switch (gameBuild)"

/-- The lines of all parts of a patch fit, and none is taken for anything else. -/
structure Printable (p : Patch) : Prop where
  head : ∀ item ∈ headItems p, item.IsHead
  hooks : p.hooks ≠ [] → ∀ b, ∃ s, p.hook? b = some s ∧ FitsFunction s
  builds : ∀ b, ∀ branch ∈ p.branches b, branch.builds ≠ [] ∧
    ∀ build ∈ branch.builds, build < 2 ^ 32
  nodup : ∀ b, ((p.branches b).flatMap Branch.builds).Nodup
  statements : ∀ b, ∀ branch ∈ p.branches b, ∀ text ∈ branch.statements,
    IsStatement text ∧ 3 + text.length ≤ lineLimit

/-!
# The lines of a function
-/

theorem patchItems_eq (p : Patch) :
    patchItems p = headItems p ++
      (.opening "\x7b" :: (hooksItems p ++ switchItems p) ++ [.closing "\x7d"]) := by
  unfold patchItems headItems functionHead
  simp [List.append_assoc]

theorem lays_byBitness {level : Nat} {wide narrow : List Item} {ls ms : List String}
    (hwide : Lays level wide ls level) (hnarrow : Lays level narrow ms level) :
    Lays level (byBitness wide narrow)
      ("#ifdef BUILD_64BIT" :: (ls ++ "#else" :: (ms ++ ["#endif"]))) level := by
  have hif : Lays level [.margin "#ifdef BUILD_64BIT"] ["#ifdef BUILD_64BIT"] level :=
    .margin _ (by decide)
  have helse : Lays level [.margin "#else"] ["#else"] level := .margin _ (by decide)
  have hendif : Lays level [.margin "#endif"] ["#endif"] level := .margin _ (by decide)
  have hall := ((hif.append hwide).append (helse.append hnarrow)).append hendif
  unfold byBitness
  simpa using hall

def hookLines (s : HookStub) : List String :=
  Writer.indented 1 "unsigned char code[] = \x7b" ::
    (rowLines 2 s ++ Writer.indented 1 "\x7d;" :: ["", Writer.indented 1 s.copyStatement])

theorem lays_hookItems {p : Patch} {b : Bitness} {s : HookStub} (hs : p.hook? b = some s)
    (hfits : FitsFunction s) : Lays 1 (hookItems p b) (hookLines s) 1 := by
  have harray : Lays 1 (byteArray s "code") _ 1 := lays_byteArray (by decide) hfits.rows
  have hblank : Lays 1 [.line ""] [""] 1 := .line "" (by decide)
  have hcopy := Lays.line s.copyStatement hfits.copy.2.1
  have hall := harray.append (hblank.append hcopy)
  unfold hookItems hookLines
  rw [hs]
  simpa using hall

def hooksLines (p : Patch) (wide narrow : HookStub) : List String :=
  if p.hooks = [] then
    []
  else
    "#ifdef BUILD_64BIT" :: (hookLines wide ++ "#else" :: (hookLines narrow ++ "#endif" :: [""]))

theorem lays_hooksItems {p : Patch} {wide narrow : HookStub}
    (hwide : p.hooks ≠ [] → p.hook? .x64 = some wide ∧ FitsFunction wide)
    (hnarrow : p.hooks ≠ [] → p.hook? .x86 = some narrow ∧ FitsFunction narrow) :
    Lays 1 (hooksItems p) (hooksLines p wide narrow) 1 := by
  unfold hooksItems hooksLines
  by_cases hempty : p.hooks = []
  · rw [if_pos hempty, if_pos (by simp [hempty])]
    exact .nil 1
  · rcases hwide hempty with ⟨hw, hwfits⟩
    rcases hnarrow hempty with ⟨hn, hnfits⟩
    have hblank : Lays 1 [.line ""] [""] 1 := .line "" (by decide)
    have hall := (lays_byBitness (lays_hookItems hw hwfits) (lays_hookItems hn hnfits)).append
      hblank
    rw [if_neg hempty, if_neg (by simp [hempty])]
    simpa using hall

def caseLines (p : Patch) (b : Bitness) : List String :=
  (p.branches b).flatMap (branchLines 2)

def switchLines (p : Patch) : List String :=
  Writer.indented 1 "switch (gameBuild)" :: Writer.indented 1 "\x7b" ::
    "#ifdef BUILD_64BIT" :: (caseLines p .x64 ++ "#else" :: (caseLines p .x86 ++ "#endif" ::
      [Writer.indented 1 "\x7d"]))

theorem lays_switchItems {p : Patch} (h : Printable p) :
    Lays 1 (switchItems p) (switchLines p) 1 := by
  have hcases : ∀ b, Lays 2 (switchCases (p.branches b)) (caseLines p b) 2 := by
    intro b
    apply lays_switchCases (by decide)
    · intro branch hbranch
      exact (h.builds b branch hbranch).2
    · intro branch hbranch text htext
      exact (h.statements b branch hbranch text htext).2
  have hhead : Lays 1 [.line "switch (gameBuild)"] _ 1 := .line _ (by decide)
  have hall := hhead.append (Lays.block "\x7b" "\x7d" (by decide) (by decide)
    (lays_byBitness (hcases .x64) (hcases .x86)))
  unfold switchItems switchLines
  simpa [Patch.branches] using hall

/-!
# The lines that are compiled
-/

theorem ofLine?_indented {level : Nat} {text : String}
    (h : text.toList.head? ≠ some '\t' ∧ text.toList.head? ≠ some '#') :
    Directive.ofLine? (Writer.indented level text) = none := by
  apply Directive.ofLine?_eq_none
  rw [Writer.unindented_indented h.1]
  exact h.2

/-- The texts of the rows of an array are no other lines of a function. -/
theorem unindented_rowLines {level : Nat} {s : HookStub} {l : String} (h : l ∈ rowLines level s) :
    (unindented l).toList.head? = some '0' ∨ (unindented l).toList.head? = some ' ' := by
  rcases List.mem_map.mp h with ⟨text, htext, heq⟩
  rcases List.mem_map.mp htext with ⟨e, _, hencoded⟩
  have hhead := head?_encodedLine s.bitness (longest s) e
  rw [hencoded] at hhead
  have htab : text.toList.head? ≠ some '\t' := by
    rcases hhead with hzero | hblank
    · rw [hzero]
      decide
    · rw [hblank]
      decide
  rw [← heq, Writer.unindented_indented htab]
  exact hhead

theorem unindented_ne_of_mem_rowLines {level : Nat} {s : HookStub} {l text : String}
    (h : l ∈ rowLines level s) (hzero : text.toList.head? ≠ some '0')
    (hblank : text.toList.head? ≠ some ' ') : unindented l ≠ text := by
  intro heq
  have hhead := unindented_rowLines h
  rw [heq] at hhead
  rcases hhead with h0 | h1
  · exact hzero h0
  · exact hblank h1

/-- No line of a hook is a directive, or the line that a switch begins with. -/
theorem of_mem_hookLines {s : HookStub} (hfits : FitsFunction s) {l : String}
    (h : l ∈ hookLines s) :
    Directive.ofLine? l = none ∧ unindented l ≠ "switch (gameBuild)" := by
  have hflush : s.copyStatement.toList.head? ≠ some '\t' ∧
      s.copyStatement.toList.head? ≠ some '#' := by
    rw [hfits.copy.1]
    decide
  unfold hookLines at h
  rcases List.mem_cons.mp h with heq | hbody
  · rw [heq, Writer.unindented_indented (by decide)]
    exact ⟨ofLine?_indented (by decide), by decide⟩
  · rcases List.mem_append.mp hbody with hrow | hbehind
    · refine ⟨?_, unindented_ne_of_mem_rowLines hrow (by decide) (by decide)⟩
      apply Directive.ofLine?_eq_none
      rcases unindented_rowLines hrow with hzero | hblank
      · rw [hzero]
        decide
      · rw [hblank]
        decide
    · rcases List.mem_cons.mp hbehind with heq | hrest
      · rw [heq, Writer.unindented_indented (by decide)]
        exact ⟨ofLine?_indented (by decide), by decide⟩
      · rcases List.mem_cons.mp hrest with heq | hcopy
        · rw [heq]
          exact ⟨by decide, by decide⟩
        · rw [List.mem_singleton.mp hcopy, Writer.unindented_indented hflush.1]
          exact ⟨ofLine?_indented hflush, hfits.copy.2.2⟩

theorem ofLine?_of_mem_caseLines {p : Patch} (h : Printable p) {b : Bitness} {l : String}
    (hl : l ∈ caseLines p b) : Directive.ofLine? l = none := by
  rcases List.mem_flatMap.mp hl with ⟨branch, hbranch, hmem⟩
  have htexts : ∀ text ∈ branch.builds.map labelText ++
      ("\x7b" :: (branch.statements ++ ["break;"]) ++ ["\x7d"]),
      text.toList.head? ≠ some '#' := by
    intro text htext
    rcases List.mem_append.mp htext with hlabel | hblock
    · rcases List.mem_map.mp hlabel with ⟨build, _, heq⟩
      rw [← heq, toList_labelText]
      exact (by decide : some 'c' ≠ some '#')
    · simp only [List.cons_append, List.append_assoc, List.mem_cons, List.mem_append,
        List.not_mem_nil, or_false, false_or] at hblock
      rcases hblock with heq | hstatement | heq | heq
      · rw [heq]
        decide
      · exact (h.statements b branch hbranch text hstatement).1.first.2
      · rw [heq]
        decide
      · rw [heq]
        decide
  rw [← @unindented_branchLines 2 branch
    fun text htext => (h.statements b branch hbranch text htext).1] at htexts
  exact Directive.ofLine?_eq_none (htexts _ (List.mem_map.mpr ⟨l, hmem, rfl⟩))

/-- What stands in front of the switch for one instruction set. -/
def setupLines (p : Patch) (s : HookStub) : List String :=
  if p.hooks = [] then [] else hookLines s ++ [""]

theorem compiled_hooksLines {p : Patch} {wide narrow : HookStub}
    (hwide : p.hooks ≠ [] → FitsFunction wide) (hnarrow : p.hooks ≠ [] → FitsFunction narrow)
    (b : Bitness) (rest : List String) :
    compiled b true (hooksLines p wide narrow ++ rest) =
      setupLines p (if b.is64Bit then wide else narrow) ++ compiled b true rest := by
  unfold hooksLines setupLines
  by_cases hempty : p.hooks = []
  · rw [if_pos hempty, if_pos hempty]
    rfl
  · have hblank : compiled b true ("" :: rest) = "" :: compiled b true rest :=
      compiled_cons (by decide) rest
    have hparts := compiled_parts b (fun l hl => (of_mem_hookLines (hwide hempty) hl).1)
      (fun l hl => (of_mem_hookLines (hnarrow hempty) hl).1) ("" :: rest)
    rw [if_neg hempty, if_neg hempty]
    simp only [List.cons_append, List.append_assoc, List.nil_append]
    rw [hparts, hblank]
    cases b <;> rfl

theorem compiled_switchLines {p : Patch} (h : Printable p) (b : Bitness)
    (rest : List String) :
    compiled b true (switchLines p ++ rest) =
      Writer.indented 1 "switch (gameBuild)" :: Writer.indented 1 "\x7b" ::
        (caseLines p b ++ Writer.indented 1 "\x7d" :: compiled b true rest) := by
  have hparts := compiled_parts b (fun l hl => ofLine?_of_mem_caseLines (b := .x64) h hl)
    (fun l hl => ofLine?_of_mem_caseLines (b := .x86) h hl) (Writer.indented 1 "\x7d" :: rest)
  have hcases : (if b.is64Bit then caseLines p .x64 else caseLines p .x86) = caseLines p b := by
    cases b <;> rfl
  unfold switchLines
  simp only [List.cons_append, List.append_assoc, List.nil_append]
  rw [compiled_cons (ofLine?_indented (by decide)), compiled_cons (ofLine?_indented (by decide)),
    hparts, hcases, compiled_cons (ofLine?_indented (by decide))]

/-- The lines of a function behind these lines of its head. -/
def functionLines (p : Patch) (wide narrow : HookStub) (head : List String) : List String :=
  head ++ (Writer.indented 0 "\x7b" :: (hooksLines p wide narrow ++ switchLines p) ++
    [Writer.indented 0 "\x7d"])

/-- The lines of a function that are compiled for one instruction set. -/
def partLines (p : Patch) (b : Bitness) (s : HookStub) (head : List String) : List String :=
  head ++ Writer.indented 0 "\x7b" :: (setupLines p s ++
    Writer.indented 1 "switch (gameBuild)" :: (Writer.indented 1 "\x7b" ::
      (caseLines p b ++ [Writer.indented 1 "\x7d", Writer.indented 0 "\x7d"])))

theorem compiled_functionLines {p : Patch} (h : Printable p) {wide narrow : HookStub}
    (hwide : p.hooks ≠ [] → FitsFunction wide) (hnarrow : p.hooks ≠ [] → FitsFunction narrow)
    {head : List String} (hhead : ∀ l ∈ head, Directive.ofLine? l = none) (b : Bitness) :
    compiled b true (functionLines p wide narrow head) =
      partLines p b (if b.is64Bit then wide else narrow) head := by
  have hend : compiled b true [Writer.indented 0 "\x7d"] = [Writer.indented 0 "\x7d"] :=
    compiled_cons (ofLine?_indented (by decide)) []
  unfold functionLines partLines
  rw [compiled_append hhead, List.cons_append, compiled_cons (ofLine?_indented (by decide)),
    List.append_assoc, compiled_hooksLines hwide hnarrow, compiled_switchLines h, hend]
  rfl

/-!
# What is read
-/

def hookReading (s : HookStub) : List Row × List String :=
  (s.body.map (row s.bitness 2 (longest s)), [s.copyStatement])

theorem hook?_setupLines {p : Patch} {s : HookStub} (hfits : p.hooks ≠ [] → FitsFunction s) :
    hook? (setupLines p s) = some (if p.hooks = [] then none else some (hookReading s)) := by
  unfold setupLines
  by_cases hempty : p.hooks = []
  · rw [if_pos hempty, if_pos hempty]
    rfl
  · have hcopy := (hfits hempty).copy.1
    have hflush : s.copyStatement.toList.head? ≠ some '\t' := by
      rw [hcopy]
      decide
    have hne : (s.copyStatement != "") = true := by
      rw [bne_iff_ne]
      intro heq
      rw [heq] at hcopy
      cases hcopy
    have hrows : ∀ l ∈ rowLines 2 s, unindented l ≠ "\x7d;" := by
      intro l hl
      exact unindented_ne_of_mem_rowLines hl (by decide) (by decide)
    have hclosing : unindented (Writer.indented 1 "\x7d;") = "\x7d;" :=
      Writer.unindented_indented (by decide)
    have htexts : (["", Writer.indented 1 s.copyStatement, ""].map unindented).filter
        (fun text => text != "") = [s.copyStatement] := by
      rw [List.map_cons, List.map_cons, Writer.unindented_indented hflush]
      show List.filter _ ["", s.copyStatement, ""] = _
      rw [List.filter_cons_of_neg (by decide), List.filter_cons, if_pos hne,
        List.filter_cons_of_neg (by decide), List.filter_nil]
    rw [if_neg hempty, if_neg hempty]
    unfold hookLines
    simp only [List.cons_append, List.append_assoc, List.nil_append]
    rw [hook?, if_pos (Writer.unindented_indented (by decide)), cut?_eq hrows hclosing,
      Option.bind_some]
    dsimp only
    rw [mapM_rowLines, Option.map_some, htexts]
    rfl

/-- What is read is what the patch says for one instruction set: the bytes of its stub with all
comments in one column, each the text of its instruction, then the statement that stores the
handler, and a switch with its branches, in which each build has one label and leads to the
statements of its branch. -/
structure Reading.Says (r : Reading) (p : Patch) (b : Bitness) : Prop where
  no_hook : p.hooks = [] → r.hook = none
  hook : p.hooks ≠ [] → ∃ s rows column, p.hook? b = some s ∧
    r.hook = some (rows, [s.copyStatement]) ∧ rows.flatMap Row.bytes = s.bytes ∧
      (rows.map Row.comment = s.body.map fun e => " " ++ e.instruction.text .comment s.bitness) ∧
        ∀ row ∈ rows, row.column = column
  branches : Clause.branches? [] none r.clauses = some (p.branches b)
  labels : ∀ branch ∈ p.branches b, ∀ build ∈ branch.builds,
    r.clauses.count (.label build) = 1
  selected : ∀ branch ∈ p.branches b, ∀ build ∈ branch.builds,
    Clause.select build r.clauses = branch.statements
  unselected : ∀ build, (∀ branch ∈ p.branches b, build ∉ branch.builds) →
    Clause.select build r.clauses = []

/-- The clauses of a switch, with the ends of the switch and of the function. -/
def switchClauses (p : Patch) (b : Bitness) : List Clause :=
  (p.branches b).flatMap Clause.ofBranch ++ [.closing, .closing]

theorem says_reading {p : Patch} (h : Printable p) {b : Bitness} {s : HookStub}
    (hs : p.hooks ≠ [] → p.hook? b = some s) :
    Reading.Says ⟨if p.hooks = [] then none else some (hookReading s), switchClauses p b⟩ p b := by
  constructor
  · intro hempty
    exact if_pos hempty
  · intro hhooks
    refine ⟨s, _, 2 + longest s * byteColumns + 1, hs hhooks, if_neg hhooks, ?_, ?_, ?_⟩
    · show (s.body.map _).flatMap Row.bytes = s.body.flatMap Encoded.code
      rw [List.flatMap_map]
      rfl
    · rw [List.map_map]
      rfl
    · intro r hr
      rcases List.mem_map.mp hr with ⟨e, _, heq⟩
      rw [← heq]
      rfl
  · exact Clause.branches?_flatMap fun branch hbranch => (h.builds b branch hbranch).1
  · intro branch hbranch build hbuild
    have hmem := List.mem_flatMap.mpr ⟨branch, hbranch, hbuild⟩
    exact (Clause.count_label build _).trans ((h.nodup b).count.trans (if_pos hmem))
  · intro branch hbranch build hbuild
    exact Clause.select_eq (h.nodup b) hbranch hbuild _
  · intro build hbuild
    apply Clause.select_of_notMem
    rw [← List.count_eq_zero]
    refine (Clause.count_label build _).trans (List.count_eq_zero.mpr ?_)
    intro hmem
    rcases List.mem_flatMap.mp hmem with ⟨branch, hbranch, hmem⟩
    exact hbuild branch hbranch hmem

theorem clauses_caseLines {p : Patch} (h : Printable p) (b : Bitness) :
    (caseLines p b ++ [Writer.indented 1 "\x7d", Writer.indented 0 "\x7d"]).map
      (fun l => Clause.ofText (unindented l)) = switchClauses p b := by
  have hcases := @clauses_switch 2 (p.branches b) fun branch hbranch text htext =>
    (h.statements b branch hbranch text htext).1
  unfold caseLines switchClauses
  rw [List.map_append, hcases, List.map_cons, List.map_cons,
    Writer.unindented_indented (by decide), Writer.unindented_indented (by decide)]
  rfl

/-- The compiled lines of a function are read as its setup and its switch. -/
theorem read?_partLines {p : Patch} (h : Printable p) {b : Bitness} {s : HookStub}
    (hfits : p.hooks ≠ [] → FitsFunction s) {head : List String}
    (hhead : ∀ l ∈ head, unindented l ≠ "\x7b") :
    read? (partLines p b s head) =
      some ⟨if p.hooks = [] then none else some (hookReading s), switchClauses p b⟩ := by
  have hsetup : ∀ l ∈ setupLines p s, unindented l ≠ "switch (gameBuild)" := by
    unfold setupLines
    by_cases hempty : p.hooks = []
    · rw [if_pos hempty]
      simp
    · rw [if_neg hempty]
      intro l hl
      rcases List.mem_append.mp hl with hmem | hblank
      · exact (of_mem_hookLines (hfits hempty) hmem).2
      · rw [List.mem_singleton.mp hblank]
        decide
  have hbrace : ∀ level, unindented (Writer.indented level "\x7b") = "\x7b" := by
    intro level
    exact Writer.unindented_indented (by decide)
  have hswitch : unindented (Writer.indented 1 "switch (gameBuild)") = "switch (gameBuild)" :=
    Writer.unindented_indented (by decide)
  have hfront : ∀ lines, cut? "\x7b" (Writer.indented 1 "\x7b" :: lines) = some ([], lines) := by
    intro lines
    rw [cut?, if_pos (hbrace 1)]
  unfold read? partLines
  rw [cut?_eq hhead (hbrace 0), Option.bind_some]
  dsimp only
  rw [cut?_eq hsetup hswitch, Option.bind_some]
  dsimp only
  rw [hfront, Option.bind_some]
  dsimp only
  rw [if_pos rfl, hook?_setupLines hfits, Option.map_some, clauses_caseLines h]

/-- The stubs of a patch whose hooks fit, if it has any. -/
theorem Printable.exists_stubs {p : Patch} (h : Printable p) :
    ∃ wide narrow, (p.hooks ≠ [] → p.hook? .x64 = some wide ∧ FitsFunction wide) ∧
      (p.hooks ≠ [] → p.hook? .x86 = some narrow ∧ FitsFunction narrow) := by
  have hstubs : ∀ b, ∃ s, p.hooks ≠ [] → p.hook? b = some s ∧ FitsFunction s := by
    intro b
    by_cases hempty : p.hooks = []
    · exact ⟨⟨b, []⟩, fun hne => absurd hempty hne⟩
    · rcases h.hooks hempty b with ⟨s, hs⟩
      exact ⟨s, fun _ => hs⟩
  rcases hstubs .x64 with ⟨wide, hwide⟩
  rcases hstubs .x86 with ⟨narrow, hnarrow⟩
  exact ⟨wide, narrow, hwide, hnarrow⟩

theorem lays_patchItems {p : Patch} (h : Printable p) {wide narrow : HookStub}
    (hwide : p.hooks ≠ [] → p.hook? .x64 = some wide ∧ FitsFunction wide)
    (hnarrow : p.hooks ≠ [] → p.hook? .x86 = some narrow ∧ FitsFunction narrow)
    {texts : List String} (hhead : Lays 0 (headItems p) texts 0) :
    Lays 0 (patchItems p) (functionLines p wide narrow texts) 0 := by
  rw [patchItems_eq]
  exact hhead.append (Lays.block _ _ (by decide) (by decide)
    ((lays_hooksItems hwide hnarrow).append (lays_switchItems h)))

/-- A patch whose parts fit is written without a fault, at the indentation that it begins at,
and reads back for both instruction sets. -/
theorem write_patchItems {p : Patch} (h : Printable p) :
    ∃ lines, Writer.empty.write (patchItems p) = (⟨0, lines⟩, none) ∧
      (∀ l ∈ lines, l.length ≤ lineLimit) ∧
        ∀ b, ∃ r, read? (compiled b true lines.toList) = some r ∧ r.Says p b := by
  rcases h.exists_stubs with ⟨wide, narrow, hwide, hnarrow⟩
  rcases exists_headTexts h.head with ⟨texts, _, hhead, hdirectives, hbraces⟩
  have hlays := lays_patchItems h hwide hnarrow hhead
  refine ⟨(functionLines p wide narrow texts).toArray, Writer.write_empty_iff.mpr hlays, ?_, ?_⟩
  · intro l hl
    exact hlays.length_le l (List.mem_toArray.mp hl)
  · intro b
    have hs : p.hooks ≠ [] → p.hook? b = some (if b.is64Bit then wide else narrow) ∧
        FitsFunction (if b.is64Bit then wide else narrow) := by
      cases b with
      | x64 => exact hwide
      | x86 => exact hnarrow
    refine ⟨_, ?_, says_reading h fun hne => (hs hne).1⟩
    rw [List.toList_toArray, compiled_functionLines h (fun hne => (hwide hne).2)
      (fun hne => (hnarrow hne).2) hdirectives]
    exact read?_partLines h (fun hne => (hs hne).2) hbraces

/-!
# What stands in front of the body
-/

/-- A blank line, the comment, and the declaration with its parameters divided into groups, of
which only the first may be empty. -/
theorem headItems_eq (p : Patch) :
    ∃ (group : List String) (groups : List (List String)),
      (group :: groups).flatten = p.params ∧ (∀ later ∈ groups, later ≠ []) ∧
        headItems p = ("" :: commentTexts p.doc ++
          declarationLines ("void " ++ p.functionName ++ "(") group groups).map .line := by
  rcases headLines_groups ("void " ++ p.functionName ++ "(") [] p.params with
    ⟨group, groups, hflatten, hnonempty, hlines⟩
  rw [groupLine_nil, List.nil_append] at hlines
  change headLines _ true p.params = _ at hlines
  refine ⟨group, groups, hflatten, hnonempty, ?_⟩
  unfold headItems
  rw [hlines, docComment_eq]
  simp

/-- The lines of a function that is written begin with its head, up to the opening of the
body. -/
theorem write_patchItems_head {p : Patch} (h : Printable p) :
    ∃ (group : List String) (groups : List (List String)) (body : List String),
      (group :: groups).flatten = p.params ∧ (∀ later ∈ groups, later ≠ []) ∧
        Writer.empty.write (patchItems p) = (⟨0, ("" :: commentTexts p.doc ++
          declarationLines ("void " ++ p.functionName ++ "(") group groups ++
            "\x7b" :: body).toArray⟩, none) := by
  rcases h.exists_stubs with ⟨wide, narrow, hwide, hnarrow⟩
  rcases exists_headTexts h.head with ⟨texts, hitems, hhead, _, _⟩
  rcases headItems_eq p with ⟨group, groups, hflatten, hnonempty, heq⟩
  have hinjective : Function.Injective Item.line := fun _ _ hline => Item.line.inj hline
  have htexts : texts = "" :: commentTexts p.doc ++
      declarationLines ("void " ++ p.functionName ++ "(") group groups :=
    hinjective.list_map (hitems.symm.trans heq)
  have hwrite := Writer.write_empty_iff.mpr (lays_patchItems h hwide hnarrow hhead)
  refine ⟨group, groups, hooksLines p wide narrow ++ switchLines p ++
    [Writer.indented 0 "\x7d"], hflatten, hnonempty, ?_⟩
  rw [hwrite, ← htexts]
  unfold functionLines
  rw [Writer.indented_zero "\x7b", List.cons_append]

end Source
end JumpHooks

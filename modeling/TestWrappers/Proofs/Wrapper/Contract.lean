import TestWrappers.Proofs.Text.Lines
import TestWrappers.Proofs.Wrapper.Lines

/-!
# What Is Read Back From a Wrapper

What a reader who knows the form of a wrapper finds in it again.

The package and the constant of the tool stand where they do in every wrapper, since
what is in front of the one and behind the other is fixed. The name of the test case is
found by its quotation marks, and a name with a quotation mark of its own is cut off
there or hides the place. The mark of a test is in the template once. A name that
contains the mark brings it in four times, because the name is put in twice as it is and
twice in the name of the class, where no character of the mark is exchanged.

None of this is spoiled by a name that looks like a part of the template. What stands
next to a name in the template is never what an occurrence across the border would need.

## Main definitions

* `Wrapper.superLine`, `Wrapper.runLine`, `Wrapper.testLine`: Lines to be found again.
* `Wrapper.superMark`, `Wrapper.toolMark`, `Wrapper.testMark`: What they are found by.
* `Wrapper.settled`: What a configuration puts in.

## Theorems

* `Wrapper.filledLine_two`: What a line says.
* `Wrapper.isPart_of_mem_settled`: What a configuration puts in is made of letters,
  digits and underscores.
* `Wrapper.count_testMark_values`: How often the values have the mark of a test.
* `Wrapper.render_readBack`: What is read back from a wrapper.
-/

namespace TestWrappers

open Occurrence

namespace Wrapper

/-- The line of the template that hands the name of the test case over. -/
def superLine : String := "      super(\"$name\", $testGeneratingToolchainEnum);"

/-- The line of the template that marks the test. -/
def testLine : String := "    @Test"

/-- The line of the template that names the constant of the tool. -/
def runLine : String :=
  "      runArtTest(parameters.getRuntime().asDex().getVm(), CompilerUnderTest.$compilerUnderTestEnum);"

/-- What stands in front of the name of the test case. -/
def superMark : List Char := ['s', 'u', 'p', 'e', 'r', '(', '"']

/-- What stands in front of the constant of the tool. -/
def toolMark : List Char :=
  ['C', 'o', 'm', 'p', 'i', 'l', 'e', 'r', 'U', 'n', 'd', 'e', 'r', 'T', 'e', 's', 't', '.']

/-- The mark of a test, up to the end of its line. -/
def testMark : List Char := ['@', 'T', 'e', 's', 't', '\n']

section Lines

variable {pattern cs first behind : List Char} {test : TestCase} {config : Configuration}

theorem keepsApart_ofList (h : (Template.Cut.ofText cs).keepsApart pattern = true) :
    (Template.Cut.ofText (String.ofList cs).toList).keepsApart pattern = true := by
  rw [String.toList_ofList]
  exact h

theorem isEmpty_ofList (h : (Template.Cut.ofText cs).parts.isEmpty = true) :
    (Template.Cut.ofText (String.ofList cs).toList).parts.isEmpty = true := by
  rw [String.toList_ofList]
  exact h

theorem count_ofList {n : Nat} (h : count pattern (cs ++ ['\n']) = n) :
    count pattern ((String.ofList cs).toList ++ ['\n']) = n := by
  rw [String.toList_ofList]
  exact h

/-- What a line without values says. -/
theorem filledLine_zero {line : String}
    (h : (Template.Cut.ofText line.toList).parts.isEmpty = true) :
    filledLine test config line = line.toList := by
  have hwhole := Template.Cut.weave_names line.toList
  rw [List.isEmpty_iff.mp h, List.map_nil] at hwhole
  rw [filledLine, Template.Cut.names, List.isEmpty_iff.mp h, List.map_nil, List.map_nil]
  exact hwhole

/-- What a line with one value says. -/
theorem filledLine_one {name : List Char}
    (h : Template.Cut.ofText cs = ⟨first, [(name, behind)]⟩) :
    filledLine test config (String.ofList cs) =
      (String.ofList first).toList ++
        ((value test config (String.ofList name)).toList ++ (String.ofList behind).toList) := by
  rw [filledLine, String.toList_ofList, h]
  simp only [String.toList_ofList, Template.Cut.weave, Template.Cut.names, List.map_cons,
    List.map_nil, List.zipWith_cons_cons, List.zipWith_nil_right, List.flatten_cons,
    List.flatten_nil, List.append_nil]

/-- What a line with two values says. -/
theorem filledLine_two {name name' between : List Char}
    (h : Template.Cut.ofText cs = ⟨first, [(name, between), (name', behind)]⟩) :
    filledLine test config (String.ofList cs) =
      (String.ofList first).toList ++
        ((value test config (String.ofList name)).toList ++ ((String.ofList between).toList ++
          ((value test config (String.ofList name')).toList ++
            (String.ofList behind).toList))) := by
  rw [filledLine, String.toList_ofList, h]
  simp only [String.toList_ofList, Template.Cut.weave, Template.Cut.names, List.map_cons,
    List.map_nil, List.zipWith_cons_cons, List.zipWith_nil_right, List.flatten_cons,
    List.flatten_nil, List.append_nil, List.append_assoc]

/-- The line that names the package. -/
theorem filledLine_packageLine (test : TestCase) (config : Configuration) :
    filledLine test config packageLine = ("package com.android.tools.r8.art." ++
      config.toolchain.name ++ "." ++ config.tool.name ++ ";").toList := by
  have hline : filledLine test config packageLine = "package com.android.tools.r8.art.".toList ++
      ((value test config "testGeneratingToolchain").toList ++ (".".toList ++
        ((value test config "compilerUnderTest").toList ++ ";".toList))) := by
    unfold packageLine
    exact filledLine_two rfl
  simp only [String.toList_append, List.append_assoc]
  exact hline

theorem filledLine_superLine (test : TestCase) (config : Configuration) :
    filledLine test config superLine = "      super(\"".toList ++
      ((value test config "name").toList ++ ("\", ".toList ++
        ((value test config "testGeneratingToolchainEnum").toList ++ ");".toList))) := by
  unfold superLine
  exact filledLine_two rfl

theorem filledLine_runLine (test : TestCase) (config : Configuration) :
    filledLine test config runLine =
      "      runArtTest(parameters.getRuntime().asDex().getVm(), CompilerUnderTest.".toList ++
        ((value test config "compilerUnderTestEnum").toList ++ ");".toList) := by
  unfold runLine
  exact filledLine_one rfl

/-- The mark of a test keeps apart from all values. -/
theorem keepsApart_testMark :
    ∀ line ∈ lines, (Template.Cut.ofText line.toList).keepsApart testMark = true := by
  unfold lines
  repeat refine List.forall_mem_cons.mpr ⟨keepsApart_ofList rfl, ?_⟩
  exact List.forall_mem_nil _

/-- A quotation mark behind a bracket keeps apart from the values in front of the name
    that is handed over. -/
theorem keepsApart_quote : ∀ line ∈ lines.take 33,
    (Template.Cut.ofText line.toList).keepsApart ['(', '"'] = true := by
  unfold lines
  repeat refine List.forall_mem_cons.mpr ⟨keepsApart_ofList rfl, ?_⟩
  exact List.forall_mem_nil _

theorem count_quote_line : ∀ line ∈ lines.take 33,
    count ['(', '"'] (line.toList ++ ['\n']) = 0 := by
  unfold lines
  repeat refine List.forall_mem_cons.mpr ⟨count_ofList rfl, ?_⟩
  exact List.forall_mem_nil _

theorem count_testMark_front : ∀ line ∈ lines.take 37,
    count testMark (line.toList ++ ['\n']) = 0 := by
  unfold lines
  repeat refine List.forall_mem_cons.mpr ⟨count_ofList rfl, ?_⟩
  exact List.forall_mem_nil _

theorem count_testMark_back : ∀ line ∈ lines.drop 38,
    count testMark (line.toList ++ ['\n']) = 0 := by
  unfold lines
  repeat refine List.forall_mem_cons.mpr ⟨count_ofList rfl, ?_⟩
  exact List.forall_mem_nil _

theorem count_testMark_testLine : count testMark (testLine.toList ++ ['\n']) = 1 := by
  unfold testLine
  exact count_ofList rfl

/-- The mark of a test is in one line of the template. -/
theorem count_testMark_lines :
    count testMark (lines.flatMap fun line => line.toList ++ ['\n']) = 1 := by
  have hlines : lines = lines.take 37 ++ testLine :: lines.drop 38 := rfl
  have hne : testMark ≠ [] := List.cons_ne_nil _ _
  have hbreak : '\n' ∉ testMark.dropLast := by decide
  rw [count_lines hne hbreak, hlines, List.map_append, List.map_cons, List.sum_append,
    List.sum_cons, count_testMark_testLine]
  have hfront : ((lines.take 37).map fun line => count testMark (line.toList ++ ['\n'])).sum = 0 :=
    List.sum_eq_zero_iff_forall_eq_nat.mpr (List.forall_mem_map.mpr count_testMark_front)
  have hback : ((lines.drop 38).map fun line => count testMark (line.toList ++ ['\n'])).sum = 0 :=
    List.sum_eq_zero_iff_forall_eq_nat.mpr (List.forall_mem_map.mpr count_testMark_back)
  rw [hfront, hback]

end Lines

section Values

variable {layout : Layout} {config : Configuration}

/-- What a configuration puts into a wrapper. -/
def settled (config : Configuration) : List String :=
  [config.toolchain.name, config.tool.name, config.toolchain.constant, config.toolConstant]

/-- A property of the toolchain, the tool and its constant is one of all configurations
    if it is one of all pairs. -/
theorem forall_of_pairs {p : Toolchain → Tool → String → Prop}
    (h : ∀ toolchain ∈ Toolchain.all, ∀ tool ∈ Tool.all, ∀ constant ∈ tool.constant? toolchain,
      p toolchain tool constant) (hconfig : config ∈ configurations layout) :
    p config.toolchain config.tool config.toolConstant := by
  rcases List.mem_flatMap.mp hconfig with ⟨toolchain, htoolchain, hmem⟩
  rcases List.mem_filterMap.mp hmem with ⟨tool, htool, hof⟩
  rcases Option.map_eq_some_iff.mp hof with ⟨constant, hconstant, rfl⟩
  exact h toolchain htoolchain tool htool constant hconstant

/-- What a configuration puts in is made of letters, digits and underscores. -/
theorem isPart_of_mem_settled (h : config ∈ configurations layout) :
    ∀ text ∈ settled config, ∀ c ∈ text.toList, Identifier.isPart c = true := by
  have hall : ∀ toolchain ∈ Toolchain.all, ∀ tool ∈ Tool.all, ∀ constant ∈ tool.constant? toolchain,
      ([toolchain.name, tool.name, toolchain.constant, constant].all fun text =>
        text.toList.all Identifier.isPart) = true := by decide
  intro text htext
  exact List.all_eq_true.mp (List.all_eq_true.mp (forall_of_pairs hall h) text htext)

/-- The mark in front of the constant of the tool is not there again behind its own
    beginning. -/
theorem toolMark_notInfix (h : config ∈ configurations layout) : ¬ toolMark <:+:
    toolMark.tail ++ (config.toolConstant ++ ");\n    \x7d\n\x7d\n").toList := by
  have hall : ∀ toolchain ∈ Toolchain.all, ∀ tool ∈ Tool.all, ∀ constant ∈ tool.constant? toolchain,
      ¬ toolMark <:+: toolMark.tail ++ (constant ++ ");\n    \x7d\n\x7d\n").toList := by decide
  exact forall_of_pairs hall h

/-- A value is one of the configuration's, or the name of the test case, or that of its
    class. -/
theorem value_cases (test : TestCase) (config : Configuration) (name : String) :
    value test config name ∈ settled config ∨ value test config name = test.name ∨
      value test config name = test.className ∨ value test config name = "" := by
  unfold value bindings settled
  split <;> simp

/-- Quotation marks come from the name of the test case. -/
theorem quote_notMem_value (h : config ∈ configurations layout) {test : TestCase}
    (hname : '"' ∉ test.name.toList) (name : String) :
    '"' ∉ (value test config name).toList := by
  rcases value_cases test config name with hsettled | heq | heq | heq
  · intro hmem
    exact absurd (isPart_of_mem_settled h _ hsettled _ hmem) (by decide)
  · rw [heq]
    exact hname
  · rw [heq, TestCase.toList_className]
    intro hmem
    simp only [List.mem_append, List.mem_map] at hmem
    rcases hmem with (hart | ⟨c, hc, heq⟩) | htest
    · exact absurd hart (by decide)
    · -- No other character becomes a quotation mark.
      unfold TestCase.classChar at heq
      split at heq
      · exact absurd heq (by decide)
      · exact hname (heq ▸ hc)
    · exact absurd htest (by decide)
  · rw [heq]
    exact List.not_mem_nil

/-- The name of the class has the mark of a test where the name of the test case has it. -/
theorem count_testMark_className (test : TestCase) :
    count testMark test.className.toList = count testMark test.name.toList := by
  have hne : testMark ≠ [] := List.cons_ne_nil _ _
  have hkept : ∀ d ∈ testMark, ∀ c, TestCase.classChar c = d ↔ c = d := by
    intro d hd c
    have hhyphen : d ≠ '-' := by
      rintro rfl
      exact absurd hd (by decide)
    have hunderscore : d ≠ '_' := by
      rintro rfl
      exact absurd hd (by decide)
    unfold TestCase.classChar
    split
    · rename_i hc
      rw [hc]
      exact ⟨fun heq => absurd heq.symm hunderscore, fun heq => absurd heq.symm hhyphen⟩
    · exact Iff.rfl
  have hart : count testMark "Art".toList = 0 := by decide
  have htest : count testMark "Test".toList = 0 := by decide
  -- In front of the name there is no beginning of a mark, and behind it no end of one.
  rw [TestCase.toList_className,
    count_append hne (apart_of_end (c := '\n') rfl (by decide)),
    count_append hne (apart_of_first (c := '@') rfl (by decide)), count_map hkept, hart, htest,
    Nat.zero_add, Nat.add_zero]

/-- How often the values that are put in have the mark of a test. -/
theorem count_testMark_values (h : config ∈ configurations layout) (test : TestCase) :
    ((lines.flatMap fun line => (Template.Cut.ofText line.toList).names).map fun name =>
      count testMark (value test config name).toList).sum =
        4 * count testMark test.name.toList := by
  have hsettled : ∀ text ∈ settled config, count testMark text.toList = 0 := by
    intro text htext
    refine count_eq_zero_of_notMem (c := '@') (by decide) fun hmem => ?_
    exact absurd (isPart_of_mem_settled h text htext _ hmem) (by decide)
  unfold settled at hsettled
  simp only [List.forall_mem_cons] at hsettled
  rcases hsettled with ⟨htoolchain, htool, hconstant, hrun, _⟩
  have hnames := names_source
  rw [toList_source, Template.Cut.names_lines] at hnames
  rw [hnames]
  simp only [List.map_cons, List.map_nil, List.sum_cons, List.sum_nil]
  change count testMark config.toolchain.name.toList + (count testMark config.tool.name.toList +
    (count testMark config.toolchain.constant.toList + (count testMark test.name.toList +
    (count testMark config.toolchain.name.toList + (count testMark test.className.toList +
    (count testMark test.className.toList + (count testMark test.name.toList +
    (count testMark config.toolchain.constant.toList +
      (count testMark config.toolConstant.toList + 0))))))))) = _
  rw [htoolchain, htool, hconstant, hrun, count_testMark_className]
  omega

end Values

section ReadBack

variable {layout : Layout} {config : Configuration}

theorem isEmpty_front : ∀ line ∈ lines.take 3,
    (Template.Cut.ofText line.toList).parts.isEmpty = true := by
  unfold lines
  repeat refine List.forall_mem_cons.mpr ⟨isEmpty_ofList rfl, ?_⟩
  exact List.forall_mem_nil _

theorem isEmpty_back : ∀ line ∈ lines.drop 40,
    (Template.Cut.ofText line.toList).parts.isEmpty = true := by
  unfold lines
  repeat refine List.forall_mem_cons.mpr ⟨isEmpty_ofList rfl, ?_⟩
  exact List.forall_mem_nil _

/-- Up to the end of the package a wrapper has the lines of the template. -/
theorem newline_notMem_front (h : config ∈ configurations layout) (test : TestCase) :
    ∀ line ∈ lines.take 4, '\n' ∉ filledLine test config line := by
  have hfixed : ∀ line ∈ lines.take 3, '\n' ∉ line.toList := by decide
  have hbreak : Identifier.isPart '\n' = false := by decide
  have hsettled : ∀ text ∈ settled config, '\n' ∉ text.toList := fun text htext hmem =>
    absurd ((isPart_of_mem_settled h text htext _ hmem).symm.trans hbreak) nofun
  have hlines : lines.take 4 = lines.take 3 ++ [packageLine] := rfl
  rw [hlines]
  intro line hline
  rcases List.mem_append.mp hline with hfront | hlast
  · rw [filledLine_zero (isEmpty_front line hfront)]
    exact hfixed line hfront
  · rw [List.mem_singleton.mp hlast, filledLine_packageLine]
    simp only [String.toList_append, List.mem_append, not_or]
    exact ⟨⟨⟨⟨by decide, hsettled _ List.mem_cons_self⟩, by decide⟩,
      hsettled _ (List.mem_cons_of_mem _ List.mem_cons_self)⟩, by decide⟩

/-- The package is named in the fourth line. -/
theorem fourth_line (h : config ∈ configurations layout) (test : TestCase) :
    (Position.lines (lines.flatMap fun line => filledLine test config line ++ ['\n']))[3]? =
      some ("package com.android.tools.r8.art." ++ config.toolchain.name ++ "." ++
        config.tool.name ++ ";").toList := by
  have hlines : lines = lines.take 4 ++ lines.drop 4 := rfl
  have hfourth : (lines.take 4)[3]? = some packageLine := rfl
  rw [hlines, List.flatMap_append, Position.lines_flatMap (newline_notMem_front h test),
    List.getElem?_append_left (Nat.lt_of_lt_of_eq (by decide) (List.length_map _).symm),
    List.getElem?_map, hfourth, Option.map_some, filledLine_packageLine]

/-- Behind the last mark of a tool stand the constant of the tool and the end of the
    template. -/
theorem last_tool (h : config ∈ configurations layout) (test : TestCase) :
    (behind toolMark (lines.flatMap fun line => filledLine test config line ++ ['\n'])).getLast? =
      some (config.toolConstant ++ ");\n    \x7d\n\x7d\n").toList := by
  have hlines : lines = lines.take 39 ++ runLine :: lines.drop 40 := rfl
  have hback : ((lines.drop 40).flatMap fun line => filledLine test config line ++ ['\n']) =
      "    \x7d\n\x7d\n".toList := by
    rw [List.flatMap_congr fun line hline =>
      congrArg (· ++ ['\n']) (filledLine_zero (isEmpty_back line hline))]
    decide
  have hmark :
      "      runArtTest(parameters.getRuntime().asDex().getVm(), CompilerUnderTest.".toList =
        "      runArtTest(parameters.getRuntime().asDex().getVm(), ".toList ++ toolMark := by decide
  have hwhole : (lines.flatMap fun line => filledLine test config line ++ ['\n']) =
      (((lines.take 39).flatMap fun line => filledLine test config line ++ ['\n']) ++
        "      runArtTest(parameters.getRuntime().asDex().getVm(), ".toList) ++
          (toolMark ++ (config.toolConstant ++ ");\n    \x7d\n\x7d\n").toList) := by
    have hend : ");\n    \x7d\n\x7d\n".toList =
        ");".toList ++ ['\n'] ++ "    \x7d\n\x7d\n".toList := by decide
    have hconstant : value test config "compilerUnderTestEnum" = config.toolConstant := rfl
    rw [String.toList_append, hend]
    nth_rewrite 1 [hlines]
    rw [List.flatMap_append, List.flatMap_cons, hback, filledLine_runLine, hmark, hconstant]
    simp only [List.append_assoc]
  rw [hwhole]
  exact getLast?_behind (List.cons_ne_nil _ _) (toolMark_notInfix h) _

/-- No bracket is followed by a quotation mark in front of the name that is handed over. -/
theorem count_quote_front (h : config ∈ configurations layout) {test : TestCase}
    (hname : '"' ∉ test.name.toList) :
    count ['(', '"'] ((lines.take 33).flatMap fun line => filledLine test config line ++ ['\n']) =
      0 := by
  have hne : ['(', '"'] ≠ [] := List.cons_ne_nil _ _
  have hbreak : '\n' ∉ (['(', '"'] : List Char).dropLast := by decide
  have hvalues : (((lines.take 33).flatMap fun line =>
      (Template.Cut.ofText line.toList).names).map fun name =>
        count ['(', '"'] (value test config name).toList).sum = 0 :=
    List.sum_eq_zero_iff_forall_eq_nat.mpr <| List.forall_mem_map.mpr fun name _ =>
      count_eq_zero_of_notMem (c := '"') (by decide) (quote_notMem_value h hname name)
  rw [count_filledLines hne hbreak ⟨'(', by decide⟩ (fun _ => List.mem_of_mem_take)
    keepsApart_quote, hvalues, count_lines hne hbreak, Nat.add_zero]
  exact List.sum_eq_zero_iff_forall_eq_nat.mpr (List.forall_mem_map.mpr count_quote_line)

/-- The name that is handed over stands between quotation marks, which it is found by if it
    has none of its own. -/
theorem first_super (h : config ∈ configurations layout) (test : TestCase) :
    ∃ rest, (behind superMark
        (lines.flatMap fun line => filledLine test config line ++ ['\n'])).head? = some rest ∧
      '"' ∈ rest ∧
      (rest.takeWhile (· != '"') = test.name.toList ↔ '"' ∉ test.name.toList) := by
  have hne : superMark ≠ [] := List.cons_ne_nil _ _
  have hlines : lines = lines.take 33 ++ superLine :: lines.drop 34 := rfl
  have hmark : "      super(\"".toList = "      ".toList ++ superMark := by decide
  have hquote : "\", ".toList = '"' :: ", ".toList := by decide
  have hwhole : ∃ rest, (lines.flatMap fun line => filledLine test config line ++ ['\n']) =
      (((lines.take 33).flatMap fun line => filledLine test config line ++ ['\n']) ++
        "      ".toList) ++ (superMark ++ (test.name.toList ++ '"' :: rest)) := by
    have hname : value test config "name" = test.name := rfl
    nth_rewrite 1 [hlines]
    rw [List.flatMap_append, List.flatMap_cons, filledLine_superLine, hmark, hquote, hname]
    simp only [List.append_assoc, List.cons_append]
    exact ⟨_, rfl⟩
  rcases hwhole with ⟨rest, hwhole⟩
  have hmem : test.name.toList ++ '"' :: rest ∈ behind superMark
      (lines.flatMap fun line => filledLine test config line ++ ['\n']) :=
    mem_behind_iff.mpr ⟨_, hwhole.symm⟩
  cases hfirst : (behind superMark
      (lines.flatMap fun line => filledLine test config line ++ ['\n'])).head? with
  | none => exact absurd hmem (List.head?_eq_none_iff.mp hfirst ▸ List.not_mem_nil)
  | some first =>
    refine ⟨first, rfl, ?_, fun heq hin => ?_, fun hname => ?_⟩
    · exact (suffix_of_head?_behind hne hfirst hmem).subset
        (List.mem_append_right _ List.mem_cons_self)
    · have hall := List.all_eq_true.mp (List.all_takeWhile (p := (· != '"')) (l := first)) '"'
        (heq ▸ hin)
      exact absurd hall (by decide)
    · -- An occurrence further in front would end with a bracket and a quotation mark.
      have hfront : ¬ superMark <:+: ((lines.take 33).flatMap fun line =>
          filledLine test config line ++ ['\n']) ++ "      ".toList ++ superMark.dropLast := by
        intro hin
        have hshort : ['(', '"'] <:+: superMark := by decide
        have hhead : ∀ c ∈ ("      ".toList ++ superMark.dropLast).head?, c ∉ ['"'] := by
          intro c hc
          rw [← Option.some.inj hc]
          decide
        have hcount : count ['(', '"'] (((lines.take 33).flatMap fun line =>
            filledLine test config line ++ ['\n']) ++
              ("      ".toList ++ superMark.dropLast)) = 0 := by
          rw [count_append (List.cons_ne_nil _ _) (apart_of_head hhead),
            count_quote_front h hname]
          decide
        rw [List.append_assoc] at hin
        exact count_eq_zero_iff.mp hcount (hshort.trans hin)
      rw [hwhole, head?_behind hne hfront, Option.some.injEq] at hfirst
      have hall : ∀ c ∈ test.name.toList, (c != '"') = true := fun c hc =>
        bne_iff_ne.mpr fun heq => hname (heq ▸ hc)
      rw [← hfirst, List.takeWhile_append_of_pos hall, List.takeWhile_cons_of_neg (by decide),
        List.append_nil]

/-- The mark of a test is in a wrapper once, and four times for each time that it is in the
    name of the test case. -/
theorem count_testMark_wrapper (h : config ∈ configurations layout) (test : TestCase) :
    count testMark (lines.flatMap fun line => filledLine test config line ++ ['\n']) =
      1 + 4 * count testMark test.name.toList := by
  have hne : testMark ≠ [] := List.cons_ne_nil _ _
  rw [count_filledLines hne (by decide) ⟨'@', by decide⟩ (fun _ => id) keepsApart_testMark,
    count_testMark_lines, count_testMark_values h]

end ReadBack

/-- What is read back from a wrapper, whatever the name of the test case is. The fourth
    line names the package. Behind the last mark of a tool stand the constant and the end
    of the call. The text between the first mark of the call that hands the name over and
    the next quotation mark is the name exactly if the name has no quotation mark. And the
    mark of a test is there once, and four times more for each time the name has it. -/
theorem render_readBack (name : String) {layout : Layout} {config : Configuration}
    (h : config ∈ configurations layout) :
    ∃ text, render ⟨name⟩ config = .ok text ∧
      (Position.lines text.toList)[3]? = some ("package com.android.tools.r8.art." ++
        config.toolchain.name ++ "." ++ config.tool.name ++ ";").toList ∧
      (behind "CompilerUnderTest.".toList text.toList).getLast? =
        some (config.toolConstant ++ ");\n    \x7d\n\x7d\n").toList ∧
      (∃ rest, (behind "super(\"".toList text.toList).head? = some rest ∧ '"' ∈ rest ∧
        (rest.takeWhile (· != '"') = name.toList ↔ '"' ∉ name.toList)) ∧
      count "@Test\n".toList text.toList = 1 + 4 * count "@Test\n".toList name.toList ∧
      (count "@Test\n".toList text.toList = 1 ↔ ¬ "@Test\n".toList <:+: name.toList) := by
  have htool : "CompilerUnderTest.".toList = toolMark := by decide
  have hsuper : "super(\"".toList = superMark := by decide
  have htest : "@Test\n".toList = testMark := by decide
  have hcount : _ = 1 + 4 * count testMark name.toList := count_testMark_wrapper h ⟨name⟩
  refine ⟨_, render_eq_lines ⟨name⟩ config, ?_⟩
  rw [String.toList_ofList, htool, hsuper, htest, ← count_eq_zero_iff]
  exact ⟨fourth_line h ⟨name⟩, last_tool h ⟨name⟩, first_super h ⟨name⟩, hcount, by omega⟩

/-- A name with a quotation mark and the mark of a test, under the second tool on uncompiled
    test cases. -/
theorem render_readBack_sample : ∃ config ∈ configurations (.rooted (.ofString ".")),
    ∃ text, render ⟨"a\"@Test\n"⟩ config = .ok text ∧
      (Position.lines text.toList)[3]? =
        some "package com.android.tools.r8.art.none.d8;".toList ∧
      (behind "CompilerUnderTest.".toList text.toList).getLast? =
        some "R8_AFTER_D8);\n    \x7d\n\x7d\n".toList ∧
      (∃ rest, (behind "super(\"".toList text.toList).head? = some rest ∧
        rest.takeWhile (· != '"') ≠ "a\"@Test\n".toList) ∧
      count "@Test\n".toList text.toList = 5 := by
  have hmem : ∀ layout, ∃ config ∈ configurations layout, config.toolchain.name = "none" ∧
      config.tool.name = "d8" ∧ config.toolConstant = "R8_AFTER_D8" := fun layout =>
    ⟨_, List.mem_of_getElem? (i := 3) rfl, rfl, rfl, rfl⟩
  rcases hmem (.rooted (.ofString ".")) with ⟨config, hconfig, htoolchain, htool, hconstant⟩
  rcases render_readBack "a\"@Test\n" hconfig with
    ⟨text, htext, hfourth, hlast, ⟨rest, hfirst, _, hname⟩, hcount, _⟩
  rw [htoolchain, htool] at hfourth
  rw [hconstant] at hlast
  have honce : count "@Test\n".toList "a\"@Test\n".toList = 1 := by decide
  rw [honce] at hcount
  exact ⟨config, hconfig, text, htext, hfourth, hlast,
    ⟨rest, hfirst, fun heq => hname.mp heq (by decide)⟩, hcount⟩

end Wrapper

end TestWrappers

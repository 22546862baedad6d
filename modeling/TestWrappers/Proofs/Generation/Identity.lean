import TestWrappers.Proofs.Generation.Exact
import TestWrappers.Proofs.Template.Composing
import TestWrappers.Proofs.Wrapper.Rendering

/-!
# What a Wrapper Is Known By

A wrapper says which test case and which configuration it is for.

The configuration is read off at the front. The lines in front of the one that names
the package have no dollar sign, so they are the same in all wrappers, and the package
ends in the names of the toolchain and of the tool, each up to a character that is in
no such name.

The name of the test case is not read off so easily: it may contain whatever the text
around it contains, and in the name of the class it is not even written as it is. But
it is put in four times, and each time one character of it takes one character. So
wrappers of the same length are for names of the same length, and then all that was put
in stands at the same places.

Test cases with one file therefore have different wrappers. What the file holds behind
a run is the wrapper of one of them, and those of the others are lost.

## Main definitions

* `Wrapper.packageLine`: The line that names the package.

## Theorems

* `Template.substitute_lines_append`: Lines without dollar signs stand for themselves.
* `Wrapper.exists_header`: How a wrapper begins.
* `Wrapper.configuration_eq_of_render_eq`: Wrappers of different configurations differ.
* `Wrapper.test_eq_of_render_eq`: Wrappers of different test cases differ.
* `Generation.render_identifies`: A wrapper determines its test case, its toolchain and
  its tool.
-/

namespace TestWrappers

namespace Template

variable {values : Bindings}

/-- A text without dollar signs stands for itself. -/
theorem substitute_of_dollar_notMem {text : String} (h : '$' ∉ text.toList) (values : Bindings) :
    substitute text values = .ok text := by
  have hfilled := @substitute_of_written values [.literal text.toList] text (text.toList ++ [])
    trivial (by rw [List.flatMap_singleton, Cut.written_of_dollar_notMem h]) rfl
  rwa [List.append_nil, String.ofList_toList] at hfilled

/-- The names of a text and what stands behind them, where its characters are known. -/
theorem Cut.of_ofList {cs : List Char} {names : List String} {behind : List (List Char)}
    (hnames : (ofText cs).names = names) (hbehind : (ofText cs).parts.map Prod.snd = behind) :
    (ofText (String.ofList cs).toList).names = names ∧
      (ofText (String.ofList cs).toList).parts.map Prod.snd = behind := by
  rw [String.toList_ofList]
  exact ⟨hnames, hbehind⟩

/-- The first of several lines is filled in by itself. -/
theorem substitute_lines_cons (line : String) (lines : List String) (values : Bindings)
    (out : String) :
    substitute (String.ofList ((line :: lines).flatMap fun line => line.toList ++ ['\n'])) values =
        .ok out ↔
      ∃ first second, substitute line values = .ok first ∧
        substitute (String.ofList (lines.flatMap fun line => line.toList ++ ['\n'])) values =
          .ok second ∧ out = first ++ "\n" ++ second := by
  rw [← substitute_newline_eq_ok_iff, List.flatMap_cons, String.ofList_append,
    String.ofList_append, String.ofList_toList]

/-- Lines without dollar signs in front of others stand for themselves. -/
theorem substitute_lines_append {front lines : List String} {out : String}
    (hfront : ∀ line ∈ front, '$' ∉ line.toList)
    (h : substitute (String.ofList ((front ++ lines).flatMap fun line => line.toList ++ ['\n']))
      values = .ok out) :
    ∃ second, substitute (String.ofList (lines.flatMap fun line => line.toList ++ ['\n'])) values =
        .ok second ∧
      out.toList = (front.flatMap fun line => line.toList ++ ['\n']) ++ second.toList := by
  induction front generalizing out with
  | nil => exact ⟨out, h, rfl⟩
  | cons line front ih =>
    rcases List.forall_mem_cons.mp hfront with ⟨hline, hfront⟩
    rcases (substitute_lines_cons _ _ _ _).mp h with ⟨first, behind, hfirst, hbehind, rfl⟩
    rw [substitute_of_dollar_notMem hline values, Except.ok.injEq] at hfirst
    rcases ih hfront hbehind with ⟨second, hsecond, hout⟩
    refine ⟨second, hsecond, ?_⟩
    rw [String.toList_append, String.toList_append, hout, ← hfirst, List.flatMap_cons]
    simp only [List.append_assoc]
    rfl

end Template

/-- The constant of a configuration is that of its tool under its toolchain. -/
theorem Configuration.constant?_of_mem {layout : Layout} {config : Configuration}
    (h : config ∈ configurations layout) :
    config.tool.constant? config.toolchain = some config.toolConstant := by
  rcases List.mem_flatMap.mp h with ⟨toolchain, _, hconfig⟩
  rcases List.mem_filterMap.mp hconfig with ⟨tool, _, hof⟩
  rcases Option.map_eq_some_iff.mp hof with ⟨constant, hconstant, rfl⟩
  exact hconstant

/-- What stands in front of the first of some character can be read off. -/
theorem eq_of_append_cons_eq {c : Char} {front front' rest rest' : List Char}
    (h : front ++ c :: rest = front' ++ c :: rest') (hfront : c ∉ front) (hfront' : c ∉ front') :
    front = front' ∧ rest = rest' := by
  rcases Placeholder.exists_append_of_notMem h hfront' with ⟨middle, rfl, hrest⟩
  cases middle with
  | nil => exact ⟨List.append_nil _, (List.cons.inj hrest).2.symm⟩
  | cons d middle =>
    rw [(List.cons.inj hrest).1] at hfront
    exact absurd (List.mem_append_right _ List.mem_cons_self) hfront

namespace Wrapper

/-- The line of the template that names the package. -/
def packageLine : String :=
  "package com.android.tools.r8.art.$testGeneratingToolchain.$compilerUnderTest;"

/-- The line is cut at two names, and each of them ends at a character of its own. -/
theorem cut_packageLine :
    (Template.Cut.ofText packageLine.toList).names =
        ["testGeneratingToolchain", "compilerUnderTest"] ∧
      (Template.Cut.ofText packageLine.toList).parts.map Prod.snd = [['.'], [';']] := by
  unfold packageLine
  exact Template.Cut.of_ofList rfl rfl

theorem substitute_packageLine (test : TestCase) (config : Configuration) :
    Template.substitute packageLine (bindings test config) =
      .ok (String.ofList ((Template.Cut.ofText packageLine.toList).first ++
        (config.toolchain.name.toList ++ '.' :: (config.tool.name.toList ++ [';'])))) := by
  have hnames : ∀ part ∈ (Template.Cut.ofText packageLine.toList).parts,
      Identifier.IsName part.1 := by
    have honly := namesOnly_lines packageLine (List.mem_of_getElem? (i := 3) rfl)
    exact fun part hpart =>
      isName_of_mem_names part.1 (Template.mem_of_namesOnly honly part hpart)
  have hvalues : (Template.Cut.ofText packageLine.toList).names.map (bindings test config) =
      [config.toolchain.name, config.tool.name].map some := by
    rw [cut_packageLine.1]
    rfl
  have hweave : ∀ texts, (Template.Cut.ofText packageLine.toList).weave texts =
      (Template.Cut.ofText packageLine.toList).first ++
        (List.zipWith (· ++ ·) texts [['.'], [';']]).flatten := by
    intro texts
    rw [← cut_packageLine.2, List.zipWith_map_right]
    rfl
  rw [Template.Cut.substitute_eq hnames hvalues, hweave]
  simp only [List.map_cons, List.map_nil, List.zipWith_cons_cons, List.zipWith_nil_right,
    List.flatten_cons, List.flatten_nil, List.append_assoc, List.singleton_append,
    List.append_nil]

/-- No line in front of the one that names the package has a dollar sign. -/
theorem dollar_notMem_take_lines : ∀ line ∈ lines.take 3, '$' ∉ line.toList := by
  have hchars : ∀ {cs : List Char}, cs.contains '$' = false → '$' ∉ (String.ofList cs).toList := by
    intro cs hcs
    rw [String.toList_ofList]
    exact fun hmem => Bool.eq_false_iff.mp hcs (List.contains_iff_mem.mpr hmem)
  unfold lines
  repeat refine List.forall_mem_cons.mpr ⟨hchars rfl, ?_⟩
  exact List.forall_mem_nil _

/-- All wrappers begin with the same text, and then with the names of the toolchain and
    of the tool. -/
theorem exists_header : ∃ header : List Char, ∀ test config, ∃ text rest,
    render test config = .ok text ∧ text.toList = header ++
      (config.toolchain.name.toList ++ '.' :: (config.tool.name.toList ++ ';' :: rest)) := by
  have hlines : lines = lines.take 3 ++ packageLine :: lines.drop 4 := rfl
  refine ⟨((lines.take 3).flatMap fun line => line.toList ++ ['\n']) ++
    (Template.Cut.ofText packageLine.toList).first, fun test config => ?_⟩
  rcases exists_render_eq_ok test config with ⟨text, htext⟩
  have hrender := htext
  rw [render, source, hlines] at hrender
  rcases Template.substitute_lines_append dollar_notMem_take_lines hrender with
    ⟨behind, hbehind, hout⟩
  rcases (Template.substitute_lines_cons _ _ _ _).mp hbehind with ⟨first, rest, hfirst, _, rfl⟩
  rw [substitute_packageLine, Except.ok.injEq] at hfirst
  refine ⟨text, '\n' :: rest.toList, htext, ?_⟩
  rw [hout, ← hfirst, String.toList_append, String.toList_append, String.toList_ofList]
  simp only [List.append_assoc, List.cons_append]
  rfl

/-- A wrapper determines the names of the toolchain and of the tool. -/
theorem configuration_eq_of_render_eq {layout layout' : Layout} {config config' : Configuration}
    {test test' : TestCase} (hconfig : config ∈ configurations layout)
    (hconfig' : config' ∈ configurations layout')
    (h : render test config = render test' config') :
    config.toolchain = config'.toolchain ∧ config.tool = config'.tool := by
  rcases exists_header with ⟨header, hheader⟩
  rcases hheader test config with ⟨text, rest, htext, hchars⟩
  rcases hheader test' config' with ⟨text', rest', htext', hchars'⟩
  rw [htext, htext', Except.ok.injEq] at h
  rw [h, hchars', List.append_cancel_left_eq] at hchars
  -- Neither name has the character that ends it.
  have hdot : ∀ toolchain : Toolchain, toolchain = .dx ∨ toolchain = .none →
      '.' ∉ toolchain.name.toList := by
    rintro toolchain (rfl | rfl) <;> decide
  have hcolon : ∀ tool : Tool, ';' ∉ tool.name.toList := by
    rintro (_ | _ | _) <;> decide
  have htoolchain := Configuration.toolchain_of_mem hconfig
  have htoolchain' := Configuration.toolchain_of_mem hconfig'
  rcases eq_of_append_cons_eq hchars (hdot _ htoolchain') (hdot _ htoolchain) with
    ⟨hname, hbehind⟩
  have htool := (eq_of_append_cons_eq hbehind (hcolon _) (hcolon _)).1
  rw [String.toList_inj] at hname htool
  constructor
  · rcases htoolchain with heq | heq
    · rcases htoolchain' with heq' | heq'
      · rw [heq, heq']
      · rw [heq, heq'] at hname
        exact absurd hname (by decide)
    · rcases htoolchain' with heq' | heq'
      · rw [heq, heq'] at hname
        exact absurd hname (by decide)
      · rw [heq, heq']
  · have hread := congrArg Tool.ofName? htool
    rw [Tool.ofName?_name, Tool.ofName?_name] at hread
    exact (Option.some.inj hread).symm

theorem length_className (test : TestCase) :
    test.className.toList.length = test.name.toList.length + 7 := by
  rw [TestCase.toList_className, List.length_append, List.length_append, List.length_map]
  have hart : "Art".toList.length = 3 := rfl
  have htest : "Test".toList.length = 4 := rfl
  omega

/-- Wrappers of one configuration with the same text are for the same test case. -/
theorem test_eq_of_render_eq {test test' : TestCase} {config : Configuration}
    (h : render test config = render test' config) : test = test' := by
  rw [render_eq, render_eq, Except.ok.injEq, String.ofList_inj] at h
  have hplaces : ∀ test, ((inserted test config).map String.toList).length =
      (Template.Cut.ofText source.toList).parts.length := by
    intro test
    rw [List.length_map, length_inserted]
  -- The name takes four places, so the whole says how long it is.
  have htotal := congrArg List.length h
  rw [Template.Cut.length_weave _ (hplaces test), Template.Cut.length_weave _ (hplaces test')]
    at htotal
  have hlength : test.name.toList.length = test'.name.toList.length := by
    simp only [inserted, List.map_cons, List.flatten_cons, List.length_append,
      length_className] at htotal
    omega
  have hlengths : ((inserted test config).map String.toList).map List.length =
      ((inserted test' config).map String.toList).map List.length := by
    simp only [inserted, List.map_cons, List.map_nil, length_className, hlength]
  have hinserted := Template.Cut.weave_inj _ (hplaces test) hlengths h
  simp only [inserted, List.map_cons, List.cons.injEq, String.toList_inj] at hinserted
  rw [TestCase.mk.injEq]
  exact hinserted.2.2.2.1

end Wrapper

namespace Generation

/-- Of the test cases with a file, one has its wrapper in a directory that holds their
    wrappers. -/
theorem Holds.exists_survivor {config : Configuration} {tests : List String} {here : Location}
    {files : FileSystem} (h : Holds config tests here files) {test : String} (hmem : test ∈ tests) :
    ∃ (file : Name) (survivor kept : String),
      file.bytes = Utf8.encode (TestCase.fileName ⟨test⟩) ∧ survivor ∈ tests ∧
      TestCase.fileName ⟨survivor⟩ = TestCase.fileName ⟨test⟩ ∧
      Wrapper.render ⟨survivor⟩ config = .ok kept ∧
      files.tree.get? (file :: here) = some (.file (Utf8.encode kept)) := by
  rcases h.filled test hmem with ⟨file, _, hfile, _⟩
  have hsome := (h.isSome_iff file).mpr ⟨test, hmem, hfile.symm⟩
  rcases Option.isSome_iff_exists.mp hsome with ⟨entry, hentry⟩
  rcases (h.entries file entry).mp hentry with ⟨survivor, kept, hlast, hkept, rfl⟩
  rcases (lastNamed_eq_some_iff _ _ _).mp hlast with ⟨earlier, later, rfl, hsame, _⟩
  exact ⟨file, survivor, kept, hfile, List.mem_append_right _ List.mem_cons_self,
    Utf8.encode_inj (hsame.trans hfile), hkept, hentry⟩

/-- A wrapper determines its test case, its toolchain and its tool, whatever the layouts
    are.

    So what is written for different test cases of a configuration is different. Where
    test cases share a file, one of them has its wrapper in it behind a run, and what was
    written for the others is something else. -/
theorem render_identifies :
    (∀ test test' layout layout' config config', config ∈ configurations layout →
      config' ∈ configurations layout' → Wrapper.render test config = Wrapper.render test' config' →
      test = test' ∧ config.toolchain = config'.toolchain ∧ config.tool = config'.tool) ∧
    (∀ config test test' text text', test ≠ test' → Wrapper.render test config = .ok text →
      Wrapper.render test' config = .ok text' → Utf8.encode text ≠ Utf8.encode text') ∧
    ∀ layout config world count after, config ∈ configurations layout →
      Path.Component.up ∉ layout.outputDir.components →
      world.files.tree.Unlinked (place config world.files).tail →
      (generateConfiguration config : Run Nat) world = (.ok count, after) →
      ∃ tests, testCases world.files config.sourceDir = .ok tests ∧ ∀ test ∈ tests,
        ∃ (file : Name) (survivor kept text : String),
          file.bytes = Utf8.encode (TestCase.fileName ⟨test⟩) ∧ survivor ∈ tests ∧
          TestCase.fileName ⟨survivor⟩ = TestCase.fileName ⟨test⟩ ∧
          Wrapper.render ⟨survivor⟩ config = .ok kept ∧ Wrapper.render ⟨test⟩ config = .ok text ∧
          after.files.tree.get? (file :: place config world.files) =
            some (.file (Utf8.encode kept)) ∧
          (Utf8.encode kept = Utf8.encode text ↔ survivor = test) := by
  refine ⟨fun test test' layout layout' config config' hconfig hconfig' h => ?_,
    fun config test test' text text' hne htext htext' heq => ?_,
    fun layout config world count after hconfig hup hlinks h => ?_⟩
  · rcases Wrapper.configuration_eq_of_render_eq hconfig hconfig' h with ⟨htoolchain, htool⟩
    have hconstant := Configuration.constant?_of_mem hconfig
    rw [htoolchain, htool, Configuration.constant?_of_mem hconfig', Option.some.injEq] at hconstant
    rw [← Wrapper.render_congr test' htoolchain htool hconstant.symm] at h
    exact ⟨Wrapper.test_eq_of_render_eq h, htoolchain, htool⟩
  · rw [Utf8.encode_inj heq, ← htext'] at htext
    exact hne (Wrapper.test_eq_of_render_eq htext)
  · rcases holds_of_generateConfiguration hconfig hup hlinks h with ⟨tests, htests, _, hholds, _, _⟩
    refine ⟨tests, htests, fun test hmem => ?_⟩
    rcases hholds.exists_survivor hmem with
      ⟨file, survivor, kept, hfile, hsurvivor, hsame, hkept, hentry⟩
    rcases Wrapper.exists_render_eq_ok ⟨test⟩ config with ⟨text, htext⟩
    refine ⟨file, survivor, kept, text, hfile, hsurvivor, hsame, hkept, htext, hentry, ?_⟩
    constructor
    · intro heq
      rw [Utf8.encode_inj heq, ← htext] at hkept
      exact congrArg TestCase.name (Wrapper.test_eq_of_render_eq hkept)
    · rintro rfl
      rw [Except.ok.inj (hkept.symm.trans htext)]

/-- Two test cases with one file, in two layouts and behind a run in one of them. -/
theorem render_identifies_sample :
    ∃ config ∈ configurations sampleLayout, ∃ config' ∈ configurations (.rooted (.ofString "r")),
      Wrapper.render ⟨"a-b"⟩ config = Wrapper.render ⟨"a-b"⟩ config' ∧
      config.toolchain = config'.toolchain ∧ config.tool = config'.tool ∧
      (∃ text text', Wrapper.render ⟨"a-b"⟩ config = .ok text ∧
        Wrapper.render ⟨"a_b"⟩ config = .ok text' ∧ Utf8.encode text ≠ Utf8.encode text') ∧
      ∃ count after,
        (generateConfiguration config : Run Nat) ⟨sampleFiles, []⟩ = (.ok count, after) ∧
        ∃ (file : Name) (survivor kept text : String),
          file.bytes = Utf8.encode "Arta_bTest.java" ∧ survivor ∈ ["a-b", "a_b"] ∧
          Wrapper.render ⟨survivor⟩ config = .ok kept ∧ Wrapper.render ⟨"a-b"⟩ config = .ok text ∧
          after.files.tree.get? (file :: place config sampleFiles) =
            some (.file (Utf8.encode kept)) ∧
          (Utf8.encode kept = Utf8.encode text ↔ survivor = "a-b") := by
  rcases render_identifies with ⟨hrender, hbytes, hrun⟩
  have hhead : ∀ layout, ∃ config ∈ configurations layout, config.toolchain = .dx ∧
      config.tool = .r8 ∧ config.toolConstant = "R8" :=
    fun layout => ⟨_, List.mem_cons_self, rfl, rfl, rfl⟩
  rcases hhead sampleLayout with ⟨config, hconfig, htoolchain, htool, hconstant⟩
  rcases hhead (.rooted (.ofString "r")) with ⟨config', hconfig', htoolchain', htool', hconstant'⟩
  have hsame := Wrapper.render_congr ⟨"a-b"⟩ (htoolchain.trans htoolchain'.symm)
    (htool.trans htool'.symm) (hconstant.trans hconstant'.symm)
  rcases Wrapper.exists_render_eq_ok ⟨"a-b"⟩ config with ⟨text, htext⟩
  rcases Wrapper.exists_render_eq_ok ⟨"a_b"⟩ config with ⟨text', htext'⟩
  have hready := ready_sampleFiles
  have hup := hready.plain.up_notMem
  have hlinks := undisturbed_sampleFiles.unlinked config hconfig
  have htests : testCases sampleFiles config.sourceDir = .ok ["a-b", "a_b"] := by
    rw [(Configuration.paths_of_mem hconfig).1]
    exact testCases_sampleFiles
  have hreset := reset_of_open hconfig hready.unlimited hready.plain hready.start
    (hready.isOpen config hconfig)
  have hdone : ∃ after, (generateConfiguration config : Run Nat) ⟨sampleFiles, []⟩ =
      (.ok 2, after) :=
    exists_generateConfiguration hconfig hup htests hreset fun test hmem =>
      (fits_iff hready.unlimited).mpr (hready.short test hmem)
  rcases hdone with ⟨after, hdone⟩
  rcases hrender _ _ _ _ config config' hconfig hconfig' hsame with ⟨_, heqs⟩
  refine ⟨config, hconfig, config', hconfig', hsame, heqs.1, heqs.2,
    ⟨text, text', htext, htext', hbytes _ _ _ _ _ (by decide) htext htext'⟩, _, after, hdone, ?_⟩
  rcases hrun _ _ _ _ _ hconfig hup hlinks hdone with ⟨tests, hfound, hfiles⟩
  rw [show tests = ["a-b", "a_b"] from Except.ok.inj (hfound.symm.trans htests)] at hfiles
  rcases hfiles "a-b" (by decide) with
    ⟨file, survivor, kept, text, hfile, hsurvivor, _, hkept, htext, hentry, hiff⟩
  exact ⟨file, survivor, kept, text, hfile, hsurvivor, hkept, htext, hentry, hiff⟩

end Generation

end TestWrappers

import TestWrappers.Proofs.FileSystem.Stocking
import TestWrappers.Wrapper

/-!
# Directories with Wrappers

What a directory holds into which the wrappers of test cases have been put.

The wrappers come one after the other, each to the file of its test case. Two
test cases may have the same file, and then the later one comes in place of the
earlier one, so a file holds the wrapper of the last test case that it belongs
to. `Holds` says that of every file in the directory, and that there is nothing
else in it. An empty directory holds the wrappers of no test cases, and every
file that is put into it adds one test case.

## Main definitions

* `Generation.lastNamed`: The test case that a file ends up with.
* `Generation.Holds`: A directory holds the wrappers of test cases.

## Theorems

* `Generation.lastNamed_eq_some_iff`: No later test case has the same file.
* `Generation.holds_of_vacant`: What no test cases leave.
* `Generation.holds_put`: What one more file does.
-/

namespace TestWrappers

namespace Generation

/-- The last of the test cases whose wrapper goes to the file. -/
def lastNamed (tests : List String) (file : Name) : Option String :=
  (tests.filter fun test => decide (Utf8.encode (TestCase.fileName ⟨test⟩) = file.bytes)).getLast?

theorem lastNamed_concat (tests : List String) (test : String) (file : Name) :
    lastNamed (tests ++ [test]) file =
      if Utf8.encode (TestCase.fileName ⟨test⟩) = file.bytes then some test
      else lastNamed tests file := by
  unfold lastNamed
  by_cases hfile : Utf8.encode (TestCase.fileName ⟨test⟩) = file.bytes
  · simp only [List.filter_append, List.filter_cons, hfile, decide_true, ↓reduceIte,
      List.filter_nil, List.getLast?_concat]
  · simp only [List.filter_append, List.filter_cons, hfile, decide_false, Bool.false_eq_true,
      ↓reduceIte, List.filter_nil, List.append_nil]

theorem lastNamed_eq_some_iff (tests : List String) (file : Name) (test : String) :
    lastNamed tests file = some test ↔
      ∃ earlier later, tests = earlier ++ test :: later ∧
        Utf8.encode (TestCase.fileName ⟨test⟩) = file.bytes ∧
        ∀ other ∈ later, Utf8.encode (TestCase.fileName ⟨other⟩) ≠ file.bytes := by
  unfold lastNamed
  rw [List.getLast?_eq_some_iff]
  constructor
  · intro h
    rcases h with ⟨others, hothers⟩
    -- The test cases are cut where the last of those with the file stands.
    rcases List.filter_eq_append_iff.mp hothers with ⟨front, back, rfl, _, hback⟩
    rcases List.filter_eq_cons_iff.mp hback with ⟨middle, later, rfl, _, htest, hlater⟩
    refine ⟨front ++ middle, later, (List.append_assoc _ _ _).symm, of_decide_eq_true htest, ?_⟩
    intro other hother heq
    exact List.filter_eq_nil_iff.mp hlater other hother (decide_eq_true heq)
  · intro h
    rcases h with ⟨earlier, later, rfl, htest, hlater⟩
    have hnone : later.filter (fun test =>
        decide (Utf8.encode (TestCase.fileName ⟨test⟩) = file.bytes)) = [] :=
      List.filter_eq_nil_iff.mpr fun other hother heq =>
        hlater other hother (of_decide_eq_true heq)
    refine ⟨earlier.filter fun test =>
      decide (Utf8.encode (TestCase.fileName ⟨test⟩) = file.bytes), ?_⟩
    rw [List.filter_append, List.filter_cons]
    simp only [htest, decide_true, ↓reduceIte, hnone]

theorem lastNamed_isSome_iff (tests : List String) (file : Name) :
    (lastNamed tests file).isSome = true ↔
      ∃ test ∈ tests, Utf8.encode (TestCase.fileName ⟨test⟩) = file.bytes := by
  unfold lastNamed
  rw [List.getLast?_isSome]
  constructor
  · intro h
    rcases List.exists_mem_of_ne_nil _ h with ⟨test, htest⟩
    rcases List.mem_filter.mp htest with ⟨hmem, hfile⟩
    exact ⟨test, hmem, of_decide_eq_true hfile⟩
  · intro h
    rcases h with ⟨test, hmem, hfile⟩
    exact List.ne_nil_of_mem (List.mem_filter.mpr ⟨hmem, decide_eq_true hfile⟩)

/-- The directory at the location holds the wrappers of the test cases under a
    configuration, and nothing else. -/
structure Holds (config : Configuration) (tests : List String) (place : Location)
    (files : FileSystem) : Prop where
  /-- A directory is there. -/
  directory : files.tree.get? place = some .directory
  /-- Every test case has a file and a text. -/
  filled : ∀ test ∈ tests, ∃ (file : Name) (text : String),
    file.bytes = Utf8.encode (TestCase.fileName ⟨test⟩) ∧
      Wrapper.render ⟨test⟩ config = .ok text
  /-- What is in the directory is a file with the text of the last test case that
      the file belongs to. -/
  entries : ∀ file entry, files.tree.get? (file :: place) = some entry ↔
    ∃ test text, lastNamed tests file = some test ∧
      Wrapper.render ⟨test⟩ config = .ok text ∧ entry = .file (Utf8.encode text)

/-- An empty directory holds the wrappers of no test cases. -/
theorem holds_of_vacant {config : Configuration} {path : Path} {place : Location}
    {files : FileSystem} (h : FileSystem.Vacant path place files) :
    Holds config [] place files := by
  refine ⟨h.directory, fun _ hmem => absurd hmem List.not_mem_nil, fun file entry => ?_⟩
  rw [h.empty file]
  constructor
  · intro hentry
    exact absurd hentry nofun
  · intro hentry
    rcases hentry with ⟨test, _, hlast, _⟩
    exact absurd hlast nofun

/-- Nothing in a directory with wrappers is a link. -/
theorem Holds.not_link {config : Configuration} {tests : List String} {place : Location}
    {files : FileSystem} (h : Holds config tests place files) (file : Name) (target : Path) :
    files.tree.get? (file :: place) ≠ some (.link target) := by
  intro hlink
  rcases (h.entries file _).mp hlink with ⟨_, _, _, _, heq⟩
  exact absurd heq nofun

/-- A directory with wrappers has a file exactly if some test case has it. -/
theorem Holds.isSome_iff {config : Configuration} {tests : List String} {place : Location}
    {files : FileSystem} (h : Holds config tests place files) (file : Name) :
    (files.tree.get? (file :: place)).isSome = true ↔
      ∃ test ∈ tests, Utf8.encode (TestCase.fileName ⟨test⟩) = file.bytes := by
  rw [← lastNamed_isSome_iff]
  constructor
  · intro hsome
    rcases Option.isSome_iff_exists.mp hsome with ⟨entry, hentry⟩
    rcases (h.entries file entry).mp hentry with ⟨test, _, hlast, _⟩
    exact Option.isSome_of_eq_some hlast
  · intro hsome
    rcases Option.isSome_iff_exists.mp hsome with ⟨test, hlast⟩
    rcases (lastNamed_eq_some_iff _ _ _).mp hlast with ⟨_, _, rfl, _⟩
    -- The last test case has a text, and that is what the file holds.
    rcases h.filled test (List.mem_append_right _ List.mem_cons_self) with ⟨_, text, _, htext⟩
    exact Option.isSome_of_eq_some ((h.entries file _).mpr ⟨test, text, hlast, htext, rfl⟩)

/-- A file that is put into a directory with wrappers holds the new wrapper, whatever
    stood there. -/
theorem holds_put {config : Configuration} {tests : List String} {test text : String}
    {here : Location} {name : Name} {files : FileSystem} (hholds : Holds config tests here files)
    (hname : name.bytes = Utf8.encode (TestCase.fileName ⟨test⟩))
    (htext : Wrapper.render ⟨test⟩ config = .ok text)
    (hnot : files.tree.get? (name :: here) ≠ some .directory) :
    Holds config (tests ++ [test]) here
      (files.withTree (files.tree.put (name :: here) (.file (Utf8.encode text)))) := by
  have hhold : files.tree.CanHold (name :: here) := ⟨hholds.directory, hnot⟩
  have hself := Tree.get?_put_self (.file (Utf8.encode text)) hhold
  have hother : ∀ {other : Location}, other ≠ name :: here →
      (files.tree.put (name :: here) (.file (Utf8.encode text))).get? other =
        files.tree.get? other :=
    fun hne => Tree.get?_put_of_ne files.tree _ hne
  refine ⟨(hother (List.cons_ne_self _ _).symm).trans hholds.directory, ?_, ?_⟩
  · intro other hmem
    rcases List.mem_append.mp hmem with hin | hlast
    · exact hholds.filled other hin
    · rw [List.mem_singleton.mp hlast]
      exact ⟨name, text, hname, htext⟩
  · intro file entry
    rw [lastNamed_concat, ← hname]
    by_cases heq : file = name
    · -- The new test case is the last one with this file.
      subst heq
      rw [if_pos rfl]
      refine Iff.trans (Eq.congr_left hself) ?_
      constructor
      · intro hentry
        exact ⟨test, text, rfl, htext, (Option.some.inj hentry).symm⟩
      · intro hentry
        rcases hentry with ⟨test', text', hlast, htext', rfl⟩
        rw [← Option.some.inj hlast, htext] at htext'
        rw [Except.ok.inj htext']
    · -- Any other file belongs to the test cases that it belonged to.
      have hbytes : name.bytes ≠ file.bytes := fun hsame => heq (Name.eq_of_bytes_eq hsame.symm)
      have hplace : file :: here ≠ name :: here := fun hsame => heq (List.cons.inj hsame).1
      rw [if_neg hbytes]
      exact (Eq.congr_left (hother hplace)).trans (hholds.entries file entry)

end Generation

end TestWrappers

import TestWrappers.Proofs.FileSystem.Listing
import TestWrappers.Proofs.Generation.Discovery

/-!
# What a Search for Test Cases Finds

The result of looking for test cases, from the entries of the directory alone.

Every entry that leads to a directory is a test case, and nothing else is: a file, a
link that leads elsewhere and what lies deeper are passed over, whatever they are
called. One test case whose name is no text is enough to find none. Which of several
such names is reported depends on the order of the listing, and nothing else does.

## Main definitions

* `Generation.Found`: An entry of a directory leads to a directory.

## Theorems

* `Generation.exists_testCases_of_texts`: Names that are texts are found.
* `Generation.exists_testCases_of_no_text`: Another name is reported.
* `Generation.testCases_withTree_eq_ok_iff`: The order of listing does not count.
* `Generation.discover_finds`: What a search finds.
-/

namespace TestWrappers

namespace Generation

variable {files : FileSystem} {source : Path} {place : Location}

/-- The directory has an entry of the name, and it leads to a directory. -/
def Found (files : FileSystem) (source : Path) (place : Location) (name : Name) : Prop :=
  (files.tree.get? (name :: place)).isSome = true ∧
    files.isDirectory (source.join ⟨name.bytes⟩) = true

theorem mem_directories_iff (name : Name) :
    name ∈ directories files source (files.tree.names place) ↔ Found files source place name := by
  rw [directories, List.mem_filter, Tree.mem_names]
  exact Iff.rfl

/-- Without a directory there is no listing. -/
theorem testCases_of_not_isDirectory (h : files.isDirectory source = false) :
    ∃ cause, testCases files source = .error (.listing source cause) := by
  cases hlist : files.list source with
  | error cause => exact ⟨cause, testCases_of_list_eq_error hlist⟩
  | ok listed =>
    rcases FileSystem.mem_list hlist with ⟨place, hplace, hdir, _⟩
    rw [(FileSystem.isDirectory_iff_locate files source).mpr ⟨place, hplace, hdir⟩] at h
    cases h

/-- Where the names of all directories are texts, test cases are found. -/
theorem exists_testCases_of_texts (hplace : files.locate source = .ok place)
    (hdir : files.tree.get? place = some .directory)
    (h : ∀ name, Found files source place name → ∃ text, Utf8.encode text = name.bytes) :
    ∃ tests, testCases files source = .ok tests := by
  rw [testCases_of_list (list_of_locate hplace hdir)]
  cases hbytes : readNames ((directories files source (files.tree.names place)).map Name.bytes) with
  | ok tests => exact ⟨tests, rfl⟩
  | error bytes =>
    rcases mem_of_readNames_eq_error hbytes with ⟨hmem, hnone⟩
    rcases List.mem_map.mp hmem with ⟨name, hname, rfl⟩
    rcases h name ((mem_directories_iff name).mp hname) with ⟨text, htext⟩
    rw [← htext, Utf8.decode?_encode] at hnone
    cases hnone

/-- Where the name of a directory is no text, such a name is reported. -/
theorem exists_testCases_of_no_text (hplace : files.locate source = .ok place)
    (hdir : files.tree.get? place = some .directory) {name : Name}
    (hname : Found files source place name) (htext : ∀ text, Utf8.encode text ≠ name.bytes) :
    ∃ other, Found files source place other ∧ (∀ text, Utf8.encode text ≠ other.bytes) ∧
      testCases files source = .error (.undecodableName (source.join ⟨other.bytes⟩)) := by
  have hmem := List.mem_map_of_mem (f := Name.bytes) ((mem_directories_iff name).mpr hname)
  rcases (readNames_eq_error_iff _).mpr ⟨_, hmem, (Utf8.decode?_eq_none_iff _).mpr htext⟩ with
    ⟨bytes, hbytes⟩
  rcases mem_of_readNames_eq_error hbytes with ⟨hin, hother⟩
  rcases List.mem_map.mp hin with ⟨other, hfound, rfl⟩
  refine ⟨other, (mem_directories_iff other).mp hfound, (Utf8.decode?_eq_none_iff _).mp hother, ?_⟩
  rw [testCases_of_list (list_of_locate hplace hdir), hbytes]
  rfl

/-- Test cases are the entries that lead to directories. -/
theorem mem_testCases_iff {tests : List String} (hplace : files.locate source = .ok place)
    (h : testCases files source = .ok tests) (test : String) :
    test ∈ tests ↔
      ∃ name : Name, name.bytes = Utf8.encode test ∧ Found files source place name := by
  rcases (testCases_eq_ok_iff_sorted _ _ _).mp h with ⟨there, hthere, _, _, hmem⟩
  rw [hplace, Except.ok.injEq] at hthere
  subst hthere
  rw [← List.mem_map_of_injective fun _ _ => Utf8.encode_inj, hmem]
  exact Iff.rfl

/-- The order in which a directory lists its entries does not count. -/
theorem testCases_withTree_eq_ok_iff {tree : Tree} (h : tree.Same files.tree)
    (source : Path) (tests : List String) :
    testCases (files.withTree tree) source = .ok tests ↔ testCases files source = .ok tests := by
  have hentries : ∀ place : Location,
      (files.withTree tree).tree.get? place = files.tree.get? place := h
  simp only [testCases_eq_ok_iff_sorted, FileSystem.locate_withTree_iff h,
    FileSystem.isDirectory_withTree h, hentries]

/-- What a search finds in a directory. Its entries lead to directories or not by what
    stands there. If the names of all that do are texts, those are found, in the strict
    order of their bytes. If not, the path of one whose name is no text is reported.
    The entries may be listed in any order, and the order counts for nothing but which
    path that is. What is no directory is reported as that. -/
theorem discover_finds (source : Path) (world : World) :
    (world.files.isDirectory source = false → ∃ cause,
      (discover source : Run (List String)) world = (.error (.listing source cause), world)) ∧
    ∀ place, world.files.locate source = .ok place →
      world.files.tree.get? place = some .directory →
      (∃ links, (∀ steps, world.files.tree.walk (FileSystem.maxLinks + 1)
            (source.route.start world.files.workingDirectory) (source.route.steps ++ steps) =
          world.files.tree.walk (links + 1) place steps) ∧
        ∀ name entry, world.files.tree.get? (name :: place) = some entry →
          (Found world.files source place name ↔
            world.files.isTooLong (source.join ⟨name.bytes⟩) = false ∧
              world.files.tree.LeadsToDirectory links place entry)) ∧
      ((∀ name, Found world.files source place name → ∃ text, Utf8.encode text = name.bytes) →
        ∃ tests, (discover source : Run (List String)) world = (.ok tests, world) ∧
          (tests.Pairwise fun a b => Utf8.encode a < Utf8.encode b) ∧
          ∀ test, test ∈ tests ↔
            ∃ name : Name, name.bytes = Utf8.encode test ∧ Found world.files source place name) ∧
      (∀ name, Found world.files source place name → (∀ text, Utf8.encode text ≠ name.bytes) →
        ∃ other, Found world.files source place other ∧
          (∀ text, Utf8.encode text ≠ other.bytes) ∧
          (discover source : Run (List String)) world =
            (.error (.undecodableName (source.join ⟨other.bytes⟩)), world)) ∧
      (∀ order : List Name, order.Perm (world.files.tree.names place) →
        ∃ tree : Tree, tree.Same world.files.tree ∧ tree.names place = order) ∧
      ∀ tree : Tree, tree.Same world.files.tree → ∀ tests,
        ((discover source : Run (List String)) ⟨world.files.withTree tree, world.events⟩).1 =
            .ok tests ↔
          ((discover source : Run (List String)) world).1 = .ok tests := by
  have hrun : ∀ {result}, testCases world.files source = result →
      (discover source : Run (List String)) world = (result, world) := by
    rintro result rfl
    exact run_discover source world
  refine ⟨fun hnot => ?_, fun place hplace hdir =>
    ⟨?_, fun hall => ?_, fun name hname htext => ?_, ?_, fun tree hsame tests => ?_⟩⟩
  · rcases testCases_of_not_isDirectory hnot with ⟨cause, hcause⟩
    exact ⟨cause, hrun hcause⟩
  · rcases FileSystem.isDirectory_join_iff hplace with ⟨links, hlinks, hentries⟩
    refine ⟨links, hlinks, fun name entry hentry => ?_⟩
    rw [← hentries name entry hentry]
    exact and_iff_right (Option.isSome_of_eq_some hentry)
  · rcases exists_testCases_of_texts hplace hdir hall with ⟨tests, htests⟩
    exact ⟨tests, hrun htests, pairwise_testCases htests, mem_testCases_iff hplace htests⟩
  · rcases exists_testCases_of_no_text hplace hdir hname htext with
      ⟨other, hfound, hother, hreported⟩
    exact ⟨other, hfound, hother, hrun hreported⟩
  · exact fun order horder => Tree.exists_same_names horder
  · rw [run_discover, run_discover]
    exact testCases_withTree_eq_ok_iff hsame source tests

end Generation

end TestWrappers

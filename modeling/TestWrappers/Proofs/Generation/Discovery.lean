import TestWrappers.Generation.Run
import TestWrappers.Proofs.Text.Bytes

/-!
# Test Cases Found

Which names a search for test cases gives, and in which order.

The names are those in the listing that lead to directories, read as texts. The
listing has no name twice, and a text has only one encoding, so sorting the bytes
of the names sorts the texts strictly: the order of the listing leaves no trace,
and every name comes once.

## Main definitions

* `Generation.directories`: The names in a listing that lead to directories.

## Theorems

* `Generation.testCases_of_list`: What is found in a listing.
* `Generation.testCases_eq_ok_iff`: When test cases are found.
* `Generation.eq_mergeSort_iff`: What sorting names gives.
* `Generation.pairwise_testCases`: They are in the strict order of their bytes.
* `Generation.testCases_eq_ok_iff_sorted`: That and their being the directories
  determines them.
* `Generation.exists_name_of_mem_testCases`: Each is the name of an entry.
-/

namespace TestWrappers

namespace Generation

theorem map_encode_filterMap {names : List (List UInt8)}
    (h : ∀ name ∈ names, Utf8.decode? name ≠ none) :
    (names.filterMap Utf8.decode?).map Utf8.encode = names := by
  induction names with
  | nil => rfl
  | cons name names ih =>
    cases hname : Utf8.decode? name with
    | none => exact absurd hname (h name List.mem_cons_self)
    | some text =>
      rw [List.filterMap_cons_some hname, List.map_cons, Utf8.encode_of_decode? hname,
        ih fun other hmem => h other (List.mem_cons_of_mem name hmem)]

/-- The texts that are read from names have those names for bytes, in order. -/
theorem readNames_eq_ok_iff (names : List (List UInt8)) (texts : List String) :
    readNames names = .ok texts ↔
      texts.map Utf8.encode = names.mergeSort fun a b => decide (a ≤ b) := by
  unfold readNames
  split
  · rename_i name hfind
    have hmem := List.mem_of_find?_eq_some hfind
    have hfound := List.find?_some hfind
    have hnone := Option.isNone_iff_eq_none.mp hfound
    constructor
    · intro h
      exact absurd h nofun
    · -- A text whose bytes are the name would be read from it.
      intro h
      have hsorted : name ∈ texts.map Utf8.encode := by
        rw [h, List.mem_mergeSort]
        exact hmem
      rcases List.mem_map.mp hsorted with ⟨text, _, rfl⟩
      rw [Utf8.decode?_encode] at hnone
      exact absurd hnone nofun
  · rename_i hfind
    have hall : ∀ name ∈ names.mergeSort (fun a b => decide (a ≤ b)), Utf8.decode? name ≠ none := by
      intro name hmem hnone
      have hsome := List.find?_eq_none.mp hfind name (List.mem_mergeSort.mp hmem)
      exact hsome (Option.isNone_iff_eq_none.mpr hnone)
    have hmap := map_encode_filterMap hall
    constructor
    · intro h
      rw [← Except.ok.inj h]
      exact hmap
    · intro h
      rw [← hmap] at h
      -- Two lists of texts with the same bytes are one list.
      rw [List.map_inj_right fun _ _ => Utf8.encode_inj] at h
      rw [h]

/-- A name that is reported is one of the names, and no text. -/
theorem mem_of_readNames_eq_error {names : List (List UInt8)} {name : List UInt8}
    (h : readNames names = .error name) : name ∈ names ∧ Utf8.decode? name = none := by
  unfold readNames at h
  split at h
  · rename_i found hfind
    have hfound := List.find?_some hfind
    rw [← Except.error.inj h]
    exact ⟨List.mem_of_find?_eq_some hfind, Option.isNone_iff_eq_none.mp hfound⟩
  · cases h

/-- The names in a listing that lead to directories. -/
def directories (files : FileSystem) (source : Path) (listed : List Name) : List Name :=
  listed.filter fun name => files.isDirectory (source.join ⟨name.bytes⟩)

/-- What is found in a listing is read from the names that lead to directories. -/
theorem testCases_of_list {files : FileSystem} {source : Path} {listed : List Name}
    (hlist : files.list source = .ok listed) :
    testCases files source =
      (readNames ((directories files source listed).map Name.bytes)).mapError
        fun name => .undecodableName (source.join ⟨name⟩) := by
  -- Whether a name leads to a directory can be asked before or after it is turned
  -- into bytes.
  have hfilter : (listed.map Name.bytes).filter
      (fun name => files.isDirectory (source.join ⟨name⟩)) =
        (directories files source listed).map Name.bytes := by
    rw [List.filter_map]
    rfl
  simp only [testCases, hlist, hfilter]
  cases readNames ((directories files source listed).map Name.bytes) <;> rfl

theorem testCases_of_list_eq_error {files : FileSystem} {source : Path} {cause : FileError}
    (hlist : files.list source = .error cause) :
    testCases files source = .error (.listing source cause) := by
  rw [testCases, hlist]

/-- Test cases are found where a listing can be had, and all names in it that lead
    to directories can be read. -/
theorem testCases_eq_ok_iff (files : FileSystem) (source : Path) (tests : List String) :
    testCases files source = .ok tests ↔
      ∃ listed, files.list source = .ok listed ∧
        tests.map Utf8.encode =
          ((directories files source listed).map Name.bytes).mergeSort
            fun a b => decide (a ≤ b) := by
  cases hlist : files.list source with
  | error cause =>
    simp only [testCases_of_list_eq_error hlist, reduceCtorEq, false_and, exists_const]
  | ok listed =>
    simp only [testCases_of_list hlist, Except.ok.injEq, exists_eq_left', ← readNames_eq_ok_iff]
    cases readNames ((directories files source listed).map Name.bytes) with
    | ok names => rw [FileError.mapError_ok, Except.ok.injEq, Except.ok.injEq]
    | error name => exact iff_of_false nofun nofun

/-- Test cases are not found where there is no listing, or where a directory has a
    name that is no text. -/
theorem testCases_eq_error {files : FileSystem} {source : Path} {failure : Failure}
    (h : testCases files source = .error failure) :
    (∃ cause, failure = .listing source cause ∧ files.list source = .error cause) ∨
    ∃ name, failure = .undecodableName (source.join ⟨name⟩) ∧
      files.isDirectory (source.join ⟨name⟩) = true ∧ Utf8.decode? name = none := by
  cases hlist : files.list source with
  | error cause =>
    rw [testCases_of_list_eq_error hlist, Except.error.injEq] at h
    exact Or.inl ⟨cause, h.symm, rfl⟩
  | ok listed =>
    rw [testCases_of_list hlist] at h
    cases hread : readNames ((directories files source listed).map Name.bytes) with
    | ok names =>
      rw [hread] at h
      cases h
    | error bytes =>
      rw [hread] at h
      rcases mem_of_readNames_eq_error hread with ⟨hmem, hnone⟩
      rcases List.mem_map.mp hmem with ⟨name, hname, rfl⟩
      exact Or.inr ⟨name.bytes, (Except.error.inj h).symm, (List.mem_filter.mp hname).2, hnone⟩

theorem list_of_locate {files : FileSystem} {source : Path} {place : Location}
    (hplace : files.locate source = .ok place)
    (hdir : files.tree.get? place = some .directory) :
    files.list source = .ok (files.tree.names place) := by
  simp only [FileSystem.list, bind, Except.bind, hplace, hdir]

theorem nodup_list {files : FileSystem} {path : Path} {listed : List Name}
    (h : files.list path = .ok listed) : listed.Nodup := by
  simp only [FileSystem.list, bind, Except.bind] at h
  split at h
  · cases h
  · split at h
    · rw [← Except.ok.inj h]
      exact Tree.nodup_names _ _
    · cases h
    · cases h

/-- Sorting gives the only list in strict order with the same members. -/
theorem eq_mergeSort_iff {names sorted : List (List UInt8)} (hnodup : names.Nodup) :
    sorted = names.mergeSort (fun a b => decide (a ≤ b)) ↔
      sorted.Pairwise (· < ·) ∧ ∀ name, name ∈ sorted ↔ name ∈ names := by
  -- The order of bytes is total, so sorting gives an ordered list.
  have hordered : (names.mergeSort fun a b => decide (a ≤ b)).Pairwise (· ≤ ·) := by
    have hbool : (names.mergeSort fun a b => decide (a ≤ b)).Pairwise
        fun a b => decide (a ≤ b) = true := by
      refine List.pairwise_mergeSort (fun a b c hab hbc => ?_) (fun a b => ?_) _
      · exact decide_eq_true (List.le_trans (of_decide_eq_true hab) (of_decide_eq_true hbc))
      · rcases List.le_total a b with hab | hba
        · rw [decide_eq_true hab, Bool.true_or]
        · rw [decide_eq_true hba, Bool.or_true]
    exact hbool.imp fun h => of_decide_eq_true h
  have hperm := List.mergeSort_perm names fun a b => decide (a ≤ b)
  constructor
  · intro h
    rw [h]
    refine ⟨?_, fun name => List.mem_mergeSort⟩
    -- Without a name that comes twice the order is strict.
    have hdistinct := hperm.nodup_iff.mpr hnodup
    exact (hordered.and hdistinct).imp fun hab => Std.lt_of_le_of_ne hab.1 hab.2
  · intro h
    rcases h with ⟨hsorted, hmem⟩
    have hdistinct : sorted.Nodup := hsorted.imp fun hlt => Std.ne_of_lt hlt
    have hsame := (List.perm_ext_iff_of_nodup hdistinct hnodup).mpr hmem
    exact List.Perm.eq_of_pairwise (fun _ _ _ _ => List.le_antisymm)
      (hsorted.imp fun hlt => List.le_of_lt hlt) hordered (hsame.trans hperm.symm)

theorem nodup_directories {files : FileSystem} {source : Path} {listed : List Name}
    (h : files.list source = .ok listed) :
    ((directories files source listed).map Name.bytes).Nodup := by
  refine List.Pairwise.map _ ?_ ((nodup_list h).filter _)
  intro a b hne heq
  exact hne (Name.eq_of_bytes_eq heq)

/-- The test cases stand in the strict order of their bytes. -/
theorem pairwise_testCases {files : FileSystem} {source : Path} {tests : List String}
    (h : testCases files source = .ok tests) :
    tests.Pairwise fun a b => Utf8.encode a < Utf8.encode b := by
  rcases (testCases_eq_ok_iff files source tests).mp h with ⟨listed, hlist, htests⟩
  rw [← List.pairwise_map (f := Utf8.encode) (R := (· < ·))]
  exact ((eq_mergeSort_iff (nodup_directories hlist)).mp htests).1

/-- Where the same test cases are found, they are found in the same order. -/
theorem testCases_eq_of_mem_iff {files other : FileSystem} {source : Path}
    {tests tests' : List String} (h : testCases files source = .ok tests)
    (h' : testCases other source = .ok tests') (hmem : ∀ test, test ∈ tests ↔ test ∈ tests') :
    tests = tests' := by
  have hdistinct : ∀ {found : List String},
      (found.Pairwise fun a b => Utf8.encode a < Utf8.encode b) → found.Nodup := by
    intro found hsorted
    refine List.Pairwise.imp (fun hlt heq => ?_) hsorted
    exact Std.ne_of_lt hlt (congrArg Utf8.encode heq)
  have hsorted := pairwise_testCases h
  have hsorted' := pairwise_testCases h'
  exact List.Perm.eq_of_pairwise
    (fun _ _ _ _ hlt hgt => absurd (List.lt_trans hlt hgt) (List.lt_irrefl _)) hsorted hsorted'
    ((List.perm_ext_iff_of_nodup (hdistinct hsorted) (hdistinct hsorted')).mpr hmem)

/-- A list in strict order of the names that lead to directories is what is found. -/
theorem testCases_of_perm {files : FileSystem} {source : Path} {listed : List Name}
    {tests : List String} (hlist : files.list source = .ok listed)
    (hsorted : (tests.map Utf8.encode).Pairwise (· < ·))
    (hperm : (tests.map Utf8.encode).Perm ((directories files source listed).map Name.bytes)) :
    testCases files source = .ok tests :=
  (testCases_eq_ok_iff files source tests).mpr ⟨listed, hlist,
    (eq_mergeSort_iff (nodup_directories hlist)).mpr ⟨hsorted, fun _ => hperm.mem_iff⟩⟩

theorem length_testCases {files : FileSystem} {source : Path} {tests : List String}
    (h : testCases files source = .ok tests) :
    ∃ listed, files.list source = .ok listed ∧
      tests.length = (directories files source listed).length := by
  rcases (testCases_eq_ok_iff files source tests).mp h with ⟨listed, hlist, htests⟩
  have hlength := congrArg List.length htests
  rw [List.length_map, List.length_mergeSort, List.length_map] at hlength
  exact ⟨listed, hlist, hlength⟩

/-- The test cases that are found are the names of entries that lead to
    directories, in the strict order of their bytes. -/
theorem testCases_eq_ok_iff_sorted (files : FileSystem) (source : Path) (tests : List String) :
    testCases files source = .ok tests ↔
      ∃ place, files.locate source = .ok place ∧ files.tree.get? place = some .directory ∧
        (tests.map Utf8.encode).Pairwise (· < ·) ∧
        ∀ bytes, bytes ∈ tests.map Utf8.encode ↔
          ∃ name : Name, name.bytes = bytes ∧ (files.tree.get? (name :: place)).isSome = true ∧
            files.isDirectory (source.join ⟨name.bytes⟩) = true := by
  have hmembers : ∀ {listed : List Name} {place : Location},
      (∀ name, name ∈ listed ↔ (files.tree.get? (name :: place)).isSome = true) →
      ∀ bytes, bytes ∈ (directories files source listed).map Name.bytes ↔
        ∃ name : Name, name.bytes = bytes ∧ (files.tree.get? (name :: place)).isSome = true ∧
          files.isDirectory (source.join ⟨name.bytes⟩) = true := by
    intro listed place hlisted bytes
    simp only [directories, List.mem_map, List.mem_filter, hlisted, and_assoc]
    exact exists_congr fun name => ⟨fun h => ⟨h.2.2, h.1, h.2.1⟩, fun h => ⟨h.2.1, h.2.2, h.1⟩⟩
  rw [testCases_eq_ok_iff]
  constructor
  · intro h
    rcases h with ⟨listed, hlist, htests⟩
    rcases FileSystem.mem_list hlist with ⟨place, hplace, hdir, hlisted⟩
    rcases (eq_mergeSort_iff (nodup_directories hlist)).mp htests with ⟨hsorted, hmem⟩
    exact ⟨place, hplace, hdir, hsorted, fun bytes => (hmem bytes).trans (hmembers hlisted bytes)⟩
  · intro h
    rcases h with ⟨place, hplace, hdir, hsorted, hmem⟩
    have hlist := list_of_locate hplace hdir
    refine ⟨_, hlist, (eq_mergeSort_iff (nodup_directories hlist)).mpr ⟨hsorted, fun bytes => ?_⟩⟩
    exact (hmem bytes).trans (hmembers (fun name => Tree.mem_names) bytes).symm

/-- A test case is the name of an entry. -/
theorem exists_name_of_mem_testCases {files : FileSystem} {source : Path} {tests : List String}
    (h : testCases files source = .ok tests) {test : String} (hmem : test ∈ tests) :
    ∃ name : Name, name.bytes = Utf8.encode test := by
  rcases (testCases_eq_ok_iff files source tests).mp h with ⟨listed, _, htests⟩
  have hbytes := List.mem_map_of_mem (f := Utf8.encode) hmem
  rw [htests, List.mem_mergeSort] at hbytes
  rcases List.mem_map.mp hbytes with ⟨name, _, hname⟩
  exact ⟨name, hname⟩

end Generation

end TestWrappers

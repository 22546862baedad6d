import TestWrappers.FileSystem.Name

/-!
# Trees of Entries

What a file system holds, apart from how it is reached.

An entry is a directory, a file or a link. A tree says for every location which
entry is there, if any, and `get?` is that view: two trees with the same view
are the same for everything but the order in which a directory lists its
entries. The root is a directory in every tree and is not stored.

The entries are kept in a list, in the order in which they came. No location
stands in it twice, and every entry stands in a directory. Three operations
change a tree, and all three keep this: putting an entry where a directory can
hold it, emptying a directory, and removing an entry with all that is in it.
None of them turns a directory that holds something into anything else.

## Main definitions

* `Entry`: What can be at a location.
* `Tree`: The entries of a file system.
* `Tree.get?`: The entry at a location.
* `Tree.names`: The names in a directory, in the order of listing.
* `Tree.put`, `Tree.clear`, `Tree.remove`: The three changes.

## Theorems

* `Tree.get?_tail`: What holds an entry is a directory.
* `Tree.mem_names`: A directory lists what is in it.
* `Tree.get?_put_self`, `Tree.get?_put_of_ne`: What putting changes.
* `Tree.get?_clear`, `Tree.get?_remove`: What emptying and removing change.
-/

namespace TestWrappers

/-- What can be at a location. -/
inductive Entry where
  /-- A directory. What is in it is told by the tree. -/
  | directory
  /-- A file and its bytes. -/
  | file (contents : List UInt8)
  /-- A link and the path it stands for. -/
  | link (target : Path)
deriving DecidableEq, Repr

/-- The entries of a file system. -/
structure Tree where
  /-- The entries and their locations, the root left out. -/
  nodes : List (Location × Entry)
  /-- No location stands there twice. -/
  nodup : (nodes.map Prod.fst).Nodup
  /-- Every entry is in the root or in a directory that stands there. -/
  held : ∀ node ∈ nodes, ∃ name directory, node.1 = name :: directory ∧
    (directory = [] ∨ (directory, Entry.directory) ∈ nodes)

namespace Tree

/-- The tree with nothing but the root. -/
def empty : Tree := ⟨[], List.nodup_nil, fun _ h => absurd h List.not_mem_nil⟩

/-- The entry at a location. -/
def get? (tree : Tree) (place : Location) : Option Entry :=
  if place = [] then some .directory else tree.nodes.lookup place

/-- The names in a directory, in the order of listing. -/
def names (tree : Tree) (directory : Location) : List Name :=
  tree.nodes.filterMap fun node =>
    match node.1 with
    | [] => none
    | name :: outer => if outer = directory then some name else none

/-- The same entries are at the same locations. -/
def Same (a b : Tree) : Prop := ∀ place, a.get? place = b.get? place

theorem lookup_eq_some_iff {nodes : List (Location × Entry)} (h : (nodes.map Prod.fst).Nodup)
    {place : Location} {entry : Entry} :
    nodes.lookup place = some entry ↔ (place, entry) ∈ nodes := by
  induction nodes with
  | nil => simp only [List.lookup_nil, reduceCtorEq, List.not_mem_nil]
  | cons node nodes ih =>
    obtain ⟨key, value⟩ := node
    simp only [List.map_cons, List.nodup_cons] at h
    rw [List.lookup_cons, List.mem_cons, Prod.mk.injEq]
    by_cases hkey : place = key
    · subst hkey
      simp only [BEq.rfl, Option.some.injEq, true_and]
      constructor
      · exact fun heq => Or.inl heq.symm
      · rintro (heq | hmem)
        · exact heq.symm
        · exact absurd (List.mem_map_of_mem hmem) h.1
    · rw [beq_false_of_ne hkey]
      simp only [hkey, false_and, false_or]
      exact ih h.2

theorem get?_nil (tree : Tree) : tree.get? [] = some .directory := rfl

theorem get?_eq_some_iff (tree : Tree) {place : Location} {entry : Entry} (h : place ≠ []) :
    tree.get? place = some entry ↔ (place, entry) ∈ tree.nodes := by
  rw [get?, if_neg h, lookup_eq_some_iff tree.nodup]

theorem get?_isSome_iff (tree : Tree) {place : Location} (h : place ≠ []) :
    (tree.get? place).isSome = true ↔ ∃ entry, (place, entry) ∈ tree.nodes := by
  simp only [Option.isSome_iff_exists, get?_eq_some_iff tree h]

theorem get?_tail {tree : Tree} {name : Name} {directory : Location} {entry : Entry}
    (h : tree.get? (name :: directory) = some entry) :
    tree.get? directory = some .directory := by
  rw [get?_eq_some_iff tree (List.cons_ne_nil _ _)] at h
  obtain ⟨name', directory', hplace, hheld⟩ := tree.held _ h
  simp only [List.cons.injEq] at hplace
  obtain ⟨rfl, rfl⟩ := hplace
  rcases hheld with rfl | hmem
  · rfl
  · by_cases hroot : directory = []
    · rw [hroot, get?_nil]
    · exact (get?_eq_some_iff tree hroot).mpr hmem

theorem mem_names {tree : Tree} {directory : Location} {name : Name} :
    name ∈ tree.names directory ↔ (tree.get? (name :: directory)).isSome = true := by
  rw [get?_isSome_iff tree (List.cons_ne_nil _ _)]
  simp only [names, List.mem_filterMap]
  constructor
  · rintro ⟨⟨place, entry⟩, hmem, hname⟩
    cases place with
    | nil => simp only [reduceCtorEq] at hname
    | cons name' outer =>
      simp only [Option.ite_none_right_eq_some, Option.some.injEq] at hname
      obtain ⟨rfl, rfl⟩ := hname
      exact ⟨entry, hmem⟩
  · rintro ⟨entry, hmem⟩
    exact ⟨_, hmem, by simp only [↓reduceIte]⟩

theorem nodup_names (tree : Tree) (directory : Location) : (tree.names directory).Nodup := by
  have h := tree.nodup
  rw [List.Nodup, List.pairwise_map] at h
  refine (List.pairwise_filterMap.mpr (h.imp ?_))
  intro a b hne name hname name' hname' heq
  apply hne
  cases ha : a.1 with
  | nil => simp only [ha, reduceCtorEq] at hname
  | cons n outer =>
    cases hb : b.1 with
    | nil => simp only [hb, reduceCtorEq] at hname'
    | cons n' outer' =>
      simp only [ha, Option.ite_none_right_eq_some, Option.some.injEq] at hname
      simp only [hb, Option.ite_none_right_eq_some, Option.some.injEq] at hname'
      rw [hname.1, hname.2, hname'.1, hname'.2, heq]

/-- Something other than a directory can be put at the location. -/
def CanHold (tree : Tree) : Location → Prop
  | [] => False
  | name :: directory =>
    tree.get? directory = some .directory ∧ tree.get? (name :: directory) ≠ some .directory

instance (tree : Tree) (place : Location) : Decidable (tree.CanHold place) :=
  match place with
  | [] => inferInstanceAs (Decidable False)
  | _ :: _ => inferInstanceAs (Decidable (_ ∧ _))

/-- Put an entry at a location, in place of a file or link that is there. Where
    no directory could hold it, or where a directory is, nothing changes. -/
def put (tree : Tree) (place : Location) (entry : Entry) : Tree :=
  if h : tree.CanHold place then
    { nodes := tree.nodes.filter (·.1 != place) ++ [(place, entry)]
      nodup := by
        rw [List.map_append, List.nodup_append]
        refine ⟨tree.nodup.sublist (List.filter_sublist.map _), by simp, ?_⟩
        intro a ha b hb hab
        simp only [List.mem_map, List.mem_filter, bne_iff_ne, ne_eq] at ha
        obtain ⟨node, ⟨_, hne⟩, rfl⟩ := ha
        simp only [List.map_cons, List.map_nil, List.mem_singleton] at hb
        exact hne (hab.trans hb)
      held := by
        cases place with
        | nil => exact absurd h not_false
        | cons name directory =>
          -- A directory that held something still stands there.
          have hkept : ∀ outer, outer = [] ∨ (outer, Entry.directory) ∈ tree.nodes →
              outer = [] ∨ (outer, Entry.directory) ∈
                tree.nodes.filter (·.1 != name :: directory) ++ [(name :: directory, entry)] := by
            rintro outer (hroot | hmem)
            · exact Or.inl hroot
            · refine Or.inr (List.mem_append_left _ (List.mem_filter.mpr ⟨hmem, ?_⟩))
              simp only [bne_iff_ne, ne_eq]
              rintro rfl
              exact h.2 ((get?_eq_some_iff tree (List.cons_ne_nil _ _)).mpr hmem)
          intro node hnode
          rcases List.mem_append.mp hnode with hold | hnew
          · obtain ⟨n, d, hplace, hheld⟩ := tree.held node (List.mem_filter.mp hold).1
            exact ⟨n, d, hplace, hkept d hheld⟩
          · rw [List.mem_singleton.mp hnew]
            refine ⟨name, directory, rfl, hkept directory ?_⟩
            by_cases hroot : directory = []
            · exact Or.inl hroot
            · exact Or.inr ((get?_eq_some_iff tree hroot).mp h.1) }
  else tree

/-- Keep the entries at the given locations. -/
def restrict (tree : Tree) (keep : Location → Bool)
    (h : ∀ name directory, keep (name :: directory) = true → directory = [] ∨ keep directory = true) :
    Tree where
  nodes := tree.nodes.filter (keep ·.1)
  nodup := tree.nodup.sublist (List.filter_sublist.map _)
  held := by
    intro node hnode
    obtain ⟨hmem, hkeep⟩ := List.mem_filter.mp hnode
    obtain ⟨name, directory, hplace, hheld⟩ := tree.held node hmem
    refine ⟨name, directory, hplace, ?_⟩
    rw [hplace] at hkeep
    rcases h name directory hkeep with hroot | hdir
    · exact Or.inl hroot
    · exact hheld.imp id fun hmem => List.mem_filter.mpr ⟨hmem, hdir⟩

/-- Remove all that is inside a directory. -/
def clear (tree : Tree) (directory : Location) : Tree :=
  tree.restrict (fun place => !place.isWithin directory || place == directory) <| by
    intro name outer h
    simp only [Bool.or_eq_true, Bool.not_eq_true', beq_iff_eq] at h ⊢
    rcases h with h | rfl
    · refine Or.inr (Or.inl (Bool.eq_false_iff.mpr fun hin => ?_))
      exact Bool.eq_false_iff.mp h (Location.isWithin_cons name hin)
    · refine Or.inr (Or.inl (Bool.eq_false_iff.mpr fun hin => ?_))
      exact absurd (Location.isWithin_iff.mp hin).length_le (by simp)

/-- Remove an entry and all that is inside it. -/
def remove (tree : Tree) (place : Location) : Tree :=
  tree.restrict (fun other => !other.isWithin place) <| by
    intro name outer h
    simp only [Bool.not_eq_true'] at h ⊢
    refine Or.inr (Bool.eq_false_iff.mpr fun hin => ?_)
    exact Bool.eq_false_iff.mp h (Location.isWithin_cons name hin)

theorem get?_put_self {tree : Tree} {place : Location} (entry : Entry) (h : tree.CanHold place) :
    (tree.put place entry).get? place = some entry := by
  have hne : place ≠ [] := by
    rintro rfl
    exact h
  rw [get?_eq_some_iff _ hne, put, dif_pos h]
  exact List.mem_append_right _ (List.mem_singleton.mpr rfl)

theorem get?_put_of_ne (tree : Tree) {place other : Location} (entry : Entry) (h : other ≠ place) :
    (tree.put place entry).get? other = tree.get? other := by
  by_cases hroot : other = []
  · rw [hroot, get?_nil, get?_nil]
  by_cases hcan : tree.CanHold place
  · apply Option.ext
    intro e
    rw [get?_eq_some_iff _ hroot, get?_eq_some_iff _ hroot, put, dif_pos hcan]
    simp only [List.mem_append, List.mem_filter, List.mem_singleton, Prod.mk.injEq, h, false_and,
      or_false, bne_iff_ne, ne_eq, not_false_eq_true, and_true]
  · rw [put, dif_neg hcan]

theorem get?_restrict (tree : Tree) (keep : Location → Bool)
    (h : ∀ name directory, keep (name :: directory) = true → directory = [] ∨ keep directory = true)
    {place : Location} (hne : place ≠ []) :
    (tree.restrict keep h).get? place = if keep place = true then tree.get? place else none := by
  apply Option.ext
  intro e
  rw [get?_eq_some_iff _ hne, Option.ite_none_right_eq_some, get?_eq_some_iff _ hne]
  exact List.mem_filter.trans and_comm

theorem get?_clear (tree : Tree) (directory place : Location) :
    (tree.clear directory).get? place =
      if place.isWithin directory = true ∧ place ≠ directory then none else tree.get? place := by
  by_cases hroot : place = []
  · subst hroot
    rw [get?_nil, get?_nil, if_neg]
    rintro ⟨hin, hne⟩
    exact hne (List.suffix_nil.mp (Location.isWithin_iff.mp hin)).symm
  · rw [clear, get?_restrict _ _ _ hroot]
    by_cases heq : place = directory
    · simp [heq]
    · cases hin : place.isWithin directory <;> simp [heq]

theorem get?_remove (tree : Tree) {place : Location} (other : Location) (h : place ≠ []) :
    (tree.remove place).get? other =
      if other.isWithin place = true then none else tree.get? other := by
  by_cases hroot : other = []
  · subst hroot
    rw [get?_nil, get?_nil, if_neg]
    exact fun hin => h (List.suffix_nil.mp (Location.isWithin_iff.mp hin))
  · rw [remove, get?_restrict _ _ _ hroot]
    cases hin : other.isWithin place <;> simp

end Tree

end TestWrappers

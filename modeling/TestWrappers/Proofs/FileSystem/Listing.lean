import TestWrappers.Proofs.FileSystem.Building
import TestWrappers.Proofs.Path.Joining

/-!
# Entries of a Directory

What the entries of a directory lead to, and the orders in which they are listed.

The path of an entry goes on from the directory by one step. A directory is reached
by it and a file is no directory. A link is followed from the directory that it is
in, with as many links to spare as the way to the directory has left, so a link that
leads nowhere, to a file or in a circle leads to no directory.

The order of a listing is that of the nodes of the tree. Nothing but the listing
shows it: paths lead to the same places in trees with the same entries, and the
nodes can be put into any order.

## Main definitions

* `Tree.LeadsToDirectory`: What stands in a directory leads to a directory.
* `Tree.reorder`: The same entries in another order.

## Theorems

* `Tree.exists_same_names`: A directory can list its entries in any order.
* `FileSystem.locate_withTree_iff`: Paths do not depend on the order.
* `FileSystem.isDirectory_join_iff`: Which entries of a directory lead to directories.
-/

namespace TestWrappers

namespace Tree

variable {tree other : Tree}

theorem Same.symm (h : other.Same tree) : tree.Same other := fun place => (h place).symm

theorem Same.partOf (h : other.Same tree) : other.PartOf tree :=
  fun place _ hentry => (h place).symm.trans hentry

/-- A list can be put into an order in which its images stand in a given order. -/
theorem exists_perm_filterMap {α β : Type} (f : α → Option β) {order images : List β}
    (h : order.Perm images) : ∀ {all : List α}, all.filterMap f = images →
      ∃ nodes : List α, nodes.Perm all ∧ nodes.filterMap f = order := by
  induction h with
  | nil => exact fun {all} hall => ⟨all, .refl all, hall⟩
  | cons image _ ih =>
    intro all hall
    rcases List.filterMap_eq_cons_iff.mp hall with ⟨front, a, back, rfl, hfront, ha, hback⟩
    rcases ih hback with ⟨nodes, hperm, hnodes⟩
    refine ⟨front ++ a :: nodes, (hperm.cons a).append_left front, ?_⟩
    rw [List.filterMap_append, List.filterMap_cons_some ha, hnodes,
      List.filterMap_eq_nil_iff.mpr hfront, List.nil_append]
  | swap first second images =>
    intro all hall
    rcases List.filterMap_eq_cons_iff.mp hall with ⟨front, a, back, rfl, hfront, ha, hback⟩
    rcases List.filterMap_eq_cons_iff.mp hback with ⟨middle, b, last, rfl, hmiddle, hb, hlast⟩
    refine ⟨front ++ b :: (middle ++ a :: last), .append_left front ?_, ?_⟩
    · exact (List.perm_middle.cons b).trans
        ((List.Perm.swap a b _).trans (List.perm_middle.symm.cons a))
    · rw [List.filterMap_append, List.filterMap_cons_some hb, List.filterMap_append,
        List.filterMap_cons_some ha, List.filterMap_eq_nil_iff.mpr hfront,
        List.filterMap_eq_nil_iff.mpr hmiddle, hlast, List.nil_append, List.nil_append]
  | trans _ _ ih ih' =>
    intro all hall
    rcases ih' hall with ⟨nodes, hperm, hnodes⟩
    rcases ih hnodes with ⟨nodes', hperm', hnodes'⟩
    exact ⟨nodes', hperm'.trans hperm, hnodes'⟩

/-- The same entries in another order. -/
def reorder (tree : Tree) (nodes : List (Location × Entry)) (h : nodes.Perm tree.nodes) : Tree where
  nodes := nodes
  nodup := (h.map Prod.fst).nodup_iff.mpr tree.nodup
  held := by
    intro node hnode
    rcases tree.held node (h.mem_iff.mp hnode) with ⟨name, directory, hplace, hheld⟩
    exact ⟨name, directory, hplace, hheld.imp id h.mem_iff.mpr⟩

theorem same_reorder {nodes : List (Location × Entry)} (h : nodes.Perm tree.nodes) :
    (tree.reorder nodes h).Same tree := by
  intro place
  by_cases hroot : place = []
  · rw [hroot, get?_nil, get?_nil]
  · refine Option.ext fun entry => ?_
    rw [get?_eq_some_iff _ hroot, get?_eq_some_iff _ hroot]
    exact h.mem_iff

/-- A directory can list its entries in any order. -/
theorem exists_same_names {directory : Location} {order : List Name}
    (h : order.Perm (tree.names directory)) :
    ∃ other : Tree, other.Same tree ∧ other.names directory = order := by
  rcases exists_perm_filterMap _ h rfl with ⟨nodes, hperm, hnodes⟩
  exact ⟨tree.reorder nodes hperm, same_reorder hperm, hnodes⟩

/-- An entry of a directory leads to a directory, if so many links may be followed. -/
def LeadsToDirectory (tree : Tree) (links : Nat) (directory : Location) : Entry → Prop
  | .directory => True
  | .file _ => False
  | .link target => ∃ last,
    tree.walk links (target.route.start directory) target.route.toEnd = .ok last ∧
      tree.get? last = some .directory

/-- One step from a directory to an entry in it. -/
theorem walk_enter_iff {links : Nat} {directory : Location} {name : Name} {entry : Entry}
    (hentry : tree.get? (name :: directory) = some entry) :
    (∃ last, tree.walk (links + 1) directory [.enter name] = .ok last ∧
      tree.get? last = some .directory) ↔ tree.LeadsToDirectory links directory entry := by
  have hdir := get?_tail hentry
  cases entry with
  | directory =>
    refine iff_of_true ⟨name :: directory, ?_, hentry⟩ trivial
    simp only [walk, advance, hdir, hentry]
  | file contents =>
    refine iff_of_false ?_ not_false
    rintro ⟨last, hlast, hthere⟩
    simp only [walk, advance, hdir, hentry, Except.ok.injEq] at hlast
    rw [← hlast, hentry] at hthere
    cases hthere
  | link target =>
    simp only [walk, advance, hdir, hentry, List.append_nil]
    exact Iff.rfl

end Tree

namespace FileSystem

variable {files : FileSystem} {tree : Tree} {path source : Path} {place : Location}

/-- Where a path leads does not depend on the order of listing. -/
theorem locate_withTree_iff (h : tree.Same files.tree) :
    (files.withTree tree).locate path = .ok place ↔ files.locate path = .ok place := by
  rw [locate_eq_ok_iff, locate_eq_ok_iff]
  exact and_congr Iff.rfl
    ⟨fun hwalk => Tree.walk_of_partOf h.partOf hwalk,
      fun hwalk => Tree.walk_of_partOf h.symm.partOf hwalk⟩

theorem isDirectory_withTree (h : tree.Same files.tree) (path : Path) :
    (files.withTree tree).isDirectory path = files.isDirectory path := by
  rw [Bool.eq_iff_iff, isDirectory_iff_locate, isDirectory_iff_locate]
  exact exists_congr fun place =>
    and_congr (locate_withTree_iff h) (iff_of_eq (congrArg (· = some Entry.directory) (h place)))

/-- The path of an entry has no byte that neither the path of the directory nor the
    name has, but for the separator. -/
theorem mem_join {name : Name} {b : UInt8} (h : b ∈ (source.join ⟨name.bytes⟩).bytes) :
    b ∈ source.bytes ∨ b = Path.separator ∨ b ∈ name.bytes := by
  unfold Path.join at h
  split at h
  · exact Or.inr (Or.inr h)
  · split at h
    · exact (List.mem_append.mp h).imp id Or.inr
    · exact (List.mem_append.mp h).imp id List.mem_cons.mp

/-- The path of an entry can be looked up if it is not too long. -/
theorem route_join_iff (hsource : files.route source = .ok source.route) (name : Name) :
    files.route (source.join ⟨name.bytes⟩) = .ok (source.join ⟨name.bytes⟩).route ↔
      files.isTooLong (source.join ⟨name.bytes⟩) = false := by
  rw [route_eq_ok_iff]
  constructor
  · exact fun h => h.2.2.1
  · intro hlong
    refine ⟨fun hzero => ?_, fun hnil => ?_, hlong, rfl⟩
    · rcases mem_join hzero with hin | hsep | hin
      · exact ((route_eq_ok_iff _ _ _).mp hsource).1 hin
      · exact absurd hsep (by decide)
      · exact name.valid.2.2.2.2.1 hin
    · -- A path that ends in a name is not empty.
      have hlast := Path.getLast?_join source name.valid.1
      rw [hnil, List.getLast?_nil, eq_comm, List.getLast?_eq_none_iff] at hlast
      exact name.valid.1 hlast

/-- Which entries of a directory lead to directories. A directory does and a file does
    not. A link does if its target does, for the links that the way to the directory
    has left. No path that is too long leads anywhere. -/
theorem isDirectory_join_iff (hplace : files.locate source = .ok place) :
    ∃ links, (∀ steps, files.tree.walk (maxLinks + 1) (source.route.start files.workingDirectory)
        (source.route.steps ++ steps) = files.tree.walk (links + 1) place steps) ∧
      ∀ name entry, files.tree.get? (name :: place) = some entry →
        (files.isDirectory (source.join ⟨name.bytes⟩) = true ↔
          files.isTooLong (source.join ⟨name.bytes⟩) = false ∧
            files.tree.LeadsToDirectory links place entry) := by
  rcases (locate_eq_ok_iff _ _ _).mp hplace with ⟨hroute, hwalk⟩
  rcases Tree.walk_append_of_ok (Tree.walk_steps_of_toEnd hwalk) with ⟨links, hlinks⟩
  refine ⟨links, hlinks, fun name entry hentry => ?_⟩
  have hjoin := Path.route_join_name source name
  have hwalks : files.walkOf (source.join ⟨name.bytes⟩) (source.join ⟨name.bytes⟩).route.toEnd =
      files.tree.walk (links + 1) place [.enter name] := by
    rw [← hlinks, walkOf, hjoin]
    rfl
  rw [isDirectory_iff_locate, ← route_join_iff hroute, ← Tree.walk_enter_iff hentry, ← hwalks]
  simp only [locate_eq_ok_iff, and_assoc, exists_and_left]

end FileSystem

end TestWrappers

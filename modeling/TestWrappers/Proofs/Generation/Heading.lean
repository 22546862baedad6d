import TestWrappers.Proofs.FileSystem.Heading
import TestWrappers.Proofs.Generation.Sparing

/-!
# Where Configurations Head

That the paths of configurations go on heading for the same entries.

A configuration may take links away, namely those in its directory and a link in place of it,
and it never adds any. So a later one heads for the same entry as before unless a link on its
way was among them. This can be seen from the files that the run starts with: what earlier
configurations head for is known from there as well, one after the other.

## Main definitions

* `Generation.headings`: The entries that configurations head for.
* `Generation.WaysKept`: No configuration takes a link from the way of a later one.

## Theorems

* `Generation.linksLeft_of_ending`: The links that one configuration leaves.
* `Generation.linksLeft_of_foldlM`: Those that several of them leave.
* `Generation.heading?_of_foldlM`: A later configuration heads for the same entry.
-/

namespace TestWrappers

namespace Generation

/-- The entries that the paths of configurations are for. -/
def headings (files : FileSystem) (configs : List Configuration) : List Location :=
  configs.filterMap fun config => files.heading? config.outputDir

/-- No link on the way of a configuration is at or inside the entry that an earlier one is for. -/
def WaysKept (files : FileSystem) (configs : List Configuration) : Prop :=
  configs.Pairwise fun earlier later => ∀ link ∈ files.linksMet later.outputDir,
    ∀ entry ∈ files.heading? earlier.outputDir, link.isWithin entry = false

instance (files : FileSystem) (configs : List Configuration) :
    Decidable (WaysKept files configs) :=
  inferInstanceAs (Decidable (List.Pairwise _ configs))

variable {config : Configuration} {layout : Layout} {files reached : FileSystem}
  {result : Except Failure Nat} {world after : World}

theorem headings_concat (files : FileSystem) (configs : List Configuration)
    (config : Configuration) : headings files (configs ++ [config]) =
      headings files configs ++ (files.heading? config.outputDir).toList := by
  unfold headings
  rw [List.filterMap_append, List.filterMap_cons]
  cases files.heading? config.outputDir <;> rfl

theorem workingDirectory_of_ending (h : Ending config files result reached) :
    reached.workingDirectory = files.workingDirectory := by
  rcases exists_stages h with ⟨left, base, hreduced, hgrown, hlast⟩
  have hbase := hgrown.workingDirectory.trans hreduced.workingDirectory
  rcases hlast with rfl | ⟨_, _, _, hfilled⟩
  · exact hbase
  · exact hfilled.stocked.workingDirectory.trans hbase

/-- A configuration takes no links away but those at or inside the entry that it is for. -/
theorem linksLeft_of_ending (hconfig : config ∈ configurations layout)
    (hup : Path.Component.up ∉ layout.outputDir.components)
    (h : Ending config files result reached) :
    files.LinksLeft (files.heading? config.outputDir).toList reached := by
  rcases Configuration.route_of_mem hconfig hup with ⟨_, ⟨name, hlast⟩, hslash⟩
  refine ⟨workingDirectory_of_ending h, fun place target hlink => ?_,
    fun place target hlink hout => ?_⟩
  · rw [Tree.link?_eq_some_iff] at hlink ⊢
    -- Only directories and files are made.
    rcases new_of_ending h hlink with hold | ⟨hdir, _⟩ | ⟨_, _, _, _, _, _, _, _, hfile⟩
    · exact hold
    · cases hdir
    · cases hfile
  · rw [Tree.link?_eq_some_iff] at hlink ⊢
    refine kept_of_ending h hlink fun htaken => ?_
    -- What is taken is at or inside the entry that the path leads to, so it heads for that one.
    rcases htaken with ⟨_, entry, hentry, hin⟩
    have hheading := FileSystem.heading?_of_locateEntry hlast hslash hentry
    have hfar := hout entry (Option.mem_toList.mpr hheading)
    exact absurd (hfar.symm.trans hin) Bool.false_ne_true

/-- Links on the way of a configuration are not among those that earlier ones take away. -/
theorem WaysKept.far {complete left : List Configuration}
    (h : WaysKept files (complete ++ left)) (hconfig : config ∈ left) :
    ∀ link ∈ files.linksMet config.outputDir, ∀ entry ∈ headings files complete,
      link.isWithin entry = false := by
  intro link hlink entry hentry
  rcases List.mem_filterMap.mp hentry with ⟨earlier, hearlier, hheading⟩
  exact (List.pairwise_append.mp h).2.2 earlier hearlier config hconfig link hlink entry hheading

/-- Configurations that are done one after the other take no links away but those at or inside
    the entries that they were for at the start. -/
theorem linksLeft_of_foldlM {complete more : List Configuration} {start summary : Summary}
    (hup : Path.Component.up ∉ layout.outputDir.components)
    (hmore : ∀ config ∈ more, config ∈ configurations layout)
    (hways : WaysKept files (complete ++ more))
    (hleft : files.LinksLeft (headings files complete) world.files)
    (h : (more.foldlM generateNext start : Run Summary) world = (.ok summary, after)) :
    files.LinksLeft (headings files (complete ++ more)) after.files := by
  induction more generalizing complete start world with
  | nil =>
    rcases Prod.mk.inj h with ⟨_, rfl⟩
    rw [List.append_nil]
    exact hleft
  | cons config more ih =>
    rcases (Run.run_foldlM_cons_eq_ok_iff _ _ _ _ _ _ _).mp h with ⟨next, middle, hfirst, hrest⟩
    rcases (run_generateNext_eq_ok_iff _ _ _ _ _).mp hfirst with ⟨count, hrun, _⟩
    have hconfig := hmore config List.mem_cons_self
    -- When its turn comes, the configuration is still for the entry that it was for.
    have hsame := hleft.heading? (hways.far List.mem_cons_self)
    have hstep := linksLeft_of_ending hconfig hup (ending_of_run hconfig hup hrun)
    have hmiddle := hleft.trans hstep
    rw [hsame, ← headings_concat] at hmiddle
    rw [List.append_cons] at hways ⊢
    exact ih (fun other hmem => hmore other (List.mem_cons_of_mem config hmem)) hways hmiddle hrest

/-- When the turn of a configuration comes, it is for the entry that it was for at the start. -/
theorem heading?_of_foldlM {earlier later : List Configuration} {start summary : Summary}
    (hup : Path.Component.up ∉ layout.outputDir.components)
    (hconfigs : configurations layout = earlier ++ config :: later)
    (hways : WaysKept world.files (configurations layout))
    (h : (earlier.foldlM generateNext start : Run Summary) world = (.ok summary, after)) :
    after.files.heading? config.outputDir = world.files.heading? config.outputDir := by
  rw [hconfigs] at hways
  -- Nothing is lost at the start, and the earlier ones go on from there.
  have hearlier : WaysKept world.files ([] ++ earlier) := (List.pairwise_append.mp hways).1
  have hleft := linksLeft_of_foldlM hup (fun _ => Configuration.mem_of_mem_front hconfigs)
    hearlier (FileSystem.LinksLeft.refl world.files) h
  exact hleft.heading? (hways.far List.mem_cons_self)

end Generation

end TestWrappers

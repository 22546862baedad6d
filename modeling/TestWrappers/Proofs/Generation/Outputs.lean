import Mathlib.Data.List.Nodup
import TestWrappers.Configuration
import TestWrappers.Proofs.FileSystem.Landing

/-!
# The Directories of Configurations

Where the five configurations of a layout put their wrappers.

Each configuration has a directory of its own, two levels below the directory of
the layout: one level for the toolchain and one for the tool. The names of the
two levels are known, so no path has to be looked at to tell the directories
apart, and none of them is inside another because all are equally deep.

## Main definitions

* `Configuration.folders`: The two levels, the inner one first.

## Theorems

* `Configuration.outputDir_of_mem`: The directory of a configuration is two
  levels below that of its layout.
* `Configuration.landing_of_mem`: So is the location that it names.
* `Configuration.nodup_folders`: No two configurations have the same levels.
* `Configuration.eq_of_landing_eq`: Nor do two of them have the same location.
* `Configuration.eq_of_isWithin_landing`: Nor is one inside another.
-/

namespace TestWrappers

/-- The name of a tool is the name of an entry. -/
theorem Tool.exists_name (tool : Tool) : ∃ name : Name, name.bytes = Utf8.encode tool.name := by
  cases tool with
  | r8 => exact ⟨⟨Utf8.encode "r8", by decide⟩, rfl⟩
  | d8 => exact ⟨⟨Utf8.encode "d8", by decide⟩, rfl⟩
  | r8cf => exact ⟨⟨Utf8.encode "r8cf", by decide⟩, rfl⟩

namespace Configuration

/-- The names of the directories between the directory of a layout and the
    wrappers of a configuration, the inner one first. -/
def folders (config : Configuration) : Location :=
  [config.tool.name, config.toolchain.name].filterMap fun text => Name.ofBytes? (Utf8.encode text)

theorem nodup_folders (layout : Layout) : ((configurations layout).map folders).Nodup := by
  -- The names do not depend on the layout.
  have hpairs : (configurations layout).map folders =
      [("r8", "dx"), ("d8", "dx"), ("r8", "none"), ("d8", "none"), ("r8cf", "none")].map
        fun pair => [pair.1, pair.2].filterMap fun text => Name.ofBytes? (Utf8.encode text) := rfl
  rw [hpairs]
  decide

theorem toolchain_of_mem {layout : Layout} {config : Configuration}
    (h : config ∈ configurations layout) : config.toolchain = .dx ∨ config.toolchain = .none := by
  rcases List.mem_flatMap.mp h with ⟨toolchain, htoolchain, hconfig⟩
  rcases List.mem_filterMap.mp hconfig with ⟨tool, _, hof⟩
  rcases Option.map_eq_some_iff.mp hof with ⟨constant, _, rfl⟩
  rcases List.mem_cons.mp htoolchain with rfl | hnone
  · exact Or.inl rfl
  · exact Or.inr (List.mem_singleton.mp hnone)

theorem paths_of_mem {layout : Layout} {config : Configuration}
    (h : config ∈ configurations layout) :
    config.sourceDir = layout.testDir.join (.ofString "dx") ∧
      config.outputDir = (layout.outputDir.join (.ofString config.toolchain.name)).join
        (.ofString config.tool.name) := by
  have htoolchain := toolchain_of_mem h
  rcases List.mem_flatMap.mp h with ⟨toolchain, _, hconfig⟩
  rcases List.mem_filterMap.mp hconfig with ⟨tool, _, hof⟩
  rcases Option.map_eq_some_iff.mp hof with ⟨constant, _, rfl⟩
  refine ⟨?_, rfl⟩
  rcases htoolchain with heq | heq
  · rw [show toolchain = .dx from heq]
    rfl
  · rw [show toolchain = .none from heq]
    rfl

/-- The directory of a configuration is two levels below that of its layout. -/
theorem outputDir_of_mem {layout : Layout} {config : Configuration}
    (h : config ∈ configurations layout) :
    ∃ outer inner : Name, config.folders = [inner, outer] ∧
      config.outputDir = (layout.outputDir.join ⟨outer.bytes⟩).join ⟨inner.bytes⟩ := by
  have hpath := (paths_of_mem h).2
  -- So are the names of toolchains.
  have htoolchain : ∃ outer : Name, outer.bytes = Utf8.encode config.toolchain.name := by
    rcases toolchain_of_mem h with heq | heq
    · exact ⟨⟨Utf8.encode "dx", by decide⟩, by rw [heq]; rfl⟩
    · exact ⟨⟨Utf8.encode "none", by decide⟩, by rw [heq]; rfl⟩
  rcases config.tool.exists_name with ⟨inner, hinner⟩
  rcases htoolchain with ⟨outer, houter⟩
  refine ⟨outer, inner, ?_, ?_⟩
  · have htool := Name.ofBytes?_eq_some_iff.mpr hinner
    have htoolchain := Name.ofBytes?_eq_some_iff.mpr houter
    simp only [folders, List.filterMap_cons, htool, htoolchain, List.filterMap_nil]
  · rw [hpath, hinner, houter]
    rfl

/-- The directory of a configuration lands two levels below that of its layout. -/
theorem landing_of_mem {layout : Layout} {config : Configuration}
    (h : config ∈ configurations layout) (directory : Location) :
    config.outputDir.landing directory = config.folders ++ layout.outputDir.landing directory := by
  rcases outputDir_of_mem h with ⟨outer, inner, hfolders, hpath⟩
  rw [hpath, hfolders, Path.landing_join, Path.landing_join]
  rfl

theorem length_folders {layout : Layout} {config : Configuration}
    (h : config ∈ configurations layout) : config.folders.length = 2 := by
  rcases outputDir_of_mem h with ⟨outer, inner, hfolders, _⟩
  rw [hfolders]
  rfl

/-- Configurations whose directories land at one location are the same. -/
theorem eq_of_landing_eq {layout : Layout} {a b : Configuration}
    (ha : a ∈ configurations layout) (hb : b ∈ configurations layout) {directory : Location}
    (h : a.outputDir.landing directory = b.outputDir.landing directory) : a = b := by
  rw [landing_of_mem ha, landing_of_mem hb, List.append_cancel_right_eq] at h
  exact List.inj_on_of_nodup_map (nodup_folders layout) ha hb h

theorem length_landing_of_mem {layout : Layout} {config : Configuration}
    (h : config ∈ configurations layout) (directory : Location) :
    (config.outputDir.landing directory).length =
      2 + (layout.outputDir.landing directory).length := by
  rw [landing_of_mem h, List.length_append, length_folders h]

/-- No directory of a configuration lands inside another one. -/
theorem eq_of_isWithin_landing {layout : Layout} {a b : Configuration}
    (ha : a ∈ configurations layout) (hb : b ∈ configurations layout) {directory : Location}
    (h : (a.outputDir.landing directory).isWithin (b.outputDir.landing directory) = true) :
    a = b := by
  -- All of them are equally deep, so the inner one is the outer one.
  have hle : (a.outputDir.landing directory).length ≤ (b.outputDir.landing directory).length := by
    rw [length_landing_of_mem ha, length_landing_of_mem hb]
  exact eq_of_landing_eq ha hb (Location.eq_of_isWithin h hle)

theorem mem_of_eq_append {layout : Layout} {complete left : List Configuration}
    {config : Configuration} (h : configurations layout = complete ++ config :: left) :
    config ∈ configurations layout :=
  h ▸ List.mem_append_right complete List.mem_cons_self

theorem mem_of_mem_front {layout : Layout} {complete left : List Configuration}
    (h : configurations layout = complete ++ left) {config : Configuration}
    (hin : config ∈ complete) : config ∈ configurations layout :=
  h ▸ List.mem_append_left left hin

/-- A configuration stands only once among those of a layout. -/
theorem notMem_of_eq_append {layout : Layout} {complete left : List Configuration}
    {config : Configuration} (h : configurations layout = complete ++ config :: left) :
    config ∉ complete ∧ config ∉ left := by
  have hnodup := (nodup_folders layout).of_map
  rw [h] at hnodup
  rcases List.nodup_append.mp hnodup with ⟨_, hrest, hapart⟩
  exact ⟨fun hin => hapart config hin config List.mem_cons_self rfl,
    (List.nodup_cons.mp hrest).1⟩

/-- The path of a configuration's directory ends in a name, and climbs only if
    that of its layout does. -/
theorem route_of_mem {layout : Layout} {config : Configuration}
    (h : config ∈ configurations layout) (hup : Path.Component.up ∉ layout.outputDir.components) :
    Step.climb ∉ config.outputDir.route.steps ∧
      (∃ name, config.outputDir.route.last? = some (.enter name)) ∧
      config.outputDir.route.slash = false := by
  rcases outputDir_of_mem h with ⟨outer, inner, _, hpath⟩
  have hclimb := Path.climb_notMem_of_up_notMem
    (Path.up_notMem_join (Path.up_notMem_join hup outer) inner)
  rw [hpath]
  refine ⟨hclimb, ⟨inner, ?_⟩, ?_⟩
  · rw [Path.route_join_name]
    exact List.getLast?_concat
  · rw [Path.route_join_name]

end Configuration

end TestWrappers

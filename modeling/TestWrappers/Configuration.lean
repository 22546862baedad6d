import TestWrappers.Layout
import TestWrappers.Text.Uppercase

/-!
# Configurations

What a set of wrappers is about: the tool under test and the toolchain whose
output it is given.

Not every tool goes with every toolchain. A tool under test is known to the
suite by a constant that says what it stands for under a given toolchain, and a
pair without a constant gets no wrappers. `configurations` lists the pairs that
do, toolchain by toolchain, together with the directory the test cases come
from and the directory the wrappers go to.

Both toolchains use the test cases of the same fixture set.

## Main definitions

* `Toolchain`, `Tool`: The two sides of a pair.
* `Tool.constant?`: The constant of a tool under a toolchain.
* `Configuration`: A pair and its directories.
* `configurations`: The configurations of a layout.

## Theorems

* `length_configurations`: There are five of them.
-/

namespace TestWrappers

/-- Where the code under test comes from. -/
structure Toolchain where
  /-- The name of the toolchain. -/
  name : String
  /-- The fixture set its test cases are taken from. -/
  fixture : String
deriving DecidableEq, Repr

namespace Toolchain

/-- The toolchain that compiles the test cases beforehand. -/
def dx : Toolchain := ⟨"dx", "dx"⟩

/-- The toolchain that leaves the test cases as they are. -/
def none : Toolchain := ⟨"none", "dx"⟩

/-- The toolchains, in the order in which they are gone through. -/
def all : List Toolchain := [dx, none]

/-- The constant by which the suite knows a toolchain: its name in capitals. -/
def constant (toolchain : Toolchain) : String := Uppercase.ofString toolchain.name

end Toolchain

/-- What is under test. -/
inductive Tool where
  | r8
  | d8
  | r8cf
deriving DecidableEq, Repr

namespace Tool

/-- The tools, in the order in which they are gone through. -/
def all : List Tool := [r8, d8, r8cf]

/-- The name of a tool. -/
def name : Tool → String
  | r8 => "r8"
  | d8 => "d8"
  | r8cf => "r8cf"

/-- The tool of a name. -/
def ofName? (name : String) : Option Tool := all.find? (·.name == name)

/-- The constant by which the suite knows a tool under a toolchain. The last
    tool makes sense on uncompiled test cases only, and the second is run after
    another one there. -/
def constant? (tool : Tool) (toolchain : Toolchain) : Option String :=
  match tool with
  | r8 => some "R8"
  | d8 => if toolchain.name = "none" then some "R8_AFTER_D8" else some "D8"
  | r8cf => if toolchain.name = "none" then some "D8_AFTER_R8CF" else none

theorem ofName?_name (tool : Tool) : ofName? tool.name = some tool := by
  cases tool <;> rfl

end Tool

/-- What a set of wrappers is about, and where it comes from and goes to. -/
structure Configuration where
  /-- The tool under test. -/
  tool : Tool
  /-- The constant of the tool. -/
  toolConstant : String
  /-- The toolchain whose output the tool is given. -/
  toolchain : Toolchain
  /-- The directory that holds the test cases. -/
  sourceDir : Path
  /-- The directory that holds the wrappers. -/
  outputDir : Path
deriving DecidableEq, Repr

namespace Configuration

/-- The configuration of a pair, if the pair has one. -/
def of? (layout : Layout) (toolchain : Toolchain) (tool : Tool) : Option Configuration :=
  (tool.constant? toolchain).map fun constant =>
    { tool := tool
      toolConstant := constant
      toolchain := toolchain
      sourceDir := layout.testDir.join (.ofString toolchain.fixture)
      outputDir := (layout.outputDir.join (.ofString toolchain.name)).join (.ofString tool.name) }

/-- The two configurations are about the same and name the same places, however
    these are spelled. -/
def sameAs (a b : Configuration) : Bool :=
  a.tool == b.tool && a.toolConstant == b.toolConstant && a.toolchain == b.toolchain &&
    a.sourceDir.sameAs b.sourceDir && a.outputDir.sameAs b.outputDir

end Configuration

/-- The configurations of a layout, toolchain by toolchain. -/
def configurations (layout : Layout) : List Configuration :=
  Toolchain.all.flatMap fun toolchain =>
    Tool.all.filterMap (Configuration.of? layout toolchain)

theorem length_configurations (layout : Layout) : (configurations layout).length = 5 := rfl

end TestWrappers

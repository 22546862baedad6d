import TestWrappers.Configuration
import TestWrappers.Template.Substitute
import TestWrappers.Wrapper.Source

/-!
# Wrappers

The Java class that runs one test case under one configuration.

A test case is known by its name, which is the name of its directory. Not every
name can be part of a Java name: a hyphen cannot, so it becomes an underscore.
Two names that differ in nothing else give one class, and the file of that class
is the one written last.

What a wrapper says besides the name of the test case is taken from the
configuration. The values go into the text as they are.

## Main definitions

* `TestCase`: A test case, by its name.
* `TestCase.className`, `TestCase.fileName`: The class and its file.
* `Wrapper.bindings`: The values a wrapper is filled in with.
* `Wrapper.render`: The text of a wrapper.

## Theorems

* `TestCase.toList_className`: The characters of the class name.
-/

namespace TestWrappers

/-- A test case. -/
structure TestCase where
  /-- The name of the test case and of its directory. -/
  name : String
deriving DecidableEq, Repr

namespace TestCase

/-- The ending of the name of a file with a Java class. -/
def extension : String := "java"

/-- A character of the name as it stands in the name of the class. -/
def classChar (c : Char) : Char := if c = '-' then '_' else c

/-- The class of the wrapper. -/
def className (test : TestCase) : String :=
  "Art" ++ String.ofList (test.name.toList.map classChar) ++ "Test"

/-- The file of the wrapper, inside the directory of the configuration. -/
def fileName (test : TestCase) : String := test.className ++ "." ++ extension

theorem toList_className (test : TestCase) :
    test.className.toList =
      "Art".toList ++ test.name.toList.map classChar ++ "Test".toList := by
  simp only [className, String.toList_append, String.toList_ofList]

end TestCase

namespace Wrapper

/-- The values that the wrapper of a test case is filled in with. -/
def bindings (test : TestCase) (config : Configuration) : Bindings
  | "name" => some test.name
  | "compilerUnderTest" => some config.tool.name
  | "compilerUnderTestEnum" => some config.toolConstant
  | "testGeneratingToolchain" => some config.toolchain.name
  | "testGeneratingToolchainEnum" => some config.toolchain.constant
  | "testClassName" => some test.className
  | _ => none

/-- The text of the wrapper of a test case under a configuration. -/
def render (test : TestCase) (config : Configuration) : Except Template.Fault String :=
  Template.substitute source (bindings test config)

end Wrapper

end TestWrappers

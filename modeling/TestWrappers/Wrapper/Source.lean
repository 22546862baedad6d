/-!
# The Text of a Wrapper

The Java class that a wrapper consists of, as a template.

The class hands one test case to the runner of the suite. Everything in it is
the same for all test cases and configurations except the ten places where a
value is filled in: the package and the class are named for the configuration
and the test case, and the call of the runner says which of them it is about.

The text is kept line by line, and every line ends in a line break.

## Main definitions

* `Wrapper.lines`: The lines of the template.
* `Wrapper.source`: The template.

## Theorems

* `Wrapper.toList_source`: The characters of the template are those of its
  lines, each with its line break.
-/

namespace TestWrappers

namespace Wrapper

/-- The lines of the template, without their line breaks. -/
def lines : List String :=
  [
    "// Copyright (c) 2016, the R8 project authors. Please see the AUTHORS file",
    "// for details. All rights reserved. Use of this source code is governed by a",
    "// BSD-style license that can be found in the LICENSE file.",
    "package com.android.tools.r8.art.$testGeneratingToolchain.$compilerUnderTest;",
    "",
    "import static com.android.tools.r8.R8RunArtTestsTest.DexTool.$testGeneratingToolchainEnum;",
    "",
    "import com.android.tools.r8.R8RunArtTestsTest;",
    "import com.android.tools.r8.TestBase;",
    "import com.android.tools.r8.TestParameters;",
    "import com.android.tools.r8.TestParametersCollection;",
    "import com.android.tools.r8.ToolHelper.DexVm;",
    "import org.junit.Test;",
    "import org.junit.runner.RunWith;",
    "import org.junit.runners.Parameterized;",
    "import org.junit.runners.Parameterized.Parameters;",
    "",
    "/**",
    " * Auto-generated test for the art $name test using the $testGeneratingToolchain toolchain.",
    " *",
    " * DO NOT EDIT THIS FILE. EDIT THE TEMPLATE IN art-testgen's src/art_test.rs INSTEAD!",
    " */",
    "@RunWith(Parameterized.class)",
    "public class $testClassName extends R8RunArtTestsTest \x7b",
    "",
    "    @Parameters(name = \"\x7b0\x7d\")",
    "    public static TestParametersCollection data() \x7b",
    "      return TestBase.getTestParameters().withDexRuntimes().build();",
    "    \x7d",
    "",
    "    private final TestParameters parameters;",
    "",
    "    public $testClassName(TestParameters parameters) \x7b",
    "      super(\"$name\", $testGeneratingToolchainEnum);",
    "      this.parameters = parameters;",
    "    \x7d",
    "",
    "    @Test",
    "    public void test() throws Throwable \x7b",
    "      runArtTest(parameters.getRuntime().asDex().getVm(), CompilerUnderTest.$compilerUnderTestEnum);",
    "    \x7d",
    "\x7d"
  ]

/-- The template of a wrapper. -/
def source : String := String.ofList (lines.flatMap fun line => line.toList ++ ['\n'])

theorem toList_source : source.toList = lines.flatMap fun line => line.toList ++ ['\n'] :=
  String.toList_ofList

end Wrapper

end TestWrappers

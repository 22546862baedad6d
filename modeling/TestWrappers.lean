import TestWrappers.FileSystem.Survey
import TestWrappers.Generation.Run
import TestWrappers.Main
import TestWrappers.Proofs.CommandLine.Arranging
import TestWrappers.Proofs.CommandLine.Reading
import TestWrappers.Proofs.FileSystem.Building
import TestWrappers.Proofs.FileSystem.Clearing
import TestWrappers.Proofs.FileSystem.Emptying
import TestWrappers.Proofs.FileSystem.Heading
import TestWrappers.Proofs.FileSystem.Landing
import TestWrappers.Proofs.FileSystem.Listing
import TestWrappers.Proofs.FileSystem.Making
import TestWrappers.Proofs.FileSystem.Refusing
import TestWrappers.Proofs.FileSystem.Remaking
import TestWrappers.Proofs.FileSystem.Seating
import TestWrappers.Proofs.FileSystem.Sparing
import TestWrappers.Proofs.FileSystem.Stocking
import TestWrappers.Proofs.FileSystem.Walking
import TestWrappers.Proofs.Generation.Adding
import TestWrappers.Proofs.Generation.Apart
import TestWrappers.Proofs.Generation.Counting
import TestWrappers.Proofs.Generation.Discovery
import TestWrappers.Proofs.Generation.Ending
import TestWrappers.Proofs.Generation.Exact
import TestWrappers.Proofs.Generation.Failing
import TestWrappers.Proofs.Generation.Filling
import TestWrappers.Proofs.Generation.Finding
import TestWrappers.Proofs.Generation.Heading
import TestWrappers.Proofs.Generation.Identity
import TestWrappers.Proofs.Generation.Obstacles
import TestWrappers.Proofs.Generation.Outputs
import TestWrappers.Proofs.Generation.Renewal
import TestWrappers.Proofs.Generation.Repeating
import TestWrappers.Proofs.Generation.Reset
import TestWrappers.Proofs.Generation.Rooting
import TestWrappers.Proofs.Generation.Running
import TestWrappers.Proofs.Generation.Sameness
import TestWrappers.Proofs.Generation.Sparing
import TestWrappers.Proofs.Generation.Success
import TestWrappers.Proofs.Generation.Telling
import TestWrappers.Proofs.Generation.Verbatim
import TestWrappers.Proofs.Generation.Whole
import TestWrappers.Proofs.Path.Joining
import TestWrappers.Proofs.Path.Passage
import TestWrappers.Proofs.Path.Plain
import TestWrappers.Proofs.Path.Rooting
import TestWrappers.Proofs.Path.Sameness
import TestWrappers.Proofs.Template.Announcing
import TestWrappers.Proofs.Template.Composing
import TestWrappers.Proofs.Template.Cutting
import TestWrappers.Proofs.Template.Dependence
import TestWrappers.Proofs.Template.Faults
import TestWrappers.Proofs.Template.Grammar
import TestWrappers.Proofs.Template.Turning
import TestWrappers.Proofs.Text.Bytes
import TestWrappers.Proofs.Text.Lines
import TestWrappers.Proofs.Text.Occurrence
import TestWrappers.Proofs.Text.Offset
import TestWrappers.Proofs.Wrapper.Contract
import TestWrappers.Proofs.Wrapper.Lines
import TestWrappers.Proofs.Wrapper.Names
import TestWrappers.Proofs.Wrapper.Rendering

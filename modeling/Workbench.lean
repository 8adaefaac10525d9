import Workbench.Main
import Workbench.Proofs.Artifact.Locate
import Workbench.Proofs.Compiler.Launch
import Workbench.Proofs.Diagnostic.Printing
import Workbench.Proofs.Engine.Diagnostics
import Workbench.Proofs.Path
import Workbench.Record
import Workbench.Proofs.Engine.Launches
import Workbench.Proofs.Machine.Disk
import Workbench.Proofs.Engine.Markers
import Workbench.Proofs.Engine.Answers
import Workbench.Proofs.Artifact.Defaults
import Workbench.Proofs.Engine.Announcement
import Workbench.Proofs.Settings.Save
import Workbench.Proofs.Session
import Workbench.Proofs.Settings.Unsaved
import Workbench.Proofs.Engine.Advice
import Workbench.Proofs.CommandLine.Ending
import Workbench.Proofs.View.Source
import Workbench.Proofs.View.Problems
import Workbench.Proofs.View.Numbering
import Workbench.Proofs.Engine.Search
import Workbench.Proofs.Diagnostic.TrailingBlanks
import Workbench.Proofs.Diagnostic.Origin
import Workbench.Proofs.Diagnostic.Batches
import Workbench.Proofs.Diagnostic.Shadowing
import Workbench.Proofs.Diagnostic.Severity
import Workbench.Proofs.Engine.ProgramOutput
import Workbench.Proofs.Engine.Transcript
import Workbench.Proofs.Watch
import Workbench.Proofs.Artifact.Placeholders
import Workbench.Proofs.Artifact.Joins
import Workbench.Proofs.Engine.Listings
import Workbench.Proofs.View.Underline
import Workbench.Proofs.Screen.Events
import Workbench.Proofs.Screen.Arguments

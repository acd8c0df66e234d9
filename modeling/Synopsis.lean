import Synopsis.Extract
import Synopsis.Category
import Synopsis.IgnoreRule
import Synopsis.Json.Printer
import Synopsis.Size
import Synopsis.Table
import Synopsis.Stack
import Synopsis.Command.Basic
import Synopsis.Command.Reports
import Synopsis.Options.Invocation
import Synopsis.Program
import Synopsis.Proofs.Disk.Spelling
import Synopsis.Proofs.Disk.Agreement
import Synopsis.Proofs.Ecma.Exports
import Synopsis.Proofs.Scan.Exact
import Synopsis.Proofs.Command.Refusal
import Synopsis.Proofs.Command.Report
import Synopsis.Proofs.Command.Stages
import Synopsis.Proofs.Settings
import Synopsis.Proofs.Endpoint
import Synopsis.Proofs.Manifest
import Synopsis.Proofs.Command.History
import Synopsis.Proofs.Record
import Synopsis.Proofs.Ecma.Places
import Synopsis.Proofs.Ecma.Declarations
import Synopsis.Proofs.Disk.Opening
import Synopsis.Proofs.Path
import Synopsis.Proofs.Disk.Holding
import Synopsis.Proofs.Scan.Copies
import Synopsis.Proofs.Project
import Synopsis.Proofs.Tally
import Synopsis.Proofs.Project.Counts
import Synopsis.Proofs.Project.Links
import Synopsis.Proofs.Command.Keys
import Synopsis.Proofs.Command.Limits
import Synopsis.Proofs.Ecma.Walk
import Synopsis.Proofs.Ecma.Culprits
import Synopsis.Proofs.Ecma.Gathering
import Synopsis.Proofs.Ecma.Order
import Synopsis.Proofs.IgnoreRule
import Synopsis.Proofs.Scan.LastName
import Synopsis.Proofs.Project.Manifests
import Synopsis.Proofs.Command.Faults
import Synopsis.Proofs.Program
import Synopsis.Proofs.IgnoreRule.Anchored
import Synopsis.Proofs.Json.Shape
import Synopsis.Proofs.Python.Lines
import Synopsis.Proofs.Text.Blank
import Synopsis.Proofs.Python.Numbering
import Synopsis.Proofs.Python.Patterns
import Synopsis.Proofs.Python.Heads
import Synopsis.Proofs.Python.Names
import Synopsis.Proofs.Project.Directories
import Synopsis.Proofs.Project.EntryPoints
import Synopsis.Proofs.Category
import Synopsis.Proofs.Requirement
import Synopsis.Proofs.Requirement.Readers
import Synopsis.Proofs.Manifest.Contributions
import Synopsis.Proofs.Size.Scale
import Synopsis.Proofs.Report.Console
import Synopsis.Proofs.Report.Tree
import Synopsis.Proofs.Output.Remains
import Synopsis.Proofs.Endpoint.Completions
import Synopsis.Proofs.Table.MostCommon
import Synopsis.Proofs.Settings.Places
import Synopsis.Proofs.Endpoint.Resolution
import Synopsis.Proofs.Endpoint.Payload
import Synopsis.Proofs.Report.Limits
import Synopsis.Proofs.Report.Cells
import Synopsis.Proofs.Report.Fences
import Synopsis.Proofs.Report.Prompt
import Synopsis.Proofs.Stack

import RunAudit.File.Tree
import RunAudit.Main
import RunAudit.Stream.Output
import RunAudit.Proofs.Audit
import RunAudit.Proofs.Fields
import RunAudit.Proofs.Xml.Arena
import RunAudit.Proofs.Xml.Lockstep
import RunAudit.Proofs.Xml.Rendering
import RunAudit.Proofs.Xml.Structure
import RunAudit.Proofs.Xml.Truncation
import RunAudit.Proofs.Xml.Walk
import RunAudit.Proofs.Junit.Reading
import RunAudit.Proofs.Report.Junit
import RunAudit.Proofs.Check.Complaints
import RunAudit.Proofs.Check.Differences
import RunAudit.Proofs.Check.ExactCases
import RunAudit.Proofs.Check.Guard
import RunAudit.Proofs.Check.JunitContents
import RunAudit.Proofs.Check.Mismatch
import RunAudit.Proofs.Check.PluginOutput
import RunAudit.Proofs.Check.Run
import RunAudit.Proofs.Command.Verify
import RunAudit.Proofs.Event.Buckets
import RunAudit.Proofs.Program
import RunAudit.Proofs.Junit.Collecting
import RunAudit.Proofs.Junit.Joining
import RunAudit.Proofs.Junit.Records
import RunAudit.Proofs.Command.Execution
import RunAudit.Proofs.Json.Grammar
import RunAudit.Proofs.Json.Reading
import RunAudit.Proofs.Json.Roundtrip
import RunAudit.Proofs.Report.Agreement
import RunAudit.Proofs.Yaml.Portable
import RunAudit.Proofs.Yaml.Blanks
import RunAudit.Proofs.Yaml.Tokens
import RunAudit.Proofs.Yaml.Scanning
import RunAudit.Proofs.Yaml.Nodes
import RunAudit.Proofs.Yaml.Decoding
import RunAudit.Proofs.Expectations.Overlay
import RunAudit.Proofs.Command.Selection
import RunAudit.Proofs.Event.Schema
import RunAudit.Proofs.Event.Roundtrip
import RunAudit.Proofs.Event.Edits
import RunAudit.Proofs.Event.Summary
import RunAudit.Proofs.Junit.Serialized
import RunAudit.Proofs.Text.Quoted
import RunAudit.Proofs.Text.Utf8
import RunAudit.Proofs.Text.Ansi
import RunAudit.Proofs.Report.Console
import RunAudit.Proofs.Expectations.Fields

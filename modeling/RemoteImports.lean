import RemoteImports.Proxy.Declaration
import RemoteImports.Module.Basic
import RemoteImports.FilePath.Normal
import RemoteImports.Script.Semicolon
import RemoteImports.Script.Lexeme
import RemoteImports.Script.Grammar.Basic
import RemoteImports.Script.Grammar.Type
import RemoteImports.Script.Grammar.Markup
import RemoteImports.Script.Grammar.Expression
import RemoteImports.Script.Grammar.Module
import RemoteImports.Script.Program
import RemoteImports.Module.OfNodes
import RemoteImports.Module.Parse
import RemoteImports.Command.Run
import RemoteImports.Main
import RemoteImports.Proofs.Text.Pieces
import RemoteImports.Proofs.FilePath.Components
import RemoteImports.Proofs.FilePath.NormalForm
import RemoteImports.Proofs.FilePath.Containment
import RemoteImports.Proofs.Import.Classification
import RemoteImports.Proofs.Module.Rewriting
import RemoteImports.Proofs.Module.Positions
import RemoteImports.Proofs.Module.Source
import RemoteImports.Proofs.Module.Nodes
import RemoteImports.Proofs.Module.Cut
import RemoteImports.Proofs.Module.Attribution
import RemoteImports.Proofs.Import.TypeNames
import RemoteImports.Proofs.Module.Names
import RemoteImports.Proofs.Import.Requests
import RemoteImports.Proofs.Outcome
import RemoteImports.Proofs.Module.Exposed
import RemoteImports.Proofs.Module.Listing
import RemoteImports.Proofs.Module.Untouched
import RemoteImports.Proofs.Project.Plan
import RemoteImports.Proofs.Project.Containment
import RemoteImports.Proofs.Project.Exposure
import RemoteImports.Proofs.Project.Verdict
import RemoteImports.Proofs.Project.Transform
import RemoteImports.Proofs.Project.Names
import RemoteImports.Proofs.Project.Stability
import RemoteImports.Proofs.Project.Locality
import RemoteImports.Proofs.Module.Relocation
import RemoteImports.Proofs.Project.Relocation
import RemoteImports.Proofs.Discovery
import RemoteImports.Proofs.Check
import RemoteImports.Proofs.Command.Check
import RemoteImports.Proofs.FileTree.Canonical
import RemoteImports.Proofs.Config.Root
import RemoteImports.Proofs.Command.Root
import RemoteImports.Proofs.Command.Exposed
import RemoteImports.Proofs.FilePath.Parent
import RemoteImports.Proofs.FilePath.Join
import RemoteImports.Proofs.FileTree.Entries
import RemoteImports.Proofs.FileTree.Places
import RemoteImports.Proofs.FileTree.Relocation
import RemoteImports.Proofs.FileTree.Write
import RemoteImports.Proofs.Command.Output
import RemoteImports.Proofs.Config.ProjectFile
import RemoteImports.Proofs.Config.Layers
import RemoteImports.Proofs.Config.Resolution
import RemoteImports.Proofs.Ignore.Scope
import RemoteImports.Proofs.Glob.Unanchored
import RemoteImports.Proofs.Discovery.Walk
import RemoteImports.Proofs.Discovery.Selection
import RemoteImports.Proofs.Discovery.Part
import RemoteImports.Proofs.Config.Part
import RemoteImports.Proofs.Command.Part
import RemoteImports.Proofs.Module.Exposure
import RemoteImports.Proofs.Script.Literal
import RemoteImports.Proofs.FilePath.Relative
import RemoteImports.Proofs.Discovery.Exact
import RemoteImports.Proofs.FilePath.Reduction
import RemoteImports.Proofs.Config.Provenance
import RemoteImports.Proofs.Config.Show
import RemoteImports.Proofs.Text.Reading
import RemoteImports.Proofs.Proxy.Reading
import RemoteImports.Proofs.Script.FirstFault
import RemoteImports.Proofs.FileTree.ModuleFile
import RemoteImports.Proofs.Module.Edits
import RemoteImports.Proofs.Report.Reading
import RemoteImports.Proofs.Config.Extensions

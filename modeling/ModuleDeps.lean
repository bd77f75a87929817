import ModuleDeps.Text.LowerCase
import ModuleDeps.SourceModule
import ModuleDeps.Import.Statement
import ModuleDeps.Dotted.Relative
import ModuleDeps.Dotted.Spellings
import ModuleDeps.Classification
import ModuleDeps.Json.Reader
import ModuleDeps.Json.Writer
import ModuleDeps.Edges.Cycles
import ModuleDeps.Edges.Depths
import ModuleDeps.Decimal.Shortest
import ModuleDeps.Decimal.Fixed
import ModuleDeps.Analysis
import ModuleDeps.ModuleList
import ModuleDeps.Graph.Json
import ModuleDeps.Report.Format
import ModuleDeps.Toml.Reader
import ModuleDeps.Text.Count
import ModuleDeps.Files.Tree
import ModuleDeps.Settings.File
import ModuleDeps.Settings.Environment
import ModuleDeps.Arguments
import ModuleDeps.Command
import ModuleDeps.Main
import ModuleDeps.Proofs.EdgeMaps
import ModuleDeps.Proofs.SearchesInStep
import ModuleDeps.Proofs.BackEdges
import ModuleDeps.Proofs.ImportGrammar
import ModuleDeps.Proofs.ImportReading
import ModuleDeps.Proofs.GraphImage
import ModuleDeps.Proofs.Walks
import ModuleDeps.Proofs.Groups
import ModuleDeps.Proofs.CycleReports
import ModuleDeps.Proofs.Spellings
import ModuleDeps.Proofs.InternalNames
import ModuleDeps.Proofs.NormalNames
import ModuleDeps.Proofs.PartialResults
import ModuleDeps.Proofs.CircularImports
import ModuleDeps.Proofs.GrowingProjects
import ModuleDeps.Proofs.LeftOutModules
import ModuleDeps.Proofs.Tallies
import ModuleDeps.Proofs.Figures
import ModuleDeps.Proofs.CsvReading
import ModuleDeps.Proofs.TableReports
import ModuleDeps.Proofs.JsonTexts
import ModuleDeps.Proofs.JsonScanning
import ModuleDeps.Proofs.JsonReading
import ModuleDeps.Proofs.JsonCounts
import ModuleDeps.Proofs.JsonDoubles
import ModuleDeps.Proofs.GraphTexts
import ModuleDeps.Proofs.ModuleListTexts
import ModuleDeps.Proofs.ReportTexts
import ModuleDeps.Proofs.SettingsPrecedence
import ModuleDeps.Proofs.ClosedWalks
import ModuleDeps.Proofs.LongestWalks
import ModuleDeps.Proofs.FileTrees
import ModuleDeps.Proofs.RunOutcomes
import ModuleDeps.Proofs.UnchangedFiles
import ModuleDeps.Proofs.CycleMoves
import ModuleDeps.Proofs.EnteringOrder
import ModuleDeps.Proofs.RecursiveSearch
import ModuleDeps.Proofs.Numbering
import ModuleDeps.Proofs.StrongComponents
import ModuleDeps.Proofs.DescendingWalks
import ModuleDeps.Proofs.DepthBounds
import ModuleDeps.Proofs.CanonicalNames
import ModuleDeps.Proofs.RelativeNames
import ModuleDeps.Proofs.DotReading
import ModuleDeps.Proofs.DotStatements
import ModuleDeps.Proofs.DrawnEdges
import ModuleDeps.Proofs.ColoredReports
import ModuleDeps.Proofs.DeclaredNodes
import ModuleDeps.Proofs.Rankings
import ModuleDeps.Proofs.SearchAccounts

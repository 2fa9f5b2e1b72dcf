import CprojNinja.Disk.Model
import CprojNinja.Main
import CprojNinja.Proofs.Order
import CprojNinja.Proofs.Outcomes
import CprojNinja.Proofs.SourceScan
import CprojNinja.Proofs.GraphParts
import CprojNinja.Proofs.GraphStructure
import CprojNinja.Proofs.Signs
import CprojNinja.Proofs.EdgeReading
import CprojNinja.Proofs.GraphReading
import CprojNinja.Proofs.DiskFrame
import CprojNinja.Proofs.BuildFile
import CprojNinja.Proofs.LogicalLines
import CprojNinja.Proofs.GraphLines
import CprojNinja.Proofs.DefaultReading
import CprojNinja.Proofs.Positions
import CprojNinja.Proofs.OutputFiles
import CprojNinja.Proofs.ObjectPlaces
import CprojNinja.Proofs.PathExpansion
import CprojNinja.Proofs.Documents
import CprojNinja.Proofs.LinkFlags
import CprojNinja.Proofs.References
import CprojNinja.Proofs.LinkerScripts
import CprojNinja.Proofs.Defines
import CprojNinja.Proofs.Cuts
import CprojNinja.Proofs.Slices
import CprojNinja.Proofs.ByteLayout
import CprojNinja.Proofs.LineBreaks
import CprojNinja.Proofs.BindingReading
import CprojNinja.Proofs.Violations
import CprojNinja.Proofs.Selections
import CprojNinja.Proofs.SymbolFlags
import CprojNinja.Proofs.PropertyReads
import CprojNinja.Proofs.Places
import CprojNinja.Proofs.StrayText
import CprojNinja.Proofs.ForeignGroups
import CprojNinja.Proofs.ScriptSearch
import CprojNinja.Proofs.CallerFlags
import CprojNinja.Proofs.ToolchainSources
import CprojNinja.Proofs.ToolchainMarks
import CprojNinja.Proofs.LeadingParents
import CprojNinja.Proofs.BareNames
import CprojNinja.Proofs.Levels
import CprojNinja.Proofs.WrittenFlags
import CprojNinja.Proofs.EmptyEntries
import CprojNinja.Proofs.ExtraBlanks

import SchemaDiagram.Text.Case
import SchemaDiagram.Schema.Print
import SchemaDiagram.Diagram.Inference
import SchemaDiagram.Json.Read
import SchemaDiagram.Json.Print
import SchemaDiagram.Json.Decode
import SchemaDiagram.Edit.Relate
import SchemaDiagram.Layout.Arrange
import SchemaDiagram.Files.Basic
import SchemaDiagram.History
import SchemaDiagram.Files.Tree
import SchemaDiagram.Command.Arguments
import SchemaDiagram.Command.Help
import SchemaDiagram.Layout.Json
import SchemaDiagram.Files.Json
import SchemaDiagram.Edit.Json
import SchemaDiagram.Command.Run
import SchemaDiagram.Main
import SchemaDiagram.Proofs.ScanStrip
import SchemaDiagram.Proofs.OutlineGeometry
import SchemaDiagram.Proofs.Canonical
import SchemaDiagram.Proofs.FormatShape
import SchemaDiagram.Proofs.KeptFields
import SchemaDiagram.Proofs.UntouchedText
import SchemaDiagram.Proofs.RepeatedRelation
import SchemaDiagram.Proofs.EdgeKinds
import SchemaDiagram.Proofs.EdgeOrder
import SchemaDiagram.Proofs.RelationCuts
import SchemaDiagram.Proofs.DrawnRelation
import SchemaDiagram.Proofs.ListEdges
import SchemaDiagram.Proofs.DrawnLists
import SchemaDiagram.Proofs.JunctionEdges
import SchemaDiagram.Proofs.WrittenModel
import SchemaDiagram.Proofs.DrawnJunction
import SchemaDiagram.Proofs.HistoryZipper
import SchemaDiagram.Proofs.MergedFiles
import SchemaDiagram.Proofs.MergedSchema
import SchemaDiagram.Proofs.WrittenPlaces
import SchemaDiagram.Proofs.TaskRuns
import SchemaDiagram.Proofs.SplitCommand
import SchemaDiagram.Proofs.WellFormedDocument
import SchemaDiagram.Proofs.ScanCuts
import SchemaDiagram.Proofs.BodyExchange
import SchemaDiagram.Proofs.LineTails
import SchemaDiagram.Proofs.BodyFields
import SchemaDiagram.Proofs.CodeItems
import SchemaDiagram.Proofs.InsertedField
import SchemaDiagram.Proofs.DeclaredLine
import SchemaDiagram.Proofs.KeptComment
import SchemaDiagram.Proofs.ReplacedField
import SchemaDiagram.Proofs.FieldLookup
import SchemaDiagram.Proofs.DrawnDirection
import SchemaDiagram.Proofs.LineRemark
import SchemaDiagram.Proofs.ShownValue
import SchemaDiagram.Proofs.FormatSettings
import SchemaDiagram.Proofs.SeparatorLines
import SchemaDiagram.Proofs.UnclosedModel
import SchemaDiagram.Proofs.LineBlanks
import SchemaDiagram.Proofs.LineEndings
import SchemaDiagram.Proofs.FileSegments
import SchemaDiagram.Proofs.NodePlacement
import SchemaDiagram.Proofs.MadeDirectories
import SchemaDiagram.Proofs.AcceptedValues
import SchemaDiagram.Proofs.SplitBounds
import SchemaDiagram.Proofs.AttributeBytes
import SchemaDiagram.Proofs.CheckedScan
import SchemaDiagram.Proofs.CheckedParse
import SchemaDiagram.Proofs.JoinedAttributes
import SchemaDiagram.Proofs.ByteAlignment

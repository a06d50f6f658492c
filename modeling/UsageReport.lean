import UsageReport.Text.LineIndex
import UsageReport.PropertyMap
import UsageReport.Fault
import UsageReport.Symbol.Group
import UsageReport.Preview
import UsageReport.Options
import UsageReport.Document.Solution
import UsageReport.Display.QualifiedName
import UsageReport.Display.Glyph
import UsageReport.Display.DocumentationId
import UsageReport.Host.Standard
import UsageReport.Item.DefinitionOfSymbol
import UsageReport.Item.ReferenceOfHit
import UsageReport.Client.Request
import UsageReport.Wire.Types
import UsageReport.Scenario.Search
import UsageReport.Proofs.Item.Cancellation
import UsageReport.Proofs.Client.Answer
import UsageReport.Proofs.Lexer.BlockComment
import UsageReport.Proofs.Document.Lines
import UsageReport.Proofs.Text.WordIndex
import UsageReport.Proofs.Preview
import UsageReport.Proofs.Client.StaleSpan
import UsageReport.Proofs.Client.RichAndPlain
import UsageReport.Proofs.Item.Classification
import UsageReport.Proofs.Document.Span
import UsageReport.Proofs.Client.FollowUp
import UsageReport.Proofs.Client.PreviewColumns
import UsageReport.Proofs.Client.Interleaving
import UsageReport.Proofs.Item.Undisturbed
import UsageReport.Proofs.Item.Hidden
import UsageReport.Proofs.Search.Scripted
import UsageReport.Proofs.Client.Hidden
import UsageReport.Proofs.Item.Group
import UsageReport.Proofs.Lexer.LongestMatch
import UsageReport.Proofs.Preview.Highlight
import UsageReport.Proofs.Preview.Touched
import UsageReport.Proofs.Item.Unreferenced
import UsageReport.Proofs.Document.Pieces
import UsageReport.Proofs.Document.Order
import UsageReport.Proofs.Item.Query
import UsageReport.Proofs.Item.Construction
import UsageReport.Proofs.Item.Reference
import UsageReport.Proofs.Display.DocumentationId
import UsageReport.Proofs.Display.QualifiedName
import UsageReport.Proofs.Item.ConstructorNames
import UsageReport.Proofs.Search.Producers
import UsageReport.Proofs.Wire.RoundTrip
import UsageReport.Proofs.Wire.Options
import UsageReport.Proofs.Client.SharedUri
import UsageReport.Proofs.Lexer.Restart

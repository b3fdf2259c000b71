import TimingDiagram.Main
import TimingDiagram.Command.FileTree
import TimingDiagram.Proofs.Wave.Reading
import TimingDiagram.Proofs.Wave.Appending
import TimingDiagram.Proofs.Wave.Joints
import TimingDiagram.Proofs.Wave.Budget
import TimingDiagram.Proofs.Signal.Listing
import TimingDiagram.Proofs.Signal.Nesting
import TimingDiagram.Proofs.Signal.Recovery
import TimingDiagram.Proofs.Drawing.Gaps
import TimingDiagram.Proofs.Drawing.Layers
import TimingDiagram.Proofs.Drawing.Influence
import TimingDiagram.Proofs.Drawing.RowParts
import TimingDiagram.Proofs.Drawing.Events
import TimingDiagram.Proofs.Markup.NumberedName
import TimingDiagram.Proofs.Markup.DocumentOrder
import TimingDiagram.Proofs.Markup.Placed
import TimingDiagram.Proofs.Drawing.Ids
import TimingDiagram.Proofs.Drawing.IdClashes
import TimingDiagram.Proofs.Document.Parts
import TimingDiagram.Proofs.Document.Reports
import TimingDiagram.Proofs.Document.Rows
import TimingDiagram.Proofs.Document.Alone
import TimingDiagram.Proofs.Wave.Upsampling
import TimingDiagram.Proofs.Drawing.RunLabels
import TimingDiagram.Proofs.Wave.GlyphNames
import TimingDiagram.Proofs.Command.FileTree
import TimingDiagram.Proofs.Command.Stages
import TimingDiagram.Proofs.Wave.Spelling
import TimingDiagram.Proofs.Drawing.RunMiddles
import TimingDiagram.Proofs.Document.EdgeForm
import TimingDiagram.Proofs.Document.LabelForm
import TimingDiagram.Proofs.Document.SourceSpan
import TimingDiagram.Proofs.Document.MarkupForm
import TimingDiagram.Proofs.Document.BlamedValues
import TimingDiagram.Proofs.Drawing.EventOrder
import TimingDiagram.Proofs.Drawing.AxisLabels
import TimingDiagram.Proofs.Document.UnreadMembers
import TimingDiagram.Proofs.Drawing.BracketExtent
import TimingDiagram.Proofs.Drawing.TickNumbers
import TimingDiagram.Proofs.Color.SameText

import ArgumentDiagram.Canvas.Keyboard
import ArgumentDiagram.Canvas.Pointer
import ArgumentDiagram.Command.FileTree
import ArgumentDiagram.Events.Summary
import ArgumentDiagram.Font.Cache
import ArgumentDiagram.Graph.Metadata
import ArgumentDiagram.Main
import ArgumentDiagram.Render.Embedded
import ArgumentDiagram.Proofs.Table
import ArgumentDiagram.Proofs.Graph.WellFormed
import ArgumentDiagram.Proofs.Graph.Growth
import ArgumentDiagram.Proofs.Graph.Loading
import ArgumentDiagram.Proofs.Graph.Cascade
import ArgumentDiagram.Proofs.Graph.Feeds
import ArgumentDiagram.Proofs.Graph.Reachable
import ArgumentDiagram.Proofs.Graph.Deletion
import ArgumentDiagram.Proofs.Payload.Shuffle
import ArgumentDiagram.Proofs.Layout.Recursion
import ArgumentDiagram.Proofs.Layout.Verdict
import ArgumentDiagram.Proofs.Graph.Paths
import ArgumentDiagram.Proofs.Layout.Leaves
import ArgumentDiagram.Proofs.Layout.Placing
import ArgumentDiagram.Proofs.Layout.RootPaths
import ArgumentDiagram.Proofs.Geometry.Exact
import ArgumentDiagram.Proofs.Geometry.Diamond
import ArgumentDiagram.Proofs.Layout.Packing
import ArgumentDiagram.Proofs.Layout.Arrangement
import ArgumentDiagram.Proofs.Layout.Overlap
import ArgumentDiagram.Proofs.Render.Picture
import ArgumentDiagram.Proofs.Style.Palette
import ArgumentDiagram.Proofs.Canvas.Run
import ArgumentDiagram.Proofs.Canvas.Repaint
import ArgumentDiagram.Proofs.Canvas.Gesture
import ArgumentDiagram.Proofs.Drawing.Marks
import ArgumentDiagram.Proofs.Canvas.Selection
import ArgumentDiagram.Proofs.Text.Markup
import ArgumentDiagram.Proofs.Text.Tree
import ArgumentDiagram.Proofs.Number.Unmarked
import ArgumentDiagram.Proofs.Surface.Written
import ArgumentDiagram.Proofs.Graph.Revision
import ArgumentDiagram.Proofs.Canvas.Sizes
import ArgumentDiagram.Proofs.Script.Patterns
import ArgumentDiagram.Proofs.Script.Contents
import ArgumentDiagram.Proofs.Events.History
import ArgumentDiagram.Proofs.Number.Packing
import ArgumentDiagram.Proofs.Canvas.Dragging
import ArgumentDiagram.Proofs.Geometry.Hull
import ArgumentDiagram.Proofs.Render.Fitted
import ArgumentDiagram.Proofs.Drawing.Scaling
import ArgumentDiagram.Proofs.Render.Scale
import ArgumentDiagram.Proofs.Canvas.Fitting
import ArgumentDiagram.Proofs.Graph.Centers
import ArgumentDiagram.Proofs.Graph.Relating
import ArgumentDiagram.Proofs.Graph.Restoring
import ArgumentDiagram.Proofs.Layout.Corners
import ArgumentDiagram.Proofs.Layout.Standing
import ArgumentDiagram.Proofs.Geometry.Attachment
import ArgumentDiagram.Proofs.Style.Handout
import ArgumentDiagram.Proofs.Canvas.Colors
import ArgumentDiagram.Proofs.Payload.Repeats
import ArgumentDiagram.Proofs.Payload.Documents
import ArgumentDiagram.Proofs.Canvas.Lines
import ArgumentDiagram.Proofs.Canvas.Tabbing
import ArgumentDiagram.Proofs.Command.Scale
import ArgumentDiagram.Proofs.Json.Values
import ArgumentDiagram.Proofs.Graph.Notes
import ArgumentDiagram.Proofs.Font.Recall

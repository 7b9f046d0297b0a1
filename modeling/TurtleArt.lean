import TurtleArt.Main
import TurtleArt.Turtle.Action
import TurtleArt.Proofs.Plane
import TurtleArt.Proofs.Turtle.Exactness
import TurtleArt.Proofs.Render.Sizing
import TurtleArt.Proofs.Render.Picture
import TurtleArt.Proofs.Format.RoundTrip
import TurtleArt.Proofs.Render.Room
import TurtleArt.Proofs.Grammar
import TurtleArt.Proofs.Turtle.Frame
import TurtleArt.Proofs.Preset.KochCurve
import TurtleArt.Proofs.Turtle.Excursion
import TurtleArt.Proofs.Preset.DragonCurve
import TurtleArt.Proofs.Preset.PaperFolding
import TurtleArt.Proofs.Preset.BinaryTree
import TurtleArt.Proofs.Turtle.Placement
import TurtleArt.Proofs.Turtle.Rotation
import TurtleArt.Proofs.Render.Placement
import TurtleArt.Proofs.Canvas.Layout
import TurtleArt.Proofs.Render.Rotation
import TurtleArt.Proofs.Render.Nesting
import TurtleArt.Proofs.Render.Renaming
import TurtleArt.Proofs.Render.Growth
import TurtleArt.Proofs.Render.Trace
import TurtleArt.Proofs.Turtle.Trial
import TurtleArt.Proofs.Turtle.Branch
import TurtleArt.Proofs.Output.Framing
import TurtleArt.Proofs.Cli.Program
import TurtleArt.Proofs.Canvas.Cropping
import TurtleArt.Proofs.Canvas.History
import TurtleArt.Proofs.Render.Coordinates
import TurtleArt.Proofs.Format.Presentation
import TurtleArt.Proofs.Format.Truncation

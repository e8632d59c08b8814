import Deflow.CommandLine.Session
import Deflow.Disk.FileTree
import Deflow.Document.Edit
import Deflow.Main
import Deflow.Run.EventLog
import Deflow.Proofs.Script.Lexeme
import Deflow.Proofs.Script.TagPart
import Deflow.Proofs.Script.Reading
import Deflow.Proofs.Script.Readers
import Deflow.Proofs.Script.Tiling
import Deflow.Proofs.Script.Unclosed
import Deflow.Proofs.Script.Recursion
import Deflow.Proofs.Document.Standing
import Deflow.Proofs.Script.Edited
import Deflow.Proofs.Script.Rescan
import Deflow.Proofs.Document.Stripping
import Deflow.Proofs.Rule.Pipeline
import Deflow.Proofs.Rule.StripPragmas
import Deflow.Proofs.Document.Words
import Deflow.Proofs.Rule.Effect
import Deflow.Proofs.Rule.Order
import Deflow.Proofs.Document.Grammar
import Deflow.Proofs.Document.Outline
import Deflow.Proofs.Document.Balance
import Deflow.Proofs.Document.Parts
import Deflow.Proofs.Script.LineEnds
import Deflow.Proofs.Script.Shape
import Deflow.Proofs.Document.Delimiters
import Deflow.Proofs.Document.Braces
import Deflow.Proofs.Document.LineEnds
import Deflow.Proofs.Rule.LineEnds
import Deflow.Proofs.Script.Freestanding
import Deflow.Proofs.Document.Quotes
import Deflow.Proofs.Document.Drawing
import Deflow.Proofs.Rule.Comments
import Deflow.Proofs.Document.Redrawing
import Deflow.Proofs.Document.Hoisting
import Deflow.Proofs.Rule.Redraw
import Deflow.Proofs.Document.Recognition
import Deflow.Proofs.Document.Level
import Deflow.Proofs.Document.Reread
import Deflow.Proofs.Document.RoundTrip
import Deflow.Proofs.Document.BracketErrors
import Deflow.Proofs.Document.Extents
import Deflow.Proofs.Document.ModuleLevel
import Deflow.Proofs.Document.ImportGrammar
import Deflow.Proofs.Document.ModuleGrammar
import Deflow.Proofs.Document.DrawnWords
import Deflow.Proofs.Rule.Stability
import Deflow.Proofs.Rule.ExportMeaning
import Deflow.Proofs.Script.Neighbours
import Deflow.Proofs.Document.Clearing
import Deflow.Proofs.Document.NormalForm
import Deflow.Proofs.Document.LineComments
import Deflow.Proofs.Document.Shifting
import Deflow.Proofs.Text.Stretches
import Deflow.Proofs.Text.Positions
import Deflow.Proofs.Rule.OwnLines
import Deflow.Proofs.Path.Components
import Deflow.Proofs.Path.OutputName
import Deflow.Proofs.Glob.Language
import Deflow.Proofs.Glob.Regex
import Deflow.Proofs.Glob.Segments
import Deflow.Proofs.Glob.RegexText
import Deflow.Proofs.Disk.Following
import Deflow.Proofs.Disk.Places
import Deflow.Proofs.Disk.Frame
import Deflow.Proofs.Disk.Order
import Deflow.Proofs.Run.Telling
import Deflow.Proofs.Run.Course
import Deflow.Proofs.Run.Batch
import Deflow.Proofs.Run.Walk
import Deflow.Proofs.Run.Meeting
import Deflow.Proofs.Run.Survey
import Deflow.Proofs.Run.Coverage
import Deflow.Proofs.Run.TreeSurvey
import Deflow.Proofs.Run.Scene
import Deflow.Proofs.Run.Brackets
import Deflow.Proofs.Run.Processing
import Deflow.Proofs.Run.Site
import Deflow.Proofs.Run.Stages
import Deflow.Proofs.Run.Results
import Deflow.Proofs.Run.Account
import Deflow.Proofs.Run.Reordering
import Deflow.Proofs.Run.DryRun

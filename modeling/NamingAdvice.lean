import NamingAdvice.Declaration.Writer
import NamingAdvice.Json.PlainText
import NamingAdvice.Main
import NamingAdvice.Proofs.Text.LetterCase
import NamingAdvice.Proofs.Text.MaximalMunch
import NamingAdvice.Proofs.Text.CharacterClass
import NamingAdvice.Proofs.Name.Verdict
import NamingAdvice.Proofs.Name.Grammar
import NamingAdvice.Proofs.Name.Separation
import NamingAdvice.Proofs.Name.TestOrder
import NamingAdvice.Proofs.Survey.Position
import NamingAdvice.Proofs.Survey.Listing
import NamingAdvice.Proofs.Advisory.Grounds
import NamingAdvice.Proofs.Survey.Soundness
import NamingAdvice.Proofs.Survey.EnclosingType
import NamingAdvice.Proofs.Survey.EmissionOrder
import NamingAdvice.Proofs.Declaration.Accumulation
import NamingAdvice.Proofs.Declaration.Fields
import NamingAdvice.Proofs.Declaration.Node
import NamingAdvice.Proofs.Declaration.Fault
import NamingAdvice.Proofs.Declaration.NormalForm
import NamingAdvice.Proofs.Declaration.Misfit
import NamingAdvice.Proofs.Declaration.IssueOrder
import NamingAdvice.Proofs.Declaration.IssueList
import NamingAdvice.Proofs.Review.Delivery
import NamingAdvice.Proofs.Review.Pointer
import NamingAdvice.Proofs.Survey.Classification
import NamingAdvice.Proofs.Survey.Flattening
import NamingAdvice.Proofs.Survey.Replacement
import NamingAdvice.Proofs.Review.Rewording
import NamingAdvice.Proofs.Review.RoundTrip
import NamingAdvice.Proofs.Review.ErrorPath
import NamingAdvice.Proofs.Text.Encoding
import NamingAdvice.Proofs.Text.LineFeed
import NamingAdvice.Proofs.Number.Digits
import NamingAdvice.Proofs.Json.Token
import NamingAdvice.Proofs.Json.ReadBack
import NamingAdvice.Proofs.Json.Layout
import NamingAdvice.Proofs.FileSystem.Store
import NamingAdvice.Proofs.FileSystem.Repetition
import NamingAdvice.Proofs.Report.ReadBack
import NamingAdvice.Proofs.Report.LineReading
import NamingAdvice.Proofs.Session.Ending
import NamingAdvice.Proofs.Session.Channels
import NamingAdvice.Proofs.Session.Frame
import NamingAdvice.Proofs.Session.Repetition
import NamingAdvice.Proofs.Session.Layout
import NamingAdvice.Proofs.Session.ConsoleLines
import NamingAdvice.Proofs.CommandLine.OptionOrder

import Mainframe.Main
import Mainframe.Session
import Mainframe.Proofs.WrittenText
import Mainframe.Proofs.WrittenRecord
import Mainframe.Proofs.WrittenOutline
import Mainframe.Proofs.Interchange
import Mainframe.Proofs.DeckGrouping
import Mainframe.Proofs.JoinedSources
import Mainframe.Proofs.SpelledLine
import Mainframe.Proofs.QuietLine
import Mainframe.Proofs.PhraseFields
import Mainframe.Proofs.TidyProgram
import Mainframe.Proofs.TidySentence
import Mainframe.Proofs.TidyReading
import Mainframe.Proofs.TidyOutline
import Mainframe.Proofs.LineNumbers
import Mainframe.Proofs.LayoutEdits
import Mainframe.Proofs.PhrasePlaces
import Mainframe.Proofs.UnusedParagraphs
import Mainframe.Proofs.RelayedReport
import Mainframe.Proofs.SourceCounts
import Mainframe.Proofs.RequestedJobs
import Mainframe.Proofs.KeptCards
import Mainframe.Proofs.ParagraphListing
import Mainframe.Proofs.EntryLines
import Mainframe.Proofs.WrittenApart
import Mainframe.Proofs.WrittenLines
import Mainframe.Proofs.PromptReading
import Mainframe.Proofs.TruncatedText
import Mainframe.Proofs.ShapesApart
import Mainframe.Proofs.DetectionCoverage
import Mainframe.Proofs.ArgumentRequests
import Mainframe.Proofs.EndingRequests
import Mainframe.Proofs.AtomicRun
import Mainframe.Proofs.CardLines
import Mainframe.Proofs.CommentCards
import Mainframe.Proofs.DetectedSteps
import Mainframe.Proofs.SessionHistory
import Mainframe.Proofs.AnalysisOutcomes
import Mainframe.Proofs.MemberOrder
import Mainframe.Proofs.FieldBounds
import Mainframe.Proofs.PerformViews
import Mainframe.Proofs.FieldGrammar
import Mainframe.Proofs.CallGraph
import Mainframe.Proofs.SummaryCounts
import Mainframe.Proofs.ScannedAttributes
import Mainframe.Proofs.WholeKeywords
import Mainframe.Proofs.DiscardedJobs
import Mainframe.Proofs.KeywordRuns
import Mainframe.Proofs.FirstProgramId
import Mainframe.Proofs.NodesApart
import Mainframe.Proofs.ConditionEnds

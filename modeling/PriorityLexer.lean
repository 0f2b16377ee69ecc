import PriorityLexer.Main
import PriorityLexer.Session
import PriorityLexer.Proofs.AnyPosition
import PriorityLexer.Proofs.Backtracking
import PriorityLexer.Proofs.Borders
import PriorityLexer.Proofs.CarriageReturns
import PriorityLexer.Proofs.CharacterClasses
import PriorityLexer.Proofs.CommandLine
import PriorityLexer.Proofs.CommentEnds
import PriorityLexer.Proofs.CommentPatterns
import PriorityLexer.Proofs.Continuation
import PriorityLexer.Proofs.DeadRules
import PriorityLexer.Proofs.Disturbance
import PriorityLexer.Proofs.Edits
import PriorityLexer.Proofs.FileReading
import PriorityLexer.Proofs.FirstHit
import PriorityLexer.Proofs.FlagOrder
import PriorityLexer.Proofs.Gaps
import PriorityLexer.Proofs.Hexadecimal
import PriorityLexer.Proofs.IllegalCharacters
import PriorityLexer.Proofs.IllegalReports
import PriorityLexer.Proofs.Interleaving
import PriorityLexer.Proofs.JoinedLines
import PriorityLexer.Proofs.Journal
import PriorityLexer.Proofs.JsonDump
import PriorityLexer.Proofs.JsonGrammar
import PriorityLexer.Proofs.JsonReader
import PriorityLexer.Proofs.Layout
import PriorityLexer.Proofs.LazyCursor
import PriorityLexer.Proofs.LegibleReports
import PriorityLexer.Proofs.Lexemes
import PriorityLexer.Proofs.LongestMatch
import PriorityLexer.Proofs.Lookahead
import PriorityLexer.Proofs.Loosening
import PriorityLexer.Proofs.Lossless
import PriorityLexer.Proofs.OneStream
import PriorityLexer.Proofs.Partition
import PriorityLexer.Proofs.PlainDump
import PriorityLexer.Proofs.Positions
import PriorityLexer.Proofs.QuotedTexts
import PriorityLexer.Proofs.Recovery
import PriorityLexer.Proofs.ReportableTokens
import PriorityLexer.Proofs.Resumption
import PriorityLexer.Proofs.SelfContained
import PriorityLexer.Proofs.SourceSizes
import PriorityLexer.Proofs.StrictReading
import PriorityLexer.Proofs.StringEnds
import PriorityLexer.Proofs.StringPatterns
import PriorityLexer.Proofs.TokenStream
import PriorityLexer.Proofs.Totality
import PriorityLexer.Proofs.Utf8
import PriorityLexer.Proofs.WordsAndNumbers

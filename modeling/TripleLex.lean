import TripleLex.Queue
import TripleLex.Settings.Json
import TripleLex.Proofs.Place
import TripleLex.Proofs.Reads
import TripleLex.Proofs.Pieces
import TripleLex.Proofs.Gathered
import TripleLex.Proofs.Lexemes
import TripleLex.Proofs.Readers
import TripleLex.Proofs.Graphs
import TripleLex.Proofs.Queries
import TripleLex.Proofs.Runs
import TripleLex.Proofs.Progress
import TripleLex.Proofs.Lossless
import TripleLex.Proofs.Positions
import TripleLex.Proofs.KeywordOutcomes
import TripleLex.Proofs.Scoping
import TripleLex.Proofs.Makes
import TripleLex.Proofs.ReaderKinds
import TripleLex.Proofs.Soundness
import TripleLex.Proofs.Neighbours
import TripleLex.Proofs.Succeeds
import TripleLex.Proofs.WholeNames
import TripleLex.Proofs.Mirrors
import TripleLex.Proofs.MirroredReaders
import TripleLex.Proofs.MirroredGraphs
import TripleLex.Proofs.MirroredQueries
import TripleLex.Proofs.MirroredMachines
import TripleLex.Proofs.BehindComments
import TripleLex.Proofs.InStep
import TripleLex.Proofs.Comments
import TripleLex.Proofs.Queues
import TripleLex.Proofs.Schedules
import TripleLex.Proofs.Records
import TripleLex.Proofs.Encoding
import TripleLex.Proofs.Together
import TripleLex.Proofs.Twins
import TripleLex.Proofs.TwinReaders
import TripleLex.Proofs.Closing
import TripleLex.Proofs.Included
import TripleLex.Proofs.Sublanguages
import TripleLex.Proofs.WholeRuns
import TripleLex.Proofs.AfterFaults
import TripleLex.Proofs.Escapes
import TripleLex.Proofs.Quotations
import TripleLex.Proofs.Statements
import TripleLex.Proofs.BrokenSources
import TripleLex.Proofs.Unclosed
import TripleLex.Proofs.BrokenOff
import TripleLex.Proofs.Separators
import TripleLex.Proofs.Cells
import TripleLex.Proofs.KeywordSpellings
import TripleLex.Proofs.Gating
import TripleLex.Proofs.Openings
import TripleLex.Proofs.Respelling
import TripleLex.Proofs.RespelledReaders
import TripleLex.Proofs.RespelledFormats
import TripleLex.Proofs.LineEndings
import TripleLex.Proofs.DeclaredKeywords
import TripleLex.Proofs.DefaultNames
import TripleLex.Proofs.KeywordsBehindAt
import TripleLex.Proofs.NamesAlone
import TripleLex.Proofs.Decoder
import TripleLex.Proofs.Decoding
import TripleLex.Proofs.LongLiterals
import TripleLex.Proofs.TrailingDots
import TripleLex.Proofs.Levels
import TripleLex.Proofs.InNotation3
import TripleLex.Proofs.GatheredNames
import TripleLex.Proofs.Datatypes
import TripleLex.Proofs.Cites
import TripleLex.Proofs.MistakenEnds
import TripleLex.Proofs.NumbersAlone
import TripleLex.Proofs.NameGrammar
import TripleLex.Proofs.LiteralGrammar
import TripleLex.Proofs.DecodedSources
import TripleLex.Proofs.Backtracking

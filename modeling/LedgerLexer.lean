import LedgerLexer.Main
import LedgerLexer.Record
import LedgerLexer.Trail
import LedgerLexer.Proofs.Coverage
import LedgerLexer.Proofs.Lines
import LedgerLexer.Proofs.Joining
import LedgerLexer.Proofs.Respelling
import LedgerLexer.Proofs.FileOutcomes
import LedgerLexer.Proofs.ShapeChoice
import LedgerLexer.Proofs.Reports
import LedgerLexer.Proofs.Relayout
import LedgerLexer.Proofs.Recovery
import LedgerLexer.Proofs.LineEndings
import LedgerLexer.Proofs.Requoting
import LedgerLexer.Proofs.DecimalSpelling
import LedgerLexer.Proofs.DecimalReading
import LedgerLexer.Proofs.StringLimit
import LedgerLexer.Proofs.PrintedLines
import LedgerLexer.Proofs.CommandAgreement
import LedgerLexer.Proofs.LiteralVerdict
import LedgerLexer.Proofs.DateTokens
import LedgerLexer.Proofs.WordTokens
import LedgerLexer.Proofs.Indentation
import LedgerLexer.Proofs.SignedDates
import LedgerLexer.Proofs.ErrorMessages

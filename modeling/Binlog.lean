import Binlog.Bytes.Script
import Binlog.Config
import Binlog.Decimal
import Binlog.Dump
import Binlog.Export.Event
import Binlog.Parser
import Binlog.Proofs.Reading
import Binlog.Proofs.StrictText
import Binlog.Proofs.Layouts
import Binlog.Proofs.Framing
import Binlog.Proofs.Burst
import Binlog.Proofs.Corruption
import Binlog.Proofs.AlgorithmByte
import Binlog.Proofs.RoundTrip
import Binlog.Proofs.Sources
import Binlog.Proofs.Agreement
import Binlog.Proofs.Guarded
import Binlog.Proofs.GuardedCursor
import Binlog.Proofs.GuardedPayload
import Binlog.Proofs.Faultless
import Binlog.Proofs.ErrorContract
import Binlog.Proofs.Prefixes
import Binlog.Proofs.Transparency
import Binlog.Proofs.Streams
import Binlog.Proofs.Generations
import Binlog.Proofs.Failing
import Binlog.Proofs.UnknownServer
import Binlog.Proofs.Grammar
import Binlog.Proofs.StatusGrammar
import Binlog.Proofs.StatusSettings
import Binlog.Proofs.TextForms
import Binlog.Proofs.FaithfulExport
import Binlog.Proofs.Cursors
import Binlog.Proofs.Stopping
import Binlog.Proofs.CursorContract
import Binlog.Proofs.Writing
import Binlog.Proofs.GroupRows
import Binlog.Proofs.DecimalBlock
import Binlog.Proofs.DigitText
import Binlog.Proofs.PackedDecimal
import Binlog.Proofs.CanonicalDecimal
import Binlog.Proofs.TransactionLayout
import Binlog.Proofs.SourceGroups
import Binlog.Proofs.UserVariables
import Binlog.Proofs.StatementSlices
import Binlog.Proofs.DomainTransactions
import Binlog.Proofs.ShortestForms
import Binlog.Proofs.BlockGroups
import Binlog.Proofs.Delimiters
import Binlog.Proofs.EventRegistry
import Binlog.Proofs.VersionGrammar
import Binlog.Proofs.WholeDecimals

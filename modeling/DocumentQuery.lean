import DocumentQuery.Client.Frame
import DocumentQuery.Client.Handshake
import DocumentQuery.Client.Options
import DocumentQuery.Client.Pending
import DocumentQuery.Compile.Compiler
import DocumentQuery.Datum.Value
import DocumentQuery.Expr.Collection
import DocumentQuery.Expr.Literal
import DocumentQuery.Expr.Relation
import DocumentQuery.Expr.Scalar
import DocumentQuery.Expr.Write
import DocumentQuery.Query
import DocumentQuery.Session.Run
import DocumentQuery.Session.Script
import DocumentQuery.Term.Reading
import DocumentQuery.Wire.Request
import DocumentQuery.Wire.Response
import DocumentQuery.Proofs.BuilderProgram
import DocumentQuery.Proofs.BuilderInvariant
import DocumentQuery.Proofs.ProgramSoundness
import DocumentQuery.Proofs.LexicalCompile
import DocumentQuery.Proofs.ScopeSimulation
import DocumentQuery.Proofs.BinderHygiene
import DocumentQuery.Proofs.NamelessForm
import DocumentQuery.Proofs.DefaultDatabase
import DocumentQuery.Proofs.NodePath
import DocumentQuery.Proofs.TermPurity
import DocumentQuery.Proofs.RefusalWarning
import DocumentQuery.Proofs.ExactInteger
import DocumentQuery.Proofs.CompileFailure
import DocumentQuery.Proofs.CursorMoves
import DocumentQuery.Proofs.CursorDraining
import DocumentQuery.Proofs.CursorFailure
import DocumentQuery.Proofs.LoggedConnection
import DocumentQuery.Proofs.CursorElements
import DocumentQuery.Proofs.FaultRecording
import DocumentQuery.Proofs.CursorRelease
import DocumentQuery.Proofs.FrameStream
import DocumentQuery.Proofs.FrameBuffer
import DocumentQuery.Proofs.PendingHistory
import DocumentQuery.Proofs.TicketResolution
import DocumentQuery.Proofs.PendingTable
import DocumentQuery.Proofs.LateAnswer
import DocumentQuery.Proofs.JsonText
import DocumentQuery.Proofs.DocumentReading
import DocumentQuery.Proofs.DocumentValue
import DocumentQuery.Proofs.WordRange
import DocumentQuery.Proofs.CanonicalTerm
import DocumentQuery.Proofs.AtomicFlag
import DocumentQuery.Proofs.WellFormedTerm
import DocumentQuery.Proofs.SettingsHistory
import DocumentQuery.Proofs.RequestText
import DocumentQuery.Proofs.WriteReport
import DocumentQuery.Proofs.WriteSummary
import DocumentQuery.Proofs.OutcomeReread
import DocumentQuery.Proofs.PointWrite
import DocumentQuery.Proofs.ResponsePayload
import DocumentQuery.Proofs.ResponseText
import DocumentQuery.Proofs.MemberOrder
import DocumentQuery.Proofs.GivenUpCall
import DocumentQuery.Proofs.MessageReading
import DocumentQuery.Proofs.RequestTrace
import DocumentQuery.Proofs.CursorExhaustion
import DocumentQuery.Proofs.QueryRun
import DocumentQuery.Proofs.ExactlyOne
import DocumentQuery.Proofs.SessionRuns
import DocumentQuery.Proofs.AlikeCalls
import DocumentQuery.Proofs.OverlappingCalls
import DocumentQuery.Proofs.UninterruptedCall
import DocumentQuery.Proofs.QueryIsolation
import DocumentQuery.Proofs.ClosedSession
import DocumentQuery.Proofs.ScopeHistory
import DocumentQuery.Proofs.DatabaseSpelling
import DocumentQuery.Proofs.LiteralCollapse
import DocumentQuery.Proofs.LocalBinding
import DocumentQuery.Proofs.IntegerReading
import DocumentQuery.Proofs.HandshakeExchange
import DocumentQuery.Proofs.PercentEncoding
import DocumentQuery.Proofs.UrlAuthority
import DocumentQuery.Proofs.UrlPath
import DocumentQuery.Proofs.AddressDatabase
import DocumentQuery.Proofs.ConnectionUrl
import DocumentQuery.Proofs.DatumVisitor
import DocumentQuery.Proofs.OrderedElements

import ErrorQuery.Compiler
import ErrorQuery.Config.File
import ErrorQuery.Json.Reader
import ErrorQuery.Proofs.Compiler.ErrorPlaces
import ErrorQuery.Proofs.Compiler.Literals
import ErrorQuery.Proofs.Compiler.Recovery
import ErrorQuery.Proofs.Compiler.Writing
import ErrorQuery.Proofs.Query.Stored
import ErrorQuery.Proofs.Scan.Dropped
import ErrorQuery.Proofs.Scan.Layout
import ErrorQuery.Proofs.Scan.Lossless
import ErrorQuery.Proofs.Sql.History
import ErrorQuery.Proofs.Sql.RangeBound
import ErrorQuery.Query.Stored
import ErrorQuery.Proofs.Scan.LetterCase
import ErrorQuery.Proofs.Compiler.LetterCase
import ErrorQuery.Proofs.DateTime.Calendar
import ErrorQuery.Proofs.Scan.Appended
import ErrorQuery.Proofs.Compiler.Limit
import ErrorQuery.Proofs.Json.Grammar
import ErrorQuery.Proofs.Config.Written
import ErrorQuery.Proofs.Scan.Search

import CppLinq.Readers
import CppLinq.Template
import CppLinq.Values
import CppLinq.Expression
import CppLinq.Dialect
import CppLinq.SqlGenerator
import CppLinq.Recording
import CppLinq.StatementTrees
import CppLinq.SlotCorrespondence
import CppLinq.Session
import CppLinq.QueryBuilder
import CppLinq.Terminals
import CppLinq.QueryBuilding
import CppLinq.Substitution
import CppLinq.PreparedQuery
import CppLinq.SqlGrammar
import CppLinq.SqlLexer
import CppLinq.PredicateText
import CppLinq.PredicateReading
import CppLinq.PredicateRoundTrip
import CppLinq.FlatTransaction
import CppLinq.Database
import CppLinq.DbContext
import CppLinq.BatchPlan
import CppLinq.TransactionScope
import CppLinq.BatchAtomicity
import CppLinq.Interleaving
import CppLinq.ConnectionPool
import CppLinq.PoolAccounting
import CppLinq.PoolWaiting
import CppLinq.PoolClosing
import CppLinq.ExecutorDelivery
import CppLinq.ExecutorProgress
import CppLinq.BatchAlignment
import CppLinq.ValueText
import CppLinq.CopyText
import CppLinq.SqlPieces
import CppLinq.StatementNames
import CppLinq.IdentifierQuoting
import CppLinq.PgPlaceholders
import CppLinq.SetOperations
import CppLinq.SetOperationPaging
import CppLinq.RowCounts
import CppLinq.BatchPaths
import CppLinq.Calendar
import CppLinq.ValueParsing
import CppLinq.WideStrings
import CppLinq.NumericText
import CppLinq.TimePoints
import CppLinq.SqliteDriver
import CppLinq.EntityMapping
import CppLinq.Upserts
import CppLinq.UpsertMany
import CppLinq.UpsertStatements
import CppLinq.DmlStatements
import CppLinq.UpsertReading
import CppLinq.TableRefinement
import CppLinq.RequestRepetition
import CppLinq.ClauseReading
import CppLinq.OptionalClauses
import CppLinq.QueryReading
import CppLinq.RowReading
import CppLinq.StatementReading
import CppLinq.StatementAnswers
import CppLinq.MysqlDriver
import CppLinq.StateRuns
import CppLinq.OdbcTransactions
import CppLinq.QueryTimeouts
import CppLinq.ChunkedBuffer
import CppLinq.OdbcReader
import CppLinq.DigitStrings
import CppLinq.NumericOrder
import CppLinq.NumericConversion
import CppLinq.NumericInvariant
import CppLinq.NumericStruct
import CppLinq.BatchBuffers
import CppLinq.InsertSubmission
import CppLinq.OdbcBatch
import CppLinq.OdbcBatchSlots
import CppLinq.OdbcBinding
import CppLinq.Encodings
import CppLinq.Instants
import CppLinq.TimestampTexts
import CppLinq.IntervalTexts
import CppLinq.PgIntervals
import CppLinq.DefinitionTokens
import CppLinq.CreateTable
import CppLinq.ObjectNames
import CppLinq.OrderByTerms
import CppLinq.JoinedRows
import CppLinq.Streaming
import CppLinq.Conninfo
import CppLinq.ConnectionStrings
import CppLinq.MysqlParams
import CppLinq.TextParsers

import BinlogCdc.Core.Program
import BinlogCdc.Core.Frame
import BinlogCdc.Binlog.SequenceOrder
import BinlogCdc.Sql.Token
import BinlogCdc.Stream.GroupCommit
import BinlogCdc.Stream.Durability
import BinlogCdc.Stream.Rollback
import BinlogCdc.Stream.DdlCheckpoint
import BinlogCdc.Stream.QueryAdmission
import BinlogCdc.Sync.ForeignKeyRun
import BinlogCdc.Sync.CatalogOrder
import BinlogCdc.Sync.OwnerRepair
import BinlogCdc.Sync.OwnerReplacement
import BinlogCdc.Sync.PrerequisiteResult
import BinlogCdc.Sync.TransitionWrites
import BinlogCdc.Schema.ParentIndex
import BinlogCdc.Core.WorkerPoolRun
import BinlogCdc.Schema.StageResult
import BinlogCdc.Schema.CoercionSafety
import BinlogCdc.Schema.ExpressionMeaning
import BinlogCdc.Schema.DefaultMeaning
import BinlogCdc.Sync.BatchPlan
import BinlogCdc.Sync.ComponentLocks
import BinlogCdc.Sync.KeyPaging
import BinlogCdc.Sync.ProgressRow
import BinlogCdc.Ddl.AlterGrammar
import BinlogCdc.Ddl.AlterRender
import BinlogCdc.Ddl.Lexeme
import BinlogCdc.Ddl.TypeReading
import BinlogCdc.Ddl.NumericDefault
import BinlogCdc.Ddl.ColumnDefault
import BinlogCdc.Sync.CatalogPartition
import BinlogCdc.Ddl.RenameColumns
import BinlogCdc.Ddl.CheckResult
import BinlogCdc.Sync.GuestRangeResult
import BinlogCdc.Sync.OrchestrationRules
import BinlogCdc.Sync.UpdateResult
import BinlogCdc.Stream.StatusSection
import BinlogCdc.Stream.ReconnectRules
import BinlogCdc.Target.MissingForeignKeyRun
import BinlogCdc.Target.DuplicateIndex
import BinlogCdc.Ddl.TableEffect
import BinlogCdc.Stream.FailedEvent
import BinlogCdc.Stream.StoredValue
import BinlogCdc.Sync.ColumnLabels
import BinlogCdc.Stream.CheckedDate
import BinlogCdc.Stream.BarrierQuery
import BinlogCdc.Target.RenderedStatement
import BinlogCdc.Target.ConflictIdentity
import BinlogCdc.Target.ConflictResolutionRules
import BinlogCdc.Ddl.ScannerAgreement
import BinlogCdc.Stream.LoggedStream

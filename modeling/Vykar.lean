import Vykar.Compact.CrashSafety
import Vykar.Lock.Exclusion
import Vykar.Lock.SessionExclusion
import Vykar.Lock.StaleSessions
import Vykar.Check.RepairResult
import Vykar.Repo.CommitCaches
import Vykar.Server.ContentAddressing
import Vykar.Repo.JournalRecovery
import Vykar.Clients.Readers
import Vykar.Server.QuotaLimit
import Vykar.Rest.GetRange
import Vykar.Rest.Put
import Vykar.Snapshot.ListHistory
import Vykar.Backup.Pipeline
import Vykar.Storage.SftpPool
import Vykar.Storage.Throttled
import Vykar.Clients.CacheSoundness
import Vykar.Restore.Contents
import Vykar.Restore.ModeResult
import Vykar.Repo.PackCodec
import Vykar.Compact.DryRun
import Vykar.Compact.Endpoint
import Vykar.Repo.Removal
import Vykar.Prune.Timespan
import Vykar.Server.PackVerify
import Vykar.Snapshot.ChunkReads
import Vykar.Snapshot.Envelope
import Vykar.Index.CacheFiles

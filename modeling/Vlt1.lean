import Vlt1.Library.Effect
import Vlt1.Library.Commit
import Vlt1.Library.Bytes
import Vlt1.Library.Table
import Vlt1.Library.Run
import Vlt1.Library.StagedPublication
import Vlt1.Error
import Vlt1.Format
import Vlt1.Crypto
import Vlt1.Cde
import Vlt1.ManifestCodec
import Vlt1.Platform
import Vlt1.Witness
import Vlt1.Checksum
import Vlt1.Transcripts
import Vlt1.IdealCrypto
import Vlt1.WitnessService
import Vlt1.WitnessWire
import Vlt1.ConditionalHeads
import Vlt1.DevelopmentWitness
import Vlt1.Storage
import Vlt1.World
import Vlt1.Library.Chunks
import Vlt1.Vault.Basic
import Vlt1.Vault.Read
import Vlt1.Vault.Publish
import Vlt1.Vault.Readers
import Vlt1.Vault.Frame
import Vlt1.Daemon
import Vlt1.Channel
import Vlt1.StrictReads
import Vlt1.Vault.Failures
import Vlt1.Vault.Sweep
import Vlt1.Vault.Publications
import Vlt1.Session
import Vlt1.Vault.Assertions
import Vlt1.Vault.Drafts
import Vlt1.Vault.Putting
import Vlt1.Vault.Scripted
import Vlt1.StreamingEquivalence
import Vlt1.Changes
import Vlt1.DaemonCalls
import Vlt1.FailClosed
import Vlt1.AllOrNothing
import Vlt1.SignerRollover
import Vlt1.Library.Framing
import Vlt1.Library.Json
import Vlt1.Library.Files
import Vlt1.Protocol
import Vlt1.Upload
import Vlt1.ResponseJson
import Vlt1.StreamItems
import Vlt1.Client
import Vlt1.Wire
import Vlt1.Download
import Vlt1.UploadPublication
import Vlt1.StoreInvariant
import Vlt1.NoLostUpdate
import Vlt1.KeyState
import Vlt1.Vault.Reading
import Vlt1.Vault.Passes
import Vlt1.Ledger
import Vlt1.Refinement
import Vlt1.ReadIntegrity
import Vlt1.FreshContent
import Vlt1.DaemonIntegrity
import Vlt1.DaemonMap
import Vlt1.WitnessedWrites
import Vlt1.UnlockGate
import Vlt1.Rollback
import Vlt1.BenignReads
import Vlt1.ResponseFrames
import Vlt1.Backup.Basic
import Vlt1.Backup.Connections
import Vlt1.Backup.Snapshots
import Vlt1.Backup
import Vlt1.VaultBackups
import Vlt1.PathGuards
import Vlt1.Layout
import Vlt1.Library.Threads
import Vlt1.Admission
import Vlt1.Agreement
import Vlt1.Recovery
import Vlt1.CrashWindow
import Vlt1.Reopening

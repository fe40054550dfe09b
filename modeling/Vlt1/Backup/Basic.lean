import Vlt1.Library.Chunks
import Vlt1.Library.Files
import Vlt1.Library.Json
import Vlt1.Protocol
import Vlt1.World

/-!
# Backups: the functions

`create_snapshot` copies the database to a temporary file, checks the copy, links it to the destination and
writes a manifest beside it. `restore_snapshot` checks a snapshot against its manifest and copies it to a new
path. Each call they make to the file system or to SQLite may fail on its own.

SQLite is a parameter (`Sqlite`). A snapshot is a database in WAL mode, so a connection to it, also a read-only
one, opens the files `-wal` and `-shm` beside it and leaves them there; what it finds depends on what stands
there. The JSON encoding of manifests is a parameter too, and so are the names of the temporary files. Those
are removed when the functions return; what SQLite has left beside them is not.
-/

namespace Vlt1.Backup

open Effect Files Protocol

/-! ### Files of SQLite -/

/-- What is at the paths beside a database file: the rollback journal, the write-ahead log and its index. -/
structure Companions where
  journal : Option Node
  wal : Option Node
  shm : Option Node
deriving DecidableEq

/-- Nothing stands beside the file. -/
def Companions.absent : Companions := ⟨none, none, none⟩

/-- How SQLite keeps tables in files. -/
structure Sqlite where
  /-- The file that the online backup writes for these tables. -/
  image : Database → Bytes
  /-- The header of the file asks for a write-ahead log. -/
  usesWal : Bytes → Bool
  /-- The tables that a read-only connection finds in a file with these companions, if it can use it. -/
  tables : Bytes → Companions → Option Database
  /-- The answer to `PRAGMA integrity_check`. -/
  integrityCheck : Bytes → Companions → String
  /-- The index of the write-ahead log that a connection sets up. -/
  walIndex : Bytes → Companions → Bytes

/-- What is at the path of the index after a connection has set it up. -/
def indexNode (index : Bytes) : Option Node → Option Node
  | none | some (.file _) => some (.file index)
  | some node => some node

namespace Sqlite

variable (sqlite : Sqlite)

/-- A connection opens the write-ahead log: the file asks for it, or there is one. -/
def opensLog (content : Bytes) (c : Companions) : Bool := sqlite.usesWal content || c.wal.isSome

/-- What a read-only connection leaves beside a file. -/
def leaves (content : Bytes) (c : Companions) : Companions :=
  if sqlite.opensLog content c then
    { c with wal := some (c.wal.getD (.file [])), shm := indexNode (sqlite.walIndex content c) c.shm }
  else c

/-- What a read-only connection leaves beside a file makes no difference to the next. -/
structure ReadsOnly : Prop where
  tables_leaves : ∀ content c, sqlite.tables content (sqlite.leaves content c) = sqlite.tables content c
  integrityCheck_leaves : ∀ content c,
    sqlite.integrityCheck content (sqlite.leaves content c) = sqlite.integrityCheck content c

/-- The online backup copies these tables and their WAL mode, and also copies what is read from the copy. -/
structure Copies (db : Database) : Prop where
  usesWal : sqlite.usesWal (sqlite.image db) = true
  tables : sqlite.tables (sqlite.image db) .absent = some db
  again : ∀ c db', sqlite.tables (sqlite.image db) c = some db' →
    sqlite.tables (sqlite.image db') .absent = some db'

end Sqlite

/-! ### Calls that may fail -/

/-- The calls of a path check: for each directory above the path, and for the path. -/
inductive PathCall where
  | ancestor (a : Path)
  | self
deriving DecidableEq

/-- The calls of a read-only connection on its first use. -/
inductive ConnectCall where
  | openDatabase
  | openLog
  | openIndex
deriving DecidableEq

/-- The calls of `verify_snapshot_database`. -/
inductive DatabaseCall where
  | connect (c : ConnectCall)
  | integrityCheck
  | foreignKeyCheck
  | selectVaultId
deriving DecidableEq

/-- The calls of `checksum_file`. -/
inductive ReadCall where
  | openFile
  | read (n : ℕ)
deriving DecidableEq

/-- The calls of `sync_parent`. -/
inductive ParentCall where
  | openParent
  | syncParent
deriving DecidableEq

/-- The calls of `publish_new_file`. -/
inductive PublishCall where
  | link
  | parent (c : ParentCall)
deriving DecidableEq

/-- The calls of `write_new_file`. -/
inductive WriteCall where
  | create
  | write
  | sync
  | parent (c : ParentCall)
deriving DecidableEq

/-- The calls of `create_snapshot`. -/
inductive SnapshotCall where
  | destination (again : Bool) (c : PathCall)
  | createTemporary
  | copy
  | openCopy
  | syncCopy
  | database (c : DatabaseCall)
  | setPermissions
  | publish (c : PublishCall)
  | checksum (c : ReadCall)
  | manifest (c : PathCall)
  | write (c : WriteCall)
deriving DecidableEq

/-- The calls of `BackupManifest::read_from`. -/
inductive ManifestCall where
  | path (c : PathCall)
  | read
deriving DecidableEq

/-- The calls of `verify_backup`. -/
inductive VerifyCall where
  | path (c : PathCall)
  | checksum (c : ReadCall)
  | database (c : DatabaseCall)
deriving DecidableEq

/-- The calls of `restore_snapshot`. -/
inductive RestoreCall where
  | verify (c : VerifyCall)
  | destination (again : Bool) (c : PathCall)
  | createTemporary
  | source (c : ConnectCall)
  | copy
  | openCopy
  | syncCopy
  | database (c : DatabaseCall)
  | setPermissions
  | publish (c : PublishCall)
deriving DecidableEq

/-- A computation on the file system. -/
abbrev DiskOp (α : Type) := Op VaultError FileSystem α

/-- A call that fails or not. -/
def attempt (fails : Bool) (e : VaultError) : DiskOp Unit := Op.require (fails = false) e

/-! ### Paths -/

section

variable (fails : PathCall → Bool) (path : Path) (input : String)

/-- `validate_parent_directory`. -/
def validateParentDirectory : DiskOp Unit :=
  match path.parent with
  | none => Op.fail (.invalidInput input)
  | some parent => do
    let t ← Op.get
    Op.fold (fun _ ancestor => do
      attempt (fails (.ancestor ancestor)) (.invalidInput input)
      Op.require (t.node ancestor = some .directory) (.invalidInput input)) () parent.orHere.ancestors

/-- `validate_existing_regular_file`. -/
def validateExistingRegularFile : DiskOp Unit := do
  validateParentDirectory fails path input
  attempt (fails .self) (.invalidInput input)
  match (← Op.get).node path with
  | some (.file _) => return
  | _ => Op.fail (.invalidInput input)

/-- `validate_new_regular_file`. -/
def validateNewRegularFile : DiskOp Unit := do
  validateParentDirectory fails path input
  attempt (fails .self) .storage
  let t ← Op.get
  Op.require (t.node path = none) (.invalidInput input)

end

/-- `ensure_new_destination`. -/
def ensureNewDestination (fails : PathCall → Bool) (path : Path) : DiskOp Unit :=
  validateNewRegularFile fails path "backup destination path"

/-- A new file, which is not put in the place of another. -/
def createFile (fails : Bool) (content : Bytes) (path : Path) : DiskOp Unit := do
  attempt fails .storage
  match (← Op.get).create path content with
  | none => Op.fail .storage
  | some t => Op.modify fun _ => t

/-- `create_temporary_file`, where `name` is the name that is drawn for it. -/
def createTemporaryFile (fails : PathCall → Bool) (failsCreate : Bool) (destination : Path)
    (name : Bytes) : DiskOp Path := do
  validateNewRegularFile fails destination "backup destination path"
  Op.require (destination.parent ≠ none) (.invalidInput "backup destination path")
  createFile failsCreate [] (destination.beside name)
  return destination.beside name

/-- `sync_file`. -/
def syncFile (failsOpen failsSync : Bool) : DiskOp Unit := do
  attempt failsOpen .storage
  attempt failsSync .storage

/-- `sync_parent`. -/
def syncParent (fails : ParentCall → Bool) (path : Path) : DiskOp Unit :=
  match path.parent with
  | none => Op.fail (.invalidInput "backup destination path")
  | some parent => do
    attempt (fails .openParent) .storage
    let t ← Op.get
    Op.require (t.node parent ≠ none) .storage
    attempt (fails .syncParent) .storage

/-- The content of a regular file. -/
def contentOf (path : Path) : DiskOp Bytes := do
  match (← Op.get).node path with
  | some (.file content) => return content
  | _ => Op.fail .storage

/-- The hard link of a temporary file. -/
def hardLink (fails : Bool) (temporary destination : Path) : DiskOp Unit := do
  let content ← contentOf temporary
  createFile fails content destination

/-- `publish_new_file`. -/
def publishNewFile (fails : PublishCall → Bool) (temporary destination : Path) : DiskOp Unit := do
  hardLink (fails .link) temporary destination
  syncParent (fun c => fails (.parent c)) destination

/-- A file opened with `create_new`. -/
def createNew (fails : Bool) (path : Path) : DiskOp Unit := createFile fails [] path

/-- `write_all` to a new file; if it fails, so many bytes were written. -/
def writeAll (fails : Bool) (written : ℕ) (path : Path) (bytes : Bytes) : DiskOp Unit :=
  if fails then do
    Op.modify fun t => t.put path (bytes.take written)
    Op.fail .storage
  else Op.modify fun t => t.put path bytes

/-- `write_new_file`. -/
def writeNewFile (fails : WriteCall → Bool) (written : ℕ) (path : Path) (bytes : Bytes) :
    DiskOp Unit := do
  createNew (fails .create) path
  writeAll (fails .write) written path bytes
  attempt (fails .sync) .storage
  syncParent (fun c => fails (.parent c)) path

/-! ### Connections -/

/-- The write-ahead log of a database. -/
def walPath (path : Path) : Path := path.extend (Json.utf8 "-wal")

/-- The index of the write-ahead log. -/
def shmPath (path : Path) : Path := path.extend (Json.utf8 "-shm")

/-- The rollback journal of a database. -/
def journalPath (path : Path) : Path := path.extend (Json.utf8 "-journal")

/-- What stands beside a database file. -/
def companionsOf (path : Path) (t : FileSystem) : Companions :=
  ⟨t.node (journalPath path), t.node (walPath path), t.node (shmPath path)⟩

/-- The write-ahead log is there after it was opened. -/
def logged (path : Path) (t : FileSystem) : FileSystem := if t.node path = none then t.put path [] else t

/-- The index is written when it is opened. -/
def indexed (path : Path) (index : Bytes) (t : FileSystem) : FileSystem :=
  match t.node path with
  | none | some (.file _) => t.put path index
  | some _ => t

/-- Open a file beside a database; a directory cannot be opened. -/
def openBeside (fails : Bool) (path : Path) (opened : FileSystem → FileSystem) : DiskOp Unit := do
  attempt fails .storage
  let t ← Op.get
  Op.require (t.node path ≠ some .directory) .storage
  Op.modify opened

section

variable (prim : Primitives) (sqlite : Sqlite) (manifests : Codec BackupManifest)

/-- The state after a read-only connection to the database at a path. -/
def connected (path : Path) (content : Bytes) (t : FileSystem) : FileSystem :=
  if sqlite.opensLog content (companionsOf path t) then
    indexed (shmPath path) (sqlite.walIndex content (companionsOf path t)) (logged (walPath path) t)
  else t

/-- The first statement of a connection opens the write-ahead log, and makes it if it is missing. -/
def openCompanions (fails : ConnectCall → Bool) (path : Path) (content : Bytes) (found : Companions) :
    DiskOp Unit :=
  if sqlite.opensLog content found then do
    openBeside (fails .openLog) (walPath path) (logged (walPath path))
    openBeside (fails .openIndex) (shmPath path)
      (indexed (shmPath path) (sqlite.walIndex content found))
  else pure ()

/-- What a connection finds in a file: its tables, and what the integrity check says. -/
def reading (content : Bytes) (found : Companions) : Except VaultError (Database × String) :=
  match sqlite.tables content found with
  | none => .error .storage
  | some db => .ok (db, sqlite.integrityCheck content found)

/-- A connection with `SQLITE_OPEN_READ_ONLY`. -/
def connect (fails : ConnectCall → Bool) (path : Path) : DiskOp (Database × String) := do
  attempt (fails .openDatabase) .storage
  let content ← contentOf path
  let found := companionsOf path (← Op.get)
  openCompanions sqlite fails path content found
  Op.ofExcept (reading sqlite content found)

/-- `SELECT vault_id FROM vault_meta`. -/
def selectVaultId (db : Database) : Except VaultError VaultId :=
  match db.vaultMeta with
  | none => .error .storage
  | some row => Identifier.fromSlice row.vaultId

/-- `verify_snapshot_database`. -/
def verifySnapshotDatabase (fails : DatabaseCall → Bool) (path : Path) : DiskOp VaultId := do
  let (db, integrity) ← connect sqlite (fun c => fails (.connect c)) path
  attempt (fails .integrityCheck) .storage
  Op.require (integrity = "ok") (.invariant "backup SQLite integrity_check")
  attempt (fails .foreignKeyCheck) .storage
  -- a violation names a table, which is read as an integer
  Op.require db.ForeignKeysHold .storage
  attempt (fails .selectVaultId) .storage
  Op.ofExcept (selectVaultId db)

/-! ### Snapshots -/

/-- `BACKUP_FORMAT`. -/
def backupFormat : Text := Json.utf8 "VLT/1 encrypted SQLite backup v1"

/-- `manifest_path`: the destination is put into a text, where `display` replaces what is not UTF-8. -/
def manifestPath (backup : Path) : Path := backup.display.extend (Json.utf8 ".vlt1-backup.json")

/-- The pieces `checksum_file` reads a file in. -/
def pieces (content : Bytes) : List Bytes := Chunks.chunks (64 * 1024) content

/-- The loop of `checksum_file`: what was hashed, its length, and the number of reads. -/
def checksumPiece (fails : ReadCall → Bool) (state : Bytes × ℕ × ℕ) (piece : Bytes) :
    DiskOp (Bytes × ℕ × ℕ) := do
  let (hashed, bytes, n) := state
  attempt (fails (.read n)) .storage
  Op.require (bytes + piece.length < 2 ^ 64) (.invariant "backup size exceeds u64")
  return (hashed ++ piece, bytes + piece.length, n + 1)

/-- `checksum_file`. -/
def checksumFile (fails : ReadCall → Bool) (path : Path) : DiskOp (Text × UInt64) := do
  attempt (fails .openFile) .storage
  let content ← contentOf path
  let (hashed, bytes, n) ← Op.fold (checksumPiece fails) ([], 0, 0) (pieces content)
  -- the read that finds the end
  attempt (fails (.read n)) .storage
  return (hexEncode (prim.sha256 hashed).toList, UInt64.ofNat bytes)

/-- `BackupManifest::validate`. -/
def validate (manifest : BackupManifest) : Except VaultError Unit :=
  ensure (manifest.format = backupFormat ∧ isLowerHex 16 manifest.vaultId ∧
    isLowerHex 32 manifest.databaseSha256) (.invalidFormat "backup manifest fields")

/-- `BackupManifest::read_from`. -/
def readFrom (fails : ManifestCall → Bool) (path : Path) : DiskOp BackupManifest := do
  validateExistingRegularFile (fun c => fails (.path c)) path "backup manifest path"
  attempt (fails .read) .storage
  let bytes ← contentOf path
  match manifests.fromSlice bytes with
  | none => Op.fail (.invalidFormat "backup manifest JSON")
  | some manifest => do
    Op.ofExcept (validate manifest)
    return manifest

/-- `BackupManifest::verify_backup`. -/
def verifyBackup (fails : VerifyCall → Bool) (manifest : BackupManifest) (backup : Path) :
    DiskOp Unit := do
  Op.ofExcept (validate manifest)
  validateExistingRegularFile (fun c => fails (.path c)) backup "backup source path"
  let (sha256, bytes) ← checksumFile prim (fun c => fails (.checksum c)) backup
  Op.require (bytes = manifest.databaseBytes ∧ sha256 = manifest.databaseSha256) .authentication
  let snapshotVaultId ← verifySnapshotDatabase sqlite (fun c => fails (.database c)) backup
  Op.require (snapshotVaultId.toHex = manifest.vaultId) (.invariant "backup manifest vault binding")

/-- `BackupManifest::from_snapshot`. -/
def fromSnapshot (fails : ReadCall → Bool) (vaultId : VaultId) (path : Path) :
    DiskOp BackupManifest := do
  let (databaseSha256, databaseBytes) ← checksumFile prim fails path
  return { format := backupFormat, vaultId := vaultId.toHex, databaseSha256, databaseBytes }

/-- `BackupManifest::write_to`. -/
def writeTo (fails : WriteCall → Bool) (written : ℕ) (manifest : BackupManifest) (path : Path) :
    DiskOp Unit :=
  match manifests.toVec manifest with
  | none => Op.fail .storage
  | some bytes => writeNewFile fails written path bytes

/-- The online backup to a temporary file. -/
def backupInto (fails : Bool) (db : Database) (temporary : Path) : DiskOp Unit := do
  attempt fails .storage
  Op.modify fun t => t.put temporary (sqlite.image db)

/-- `create_snapshot` of these tables; the temporary file is removed at the end. -/
def createSnapshot (fails : SnapshotCall → Bool) (written : ℕ) (name : Bytes) (db : Database)
    (vaultId : VaultId) (destination : Path) : DiskOp BackupManifest := do
  ensureNewDestination (fun c => fails (.destination false c)) destination
  let temporary ← createTemporaryFile (fun c => fails (.destination true c)) (fails .createTemporary)
    destination name
  Op.ensuring (·.remove temporary) do
    backupInto sqlite (fails .copy) db temporary
    syncFile (fails .openCopy) (fails .syncCopy)
    let snapshotVaultId ← verifySnapshotDatabase sqlite (fun c => fails (.database c)) temporary
    Op.require (snapshotVaultId = vaultId) (.invariant "backup vault ID binding")
    attempt (fails .setPermissions) .storage
    publishNewFile (fun c => fails (.publish c)) temporary destination
    let manifest ← fromSnapshot prim (fun c => fails (.checksum c)) vaultId destination
    ensureNewDestination (fun c => fails (.manifest c)) (manifestPath destination)
    writeTo manifests (fun c => fails (.write c)) written manifest (manifestPath destination)
    return manifest

/-- `restore_snapshot`. -/
def restoreSnapshot (fails : RestoreCall → Bool) (name : Bytes) (backup : Path)
    (manifest : BackupManifest) (destination : Path) : DiskOp Unit := do
  verifyBackup prim sqlite (fun c => fails (.verify c)) manifest backup
  ensureNewDestination (fun c => fails (.destination false c)) destination
  let temporary ← createTemporaryFile (fun c => fails (.destination true c)) (fails .createTemporary)
    destination name
  Op.ensuring (·.remove temporary) do
    let (db, _) ← connect sqlite (fun c => fails (.source c)) backup
    backupInto sqlite (fails .copy) db temporary
    syncFile (fails .openCopy) (fails .syncCopy)
    let _ ← verifySnapshotDatabase sqlite (fun c => fails (.database c)) temporary
    attempt (fails .setPermissions) .storage
    publishNewFile (fun c => fails (.publish c)) temporary destination

end

end Vlt1.Backup

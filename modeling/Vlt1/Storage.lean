import Vlt1.Crypto
import Vlt1.Library.Table
import Vlt1.Platform
import Vlt1.Witness

/-!
# The vault database

The tables of the vault and the statements the code runs on them, as functions of the tables. Rows
hold what SQLite holds: byte strings of any length and signed integers, so that a row another
program wrote can be malformed. Typed values are written by `toRow` functions and read back by
statements that report malformed columns.

Each insert checks the constraints of its table: primary keys, `UNIQUE` and `CHECK` clauses and
foreign keys. The `_eq_ok` lemmas say exactly when a statement succeeds and what it leaves.
-/

namespace Vlt1

open Effect

/-- A row of `vault_meta`. -/
@[ext]
structure MetaRow where
  formatVersion : ℤ
  vaultId : Bytes
  rootSalt : Bytes
  argonMemoryKib : ℤ
  argonIterations : ℤ
  argonLanes : ℤ
  rootNonce : Bytes
  rootCiphertext : Bytes
deriving DecidableEq

/-- A row of `versions` without its key. -/
@[ext]
structure VersionRow where
  objectId : Bytes
  wrappedDekNonce : Bytes
  wrappedDekCiphertext : Bytes
  manifestNonce : Bytes
  manifestCiphertext : Bytes
  plaintextLen : ℤ
  chunkSize : ℤ
  chunkCount : ℤ
deriving DecidableEq

/-- A row of `chunks` without its key. -/
@[ext]
structure ChunkRow where
  nonce : Bytes
  ciphertext : Bytes
deriving DecidableEq

/-- A row of `freshness_receipts` without its key. -/
@[ext]
structure ReceiptRow where
  vaultId : Bytes
  objectId : Bytes
  witnessEpoch : ℤ
  commitment : Bytes
  publicKey : Bytes
  signature : Bytes
deriving DecidableEq

/-- The tables of a vault. -/
@[ext]
structure Database where
  /-- `vault_meta`, which has at most one row. -/
  vaultMeta : Option MetaRow
  /-- `objects`: the active version of each object. -/
  objects : Table Bytes Bytes
  /-- `versions`. -/
  versions : Table Bytes VersionRow
  /-- `chunks`, keyed by version and index. -/
  chunks : Table (Bytes × ℤ) ChunkRow
  /-- `pending_witness_publications`: the expected epoch of each staged version. -/
  pending : Table Bytes ℤ
  /-- `freshness_receipts`. -/
  receipts : Table Bytes ReceiptRow
deriving DecidableEq

/-- The tables after the schema was created. -/
def Database.empty : Database := ⟨none, ∅, ∅, ∅, ∅, ∅⟩

/-- Row material required to verify and open an immutable version. -/
@[ext]
structure StoredVersion where
  objectId : ObjectId
  versionId : VersionId
  wrappedDek : SealedRecord
  manifest : SealedRecord
  plaintextLen : UInt64
  chunkSize : UInt32
  chunkCount : UInt32
deriving DecidableEq

/-- The row that stores a version. -/
def StoredVersion.toRow (v : StoredVersion) : VersionRow where
  objectId := v.objectId.blob
  wrappedDekNonce := v.wrappedDek.nonce.toList
  wrappedDekCiphertext := v.wrappedDek.ciphertext
  manifestNonce := v.manifest.nonce.toList
  manifestCiphertext := v.manifest.ciphertext
  plaintextLen := v.plaintextLen.toNat
  chunkSize := sqlOfUInt32 v.chunkSize
  chunkCount := sqlOfUInt32 v.chunkCount

/-- The row that stores a chunk. -/
def EncryptedChunk.toRow (c : EncryptedChunk) : ChunkRow where
  nonce := c.record.nonce.toList
  ciphertext := c.record.ciphertext

/-- The row that stores a receipt. -/
def ReceiptRow.ofReceipt (r : WitnessReceipt) : ReceiptRow where
  vaultId := r.vaultId.blob
  objectId := r.objectId.blob
  witnessEpoch := r.witnessEpoch.toNat
  commitment := r.commitment.toList
  publicKey := r.publicKey.toList
  signature := r.signature.toList

/-- The row that stores a Root Key envelope. -/
def MetaRow.ofEnvelope (e : RootEnvelope) : MetaRow where
  formatVersion := sqlOfUInt32 Vlt1.formatVersion
  vaultId := e.vaultId.blob
  rootSalt := e.salt.toList
  argonMemoryKib := sqlOfUInt32 e.params.memoryKib
  argonIterations := sqlOfUInt32 e.params.iterations
  argonLanes := sqlOfUInt32 e.params.lanes
  rootNonce := e.record.nonce.toList
  rootCiphertext := e.record.ciphertext

/-! ### Reading statements -/

/-- A byte column as a 96-bit nonce. -/
def bytes12 (b : Bytes) : Except VaultError (Block 12) :=
  fixedBytes 12 "invalid 96-bit nonce length" b

/-- A byte column as a 128-bit value. -/
def bytes16 (b : Bytes) : Except VaultError (Block 16) :=
  fixedBytes 16 "invalid 128-bit identifier length" b

/-- A byte column as a 256-bit value. -/
def bytes32 (b : Bytes) : Except VaultError (Block 32) :=
  fixedBytes 32 "invalid 256-bit length" b

/-- A byte column as a 512-bit signature. -/
def bytes64 (b : Bytes) : Except VaultError (Block 64) :=
  fixedBytes 64 "invalid 512-bit signature length" b

namespace Database

section Reading

variable (db : Database)

/-- `SELECT active_version_id FROM objects`. -/
def selectActive (objectId : ObjectId) : Except VaultError VersionId :=
  match db.objects.lookup objectId.blob with
  | none => .error .notFound
  | some active => Identifier.fromSlice active

/-- `SELECT .. FROM versions`, with the checks of the columns read. -/
def selectVersion (versionId : VersionId) : Except VaultError StoredVersion :=
  match db.versions.lookup versionId.blob with
  | none => .error .notFound
  | some row => do
    let plaintextLen ← sqlToUInt64 row.plaintextLen
    let chunkSize ← sqlToUInt32 row.chunkSize
    let chunkCount ← sqlToUInt32 row.chunkCount
    let objectId ← Identifier.fromSlice row.objectId
    let wrappedNonce ← bytes12 row.wrappedDekNonce
    let manifestNonce ← bytes12 row.manifestNonce
    return { objectId, versionId
             wrappedDek := ⟨wrappedNonce, row.wrappedDekCiphertext⟩
             manifest := ⟨manifestNonce, row.manifestCiphertext⟩
             plaintextLen, chunkSize, chunkCount }

/-- `SELECT .. FROM freshness_receipts`, with the signature check. -/
def selectReceipt (prim : Primitives) (versionId : VersionId) :
    Except VaultError (Option WitnessReceipt) :=
  match db.receipts.lookup versionId.blob with
  | none => .ok none
  | some row => do
    let witnessEpoch ← sqlToUInt64 row.witnessEpoch
    let vaultId ← Identifier.fromSlice row.vaultId
    let objectId ← Identifier.fromSlice row.objectId
    let commitment ← bytes32 row.commitment
    let publicKey ← bytes32 row.publicKey
    let signature ← bytes64 row.signature
    let receipt ← WitnessReceipt.new prim
      { vaultId, objectId, versionId, witnessEpoch, commitment, publicKey, signature }
    return some receipt

/-- The keys of `objects` in byte order. -/
def selectObjectKeys : List Bytes := (db.objects.select (· ≤ ·)).map Prod.fst

/-- The rows of `pending_witness_publications` in the byte order of their keys. -/
def selectPending : List (Bytes × ℤ) := db.pending.select (· ≤ ·)

/-- The chunk rows of a version in the order of their index. -/
def selectChunks (versionId : VersionId) : List (ℤ × ChunkRow) :=
  ((db.chunks.rows.filter fun r => r.1.1 = versionId.blob).map fun r => (r.1.2, r.2)).insertionSort
    fun a b => a.1 ≤ b.1

/-- The sole Root Key envelope. -/
def rootEnvelope (prim : Primitives) : Except VaultError RootEnvelope :=
  match db.vaultMeta with
  | none => .error .notFound
  | some row => do
    let version ← sqlToUInt32 row.formatVersion
    let memoryKib ← sqlToUInt32 row.argonMemoryKib
    let iterations ← sqlToUInt32 row.argonIterations
    let lanes ← sqlToUInt32 row.argonLanes
    ensure (version = Vlt1.formatVersion) (.invalidFormat "unsupported vault format version")
    let params : KdfParams := { memoryKib, iterations, lanes }
    params.validatePersisted prim
    let vaultId ← Identifier.fromSlice row.vaultId
    let salt ← bytes16 row.rootSalt
    let nonce ← bytes12 row.rootNonce
    return { vaultId, salt, params, record := ⟨nonce, row.rootCiphertext⟩ }

/-- `PRAGMA foreign_key_check` finds no violation. -/
def ForeignKeysHold : Prop :=
  (∀ r ∈ db.chunks.rows, db.versions.lookup r.1.1 ≠ none) ∧
    (∀ r ∈ db.pending.rows, db.versions.lookup r.1 ≠ none) ∧
    ∀ r ∈ db.receipts.rows, db.versions.lookup r.1 ≠ none

instance : Decidable db.ForeignKeysHold := inferInstanceAs (Decidable (_ ∧ _))

/-- The queries of `startup_integrity_check` that look at the rows; `PRAGMA integrity_check` is
SQLite's own. -/
def startupIntegrityCheck : Except VaultError Unit := do
  -- the name of the table in the row of a violation is read as a number, which fails
  ensure db.ForeignKeysHold .storage
  ensure (∀ r ∈ db.objects.rows, (db.versions.lookup r.2).map VersionRow.objectId = some r.1)
    (.invariant "active version pointer binding")
  ensure (∀ r ∈ db.pending.rows, db.versions.lookup r.1 ≠ none)
    (.invariant "pending witness publication binding")

end Reading

/-! ### Writing statements -/

section Writing

variable (db : Database)

/-- Insert the envelope row. -/
def insertEnvelope (e : RootEnvelope) : Except VaultError Database := do
  ensure (db.vaultMeta = none) .storage
  return { db with vaultMeta := some (.ofEnvelope e) }

/-- Insert a version row. -/
def insertVersion (v : StoredVersion) : Except VaultError Database := do
  let plaintextLen ← sqlOfUInt64 v.plaintextLen
  ensure (v.chunkSize ≠ 0) .storage
  ensure (db.versions.lookup v.versionId.blob = none) .storage
  return { db with versions := db.versions.insert v.versionId.blob { v.toRow with plaintextLen } }

/-- Insert a chunk row of a version. -/
def insertChunk (versionId : VersionId) (chunk : EncryptedChunk) : Except VaultError Database := do
  let key := (versionId.blob, sqlOfUInt32 chunk.index)
  ensure (db.chunks.lookup key = none) .storage
  ensure (∀ r ∈ db.chunks.rows, r.1.1 = versionId.blob → r.2.nonce ≠ chunk.record.nonce.toList)
    .storage
  ensure (db.versions.lookup versionId.blob ≠ none) .storage
  return { db with chunks := db.chunks.insert key chunk.toRow }

/-- Insert the chunk rows of a version, in order. -/
def insertChunks (versionId : VersionId) : Database → List EncryptedChunk →
    Except VaultError Database
  | db, [] => .ok db
  | db, chunk :: chunks => do
    let db ← db.insertChunk versionId chunk
    insertChunks versionId db chunks

/-- The chunk table with the rows of a version's chunks. -/
def insertRows (versionId : VersionId) (t : Table (Bytes × ℤ) ChunkRow)
    (chunks : List EncryptedChunk) : Table (Bytes × ℤ) ChunkRow :=
  chunks.foldl (fun t c => t.insert (versionId.blob, sqlOfUInt32 c.index) c.toRow) t

/-- Insert a receipt row. -/
def insertReceipt (r : WitnessReceipt) : Except VaultError Database := do
  let witnessEpoch ← sqlOfUInt64 r.witnessEpoch
  ensure (db.receipts.lookup r.versionId.blob = none) .storage
  ensure (∀ row ∈ db.receipts.rows,
    ¬(row.2.publicKey = r.publicKey.toList ∧ row.2.witnessEpoch = witnessEpoch)) .storage
  ensure (db.versions.lookup r.versionId.blob ≠ none) .storage
  return { db with
    receipts := db.receipts.insert r.versionId.blob { ReceiptRow.ofReceipt r with witnessEpoch } }

/-- Point an object at a version. -/
def upsertActive (objectId : ObjectId) (versionId : VersionId) : Database :=
  { db with objects := db.objects.insert objectId.blob versionId.blob }

/-- Insert a pending row for a staged version. -/
def insertPending (versionId : VersionId) (expectedEpoch : UInt64) : Except VaultError Database := do
  let expectedEpoch ← sqlOfUInt64 expectedEpoch
  ensure (db.pending.lookup versionId.blob = none) .storage
  ensure (db.versions.lookup versionId.blob ≠ none) .storage
  return { db with pending := db.pending.insert versionId.blob expectedEpoch }

/-- Delete the pending row of a version. -/
def deletePending (versionId : VersionId) : Database :=
  { db with pending := db.pending.erase versionId.blob }

/-! ### Transactions -/

/-- The transaction of `publish_inner`. -/
def publishBody (v : StoredVersion) (chunks : List EncryptedChunk)
    (receipt : Option WitnessReceipt) : Except VaultError Database := do
  let db ← db.insertVersion v
  let db ← insertChunks v.versionId db chunks
  let db ← match receipt with
    | some r => db.insertReceipt r
    | none => .ok db
  return db.upsertActive v.objectId v.versionId

/-- The transaction of `stage_witness_publication`. -/
def stageBody (v : StoredVersion) (chunks : List EncryptedChunk) (expectedEpoch : UInt64) :
    Except VaultError Database := do
  let db ← db.insertVersion v
  let db ← insertChunks v.versionId db chunks
  db.insertPending v.versionId expectedEpoch

/-- The expected epoch of a staged version, which must be there. -/
def selectStaged (versionId : VersionId) : Except VaultError UInt64 :=
  match db.pending.lookup versionId.blob with
  | none => .error (.invariant "missing staged witness publication")
  | some expectedEpoch => sqlToUInt64 expectedEpoch

/-- The transaction of `finalize_witness_publication`. -/
def finalizeBody (v : StoredVersion) (receipt : WitnessReceipt) : Except VaultError Database := do
  let _ ← db.selectStaged v.versionId
  let db ← db.insertReceipt receipt
  return (db.upsertActive v.objectId v.versionId).deletePending v.versionId

/-- The statement of `replace_root_envelope`. -/
def replaceEnvelopeBody (e : RootEnvelope) : Except VaultError Database :=
  match db.vaultMeta with
  | none => .error (.invariant "Root Key envelope replacement")
  | some row => do
    ensure (row.vaultId = e.vaultId.blob) (.invariant "Root Key envelope replacement")
    return { db with
      vaultMeta := some { MetaRow.ofEnvelope e with formatVersion := row.formatVersion } }

end Writing

end Database

/-! ### When statements succeed -/

namespace Database

section

variable {db db' : Database} {prim : Primitives}

/-- The active version is what the table says. -/
theorem selectActive_eq_ok {o : ObjectId} {u : VersionId} :
    db.selectActive o = .ok u ↔ db.objects.lookup o.blob = some u.blob := by
  unfold selectActive
  cases db.objects.lookup o.blob with
  | none => simp
  | some active => simp [Identifier.fromSlice_eq_ok]

/-- The objects listed are those with an active version. -/
theorem mem_selectObjectKeys {b : Bytes} :
    b ∈ db.selectObjectKeys ↔ db.objects.lookup b ≠ none := by
  simp only [selectObjectKeys, List.mem_map, Prod.exists, Table.mem_select]
  rw [Option.ne_none_iff_exists']
  constructor
  · rintro ⟨k, r, hr, rfl⟩
    exact ⟨r, hr⟩
  · rintro ⟨r, hr⟩
    exact ⟨b, r, hr, rfl⟩

/-- A version is read exactly when its row stores it. -/
theorem selectVersion_eq_ok {u : VersionId} {v : StoredVersion} :
    db.selectVersion u = .ok v ↔
      v.versionId = u ∧ v.plaintextLen.toNat < sqlIntegerBound ∧
        db.versions.lookup u.blob = some v.toRow := by
  unfold selectVersion
  cases db.versions.lookup u.blob with
  | none => simp
  | some row =>
    simp only [except_bind_eq_ok, sqlToUInt64_eq_ok, sqlToUInt32_eq_ok, Identifier.fromSlice_eq_ok,
      bytes12, fixedBytes_eq_ok, Option.some.injEq]
    constructor
    · rintro ⟨len, ⟨hlen, hrowlen⟩, size, hsize, count, hcount, o, ho, wn, hwn, mn, hmn, hv⟩
      obtain rfl := Except.ok.inj hv
      exact ⟨rfl, hlen, VersionRow.ext ho hwn rfl hmn rfl hrowlen hsize hcount⟩
    · rintro ⟨rfl, hlen, rfl⟩
      exact ⟨_, ⟨hlen, rfl⟩, _, rfl, _, rfl, _, rfl, _, rfl, _, rfl, rfl⟩

/-- No receipt is returned exactly where none is stored. -/
theorem selectReceipt_eq_ok_none {u : VersionId} :
    db.selectReceipt prim u = .ok none ↔ db.receipts.lookup u.blob = none := by
  unfold selectReceipt
  cases db.receipts.lookup u.blob with
  | none => simp
  | some row =>
    simp only [except_bind_eq_ok, reduceCtorEq, iff_false, not_exists, not_and]
    intro _ _ _ _ _ _ _ _ _ _ _ _ _ _ h
    cases h

/-- A receipt is read exactly when its row stores it and its signature verifies. -/
theorem selectReceipt_eq_ok_some {u : VersionId} {r : WitnessReceipt} :
    db.selectReceipt prim u = .ok (some r) ↔
      r.versionId = u ∧ r.witnessEpoch.toNat < sqlIntegerBound ∧ r.Valid prim ∧
        db.receipts.lookup u.blob = some (.ofReceipt r) := by
  unfold selectReceipt
  cases db.receipts.lookup u.blob with
  | none => simp
  | some row =>
    simp only [except_bind_eq_ok, sqlToUInt64_eq_ok, Identifier.fromSlice_eq_ok, bytes32, bytes64,
      fixedBytes_eq_ok, WitnessReceipt.new_eq_ok, Option.some.injEq]
    constructor
    · rintro ⟨e, ⟨he, hrowe⟩, v, hv, o, ho, c, hc, k, hk, s, hs, r', ⟨hvalid, rfl⟩, hr⟩
      obtain rfl := Option.some.inj (Except.ok.inj hr)
      exact ⟨rfl, he, hvalid, ReceiptRow.ext hv ho hrowe hc hk hs⟩
    · rintro ⟨rfl, he, hvalid, rfl⟩
      exact ⟨_, ⟨he, rfl⟩, _, rfl, _, rfl, _, rfl, _, rfl, _, rfl, r, ⟨hvalid, rfl⟩, rfl⟩

/-- A version is inserted exactly when its columns fit and its identifier is new. -/
theorem insertVersion_eq_ok {v : StoredVersion} :
    db.insertVersion v = .ok db' ↔
      v.plaintextLen.toNat < sqlIntegerBound ∧ v.chunkSize ≠ 0 ∧
        db.versions.lookup v.versionId.blob = none ∧
        db' = { db with versions := db.versions.insert v.versionId.blob v.toRow } := by
  simp only [insertVersion, except_bind_eq_ok, sqlOfUInt64_eq_ok, ensure_eq_ok]
  constructor
  · rintro ⟨_, ⟨hlen, rfl⟩, _, hsize, _, hnone, h⟩
    exact ⟨hlen, hsize, hnone, (Except.ok.inj h).symm⟩
  · rintro ⟨hlen, hsize, hnone, rfl⟩
    exact ⟨_, ⟨hlen, rfl⟩, (), hsize, (), hnone, rfl⟩

/-- A chunk is inserted exactly when its place and its nonce are new and its version is there. -/
theorem insertChunk_eq_ok {u : VersionId} {c : EncryptedChunk} :
    db.insertChunk u c = .ok db' ↔
      db.chunks.lookup (u.blob, sqlOfUInt32 c.index) = none ∧
        (∀ r ∈ db.chunks.rows, r.1.1 = u.blob → r.2.nonce ≠ c.record.nonce.toList) ∧
        db.versions.lookup u.blob ≠ none ∧
        db' = { db with chunks := db.chunks.insert (u.blob, sqlOfUInt32 c.index) c.toRow } := by
  simp only [insertChunk, except_bind_eq_ok, ensure_eq_ok]
  constructor
  · rintro ⟨_, hkey, _, hnonce, _, hversion, h⟩
    exact ⟨hkey, hnonce, hversion, (Except.ok.inj h).symm⟩
  · rintro ⟨hkey, hnonce, hversion, rfl⟩
    exact ⟨(), hkey, (), hnonce, (), hversion, rfl⟩

/-- A receipt is inserted exactly when it fits, its version has none and its epoch is not used by
its signer. -/
theorem insertReceipt_eq_ok {r : WitnessReceipt} :
    db.insertReceipt r = .ok db' ↔
      r.witnessEpoch.toNat < sqlIntegerBound ∧ db.receipts.lookup r.versionId.blob = none ∧
        (∀ row ∈ db.receipts.rows, ¬(row.2.publicKey = r.publicKey.toList ∧
          row.2.witnessEpoch = r.witnessEpoch.toNat)) ∧
        db.versions.lookup r.versionId.blob ≠ none ∧
        db' = { db with receipts := db.receipts.insert r.versionId.blob (.ofReceipt r) } := by
  simp only [insertReceipt, except_bind_eq_ok, sqlOfUInt64_eq_ok, ensure_eq_ok]
  constructor
  · rintro ⟨_, ⟨hepoch, rfl⟩, _, hnone, _, hunique, _, hversion, h⟩
    exact ⟨hepoch, hnone, hunique, hversion, (Except.ok.inj h).symm⟩
  · rintro ⟨hepoch, hnone, hunique, hversion, rfl⟩
    exact ⟨_, ⟨hepoch, rfl⟩, (), hnone, (), hunique, (), hversion, rfl⟩

/-- A staging is inserted exactly when its epoch fits, it is new and its version is there. -/
theorem insertPending_eq_ok {u : VersionId} {e : UInt64} :
    db.insertPending u e = .ok db' ↔
      e.toNat < sqlIntegerBound ∧ db.pending.lookup u.blob = none ∧
        db.versions.lookup u.blob ≠ none ∧
        db' = { db with pending := db.pending.insert u.blob e.toNat } := by
  simp only [insertPending, except_bind_eq_ok, sqlOfUInt64_eq_ok, ensure_eq_ok]
  constructor
  · rintro ⟨_, ⟨hepoch, rfl⟩, _, hnone, _, hversion, h⟩
    exact ⟨hepoch, hnone, hversion, (Except.ok.inj h).symm⟩
  · rintro ⟨hepoch, hnone, hversion, rfl⟩
    exact ⟨_, ⟨hepoch, rfl⟩, (), hnone, (), hversion, rfl⟩

/-- A staged version is found with the epoch it was staged at. -/
theorem selectStaged_eq_ok {u : VersionId} {e : UInt64} :
    db.selectStaged u = .ok e ↔
      e.toNat < sqlIntegerBound ∧ db.pending.lookup u.blob = some (e.toNat : ℤ) := by
  unfold selectStaged
  cases db.pending.lookup u.blob with
  | none => simp
  | some i => simp [sqlToUInt64_eq_ok]

/-- An envelope replaces only that of its own vault. -/
theorem replaceEnvelopeBody_eq_ok {e : RootEnvelope} :
    db.replaceEnvelopeBody e = .ok db' ↔
      ∃ row, db.vaultMeta = some row ∧ row.vaultId = e.vaultId.blob ∧ db' = { db with
        vaultMeta := some { MetaRow.ofEnvelope e with formatVersion := row.formatVersion } } := by
  unfold replaceEnvelopeBody
  cases db.vaultMeta with
  | none => simp
  | some row =>
    simp only [except_bind_eq_ok, ensure_eq_ok, Option.some.injEq]
    constructor
    · rintro ⟨_, hid, h⟩
      exact ⟨row, rfl, hid, (Except.ok.inj h).symm⟩
    · rintro ⟨_, rfl, hid, rfl⟩
      exact ⟨(), hid, rfl⟩

/-- The envelope belongs to the stored vault. -/
theorem vaultId_of_rootEnvelope {e : RootEnvelope} {row : MetaRow}
    (h : db.rootEnvelope prim = .ok e) (hrow : db.vaultMeta = some row) :
    row.vaultId = e.vaultId.blob := by
  unfold rootEnvelope at h
  rw [hrow] at h
  simp only [except_bind_eq_ok, Identifier.fromSlice_eq_ok] at h
  obtain ⟨_, -, _, -, _, -, _, -, _, -, _, -, id, hid, _, -, _, -, he⟩ := h
  obtain rfl := Except.ok.inj he
  exact hid

/-- Inserting chunks changes no other table. -/
theorem insertChunks_eq_ok {u : VersionId} {chunks : List EncryptedChunk}
    (h : insertChunks u db chunks = .ok db') :
    db' = { db with chunks := insertRows u db.chunks chunks } := by
  induction chunks generalizing db with
  | nil => exact (Except.ok.inj h).symm
  | cons c chunks ih =>
    obtain ⟨db1, hinsert, h⟩ := except_bind_eq_ok.mp h
    obtain ⟨-, -, -, rfl⟩ := insertChunk_eq_ok.mp hinsert
    exact ih h

end

section Rows

variable {u : VersionId} {chunks : List EncryptedChunk} {key : Bytes × ℤ}

theorem insertRows_concat (t : Table (Bytes × ℤ) ChunkRow) (c : EncryptedChunk) :
    insertRows u t (chunks ++ [c]) =
      (insertRows u t chunks).insert (u.blob, sqlOfUInt32 c.index) c.toRow := by
  rw [insertRows, List.foldl_append]
  rfl

/-- The rows of other versions and indices stay. -/
theorem lookup_insertRows_of_ne {t : Table (Bytes × ℤ) ChunkRow}
    (h : ∀ c ∈ chunks, key ≠ (u.blob, sqlOfUInt32 c.index)) :
    (insertRows u t chunks).lookup key = t.lookup key := by
  induction chunks generalizing t with
  | nil => rfl
  | cons c chunks ih =>
    refine (ih fun c hc => h c (List.mem_cons_of_mem _ hc)).trans ?_
    rw [Table.lookup_insert_eq, if_neg (h c List.mem_cons_self)]

/-- Each chunk is found under its index. -/
theorem lookup_insertRows_of_mem {t : Table (Bytes × ℤ) ChunkRow} {c : EncryptedChunk}
    (hnodup : (chunks.map EncryptedChunk.index).Nodup) (hc : c ∈ chunks) :
    (insertRows u t chunks).lookup (u.blob, sqlOfUInt32 c.index) = some c.toRow := by
  induction chunks generalizing t with
  | nil => cases hc
  | cons c' chunks ih =>
    obtain ⟨hnot, hnodup⟩ := List.nodup_cons.mp hnodup
    rcases List.mem_cons.mp hc with rfl | hc
    · -- no later chunk has its index
      have hrest : ∀ c' ∈ chunks, (u.blob, sqlOfUInt32 c.index) ≠ (u.blob, sqlOfUInt32 c'.index) :=
        fun c' hc' hkey =>
          hnot (sqlOfUInt32_inj (Prod.mk.inj hkey).2 ▸ List.mem_map_of_mem hc')
      refine (lookup_insertRows_of_ne (t := t.insert _ _) hrest).trans ?_
      rw [Table.lookup_insert_eq, if_pos rfl]
    · exact ih hnodup hc

end Rows

end Database

end Vlt1

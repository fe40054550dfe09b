import Vlt1.Library.Chunks
import Vlt1.Vault.Read

/-!
# Publishing a version

Three paths make a new version active. `put` prepares a version in memory and publishes it in one
transaction. `putFromReader` fills one transaction chunk by chunk from a reader. `putWithWitness`
stages a prepared version durably, asks the witness for a receipt, and only then makes the version
active together with the receipt; `recoverPendingWitnessPublications` completes what such a call
left staged.
-/

namespace Vlt1

open Effect

/-- Default plaintext chunk size. -/
def defaultChunkSize : ℕ := 4 * 1024 * 1024

/-- A version sealed in memory. -/
structure PreparedVersion where
  storedVersion : StoredVersion
  chunks : List EncryptedChunk
deriving DecidableEq

/-! ### Readers -/

/-- What one call of a reader's `read` yields. -/
inductive ReadStep where
  /-- Bytes, of which the buffer takes as many as it has room for; no bytes is end of file. -/
  | data (bytes : Bytes)
  /-- An `Interrupted` error, which is retried. -/
  | interrupted
  /-- Any other error. -/
  | failed
deriving DecidableEq

/-- A reader, as the steps it will yield; end of file after the last. -/
abbrev Reader := List ReadStep

/-- Fill a buffer of `capacity` bytes, of which `filled` are there already. -/
def readNextChunk (capacity : ℕ) (filled : Bytes) : Reader → Except VaultError (Bytes × Reader)
  | [] => .ok (filled, [])
  | step :: rest =>
    if filled.length < capacity then
      match step with
      | .interrupted => readNextChunk capacity filled rest
      | .failed => .error .storage
      | .data bytes =>
        let room := capacity - filled.length
        if bytes = [] then .ok (filled, rest)
        else if bytes.length ≤ room then readNextChunk capacity (filled ++ bytes) rest
        else .ok (filled ++ bytes.take room, .data (bytes.drop room) :: rest)
    else .ok (filled, step :: rest)

/-- The bytes and steps a reader still has. -/
def Reader.size (reader : Reader) : ℕ :=
  (reader.map fun
    | .data bytes => bytes.length + 1
    | _ => 1).sum

/-- The chunks read until end of file, and how reading ended. Every chunk uses up at least one byte
or step of the reader, so `fuel` above `Reader.size` never runs out. -/
def Reader.chunksWithin (capacity : ℕ) : ℕ → Reader → List Bytes × Except VaultError Unit
  | 0, _ => ([], .ok ())
  | fuel + 1, reader =>
    match readNextChunk capacity [] reader with
    | .error e => ([], .error e)
    | .ok ([], _) => ([], .ok ())
    | .ok (chunk, rest) =>
      let (chunks, ending) := Reader.chunksWithin capacity fuel rest
      (chunk :: chunks, ending)

/-- The chunks a reader delivers into buffers of `capacity` bytes. -/
def Reader.chunks (capacity : ℕ) (reader : Reader) : List Bytes × Except VaultError Unit :=
  Reader.chunksWithin capacity (reader.size + 1) reader

/-! ### Streaming publication -/

/-- An uncommitted version that receives encrypted chunks one by one. -/
structure StreamingPublication where
  /-- The tables as the open transaction sees them. -/
  working : Database
  objectId : ObjectId
  versionId : VersionId
  nextChunkIndex : UInt32
  plaintextLen : UInt64

/-- Where the streaming loop stands. -/
structure StreamingState where
  publication : StreamingPublication
  digest : ChunkDigestBuilder
  chunkCount : UInt32
  plaintextLen : UInt64

/-- The placeholder row of a streamed version. -/
def streamingPlaceholder (objectId : ObjectId) (versionId : VersionId) (wrappedDek : SealedRecord)
    (chunkSize : UInt32) : StoredVersion where
  objectId := objectId
  versionId := versionId
  wrappedDek := wrappedDek
  manifest := ⟨Block.zero 12, []⟩
  plaintextLen := 0
  chunkSize := chunkSize
  chunkCount := 0

/-- The last writes of a streamed version: its Manifest and length, and the active pointer. -/
def StreamingPublication.finishBody (p : StreamingPublication) (manifest : SealedRecord)
    (chunkCount : UInt32) : Except VaultError Database := do
  let plaintextLen ← sqlOfUInt64 p.plaintextLen
  match p.working.versions.lookup p.versionId.blob with
  | none => .error (.invariant "streamed version finalization")
  | some row =>
    ensure (row.objectId = p.objectId.blob) (.invariant "streamed version finalization")
    let row' : VersionRow := { row with
      manifestNonce := manifest.nonce.toList
      manifestCiphertext := manifest.ciphertext
      plaintextLen
      chunkCount := sqlOfUInt32 chunkCount }
    let db := { p.working with versions := p.working.versions.insert p.versionId.blob row' }
    return db.upsertActive p.objectId p.versionId

section

variable {ω : Type} [Machine ω]

/-- Start an uncommitted version with its placeholder row. -/
def beginStreamingPublication (objectId : ObjectId) (versionId : VersionId)
    (wrappedDek : SealedRecord) (chunkSize : UInt32) : VaultOp ω StreamingPublication := do
  storageFault
  let db ← tables
  let working ← Op.ofExcept
    (db.insertVersion (streamingPlaceholder objectId versionId wrappedDek chunkSize))
  return { working, objectId, versionId, nextChunkIndex := 0, plaintextLen := 0 }

/-- Insert the next encrypted chunk. -/
def StreamingPublication.appendChunk (p : StreamingPublication) (chunk : EncryptedChunk)
    (plaintextLen : UInt32) : VaultOp ω StreamingPublication := do
  Op.require (chunk.index = p.nextChunkIndex) (.invariant "streamed chunk index")
  storageFault
  let working ← Op.ofExcept (p.working.insertChunk p.versionId chunk)
  let next ← Op.ofExcept
    (checkedAdd32 p.nextChunkIndex 1 (.invariant "streamed chunk count"))
  let total ← Op.ofExcept
    (checkedAdd64 p.plaintextLen plaintextLen.toUInt64 (.invariant "streamed plaintext length"))
  return { p with working, nextChunkIndex := next, plaintextLen := total }

/-- Write the final metadata, advance the active pointer and commit. -/
def StreamingPublication.finish (p : StreamingPublication) (manifest : SealedRecord)
    (chunkCount : UInt32) : VaultOp ω Unit := do
  Op.require (chunkCount = p.nextChunkIndex) (.invariant "streamed Manifest chunk count")
  storageFault
  let db ← Op.ofExcept (p.finishBody manifest chunkCount)
  commit db
  enforceOwnerPrivateStateFiles

variable (prim : Primitives)

/-- Seal one chunk of a version. -/
def sealChunk (vaultId : VaultId) (objectId : ObjectId) (versionId : VersionId)
    (dataKey : Block 32) (index : UInt32) (chunk : Bytes) : VaultOp ω EncryptedChunk := do
  Op.require (chunk.length < 2 ^ 32) (.invalidInput "chunk length")
  let aad := chunkAad vaultId objectId versionId index (UInt32.ofNat chunk.length)
  let record ← sealRecord prim dataKey.toList aad chunk
  return { index, record }

/-- Seal the Manifest of a version under a key derived from its DEK. -/
def sealManifest (vaultId : VaultId) (dataKey : Block 32) (manifest : Manifest) :
    VaultOp ω SealedRecord := do
  let manifestKey ← Op.ofExcept (deriveManifestKey prim dataKey manifest.versionId)
  sealRecord prim manifestKey.toList (manifestAad vaultId manifest.objectId manifest.versionId)
    (encodeManifest manifest)

/-- Wrap a version DEK under the vault's key-encryption key. -/
def wrapDataKey (rootKey : Block 32) (vaultId : VaultId) (objectId : ObjectId)
    (versionId : VersionId) (dataKey : Block 32) : VaultOp ω SealedRecord := do
  let wrappingKey ← Op.ofExcept (deriveKek prim rootKey vaultId)
  sealRecord prim wrappingKey.toList (wrappedDekAad vaultId objectId versionId) dataKey.toList

/-- One round of the streaming loop, for a chunk that was read. -/
def streamChunk (vaultId : VaultId) (dataKey : Block 32) (s : StreamingState) (chunk : Bytes) :
    VaultOp ω StreamingState := do
  Op.require (s.chunkCount < maxChunksPerVersion) (.invalidInput "nonce budget exceeded")
  let sealedChunk ← sealChunk prim vaultId s.publication.objectId s.publication.versionId dataKey
    s.chunkCount chunk
  let chunkLen := UInt32.ofNat chunk.length
  let publication ← s.publication.appendChunk sealedChunk chunkLen
  let plaintextLen ← Op.ofExcept (checkedAdd64 s.plaintextLen chunkLen.toUInt64
    (.invalidInput "plaintext length exceeds u64"))
  let chunkCount ← Op.ofExcept (checkedAdd32 s.chunkCount 1 (.invalidInput "too many chunks"))
  return { publication, digest := s.digest.update sealedChunk.index sealedChunk.record
           chunkCount, plaintextLen }

/-- Encrypt and publish one version from a reader. -/
def putFromReaderInner (objectId : ObjectId) (reader : Reader) (chunkSize : ℕ) :
    VaultOp ω VersionId := do
  Op.require (chunkSize ≠ 0) (.invalidInput "invalid chunk size")
  Op.require (chunkSize < 2 ^ 32) (.invalidInput "invalid chunk size")
  let rootKey ← requireRootKey
  let vaultId := (← Op.get).vaultId
  let versionId ← randomVersionId
  let dataKey ← randomBytes 32
  let wrappedDek ← wrapDataKey prim rootKey vaultId objectId versionId dataKey
  let publication ← beginStreamingPublication objectId versionId wrappedDek
    (UInt32.ofNat chunkSize)
  let (chunks, ending) := reader.chunks chunkSize
  let s ← Op.fold (streamChunk prim vaultId dataKey)
    { publication, digest := .new, chunkCount := 0, plaintextLen := 0 } chunks
  Op.ofExcept ending
  let manifest ← sealManifest prim vaultId dataKey
    { formatVersion, objectId, versionId, plaintextLen := s.plaintextLen
      chunkSize := UInt32.ofNat chunkSize, chunkCount := s.chunkCount
      chunkDigest := s.digest.finalize prim }
  s.publication.finish manifest s.chunkCount
  return versionId

/-- Seal a plaintext as a new version. -/
def prepareVersion (objectId : ObjectId) (plaintext : Bytes) (chunkSize : ℕ) :
    VaultOp ω PreparedVersion := do
  let rootKey ← requireRootKey
  let vaultId := (← Op.get).vaultId
  Op.require (chunkSize ≠ 0) (.invalidInput "invalid chunk size")
  Op.require (chunkSize < 2 ^ 32) (.invalidInput "invalid chunk size")
  Op.require (plaintext.length < 2 ^ 64) (.invalidInput "plaintext length exceeds u64")
  let chunkCount := Chunks.count chunkSize plaintext.length
  Op.require (chunkCount < 2 ^ 32) (.invalidInput "too many chunks")
  Op.require (chunkCount ≤ maxChunksPerVersion.toNat) (.invalidInput "nonce budget exceeded")
  let versionId ← randomVersionId
  let dataKey ← randomBytes 32
  let chunks ← Op.fold (fun chunks (offset, chunk) => do
      Op.require (offset < 2 ^ 32) (.invalidInput "chunk index")
      let sealedChunk ← sealChunk prim vaultId objectId versionId dataKey (UInt32.ofNat offset) chunk
      return chunks ++ [sealedChunk])
    [] ((Chunks.chunks chunkSize plaintext).mapIdx fun offset chunk => (offset, chunk))
  let digest := chunks.foldl (fun d c => d.update c.index c.record) ChunkDigestBuilder.new
  let manifest : Manifest :=
    { formatVersion, objectId, versionId, plaintextLen := UInt64.ofNat plaintext.length
      chunkSize := UInt32.ofNat chunkSize, chunkCount := UInt32.ofNat chunkCount
      chunkDigest := digest.finalize prim }
  let sealedManifest ← sealManifest prim vaultId dataKey manifest
  let wrappedDek ← wrapDataKey prim rootKey vaultId objectId versionId dataKey
  return { storedVersion := { objectId, versionId, wrappedDek, manifest := sealedManifest
                              plaintextLen := manifest.plaintextLen
                              chunkSize := manifest.chunkSize, chunkCount := manifest.chunkCount }
           chunks }

/-! ### Storage operations of the three paths -/

/-- Publish a version and advance the active pointer atomically. -/
def publish (version : StoredVersion) (chunks : List EncryptedChunk) : VaultOp ω Unit := do
  Op.require (chunks.length = version.chunkCount.toNat)
    (.invariant "chunk count does not match version metadata")
  transaction fun db => db.publishBody version chunks none
  enforceOwnerPrivateStateFiles

/-- Stage a version before its witness acknowledgement. -/
def stageWitnessPublication (version : StoredVersion) (chunks : List EncryptedChunk)
    (expectedEpoch : UInt64) : VaultOp ω Unit := do
  Op.require (chunks.length = version.chunkCount.toNat)
    (.invariant "chunk count does not match version metadata")
  transaction fun db => db.stageBody version chunks expectedEpoch
  enforceOwnerPrivateStateFiles

/-- Persist a verified receipt, advance the pointer and clear the staging row. -/
def finalizeWitnessPublication (version : StoredVersion) (receipt : WitnessReceipt) :
    VaultOp ω Unit := do
  Op.require (receipt.objectId = version.objectId ∧ receipt.versionId = version.versionId)
    (.invariant "freshness receipt version binding")
  transaction fun db => db.finalizeBody version receipt
  enforceOwnerPrivateStateFiles

/-- The staged versions and their expected epochs, in the byte order of the version identifiers. -/
def pendingWitnessPublications : VaultOp ω (List (StoredVersion × UInt64)) := do
  let rows ← query fun db => .ok db.selectPending
  Op.fold (fun pending row => do
    storageFault
    let expectedEpoch ← Op.ofExcept (sqlToUInt64 row.2)
    let versionId ← Op.ofExcept (Identifier.fromSlice row.1)
    let version ← query fun db => db.selectVersion versionId
    return pending ++ [(version, expectedEpoch)]) [] rows

/-! ### The public operations -/

/-- Publish a plaintext as the new active version of an object. -/
def putWithChunkSize (objectId : ObjectId) (plaintext : Bytes) (chunkSize : ℕ) :
    VaultOp ω VersionId :=
  lockAfterFailure do
    let prepared ← prepareVersion prim objectId plaintext chunkSize
    publish prepared.storedVersion prepared.chunks
    return prepared.storedVersion.versionId

/-- `put`. -/
def put (objectId : ObjectId) (plaintext : Bytes) : VaultOp ω VersionId :=
  putWithChunkSize prim objectId plaintext defaultChunkSize

/-- `put_from_reader_with_chunk_size`. -/
def putFromReaderWithChunkSize (objectId : ObjectId) (reader : Reader) (chunkSize : ℕ) :
    VaultOp ω VersionId :=
  lockAfterFailure (putFromReaderInner prim objectId reader chunkSize)

/-- `put_from_reader`. -/
def putFromReader (objectId : ObjectId) (reader : Reader) : VaultOp ω VersionId :=
  putFromReaderWithChunkSize prim objectId reader defaultChunkSize

/-- Ask the witness to acknowledge a staged version, and make it active with the receipt. -/
def acknowledge (provider : WitnessProvider ω) (version : StoredVersion) (expectedEpoch : UInt64) :
    VaultOp ω Unit := do
  let vaultId := (← Op.get).vaultId
  let request := WitnessRequest.new prim vaultId version.objectId version.versionId version.manifest
  let receipt ← provider.issue request expectedEpoch
  Op.ofExcept (receipt.verifyRequest prim request)
  finalizeWitnessPublication version receipt

/-- Publish a version only after a witness signed its commitment. -/
def putWithWitness (objectId : ObjectId) (plaintext : Bytes) (provider : WitnessProvider ω) :
    VaultOp ω VersionId :=
  lockAfterFailure do
    let prepared ← prepareVersion prim objectId plaintext defaultChunkSize
    let active ← activeReceipt prim objectId
    let expectedEpoch := active.elim 0 WitnessReceipt.witnessEpoch
    stageWitnessPublication prepared.storedVersion prepared.chunks expectedEpoch
    acknowledge prim provider prepared.storedVersion expectedEpoch
    return prepared.storedVersion.versionId

/-- Complete all staged publications. -/
def recoverPendingWitnessPublications (provider : WitnessProvider ω) : VaultOp ω UInt64 :=
  lockAfterFailure do
    let _ ← requireRootKey
    let pending ← pendingWitnessPublications
    Op.fold (fun _ (version, expectedEpoch) => acknowledge prim provider version expectedEpoch)
      () pending
    countOf pending "pending witness publication count exceeds u64"

end

end Vlt1

import Vlt1.Cde
import Vlt1.Vault.Basic

/-!
# Reading an object

`getToWriterInner` opens the wrapped DEK and the sealed Manifest of the active version, compares
the Manifest with the version row and a stored receipt with both, and then passes over the chunks
twice: once to check their indices, count and digest, and once to decrypt and write them.

The sweeps over all active objects use the same reader; the strict sweep first compares the stored
receipt of each object with a fresh head from the witness.
-/

namespace Vlt1

open Effect

/-- Maximum number of chunks encrypted under one version DEK. -/
def maxChunksPerVersion : UInt32 := 16777216

/-- Compare a Manifest with the version row. -/
def validateManifestBinding (manifest : Manifest) (stored : StoredVersion) :
    Except VaultError Unit := do
  ensure (manifest.formatVersion = formatVersion ∧ manifest.objectId = stored.objectId ∧
      manifest.versionId = stored.versionId ∧ manifest.plaintextLen = stored.plaintextLen ∧
      manifest.chunkSize = stored.chunkSize ∧ manifest.chunkCount = stored.chunkCount)
    (.invariant "Manifest and SQLite metadata binding")
  ensure (manifest.chunkSize ≠ 0 ∧ manifest.chunkCount ≤ maxChunksPerVersion)
    (.invalidFormat "Manifest chunk policy")

/-- The plaintext length of the chunk at an index. The products and differences stay below `2 ^ 64`,
so the machine arithmetic is exact. -/
def expectedPlaintextChunkLen (manifest : Manifest) (index : UInt32) : Except VaultError UInt32 :=
  if manifest.chunkCount ≤ index then .error (.invalidFormat "chunk index outside Manifest")
  else if index.toNat + 1 < manifest.chunkCount.toNat then .ok manifest.chunkSize
  else
    let before := manifest.chunkSize.toNat * (manifest.chunkCount.toNat - 1)
    if manifest.plaintextLen.toNat < before then
      .error (.invalidFormat "Manifest plaintext length")
    else
      let tail := manifest.plaintextLen.toNat - before
      if tail < 2 ^ 32 then .ok (UInt32.ofNat tail)
      else .error (.invalidFormat "final chunk length")

/-- `checked_add` of 32-bit values. -/
def checkedAdd32 (a b : UInt32) (e : VaultError) : Except VaultError UInt32 :=
  if a.toNat + b.toNat < 2 ^ 32 then .ok (a + b) else .error e

/-- `checked_add` of 64-bit values. -/
def checkedAdd64 (a b : UInt64) (e : VaultError) : Except VaultError UInt64 :=
  if a.toNat + b.toNat < 2 ^ 64 then .ok (a + b) else .error e

section

variable {ω : Type} [Machine ω] (prim : Primitives)

/-- The digest pass at one chunk. -/
def digestVisit (state : ChunkDigestBuilder × UInt32) (chunk : EncryptedChunk) :
    VaultOp ω (ChunkDigestBuilder × UInt32) := do
  Op.require (chunk.index = state.2) (.invariant "stored chunk indices")
  let next ← Op.ofExcept (checkedAdd32 state.2 1 (.invariant "stored chunk count"))
  return (state.1.update chunk.index chunk.record, next)

/-- The decryption pass at one chunk. -/
def decryptVisit (vaultId : VaultId) (objectId : ObjectId) (versionId : VersionId)
    (dataKey : Block 32) (manifest : Manifest) (writer : Writer) (writtenLen : UInt64)
    (chunk : EncryptedChunk) : VaultOp ω UInt64 := do
  let expectedLen ← Op.ofExcept (expectedPlaintextChunkLen manifest chunk.index)
  let part ← Op.ofExcept (openRecord prim dataKey.toList
    (chunkAad vaultId objectId versionId chunk.index expectedLen) chunk.record)
  Op.require (part.length = expectedLen.toNat) (.invalidFormat "authenticated chunk length")
  writer.writeAll part
  Op.ofExcept (checkedAdd64 writtenLen expectedLen.toUInt64
    (.invariant "plaintext length after chunk assembly"))

/-- The version DEK, opened with the vault's key-encryption key. -/
def openDataKey (rootKey : Block 32) (vaultId : VaultId) (objectId : ObjectId)
    (version : StoredVersion) : Except VaultError (Block 32) := do
  let wrappingKey ← deriveKek prim rootKey vaultId
  let dataKeyBytes ← openRecord prim wrappingKey.toList
    (wrappedDekAad vaultId objectId version.versionId) version.wrappedDek
  fixedBytes 32 "wrapped DEK length" dataKeyBytes

/-- The Manifest of a version, opened with its DEK and compared with the row. -/
def openManifest (dataKey : Block 32) (vaultId : VaultId) (objectId : ObjectId)
    (version : StoredVersion) : Except VaultError Manifest := do
  let manifestKey ← deriveManifestKey prim dataKey version.versionId
  let manifestBytes ← openRecord prim manifestKey.toList
    (manifestAad vaultId objectId version.versionId) version.manifest
  let manifest ← decodeManifest manifestBytes
  validateManifestBinding manifest version
  return manifest

/-- A stored receipt, when there is one, must acknowledge the version read. -/
def checkStoredReceipt (vaultId : VaultId) (objectId : ObjectId) (version : StoredVersion) :
    VaultOp ω Unit := do
  match ← query fun db => db.selectReceipt prim version.versionId with
  | some receipt =>
    Op.ofExcept (receipt.verifyRequest prim
      (WitnessRequest.new prim vaultId objectId version.versionId version.manifest))
  | none => pure ()

/-- The digest pass: indices, count and digest of the stored chunks. -/
def digestPass (versionId : VersionId) (manifest : Manifest) : VaultOp ω Unit := do
  let (digest, count) ← visitChunks versionId digestVisit (ChunkDigestBuilder.new, 0)
  Op.require (count = manifest.chunkCount) (.invariant "stored chunk count")
  Op.require (digest.finalize prim = manifest.chunkDigest) .authentication

/-- The decryption pass: every chunk is opened, measured and written. -/
def decryptPass (vaultId : VaultId) (objectId : ObjectId) (versionId : VersionId)
    (dataKey : Block 32) (manifest : Manifest) (writer : Writer) : VaultOp ω Unit := do
  let writtenLen ← visitChunks versionId
    (decryptVisit prim vaultId objectId versionId dataKey manifest writer) 0
  Op.require (writtenLen = manifest.plaintextLen)
    (.invariant "plaintext length after chunk assembly")

/-- Verify the active version of an object and write its plaintext. -/
def getToWriterInner (objectId : ObjectId) (writer : Writer) : VaultOp ω Unit := do
  let rootKey ← requireRootKey
  let version ← activeVersion objectId
  Op.require (version.objectId = objectId) (.invariant "object pointer binding")
  let vaultId := (← Op.get).vaultId
  let dataKey ← Op.ofExcept (openDataKey prim rootKey vaultId objectId version)
  let manifest ← Op.ofExcept (openManifest prim dataKey vaultId objectId version)
  checkStoredReceipt prim vaultId objectId version
  digestPass prim version.versionId manifest
  decryptPass prim vaultId objectId version.versionId dataKey manifest writer

/-- The plaintext of the active version. -/
def getInner (objectId : ObjectId) : VaultOp ω Bytes := do
  Op.modify fun w => { w with sink := [] }
  getToWriterInner prim objectId .vector
  return (← Op.get).sink

/-- The plaintext of the active version after full verification. -/
def get (objectId : ObjectId) : VaultOp ω Bytes := lockAfterFailure (getInner prim objectId)

/-- Verify the active version and write it to a sink. -/
def getToWriter (objectId : ObjectId) (writer : Writer) : VaultOp ω Unit :=
  lockAfterFailure (getToWriterInner prim objectId writer)

/-- The length of a list as a 64-bit count. -/
def countOf {α : Type} (l : List α) (message : String) : VaultOp ω UInt64 := do
  Op.require (l.length < 2 ^ 64) (.invariant message)
  return UInt64.ofNat l.length

/-- Verify every active version without returning plaintext. -/
def verifyActiveObjects : VaultOp ω UInt64 :=
  lockAfterFailure do
    let _ ← requireRootKey
    let objectIds ← activeObjectIds
    Op.fold (fun _ objectId => getToWriterInner prim objectId .discard) () objectIds
    countOf objectIds "active object count exceeds u64"

/-- A head that is exactly the head of a receipt. -/
def WitnessHead.Matches (head : WitnessHead) (receipt : WitnessReceipt) : Prop :=
  head.present = true ∧ head.versionId = some receipt.versionId ∧
    head.witnessEpoch = receipt.witnessEpoch ∧ head.commitment = some receipt.commitment ∧
    head.publicKey = receipt.publicKey

instance (head : WitnessHead) (receipt : WitnessReceipt) : Decidable (head.Matches receipt) :=
  inferInstanceAs (Decidable (_ ∧ _))

/-- Compare one object's receipt with a fresh head, and verify its active version. -/
def verifyWithWitness (provider : WitnessProvider ω) (objectId : ObjectId) : VaultOp ω Unit := do
  match ← activeReceipt prim objectId with
  | none => Op.fail .witnessConflict
  | some receipt =>
    let challenge ← randomWitnessChallenge
    let vaultId := (← Op.get).vaultId
    let head ← provider.head vaultId objectId challenge
    Op.require (head.Matches receipt) .witnessConflict
    getToWriterInner prim objectId .discard

/-- Verify every active version and its fresh witness head. -/
def verifyActiveObjectsWithWitness (provider : WitnessProvider ω) : VaultOp ω UInt64 :=
  lockAfterFailure do
    let _ ← requireRootKey
    let objectIds ← activeObjectIds
    Op.fold (fun _ objectId => verifyWithWitness prim provider objectId) () objectIds
    countOf objectIds "active object count exceeds u64"

end

end Vlt1

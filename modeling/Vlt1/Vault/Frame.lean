import Vlt1.Vault.Publish

/-!
# What the operations leave alone

Reading an object changes neither the vault in memory nor, as long as no other program writes to
the database file, the tables; it puts only challenges and heads on record. Sealing a version adds
seals and drawn identifiers to the record and nothing else.

Such facts hold for many relations between the world before and after. `ReadRelation` collects what
a relation must allow so that every reading operation keeps it, `SealRelation` adds the sealing
steps, and each operation has one `keeps` lemma for all of these relations.
-/

namespace Vlt1

open Effect

/-- Events of a reading operation. -/
def Event.IsObservation : Event → Prop
  | .challengeDrawn _ | .headObtained _ => True
  | _ => False

/-- Events of an operation that seals a version. -/
def Event.IsSealing : Event → Prop
  | .versionDrawn _ | .sealed _ _ _ _ => True
  | _ => False

section

variable {ω α β : Type} [Machine ω]

/-- How the surroundings move when the process interacts with them. -/
inductive Machine.Moves : ω → ω → Prop where
  | fault (o : ω) : Moves o (Machine.fault o).2
  | files (o : ω) : Moves o (Machine.files o).2
  | random (n : ℕ) (o : ω) : Moves o (Machine.random n o).2
  | write (b : Bytes) (o : ω) : Moves o (Machine.write b o).2
  | backup (destination : Text) (db : Database) (o : ω) :
      Moves o (Machine.backup destination db o).2
  | elapse (o : ω) : Moves o (Machine.elapse o)

/-- How they move when a statement runs or random bytes are drawn. -/
inductive Machine.Serves : ω → ω → Prop where
  | fault (o : ω) : Serves o (Machine.fault o).2
  | files (o : ω) : Serves o (Machine.files o).2
  | random (n : ℕ) (o : ω) : Serves o (Machine.random n o).2

/-- Serving a call is one of the moves the surroundings make. -/
theorem Machine.Serves.moves {o o' : ω} (h : Machine.Serves o o') : Machine.Moves o o' := by
  cases h with
  | fault => exact .fault o
  | files => exact .files o
  | random n => exact .random n o

/-- A relation between worlds that statements over the tables keep. -/
class QueryRelation (R : World ω → World ω → Prop) : Prop extends
    Std.Refl R, IsTrans (World ω) R where
  serve : ∀ (w : World ω) (o : ω), Machine.Serves w.outside o → R w { w with outside := o }
  interfere : ∀ w : World ω, R w { w with
    db := (Machine.interfere w.db w.outside).1, outside := (Machine.interfere w.db w.outside).2 }

/-- A relation between worlds that every step of a reading operation keeps. -/
class ReadRelation (R : World ω → World ω → Prop) : Prop extends
    Std.Refl R, IsTrans (World ω) R where
  move : ∀ (w : World ω) (o : ω), Machine.Moves w.outside o → R w { w with outside := o }
  interfere : ∀ w : World ω, R w { w with
    db := (Machine.interfere w.db w.outside).1, outside := (Machine.interfere w.db w.outside).2 }
  sink : ∀ (w : World ω) (b : Bytes), R w { w with sink := b }
  observe : ∀ (w : World ω) (e : Event), e.IsObservation → R w { w with history := e :: w.history }

/-- A relation that the steps of sealing a version keep as well. -/
class SealRelation (R : World ω → World ω → Prop) : Prop extends ReadRelation R where
  sealing : ∀ (w : World ω) (e : Event), e.IsSealing → R w { w with history := e :: w.history }

/-- A relation that locking the vault keeps as well. -/
class LockRelation (R : World ω → World ω → Prop) : Prop extends SealRelation R where
  locked : ∀ w : World ω, R w w.locked

/-- A relation that every step of the process keeps, whatever it writes. -/
class StepRelation (R : World ω → World ω → Prop) : Prop extends LockRelation R where
  vault : ∀ (w : World ω) (v : Vault), R w { w with vault := v }
  commit : ∀ (w : World ω) (db : Database), R w (w.committed db)
  request : ∀ (w : World ω) (r : WitnessRequest) (e : UInt64),
    R w { w with history := .issueRequested r e :: w.history }

/-- A relation that reading and locking keep. -/
class CloseRelation (R : World ω → World ω → Prop) : Prop extends ReadRelation R where
  locked : ∀ w : World ω, R w w.locked

/-- A relation that every step of the process but sealing keeps. -/
class WriteRelation (R : World ω → World ω → Prop) : Prop extends CloseRelation R where
  vault : ∀ (w : World ω) (v : Vault), R w { w with vault := v }
  commit : ∀ (w : World ω) (db : Database), R w (w.committed db)
  request : ∀ (w : World ω) (r : WitnessRequest) (e : UInt64),
    R w { w with history := .issueRequested r e :: w.history }

instance (R : World ω → World ω → Prop) [h : ReadRelation R] : QueryRelation R :=
  { h with serve := fun w o hserve => h.move w o hserve.moves }

instance (R : World ω → World ω → Prop) [h : LockRelation R] : CloseRelation R := { h with }

instance (R : World ω → World ω → Prop) [h : StepRelation R] : WriteRelation R := { h with }

/-- A relation that a provider's head queries keep. -/
structure WitnessProvider.KeepsHeads (R : World ω → World ω → Prop)
    (provider : WitnessProvider ω) : Prop where
  head : ∀ v o c (w : World ω),
    R w { w with outside := (provider.objectHead v o c w.outside).state }

/-- A relation that a provider's calls keep. -/
structure WitnessProvider.Keeps (R : World ω → World ω → Prop) (provider : WitnessProvider ω) :
    Prop extends provider.KeepsHeads R where
  issue : ∀ r e (w : World ω),
    R w { w with outside := (provider.issueReceipt r e w.outside).state }

/-! ### Statements -/

section Querying

variable {R : World ω → World ω → Prop} [QueryRelation R]

/-- Asking the surroundings moves them, and nothing else. -/
theorem keeps_interact {f : ω → α × ω} (h : ∀ o, Machine.Serves o (f o).2) :
    Op.Keeps R (interact f) :=
  fun w => QueryRelation.serve w _ (h w.outside)

/-- Random bytes come from the surroundings. -/
theorem keeps_randomBytes (n : ℕ) : Op.Keeps R (randomBytes n) :=
  keeps_interact (Machine.Serves.random n)

/-- A fault of the storage leaves everything as it was. -/
theorem keeps_storageFault : Op.Keeps R (storageFault (ω := ω)) := by
  refine Op.Keeps.bind (keeps_interact Machine.Serves.fault) fun fault => ?_
  cases fault with
  | none => exact Op.Keeps.pure ()
  | storage => exact Op.Keeps.fail _
  | crash => exact fun w => Std.Refl.refl w

/-- Reading the tables may come after another process has written them. -/
theorem keeps_tables : Op.Keeps R (tables (ω := ω)) := fun w => QueryRelation.interfere w

/-- A query reads the tables, unless the storage fails first. -/
theorem keeps_query (body : Database → Except VaultError α) : Op.Keeps R (query (ω := ω) body) :=
  Op.Keeps.bind keeps_storageFault fun _ => Op.Keeps.bind keeps_tables fun _ => Op.Keeps.ofExcept _

/-- The permissions of the state files are the surroundings' business. -/
theorem keeps_enforceOwnerPrivateStateFiles :
    Op.Keeps R (enforceOwnerPrivateStateFiles (ω := ω)) :=
  Op.Keeps.bind (keeps_interact Machine.Serves.files) fun _ => Op.Keeps.ofExcept _

/-- The root key is looked up in the vault. -/
theorem keeps_requireRootKey : Op.Keeps R (requireRootKey (ω := ω)) := by
  refine Op.Keeps.bind Op.Keeps.get fun w => ?_
  cases w.vault.rootKey with
  | none => exact Op.Keeps.fail _
  | some rootKey => exact Op.Keeps.pure _

/-- The active version is found by queries. -/
theorem keeps_activeVersion (o : ObjectId) : Op.Keeps R (activeVersion (ω := ω) o) :=
  Op.Keeps.bind (keeps_query _) fun _ => keeps_query _

/-- The active receipt is found by queries and checks. -/
theorem keeps_activeReceipt (prim : Primitives) (o : ObjectId) :
    Op.Keeps R (activeReceipt (ω := ω) prim o) := by
  intro w
  have hversion := keeps_activeVersion (R := R) o w
  unfold activeReceipt
  cases hw : activeVersion o w with
  | ok version w' =>
    rw [hw] at hversion
    exact IsTrans.trans _ _ _ hversion (keeps_query _ w')
  | failed e w' =>
    rw [hw] at hversion
    show R w (if e = .notFound then Outcome.ok none w' else Outcome.failed e w').state
    split <;> exact hversion
  | crashed w' => rw [hw] at hversion; exact hversion

/-- The active objects are found by one query. -/
theorem keeps_activeObjectIds : Op.Keeps R (activeObjectIds (ω := ω)) :=
  Op.Keeps.bind (keeps_query _) fun _ => Op.Keeps.ofExcept _

/-- The chunks are read one at a time, and the visitor does what it does. -/
theorem keeps_visitChunks (u : VersionId) {visit : β → EncryptedChunk → VaultOp ω β}
    (hvisit : ∀ b c, Op.Keeps R (visit b c)) (b : β) : Op.Keeps R (visitChunks u visit b) :=
  Op.Keeps.bind (keeps_query _) fun _ => Op.Keeps.fold (fun _ _ =>
    Op.Keeps.bind keeps_storageFault fun _ => Op.Keeps.bind (Op.Keeps.ofExcept _) fun _ =>
      hvisit _ _) _ _

/-- Digesting a chunk touches nothing. -/
theorem keeps_digestVisit (s : ChunkDigestBuilder × UInt32) (c : EncryptedChunk) :
    Op.Keeps R (digestVisit (ω := ω) s c) :=
  Op.Keeps.bind (Op.Keeps.require _ _) fun _ => Op.Keeps.bind (Op.Keeps.ofExcept _) fun _ =>
    Op.Keeps.pure _

/-- A stored receipt is found by a query and checked. -/
theorem keeps_checkStoredReceipt (prim : Primitives) (v : VaultId) (o : ObjectId) (version : StoredVersion) :
    Op.Keeps R (checkStoredReceipt (ω := ω) prim v o version) := by
  refine Op.Keeps.bind (keeps_query _) fun receipt => ?_
  cases receipt with
  | none => exact Op.Keeps.pure ()
  | some receipt => exact Op.Keeps.ofExcept _

/-- The digest pass reads and counts the chunks. -/
theorem keeps_digestPass (prim : Primitives) (u : VersionId) (manifest : Manifest) :
    Op.Keeps R (digestPass (ω := ω) prim u manifest) :=
  Op.Keeps.bind (keeps_visitChunks u keeps_digestVisit _) fun _ =>
    Op.Keeps.bind (Op.Keeps.require _ _) fun _ => Op.Keeps.require _ _

/-- Counting touches nothing. -/
theorem keeps_countOf (l : List α) (message : String) : Op.Keeps R (countOf (ω := ω) l message) :=
  Op.Keeps.bind (Op.Keeps.require _ _) fun _ => Op.Keeps.pure _

/-- The pending publications are found by a query, and one more for each. -/
theorem keeps_pendingWitnessPublications : Op.Keeps R (pendingWitnessPublications (ω := ω)) :=
  Op.Keeps.bind (keeps_query _) fun _ => Op.Keeps.fold (fun _ _ =>
    Op.Keeps.bind keeps_storageFault fun _ => Op.Keeps.bind (Op.Keeps.ofExcept _) fun _ =>
      Op.Keeps.bind (Op.Keeps.ofExcept _) fun _ => Op.Keeps.bind (keeps_query _) fun _ =>
        Op.Keeps.pure _) _ _

/-- A streaming publication begins with checks against the tables. -/
theorem keeps_beginStreamingPublication (o : ObjectId) (u : VersionId) (dek : SealedRecord)
    (chunkSize : UInt32) :
    Op.Keeps R (beginStreamingPublication (ω := ω) o u dek chunkSize) :=
  Op.Keeps.bind keeps_storageFault fun _ => Op.Keeps.bind keeps_tables fun _ =>
    Op.Keeps.bind (Op.Keeps.ofExcept _) fun _ => Op.Keeps.pure _

end Querying

/-! ### Reading -/

section Reading

variable {R : World ω → World ω → Prop} [ReadRelation R]

/-- A relation that allows observations allows recording one. -/
theorem keeps_record {e : Event} (he : e.IsObservation) : Op.Keeps R (record (ω := ω) e) :=
  fun w => ReadRelation.observe w e he

/-- The challenge is random, and recorded as one. -/
theorem keeps_randomWitnessChallenge : Op.Keeps R (randomWitnessChallenge (ω := ω)) :=
  Op.Keeps.bind (keeps_randomBytes 32) fun _ =>
    Op.Keeps.bind (keeps_record trivial) fun _ => Op.Keeps.pure _

/-- A write reaches the writer's surroundings, or the bytes received. -/
theorem keeps_writeAll (writer : Writer) (part : Bytes) :
    Op.Keeps R (writer.writeAll (ω := ω) part) := by
  cases writer with
  | vector => exact fun w => ReadRelation.sink w _
  | discard => exact Op.Keeps.pure ()
  | stream =>
    refine Op.Keeps.bind (fun w => ReadRelation.move w _ (.write part _)) fun accepted => ?_
    cases accepted with
    | none => exact fun w => ReadRelation.sink w _
    | some n => exact Op.Keeps.bind (fun w => ReadRelation.sink w _) fun _ => Op.Keeps.fail _

variable (prim : Primitives)

/-- Each chunk is opened, checked and written out. -/
theorem keeps_decryptVisit (v : VaultId) (o : ObjectId) (u : VersionId) (dataKey : Block 32)
    (manifest : Manifest) (writer : Writer) (n : UInt64) (c : EncryptedChunk) :
    Op.Keeps R (decryptVisit (ω := ω) prim v o u dataKey manifest writer n c) :=
  Op.Keeps.bind (Op.Keeps.ofExcept _) fun _ => Op.Keeps.bind (Op.Keeps.ofExcept _) fun _ =>
    Op.Keeps.bind (Op.Keeps.require _ _) fun _ => Op.Keeps.bind (keeps_writeAll _ _) fun _ =>
      Op.Keeps.ofExcept _

/-- The decryption pass opens, checks and writes the chunks in order. -/
theorem keeps_decryptPass (v : VaultId) (o : ObjectId) (u : VersionId) (dataKey : Block 32)
    (manifest : Manifest) (writer : Writer) :
    Op.Keeps R (decryptPass (ω := ω) prim v o u dataKey manifest writer) :=
  Op.Keeps.bind (keeps_visitChunks u (keeps_decryptVisit prim v o u dataKey manifest writer) _)
    fun _ => Op.Keeps.require _ _

/-- A read into a writer is made of two passes over the chunks. -/
theorem keeps_getToWriterInner (o : ObjectId) (writer : Writer) :
    Op.Keeps R (getToWriterInner (ω := ω) prim o writer) :=
  Op.Keeps.bind keeps_requireRootKey fun _ => Op.Keeps.bind (keeps_activeVersion o) fun _ =>
    Op.Keeps.bind (Op.Keeps.require _ _) fun _ => Op.Keeps.bind Op.Keeps.get fun _ =>
      Op.Keeps.bind (Op.Keeps.ofExcept _) fun _ => Op.Keeps.bind (Op.Keeps.ofExcept _) fun _ =>
        Op.Keeps.bind (keeps_checkStoredReceipt prim _ _ _) fun _ =>
          Op.Keeps.bind (keeps_digestPass prim _ _) fun _ => keeps_decryptPass prim _ _ _ _ _ _

/-- A read opens every chunk it has read. -/
theorem keeps_getInner (o : ObjectId) : Op.Keeps R (getInner (ω := ω) prim o) :=
  Op.Keeps.bind (fun w => ReadRelation.sink w []) fun _ =>
    Op.Keeps.bind (keeps_getToWriterInner prim o _) fun _ => Op.Keeps.bind Op.Keeps.get fun _ =>
      Op.Keeps.pure _

variable {provider : WitnessProvider ω}

/-- The head is asked for once and recorded. -/
theorem keeps_head (hprovider : provider.KeepsHeads R) (v : VaultId) (o : ObjectId) (c : Block 32) :
    Op.Keeps R (provider.head v o c) := by
  refine Op.Keeps.bind (fun w => ?_) fun _ => Op.Keeps.bind (keeps_record trivial) fun _ =>
    Op.Keeps.pure _
  rw [outside, Op.zoom, Outcome.state_mapState]
  exact hprovider.head v o c w

/-- An object is verified against the head the witness gives. -/
theorem keeps_verifyWithWitness (hprovider : provider.KeepsHeads R) (o : ObjectId) :
    Op.Keeps R (verifyWithWitness prim provider o) := by
  refine Op.Keeps.bind (keeps_activeReceipt prim o) fun receipt => ?_
  cases receipt with
  | none => exact Op.Keeps.fail _
  | some receipt =>
    exact Op.Keeps.bind keeps_randomWitnessChallenge fun _ => Op.Keeps.bind Op.Keeps.get fun _ =>
      Op.Keeps.bind (keeps_head hprovider _ _ _) fun _ => Op.Keeps.bind (Op.Keeps.require _ _)
        fun _ => keeps_getToWriterInner prim o _

end Reading

/-! ### Sealing -/

section Sealing

variable {R : World ω → World ω → Prop} [SealRelation R] (prim : Primitives)

/-- A version identifier is random. -/
theorem keeps_randomVersionId : Op.Keeps R (randomVersionId (ω := ω)) :=
  Op.Keeps.bind (keeps_randomBytes 16) fun _ =>
    Op.Keeps.bind (fun w => SealRelation.sealing w _ trivial) fun _ => Op.Keeps.pure _

/-- A record is sealed under a random nonce and recorded as sealed. -/
theorem keeps_sealRecord (key aad plaintext : Bytes) :
    Op.Keeps R (sealRecord (ω := ω) prim key aad plaintext) := by
  refine Op.Keeps.bind (Op.Keeps.require _ _) fun _ =>
    Op.Keeps.bind (keeps_randomBytes 12) fun nonce => ?_
  cases prim.encrypt key nonce aad plaintext with
  | none => exact Op.Keeps.fail _
  | some ciphertext =>
    exact Op.Keeps.bind (fun w => SealRelation.sealing w _ trivial) fun _ => Op.Keeps.pure _

/-- The root key is sealed under a key derived from the passphrase and a random salt. -/
theorem keeps_sealRootKey (passphrase : Text) (v : VaultId) (rootKey : Block 32)
    (params : KdfParams) :
    Op.Keeps R (sealRootKey (ω := ω) prim passphrase v rootKey params) :=
  Op.Keeps.bind (Op.Keeps.ofExcept _) fun _ => Op.Keeps.bind (keeps_randomBytes 16) fun _ =>
    Op.Keeps.bind (Op.Keeps.ofExcept _) fun _ => Op.Keeps.bind (keeps_sealRecord prim _ _ _)
      fun _ => Op.Keeps.pure _

/-- A chunk is one sealed record. -/
theorem keeps_sealChunk (v : VaultId) (o : ObjectId) (u : VersionId) (dataKey : Block 32)
    (index : UInt32) (chunk : Bytes) :
    Op.Keeps R (sealChunk (ω := ω) prim v o u dataKey index chunk) :=
  Op.Keeps.bind (Op.Keeps.require _ _) fun _ => Op.Keeps.bind (keeps_sealRecord prim _ _ _)
    fun _ => Op.Keeps.pure _

/-- A manifest is one sealed record. -/
theorem keeps_sealManifest (v : VaultId) (dataKey : Block 32) (manifest : Manifest) :
    Op.Keeps R (sealManifest (ω := ω) prim v dataKey manifest) :=
  Op.Keeps.bind (Op.Keeps.ofExcept _) fun _ => keeps_sealRecord prim _ _ _

/-- A wrapped data key is one sealed record. -/
theorem keeps_wrapDataKey (rootKey : Block 32) (v : VaultId) (o : ObjectId) (u : VersionId)
    (dataKey : Block 32) : Op.Keeps R (wrapDataKey (ω := ω) prim rootKey v o u dataKey) :=
  Op.Keeps.bind (Op.Keeps.ofExcept _) fun _ => keeps_sealRecord prim _ _ _

/-- Preparing a version seals its chunks, its manifest and its data key, and commits nothing. -/
theorem keeps_prepareVersion (o : ObjectId) (plaintext : Bytes) (chunkSize : ℕ) :
    Op.Keeps R (prepareVersion (ω := ω) prim o plaintext chunkSize) :=
  Op.Keeps.bind keeps_requireRootKey fun _ => Op.Keeps.bind Op.Keeps.get fun _ =>
    Op.Keeps.bind (Op.Keeps.require _ _) fun _ => Op.Keeps.bind (Op.Keeps.require _ _) fun _ =>
      Op.Keeps.bind (Op.Keeps.require _ _) fun _ => Op.Keeps.bind (Op.Keeps.require _ _) fun _ =>
        Op.Keeps.bind (Op.Keeps.require _ _) fun _ => Op.Keeps.bind keeps_randomVersionId fun _ =>
          Op.Keeps.bind (keeps_randomBytes 32) fun _ =>
            Op.Keeps.bind (Op.Keeps.fold (fun _ _ => Op.Keeps.bind (Op.Keeps.require _ _) fun _ =>
              Op.Keeps.bind (keeps_sealChunk prim _ _ _ _ _ _) fun _ => Op.Keeps.pure _) _ _)
              fun _ => Op.Keeps.bind (keeps_sealManifest prim _ _ _) fun _ =>
                Op.Keeps.bind (keeps_wrapDataKey prim _ _ _ _ _) fun _ => Op.Keeps.pure _

/-- A streamed chunk is sealed and kept in memory. -/
theorem keeps_streamChunk (v : VaultId) (dataKey : Block 32) (s : StreamingState) (chunk : Bytes) :
    Op.Keeps R (streamChunk (ω := ω) prim v dataKey s chunk) :=
  Op.Keeps.bind (Op.Keeps.require _ _) fun _ =>
    Op.Keeps.bind (keeps_sealChunk prim _ _ _ _ _ _) fun _ =>
      Op.Keeps.bind (Op.Keeps.bind (Op.Keeps.require _ _) fun _ =>
        Op.Keeps.bind keeps_storageFault fun _ => Op.Keeps.bind (Op.Keeps.ofExcept _) fun _ =>
          Op.Keeps.bind (Op.Keeps.ofExcept _) fun _ => Op.Keeps.bind (Op.Keeps.ofExcept _) fun _ =>
            Op.Keeps.pure _) fun _ =>
        Op.Keeps.bind (Op.Keeps.ofExcept _) fun _ => Op.Keeps.bind (Op.Keeps.ofExcept _) fun _ =>
          Op.Keeps.pure _

end Sealing

/-! ### Locking -/

section Locking

variable {R : World ω → World ω → Prop} [CloseRelation R] (prim : Primitives)

/-- The lock after a failure is one more step that the relation allows. -/
theorem keeps_lockAfterFailure {x : VaultOp ω α} (hx : Op.Keeps R x) :
    Op.Keeps R (lockAfterFailure x) := by
  intro w
  have h := hx w
  unfold lockAfterFailure
  cases hw : x w with
  | ok a w' => rw [hw] at h; exact h
  | failed e w' =>
    rw [hw] at h
    show R w (if e.requiresLock then w'.locked else w')
    split
    · exact IsTrans.trans _ _ _ h (CloseRelation.locked w')
    · exact h
  | crashed w' => rw [hw] at h; exact h

/-- Locking is a step that the relation allows. -/
theorem keeps_lock : Op.Keeps R (lock (ω := ω)) := CloseRelation.locked

/-- A checkpoint of the database changes no table. -/
theorem keeps_fullCheckpoint : Op.Keeps R (fullCheckpoint (ω := ω)) :=
  keeps_lockAfterFailure (Op.Keeps.bind keeps_requireRootKey fun _ => keeps_query _)

/-- A backup changes no table of the vault. -/
theorem keeps_backupTo (destination : Text) : Op.Keeps R (backupTo (ω := ω) destination) :=
  Op.Keeps.bind Op.Keeps.get fun _ =>
    Op.Keeps.bind (fun w => ReadRelation.move w _ (.backup destination _ _)) fun _ =>
      Op.Keeps.ofExcept _

/-- A read, and the lock behind its failure. -/
theorem keeps_get (o : ObjectId) : Op.Keeps R (get (ω := ω) prim o) :=
  keeps_lockAfterFailure (keeps_getInner prim o)

/-- A read into a writer, and the lock behind its failure. -/
theorem keeps_getToWriter (o : ObjectId) (writer : Writer) :
    Op.Keeps R (getToWriter (ω := ω) prim o writer) :=
  keeps_lockAfterFailure (keeps_getToWriterInner prim o writer)

/-- The verification of every active object, and the lock behind its failure. -/
theorem keeps_verifyActiveObjects : Op.Keeps R (verifyActiveObjects (ω := ω) prim) :=
  keeps_lockAfterFailure (Op.Keeps.bind keeps_requireRootKey fun _ =>
    Op.Keeps.bind keeps_activeObjectIds fun _ =>
      Op.Keeps.bind (Op.Keeps.fold (fun _ o => keeps_getToWriterInner prim o _) _ _) fun _ =>
        keeps_countOf _ _)

/-- The verification against the witness asks for one head an object. -/
theorem keeps_verifyActiveObjectsWithWitness {provider : WitnessProvider ω}
    (hprovider : provider.KeepsHeads R) :
    Op.Keeps R (verifyActiveObjectsWithWitness prim provider) :=
  keeps_lockAfterFailure (Op.Keeps.bind keeps_requireRootKey fun _ =>
    Op.Keeps.bind keeps_activeObjectIds fun _ =>
      Op.Keeps.bind (Op.Keeps.fold (fun _ o => keeps_verifyWithWitness prim hprovider o) _ _)
        fun _ => keeps_countOf _ _)

end Locking

/-! ### Writing -/

section Writing

variable {R : World ω → World ω → Prop} [WriteRelation R] (prim : Primitives)

/-- A transaction commits the tables its body makes, or none. -/
theorem keeps_transaction (body : Database → Except VaultError Database) :
    Op.Keeps R (transaction (ω := ω) body) :=
  Op.Keeps.bind keeps_storageFault fun _ => Op.Keeps.bind keeps_tables fun _ =>
    Op.Keeps.bind (Op.Keeps.ofExcept _) fun db => fun w => WriteRelation.commit w db

/-- A publication is one transaction. -/
theorem keeps_publish (version : StoredVersion) (chunks : List EncryptedChunk) :
    Op.Keeps R (publish (ω := ω) version chunks) :=
  Op.Keeps.bind (Op.Keeps.require _ _) fun _ => Op.Keeps.bind (keeps_transaction _) fun _ =>
    keeps_enforceOwnerPrivateStateFiles

/-- Staging is one transaction. -/
theorem keeps_stageWitnessPublication (version : StoredVersion) (chunks : List EncryptedChunk)
    (e : UInt64) : Op.Keeps R (stageWitnessPublication (ω := ω) version chunks e) :=
  Op.Keeps.bind (Op.Keeps.require _ _) fun _ => Op.Keeps.bind (keeps_transaction _) fun _ =>
    keeps_enforceOwnerPrivateStateFiles

/-- A stream is finished by one transaction. -/
theorem keeps_finish (p : StreamingPublication) (manifest : SealedRecord) (count : UInt32) :
    Op.Keeps R (p.finish (ω := ω) manifest count) :=
  Op.Keeps.bind (Op.Keeps.require _ _) fun _ => Op.Keeps.bind keeps_storageFault fun _ =>
    Op.Keeps.bind (Op.Keeps.ofExcept _) fun db => Op.Keeps.bind
      (fun w => WriteRelation.commit w db) fun _ => keeps_enforceOwnerPrivateStateFiles

/-- Unlocking changes the vault in memory, when the passphrase opens the envelope. -/
theorem keeps_unlock (passphrase : Text) : Op.Keeps R (unlock (ω := ω) prim passphrase) :=
  Op.Keeps.bind (Op.Keeps.ofExcept _) fun _ => Op.Keeps.bind Op.Keeps.get fun _ =>
    Op.Keeps.bind (Op.Keeps.ofExcept _) fun _ => fun w => WriteRelation.vault w _

/-- Opening reads the envelope and begins with a locked vault. -/
theorem keeps_openVault : Op.Keeps R (openVault (ω := ω) prim) :=
  Op.Keeps.bind keeps_enforceOwnerPrivateStateFiles fun _ => Op.Keeps.bind (keeps_query _) fun _ =>
    Op.Keeps.bind (keeps_query _) fun _ => fun w => WriteRelation.vault w _

variable {provider : WitnessProvider ω}

/-- An acknowledgement keeps what its own request keeps. -/
theorem keeps_acknowledge_of_issue {v : StoredVersion} {e : UInt64}
    (hissue : ∀ vaultId (w : World ω), R w { w with outside := (provider.issueReceipt
      (.new prim vaultId v.objectId v.versionId v.manifest) e w.outside).state }) :
    Op.Keeps R (acknowledge prim provider v e) := by
  refine Op.Keeps.bind Op.Keeps.get fun _ => Op.Keeps.bind (Op.Keeps.bind
    (fun w => WriteRelation.request w _ _) fun _ => fun w => ?_) fun _ =>
    Op.Keeps.bind (Op.Keeps.ofExcept _) fun _ => Op.Keeps.bind (Op.Keeps.require _ _) fun _ =>
      Op.Keeps.bind (keeps_transaction _) fun _ => keeps_enforceOwnerPrivateStateFiles
  rw [outside, Op.zoom, Outcome.state_mapState]
  exact hissue _ w

/-- An acknowledgement asks the witness, checks the receipt and commits it in one transaction. -/
theorem keeps_acknowledge (hprovider : provider.Keeps R) (v : StoredVersion) (e : UInt64) :
    Op.Keeps R (acknowledge prim provider v e) :=
  keeps_acknowledge_of_issue prim fun _ w => hprovider.issue _ _ w

/-- Recovery acknowledges the pending publications one after the other. -/
theorem keeps_recoverPendingWitnessPublications (hprovider : provider.Keeps R) :
    Op.Keeps R (recoverPendingWitnessPublications prim provider) :=
  keeps_lockAfterFailure (Op.Keeps.bind keeps_requireRootKey fun _ =>
    Op.Keeps.bind keeps_pendingWitnessPublications fun _ =>
      Op.Keeps.bind (Op.Keeps.fold (fun _ _ => keeps_acknowledge prim hprovider _ _) _ _) fun _ =>
        keeps_countOf _ _)

end Writing

/-! ### Sealing and writing -/

section Publishing

variable {R : World ω → World ω → Prop} [StepRelation R] (prim : Primitives)

/-- A vault is created by one transaction. -/
theorem keeps_create (passphrase : Text) : Op.Keeps R (create (ω := ω) prim passphrase) :=
  Op.Keeps.bind (Op.Keeps.ofExcept _) fun _ => Op.Keeps.bind (keeps_randomBytes 16) fun _ =>
    Op.Keeps.bind (keeps_randomBytes 32) fun _ => Op.Keeps.bind (keeps_sealRootKey prim _ _ _ _)
      fun _ => Op.Keeps.bind (keeps_transaction _) fun _ =>
        Op.Keeps.bind keeps_enforceOwnerPrivateStateFiles fun _ => fun w => StepRelation.vault w _

/-- The passphrase is rotated by one transaction, and then in memory. -/
theorem keeps_rotatePassphrase (current replacement : Text) :
    Op.Keeps R (rotatePassphrase (ω := ω) prim current replacement) :=
  Op.Keeps.bind (Op.Keeps.ofExcept _) fun _ => keeps_lockAfterFailure
    (Op.Keeps.bind Op.Keeps.get fun _ => Op.Keeps.bind (Op.Keeps.ofExcept _) fun _ =>
      Op.Keeps.bind (keeps_sealRootKey prim _ _ _ _) fun _ =>
        Op.Keeps.bind (keeps_transaction _) fun _ =>
          Op.Keeps.bind keeps_enforceOwnerPrivateStateFiles fun _ =>
            fun w => StepRelation.vault w _)

/-- An upload from a reader is sealed chunk by chunk and committed at its end. -/
theorem keeps_putFromReaderInner (o : ObjectId) (reader : Reader) (chunkSize : ℕ) :
    Op.Keeps R (putFromReaderInner (ω := ω) prim o reader chunkSize) :=
  Op.Keeps.bind (Op.Keeps.require _ _) fun _ => Op.Keeps.bind (Op.Keeps.require _ _) fun _ =>
    Op.Keeps.bind keeps_requireRootKey fun _ => Op.Keeps.bind Op.Keeps.get fun _ =>
      Op.Keeps.bind keeps_randomVersionId fun _ => Op.Keeps.bind (keeps_randomBytes 32) fun _ =>
        Op.Keeps.bind (keeps_wrapDataKey prim _ _ _ _ _) fun _ =>
          Op.Keeps.bind (keeps_beginStreamingPublication _ _ _ _) fun _ =>
            Op.Keeps.bind (Op.Keeps.fold (keeps_streamChunk prim _ _) _ _) fun _ =>
              Op.Keeps.bind (Op.Keeps.ofExcept _) fun _ =>
                Op.Keeps.bind (keeps_sealManifest prim _ _ _) fun _ =>
                  Op.Keeps.bind (keeps_finish _ _ _) fun _ => Op.Keeps.pure _

/-- A publication, and the lock behind its failure. -/
theorem keeps_putWithChunkSize (o : ObjectId) (plaintext : Bytes) (chunkSize : ℕ) :
    Op.Keeps R (putWithChunkSize (ω := ω) prim o plaintext chunkSize) :=
  keeps_lockAfterFailure (Op.Keeps.bind (keeps_prepareVersion prim o plaintext chunkSize) fun _ =>
    Op.Keeps.bind (keeps_publish _ _) fun _ => Op.Keeps.pure _)

/-- An upload from a reader, and the lock behind its failure. -/
theorem keeps_putFromReaderWithChunkSize (o : ObjectId) (reader : Reader) (chunkSize : ℕ) :
    Op.Keeps R (putFromReaderWithChunkSize (ω := ω) prim o reader chunkSize) :=
  keeps_lockAfterFailure (keeps_putFromReaderInner prim o reader chunkSize)

/-- A witnessed publication is staged, acknowledged and finalised. -/
theorem keeps_putWithWitness {provider : WitnessProvider ω} (hprovider : provider.Keeps R)
    (o : ObjectId) (plaintext : Bytes) :
    Op.Keeps R (putWithWitness prim o plaintext provider) :=
  keeps_lockAfterFailure (Op.Keeps.bind (keeps_prepareVersion prim o plaintext _) fun _ =>
    Op.Keeps.bind (keeps_activeReceipt prim o) fun _ =>
      Op.Keeps.bind (keeps_stageWitnessPublication _ _ _) fun _ =>
        Op.Keeps.bind (keeps_acknowledge prim hprovider _ _) fun _ => Op.Keeps.pure _)

end Publishing

/-! ### Two such relations -/

/-- The vault in memory and the tables are as before. -/
structure World.Untouched (w w' : World ω) : Prop where
  vault : w'.vault = w.vault
  db : w'.db = w.db

/-- The vault in memory is as before and only observations were put on record. -/
structure World.Observed (w w' : World ω) : Prop where
  vault : w'.vault = w.vault
  history : ∃ seg, w'.history = seg ++ w.history ∧ ∀ e ∈ seg, e.IsObservation

instance [Exclusive ω] : SealRelation (World.Untouched (ω := ω)) where
  refl _ := ⟨rfl, rfl⟩
  trans _ _ _ h h' := ⟨h'.vault.trans h.vault, h'.db.trans h.db⟩
  move _ _ _ := ⟨rfl, rfl⟩
  interfere w := ⟨rfl, Exclusive.interfere_fst w.db w.outside⟩
  sink _ _ := ⟨rfl, rfl⟩
  observe _ _ _ := ⟨rfl, rfl⟩
  sealing _ _ _ := ⟨rfl, rfl⟩

instance : ReadRelation (World.Observed (ω := ω)) where
  refl w := ⟨rfl, [], rfl, fun _ he => by cases he⟩
  trans w w' w'' h h' := by
    obtain ⟨hvault, seg, hseg, hobs⟩ := h
    obtain ⟨hvault', seg', hseg', hobs'⟩ := h'
    refine ⟨hvault'.trans hvault, seg' ++ seg, by rw [hseg', hseg, List.append_assoc], ?_⟩
    exact fun e he => (List.mem_append.mp he).elim (hobs' e) (hobs e)
  move w _ _ := ⟨rfl, [], rfl, fun _ he => by cases he⟩
  interfere w := ⟨rfl, [], rfl, fun _ he => by cases he⟩
  sink w _ := ⟨rfl, [], rfl, fun _ he => by cases he⟩
  observe w e he := ⟨rfl, [e], rfl, fun _ he' => by rwa [List.mem_singleton.mp he']⟩

omit [Machine ω] in
/-- Every provider leaves the vault and the tables alone. -/
theorem WitnessProvider.keeps_untouched (provider : WitnessProvider ω) :
    provider.KeepsHeads World.Untouched where
  head _ _ _ _ := ⟨rfl, rfl⟩

omit [Machine ω] in
/-- Whatever a witness does for a head is an observation. -/
theorem WitnessProvider.keeps_observed (provider : WitnessProvider ω) :
    provider.KeepsHeads World.Observed where
  head _ _ _ _ := ⟨rfl, [], rfl, fun _ he => by cases he⟩

/-! ### What a successful read has seen -/

/-- A statement that returned read the tables it left. -/
theorem query_ok {body : Database → Except VaultError α} {w w' : World ω} {a : α}
    (h : query body w = .ok a w') : body w'.db = .ok a := by
  obtain ⟨_, w1, -, h⟩ := Op.bind_eq_ok.mp h
  obtain ⟨db, w2, htables, h⟩ := Op.bind_eq_ok.mp h
  obtain ⟨hbody, rfl⟩ := Op.ofExcept_eq_ok.mp h
  cases htables
  exact hbody

omit [Machine ω] in
/-- A computation of the surroundings returns exactly when it does on its own. -/
theorem outside_eq_ok {x : Op VaultError ω α} {w w' : World ω} {a : α} :
    outside x w = .ok a w' ↔ ∃ o, x w.outside = .ok a o ∧ w' = { w with outside := o } := by
  unfold outside Op.zoom
  cases x w.outside with
  | ok b o => simp [Outcome.mapState, eq_comm]
  | failed e o => simp [Outcome.mapState]
  | crashed o => simp [Outcome.mapState]

/-- A challenge that was returned is recorded, and nothing else has changed but the surroundings. -/
theorem randomWitnessChallenge_ok {w w' : World ω} {c : Block 32}
    (h : randomWitnessChallenge w = .ok c w') :
    ∃ o, w' = { w with history := .challengeDrawn c :: w.history, outside := o } := by
  cases h
  exact ⟨_, rfl⟩

/-- What sealing a record leaves on record. -/
theorem sealRecord_ok {prim : Primitives} {key aad plaintext : Bytes} {r : SealedRecord}
    {w w' : World ω} (h : sealRecord prim key aad plaintext w = .ok r w') :
    key.length = 32 ∧ prim.encrypt key r.nonce aad plaintext = some r.ciphertext ∧
      ∃ o, w' = { w with history := .sealed key aad plaintext r :: w.history, outside := o } := by
  obtain ⟨_, w1, hcheck, hnonce⟩ := Op.bind_eq_ok.mp h
  obtain ⟨hlength, rfl⟩ := Op.require_eq_ok.mp hcheck
  obtain ⟨nonce, w2, hrandom, hencrypt⟩ := Op.bind_eq_ok.mp hnonce
  cases hrandom
  cases hciphertext : prim.encrypt key (Machine.random 12 w.outside).1 aad plaintext with
  | none =>
    rw [hciphertext] at hencrypt
    cases hencrypt
  | some ciphertext =>
    rw [hciphertext] at hencrypt
    cases hencrypt
    exact ⟨hlength, hciphertext, _, rfl⟩

omit [Machine ω] in
/-- A head that was returned is the one the witness gave, and is recorded. -/
theorem head_ok {provider : WitnessProvider ω} {v : VaultId} {o : ObjectId} {c : Block 32}
    {w w' : World ω} {head : WitnessHead} (h : provider.head v o c w = .ok head w') :
    ∃ s, provider.objectHead v o c w.outside = .ok head s ∧
      w' = { w with history := .headObtained head :: w.history, outside := s } := by
  obtain ⟨head', w1, houtside, hrecord⟩ := Op.bind_eq_ok.mp h
  obtain ⟨s, hhead, rfl⟩ := outside_eq_ok.mp houtside
  cases hrecord
  exact ⟨s, hhead, rfl⟩

/-- The steps of a read that returned. -/
theorem getToWriterInner_eq_ok {prim : Primitives} {o : ObjectId} {writer : Writer} {u : Unit}
    {w w' : World ω} (h : getToWriterInner prim o writer w = .ok u w') :
    ∃ rootKey version dataKey manifest w1 w2 w3, w.vault.rootKey = some rootKey ∧
      activeVersion o w = .ok version w1 ∧ version.objectId = o ∧
      openDataKey prim rootKey w1.vaultId o version = .ok dataKey ∧
      openManifest prim dataKey w1.vaultId o version = .ok manifest ∧
      checkStoredReceipt prim w1.vaultId o version w1 = .ok () w2 ∧
      digestPass prim version.versionId manifest w2 = .ok () w3 ∧
      decryptPass prim w1.vaultId o version.versionId dataKey manifest writer w3 = .ok u w' := by
  obtain ⟨rootKey, w0, hunlocked, hrest1⟩ := Op.bind_eq_ok.mp h
  obtain ⟨hkey, rfl⟩ := requireRootKey_eq_ok.mp hunlocked
  obtain ⟨version, w1, hversion, hrest2⟩ := Op.bind_eq_ok.mp hrest1
  obtain ⟨_, _, hpointer, hrest3⟩ := Op.bind_eq_ok.mp hrest2
  obtain ⟨hbound, rfl⟩ := Op.require_eq_ok.mp hpointer
  obtain ⟨_, _, hget, hrest4⟩ := Op.bind_eq_ok.mp hrest3
  cases hget
  obtain ⟨dataKey, _, hunwrap, hrest5⟩ := Op.bind_eq_ok.mp hrest4
  obtain ⟨hdek, rfl⟩ := Op.ofExcept_eq_ok.mp hunwrap
  obtain ⟨manifest, _, hopen, hrest6⟩ := Op.bind_eq_ok.mp hrest5
  obtain ⟨hmanifest, rfl⟩ := Op.ofExcept_eq_ok.mp hopen
  obtain ⟨_, w2, hreceipt, hrest7⟩ := Op.bind_eq_ok.mp hrest6
  obtain ⟨_, w3, hdigest, hdecrypt⟩ := Op.bind_eq_ok.mp hrest7
  exact ⟨rootKey, version, dataKey, manifest, _, w2, w3, hkey, hversion, hbound, hdek, hmanifest,
    hreceipt, hdigest, hdecrypt⟩

/-- The plaintext `get` returns is what the reader wrote to an empty vector. -/
theorem get_eq_ok {prim : Primitives} {o : ObjectId} {bytes : Bytes} {w w' : World ω}
    (h : get prim o w = .ok bytes w') :
    getToWriterInner prim o .vector { w with sink := [] } = .ok () w' ∧ bytes = w'.sink := by
  obtain ⟨_, w0, hclear, hread⟩ := Op.bind_eq_ok.mp (lockAfterFailure_eq_ok.mp h)
  cases hclear
  obtain ⟨_, w1, hinner, hsink⟩ := Op.bind_eq_ok.mp hread
  cases hsink
  exact ⟨hinner, rfl⟩

/-- A Manifest that was opened agrees with the row of its version. -/
theorem openManifest_eq_ok {prim : Primitives} {dataKey : Block 32} {v : VaultId} {o : ObjectId}
    {version : StoredVersion} {manifest : Manifest}
    (h : openManifest prim dataKey v o version = .ok manifest) :
    ∃ key bytes, deriveManifestKey prim dataKey version.versionId = .ok key ∧
      openRecord prim key.toList (manifestAad v o version.versionId) version.manifest = .ok bytes ∧
      decodeManifest bytes = .ok manifest ∧ manifest.objectId = version.objectId ∧
      manifest.versionId = version.versionId ∧ manifest.plaintextLen = version.plaintextLen ∧
      manifest.chunkSize = version.chunkSize ∧ manifest.chunkCount = version.chunkCount := by
  obtain ⟨key, hkey, h⟩ := except_bind_eq_ok.mp h
  obtain ⟨bytes, hbytes, h⟩ := except_bind_eq_ok.mp h
  obtain ⟨manifest', hdecode, h⟩ := except_bind_eq_ok.mp h
  obtain ⟨_, hbinding, h⟩ := except_bind_eq_ok.mp h
  obtain ⟨_, hfields, -⟩ := except_bind_eq_ok.mp hbinding
  cases h
  exact ⟨key, bytes, hkey, hbytes, hdecode, (ensure_eq_ok.mp hfields).2⟩

section Exclusive

variable [Exclusive ω] {w w' : World ω}

/-- With no other process writing, a query returns what its body says of the tables. -/
theorem query_ok_of_exclusive {body : Database → Except VaultError α} {a : α}
    (h : query body w = .ok a w') : body w.db = .ok a ∧ w.Untouched w' := by
  have hkeeps := keeps_query (R := World.Untouched) body w
  rw [h] at hkeeps
  exact ⟨hkeeps.db ▸ query_ok h, hkeeps⟩

/-- With no other process writing, the active version is the one both tables name. -/
theorem activeVersion_ok {o : ObjectId} {version : StoredVersion}
    (h : activeVersion o w = .ok version w') :
    w.db.selectActive o = .ok version.versionId ∧
      w.db.selectVersion version.versionId = .ok version ∧ w.Untouched w' := by
  obtain ⟨u, w1, hactive, h⟩ := Op.bind_eq_ok.mp h
  obtain ⟨hactive, hw1⟩ := query_ok_of_exclusive hactive
  obtain ⟨hversion, hw'⟩ := query_ok_of_exclusive h
  rw [hw1.db] at hversion
  have hu : version.versionId = u := (Database.selectVersion_eq_ok.mp hversion).1
  subst hu
  exact ⟨hactive, hversion, IsTrans.trans _ _ _ hw1 hw'⟩

/-- With no other process writing, the active receipt is stored for the active version. -/
theorem activeReceipt_ok_some {prim : Primitives} {o : ObjectId} {receipt : WitnessReceipt}
    (h : activeReceipt prim o w = .ok (some receipt) w') :
    w.db.selectActive o = .ok receipt.versionId ∧
      (∃ version, w.db.selectVersion receipt.versionId = .ok version) ∧
      w.db.selectReceipt prim receipt.versionId = .ok (some receipt) ∧ w.Untouched w' := by
  unfold activeReceipt at h
  cases hversion : activeVersion o w with
  | ok version w1 =>
    rw [hversion] at h
    obtain ⟨hactive, hstored, hw1⟩ := activeVersion_ok hversion
    obtain ⟨hreceipt, hw'⟩ := query_ok_of_exclusive h
    rw [hw1.db] at hreceipt
    have hu := (Database.selectReceipt_eq_ok_some.mp hreceipt).1
    rw [hu]
    exact ⟨hactive, ⟨version, hstored⟩, hreceipt, IsTrans.trans _ _ _ hw1 hw'⟩
  | failed e w1 =>
    rw [hversion] at h
    change (if e = .notFound then Outcome.ok none w1 else Outcome.failed e w1) = _ at h
    split at h <;> cases h
  | crashed w1 => rw [hversion] at h; cases h

/-- With no other process writing, the active objects are the keys of the table. -/
theorem activeObjectIds_ok {ids : List ObjectId} (h : activeObjectIds w = .ok ids w') :
    w.db.selectObjectKeys = ids.map Identifier.blob ∧ w.Untouched w' := by
  obtain ⟨keys, w1, hquery, h⟩ := Op.bind_eq_ok.mp h
  obtain ⟨hkeys, hw1⟩ := query_ok_of_exclusive hquery
  obtain ⟨hids, rfl⟩ := Op.ofExcept_eq_ok.mp h
  obtain rfl := Except.ok.inj hkeys
  exact ⟨Identifier.mapM_fromSlice_eq_ok.mp hids, hw1⟩

/-- An object that is read has an active version. -/
theorem getToWriterInner_ok_active {prim : Primitives} {o : ObjectId} {writer : Writer} {u : Unit}
    (h : getToWriterInner prim o writer w = .ok u w') :
    ∃ versionId, w.db.selectActive o = .ok versionId := by
  obtain ⟨rootKey, version, dataKey, manifest, w1, w2, w3, -, hversion, -⟩ := getToWriterInner_eq_ok h
  exact ⟨_, (activeVersion_ok hversion).1⟩

end Exclusive

end

end Vlt1

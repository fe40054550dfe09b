import Vlt1.Channel
import Vlt1.Library.Commit
import Vlt1.Vault.Putting

/-!
# Results and commits

A storage operation commits its writes in one transaction and then restricts the state files to
their owner, and so does the witness when it advances a head. The permission step comes after the
commit, so a result tells what became of the tables exactly when that step succeeds on whatever was
committed (`all_or_nothing`).

For the calls that publish, one that failed has left the tables alone, unless its own permission step
failed. Each of them is therefore cut at its last storage operation: a preparation, which leaves the
tables or at least the active versions alone, and the operation in the state the preparation ends in.
-/

namespace Vlt1

open Effect

/-! ### The storage operations -/

/-- A storage operation that writes. -/
inductive StorageCall where
  | publish (version : StoredVersion) (chunks : List EncryptedChunk)
  | finish (publication : StreamingPublication) (manifest : SealedRecord) (chunkCount : UInt32)
  | stageWitnessPublication (version : StoredVersion) (chunks : List EncryptedChunk)
      (expectedEpoch : UInt64)
  | finalizeWitnessPublication (version : StoredVersion) (receipt : WitnessReceipt)
  | replaceRootEnvelope (envelope : RootEnvelope)

/-- The update an operation is asked for. -/
def StorageCall.update (db : Database) : StorageCall → Except VaultError Database
  | publish version chunks => do
    ensure (chunks.length = version.chunkCount.toNat)
      (.invariant "chunk count does not match version metadata")
    db.publishBody version chunks none
  | finish publication manifest chunkCount => do
    ensure (chunkCount = publication.nextChunkIndex) (.invariant "streamed Manifest chunk count")
    publication.finishBody manifest chunkCount
  | stageWitnessPublication version chunks expectedEpoch => do
    ensure (chunks.length = version.chunkCount.toNat)
      (.invariant "chunk count does not match version metadata")
    db.stageBody version chunks expectedEpoch
  | finalizeWitnessPublication version receipt => do
    ensure (receipt.objectId = version.objectId ∧ receipt.versionId = version.versionId)
      (.invariant "freshness receipt version binding")
    db.finalizeBody version receipt
  | replaceRootEnvelope envelope => db.replaceEnvelopeBody envelope

section

variable {ω α : Type} [Machine ω]

/-- `replace_root_envelope`. -/
def replaceRootEnvelope (envelope : RootEnvelope) : VaultOp ω Unit := do
  transaction fun db => db.replaceEnvelopeBody envelope
  enforceOwnerPrivateStateFiles

/-- Rotating a passphrase stores the new envelope with `replaceRootEnvelope`. -/
theorem rotatePassphrase_eq (prim : Primitives) (current replacement : Text) :
    rotatePassphrase (ω := ω) prim current replacement = (do
      Op.ofExcept (validatePassphrase replacement)
      lockAfterFailure do
        let envelope := (← Op.get).vault.envelope
        let rootKey ← Op.ofExcept (openRootKey prim current envelope)
        let newEnvelope ← sealRootKey prim replacement envelope.vaultId rootKey .interactive
        replaceRootEnvelope newEnvelope
        Op.modify fun w => { w with vault := { envelope := newEnvelope, rootKey := none } }) := by
  simp only [rotatePassphrase, replaceRootEnvelope, Op.bind_assoc]

/-- The computation of an operation. -/
def StorageCall.run : StorageCall → VaultOp ω Unit
  | publish version chunks => Vlt1.publish version chunks
  | finish publication manifest chunkCount => publication.finish manifest chunkCount
  | stageWitnessPublication version chunks expectedEpoch =>
    Vlt1.stageWitnessPublication version chunks expectedEpoch
  | finalizeWitnessPublication version receipt => Vlt1.finalizeWitnessPublication version receipt
  | replaceRootEnvelope envelope => Vlt1.replaceRootEnvelope envelope

/-- The surroundings at the permission step of an operation that committed. An open streaming
transaction does not read the tables again. -/
def StorageCall.surroundings (w : World ω) : StorageCall → ω
  | finish _ _ _ => (Machine.fault w.outside).2
  | _ => (Machine.interfere w.db (Machine.fault w.outside).2).2

/-- The permission step of an operation that committed. -/
def StorageCall.permissionStep (call : StorageCall) (w : World ω) : Except VaultError Unit :=
  enforceOwnerPrivateSqliteState (Machine.files (call.surroundings w)).1

/-- No statement of the operation fails, and its update leaves the tables `db`. -/
structure StorageCall.Commits (call : StorageCall) (w : World ω) (db : Database) : Prop where
  fault : (Machine.fault w.outside).1 = .none
  update : call.update w.db = .ok db

/-- Everything a storage operation can do. -/
abbrev StorageCall.Effect (call : StorageCall) (w : World ω) :
    Outcome VaultError (World ω) Unit → Prop :=
  CommitEffect World.db (fun db => call.update db) w (call.Commits w) (call.permissionStep w)

namespace StorageCall.Effect

variable {call : StorageCall} {w : World ω}

/-- The permission step after a commit decides between the two results. -/
theorem enforce {w1 : World ω} (hcommits : call.Commits w w1.db)
    (houtside : w1.outside = call.surroundings w) :
    call.Effect w (enforceOwnerPrivateStateFiles w1) := by
  have hstep : enforceOwnerPrivateStateFiles w1 = Op.ofExcept (call.permissionStep w)
      { w1 with outside := (Machine.files w1.outside).2 } := by
    rw [StorageCall.permissionStep, ← houtside]
    rfl
  rw [hstep]
  cases hfiles : call.permissionStep w with
  | ok _ => exact .committed () hcommits hfiles
  | error e => exact .unreported e hcommits hfiles

/-- An operation whose first storage step fails is refused. -/
theorem storageFault {f : Unit → VaultOp ω Unit} (hnone : (Machine.fault w.outside).1 = .none →
      call.Effect w (f () { w with outside := (Machine.fault w.outside).2 })) :
    call.Effect w ((Vlt1.storageFault >>= f) w) := by
  rw [Op.bind_apply]
  cases hf : (Machine.fault w.outside).1 with
  | none =>
    rw [storageFault_of_none hf]
    exact hnone hf
  | storage =>
    rw [storageFault_of_storage hf]
    exact .refused _ (fun db h => by cases hf.symm.trans h.fault) rfl
  | crash =>
    rw [storageFault_of_crash hf]
    exact .died (fun db h => by cases hf.symm.trans h.fault) rfl

/-- A check before the transaction refuses exactly the updates it rules out. -/
theorem require {p : Prop} [Decidable p] {e : VaultError} {update : Except VaultError Database}
    {x : Unit → VaultOp ω Unit} (hupdate : call.update w.db = (ensure p e >>= fun _ => update))
    (hx : call.update w.db = update → call.Effect w (x () w)) :
    call.Effect w ((Op.require p e >>= x) w) := by
  by_cases hp : p
  · rw [Op.require_pos hp]
    refine hx ?_
    rw [hupdate, ensure_pos hp]
    rfl
  · rw [Op.require_neg hp]
    refine .refused e (fun db h => ?_) rfl
    rw [h.update, ensure, if_neg hp] at hupdate
    cases hupdate

/-- A refused update leaves the tables alone. -/
theorem refused_of_update {w1 : World ω} {e : VaultError} (hupdate : call.update w.db = .error e)
    (hdb : w1.db = w.db) : call.Effect w (.failed e w1) :=
  .refused e (fun db h => by cases hupdate.symm.trans h.update) hdb

/-- One transaction over the tables, and the permission step. -/
theorem transaction [Exclusive ω] {body : Database → Except VaultError Database}
    (hupdate : call.update w.db = body w.db)
    (houtside : call.surroundings w = (Machine.interfere w.db (Machine.fault w.outside).2).2) :
    call.Effect w ((Vlt1.transaction body >>= fun _ => enforceOwnerPrivateStateFiles) w) := by
  rw [Vlt1.transaction, Op.bind_assoc]
  refine storageFault fun hfault => ?_
  simp only [Op.bind_apply, tables, Exclusive.interfere_fst]
  cases hbody : body w.db with
  | error e => exact refused_of_update (hupdate.trans hbody) rfl
  | ok db => exact enforce ⟨hfault, hupdate.trans hbody⟩ houtside.symm

end StorageCall.Effect

variable [Exclusive ω]

/-- What a storage operation does, read off its code once. -/
theorem StorageCall.run_effect (call : StorageCall) (w : World ω) :
    call.Effect w (call.run w) := by
  cases call with
  | publish version chunks =>
    exact Effect.require rfl fun hupdate => Effect.transaction hupdate rfl
  | stageWitnessPublication version chunks expectedEpoch =>
    exact Effect.require rfl fun hupdate => Effect.transaction hupdate rfl
  | finalizeWitnessPublication version receipt =>
    exact Effect.require rfl fun hupdate => Effect.transaction hupdate rfl
  | replaceRootEnvelope envelope => exact Effect.transaction rfl rfl
  | finish publication manifest chunkCount =>
    refine Effect.require rfl fun hupdate => Effect.storageFault fun hfault => ?_
    cases hbody : publication.finishBody manifest chunkCount with
    | error e => exact Effect.refused_of_update (hupdate.trans hbody) rfl
    | ok db =>
      simp only [Op.bind_apply, Op.ofExcept_ok]
      exact Effect.enforce ⟨hfault, hupdate.trans hbody⟩ rfl

end

/-! ### The witness -/

/-- The update an issue request asks for. -/
def issueUpdate (prim : Primitives) (signingKey : Block 32) (request : IssueWireRequest)
    (db : WitnessDb) : Except VaultError WitnessDb := do
  let p ← parseIssue request
  let current ← loadReceipt prim db p.request.vaultId p.request.objectId
    (prim.verifyingKey signingKey)
  match decision current p with
  | .answer _ => return db
  | .conflict => .error .witnessConflict
  | .advance => return (← advanceHead prim signingKey db p.request).2

/-- The statements of an issue request succeed, and its update leaves the tables `db'`. -/
structure IssueCommits (prim : Primitives) (signingKey : Block 32) (env : ServiceEnv)
    (request : IssueWireRequest) (db db' : WitnessDb) : Prop where
  read : env.readFails = false
  write : env.writeFails = false
  update : issueUpdate prim signingKey request db = .ok db'

/-- An issue request commits at most its update, before the permission step. -/
theorem issueWire_commitEffect (prim : Primitives) (signingKey : Block 32) (env : ServiceEnv)
    (request : IssueWireRequest) (db : WitnessDb) :
    CommitEffect id (issueUpdate prim signingKey request) db
      (IssueCommits prim signingKey env request db) (enforceOwnerPrivateSqliteState env.files)
      (issueWire prim signingKey env request db) := by
  have hrefused {e : VaultError} (h : issueUpdate prim signingKey request db = .error e) :
      ∀ db', ¬IssueCommits prim signingKey env request db db' :=
    fun db' hdb' => by cases h.symm.trans hdb'.update
  unfold issueWire
  cases hparse : parseIssue request with
  | error e => exact .refused e (hrefused (by rw [issueUpdate, hparse]; rfl)) rfl
  | ok p =>
    rw [Op.ofExcept_ok, Op.pure_bind]
    by_cases hread : env.readFails = false
    · rw [Op.require_pos hread, Op.pure_bind, Op.bind_of_ok (Op.get_apply db)]
      cases hload : loadReceipt prim db p.request.vaultId p.request.objectId
          (prim.verifyingKey signingKey) with
      | error e =>
        have hupdate : issueUpdate prim signingKey request db = .error e := by
          simp only [issueUpdate, hparse, hload, bind, Except.bind]
        exact .refused e (hrefused hupdate) rfl
      | ok current =>
        rw [Op.ofExcept_ok, Op.pure_bind]
        have hupdate : issueUpdate prim signingKey request db = match decision current p with
            | .answer _ => .ok db
            | .conflict => .error .witnessConflict
            | .advance => (advanceHead prim signingKey db p.request).map Prod.snd := by
          simp only [issueUpdate, hparse, hload, bind, Except.bind]
          cases decision current p with
          | answer r => rfl
          | conflict => rfl
          | advance => cases advanceHead prim signingKey db p.request <;> rfl
        cases hdec : decision current p with
        | conflict => exact .refused _ (hrefused (by rw [hupdate, hdec])) rfl
        | answer r => exact .idle _ (by rw [id, hupdate, hdec]) rfl
        | advance =>
          simp only
          cases hadv : advanceHead prim signingKey db p.request with
          | error e => exact .refused e (hrefused (by rw [hupdate, hdec, hadv]; rfl)) rfl
          | ok res =>
            have hok : issueUpdate prim signingKey request db = .ok res.2 := by
              rw [hupdate, hdec, hadv]
              rfl
            rw [Op.ofExcept_ok, Op.pure_bind]
            by_cases hwrite : env.writeFails = false
            · rw [Op.require_pos hwrite, Op.pure_bind, Op.bind_of_ok (Op.modify_apply _ db)]
              cases enforceOwnerPrivateSqliteState env.files with
              | error e => exact .unreported e ⟨hread, hwrite, hok⟩ rfl
              | ok _ => exact .committed _ ⟨hread, hwrite, hok⟩ rfl
            · rw [Op.require_neg hwrite]
              exact .refused _ (fun db' hdb' => hwrite hdb'.write) rfl
    · rw [Op.require_neg hread]
      exact .refused _ (fun db' hdb' => hread hdb'.read) rfl

/-! ### The calls that publish -/

section

variable {ω α : Type} [Machine ω]

variable (prim : Primitives)

/-- What a `put` does before its transaction: the version identifier to return, and the operation
that publishes the version. -/
def preparePut (o : ObjectId) (plaintext : Bytes) (size : ℕ) : VaultOp ω (VersionId × StorageCall) := do
  let prepared ← prepareVersion prim o plaintext size
  return (prepared.storedVersion.versionId, .publish prepared.storedVersion prepared.chunks)

/-- What a `put_from_reader` does before it finishes its transaction. -/
def preparePutFromReader (o : ObjectId) (reader : Reader) (size : ℕ) :
    VaultOp ω (VersionId × StorageCall) := do
  Op.require (size ≠ 0) (.invalidInput "invalid chunk size")
  Op.require (size < 2 ^ 32) (.invalidInput "invalid chunk size")
  let rootKey ← requireRootKey
  let vaultId := (← Op.get).vaultId
  let versionId ← randomVersionId
  let dataKey ← randomBytes 32
  let wrappedDek ← wrapDataKey prim rootKey vaultId o versionId dataKey
  let publication ← beginStreamingPublication o versionId wrappedDek (UInt32.ofNat size)
  let s ← Op.fold (streamChunk prim vaultId dataKey)
    { publication, digest := .new, chunkCount := 0, plaintextLen := 0 } (reader.chunks size).1
  Op.ofExcept (reader.chunks size).2
  let manifest ← sealManifest prim vaultId dataKey
    { formatVersion, objectId := o, versionId, plaintextLen := s.plaintextLen
      chunkSize := UInt32.ofNat size, chunkCount := s.chunkCount
      chunkDigest := s.digest.finalize prim }
  return (versionId, .finish s.publication manifest s.chunkCount)

/-- What a `put_with_witness` does before it makes its staged version active. -/
def preparePutWithWitness (o : ObjectId) (plaintext : Bytes) (provider : WitnessProvider ω) :
    VaultOp ω (VersionId × StorageCall) := do
  let prepared ← prepareVersion prim o plaintext defaultChunkSize
  let active ← activeReceipt prim o
  let expectedEpoch := active.elim 0 WitnessReceipt.witnessEpoch
  stageWitnessPublication prepared.storedVersion prepared.chunks expectedEpoch
  let vaultId := (← Op.get).vaultId
  let version := prepared.storedVersion
  let request := WitnessRequest.new prim vaultId version.objectId version.versionId version.manifest
  let receipt ← provider.issue request expectedEpoch
  Op.ofExcept (receipt.verifyRequest prim request)
  return (version.versionId, .finalizeWitnessPublication version receipt)

/-- Publish what was prepared. -/
def publishPrepared (prepare : VaultOp ω (VersionId × StorageCall)) : VaultOp ω VersionId :=
  lockAfterFailure do
    let prepared ← prepare
    prepared.2.run
    return prepared.1

theorem putWithChunkSize_eq (o : ObjectId) (plaintext : Bytes) (size : ℕ) :
    putWithChunkSize (ω := ω) prim o plaintext size =
      publishPrepared (preparePut prim o plaintext size) := by
  simp only [putWithChunkSize, publishPrepared, preparePut, Op.bind_assoc, Op.pure_bind,
    StorageCall.run]

theorem putFromReaderWithChunkSize_eq (o : ObjectId) (reader : Reader) (size : ℕ) :
    putFromReaderWithChunkSize (ω := ω) prim o reader size =
      publishPrepared (preparePutFromReader prim o reader size) := by
  simp only [putFromReaderWithChunkSize, putFromReaderInner, publishPrepared, preparePutFromReader,
    Op.bind_assoc, Op.pure_bind, StorageCall.run]

theorem putWithWitness_eq (o : ObjectId) (plaintext : Bytes) (provider : WitnessProvider ω) :
    putWithWitness prim o plaintext provider =
      publishPrepared (preparePutWithWitness prim o plaintext provider) := by
  simp only [putWithWitness, acknowledge, publishPrepared, preparePutWithWitness, Op.bind_assoc,
    Op.pure_bind, StorageCall.run]

/-- The call committed the tables `db`, and then its own permission step reported the error `e`. -/
def FailsAfterCommit (prepare : VaultOp ω (VersionId × StorageCall)) (w : World ω) (e : VaultError)
    (db : Database) : Prop :=
  ∃ prepared x, prepare w = .ok prepared x ∧ prepared.2.Commits x db ∧
    prepared.2.permissionStep x = .error e

variable {prim}
variable [Exclusive ω] {P : Database → Prop} {o : ObjectId}

/-- A storage operation that fails left the tables alone, or its permission step failed. -/
theorem StorageCall.run_failed {call : StorageCall} {w w' : World ω} {e : VaultError}
    (h : call.run w = .failed e w') :
    w'.db = w.db ∨ call.Commits w w'.db ∧ call.permissionStep w = .error e := by
  have heffect := call.run_effect w
  rw [h] at heffect
  cases heffect with
  | refused _ _ hdb => exact .inl hdb
  | unreported _ hcommits hfiles => exact .inr ⟨hcommits, hfiles⟩

/-- A call that fails left alone what its preparation leaves alone, or its permission step failed. -/
theorem publishPrepared_failed {prepare : VaultOp ω (VersionId × StorageCall)}
    (hprepare : Op.Triple (fun w => P w.db) prepare (fun _ w => P w.db) fun _ w => P w.db)
    {e : VaultError} {w w' : World ω} (hw : P w.db) (h : publishPrepared prepare w = .failed e w') :
    P w'.db ∨ FailsAfterCommit prepare w e w'.db := by
  obtain ⟨w1, hx, rfl⟩ := lockAfterFailure_eq_failed.mp h
  have hdb : (if e.requiresLock then w1.locked else w1).db = w1.db := by split <;> rfl
  rw [hdb]
  rcases Op.bind_eq_failed.mp hx with hprepared | ⟨prepared, x, hprepared, hx⟩
  · exact .inl (hprepare.failed_of hw hprepared)
  rcases Op.bind_eq_failed.mp hx with hrun | ⟨_, _, _, hpure⟩
  · rcases StorageCall.run_failed hrun with hsame | ⟨hcommits, hfiles⟩
    · exact .inl (hsame ▸ hprepare.ok_of hw hprepared)
    · exact .inr ⟨prepared, x, hprepared, hcommits, hfiles⟩
  · cases hpure

/-- Reading and sealing steps leave the tables alone. -/
theorem tables_of_keeps {x : VaultOp ω α}
    (hx : ∀ R : World ω → World ω → Prop, SealRelation R → Op.Keeps R x) :
    Op.Triple (fun w => P w.db) x (fun _ w => P w.db) fun _ w => P w.db :=
  (Steady.of_untouched fun _ db => P db).triple hx

theorem triple_preparePut (plaintext : Bytes) (size : ℕ) :
    Op.Triple (fun w : World ω => P w.db) (preparePut prim o plaintext size) (fun _ w => P w.db)
      fun _ w => P w.db :=
  Op.Triple.bind _ (tables_of_keeps fun _ _ => keeps_prepareVersion prim o plaintext size)
    fun _ => Op.Triple.pure fun _ h => h

theorem triple_preparePutFromReader (reader : Reader) (size : ℕ) :
    Op.Triple (fun w : World ω => P w.db) (preparePutFromReader prim o reader size)
      (fun _ w => P w.db) fun _ w => P w.db := by
  refine Op.Triple.bind_require (fun _ => ?_) fun _ _ h => h
  refine Op.Triple.bind_require (fun _ => ?_) fun _ _ h => h
  refine Op.Triple.bind _ (tables_of_keeps fun R hR => keeps_requireRootKey) fun rootKey => ?_
  refine Op.Triple.bind _ (tables_of_keeps fun R hR => Op.Keeps.get) fun w0 => ?_
  refine Op.Triple.bind _ (tables_of_keeps fun R hR => keeps_randomVersionId) fun u => ?_
  refine Op.Triple.bind _ (tables_of_keeps fun R hR => keeps_randomBytes 32) fun dataKey => ?_
  refine Op.Triple.bind _ (tables_of_keeps fun R hR => keeps_wrapDataKey prim _ _ _ _ _)
    fun dek => ?_
  refine Op.Triple.bind _ (tables_of_keeps fun R hR => keeps_beginStreamingPublication _ _ _ _)
    fun p => ?_
  refine Op.Triple.bind _ (tables_of_keeps fun R hR => Op.Keeps.fold (keeps_streamChunk prim _ _) _ _)
    fun s => ?_
  refine Op.Triple.bind_ofExcept (fun _ _ => ?_) fun _ _ _ h => h
  exact Op.Triple.bind _ (tables_of_keeps fun R hR => keeps_sealManifest prim _ _ _)
    fun _ => Op.Triple.pure fun _ h => h

/-- Staging a version commits, but changes no active version, however it ends. -/
theorem triple_stage_objects (version : StoredVersion) (chunks : List EncryptedChunk) (e : UInt64)
    (objects : Table Bytes Bytes) :
    Op.Triple (fun w : World ω => w.db.objects = objects) (stageWitnessPublication version chunks e)
      (fun _ w => w.db.objects = objects) fun _ w => w.db.objects = objects := by
  intro w hw
  have hstaged {db : Database} (h : StorageCall.update w.db
      (.stageWitnessPublication version chunks e) = .ok db) : db.objects = objects := by
    obtain ⟨_, -, hbody⟩ := except_bind_eq_ok.mp h
    obtain ⟨-, -, -, -, rfl⟩ := Database.stageBody_ok hbody
    exact hw
  have heffect := StorageCall.run_effect (.stageWitnessPublication version chunks e) w
  rw [StorageCall.run] at heffect
  generalize stageWitnessPublication version chunks e w = outcome at heffect
  cases heffect with
  | refused _ _ hdb => exact (congrArg Database.objects hdb).trans hw
  | died _ hdb => exact (congrArg Database.objects hdb).trans hw
  | idle _ _ hdb => exact (congrArg Database.objects hdb).trans hw
  | committed _ hcommits _ => exact hstaged hcommits.update
  | unreported _ hcommits _ => exact hstaged hcommits.update

theorem triple_preparePutWithWitness (provider : WitnessProvider ω) (plaintext : Bytes)
    (objects : Table Bytes Bytes) :
    Op.Triple (fun w : World ω => w.db.objects = objects)
      (preparePutWithWitness prim o plaintext provider) (fun _ w => w.db.objects = objects)
      fun _ w => w.db.objects = objects := by
  have hkeeps {α : Type} {x : VaultOp ω α}
      (hx : ∀ R : World ω → World ω → Prop, SealRelation R → Op.Keeps R x) :=
    tables_of_keeps (P := fun db => db.objects = objects) hx
  refine Op.Triple.bind _ (hkeeps fun R hR => keeps_prepareVersion prim o plaintext _)
    fun prepared => ?_
  refine Op.Triple.bind _ (hkeeps fun R hR => keeps_activeReceipt prim o) fun active => ?_
  refine Op.Triple.bind _ (triple_stage_objects _ _ _ objects) fun _ => ?_
  refine Op.Triple.bind _ (hkeeps fun R hR => Op.Keeps.get) fun w0 => ?_
  -- the request to the witness changes nothing here
  have hissue : ∀ request e, Op.Triple (fun w : World ω => w.db.objects = objects)
      (provider.issue request e) (fun _ w => w.db.objects = objects)
      fun _ w => w.db.objects = objects :=
    fun request e => Op.Triple.of_keeps fun w hw => by
      rw [(keeps_issue provider request e w).db]
      exact hw
  refine Op.Triple.bind _ (hissue _ _) fun receipt => ?_
  exact Op.Triple.bind_ofExcept (fun _ _ => Op.Triple.pure fun _ h => h) fun _ _ _ h => h

/-- **Results and commits.** For each storage operation and for the witness's issue request, an error
means that the tables are as before and a success that the whole update is committed, exactly when
the permission step succeeds on every update that changes the tables. A call of `put` or
`put_from_reader` that failed has left the tables alone, and one of `put_with_witness` the active
versions, unless its own permission step failed, in the state in which the call reached its commit. -/
theorem all_or_nothing (prim : Primitives) (provider : WitnessProvider ω) :
    (∀ (call : StorageCall) (w : World ω),
      AllOrNothing World.db (fun db => call.update db) call.run w ↔
        ((∃ db, call.Commits w db ∧ db ≠ w.db) → call.permissionStep w = .ok ())) ∧
    (∀ (signingKey : Block 32) (env : ServiceEnv) (request : IssueWireRequest) (db : WitnessDb),
      AllOrNothing id (issueUpdate prim signingKey request) (issueWire prim signingKey env request)
          db ↔
        ((∃ db', IssueCommits prim signingKey env request db db' ∧ db' ≠ db) →
          enforceOwnerPrivateSqliteState env.files = .ok ())) ∧
    ∀ (o : ObjectId) (e : VaultError) (w w' : World ω),
      (∀ plaintext size, putWithChunkSize prim o plaintext size w = .failed e w' →
        w'.db = w.db ∨ FailsAfterCommit (preparePut prim o plaintext size) w e w'.db) ∧
      (∀ reader size, putFromReaderWithChunkSize prim o reader size w = .failed e w' →
        w'.db = w.db ∨ FailsAfterCommit (preparePutFromReader prim o reader size) w e w'.db) ∧
      (∀ plaintext, putWithWitness prim o plaintext provider w = .failed e w' →
        w'.db.objects = w.db.objects ∨
          FailsAfterCommit (preparePutWithWitness prim o plaintext provider) w e w'.db) := by
  refine ⟨fun call w => allOrNothing_iff (call.run_effect w) fun db hdb => hdb.update,
    fun key env request db => allOrNothing_iff (issueWire_commitEffect prim key env request db)
      fun db' hdb' => hdb'.update, fun o e w w' => ⟨?_, ?_, ?_⟩⟩
  · intro plaintext size h
    rw [putWithChunkSize_eq] at h
    exact publishPrepared_failed (P := (· = w.db))
      (triple_preparePut (P := (· = w.db)) plaintext size) rfl h
  · intro reader size h
    rw [putFromReaderWithChunkSize_eq] at h
    exact publishPrepared_failed (P := (· = w.db))
      (triple_preparePutFromReader (P := (· = w.db)) reader size) rfl h
  · intro plaintext h
    rw [putWithWitness_eq] at h
    exact publishPrepared_failed (P := fun db => db.objects = w.db.objects)
      (triple_preparePutWithWitness provider plaintext w.db.objects) rfl h

end

/-- The sample vault with a write-ahead log that is not a regular file at its next commit. -/
def sampleSpoiled : World (OnDisk SampleChannel) where
  vault := sampleWorld.vault
  db := sampleWorld.db
  sink := sampleWorld.sink
  history := sampleWorld.history
  outside := ⟨sampleWorld.outside, [.strangeWal]⟩

/-- A version of the sample object without chunks. -/
def sampleVersion : StoredVersion :=
  ⟨.repeated 2, .repeated 3, ⟨.zero 12, []⟩, ⟨.zero 12, []⟩, 0, 1, 0⟩

/-- On the sample vault, whose files are private, publishing a version changes the tables and is all
or nothing; with the strange log a `put` has failed at its own permission step. -/
theorem all_or_nothing_sample :
    ((∃ db, (StorageCall.publish sampleVersion []).Commits sampleWorld db ∧ db ≠ sampleWorld.db) ∧
      AllOrNothing World.db (fun db => StorageCall.update db (.publish sampleVersion []))
        (StorageCall.run (.publish sampleVersion [])) sampleWorld) ∧
    FailsAfterCommit (preparePut .checksum (.repeated 2) [97] defaultChunkSize) sampleSpoiled
      (.invalidInput "VLT/1 state file type")
      (put .checksum (.repeated 2) [97] sampleSpoiled).state.db := by
  have hfacts : (put .checksum (.repeated 2) [97] sampleSpoiled).result =
        some (.error (.invalidInput "VLT/1 state file type")) ∧
      (put .checksum (.repeated 2) [97] sampleSpoiled).state.db.objects.lookup
        sampleVersion.objectId.blob ≠ sampleSpoiled.db.objects.lookup sampleVersion.objectId.blob ∧
      (StorageCall.update sampleWorld.db (.publish sampleVersion [])).toOption.map
          (fun db => db.objects.lookup sampleVersion.objectId.blob) =
        some (some sampleVersion.versionId.blob) ∧
      sampleWorld.db.objects.lookup sampleVersion.objectId.blob = none := by
    decide +kernel
  obtain ⟨hput, hchanged, hupdate, hbefore⟩ := hfacts
  refine ⟨⟨?_, ((all_or_nothing .checksum (sampleTrust.provider .checksum)).1
    (.publish sampleVersion []) sampleWorld).mpr fun _ => rfl⟩, ?_⟩
  · cases hdb : StorageCall.update sampleWorld.db (.publish sampleVersion []) with
    | error e => rw [hdb] at hupdate; cases hupdate
    | ok db =>
      refine ⟨db, ⟨rfl, hdb⟩, fun hsame => ?_⟩
      rw [hdb, hsame] at hupdate
      cases hbefore.symm.trans (Option.some.inj hupdate)
  · refine (((all_or_nothing (ω := OnDisk SampleChannel) .checksum
      (sampleTrust.provider .checksum)).2.2 (.repeated 2) _ sampleSpoiled _).1 [97] defaultChunkSize
      (Outcome.eq_failed_of_result hput)).resolve_left fun h => hchanged ?_
    exact congrArg (fun db => db.objects.lookup sampleVersion.objectId.blob) h

/-- A `publish` and a `put` that fail after their commit; what the `put` was given is then read. -/
theorem put_fails_after_commit :
    (∃ e w', publish sampleVersion [] sampleSpoiled = .failed e w' ∧ w'.db ≠ sampleSpoiled.db) ∧
    ∃ e w', put .checksum (.repeated 2) [97] sampleSpoiled = .failed e w' ∧
      (get .checksum (.repeated 2) sampleSpoiled).result = some (.error .notFound) ∧
      (get .checksum (.repeated 2) w').result = some (.ok [97]) := by
  have hpublish : (publish sampleVersion [] sampleSpoiled).result =
      some (.error (.invalidInput "VLT/1 state file type")) := by decide +kernel
  have hput : (put .checksum (.repeated 2) [97] sampleSpoiled).result =
      some (.error (.invalidInput "VLT/1 state file type")) := by decide +kernel
  refine ⟨⟨_, _, Outcome.eq_failed_of_result hpublish, fun h => ?_⟩,
    _, _, Outcome.eq_failed_of_result hput, by decide +kernel, by decide +kernel⟩
  have hobjects : (publish sampleVersion [] sampleSpoiled).state.db.objects.lookup
      sampleVersion.objectId.blob ≠ sampleSpoiled.db.objects.lookup sampleVersion.objectId.blob := by
    decide +kernel
  exact hobjects (by rw [h])

end Vlt1

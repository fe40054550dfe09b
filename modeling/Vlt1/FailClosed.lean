import Vlt1.Channel
import Vlt1.Session
import Vlt1.Vault.Failures

/-!
# Errors that have to lock the vault

After an error about storage, format, authenticity or the witness, and after a passphrase that does
not open the Root Key envelope, a vault has to be locked. Most operations are wrapped by
`lockAfterFailure`. Three paths are not: `unlock` never locks, `rotatePassphrase` does not lock after
`unlockFailed`, and `backupTo` only borrows the vault.

`failsClosed_iff` says exactly when an operation leaves an unlocked vault behind. The longer part is
that no other operation reports `unlockFailed`.
-/

namespace Vlt1

open Effect

/-- After this error the vault has to be locked. -/
def VaultError.MustLock (e : VaultError) : Prop := e.Locks ∨ e = .unlockFailed

/-- The error is not about a passphrase. -/
def VaultError.Ordinary (e : VaultError) : Prop := e ≠ .unlockFailed

/-- No error that calls for a lock is about a passphrase. -/
theorem VaultError.Locks.ordinary {e : VaultError} (h : e.Locks) : e.Ordinary := by
  rintro rfl
  cases h

/-! ### Opening an envelope -/

section Envelope

variable {prim : Primitives}

/-- Stored parameters out of range call for a lock. -/
theorem KdfParams.throws_validatePersisted (params : KdfParams) :
    Throws VaultError.Locks (params.validatePersisted prim) :=
  Throws.ite (Throws.error rfl) (Throws.ite (Throws.error rfl) (Throws.ok _))

/-- An envelope that does not open calls for a locked vault. -/
theorem throws_openRootKey (passphrase : Text) (envelope : RootEnvelope) :
    Throws VaultError.MustLock (openRootKey prim passphrase envelope) := by
  have hderive : Throws VaultError.MustLock
      (derivePassphraseKey prim passphrase envelope.salt envelope.params) := by
    refine Throws.bind ((KdfParams.throws_validatePersisted _).mono fun _ => .inl) fun _ => ?_
    refine Throws.ite (Throws.error (.inl rfl)) ?_
    split
    · exact Throws.ok _
    · exact Throws.error (.inr rfl)
  refine Throws.bind hderive fun key => ?_
  split
  · exact Throws.error (.inr rfl)
  · split
    · exact Throws.ok _
    · exact Throws.error (.inr rfl)

end Envelope

/-! ### The other operations -/

namespace Ordinary

section

variable {ω α β : Type} {prim : Primitives}

/-- What fails with errors that call for a lock says nothing about passphrases. -/
theorem ofLocks {σ : Type} {x : Op VaultError σ α} (h : Op.Fails VaultError.Locks x) :
    Op.Fails VaultError.Ordinary x :=
  h.mono fun _ => VaultError.Locks.ordinary

/-- What throws errors that call for a lock says nothing about passphrases. -/
theorem throwsOfLocks {x : Except VaultError α} (h : Throws VaultError.Locks x) :
    Throws VaultError.Ordinary x :=
  h.mono fun _ => VaultError.Locks.ordinary

/-- A locked vault is reported as such. -/
theorem requireRootKey : Op.Fails VaultError.Ordinary (Vlt1.requireRootKey (ω := ω)) := by
  refine Op.Fails.bind Op.Fails.get fun w => ?_
  cases w.vault.rootKey with
  | none => exact Op.Fails.fail nofun
  | some rootKey => exact Op.Fails.pure _

/-- A call outside fails as it does there. -/
theorem outside {x : Op VaultError ω α} (hx : Op.Fails VaultError.Ordinary x) :
    Op.Fails VaultError.Ordinary (Vlt1.outside x) := by
  intro w e w' h
  unfold Vlt1.outside Op.zoom at h
  cases ho : x w.outside with
  | ok a o => rw [ho] at h; cases h
  | failed e' o =>
    rw [ho] at h
    cases h
    exact hx _ _ _ ho
  | crashed o => rw [ho] at h; cases h

/-- Asking the surroundings never fails. -/
theorem interact (f : ω → α × ω) : Op.Fails VaultError.Ordinary (Vlt1.interact f) :=
  fun w e w' h => by cases h

variable [Machine ω]

/-- A query fails as the storage or its body does. -/
theorem query {body : Database → Except VaultError α}
    (h : ∀ db, Throws VaultError.Ordinary (body db)) :
    Op.Fails VaultError.Ordinary (Vlt1.query (ω := ω) body) :=
  Op.Fails.bind (ofLocks fails_storageFault) fun _ => Op.Fails.bind fails_tables fun db =>
    Op.Fails.ofExcept (h db)

/-- State files that are not the owner's own are reported as such. -/
theorem enforceOwnerPrivateStateFiles :
    Op.Fails VaultError.Ordinary (Vlt1.enforceOwnerPrivateStateFiles (ω := ω)) := by
  have hfile (f : StateFile) : Throws VaultError.Ordinary (enforceOwnerPrivateFile f) := by
    unfold enforceOwnerPrivateFile
    split
    · exact Throws.error nofun
    · exact Throws.error nofun
    · exact Throws.error nofun
    · exact Throws.ite (Throws.ite (Throws.ok _) (Throws.error nofun)) (Throws.ok _)
  have hoptional (f : StateFile) :
      Throws VaultError.Ordinary (enforceOwnerPrivateOptionalFile f) := by
    unfold enforceOwnerPrivateOptionalFile
    split
    · exact Throws.ok _
    · exact Throws.error nofun
    · exact hfile f
  exact Op.Fails.bind (interact _) fun files => Op.Fails.ofExcept
    (Throws.bind (hfile _) fun _ => Throws.bind (hoptional _) fun _ => hoptional _)

/-- A version that is missing or malformed is reported as such. -/
theorem throws_selectVersion (db : Database) (u : VersionId) :
    Throws VaultError.Ordinary (db.selectVersion u) := by
  intro e h
  rcases Database.selectVersion_error h with hlocks | ⟨rfl, -⟩
  · exact hlocks.ordinary
  · nofun

/-- An object that is not there is reported as such. -/
theorem activeVersion (o : ObjectId) :
    Op.Fails VaultError.Ordinary (Vlt1.activeVersion (ω := ω) o) := by
  refine Op.Fails.bind (query fun db e h => ?_) fun u => query fun db => throws_selectVersion db u
  rcases Database.selectActive_error h with hlocks | ⟨rfl, -⟩
  · exact hlocks.ordinary
  · nofun

theorem activeReceipt (o : ObjectId) :
    Op.Fails VaultError.Ordinary (Vlt1.activeReceipt (ω := ω) prim o) := by
  intro w e w' h
  unfold Vlt1.activeReceipt at h
  cases hversion : Vlt1.activeVersion o w with
  | ok version w1 =>
    rw [hversion] at h
    exact ofLocks (fails_query fun _ => Database.throws_selectReceipt _) _ _ _ h
  | failed e' w1 =>
    rw [hversion] at h
    simp only at h
    split at h
    · cases h
    · cases h
      exact activeVersion o _ _ _ hversion
  | crashed w1 => rw [hversion] at h; cases h

/-! Reading. -/

/-- A read into a writer, through both passes. -/
theorem getToWriterInner (o : ObjectId) (writer : Writer) :
    Op.Fails VaultError.Ordinary (Vlt1.getToWriterInner (ω := ω) prim o writer) :=
  Op.Fails.bind requireRootKey fun _ => Op.Fails.bind (activeVersion o) fun _ =>
    Op.Fails.bind (Op.Fails.require nofun) fun _ => Op.Fails.bind Op.Fails.get fun _ =>
      Op.Fails.bind (Op.Fails.ofExcept (throwsOfLocks (throws_openDataKey _ _ _ _))) fun _ =>
        Op.Fails.bind (Op.Fails.ofExcept (throwsOfLocks (throws_openManifest _ _ _ _))) fun _ =>
          Op.Fails.bind (ofLocks (fails_checkStoredReceipt _ _ _)) fun _ =>
            Op.Fails.bind (ofLocks (fails_digestPass _ _)) fun _ =>
              ofLocks (fails_decryptPass _ _ _ _ _ _)

theorem activeObjectIds : Op.Fails VaultError.Ordinary (Vlt1.activeObjectIds (ω := ω)) :=
  ofLocks (Op.Fails.bind (fails_query fun _ => Throws.ok _) fun _ =>
    Op.Fails.ofExcept (throws_mapM_fromSlice _))

/-! Sealing. -/

/-- A record that cannot be sealed is reported as such. -/
theorem sealRecord (key aad plaintext : Bytes) :
    Op.Fails VaultError.Ordinary (Vlt1.sealRecord (ω := ω) prim key aad plaintext) := by
  refine Op.Fails.bind (Op.Fails.require nofun) fun _ => Op.Fails.bind (interact _) fun nonce => ?_
  split
  · exact Op.Fails.fail nofun
  · exact Op.Fails.bind (Op.Fails.modify _) fun _ => Op.Fails.pure _

theorem sealChunk (v : VaultId) (o : ObjectId) (u : VersionId) (dataKey : Block 32)
    (index : UInt32) (chunk : Bytes) :
    Op.Fails VaultError.Ordinary (Vlt1.sealChunk (ω := ω) prim v o u dataKey index chunk) :=
  Op.Fails.bind (Op.Fails.require nofun) fun _ => Op.Fails.bind (sealRecord _ _ _) fun _ =>
    Op.Fails.pure _

theorem sealManifest (v : VaultId) (dataKey : Block 32) (manifest : Manifest) :
    Op.Fails VaultError.Ordinary (Vlt1.sealManifest (ω := ω) prim v dataKey manifest) :=
  Op.Fails.bind (Op.Fails.ofExcept (throwsOfLocks (throws_deriveDomainKey _ _ _))) fun _ =>
    sealRecord _ _ _

theorem wrapDataKey (rootKey : Block 32) (v : VaultId) (o : ObjectId) (u : VersionId)
    (dataKey : Block 32) :
    Op.Fails VaultError.Ordinary (Vlt1.wrapDataKey (ω := ω) prim rootKey v o u dataKey) :=
  Op.Fails.bind (Op.Fails.ofExcept (throwsOfLocks (throws_deriveDomainKey _ _ _))) fun _ =>
    sealRecord _ _ _

theorem randomVersionId : Op.Fails VaultError.Ordinary (Vlt1.randomVersionId (ω := ω)) :=
  Op.Fails.bind (interact _) fun _ => Op.Fails.bind (Op.Fails.modify _) fun _ => Op.Fails.pure _

/-- Preparing a version checks its arguments and seals its parts. -/
theorem prepareVersion (o : ObjectId) (plaintext : Bytes) (chunkSize : ℕ) :
    Op.Fails VaultError.Ordinary (Vlt1.prepareVersion (ω := ω) prim o plaintext chunkSize) :=
  Op.Fails.bind requireRootKey fun _ => Op.Fails.bind Op.Fails.get fun _ =>
    Op.Fails.bind (Op.Fails.require nofun) fun _ => Op.Fails.bind (Op.Fails.require nofun) fun _ =>
      Op.Fails.bind (Op.Fails.require nofun) fun _ =>
        Op.Fails.bind (Op.Fails.require nofun) fun _ =>
          Op.Fails.bind (Op.Fails.require nofun) fun _ => Op.Fails.bind randomVersionId fun _ =>
            Op.Fails.bind (interact _) fun _ =>
              Op.Fails.bind (Op.Fails.fold (fun _ _ => Op.Fails.bind (Op.Fails.require nofun)
                fun _ => Op.Fails.bind (sealChunk _ _ _ _ _ _) fun _ => Op.Fails.pure _) _ _)
                fun _ => Op.Fails.bind (sealManifest _ _ _) fun _ =>
                  Op.Fails.bind (wrapDataKey _ _ _ _ _) fun _ => Op.Fails.pure _

/-! Writing. -/

/-- A publication fails in its transaction or at the files behind it. -/
theorem publish (v : StoredVersion) (chunks : List EncryptedChunk) :
    Op.Fails VaultError.Ordinary (Vlt1.publish (ω := ω) v chunks) := by
  refine Op.Fails.bind (Op.Fails.require nofun) fun _ => Op.Fails.bind (ofLocks
    (fails_transaction fun db => ?_)) fun _ => enforceOwnerPrivateStateFiles
  exact Throws.bind (Database.throws_insertVersion v) fun _ =>
    Throws.bind (Database.throws_insertChunks _ chunks) fun _ => Throws.ok _

theorem stageWitnessPublication (v : StoredVersion) (chunks : List EncryptedChunk) (e : UInt64) :
    Op.Fails VaultError.Ordinary (Vlt1.stageWitnessPublication (ω := ω) v chunks e) :=
  Op.Fails.bind (Op.Fails.require nofun) fun _ => Op.Fails.bind (ofLocks
    (fails_transaction fun _ => Database.throws_stageBody v chunks e)) fun _ =>
      enforceOwnerPrivateStateFiles

theorem finalizeWitnessPublication (v : StoredVersion) (r : WitnessReceipt) :
    Op.Fails VaultError.Ordinary (Vlt1.finalizeWitnessPublication (ω := ω) v r) :=
  Op.Fails.bind (Op.Fails.require nofun) fun _ => Op.Fails.bind (ofLocks
    (fails_transaction fun _ => Database.throws_finalizeBody _ _)) fun _ =>
      enforceOwnerPrivateStateFiles

/-- A chunk is appended under the checks of the stream. -/
theorem appendChunk (p : StreamingPublication) (c : EncryptedChunk) (n : UInt32) :
    Op.Fails VaultError.Ordinary (p.appendChunk (ω := ω) c n) :=
  Op.Fails.bind (Op.Fails.require nofun) fun _ => Op.Fails.bind (ofLocks fails_storageFault) fun _ =>
    Op.Fails.bind (Op.Fails.ofExcept (throwsOfLocks (Database.throws_insertChunk _ _))) fun _ =>
      Op.Fails.bind (Op.Fails.ofExcept (throwsOfLocks (throws_checkedAdd32 _ _ rfl))) fun _ =>
        Op.Fails.bind (Op.Fails.ofExcept (throwsOfLocks (throws_checkedAdd64 _ _ rfl))) fun _ =>
          Op.Fails.pure _

/-- A stream is finished in its transaction, or fails at the files behind it. -/
theorem finish (p : StreamingPublication) (manifest : SealedRecord) (count : UInt32) :
    Op.Fails VaultError.Ordinary (p.finish (ω := ω) manifest count) := by
  refine Op.Fails.bind (Op.Fails.require nofun) fun _ => Op.Fails.bind (ofLocks fails_storageFault)
    fun _ => Op.Fails.bind (Op.Fails.ofExcept (throwsOfLocks ?_)) fun _ =>
      Op.Fails.bind (Op.Fails.modify _) fun _ => enforceOwnerPrivateStateFiles
  refine Throws.bind (throws_sqlOfUInt64 _) fun _ => ?_
  split
  · exact Throws.error rfl
  · exact Throws.bind (Throws.ensure rfl) fun _ => Throws.ok _

/-- A streamed chunk is counted, sealed and appended. -/
theorem streamChunk (v : VaultId) (dataKey : Block 32) (s : StreamingState) (chunk : Bytes) :
    Op.Fails VaultError.Ordinary (Vlt1.streamChunk (ω := ω) prim v dataKey s chunk) :=
  Op.Fails.bind (Op.Fails.require nofun) fun _ => Op.Fails.bind (sealChunk _ _ _ _ _ _) fun _ =>
    Op.Fails.bind (appendChunk _ _ _) fun _ =>
      Op.Fails.bind (Op.Fails.ofExcept (Throws.ite (Throws.ok _) (Throws.error nofun))) fun _ =>
        Op.Fails.bind (Op.Fails.ofExcept (Throws.ite (Throws.ok _) (Throws.error nofun))) fun _ =>
          Op.Fails.pure _

/-- Reading fails only with a storage error. -/
theorem throws_readNextChunk (capacity : ℕ) (filled : Bytes) (reader : Reader) :
    Throws VaultError.Locks (readNextChunk capacity filled reader) := by
  induction reader generalizing filled with
  | nil => exact Throws.ok _
  | cons step rest ih =>
    refine Throws.ite ?_ (Throws.ok _)
    cases step with
    | interrupted => exact ih filled
    | failed => exact Throws.error rfl
    | data bytes => exact Throws.ite (Throws.ok _) (Throws.ite (ih _) (Throws.ok _))

/-- A reader fails with I/O errors only. -/
theorem throws_chunksWithin (capacity fuel : ℕ) (reader : Reader) :
    Throws VaultError.Locks (Reader.chunksWithin capacity fuel reader).2 := by
  induction fuel generalizing reader with
  | zero => exact Throws.ok _
  | succ fuel ih =>
    unfold Reader.chunksWithin
    split
    · rename_i e hread
      exact Throws.error (throws_readNextChunk _ _ _ e hread)
    · exact Throws.ok _
    · exact ih _

/-- An upload from a reader, from its checks to its commit. -/
theorem putFromReaderInner (o : ObjectId) (reader : Reader) (chunkSize : ℕ) :
    Op.Fails VaultError.Ordinary (Vlt1.putFromReaderInner (ω := ω) prim o reader chunkSize) := by
  refine Op.Fails.bind (Op.Fails.require nofun) fun _ => Op.Fails.bind (Op.Fails.require nofun)
    fun _ => Op.Fails.bind requireRootKey fun _ => Op.Fails.bind Op.Fails.get fun _ =>
      Op.Fails.bind randomVersionId fun _ => Op.Fails.bind (interact _) fun _ =>
        Op.Fails.bind (wrapDataKey _ _ _ _ _) fun _ => Op.Fails.bind ?_ fun _ => ?_
  · exact Op.Fails.bind (ofLocks fails_storageFault) fun _ => Op.Fails.bind fails_tables fun _ =>
      Op.Fails.bind (Op.Fails.ofExcept (throwsOfLocks (Database.throws_insertVersion _))) fun _ =>
        Op.Fails.pure _
  · exact Op.Fails.bind (Op.Fails.fold (fun _ _ => streamChunk _ _ _ _) _ _) fun _ =>
      Op.Fails.bind (Op.Fails.ofExcept (throwsOfLocks
        (throws_chunksWithin chunkSize (reader.size + 1) reader))) fun _ =>
        Op.Fails.bind (sealManifest _ _ _) fun _ => Op.Fails.bind (finish _ _ _) fun _ =>
          Op.Fails.pure _

variable {provider : WitnessProvider ω}

/-- An acknowledgement fails as its witness, its checks or its transaction do. -/
theorem acknowledge
    (hissue : ∀ request e, Op.Fails VaultError.Ordinary (provider.issueReceipt request e))
    (v : StoredVersion) (e : UInt64) :
    Op.Fails VaultError.Ordinary (Vlt1.acknowledge prim provider v e) :=
  Op.Fails.bind Op.Fails.get fun _ =>
    Op.Fails.bind (Op.Fails.bind (Op.Fails.modify _) fun _ => outside (hissue _ _)) fun _ =>
      Op.Fails.bind (Op.Fails.ofExcept (throwsOfLocks (throws_verifyRequest _ _))) fun _ =>
        finalizeWitnessPublication _ _

/-- The pending publications are read by queries and checks. -/
theorem pendingWitnessPublications :
    Op.Fails VaultError.Ordinary (Vlt1.pendingWitnessPublications (ω := ω)) :=
  Op.Fails.bind (ofLocks (fails_query fun _ => Throws.ok _)) fun _ => Op.Fails.fold (fun _ _ =>
    Op.Fails.bind (ofLocks fails_storageFault) fun _ =>
      Op.Fails.bind (Op.Fails.ofExcept (throwsOfLocks (throws_sqlToUInt64 _))) fun _ =>
        Op.Fails.bind (Op.Fails.ofExcept (throwsOfLocks (throws_fromSlice _))) fun u =>
          Op.Fails.bind (query fun db => throws_selectVersion db u) fun _ => Op.Fails.pure _) _ _

/-- The verification of an object fails as its witness or its checks do. -/
theorem verifyWithWitness
    (hhead : ∀ v o c, Op.Fails VaultError.Ordinary (provider.objectHead v o c)) (o : ObjectId) :
    Op.Fails VaultError.Ordinary (Vlt1.verifyWithWitness prim provider o) := by
  refine Op.Fails.bind (activeReceipt o) fun receipt => ?_
  cases receipt with
  | none => exact Op.Fails.fail nofun
  | some receipt =>
    exact Op.Fails.bind (Op.Fails.bind (interact _) fun _ => Op.Fails.bind (Op.Fails.modify _)
      fun _ => Op.Fails.pure _) fun _ => Op.Fails.bind Op.Fails.get fun _ =>
        Op.Fails.bind (Op.Fails.bind (outside (hhead _ _ _)) fun _ =>
          Op.Fails.bind (Op.Fails.modify _) fun _ => Op.Fails.pure _) fun _ =>
            Op.Fails.bind (Op.Fails.require nofun) fun _ => getToWriterInner o .discard

end

end Ordinary

/-! ### When an operation fails closed -/

/-- After an error that calls for it, the vault is locked. -/
def FailsClosed {ω α : Type} (x : VaultOp ω α) (w : World ω) : Prop :=
  ∀ e w', x w = .failed e w' → e.MustLock → w'.vault.status = .locked

/-- A witness client reports nothing about passphrases. -/
structure WitnessProvider.Ordinary {ω : Type} (provider : WitnessProvider ω) : Prop where
  issue : ∀ request e, Op.Fails VaultError.Ordinary (provider.issueReceipt request e)
  head : ∀ v o c, Op.Fails VaultError.Ordinary (provider.objectHead v o c)

/-- Every provider over HTTPS is one. -/
theorem HttpsWitnessProvider.ordinary {ω : Type} [Transport ω] {prim : Primitives}
    (p : HttpsWitnessProvider) : (p.provider prim : WitnessProvider ω).Ordinary where
  issue request e := Ordinary.ofLocks (p.fails_issueReceipt request e)
  head v o c := Ordinary.ofLocks (p.fails_objectHead v o c)

/-- An unlocked vault stays unlocked after this call, although it fails with an error that calls for
a lock: the passphrase does not open the envelope, no key can be derived from its replacement, or
the backup fails. -/
def VaultCall.StaysOpen {ω : Type} [Machine ω] (prim : Primitives) (w : World ω) :
    VaultCall → Prop
  | .unlock passphrase =>
    passphrase ≠ [] ∧ ∃ e, openRootKey prim passphrase w.vault.envelope = .error e
  | .rotatePassphrase current replacement =>
    replacement ≠ [] ∧ (openRootKey prim current w.vault.envelope = .error .unlockFailed ∨
      ∃ rootKey, openRootKey prim current w.vault.envelope = .ok rootKey ∧
        KdfParams.interactive.validateForCreation prim = .ok () ∧
        derivePassphraseKey prim replacement (Machine.random 16 w.outside).1 .interactive =
          .error .unlockFailed)
  | .backupTo destination =>
    ∃ e : VaultError, e.MustLock ∧ (Machine.backup destination w.db w.outside).1 = .error e
  | _ => False

section

variable {ω α β : Type}

/-- A vault without a root key is locked. -/
theorem status_locked {v : Vault} (h : v.rootKey = none) : v.status = .locked := by
  simp [Vault.status, h]

/-- An operation behind the guard is locked after every error the guard names. -/
theorem failsClosed_lockAfterFailure {x : VaultOp ω α} (hx : Op.Fails VaultError.Ordinary x)
    (w : World ω) : FailsClosed (lockAfterFailure x) w := by
  intro e w' h hmust
  obtain ⟨w1, hfailed, rfl⟩ := lockAfterFailure_eq_failed.mp h
  rcases hmust with hlocks | rfl
  · rw [if_pos (show e.requiresLock = true from hlocks)]
    exact status_locked rfl
  · exact absurd rfl (hx _ _ _ hfailed)

/-- What follows a failed operation does not matter. -/
theorem FailsClosed.bind_pure {x : VaultOp ω α} {w : World ω} (h : FailsClosed x w) (f : α → β) :
    FailsClosed (do return f (← x)) w := by
  intro e w' hx hmust
  rcases Op.bind_eq_failed.mp hx with hfailed | ⟨a, w1, -, hreturn⟩
  · exact h e w' hfailed hmust
  · cases hreturn

/-- An operation that does not fail fails closed. -/
theorem failsClosed_of_not_failed {x : VaultOp ω α} {w : World ω}
    (h : ∀ e w', x w ≠ .failed e w') : FailsClosed x w :=
  fun e w' hx _ => absurd hx (h e w')

/-- How unlocking fails. -/
theorem unlock_eq_failed {prim : Primitives} {passphrase : Text} {w w' : World ω} {e : VaultError} :
    unlock prim passphrase w = .failed e w' ↔ w' = w ∧
      (passphrase = [] ∧ e = .invalidInput "passphrase must not be empty" ∨
        passphrase ≠ [] ∧ openRootKey prim passphrase w.vault.envelope = .error e) := by
  unfold unlock
  by_cases hempty : passphrase = []
  · have hvalid : validatePassphrase passphrase =
        .error (.invalidInput "passphrase must not be empty") := by
      rw [validatePassphrase, ensure, if_neg (not_not.mpr hempty)]
    rw [hvalid]
    constructor
    · intro h
      cases h
      exact ⟨rfl, .inl ⟨hempty, rfl⟩⟩
    · rintro ⟨rfl, ⟨-, rfl⟩ | ⟨hne, -⟩⟩
      · rfl
      · exact absurd hempty hne
  · have hvalid : validatePassphrase passphrase = .ok () := by
      rw [validatePassphrase, ensure, if_pos hempty]
    rw [hvalid, Op.ofExcept_ok, Op.pure_bind, Op.bind_of_ok (Op.get_apply w)]
    cases hopen : openRootKey prim passphrase w.vault.envelope with
    | error e' =>
      constructor
      · intro h
        cases h
        exact ⟨rfl, .inr ⟨hempty, rfl⟩⟩
      · rintro ⟨rfl, ⟨h, -⟩ | ⟨-, h⟩⟩
        · exact absurd h hempty
        · cases h
          rfl
    | ok rootKey =>
      constructor
      · intro h
        cases h
      · rintro ⟨-, ⟨h, -⟩ | ⟨-, h⟩⟩
        · exact absurd h hempty
        · cases h

/-- An unlock fails open exactly when an unlocked vault is given a passphrase that does not open it.
-/
theorem failsClosed_unlock {prim : Primitives} {passphrase : Text} {w : World ω} :
    FailsClosed (unlock prim passphrase) w ↔ w.vault.status = .locked ∨
      ¬(passphrase ≠ [] ∧ ∃ e, openRootKey prim passphrase w.vault.envelope = .error e) := by
  constructor
  · intro h
    refine or_iff_not_imp_right.mpr fun hopen => ?_
    obtain ⟨hne, e, he⟩ := not_not.mp hopen
    exact h e w (unlock_eq_failed.mpr ⟨rfl, .inr ⟨hne, he⟩⟩) (throws_openRootKey _ _ _ he)
  · rintro h e w' hfailed hmust
    obtain ⟨rfl, ⟨-, rfl⟩ | hopen⟩ := unlock_eq_failed.mp hfailed
    · rcases hmust with hlocks | h <;> cases ‹_›
    · exact h.resolve_right fun hnot => hnot ⟨hopen.1, e, hopen.2⟩

variable [Machine ω]

/-- A backup fails open exactly when an unlocked vault cannot be written for a reason that calls for
a lock. -/
theorem failsClosed_backupTo {destination : Text} {w : World ω} :
    FailsClosed (backupTo destination) w ↔ w.vault.status = .locked ∨
      ¬∃ e : VaultError, e.MustLock ∧ (Machine.backup destination w.db w.outside).1 = .error e := by
  have hrun : backupTo destination w = Op.ofExcept (Machine.backup destination w.db w.outside).1
      { w with outside := (Machine.backup destination w.db w.outside).2 } := rfl
  constructor
  · intro h
    refine or_iff_not_imp_right.mpr fun hbackup => ?_
    obtain ⟨e, hmust, he⟩ := not_not.mp hbackup
    refine h e { w with outside := (Machine.backup destination w.db w.outside).2 } ?_ hmust
    rw [hrun, he]
    rfl
  · intro h e w' hfailed hmust
    rw [hrun] at hfailed
    obtain ⟨he, rfl⟩ := Op.ofExcept_eq_failed.mp hfailed
    exact h.resolve_right fun hnot => hnot ⟨e, hmust, he⟩

/-- The two places where rotating a passphrase reports `unlockFailed`. -/
theorem rotatePassphrase_unlockFailed {prim : Primitives} {current replacement : Text}
    {w w' : World ω} (h : rotatePassphrase prim current replacement w = .failed .unlockFailed w') :
    w'.vault = w.vault ∧ VaultCall.StaysOpen prim w (.rotatePassphrase current replacement) := by
  rcases Op.bind_eq_failed.mp h with hcheck | ⟨_, w1, hcheck, hrest⟩
  · have herror := (Op.ofExcept_eq_failed.mp hcheck).1
    unfold validatePassphrase ensure at herror
    split at herror <;> cases herror
  obtain ⟨hvalid, rfl⟩ := Op.ofExcept_eq_ok.mp hcheck
  have hne : replacement ≠ [] := ensure_eq_ok.mp hvalid
  obtain ⟨w2, hinner, rfl⟩ := lockAfterFailure_eq_failed.mp hrest
  rw [Op.bind_of_ok (Op.get_apply w)] at hinner
  rcases Op.bind_eq_failed.mp hinner with hstep | ⟨rootKey, w3, hstep, hseal⟩
  · obtain ⟨hopen, rfl⟩ := Op.ofExcept_eq_failed.mp hstep
    exact ⟨rfl, hne, .inl hopen⟩
  obtain ⟨hopen, rfl⟩ := Op.ofExcept_eq_ok.mp hstep
  rcases Op.bind_eq_failed.mp hseal with hseal | ⟨envelope, w4, -, hstore⟩
  · -- while the new envelope is sealed, only the derivation of its key reports it
    rcases Op.bind_eq_failed.mp hseal with hcheck' | ⟨_, w5, hcheck', hsalt⟩
    · have herror := (Op.ofExcept_eq_failed.mp hcheck').1
      unfold KdfParams.validateForCreation KdfParams.validateWith at herror
      split at herror
      · cases herror
      · split at herror <;> cases herror
    obtain ⟨hparams, rfl⟩ := Op.ofExcept_eq_ok.mp hcheck'
    rcases Op.bind_eq_failed.mp hsalt with hrandom | ⟨salt, w6, hrandom, hderive⟩
    · cases hrandom
    cases hrandom
    rcases Op.bind_eq_failed.mp hderive with hstep | ⟨key, w7, -, hrecord⟩
    · obtain ⟨hkey, rfl⟩ := Op.ofExcept_eq_failed.mp hstep
      exact ⟨rfl, hne, .inr ⟨rootKey, hopen, hparams, hkey⟩⟩
    rcases Op.bind_eq_failed.mp hrecord with hrecord | ⟨_, _, -, hreturn⟩
    · exact absurd rfl (Ordinary.sealRecord _ _ _ _ _ _ hrecord)
    · cases hreturn
  · -- nor does storing it
    have hordinary : Op.Fails VaultError.Ordinary (do
        transaction fun db => db.replaceEnvelopeBody envelope
        enforceOwnerPrivateStateFiles
        Op.modify fun w : World ω => { w with vault := { envelope, rootKey := none } }) := by
      refine Op.Fails.bind (Ordinary.ofLocks (fails_transaction fun db => ?_)) fun _ =>
        Op.Fails.bind Ordinary.enforceOwnerPrivateStateFiles fun _ => Op.Fails.modify _
      unfold Database.replaceEnvelopeBody
      split
      · exact Throws.error rfl
      · exact Throws.bind (Throws.ensure rfl) fun _ => Throws.ok _
    exact absurd rfl (hordinary _ _ _ hstore)

/-- A rotation fails open exactly when an unlocked vault stays open. -/
theorem failsClosed_rotatePassphrase {prim : Primitives} {current replacement : Text}
    {w : World ω} :
    FailsClosed (rotatePassphrase prim current replacement) w ↔ w.vault.status = .locked ∨
      ¬VaultCall.StaysOpen prim w (.rotatePassphrase current replacement) := by
  constructor
  · intro h
    refine or_iff_not_imp_right.mpr fun hopen => ?_
    obtain ⟨hne, hopen⟩ := not_not.mp hopen
    have hvalid : validatePassphrase replacement = .ok () := by
      rw [validatePassphrase, ensure, if_pos hne]
    have hlast : ∃ w', w'.vault = w.vault ∧
        rotatePassphrase prim current replacement w = .failed .unlockFailed w' := by
      rw [rotatePassphrase, hvalid, Op.ofExcept_ok]
      rcases hopen with hopen | ⟨rootKey, hopen, hparams, hkey⟩
      · refine ⟨w, rfl, lockAfterFailure_eq_failed.mpr ⟨w, ?_, rfl⟩⟩
        rw [Op.bind_of_ok (Op.get_apply w), hopen]
        rfl
      · refine ⟨{ w with outside := (Machine.random 16 w.outside).2 }, rfl,
          lockAfterFailure_eq_failed.mpr ⟨_, ?_, rfl⟩⟩
        have hrandom : randomBytes 16 w = .ok (Machine.random 16 w.outside).1
            { w with outside := (Machine.random 16 w.outside).2 } := rfl
        rw [Op.bind_of_ok (Op.get_apply w), hopen, Op.ofExcept_ok, Op.pure_bind, sealRootKey,
          hparams, Op.ofExcept_ok, Op.pure_bind, Op.bind_apply, Op.bind_of_ok hrandom, hkey]
        rfl
    obtain ⟨w', hvault, hfailed⟩ := hlast
    exact hvault ▸ h _ _ hfailed (.inr rfl)
  · intro h e w' hfailed hmust
    by_cases hpassphrase : e = .unlockFailed
    · subst hpassphrase
      obtain ⟨hvault, hopen⟩ := rotatePassphrase_unlockFailed hfailed
      rw [hvault]
      exact h.resolve_right fun hnot => hnot hopen
    · -- every other error is caught by the wrapper, or is about an empty passphrase
      have hlocks : e.Locks := hmust.resolve_right hpassphrase
      rcases Op.bind_eq_failed.mp hfailed with hvalid | ⟨_, w1, -, hrest⟩
      · have herror := (Op.ofExcept_eq_failed.mp hvalid).1
        unfold validatePassphrase ensure at herror
        split at herror <;> cases herror
        cases hlocks
      · obtain ⟨w2, -, rfl⟩ := lockAfterFailure_eq_failed.mp hrest
        rw [if_pos (show e.requiresLock = true from hlocks)]
        exact status_locked rfl

variable {prim : Primitives} {provider : WitnessProvider ω}

/-- **Fail-closed lifecycle.** A call that fails with an error calling for a lock leaves the vault
locked, whatever the surroundings do, exactly when the vault was locked before or the call is not one
of the three that stay open. -/
theorem failsClosed_iff (hprovider : provider.Ordinary) (call : VaultCall) (w : World ω) :
    FailsClosed (call.run prim provider) w ↔
      w.vault.status = .locked ∨ ¬call.StaysOpen prim w := by
  -- the calls behind the wrapper
  have hwrapped {x : VaultOp ω CallResult} (hx : FailsClosed x w) (hcall : ¬call.StaysOpen prim w) :
      FailsClosed x w ↔ w.vault.status = .locked ∨ ¬call.StaysOpen prim w :=
    iff_of_true hx (.inr hcall)
  -- the calls that return a unit do not change how the operation fails
  have hunit {x : VaultOp ω Unit} :
      FailsClosed (x >>= fun _ => (pure .unit : VaultOp ω CallResult)) w ↔ FailsClosed x w := by
    refine ⟨fun h e w' hx => h e w' (Op.bind_eq_failed.mpr (.inl hx)), fun h => h.bind_pure _⟩
  cases call with
  | reopen | drop | elapse =>
    refine hwrapped (failsClosed_of_not_failed fun e w' h => ?_) id
    cases h
  | unlock passphrase => exact hunit.trans failsClosed_unlock
  | lock =>
    refine hwrapped (failsClosed_of_not_failed fun e w' h => ?_) id
    cases h
  | put o plaintext size =>
    refine hwrapped ((failsClosed_lockAfterFailure ?_ w).bind_pure _) id
    exact Op.Fails.bind (Ordinary.prepareVersion _ _ _) fun _ =>
      Op.Fails.bind (Ordinary.publish _ _) fun _ => Op.Fails.pure _
  | putFromReader o reader size =>
    exact hwrapped ((failsClosed_lockAfterFailure (Ordinary.putFromReaderInner o reader size) w)
      |>.bind_pure _) id
  | putWithWitness o plaintext =>
    refine hwrapped ((failsClosed_lockAfterFailure ?_ w).bind_pure _) id
    exact Op.Fails.bind (Ordinary.prepareVersion _ _ _) fun _ =>
      Op.Fails.bind (Ordinary.activeReceipt _) fun _ =>
        Op.Fails.bind (Ordinary.stageWitnessPublication _ _ _) fun _ =>
          Op.Fails.bind (Ordinary.acknowledge hprovider.issue _ _) fun _ => Op.Fails.pure _
  | recover =>
    refine hwrapped ((failsClosed_lockAfterFailure ?_ w).bind_pure _) id
    exact Op.Fails.bind Ordinary.requireRootKey fun _ =>
      Op.Fails.bind Ordinary.pendingWitnessPublications fun _ =>
        Op.Fails.bind (Op.Fails.fold (fun _ _ => Ordinary.acknowledge hprovider.issue _ _) _ _)
          fun _ => Ordinary.ofLocks (fails_countOf _ _)
  | get o =>
    refine hwrapped ((failsClosed_lockAfterFailure ?_ w).bind_pure _) id
    exact Op.Fails.bind (Op.Fails.modify _) fun _ =>
      Op.Fails.bind (Ordinary.getToWriterInner _ _) fun _ =>
        Op.Fails.bind Op.Fails.get fun _ => Op.Fails.pure _
  | getToWriter o =>
    refine hwrapped (fun e w' hx => ?_) id
    exact (failsClosed_lockAfterFailure (Ordinary.getToWriterInner o .stream) _).bind_pure _ e w' hx
  | verify =>
    refine hwrapped ((failsClosed_lockAfterFailure ?_ w).bind_pure _) id
    exact Op.Fails.bind Ordinary.requireRootKey fun _ =>
      Op.Fails.bind Ordinary.activeObjectIds fun _ =>
        Op.Fails.bind (Op.Fails.fold (fun _ _ => Ordinary.getToWriterInner _ _) _ _)
          fun _ => Ordinary.ofLocks (fails_countOf _ _)
  | verifyWithWitness =>
    refine hwrapped ((failsClosed_lockAfterFailure ?_ w).bind_pure _) id
    exact Op.Fails.bind Ordinary.requireRootKey fun _ =>
      Op.Fails.bind Ordinary.activeObjectIds fun _ =>
        Op.Fails.bind (Op.Fails.fold (fun _ _ => Ordinary.verifyWithWitness hprovider.head _) _ _)
          fun _ => Ordinary.ofLocks (fails_countOf _ _)
  | rotatePassphrase current replacement => exact hunit.trans failsClosed_rotatePassphrase
  | fullCheckpoint =>
    refine hwrapped (hunit.mpr (failsClosed_lockAfterFailure ?_ w)) id
    exact Op.Fails.bind Ordinary.requireRootKey fun _ =>
      Ordinary.ofLocks (fails_query fun _ => Throws.ok _)
  | backupTo destination =>
    refine ⟨fun h => failsClosed_backupTo.mp fun e w' hx => ?_, fun h =>
      (failsClosed_backupTo.mpr h).bind_pure _⟩
    exact h e w' (Op.bind_eq_failed.mpr (.inl hx))

/-- A call reports what the unlock reports. -/
theorem run_unlock_failed {passphrase : Text} {e : VaultError} {w w' : World ω}
    (h : unlock prim passphrase w = .failed e w') :
    VaultCall.run prim provider (.unlock passphrase) w = .failed e w' :=
  Op.bind_eq_failed.mpr (.inl h)

end

/-- The sample vault, unlocked, on a disk that fails. -/
def failingWorld : World SampleChannel :=
  { sampleWorld with outside :=
      { sampleWorld.outside with choices := List.replicate 40 { fault := .storage } } }

/-- Storing a byte there fails, and locks the vault. -/
theorem failsClosed_failing_put :
    failingWorld.vault.status = .unlocked ∧
      ∃ w', VaultCall.run .checksum (sampleTrust.provider .checksum) (.put (Identifier.repeated 2) [97] 1)
          failingWorld = .failed .storage w' ∧ w'.vault.status = .locked := by
  have hfailed : (VaultCall.run .checksum (sampleTrust.provider .checksum)
      (.put (Identifier.repeated 2) [97] 1) failingWorld).result = some (.error .storage) := by
    decide +kernel
  refine ⟨by decide +kernel, _, Outcome.eq_failed_of_result hfailed, ?_⟩
  exact (failsClosed_iff sampleTrust.ordinary (.put (Identifier.repeated 2) [97] 1) failingWorld).mpr
    (.inr id) _ _ (Outcome.eq_failed_of_result hfailed) (.inl rfl)

/-- A wrong passphrase is refused by the sample vault, which stays unlocked. -/
theorem unlock_refused_stays_open :
    ∃ w', VaultCall.run .checksum (sampleTrust.provider .checksum) (.unlock [113]) sampleWorld =
        .failed .unlockFailed w' ∧ w'.vault.status = .unlocked := by
  have hrefused : unlock .checksum [113] sampleWorld = .failed .unlockFailed sampleWorld :=
    unlock_eq_failed.mpr ⟨rfl, .inr ⟨by decide, by decide +kernel⟩⟩
  exact ⟨sampleWorld, run_unlock_failed hrefused, by decide +kernel⟩

end Vlt1

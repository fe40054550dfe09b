import Vlt1.World

/-!
# Lifecycle of a vault

Creating, opening, unlocking and locking a vault, the rotation of its passphrase, and the rule by
which a failed operation locks it. The reads of the storage layer that several operations share are
here as well.
-/

namespace Vlt1

open Effect

/-- Observable lifecycle state. -/
inductive VaultStatus where
  | locked
  | unlocked
deriving DecidableEq

/-- The current lifecycle state. -/
def Vault.status (v : Vault) : VaultStatus :=
  if v.rootKey.isSome then .unlocked else .locked

namespace World

variable {ω : Type}

/-- The Root Key is no longer in memory. -/
def locked (w : World ω) : World ω := { w with vault := { w.vault with rootKey := none } }

/-- The identifier of the vault in memory. -/
def vaultId (w : World ω) : VaultId := w.vault.envelope.vaultId

/-- Before anything was created. -/
def blank (outside : ω) : World ω where
  vault := { envelope := ⟨⟨Block.zero 16⟩, Block.zero 16, ⟨0, 0, 0⟩, ⟨Block.zero 12, []⟩⟩
             rootKey := none }
  db := .empty
  sink := []
  history := []
  outside := outside

end World

section

variable {ω α : Type}

/-- The Root Key, if the vault is unlocked. -/
def requireRootKey : VaultOp ω (Block 32) := do
  match (← Op.get).vault.rootKey with
  | some rootKey => return rootKey
  | none => Op.fail .locked

/-- Lock the vault if the operation failed with an error that requires it. -/
def lockAfterFailure (x : VaultOp ω α) : VaultOp ω α :=
  fun w =>
    match x w with
    | .failed e w' => .failed e (if e.requiresLock then w'.locked else w')
    | outcome => outcome

theorem lockAfterFailure_eq_ok {x : VaultOp ω α} {w w' : World ω} {a : α} :
    lockAfterFailure x w = .ok a w' ↔ x w = .ok a w' := by
  unfold lockAfterFailure
  cases x w <;> simp

/-- A failed operation has locked the vault if its error requires it. -/
theorem lockAfterFailure_eq_failed {x : VaultOp ω α} {w w' : World ω} {e : VaultError} :
    lockAfterFailure x w = .failed e w' ↔
      ∃ w1, x w = .failed e w1 ∧ w' = if e.requiresLock then w1.locked else w1 := by
  unfold lockAfterFailure
  cases x w with
  | ok a w1 => simp
  | failed e' w1 =>
    simp only [Outcome.failed.injEq]
    constructor
    · rintro ⟨rfl, rfl⟩
      exact ⟨w1, ⟨rfl, rfl⟩, rfl⟩
    · rintro ⟨w2, ⟨rfl, rfl⟩, rfl⟩
      exact ⟨rfl, rfl⟩
  | crashed w1 => simp

theorem requireRootKey_eq_ok {w w' : World ω} {k : Block 32} :
    requireRootKey w = .ok k w' ↔ w.vault.rootKey = some k ∧ w = w' := by
  rw [requireRootKey, Op.bind_of_ok (Op.get_apply w)]
  cases w.vault.rootKey with
  | none => simp
  | some rootKey => simp

/-- Reject an empty passphrase. -/
def validatePassphrase (passphrase : Text) : Except VaultError Unit :=
  ensure (passphrase ≠ []) (.invalidInput "passphrase must not be empty")

/-- Return to the locked state. -/
def lock : VaultOp ω Unit := Op.modify World.locked

/-- Unlock by decrypting the Root Key envelope. -/
def unlock (prim : Primitives) (passphrase : Text) : VaultOp ω Unit := do
  Op.ofExcept (validatePassphrase passphrase)
  let envelope := (← Op.get).vault.envelope
  let rootKey ← Op.ofExcept (openRootKey prim passphrase envelope)
  Op.modify fun w => { w with vault := { w.vault with rootKey := some rootKey } }

/-- Unlocking changes nothing when it fails, and sets the Root Key when it does not. -/
theorem unlock_cases (prim : Primitives) (passphrase : Text) (w : World ω) :
    (∃ e, unlock prim passphrase w = .failed e w) ∨
      ∃ rootKey, openRootKey prim passphrase w.vault.envelope = .ok rootKey ∧
        unlock prim passphrase w =
          .ok () { w with vault := { w.vault with rootKey := some rootKey } } := by
  unfold unlock
  cases validatePassphrase passphrase with
  | error e => exact .inl ⟨e, rfl⟩
  | ok _ =>
    rw [Op.ofExcept_ok, Op.pure_bind, Op.bind_of_ok (Op.get_apply w)]
    cases openRootKey prim passphrase w.vault.envelope with
    | error e => exact .inl ⟨e, rfl⟩
    | ok rootKey => exact .inr ⟨rootKey, rfl, rfl⟩

theorem unlock_ok {prim : Primitives} {passphrase : Text} {w w' : World ω} {u : Unit}
    (h : unlock prim passphrase w = .ok u w') :
    ∃ rootKey, openRootKey prim passphrase w.vault.envelope = .ok rootKey ∧
      w' = { w with vault := { w.vault with rootKey := some rootKey } } := by
  rcases unlock_cases prim passphrase w with ⟨e, hfailed⟩ | ⟨rootKey, hopen, hok⟩
  · rw [hfailed] at h
    cases h
  · rw [hok] at h
    cases h
    exact ⟨rootKey, hopen, rfl⟩

variable [Machine ω]

/-- Initialize a fresh vault database with a random Root Key. The path checks belong to the file
system. -/
def create (prim : Primitives) (passphrase : Text) : VaultOp ω Unit := do
  Op.ofExcept (validatePassphrase passphrase)
  let vaultId ← randomBytes 16
  let rootKey ← randomBytes 32
  let envelope ← sealRootKey prim passphrase ⟨vaultId⟩ rootKey .interactive
  transaction fun _ => Database.empty.insertEnvelope envelope
  enforceOwnerPrivateStateFiles
  Op.modify fun w => { w with vault := { envelope, rootKey := some rootKey } }

/-- Open an existing vault in the locked state. -/
def openVault (prim : Primitives) : VaultOp ω Unit := do
  enforceOwnerPrivateStateFiles
  query Database.startupIntegrityCheck
  let envelope ← query fun db => db.rootEnvelope prim
  Op.modify fun w => { w with vault := { envelope, rootKey := none } }

/-- Change the passphrase while keeping the Root Key. -/
def rotatePassphrase (prim : Primitives) (current replacement : Text) : VaultOp ω Unit := do
  Op.ofExcept (validatePassphrase replacement)
  lockAfterFailure do
    let envelope := (← Op.get).vault.envelope
    let rootKey ← Op.ofExcept (openRootKey prim current envelope)
    let newEnvelope ← sealRootKey prim replacement envelope.vaultId rootKey .interactive
    transaction fun db => db.replaceEnvelopeBody newEnvelope
    enforceOwnerPrivateStateFiles
    Op.modify fun w => { w with vault := { envelope := newEnvelope, rootKey := none } }

/-- Run a full checkpoint while the vault is unlocked; a busy or incomplete checkpoint is a
storage failure. -/
def fullCheckpoint : VaultOp ω Unit :=
  lockAfterFailure do
    let _ ← requireRootKey
    query fun _ => .ok ()

/-- Create an online backup of the encrypted database. -/
def backupTo (destination : Text) : VaultOp ω BackupManifest := do
  let db := (← Op.get).db
  Op.ofExcept (← interact (Machine.backup destination db))

/-! ### Reads of the storage layer -/

/-- Load the active version of an object. -/
def activeVersion (objectId : ObjectId) : VaultOp ω StoredVersion := do
  let versionId ← query fun db => db.selectActive objectId
  query fun db => db.selectVersion versionId

/-- The receipt bound to an active object when it has one. -/
def activeReceipt (prim : Primitives) (objectId : ObjectId) : VaultOp ω (Option WitnessReceipt) :=
  fun w =>
    match activeVersion objectId w with
    | .ok version w' => query (fun db => db.selectReceipt prim version.versionId) w'
    | .failed e w' => if e = .notFound then .ok none w' else .failed e w'
    | .crashed w' => .crashed w'

/-- Every active object identifier in byte order. -/
def activeObjectIds : VaultOp ω (List ObjectId) := do
  let keys ← query fun db => .ok db.selectObjectKeys
  Op.ofExcept (keys.mapM Identifier.fromSlice)

/-- A chunk row as an encrypted chunk. -/
def readChunkRow (row : ℤ × ChunkRow) : Except VaultError EncryptedChunk := do
  let index ← sqlToUInt32 row.1
  let nonce ← bytes12 row.2.nonce
  return { index, record := ⟨nonce, row.2.ciphertext⟩ }

/-- Visit the chunks of a version in the order of their index. -/
def visitChunks {β : Type} (versionId : VersionId) (visit : β → EncryptedChunk → VaultOp ω β)
    (init : β) : VaultOp ω β := do
  let rows ← query fun db => .ok (db.selectChunks versionId)
  Op.fold (fun b row => do
    storageFault
    let chunk ← Op.ofExcept (readChunkRow row)
    visit b chunk) init rows

end

end Vlt1

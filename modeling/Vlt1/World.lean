import Vlt1.Library.Effect
import Vlt1.Storage

/-!
# The vault process and its surroundings

A vault operation runs in a `World`: the vault in memory, its database, the writer of the current
call, and everything else, of type `ω`. What the surroundings do is not fixed. `Machine ω` answers
each interaction: whether a storage step fails or the process dies at it, what other programs do to
the database file between two statements, which bytes the random generator returns, what the file
permissions are, how much of a write goes through.

`history` is a record of the run for the theorems about it; no modelled function reads it.
-/

namespace Vlt1

open Effect

/-- A local vault: its Root Key envelope and, while unlocked, its Root Key. -/
@[ext]
structure Vault where
  envelope : RootEnvelope
  rootKey : Option (Block 32)
deriving DecidableEq

/-- What a run leaves on record. -/
inductive Event where
  /-- A random version identifier was drawn. -/
  | versionDrawn (versionId : VersionId)
  /-- A random witness challenge was drawn. -/
  | challengeDrawn (challenge : Block 32)
  /-- A plaintext was sealed. -/
  | sealed (key aad plaintext : Bytes) (record : SealedRecord)
  /-- A transaction committed, leaving these tables. -/
  | committed (db : Database)
  /-- A receipt was requested from the witness. -/
  | issueRequested (request : WitnessRequest) (expectedEpoch : UInt64)
  /-- The provider returned a head. -/
  | headObtained (head : WitnessHead)
deriving DecidableEq

/-- The vault process and its surroundings. -/
structure World (ω : Type) where
  vault : Vault
  db : Database
  /-- The bytes the writer of the current call has received. -/
  sink : Bytes
  /-- The record of the run, newest first. -/
  history : List Event
  outside : ω

/-- What happens to a storage step. A process that dies between its last commit and the return of the call is not
among these: the tables are then those of a call that returned, but the caller has no answer. -/
inductive Fault where
  | none
  /-- A statement or the commit fails and the transaction rolls back. -/
  | storage
  /-- The process dies before the step. -/
  | crash
deriving DecidableEq

/-- Integrity metadata stored beside an encrypted backup. -/
structure BackupManifest where
  format : Text
  vaultId : Text
  databaseSha256 : Text
  databaseBytes : UInt64
deriving DecidableEq

/-- How the surroundings answer each interaction of the vault process. -/
class Machine (ω : Type) where
  /-- What happens to the next storage step. -/
  fault : ω → Fault × ω
  /-- What other programs do to the tables before a statement reads them. -/
  interfere : Database → ω → Database × ω
  /-- The state files after a commit. -/
  files : ω → StateFiles × ω
  /-- `OsRng.fill_bytes`. -/
  random : (n : ℕ) → ω → Block n × ω
  /-- A write to the client: `none` if all bytes went through, otherwise how many did. -/
  write : Bytes → ω → Option ℕ × ω
  /-- `create_snapshot` of the database at a path. -/
  backup : Text → Database → ω → Except VaultError BackupManifest × ω
  /-- What happens while the process is idle. -/
  elapse : ω → ω

/-- No other program writes to the database file. -/
class Exclusive (ω : Type) [Machine ω] : Prop where
  interfere_fst : ∀ (db : Database) (o : ω), (Machine.interfere db o).1 = db

/-- A computation of the vault process. -/
abbrev VaultOp (ω α : Type) := Op VaultError (World ω) α

section

variable {ω α : Type}

/-- An interaction with the surroundings alone. -/
def interact (f : ω → α × ω) : VaultOp ω α :=
  fun w => .ok (f w.outside).1 { w with outside := (f w.outside).2 }

/-- Put an event on record. -/
def record (e : Event) : VaultOp ω Unit :=
  Op.modify fun w => { w with history := e :: w.history }

/-- Run a computation of the surroundings alone. -/
def outside (x : Op VaultError ω α) : VaultOp ω α :=
  Op.zoom World.outside (fun o w => { w with outside := o }) x

/-- The world after a transaction committed. -/
def World.committed (w : World ω) (db : Database) : World ω :=
  { w with db := db, history := .committed db :: w.history }

/-- Make a transaction's tables durable. -/
def commit (db : Database) : VaultOp ω Unit := Op.modify fun w => w.committed db

variable [Machine ω]

/-- The failure a storage step may meet. -/
def storageFault : VaultOp ω Unit := do
  match ← interact Machine.fault with
  | .none => pure ()
  | .storage => Op.fail .storage
  | .crash => fun w => .crashed w

section

variable {w : World ω}

theorem storageFault_of_none (h : (Machine.fault w.outside).1 = .none) :
    storageFault w = .ok () { w with outside := (Machine.fault w.outside).2 } := by
  unfold storageFault
  rw [Op.bind_apply, interact]
  simp only [h]
  rfl

theorem storageFault_of_storage (h : (Machine.fault w.outside).1 = .storage) :
    storageFault w = .failed .storage { w with outside := (Machine.fault w.outside).2 } := by
  unfold storageFault
  rw [Op.bind_apply, interact]
  simp only [h]
  rfl

theorem storageFault_of_crash (h : (Machine.fault w.outside).1 = .crash) :
    storageFault w = .crashed { w with outside := (Machine.fault w.outside).2 } := by
  unfold storageFault
  rw [Op.bind_apply, interact]
  simp only [h]

end

/-- The tables as the next statement finds them. -/
def tables : VaultOp ω Database :=
  fun w =>
    let (db, o) := Machine.interfere w.db w.outside
    .ok db { w with db := db, outside := o }

/-- A statement that reads the tables. -/
def query (body : Database → Except VaultError α) : VaultOp ω α := do
  storageFault
  let db ← tables
  Op.ofExcept (body db)

/-- A transaction: all of its writes commit, or none. -/
def transaction (body : Database → Except VaultError Database) : VaultOp ω Unit := do
  storageFault
  let db ← tables
  let db' ← Op.ofExcept (body db)
  commit db'

/-- The permission step after a commit. -/
def enforceOwnerPrivateStateFiles : VaultOp ω Unit := do
  let files ← interact Machine.files
  Op.ofExcept (enforceOwnerPrivateSqliteState files)

/-- Random bytes. -/
def randomBytes (n : ℕ) : VaultOp ω (Block n) := interact (Machine.random n)

/-- `VersionId::random`. -/
def randomVersionId : VaultOp ω VersionId := do
  let bytes ← randomBytes 16
  record (.versionDrawn ⟨bytes⟩)
  return ⟨bytes⟩

/-- `random_witness_challenge`. -/
def randomWitnessChallenge : VaultOp ω (Block 32) := do
  let challenge ← randomBytes 32
  record (.challengeDrawn challenge)
  return challenge

/-- Encrypt a plaintext under a fresh nonce. -/
def sealRecord (prim : Primitives) (key aad plaintext : Bytes) : VaultOp ω SealedRecord := do
  Op.require (key.length = 32) (.invariant "AES-256 key length")
  let nonce ← randomBytes 12
  match prim.encrypt key nonce aad plaintext with
  | none => Op.fail .authentication
  | some ciphertext =>
    record (.sealed key aad plaintext ⟨nonce, ciphertext⟩)
    return ⟨nonce, ciphertext⟩

/-- Create a password-protected Root Key envelope. -/
def sealRootKey (prim : Primitives) (passphrase : Text) (vaultId : VaultId) (rootKey : Block 32)
    (params : KdfParams) : VaultOp ω RootEnvelope := do
  Op.ofExcept (params.validateForCreation prim)
  let salt ← randomBytes 16
  let passphraseKey ← Op.ofExcept (derivePassphraseKey prim passphrase salt params)
  let record ← sealRecord prim passphraseKey.toList (rootAad vaultId) rootKey.toList
  return { vaultId, salt, params, record }

/-- Where `get_to_writer` writes. -/
inductive Writer where
  /-- A byte vector. -/
  | vector
  /-- `std::io::sink()`. -/
  | discard
  /-- The client's socket. -/
  | stream
deriving DecidableEq

/-- `write_all`, with its error mapped as the callers do. -/
def Writer.writeAll (writer : Writer) (part : Bytes) : VaultOp ω Unit :=
  match writer with
  | .vector => Op.modify fun w => { w with sink := w.sink ++ part }
  | .discard => pure ()
  | .stream => do
    match ← interact (Machine.write part) with
    | none => Op.modify fun w => { w with sink := w.sink ++ part }
    | some n => do
      Op.modify fun w => { w with sink := w.sink ++ part.take n }
      Op.fail .storage

end

/-! ### Witness providers -/

/-- The two calls of a freshness witness client. -/
structure WitnessProvider (ω : Type) where
  issueReceipt : WitnessRequest → UInt64 → Op VaultError ω WitnessReceipt
  objectHead : VaultId → ObjectId → Block 32 → Op VaultError ω WitnessHead

namespace WitnessProvider

variable {ω : Type} (provider : WitnessProvider ω)

/-- Obtain a receipt. -/
def issue (request : WitnessRequest) (expectedEpoch : UInt64) : VaultOp ω WitnessReceipt := do
  record (.issueRequested request expectedEpoch)
  outside (provider.issueReceipt request expectedEpoch)

/-- Obtain a head. -/
def head (vaultId : VaultId) (objectId : ObjectId) (challenge : Block 32) :
    VaultOp ω WitnessHead := do
  let head ← outside (provider.objectHead vaultId objectId challenge)
  record (.headObtained head)
  return head

end WitnessProvider

/-- What a `POST` to the witness endpoint comes back with. -/
inductive HttpReply (α : Type) where
  /-- A well-formed JSON body of admissible size. -/
  | body (a : α)
  | tooLarge
  | malformed
  /-- Status 409. -/
  | conflict
  /-- Another status, or no response. -/
  | unavailable
deriving DecidableEq

/-- The network: a reply to each `POST`, or `none` when the process dies while waiting. -/
class Transport (ω : Type) where
  postIssue : IssueWireRequest → ω → Option (HttpReply IssueWireResponse) × ω
  postHead : HeadWireRequest → ω → Option (HttpReply HeadWireResponse) × ω

/-- Run a `POST` and map its failures. -/
def post {ω α : Type} (send : ω → Option (HttpReply α) × ω) : Op VaultError ω α :=
  fun o =>
    match send o with
    | (none, o) => .crashed o
    | (some (.body a), o) => .ok a o
    | (some .tooLarge, o) => .failed (.invalidFormat "witness HTTP response too large") o
    | (some .malformed, o) => .failed (.invalidFormat "witness HTTP response") o
    | (some .conflict, o) => .failed .witnessConflict o
    | (some .unavailable, o) => .failed .witnessUnavailable o

theorem post_state {ω α : Type} (send : ω → Option (HttpReply α) × ω) (s : ω) :
    (post send s).state = (send s).2 := by
  unfold post
  split <;> simp_all

/-- The trust anchors of the pinned HTTPS client. -/
structure HttpsWitnessProvider where
  primaryPublicKey : Block 32
  previousPublicKey : Option (Block 32)
deriving DecidableEq

namespace HttpsWitnessProvider

/-- The key is the primary or the previous trust anchor. -/
def Trusts (p : HttpsWitnessProvider) (publicKey : Block 32) : Prop :=
  publicKey = p.primaryPublicKey ∨ p.previousPublicKey = some publicKey

instance (p : HttpsWitnessProvider) (publicKey : Block 32) : Decidable (p.Trusts publicKey) :=
  inferInstanceAs (Decidable (_ ∨ _))

/-- Reject every other key. -/
def checkTrustedKey (p : HttpsWitnessProvider) (publicKey : Block 32) : Except VaultError Unit :=
  ensure (p.Trusts publicKey) .witnessConflict

variable {ω : Type} [Transport ω]

/-- The provider's two calls. -/
def provider (prim : Primitives) (p : HttpsWitnessProvider) : WitnessProvider ω where
  issueReceipt request expectedEpoch := do
    let response ← post (Transport.postIssue (.fromRequest request expectedEpoch))
    let receipt ← Op.ofExcept (response.intoReceipt prim)
    Op.ofExcept (p.checkTrustedKey receipt.publicKey)
    Op.ofExcept (receipt.verifyRequest prim request)
    Op.require (expectedEpoch < receipt.witnessEpoch) .witnessConflict
    return receipt
  objectHead vaultId objectId challenge := do
    let response ← post (Transport.postHead (.fromQuery vaultId objectId challenge))
    let head ← Op.ofExcept (response.intoHead prim)
    Op.ofExcept (p.checkTrustedKey head.publicKey)
    Op.require (head.vaultId = vaultId ∧ head.objectId = objectId ∧ head.challenge = challenge)
      .witnessConflict
    return head

variable {prim : Primitives} {p : HttpsWitnessProvider} {s s' : ω}

/-- Only the query itself reaches the surroundings. -/
theorem objectHead_state (v : VaultId) (o : ObjectId) (c : Block 32) (s : ω) :
    ((p.provider prim).objectHead v o c s).state = (Transport.postHead (.fromQuery v o c) s).2 := by
  rw [← post_state]
  exact Op.Keeps.state_bind (fun _ => Op.Keeps.bind (Op.Keeps.ofExcept _) fun _ =>
    Op.Keeps.bind (Op.Keeps.ofExcept _) fun _ => Op.Keeps.bind (Op.Keeps.require _ _) fun _ =>
      Op.Keeps.pure _) s

/-- Only the request itself reaches the surroundings. -/
theorem issueReceipt_state (request : WitnessRequest) (e : UInt64) (s : ω) :
    ((p.provider prim).issueReceipt request e s).state =
      (Transport.postIssue (.fromRequest request e) s).2 := by
  rw [← post_state]
  exact Op.Keeps.state_bind (fun _ => Op.Keeps.bind (Op.Keeps.ofExcept _) fun _ =>
    Op.Keeps.bind (Op.Keeps.ofExcept _) fun _ => Op.Keeps.bind (Op.Keeps.ofExcept _) fun _ =>
      Op.Keeps.bind (Op.Keeps.require _ _) fun _ => Op.Keeps.pure _) s

theorem checkTrustedKey_eq_ok {k : Block 32} {u : Unit} :
    p.checkTrustedKey k = .ok u ↔ p.Trusts k := ensure_eq_ok

/-- A head the client accepted is signed under a trusted key and answers the query. -/
theorem objectHead_ok {v : VaultId} {o : ObjectId} {c : Block 32} {head : WitnessHead}
    (h : (p.provider prim).objectHead v o c s = .ok head s') :
    p.Trusts head.publicKey ∧
      verifySignature prim head.publicKey head.signingBytes head.signature = .ok () ∧
      head.vaultId = v ∧ head.objectId = o ∧ head.challenge = c := by
  obtain ⟨response, s1, -, h⟩ := Op.bind_eq_ok.mp h
  obtain ⟨head', s2, hinto, h⟩ := Op.bind_eq_ok.mp h
  obtain ⟨_, s3, htrust, h⟩ := Op.bind_eq_ok.mp h
  obtain ⟨_, s4, hbound, h⟩ := Op.bind_eq_ok.mp h
  obtain ⟨rfl, -⟩ : head' = head ∧ s4 = s' := by simpa using h
  obtain ⟨hinto, -⟩ := Op.ofExcept_eq_ok.mp hinto
  exact ⟨checkTrustedKey_eq_ok.mp (Op.ofExcept_eq_ok.mp htrust).1,
    (WitnessHead.new_eq_ok.mp (HeadWireResponse.new_of_intoHead hinto)).2.2.1,
    (Op.require_eq_ok.mp hbound).1⟩

/-- A receipt the client accepted is signed under a trusted key, acknowledges the request, and is
newer than expected. -/
theorem issueReceipt_ok {request : WitnessRequest} {e : UInt64} {r : WitnessReceipt}
    (h : (p.provider prim).issueReceipt request e s = .ok r s') :
    p.Trusts r.publicKey ∧ r.verifyRequest prim request = .ok () ∧ e < r.witnessEpoch := by
  obtain ⟨response, s1, -, h⟩ := Op.bind_eq_ok.mp h
  obtain ⟨r', s2, -, h⟩ := Op.bind_eq_ok.mp h
  obtain ⟨_, s3, htrust, h⟩ := Op.bind_eq_ok.mp h
  obtain ⟨_, s4, hverify, h⟩ := Op.bind_eq_ok.mp h
  obtain ⟨_, s5, hnewer, h⟩ := Op.bind_eq_ok.mp h
  obtain ⟨rfl, -⟩ : r' = r ∧ s5 = s' := by simpa using h
  exact ⟨checkTrustedKey_eq_ok.mp (Op.ofExcept_eq_ok.mp htrust).1,
    (Op.ofExcept_eq_ok.mp hverify).1, (Op.require_eq_ok.mp hnewer).1⟩

/-- A valid receipt that acknowledges the request reaches a client that trusts its signer. -/
theorem issueReceipt_of_post {request : WitnessRequest} {e : UInt64} {r : WitnessReceipt}
    (hpost : post (Transport.postIssue (.fromRequest request e)) s = .ok (.ofReceipt r) s')
    (htrust : p.Trusts r.publicKey) (hverify : r.verifyRequest prim request = .ok ())
    (hnewer : e < r.witnessEpoch) : (p.provider prim).issueReceipt request e s = .ok r s' := by
  have hvalid : r.Valid prim := (WitnessReceipt.verifyRequest_eq_ok.mp hverify).2.2.2.2
  have hchecked : p.checkTrustedKey r.publicKey = .ok () := checkTrustedKey_eq_ok.mpr htrust
  simp only [provider]
  rw [Op.bind_of_ok hpost, IssueWireResponse.intoReceipt_ofReceipt,
    WitnessReceipt.new_of_valid hvalid, Op.ofExcept_ok, Op.pure_bind, hchecked, Op.ofExcept_ok,
    Op.pure_bind, hverify, Op.ofExcept_ok, Op.pure_bind, Op.require_pos hnewer, Op.pure_bind]
  rfl

end HttpsWitnessProvider

end Vlt1

import Vlt1.Format

/-!
# Key hierarchy and authenticated transcripts

The primitives VLT/1 composes from reviewed crates are the fields of `Primitives`; nothing is
assumed about them here. On top of them the module models the key derivations, the opening of a
sealed record and of the Root Key envelope, and the byte transcripts that bind a record to its
place: the associated data of the Root Key envelope, of a wrapped DEK, of a Manifest and of a
chunk, and the digest a Manifest commits to.

The transcripts are injective in their fields (`wrappedDekAad_inj`, `manifestAad_inj`,
`chunkAad_inj`), and one kind never equals another (`manifestAad_ne_chunkAad` and its siblings).
-/

namespace Vlt1

/-- Parameters stored with an encrypted Root Key envelope. -/
@[ext]
structure KdfParams where
  /-- Argon2id memory cost in KiB. -/
  memoryKib : UInt32
  /-- Argon2id time cost. -/
  iterations : UInt32
  /-- Argon2id lane count. -/
  lanes : UInt32
deriving DecidableEq

/-- The functions of the cryptographic and encoding crates the code calls. -/
structure Primitives where
  /-- `Aes256GcmSiv::encrypt` under a key, a nonce and associated data. -/
  encrypt : Bytes → Block 12 → Bytes → Bytes → Option Bytes
  /-- `Aes256GcmSiv::decrypt`. -/
  decrypt : Bytes → Block 12 → Bytes → Bytes → Option Bytes
  /-- SHA-256. -/
  sha256 : Bytes → Block 32
  /-- HKDF-SHA-256 with a salt, input key material and a label. -/
  hkdf : Bytes → Bytes → Bytes → Option (Block 32)
  /-- Whether `argon2::Params::new` accepts the parameters. -/
  argon2Params : KdfParams → Bool
  /-- Argon2id of a passphrase under a salt. -/
  argon2id : KdfParams → Bytes → Block 16 → Option (Block 32)
  /-- The Ed25519 verification key of a signing seed. -/
  verifyingKey : Block 32 → Block 32
  /-- The Ed25519 signature of a message under a signing seed. -/
  sign : Block 32 → Bytes → Block 64
  /-- Whether `VerifyingKey::from_bytes` accepts a key. -/
  validKey : Block 32 → Bool
  /-- Whether a signature verifies for a key and a message. -/
  verify : Block 32 → Bytes → Block 64 → Bool
  /-- Standard base64. -/
  base64Encode : Bytes → Text
  /-- Standard base64, strictly decoded. -/
  base64Decode : Text → Option Bytes

/-- Metadata and ciphertext required to unwrap the random Root Key. -/
@[ext]
structure RootEnvelope where
  /-- The vault identifier bound into the envelope's associated data. -/
  vaultId : VaultId
  /-- Argon2id salt. -/
  salt : Block 16
  params : KdfParams
  /-- Nonce and encrypted Root Key. -/
  record : SealedRecord
deriving DecidableEq

/-! ### Key-derivation parameters -/

/-- Maximum accepted persisted Argon2id memory cost in KiB. -/
def maxArgon2MemoryKib : UInt32 := 256 * 1024

/-- Maximum accepted persisted Argon2id time cost. -/
def maxArgon2Iterations : UInt32 := 10

/-- Maximum accepted persisted Argon2id lane count. -/
def maxArgon2Lanes : UInt32 := 8

namespace KdfParams

/-- The interactive password profile. -/
def interactive : KdfParams := { memoryKib := 65536, iterations := 3, lanes := 4 }

/-- The bounded resource policy. -/
def withinResourcePolicy (p : KdfParams) : Bool :=
  p.memoryKib ≤ maxArgon2MemoryKib && p.iterations ≤ maxArgon2Iterations &&
    p.lanes ≤ maxArgon2Lanes

/-- The two checks of a parameter set, reported through `error`. -/
def validateWith (prim : Primitives) (error : String → VaultError) (p : KdfParams) :
    Except VaultError Unit :=
  if !p.withinResourcePolicy then .error (error "Argon2id KDF parameter policy")
  else if !prim.argon2Params p then .error (error "invalid Argon2id parameters")
  else .ok ()

/-- Validate caller-supplied parameters before creating an envelope. -/
def validateForCreation (prim : Primitives) (p : KdfParams) : Except VaultError Unit :=
  p.validateWith prim .invalidInput

/-- Validate parameters loaded from an existing envelope. -/
def validatePersisted (prim : Primitives) (p : KdfParams) : Except VaultError Unit :=
  p.validateWith prim .invalidFormat

end KdfParams

section Keys

variable (prim : Primitives)

/-- HKDF under a salt and a label. -/
def deriveDomainKey (root : Block 32) (salt label : Bytes) : Except VaultError (Block 32) :=
  match prim.hkdf salt root.toList label with
  | some key => .ok key
  | none => .error (.invariant "HKDF expansion")

/-- The label `VLT1/KEK`. -/
def kekLabel : Bytes := [86, 76, 84, 49, 47, 75, 69, 75]

/-- The label `VLT1/MANIFEST`. -/
def manifestKeyLabel : Bytes := [86, 76, 84, 49, 47, 77, 65, 78, 73, 70, 69, 83, 84]

/-- The per-vault key-encryption key. -/
def deriveKek (rootKey : Block 32) (vaultId : VaultId) : Except VaultError (Block 32) :=
  deriveDomainKey prim rootKey vaultId.blob kekLabel

/-- The Manifest key of a version DEK. -/
def deriveManifestKey (dek : Block 32) (versionId : VersionId) : Except VaultError (Block 32) :=
  deriveDomainKey prim dek versionId.blob manifestKeyLabel

/-- The key a passphrase and a salt derive. -/
def derivePassphraseKey (passphrase : Text) (salt : Block 16) (params : KdfParams) :
    Except VaultError (Block 32) := do
  params.validatePersisted prim
  if !prim.argon2Params params then throw (.invalidFormat "invalid Argon2id parameters")
  match prim.argon2id params passphrase salt with
  | some key => return key
  | none => throw .unlockFailed

/-- Decrypt a record after authenticating its associated data. -/
def openRecord (key aad : Bytes) (record : SealedRecord) : Except VaultError Bytes :=
  if key.length ≠ 32 then .error (.invariant "AES-256 key length")
  else
    match prim.decrypt key record.nonce aad record.ciphertext with
    | some plaintext => .ok plaintext
    | none => .error .authentication

end Keys

/-! ### Associated data -/

/-- `VLT1/ROOT` and a zero byte. -/
def rootLabel : Bytes := [86, 76, 84, 49, 47, 82, 79, 79, 84, 0]

/-- `VLT1/WRAPPED-DEK` and a zero byte. -/
def wrappedDekLabel : Bytes :=
  [86, 76, 84, 49, 47, 87, 82, 65, 80, 80, 69, 68, 45, 68, 69, 75, 0]

/-- `VLT1/MANIFEST` and a zero byte. -/
def manifestLabel : Bytes := [86, 76, 84, 49, 47, 77, 65, 78, 73, 70, 69, 83, 84, 0]

/-- `VLT1/CHUNK` and a zero byte. -/
def chunkLabel : Bytes := [86, 76, 84, 49, 47, 67, 72, 85, 78, 75, 0]

/-- `VLT1/CHUNK-DIGEST` and a zero byte. -/
def chunkDigestLabel : Bytes :=
  [86, 76, 84, 49, 47, 67, 72, 85, 78, 75, 45, 68, 73, 71, 69, 83, 84, 0]

/-- Associated data of the Root Key envelope. -/
def rootAad (vaultId : VaultId) : Bytes := rootLabel ++ vaultId.blob

/-- Associated data of a DEK wrapped under the per-vault KEK. -/
def wrappedDekAad (vaultId : VaultId) (objectId : ObjectId) (versionId : VersionId) : Bytes :=
  wrappedDekLabel ++ (vaultId.blob ++ (objectId.blob ++ versionId.blob))

/-- Associated data of a sealed version Manifest. -/
def manifestAad (vaultId : VaultId) (objectId : ObjectId) (versionId : VersionId) : Bytes :=
  manifestLabel ++ (vaultId.blob ++ (objectId.blob ++ versionId.blob))

/-- Associated data of an encrypted object chunk. -/
def chunkAad (vaultId : VaultId) (objectId : ObjectId) (versionId : VersionId)
    (chunkIndex plaintextLen : UInt32) : Bytes :=
  chunkLabel ++ (vaultId.blob ++ (objectId.blob ++ (versionId.blob ++
    (Bytes.be32 chunkIndex ++ Bytes.be32 plaintextLen))))

private theorem idBlobs_inj {v v' : VaultId} {o o' : ObjectId} {u u' : VersionId} {s t : Bytes}
    (h : v.blob ++ (o.blob ++ (u.blob ++ s)) = v'.blob ++ (o'.blob ++ (u'.blob ++ t))) :
    v = v' ∧ o = o' ∧ u = u' ∧ s = t := by
  obtain ⟨hv, h⟩ := Bytes.append_field_inj (by simp) h
  obtain ⟨ho, h⟩ := Bytes.append_field_inj (by simp) h
  obtain ⟨hu, h⟩ := Bytes.append_field_inj (by simp) h
  exact ⟨Identifier.blob_inj.mp hv, Identifier.blob_inj.mp ho, Identifier.blob_inj.mp hu, h⟩

/-- The associated data of a manifest determines its vault, object and version. -/
theorem manifestAad_inj {v v' : VaultId} {o o' : ObjectId} {u u' : VersionId}
    (h : manifestAad v o u = manifestAad v' o' u') : v = v' ∧ o = o' ∧ u = u' := by
  have h' := List.append_cancel_left h
  obtain ⟨hv, ho, hu, -⟩ := idBlobs_inj (s := []) (t := []) (by simpa using h')
  exact ⟨hv, ho, hu⟩

/-- The associated data of a wrapped key determines its vault, object and version. -/
theorem wrappedDekAad_inj {v v' : VaultId} {o o' : ObjectId} {u u' : VersionId}
    (h : wrappedDekAad v o u = wrappedDekAad v' o' u') : v = v' ∧ o = o' ∧ u = u' := by
  have h' := List.append_cancel_left h
  obtain ⟨hv, ho, hu, -⟩ := idBlobs_inj (s := []) (t := []) (by simpa using h')
  exact ⟨hv, ho, hu⟩

/-- The associated data of a chunk determines its place and its length as well. -/
theorem chunkAad_inj {v v' : VaultId} {o o' : ObjectId} {u u' : VersionId}
    {i i' n n' : UInt32} (h : chunkAad v o u i n = chunkAad v' o' u' i' n') :
    v = v' ∧ o = o' ∧ u = u' ∧ i = i' ∧ n = n' := by
  obtain ⟨hv, ho, hu, h⟩ := idBlobs_inj (List.append_cancel_left h)
  obtain ⟨hi, hn⟩ := Bytes.append_field_inj (by simp) h
  exact ⟨hv, ho, hu, Bytes.be32_inj hi, Bytes.be32_inj hn⟩

/-- The associated data of an envelope determines its vault. -/
theorem rootAad_inj {v v' : VaultId} (h : rootAad v = rootAad v') : v = v' :=
  Identifier.blob_inj.mp (List.append_cancel_left h)

-- The labels already differ at their sixth byte: `R`, `W`, `M` and `C`.

theorem manifestAad_ne_chunkAad (v v' : VaultId) (o o' : ObjectId) (u u' : VersionId)
    (i n : UInt32) : manifestAad v o u ≠ chunkAad v' o' u' i n :=
  Bytes.ne_of_label 5 (by decide) (by decide) (by decide)

theorem manifestAad_ne_wrappedDekAad (v v' : VaultId) (o o' : ObjectId) (u u' : VersionId) :
    manifestAad v o u ≠ wrappedDekAad v' o' u' :=
  Bytes.ne_of_label 5 (by decide) (by decide) (by decide)

theorem manifestAad_ne_rootAad (v v' : VaultId) (o : ObjectId) (u : VersionId) :
    manifestAad v o u ≠ rootAad v' :=
  Bytes.ne_of_label 5 (by decide) (by decide) (by decide)

theorem chunkAad_ne_wrappedDekAad (v v' : VaultId) (o o' : ObjectId) (u u' : VersionId)
    (i n : UInt32) : chunkAad v o u i n ≠ wrappedDekAad v' o' u' :=
  Bytes.ne_of_label 5 (by decide) (by decide) (by decide)

theorem chunkAad_ne_rootAad (v v' : VaultId) (o : ObjectId) (u : VersionId) (i n : UInt32) :
    chunkAad v o u i n ≠ rootAad v' :=
  Bytes.ne_of_label 5 (by decide) (by decide) (by decide)

/-! ### The chunk digest -/

/-- The bytes a running chunk digest has hashed. -/
structure ChunkDigestBuilder where
  hashed : Bytes

namespace ChunkDigestBuilder

/-- Start a digest in the encrypted-chunk domain. -/
def new : ChunkDigestBuilder := ⟨chunkDigestLabel⟩

/-- Add one canonical encrypted chunk record. -/
def update (d : ChunkDigestBuilder) (index : UInt32) (record : SealedRecord) :
    ChunkDigestBuilder :=
  ⟨d.hashed ++ Bytes.be32 index ++ record.nonce.toList ++
    Bytes.be64 (UInt64.ofNat record.ciphertext.length) ++ record.ciphertext⟩

/-- The final 256-bit digest. -/
def finalize (prim : Primitives) (d : ChunkDigestBuilder) : Block 32 := prim.sha256 d.hashed

end ChunkDigestBuilder

/-! ### The Root Key envelope -/

/-- Decrypt a Root Key envelope after deriving the passphrase key. -/
def openRootKey (prim : Primitives) (passphrase : Text) (envelope : RootEnvelope) :
    Except VaultError (Block 32) := do
  let passphraseKey ← derivePassphraseKey prim passphrase envelope.salt envelope.params
  match openRecord prim passphraseKey.toList (rootAad envelope.vaultId) envelope.record with
  | .error _ => throw .unlockFailed
  | .ok plaintext =>
    match Block.ofBytes? 32 plaintext with
    | some rootKey => return rootKey
    | none => throw .unlockFailed

end Vlt1

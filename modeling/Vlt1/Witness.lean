import Vlt1.Crypto
import Vlt1.Library.Effect

/-!
# Freshness receipts and witness heads

A receipt acknowledges one immutable version under a witness epoch. A head is the witness's
current acknowledgement of one object, signed together with a challenge of the caller. Both are
Ed25519-signed over fixed byte layouts and travel as JSON objects whose fixed-width fields are
lowercase hexadecimal text.

`IssueWireResponse.intoReceipt_ofReceipt` and `HeadWireResponse.intoHead_ofHead` say that the
client reads back what the witness encoded, and `headSigningBytes_inj` that a signed head
determines its fields.
-/

namespace Vlt1

/-- `VLT/1 witness commitment v1`. -/
def commitmentDomain : Bytes :=
  [86, 76, 84, 47, 49, 32, 119, 105, 116, 110, 101, 115, 115, 32, 99, 111, 109, 109, 105, 116,
    109, 101, 110, 116, 32, 118, 49]

/-- `VLT/1 witness receipt v1`. -/
def receiptDomain : Bytes :=
  [86, 76, 84, 47, 49, 32, 119, 105, 116, 110, 101, 115, 115, 32, 114, 101, 99, 101, 105, 112,
    116, 32, 118, 49]

/-- `VLT/1 witness head v1`. -/
def headDomain : Bytes :=
  [86, 76, 84, 47, 49, 32, 119, 105, 116, 110, 101, 115, 115, 32, 104, 101, 97, 100, 32, 118, 49]

/-- A request for a witness to acknowledge one immutable version. -/
@[ext]
structure WitnessRequest where
  vaultId : VaultId
  objectId : ObjectId
  versionId : VersionId
  /-- The 256-bit encrypted-version commitment. -/
  commitment : Block 32
deriving DecidableEq

/-- A signed acknowledgement of an immutable version. -/
@[ext]
structure WitnessReceipt where
  vaultId : VaultId
  objectId : ObjectId
  versionId : VersionId
  witnessEpoch : UInt64
  commitment : Block 32
  publicKey : Block 32
  signature : Block 64
deriving DecidableEq

/-- A challenge-bound signed view of one witness object head. -/
@[ext]
structure WitnessHead where
  vaultId : VaultId
  objectId : ObjectId
  present : Bool
  versionId : Option VersionId
  witnessEpoch : UInt64
  commitment : Option (Block 32)
  challenge : Block 32
  publicKey : Block 32
  signature : Block 64
deriving DecidableEq

/-! ### Signed and hashed byte layouts -/

/-- The bytes `version_commitment` hashes. -/
def commitmentPreimage (vaultId : VaultId) (objectId : ObjectId) (versionId : VersionId)
    (manifest : SealedRecord) : Bytes :=
  commitmentDomain ++ (vaultId.blob ++ (objectId.blob ++ (versionId.blob ++
    (manifest.nonce.toList ++
      (Bytes.toBe 8 (min manifest.ciphertext.length (2 ^ 64 - 1)) ++ manifest.ciphertext)))))

/-- The commitment of a version: a digest of its sealed Manifest and its identifiers. -/
def versionCommitment (prim : Primitives) (vaultId : VaultId) (objectId : ObjectId)
    (versionId : VersionId) (manifest : SealedRecord) : Block 32 :=
  prim.sha256 (commitmentPreimage vaultId objectId versionId manifest)

/-- The canonical bytes of a receipt. -/
def receiptSigningBytes (vaultId : VaultId) (objectId : ObjectId) (versionId : VersionId)
    (witnessEpoch : UInt64) (commitment : Block 32) : Bytes :=
  receiptDomain ++ (vaultId.blob ++ (objectId.blob ++ (versionId.blob ++
    (Bytes.be64 witnessEpoch ++ commitment.toList))))

/-- The canonical bytes of a head; absent fields are zeros. -/
def headSigningBytes (vaultId : VaultId) (objectId : ObjectId) (present : Bool)
    (versionId : Option VersionId) (witnessEpoch : UInt64) (commitment : Option (Block 32))
    (challenge : Block 32) : Bytes :=
  let version := versionId.elim (Block.zero 16) Identifier.asBytes
  let commitment := commitment.getD (Block.zero 32)
  headDomain ++ (vaultId.blob ++ (objectId.blob ++ ((if present then 1 else 0) ::
    (version.toList ++ (Bytes.be64 witnessEpoch ++ (commitment.toList ++ challenge.toList))))))

section

variable (prim : Primitives)

/-- Verify an Ed25519 signature. -/
def verifySignature (publicKey : Block 32) (message : Bytes) (signature : Block 64) :
    Except VaultError Unit :=
  if !prim.validKey publicKey then .error (.invalidFormat "witness public key")
  else if prim.verify publicKey message signature then .ok ()
  else .error .authentication

/-- A request with the commitment bound to encrypted Manifest data. -/
def WitnessRequest.new (vaultId : VaultId) (objectId : ObjectId) (versionId : VersionId)
    (manifest : SealedRecord) : WitnessRequest where
  vaultId := vaultId
  objectId := objectId
  versionId := versionId
  commitment := versionCommitment prim vaultId objectId versionId manifest

namespace WitnessReceipt

/-- The bytes a receipt's signature covers. -/
def signingBytes (r : WitnessReceipt) : Bytes :=
  receiptSigningBytes r.vaultId r.objectId r.versionId r.witnessEpoch r.commitment

/-- Verify a receipt's signature. -/
def verifySignature (r : WitnessReceipt) : Except VaultError Unit :=
  Vlt1.verifySignature prim r.publicKey r.signingBytes r.signature

/-- Admit a receipt after verifying its signature. -/
def new (r : WitnessReceipt) : Except VaultError WitnessReceipt := do
  r.verifySignature prim
  return r

/-- Sign a receipt for a request. -/
def issue (request : WitnessRequest) (witnessEpoch : UInt64) (signingKey : Block 32) :
    WitnessReceipt where
  vaultId := request.vaultId
  objectId := request.objectId
  versionId := request.versionId
  witnessEpoch := witnessEpoch
  commitment := request.commitment
  publicKey := prim.verifyingKey signingKey
  signature := prim.sign signingKey (receiptSigningBytes request.vaultId request.objectId
    request.versionId witnessEpoch request.commitment)

/-- Verify that a receipt acknowledges exactly a request. -/
def verifyRequest (r : WitnessReceipt) (request : WitnessRequest) : Except VaultError Unit :=
  if r.vaultId ≠ request.vaultId ∨ r.objectId ≠ request.objectId ∨
      r.versionId ≠ request.versionId ∨ r.commitment ≠ request.commitment then
    .error (.invariant "witness receipt binding")
  else r.verifySignature prim

end WitnessReceipt

namespace WitnessHead

/-- The bytes a head's signature covers. -/
def signingBytes (h : WitnessHead) : Bytes :=
  headSigningBytes h.vaultId h.objectId h.present h.versionId h.witnessEpoch h.commitment
    h.challenge

/-- Admit a head after checking its presence fields and its signature. -/
def new (h : WitnessHead) : Except VaultError WitnessHead :=
  if h.present ≠ (h.versionId.isSome && h.commitment.isSome) then
    .error (.invalidFormat "witness head presence fields")
  else if h.present = false ∧ h.witnessEpoch ≠ 0 then
    .error (.invalidFormat "absent witness head epoch")
  else do
    verifySignature prim h.publicKey h.signingBytes h.signature
    return h

/-- Sign a head for the caller's challenge. -/
def issue (vaultId : VaultId) (objectId : ObjectId) (receipt : Option WitnessReceipt)
    (challenge signingKey : Block 32) : WitnessHead :=
  let present := receipt.isSome
  let versionId := receipt.map WitnessReceipt.versionId
  let witnessEpoch := receipt.elim 0 WitnessReceipt.witnessEpoch
  let commitment := receipt.map WitnessReceipt.commitment
  { vaultId, objectId, present, versionId, witnessEpoch, commitment, challenge
    publicKey := prim.verifyingKey signingKey
    signature := prim.sign signingKey
      (headSigningBytes vaultId objectId present versionId witnessEpoch commitment challenge) }

end WitnessHead

end

/-! ### Wire messages -/

/-- The JSON body of an issue request. -/
@[ext]
structure IssueWireRequest where
  vaultId : Text
  objectId : Text
  versionId : Text
  commitment : Text
  expectedEpoch : UInt64
deriving DecidableEq

/-- The JSON body of an issue response. -/
@[ext]
structure IssueWireResponse where
  vaultId : Text
  objectId : Text
  versionId : Text
  witnessEpoch : UInt64
  commitment : Text
  publicKey : Text
  signature : Text
deriving DecidableEq

/-- The JSON body of a head request. -/
@[ext]
structure HeadWireRequest where
  vaultId : Text
  objectId : Text
  challenge : Text
deriving DecidableEq

/-- The JSON body of a head response. -/
@[ext]
structure HeadWireResponse where
  vaultId : Text
  objectId : Text
  present : Bool
  versionId : Option Text
  witnessEpoch : UInt64
  commitment : Option Text
  challenge : Text
  publicKey : Text
  signature : Text
deriving DecidableEq

/-- The client's parser of an identifier; the message names the field. -/
def parseIdentifier {kind : IdKind} (value : Text) (error : String) :
    Except VaultError (Identifier kind) := do
  let bytes ← parseFixed 16 value error
  Identifier.fromSlice bytes.toList

/-- `parse_vault_id`. -/
def parseVaultId (value : Text) : Except VaultError VaultId :=
  parseIdentifier value "witness vault ID"

/-- `parse_object_id`. -/
def parseObjectId (value : Text) : Except VaultError ObjectId :=
  parseIdentifier value "witness object ID"

/-- `parse_version_id`. -/
def parseVersionId (value : Text) : Except VaultError VersionId :=
  parseIdentifier value "witness version ID"

/-- The wire form of a request. -/
def IssueWireRequest.fromRequest (request : WitnessRequest) (expectedEpoch : UInt64) :
    IssueWireRequest where
  vaultId := request.vaultId.toHex
  objectId := request.objectId.toHex
  versionId := request.versionId.toHex
  commitment := hexEncode request.commitment.toList
  expectedEpoch := expectedEpoch

/-- The wire form of a head query. -/
def HeadWireRequest.fromQuery (vaultId : VaultId) (objectId : ObjectId) (challenge : Block 32) :
    HeadWireRequest where
  vaultId := vaultId.toHex
  objectId := objectId.toHex
  challenge := hexEncode challenge.toList

/-- The witness's encoding of a receipt. -/
def IssueWireResponse.ofReceipt (r : WitnessReceipt) : IssueWireResponse where
  vaultId := r.vaultId.toHex
  objectId := r.objectId.toHex
  versionId := r.versionId.toHex
  witnessEpoch := r.witnessEpoch
  commitment := hexEncode r.commitment.toList
  publicKey := hexEncode r.publicKey.toList
  signature := hexEncode r.signature.toList

/-- The witness's encoding of a head. -/
def HeadWireResponse.ofHead (h : WitnessHead) : HeadWireResponse where
  vaultId := h.vaultId.toHex
  objectId := h.objectId.toHex
  present := h.present
  versionId := h.versionId.map Identifier.toHex
  witnessEpoch := h.witnessEpoch
  commitment := h.commitment.map fun c => hexEncode c.toList
  challenge := hexEncode h.challenge.toList
  publicKey := hexEncode h.publicKey.toList
  signature := hexEncode h.signature.toList

/-- `Option::map(..).transpose()`. -/
def transposeMap {α β : Type} (f : α → Except VaultError β) :
    Option α → Except VaultError (Option β)
  | none => .ok none
  | some a => (f a).map some

section

variable (prim : Primitives)

/-- The client's reading of an issue response. -/
def IssueWireResponse.intoReceipt (r : IssueWireResponse) : Except VaultError WitnessReceipt := do
  let vaultId ← parseVaultId r.vaultId
  let objectId ← parseObjectId r.objectId
  let versionId ← parseVersionId r.versionId
  let commitment ← parseFixed 32 r.commitment "witness commitment"
  let publicKey ← parseFixed 32 r.publicKey "witness public key"
  let signature ← parseFixed 64 r.signature "witness signature"
  WitnessReceipt.new prim
    { vaultId, objectId, versionId, witnessEpoch := r.witnessEpoch, commitment, publicKey,
      signature }

/-- The client's reading of a head response. -/
def HeadWireResponse.intoHead (r : HeadWireResponse) : Except VaultError WitnessHead := do
  let versionId ← transposeMap parseVersionId r.versionId
  let commitment ← transposeMap (fun c => parseFixed 32 c "witness head commitment") r.commitment
  let vaultId ← parseVaultId r.vaultId
  let objectId ← parseObjectId r.objectId
  let challenge ← parseFixed 32 r.challenge "witness head challenge"
  let publicKey ← parseFixed 32 r.publicKey "witness public key"
  let signature ← parseFixed 64 r.signature "witness head signature"
  WitnessHead.new prim
    { vaultId, objectId, present := r.present, versionId, witnessEpoch := r.witnessEpoch,
      commitment, challenge, publicKey, signature }

end

/-! ### Accepted receipts and heads -/

section

variable {prim : Primitives}

theorem verifySignature_eq_ok {publicKey : Block 32} {message : Bytes} {signature : Block 64} :
    verifySignature prim publicKey message signature = .ok () ↔
      prim.validKey publicKey = true ∧ prim.verify publicKey message signature = true := by
  unfold verifySignature
  split
  · simp_all
  · split <;> simp_all

/-- The signature of a receipt verifies. -/
def WitnessReceipt.Valid (prim : Primitives) (r : WitnessReceipt) : Prop :=
  r.verifySignature prim = .ok ()

instance (r : WitnessReceipt) : Decidable (r.Valid prim) :=
  match h : r.verifySignature prim with
  | .ok () => isTrue h
  | .error e => isFalse fun hv => by rw [WitnessReceipt.Valid, h] at hv; cases hv

theorem WitnessReceipt.new_eq_ok {r r' : WitnessReceipt} :
    WitnessReceipt.new prim r = .ok r' ↔ r.Valid prim ∧ r' = r := by
  unfold WitnessReceipt.new WitnessReceipt.Valid
  cases r.verifySignature prim with
  | error e => simp [bind, Except.bind]
  | ok u => simp [bind, Except.bind, pure, Except.pure, eq_comm]

theorem WitnessReceipt.new_of_valid {r : WitnessReceipt} (h : r.Valid prim) :
    WitnessReceipt.new prim r = .ok r :=
  WitnessReceipt.new_eq_ok.mpr ⟨h, rfl⟩

/-- A receipt acknowledges a request exactly when the bound fields agree and the signature
verifies. -/
theorem WitnessReceipt.verifyRequest_eq_ok {r : WitnessReceipt} {request : WitnessRequest} :
    r.verifyRequest prim request = .ok () ↔
      r.vaultId = request.vaultId ∧ r.objectId = request.objectId ∧
        r.versionId = request.versionId ∧ r.commitment = request.commitment ∧ r.Valid prim := by
  unfold WitnessReceipt.verifyRequest WitnessReceipt.Valid
  split
  · rename_i h
    constructor
    · intro hok; cases hok
    · rintro ⟨hv, ho, hu, hc, -⟩
      simp [hv, ho, hu, hc] at h
  · rename_i h
    simp only [not_or, ne_eq, not_not] at h
    simp [h]

/-- What an accepted head satisfies. -/
theorem WitnessHead.new_eq_ok {h h' : WitnessHead} :
    WitnessHead.new prim h = .ok h' ↔
      h.present = (h.versionId.isSome && h.commitment.isSome) ∧
        (h.present = false → h.witnessEpoch = 0) ∧
        verifySignature prim h.publicKey h.signingBytes h.signature = .ok () ∧ h' = h := by
  unfold WitnessHead.new
  split
  · simp_all
  · split
    · simp_all
    · rename_i hpresent hepoch
      cases verifySignature prim h.publicKey h.signingBytes h.signature with
      | error e => simp [bind, Except.bind]
      | ok u =>
        simp only [bind, Except.bind, pure, Except.pure, true_and, Except.ok.injEq]
        simp only [ne_eq, not_not] at hpresent
        constructor
        · rintro rfl
          exact ⟨hpresent, fun hp => by_contra fun he => hepoch ⟨hp, he⟩, rfl⟩
        · rintro ⟨-, -, rfl⟩
          rfl

/-! ### Reading back the witness's encoding -/

@[simp] theorem parseIdentifier_toHex {kind : IdKind} (i : Identifier kind) (error : String) :
    parseIdentifier i.toHex error = .ok i := by
  simp only [parseIdentifier, Identifier.toHex, Identifier.blob, parseFixed_hexEncode, bind,
    Except.bind]
  exact Identifier.fromSlice_blob i

/-- A head the client read passed the admission check. -/
theorem HeadWireResponse.new_of_intoHead {r : HeadWireResponse} {h : WitnessHead}
    (hr : r.intoHead prim = .ok h) : WitnessHead.new prim h = .ok h := by
  simp only [HeadWireResponse.intoHead, Effect.except_bind_eq_ok] at hr
  obtain ⟨_, -, _, -, _, -, _, -, _, -, _, -, _, -, hnew⟩ := hr
  obtain ⟨-, -, -, rfl⟩ := WitnessHead.new_eq_ok.mp hnew
  exact hnew

/-- The client reads back the witness's encoding of a receipt, and then checks its signature. -/
theorem IssueWireResponse.intoReceipt_ofReceipt (r : WitnessReceipt) :
    (IssueWireResponse.ofReceipt r).intoReceipt prim = WitnessReceipt.new prim r := by
  simp [IssueWireResponse.ofReceipt, IssueWireResponse.intoReceipt, parseVaultId, parseObjectId,
    parseVersionId, bind, Except.bind]

/-- The client reads back the witness's encoding of a head, and then checks it. -/
theorem HeadWireResponse.intoHead_ofHead (h : WitnessHead) :
    (HeadWireResponse.ofHead h).intoHead prim = WitnessHead.new prim h := by
  have hversion : transposeMap parseVersionId (h.versionId.map Identifier.toHex) =
      .ok h.versionId := by
    cases h.versionId <;> simp [transposeMap, parseVersionId, Except.map]
  have hcommitment : transposeMap (fun c => parseFixed 32 c "witness head commitment")
      (h.commitment.map fun c => hexEncode c.toList) = .ok h.commitment := by
    cases h.commitment <;> simp [transposeMap, Except.map]
  simp [HeadWireResponse.ofHead, HeadWireResponse.intoHead, hversion, hcommitment, parseVaultId,
    parseObjectId, bind, Except.bind]

end

/-- The fields two heads with the same signed bytes agree on. An optional field that is missing is
written as zeros, so only what was written is known of it. -/
theorem headSigningBytes_fields {v v' : VaultId} {o o' : ObjectId} {p p' : Bool}
    {u u' : Option VersionId} {e e' : UInt64} {c c' : Option (Block 32)} {ch ch' : Block 32}
    (h : headSigningBytes v o p u e c ch = headSigningBytes v' o' p' u' e' c' ch') :
    v = v' ∧ o = o' ∧ p = p' ∧
      u.elim (Block.zero 16) Identifier.asBytes = u'.elim (Block.zero 16) Identifier.asBytes ∧
      e = e' ∧ c.getD (Block.zero 32) = c'.getD (Block.zero 32) ∧ ch = ch' := by
  obtain ⟨hv, h⟩ := Bytes.append_field_inj (by simp) (List.append_cancel_left h)
  obtain ⟨ho, h⟩ := Bytes.append_field_inj (by simp) h
  obtain ⟨hflag, h⟩ := List.cons.inj h
  obtain ⟨hu, h⟩ := Bytes.append_block_inj h
  obtain ⟨he, h⟩ := Bytes.append_field_inj (by simp) h
  obtain ⟨hc, hch⟩ := Bytes.append_block_inj h
  have hp : p = p' := by
    cases p <;> cases p' <;> simp_all
  exact ⟨Identifier.blob_inj.mp hv, Identifier.blob_inj.mp ho, hp, hu, Bytes.be64_inj he, hc,
    Block.toList_inj.mp hch⟩

/-- Two accepted heads with the same signed bytes carry the same facts, if they are present. -/
theorem headSigningBytes_inj {v v' : VaultId} {o o' : ObjectId} {p p' : Bool}
    {u u' : Option VersionId} {e e' : UInt64} {c c' : Option (Block 32)} {ch ch' : Block 32}
    (hp : p = (u.isSome && c.isSome)) (hp' : p' = (u'.isSome && c'.isSome)) (hpresent : p = true)
    (h : headSigningBytes v o p u e c ch = headSigningBytes v' o' p' u' e' c' ch') :
    v = v' ∧ o = o' ∧ p = p' ∧ u = u' ∧ e = e' ∧ c = c' ∧ ch = ch' := by
  obtain ⟨hv, ho, rfl, hu, he, hc, hch⟩ := headSigningBytes_fields h
  -- both heads are present, so neither optional field stands for zeros
  subst hpresent
  obtain ⟨⟨u, rfl⟩, ⟨c, rfl⟩⟩ : (∃ x, u = some x) ∧ ∃ x, c = some x := by
    simpa [Option.isSome_iff_exists] using hp.symm
  obtain ⟨⟨u', rfl⟩, ⟨c', rfl⟩⟩ : (∃ x, u' = some x) ∧ ∃ x, c' = some x := by
    simpa [Option.isSome_iff_exists] using hp'.symm
  exact ⟨hv, ho, rfl, congrArg some (Identifier.ext hu), he, congrArg some hc, hch⟩

/-! ### Signatures of an honest signer -/

/-- The documented behaviour of Ed25519: the key of a signing seed is accepted, and a signature
verifies under it. -/
structure Primitives.SignatureCorrect (prim : Primitives) : Prop where
  valid_verifyingKey : ∀ seed, prim.validKey (prim.verifyingKey seed) = true
  verify_sign : ∀ seed message,
    prim.verify (prim.verifyingKey seed) message (prim.sign seed message) = true

section

variable {prim : Primitives} (hsig : prim.SignatureCorrect)

include hsig

theorem verifySignature_sign (seed : Block 32) (message : Bytes) :
    verifySignature prim (prim.verifyingKey seed) message (prim.sign seed message) = .ok () :=
  verifySignature_eq_ok.mpr ⟨hsig.valid_verifyingKey seed, hsig.verify_sign seed message⟩

/-- An issued receipt is valid. -/
theorem WitnessReceipt.valid_issue (request : WitnessRequest) (epoch : UInt64)
    (seed : Block 32) : (WitnessReceipt.issue prim request epoch seed).Valid prim :=
  verifySignature_sign hsig _ _

/-- An issued head is accepted. -/
theorem WitnessHead.new_issue (vaultId : VaultId) (objectId : ObjectId)
    (receipt : Option WitnessReceipt) (challenge seed : Block 32) :
    WitnessHead.new prim (WitnessHead.issue prim vaultId objectId receipt challenge seed) =
      .ok (WitnessHead.issue prim vaultId objectId receipt challenge seed) := by
  refine WitnessHead.new_eq_ok.mpr ⟨?_, ?_, verifySignature_sign hsig _ _, rfl⟩
  · cases receipt <;> rfl
  · cases receipt <;> simp [WitnessHead.issue]

end

end Vlt1

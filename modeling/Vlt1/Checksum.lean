import Vlt1.Witness

/-!
# Executable primitives

A computable instance of `Primitives` that behaves as the crates document (a sealed record opens to
its plaintext, a signature verifies under its key) and is cheap to evaluate. It offers no secrecy;
it is what concrete runs of the model are evaluated with.
-/

namespace Vlt1

/-- The bytes of a string, read as a number, modulo a number of `n` bytes. -/
def checksum (n : ℕ) (b : Bytes) : Block n :=
  ⟨Bytes.toBe n (Bytes.ofBe (1 :: b) % (256 ^ n - 189)), Bytes.length_toBe _ _⟩

/-- The tag that binds a key, a nonce, associated data and a plaintext. -/
def checksumTag (key : Bytes) (nonce : Block 12) (aad plaintext : Bytes) : Bytes :=
  (checksum 16 (key ++ nonce.toList ++ aad ++ plaintext)).toList

/-- A signature that shows its key and a checksum of the message. -/
def checksumSign (seed : Block 32) (message : Bytes) : Block 64 :=
  ⟨seed.toList ++ (checksum 32 message).toList, by simp⟩

/-- Primitives built from the checksum. -/
def Primitives.checksum : Primitives where
  encrypt key nonce aad plaintext := some (plaintext ++ checksumTag key nonce aad plaintext)
  decrypt key nonce aad ciphertext :=
    let plaintext := ciphertext.take (ciphertext.length - 16)
    if ciphertext = plaintext ++ checksumTag key nonce aad plaintext then some plaintext else none
  sha256 := Vlt1.checksum 32
  hkdf salt ikm label := some (Vlt1.checksum 32 (salt ++ ikm ++ label))
  argon2Params _ := true
  argon2id _ passphrase salt := some (Vlt1.checksum 32 (passphrase ++ salt.toList))
  verifyingKey seed := seed
  sign := checksumSign
  validKey _ := true
  verify key message signature := decide (signature = checksumSign key message)
  base64Encode b := b
  base64Decode b := some b

theorem Primitives.signatureCorrect_checksum : Primitives.checksum.SignatureCorrect where
  valid_verifyingKey _ := rfl
  verify_sign _ _ := decide_eq_true rfl

/-- The identifier whose sixteen bytes are all `b`. -/
def Identifier.repeated {kind : IdKind} (b : UInt8) : Identifier kind :=
  ⟨List.replicate 16 b, List.length_replicate⟩

end Vlt1

import Mathlib.Data.Set.Basic
import Vlt1.Checksum

/-!
# Ideal primitives

What theorems about whole runs assume of the cryptographic primitives: a sealed record opens to its
plaintext, it opens under its own key and associated data only, and the passphrases in use derive
different keys. `Primitives.transparent` is a computable instance with these properties.
-/

namespace Vlt1

namespace Primitives

/-- A sealed record opens to its plaintext. -/
structure OpensSealed (prim : Primitives) : Prop where
  decrypt_encrypt : ∀ {key : Bytes} {nonce : Block 12} {aad plaintext ciphertext : Bytes},
    prim.encrypt key nonce aad plaintext = some ciphertext →
      prim.decrypt key nonce aad ciphertext = some plaintext

/-- A sealed record opens to its plaintext, and not under another key or other associated data. -/
structure IdealAead (prim : Primitives) : Prop extends prim.OpensSealed where
  binding : ∀ {key key' : Bytes} {nonce : Block 12} {aad aad' plaintext plaintext' ciphertext : Bytes},
    prim.encrypt key nonce aad plaintext = some ciphertext →
      prim.decrypt key' nonce aad' ciphertext = some plaintext' → key' = key ∧ aad' = aad

/-- No two of these passphrases derive the same key under the same salt. -/
def KdfInjectiveOn (prim : Primitives) (passphrases : Set Text) : Prop :=
  ∀ params salt key, ∀ p ∈ passphrases, ∀ q ∈ passphrases,
    prim.argon2id params p salt = some key → prim.argon2id params q salt = some key → p = q

/-- What an ideal AEAD opens is the plaintext that was sealed. -/
theorem IdealAead.plaintext_eq {prim : Primitives} (hprim : prim.IdealAead) {key key' : Bytes}
    {nonce : Block 12} {aad aad' plaintext plaintext' ciphertext : Bytes}
    (hseal : prim.encrypt key nonce aad plaintext = some ciphertext)
    (hopen : prim.decrypt key' nonce aad' ciphertext = some plaintext') :
    plaintext' = plaintext := by
  obtain ⟨rfl, rfl⟩ := hprim.binding hseal hopen
  exact (Option.some.inj ((hprim.decrypt_encrypt hseal).symm.trans hopen)).symm

end Primitives

/-! ### An instance -/

/-- A byte string that shows where it ends. -/
def delimited (b : Bytes) : Bytes := b.flatMap (fun x => [1, x]) ++ [0]

theorem delimited_append_inj {a b s t : Bytes} (h : delimited a ++ s = delimited b ++ t) :
    a = b ∧ s = t := by
  induction a generalizing b with
  | nil =>
    cases b with
    | nil => exact ⟨rfl, by simpa [delimited] using h⟩
    | cons y b => simp [delimited] at h
  | cons x a ih =>
    cases b with
    | nil => simp [delimited] at h
    | cons y b =>
      have hcons : x = y ∧ delimited a ++ s = delimited b ++ t := by
        simpa [delimited] using h
      obtain ⟨rfl, rfl⟩ := ih hcons.2
      exact ⟨by rw [hcons.1], rfl⟩

/-- Key and associated data, in front of a ciphertext. -/
def transparentHead (key aad : Bytes) : Bytes := delimited key ++ delimited aad

/-- Primitives that hide nothing: a ciphertext shows its key and its associated data, and a derived
key shows its passphrase. -/
def Primitives.transparent : Primitives :=
  { Primitives.checksum with
    encrypt := fun key _ aad plaintext => some (transparentHead key aad ++ plaintext)
    decrypt := fun key _ aad ciphertext =>
      let head := transparentHead key aad
      if ciphertext = head ++ ciphertext.drop head.length then some (ciphertext.drop head.length)
      else none
    argon2id := fun _ passphrase _ =>
      some ⟨(passphrase ++ List.replicate 32 0).take 32, by simp⟩ }

theorem Primitives.idealAead_transparent : Primitives.transparent.IdealAead where
  decrypt_encrypt := by
    intro key nonce aad plaintext ciphertext h
    obtain rfl := Option.some.inj h
    simp [Primitives.transparent]
  binding := by
    intro key key' nonce aad aad' plaintext plaintext' ciphertext hseal hopen
    obtain rfl := Option.some.inj hseal
    simp only [Primitives.transparent] at hopen
    split at hopen
    · rename_i heq
      rw [transparentHead, transparentHead, List.append_assoc, List.append_assoc] at heq
      obtain ⟨hkey, hrest⟩ := delimited_append_inj heq
      exact ⟨hkey.symm, (delimited_append_inj hrest).1.symm⟩
    · cases hopen

end Vlt1

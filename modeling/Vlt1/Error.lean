import Mathlib.Init

/-!
# Error categories

The errors of the VLT/1 security boundary and the rule that decides which of them close the vault.
-/

namespace Vlt1

/-- Errors returned without plaintext, passphrases or key material. -/
inductive VaultError where
  /-- The caller must unlock the vault before using it. -/
  | locked
  /-- Passphrase verification or root-key envelope decryption failed. -/
  | unlockFailed
  /-- An authenticated record could not be verified. -/
  | authentication
  /-- A persistent record violated the format contract. -/
  | invalidFormat (message : String)
  /-- A lifecycle invariant was violated. -/
  | invariant (message : String)
  /-- The requested object or version does not exist. -/
  | notFound
  /-- A persistent backend operation failed. -/
  | storage
  /-- Input violates an explicit public limit. -/
  | invalidInput (message : String)
  /-- The configured freshness witness could not be reached. -/
  | witnessUnavailable
  /-- Remote witness state contradicts the locally authenticated head. -/
  | witnessConflict
deriving DecidableEq, Repr

/-- Whether the vault instance must go to `Locked` after this error. -/
def VaultError.requiresLock : VaultError → Bool
  | authentication | invalidFormat _ | invariant _ | storage
  | witnessUnavailable | witnessConflict => true
  | locked | unlockFailed | notFound | invalidInput _ => false

end Vlt1

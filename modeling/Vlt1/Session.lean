import Vlt1.Vault.Frame

/-!
# Calls of the library

A program holds at most one handle of the vault and calls its public functions one after another, in
any order. A handle is gained by opening the vault and lost when it is dropped or when the process
dies in a call. `sessionStep` is one call; calls without a handle do nothing.

The process dies before a storage step or while it waits for the witness (`Fault`, `Transport`), so a call whose
last step committed always returns. If the process dies behind that step, the run goes on as one in which the
call returned and the handle was dropped.
-/

namespace Vlt1

open Effect

/-- A call of the library. -/
inductive VaultCall where
  | reopen
  | unlock (passphrase : Text)
  | lock
  | put (objectId : ObjectId) (plaintext : Bytes) (chunkSize : ℕ)
  | putFromReader (objectId : ObjectId) (reader : Reader) (chunkSize : ℕ)
  | putWithWitness (objectId : ObjectId) (plaintext : Bytes)
  | recover
  | get (objectId : ObjectId)
  | getToWriter (objectId : ObjectId)
  | verify
  | verifyWithWitness
  | rotatePassphrase (current replacement : Text)
  | fullCheckpoint
  | backupTo (destination : Text)
  /-- The handle is dropped, or the process dies between two calls. -/
  | drop
  /-- Time passes outside. -/
  | elapse
deriving DecidableEq

/-- What a call returns. -/
inductive CallResult where
  | unit
  | version (versionId : VersionId)
  | count (n : UInt64)
  | plaintext (bytes : Bytes)
  | backup (manifest : BackupManifest)
deriving DecidableEq

/-- A program's vault and its surroundings. -/
structure SessionState (ω : Type) where
  world : World ω
  /-- The program holds a handle. -/
  opened : Bool

section

variable {ω : Type} [Machine ω] (prim : Primitives) (provider : WitnessProvider ω)

/-- The computation of a call that needs a handle. -/
def VaultCall.run : VaultCall → VaultOp ω CallResult
  | .reopen | .drop | .elapse => return .unit
  | .unlock passphrase => do
    Vlt1.unlock prim passphrase
    return .unit
  | .lock => do
    Vlt1.lock
    return .unit
  | .put o plaintext chunkSize => return .version (← putWithChunkSize prim o plaintext chunkSize)
  | .putFromReader o reader chunkSize =>
    return .version (← putFromReaderWithChunkSize prim o reader chunkSize)
  | .putWithWitness o plaintext =>
    return .version (← Vlt1.putWithWitness prim o plaintext provider)
  | .recover => return .count (← recoverPendingWitnessPublications prim provider)
  | .get o => return .plaintext (← Vlt1.get prim o)
  | .getToWriter o => do
    Op.modify fun w => { w with sink := [] }
    Vlt1.getToWriter prim o .stream
    return .unit
  | .verify => return .count (← verifyActiveObjects prim)
  | .verifyWithWitness => return .count (← verifyActiveObjectsWithWitness prim provider)
  | .rotatePassphrase current replacement => do
    Vlt1.rotatePassphrase prim current replacement
    return .unit
  | .fullCheckpoint => do
    Vlt1.fullCheckpoint
    return .unit
  | .backupTo destination => return .backup (← Vlt1.backupTo destination)

/-- The state after an operation: the handle is lost when the process died. -/
def SessionState.after {α : Type} (opened : Bool) : Outcome VaultError (World ω) α →
    Option (Except VaultError α) × SessionState ω
  | .ok a w => (some (.ok a), ⟨w, opened⟩)
  | .failed e w => (some (.error e), ⟨w, opened⟩)
  | .crashed w => (none, ⟨w.locked, false⟩)

/-- One call. -/
def sessionStep (s : SessionState ω) :
    VaultCall → Option (Except VaultError CallResult) × SessionState ω
  | .reopen =>
    match openVault prim s.world with
    | .ok _ w => (some (.ok .unit), ⟨w, true⟩)
    | .failed e w => (some (.error e), ⟨w.locked, false⟩)
    | .crashed w => (none, ⟨w.locked, false⟩)
  | .drop => (none, ⟨s.world.locked, false⟩)
  | .elapse =>
    (none, { s with world := { s.world with outside := Machine.elapse s.world.outside } })
  | call =>
    if s.opened then SessionState.after true (call.run prim provider s.world)
    else (none, s)

/-! ### What every call keeps -/

/-- The operations with which a call changes the vault keep an assertion. -/
structure VaultCall.Survives (I J : World ω → Prop) (call : VaultCall) : Prop where
  reopen : call = .reopen → Op.Survives I J (openVault prim)
  unlock : ∀ passphrase, call = .unlock passphrase → Op.Survives I J (Vlt1.unlock prim passphrase)
  put : ∀ o plaintext size, call = .put o plaintext size →
    Op.Survives I J (putWithChunkSize prim o plaintext size)
  putFromReader : ∀ o reader size, call = .putFromReader o reader size →
    Op.Survives I J (putFromReaderWithChunkSize prim o reader size)
  putWithWitness : ∀ o plaintext, call = .putWithWitness o plaintext →
    Op.Survives I J (Vlt1.putWithWitness prim o plaintext provider)
  recover : call = .recover → Op.Survives I J (recoverPendingWitnessPublications prim provider)
  rotatePassphrase : ∀ current replacement, call = .rotatePassphrase current replacement →
    Op.Survives I J (Vlt1.rotatePassphrase prim current replacement)

variable {prim provider} {I J : World ω → Prop} [CloseRelation fun w w' => I w → I w']
  (hheads : provider.KeepsHeads fun w w' => I w → I w') (hcrash : ∀ w, I w → J w)

include hheads hcrash

/-- A call that needs a handle keeps what locking and its own operations keep. -/
theorem VaultCall.Survives.run {call : VaultCall} (h : call.Survives prim provider I J) :
    Op.Survives I J (call.run prim provider) := by
  cases call with
  | reopen => exact .pure _
  | drop => exact .pure _
  | elapse => exact .pure _
  | unlock passphrase => exact .bind (h.unlock _ rfl) fun _ => .pure _
  | lock => exact .bind (.of_keeps keeps_lock hcrash) fun _ => .pure _
  | put o plaintext size => exact .bind (h.put _ _ _ rfl) fun _ => .pure _
  | putFromReader o reader size => exact .bind (h.putFromReader _ _ _ rfl) fun _ => .pure _
  | putWithWitness o plaintext => exact .bind (h.putWithWitness _ _ rfl) fun _ => .pure _
  | recover => exact .bind (h.recover rfl) fun _ => .pure _
  | get o => exact .bind (.of_keeps (keeps_get prim o) hcrash) fun _ => .pure _
  | getToWriter o =>
    have hsink : ∀ w : World ω, I w → I { w with sink := [] } := fun w =>
      ReadRelation.sink (R := fun w w' => I w → I w') w []
    exact .bind (.modify hsink) fun _ =>
      .bind (.of_keeps (keeps_getToWriter prim o .stream) hcrash) fun _ => .pure _
  | verify => exact .bind (.of_keeps (keeps_verifyActiveObjects prim) hcrash) fun _ => .pure _
  | verifyWithWitness =>
    exact .bind (.of_keeps (keeps_verifyActiveObjectsWithWitness prim hheads) hcrash) fun _ => .pure _
  | rotatePassphrase current replacement =>
    exact .bind (h.rotatePassphrase _ _ rfl) fun _ => .pure _
  | fullCheckpoint => exact .bind (.of_keeps keeps_fullCheckpoint hcrash) fun _ => .pure _
  | backupTo destination => exact .bind (.of_keeps (keeps_backupTo destination) hcrash) fun _ => .pure _

omit hheads hcrash [CloseRelation fun w w' => I w → I w'] in
/-- What a call leaves, when the vault is locked after a crash. -/
theorem SessionState.after_of_triple {call : VaultCall} {s : SessionState ω}
    (hlocked : ∀ w, J w → I w.locked)
    (h : Op.Triple (· = s.world) (call.run prim provider) (fun _ => I)
      fun stop w => stop.elim (J w) fun _ => I w) (hs : I s.world) :
    I (if s.opened then SessionState.after true (call.run prim provider s.world)
      else (none, s)).2.world := by
  split
  · have hx := h s.world rfl
    cases hout : call.run prim provider s.world with
    | ok a w => rw [hout] at hx; exact hx
    | failed e w => rw [hout] at hx; exact hx
    | crashed w => rw [hout] at hx; exact hlocked w hx
  · exact hs

/-- A step of a session keeps them too, when the vault is locked after a crash. -/
theorem VaultCall.Survives.step (hlocked : ∀ w, J w → I w.locked) {call : VaultCall}
    (h : call.Survives prim provider I J) {s : SessionState ω} (hs : I s.world) :
    I (sessionStep prim provider s call).2.world := by
  have hrun := SessionState.after_of_triple hlocked ((h.run hheads hcrash).mono_pre
    fun w (hw : w = s.world) => hw ▸ hs) hs
  cases call with
  | reopen =>
    have hx := h.reopen rfl s.world hs
    unfold sessionStep
    cases hout : openVault prim s.world with
    | ok _ w => rw [hout] at hx; exact hx
    | failed e w => rw [hout] at hx; exact hlocked w (hcrash w hx)
    | crashed w => rw [hout] at hx; exact hlocked w hx
  | drop => exact hlocked _ (hcrash _ hs)
  | elapse => exact ReadRelation.move (R := fun w w' => I w → I w') s.world _ (.elapse _) hs
  | _ => exact hrun

end

end Vlt1

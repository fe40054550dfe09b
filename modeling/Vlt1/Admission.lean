import Vlt1.Library.Threads
import Vlt1.Checksum
import Vlt1.Daemon

/-!
# Admission control

The daemon admits a bounded number of connections and one long operation at a time. A counter and a flag, which
all threads share, say what is admitted. A thread that is admitted holds a permit, and dropping the permit takes
it off the counter or clears the flag.

Here every access to the counter and the flags is a step of its own, so that any number of threads can interleave,
and every other call can answer anything and can also panic. The handlers are those of the source with each of
their early returns. The main results:

* `Keeps` — a handler ends, however it ends, with the permits it began with;
* `Reachable.kept` and `admission_exact` — in every state that threads can reach, the counter and the flag
  agree with the permits that are live.
-/

namespace Vlt1

namespace Admission

open Threads

/-! ### The shared state -/

/-- The policy of a daemon with its limit of connections. -/
structure Config extends DaemonConfig where
  maxConnections : UInt64

/-- What a thread holds while it is admitted. -/
inductive Permit where
  /-- `ConnectionPermit`. -/
  | connection
  /-- `LongOperationPermit`. -/
  | longOperation
deriving DecidableEq

/-- The atomic fields of the daemon's state. -/
structure Atomics where
  activeConnections : UInt64
  longOperationActive : Bool
  shutdown : Bool
deriving DecidableEq

/-- The fields as `Daemon::open` builds them. -/
def Atomics.new : Atomics := ⟨0, false, false⟩

/-! ### Operations -/

/-- What `listener.accept` reports. -/
inductive Accepted where
  | stream
  | wouldBlock
  | interrupted
  | failed
deriving DecidableEq

/-- A call that does not touch the atomic fields. -/
inductive Call where
  | bindSocket
  | setNonblocking
  | accept
  /-- The operating system's part of `thread::spawn`. -/
  | startThread
  | sleep
  /-- Remove the socket; one that is gone is no error. -/
  | removeSocket
  | setReadTimeout
  | setWriteTimeout
  | authorize
  /-- `read_frame`; `none` is a frame that is not a request. -/
  | readRequest
  | writeFrame (response : Response)
  | writeStreamError (response : Response)
  | writeStreamEnd
  /-- Take a mutex; `false` when it is poisoned. -/
  | lockVault
  | lockWitness
  | lockRecovery
  | vaultId
  | vaultStatus
  | verifiedActiveObjects
  | setVerifiedActiveObjects (activeObjects : UInt64)
  | unlock (passphrase : Text)
  | lock
  | recoverPendingWitnessPublications
  | verifyActiveObjectsWithWitness
  | verifyActiveObjects
  | rotatePassphrase (current replacement : Text)
  | fullCheckpoint
  | backupTo (destination : Text)
  | put (objectId : ObjectId) (plaintext : Bytes)
  | putWithWitness (objectId : ObjectId) (plaintext : Bytes)
  | putFromReader (objectId : ObjectId) (items : List StreamItem)
  | get (objectId : ObjectId)
  | getToWriter (objectId : ObjectId)

/-- What a call returns. -/
abbrev Call.Result : Call → Type
  | bindSocket | setNonblocking | removeSocket | setReadTimeout | setWriteTimeout => Bool
  | accept => Accepted
  | startThread => Bool
  | authorize => Bool
  | readRequest => Option Request
  | writeFrame _ | writeStreamError _ | writeStreamEnd => Bool
  | lockVault | lockWitness | lockRecovery => Bool
  | vaultId => VaultId
  | vaultStatus => VaultStatus
  | verifiedActiveObjects => Option UInt64
  | sleep | setVerifiedActiveObjects _ | lock => Unit
  | unlock _ | rotatePassphrase _ _ | fullCheckpoint => Except VaultError Unit
  | recoverPendingWitnessPublications => Except VaultError UInt64
  | verifyActiveObjectsWithWitness | verifyActiveObjects => Except VaultError UInt64
  | backupTo _ => Except VaultError BackupManifest
  | put _ _ | putWithWitness _ _ | putFromReader _ _ => Except VaultError VersionId
  | get _ => Except VaultError Bytes
  | getToWriter _ => Except VaultError Unit

/-- An access to an atomic field, or another call. -/
inductive Operation where
  | loadConnections
  | compareExchangeConnections (observed new : UInt64)
  /-- `fetch_sub(1)`, which wraps. -/
  | decrementConnections
  | loadLongOperation
  | compareExchangeLongOperation (observed new : Bool)
  | storeLongOperation (value : Bool)
  | loadShutdown
  | storeShutdown (value : Bool)
  | call (c : Call)

/-- What an operation answers. A call that answers nothing panics. -/
abbrev Operation.Answer : Operation → Type
  | loadConnections => UInt64
  | compareExchangeConnections _ _ | compareExchangeLongOperation _ _ => Bool
  | loadLongOperation | loadShutdown => Bool
  | decrementConnections | storeLongOperation _ | storeShutdown _ => Unit
  | call c => Option c.Result

/-- What an operation does to the atomic fields. A compare-exchange can also fail when the value is the expected
one. -/
def Operation.Performs (s : Atomics) : (o : Operation) → o.Answer → Atomics → Prop
  | loadConnections, a, s' => a = s.activeConnections ∧ s' = s
  | compareExchangeConnections observed new, a, s' =>
    if a then s.activeConnections = observed ∧ s' = { s with activeConnections := new } else s' = s
  | decrementConnections, _, s' => s' = { s with activeConnections := s.activeConnections - 1 }
  | loadLongOperation, a, s' => a = s.longOperationActive ∧ s' = s
  | compareExchangeLongOperation observed new, a, s' =>
    if a then s.longOperationActive = observed ∧ s' = { s with longOperationActive := new } else s' = s
  | storeLongOperation value, _, s' => s' = { s with longOperationActive := value }
  | loadShutdown, a, s' => a = s.shutdown ∧ s' = s
  | storeShutdown value, _, s' => s' = { s with shutdown := value }
  | call _, _, s' => s' = s

/-- The permit that an operation creates: the compare-exchange that succeeds. -/
def Operation.creates : (o : Operation) → o.Answer → Multiset Permit
  | compareExchangeConnections _ _, true => {.connection}
  | compareExchangeLongOperation _ _, true => {.longOperation}
  | _, _ => 0

/-- The permit that an operation drops. -/
def Operation.drops : (o : Operation) → o.Answer → Multiset Permit
  | decrementConnections, _ => {.connection}
  | storeLongOperation _, _ => {.longOperation}
  | _, _ => 0

/-- The operations of the daemon's threads. -/
def operations : Interface Operation Operation.Answer Permit Atomics where
  performs := Operation.Performs
  takes := Operation.drops
  adds := Operation.creates

/-! ### Handlers -/

/-- A program of the daemon. -/
abbrev Program := Prog Operation Operation.Answer Permit

/-- An `io::Error`. -/
inductive IoError where
  /-- One that the operating system reports. -/
  | system
  | brokenPipe (message : String)
deriving DecidableEq

/-- How a handler ends without a value. -/
inductive Exit (ε : Type) where
  | panic
  | error (e : ε)

/-- A handler. A panic unwinds the thread. -/
abbrev Handler (ε α : Type) := ExceptT (Exit ε) Program α

section Handlers

variable {ε ε' α : Type}

/-- An operation that does not panic. -/
def atomic (o : Operation) : Handler ε o.Answer := ExceptT.lift (Prog.perform o)

/-- A call. -/
def call (c : Call) : Handler ε c.Result :=
  ExceptT.mk do
    match ← (Prog.perform (Operation.call c) : Program (Option c.Result)) with
    | none => return .error .panic
    | some result => return .ok result

/-- `?` on a call that returns an `io::Result`. -/
def callIo (ok : Handler IoError Bool) (e : IoError) : Handler IoError Unit := do
  if ← ok then return () else throw (.error e)

/-- A call of the vault and `?` on its result. -/
def callVault (result : Handler VaultError (Except VaultError α)) : Handler VaultError α := do
  match ← result with
  | .ok a => return a
  | .error e => throw (.error e)

/-- The result of a handler as a value. A panic goes on. -/
def attempt (x : Handler ε α) : Handler ε' (Except ε α) :=
  ExceptT.mk do
    match ← x.run with
    | .ok a => return .ok (.ok a)
    | .error (.error e) => return .ok (.error e)
    | .error .panic => return .error .panic

/-- `Drop` of a permit. -/
def Permit.drop : Permit → Program Unit
  | .connection => Prog.perform Operation.decrementConnections
  | .longOperation => Prog.perform (Operation.storeLongOperation false)

/-- Run the handler with a permit in a local variable, which is dropped however the handler ends. -/
def holding (permit : Permit) (x : Handler ε α) : Handler ε α :=
  ExceptT.mk do
    let result ← x.run
    permit.drop
    return result

/-- Repeat a handler until it has a result. -/
def repeatUntil (round : Handler ε (Option α)) : Handler ε α :=
  ExceptT.mk <| .loop (do
    match ← round.run with
    | .ok none => return none
    | .ok (some a) => return some (.ok a)
    | .error e => return some (.error e)) .ret

/-- `try_acquire_long_operation`. -/
def tryAcquireLongOperation : Handler ε Bool := atomic (.compareExchangeLongOperation false true)

variable (config : Config)

/-- `try_acquire_connection`. -/
def tryAcquireConnection : Handler ε Bool :=
  repeatUntil do
    let observed ← atomic .loadConnections
    if observed ≥ config.maxConnections then return some false
    if ← atomic (.compareExchangeConnections observed (observed + 1)) then return some true
    return none

/-- `write_response`. -/
def writeResponse (response : Response) : Handler IoError Unit :=
  callIo (call (.writeFrame response)) (.brokenPipe "response write failed")

/-- `write_stream_response`. -/
def writeStreamResponse (response : Response) : Handler IoError Unit :=
  callIo (call (.writeStreamError response)) (.brokenPipe "stream error write failed")

/-- `with_vault`. -/
def withVault (operation : Handler VaultError Success) : Handler ε Response := do
  if ← call .lockVault then return respond (← attempt operation)
  else return .error .internal "daemon state is unavailable"

/-- `with_vault_result`. -/
def withVaultResult (operation : Handler VaultError UInt64) : Handler VaultError UInt64 := do
  if ← call .lockVault then operation else throw (.error .storage)

/-- `with_witness`. -/
def withWitness (operation : Handler VaultError Success) : Handler ε Response :=
  match config.witness with
  | none => return .error .policy "external witness is not configured"
  | some _ => do
    if ← call .lockWitness then withVault operation
    else return .error .internal "witness state is unavailable"

/-- `with_witness_result`. -/
def withWitnessResult (operation : Handler VaultError UInt64) : Handler VaultError UInt64 :=
  match config.witness with
  | none => throw (.error .witnessUnavailable)
  | some _ => do
    if ← call .lockWitness then withVaultResult operation else throw (.error .storage)

/-- `status`. -/
def status : Handler ε Response := do
  if ← atomic .loadLongOperation then return overloadedResponse
  if ← call .lockVault then
    let lifecycle ← call .vaultStatus
    let vaultId ← call .vaultId
    if ← call .lockRecovery then
      let verifiedActiveObjects ← call .verifiedActiveObjects
      return .ok (.status "VLT/1" vaultId.toHex lifecycle "startup_integrity_ok" verifiedActiveObjects)
    else return .error .internal "daemon recovery state is unavailable"
  else return .error .internal "daemon state is unavailable"

/-- `unlock`. -/
def unlock (passphrase : Text) : Handler ε Response :=
  if config.witness.isSome then
    withWitness config do
      callVault (call (.unlock passphrase))
      let _ ← callVault (call .recoverPendingWitnessPublications)
      let _ ← callVault (call .verifyActiveObjectsWithWitness)
      return .empty
  else
    withVault do
      callVault (call (.unlock passphrase))
      return .empty

/-- `verify`. -/
def verify : Handler ε Response := do
  if ← tryAcquireLongOperation then
    holding .longOperation do
      let result ← attempt <|
        if config.witness.isSome then
          withWitnessResult config (callVault (call .verifyActiveObjectsWithWitness))
        else withVaultResult (callVault (call .verifyActiveObjects))
      match result with
      | .ok activeObjects =>
        if ← call .lockRecovery then
          call (.setVerifiedActiveObjects activeObjects)
          return .ok (.verified activeObjects)
        else return .error .internal "daemon recovery state is unavailable"
      | .error e => return mapVaultError e
  else return overloadedResponse

/-- `backup`. -/
def backup (destination : Text) : Handler ε Response := do
  if ← tryAcquireLongOperation then
    holding .longOperation <|
      withVault do
        let manifest ← callVault (call (.backupTo destination))
        return .backup manifest.format manifest.databaseSha256 manifest.databaseBytes
  else return overloadedResponse

variable (prim : Primitives)

/-- `put`. -/
def put (objectId plaintextB64 : Text) : Handler ε Response :=
  match parseRequestObjectId objectId with
  | .error response => return response
  | .ok objectId =>
    match prim.base64Decode plaintextB64 with
    | none => return .error .invalidInput "plaintext is not valid base64"
    | some plaintext =>
      if config.witness.isSome then
        withWitness config do
          let version ← callVault (call (.putWithWitness objectId plaintext))
          return .published version.toHex
      else
        withVault do
          let version ← callVault (call (.put objectId plaintext))
          return .published version.toHex

/-- `get`. -/
def get (objectId : Text) : Handler ε Response :=
  match parseRequestObjectId objectId with
  | .error response => return response
  | .ok objectId =>
    if config.witness.isSome then
      withWitness config do
        let _ ← callVault (call .verifyActiveObjectsWithWitness)
        let plaintext ← callVault (call (.get objectId))
        return .plaintext (prim.base64Encode plaintext)
    else
      withVault do
        let plaintext ← callVault (call (.get objectId))
        return .plaintext (prim.base64Encode plaintext)

/-- `put_stream`. -/
def putStream (objectId : Text) (items : List StreamItem) : Handler IoError Unit := do
  if ← tryAcquireLongOperation then
    holding .longOperation do
      match parseRequestObjectId objectId with
      | .error response => writeResponse response
      | .ok objectId =>
        writeResponse (.ok .streamReady)
        if ← call .lockVault then
          match ← call (.putFromReader objectId items) with
          | .ok version => writeResponse (.ok (.published version.toHex))
          | .error e => writeStreamResponse (mapVaultError e)
        else writeStreamResponse (.error .internal "daemon state is unavailable")
  else writeResponse overloadedResponse

/-- `get_stream`. -/
def getStream (objectId : Text) : Handler IoError Unit := do
  if ← tryAcquireLongOperation then
    holding .longOperation do
      match parseRequestObjectId objectId with
      | .error response => writeResponse response
      | .ok objectId =>
        writeResponse (.ok .streamReady)
        if ← call .lockVault then
          match ← call (.getToWriter objectId) with
          | .ok () => callIo (call .writeStreamEnd) (.brokenPipe "stream end write failed")
          | .error e => writeStreamResponse (mapVaultError e)
        else writeStreamResponse (.error .internal "daemon state is unavailable")
  else writeResponse overloadedResponse

/-- `dispatch`. -/
def dispatch (request : Request) : Handler ε Response := do
  if (← atomic .loadLongOperation) ∧ request ≠ .shutdown then return overloadedResponse
  match request with
  | .status => status
  | .unlock passphrase => unlock config passphrase
  | .lock => withVault do
    call .lock
    return .empty
  | .put objectId plaintextB64 => put config prim objectId plaintextB64
  | .get objectId => get config prim objectId
  | .putStream _ _ | .getStream _ =>
    return .error .protocol "streaming request was not handled as a stream"
  | .rotatePassphrase current replacement => withVault do
    callVault (call (.rotatePassphrase current replacement))
    return .empty
  | .verify => verify config
  | .checkpoint => withVault do
    callVault (call .fullCheckpoint)
    return .empty
  | .backup destination => backup destination
  | .shutdown =>
    if config.allowShutdown then
      atomic (.storeShutdown true)
      return .ok .empty
    else return .error .policy "daemon shutdown is disabled by policy"

/-- `serve_stream`. -/
def serveStream : Handler IoError Unit := do
  callIo (call .setReadTimeout) .system
  callIo (call .setWriteTimeout) .system
  if ← call .authorize then
    match ← call .readRequest with
    | some (.putStream objectId items) => putStream objectId items
    | some (.getStream objectId) => getStream objectId
    | some request => writeResponse (← dispatch config prim request)
    | none => writeResponse (.error .protocol "invalid local protocol request")
  else writeResponse (.error .unauthorized "local peer is not authorized")

/-- `reject_overloaded`. -/
def rejectOverloaded : Handler ε Unit := do
  let _ ← call .setWriteTimeout
  let _ ← call (.writeFrame (.error .overloaded "daemon connection limit reached"))

/-- The thread of a connection. -/
def connectionThread : Program Unit := do
  let _ ← (holding .connection (serveStream config prim)).run

/-- `thread::spawn` of a connection. When no thread can be started, the call panics, and the closure is dropped
with its permit. -/
def spawnConnection : Handler ε Unit := do
  match ← atomic (.call .startThread) with
  | some true => ExceptT.mk <| .spawn {.connection} (connectionThread config prim) (return .ok ())
  | _ => holding .connection (throw .panic)

/-- `serve`. -/
def serve : Handler IoError Unit := do
  callIo (call .bindSocket) .system
  callIo (call .setNonblocking) .system
  repeatUntil do
    if ← atomic .loadShutdown then return some ()
    match ← call .accept with
    | .stream =>
      if ← tryAcquireConnection config then spawnConnection config prim else rejectOverloaded
    | .wouldBlock => call .sleep
    | .interrupted => pure ()
    | .failed => throw (.error .system)
    return none
  callIo (call .removeSocket) .system

end Handlers

/-! ### What an operation needs -/

/-- What a thread that owns these permits may do: count up from a number below the limit, set the flag only from
`false`, and drop only permits it owns. -/
def Allowed (max : UInt64) : Operation → Multiset Permit → Prop
  | .compareExchangeConnections observed new, _ => observed < max ∧ new = observed + 1
  | .decrementConnections, owned => .connection ∈ owned
  | .compareExchangeLongOperation observed new, _ => observed = false ∧ new = true
  | .storeLongOperation value, owned => value = false ∧ .longOperation ∈ owned
  | _, _ => True

/-- The counter and the flag agree with the permits that are live, and no more are live than admitted. -/
structure Exact (max : UInt64) (s : Atomics) (live : Multiset Permit) : Prop where
  connections : s.activeConnections.toNat = live.count .connection
  bounded : live.count .connection ≤ max.toNat
  single : live.count .longOperation ≤ 1
  active : s.longOperationActive = true ↔ live.count .longOperation = 1

section Exact

variable {max : UInt64} {s : Atomics} {live : Multiset Permit}

/-- A new daemon has counted nothing, and no permit is live. -/
theorem exact_new : Exact max Atomics.new 0 := ⟨rfl, Nat.zero_le _, Nat.zero_le _, by decide⟩

/-- A thread that reads a number below the limit and exchanges it is one more connection. -/
theorem Exact.admit (h : Exact max s live) (hbelow : s.activeConnections < max) :
    Exact max { s with activeConnections := s.activeConnections + 1 } (.connection ::ₘ live) := by
  have hlt : s.activeConnections.toNat < max.toNat := UInt64.lt_iff_toNat_lt.1 hbelow
  have hsucc : (s.activeConnections + 1).toNat = s.activeConnections.toNat + 1 := by
    have := max.toNat_lt
    rw [UInt64.toNat_add, UInt64.toNat_one, Nat.mod_eq_of_lt (by omega)]
  have hconnections := h.connections
  refine ⟨?_, ?_, by simpa using h.single, by simpa using h.active⟩
  · simp only [Multiset.count_cons_self]
    omega
  · simp only [Multiset.count_cons_self]
    omega

/-- Dropping a connection's permit subtracts the one it was counted for, so the counter cannot wrap.
-/
theorem Exact.release (h : Exact max s (.connection ::ₘ live)) :
    Exact max { s with activeConnections := s.activeConnections - 1 } live := by
  have hconnections := h.connections
  have hbounded := h.bounded
  simp only [Multiset.count_cons_self] at hconnections hbounded
  -- The permit itself is counted, so the subtraction does not wrap.
  have hone : (1 : UInt64) ≤ s.activeConnections := by
    rw [UInt64.le_iff_toNat_le, UInt64.toNat_one]
    omega
  refine ⟨?_, by omega, by simpa using h.single, by simpa using h.active⟩
  simp only [UInt64.toNat_sub_of_le _ _ hone, UInt64.toNat_one]
  omega

/-- While no long operation runs, the flag may be set for a new one. -/
theorem Exact.begin (h : Exact max s live) (hidle : s.longOperationActive = false) :
    Exact max { s with longOperationActive := true } (.longOperation ::ₘ live) := by
  have hnone : live.count .longOperation = 0 := by
    have hne : ¬ live.count .longOperation = 1 := fun hone => by
      simp [h.active.2 hone] at hidle
    have := h.single
    omega
  refine ⟨by simpa using h.connections, by simpa using h.bounded, ?_, ?_⟩ <;> simp [hnone]

/-- Dropping the permit of the long operation clears the flag, and it was the only one. -/
theorem Exact.finish (h : Exact max s (.longOperation ::ₘ live)) :
    Exact max { s with longOperationActive := false } live := by
  have hsingle := h.single
  simp only [Multiset.count_cons_self] at hsingle
  have hnone : live.count .longOperation = 0 := by omega
  exact ⟨by simpa using h.connections, by simpa using h.bounded, by omega, by simp [hnone]⟩

/-- Every operation that is allowed keeps the agreement, whatever the other threads own. -/
theorem Exact.performs {o : Operation} {a : o.Answer} {s' : Atomics} {owned rest : Multiset Permit}
    (hallowed : Allowed max o owned) (hperforms : o.Performs s a s') (h : Exact max s (owned + rest)) :
    Exact max s' (operations.after o a owned + rest) := by
  have hsame : owned - 0 + 0 + rest = owned + rest := by simp
  have hnew (p : Permit) : owned - 0 + {p} + rest = p ::ₘ (owned + rest) := by
    rw [tsub_zero, add_right_comm, ← Multiset.singleton_add, add_comm]
  cases o with
  | loadConnections | loadLongOperation | loadShutdown =>
    obtain ⟨-, rfl⟩ := hperforms
    exact hsame ▸ h
  | call c =>
    obtain rfl : s' = s := hperforms
    exact hsame ▸ h
  | storeShutdown value =>
    obtain rfl : s' = _ := hperforms
    exact hsame ▸ ⟨h.connections, h.bounded, h.single, h.active⟩
  | compareExchangeConnections observed new =>
    cases a with
    | false =>
      obtain rfl : s' = s := hperforms
      exact hsame ▸ h
    | true =>
      obtain ⟨hbelow, rfl⟩ := hallowed
      obtain ⟨rfl, rfl⟩ := hperforms
      exact (hnew .connection).symm ▸ h.admit hbelow
  | compareExchangeLongOperation observed new =>
    cases a with
    | false =>
      obtain rfl : s' = s := hperforms
      exact hsame ▸ h
    | true =>
      obtain ⟨rfl, rfl⟩ := hallowed
      obtain ⟨hidle, rfl⟩ := hperforms
      exact (hnew .longOperation).symm ▸ h.begin hidle
  | decrementConnections =>
    obtain rfl : s' = _ := hperforms
    obtain ⟨others, rfl⟩ := Multiset.exists_cons_of_mem hallowed
    simpa [Interface.after, operations, Operation.drops, Operation.creates] using
      (Multiset.cons_add _ _ _ ▸ h).release
  | storeLongOperation value =>
    obtain ⟨rfl, hmem⟩ := hallowed
    obtain rfl : s' = _ := hperforms
    obtain ⟨others, rfl⟩ := Multiset.exists_cons_of_mem hmem
    simpa [Interface.after, operations, Operation.drops, Operation.creates] using
      (Multiset.cons_add _ _ _ ▸ h).finish

end Exact

/-! ### What the handlers keep -/

section Keeps

variable {ε ε' α β : Type} (max : UInt64)

/-- The program runs with these permits and ends as the postcondition says. -/
abbrev Owns (p : Program α) (owned : Multiset Permit) (post : α → Multiset Permit → Prop) : Prop :=
  p.Owns operations (Allowed max) owned post

/-- However the handler ends, it ends with the permits it began with. -/
def Keeps (x : Handler ε α) : Prop := ∀ m, Owns max x.run m fun _ m' => m' = m

/-- The handler reports whether it has a new permit. -/
def Acquires (permit : Permit) (x : Handler ε Bool) : Prop :=
  ∀ m, Owns max x.run m fun result m' =>
    (result = .ok true ∧ m' = permit ::ₘ m) ∨ (result = .ok false ∧ m' = m)

/-- However the handler ends, the permit is gone. -/
def Spends (permit : Permit) (x : Handler ε α) : Prop :=
  ∀ m, Owns max x.run (permit ::ₘ m) fun _ m' => m' = m

variable {max}

theorem Keeps.pure (a : α) : Keeps max (pure a : Handler ε α) := fun _ => rfl

theorem Keeps.throw (e : Exit ε) : Keeps max (throw e : Handler ε α) := fun _ => rfl

/-- A sequence of handlers that keep their permits keeps them, also when the first one exits. -/
theorem Keeps.bind {x : Handler ε α} {f : α → Handler ε β} (hx : Keeps max x)
    (hf : ∀ a, Keeps max (f a)) : Keeps max (x >>= f) := by
  intro m
  refine Prog.Owns.bind ((hx m).conseq fun result m' hm => ?_)
  subst hm
  cases result with
  | ok a => exact hf a m'
  | error e => rfl

/-- A choice keeps its permits when both branches do. -/
theorem Keeps.ite {c : Prop} [Decidable c] {x y : Handler ε α} (hx : Keeps max x) (hy : Keeps max y) :
    Keeps max (if c then x else y) := by
  split
  · exact hx
  · exact hy

/-- The operation neither creates nor drops a permit. -/
def Operation.Plain : Operation → Prop
  | loadConnections | loadLongOperation | loadShutdown | storeShutdown _ | call _ => True
  | _ => False

/-- An operation that is no permit's keeps what is owned. -/
theorem Operation.Plain.owns {o : Operation} (h : o.Plain) {owned : Multiset Permit} :
    Owns max (Prog.perform o) owned fun _ m => m = owned := by
  cases o with
  | loadConnections | loadLongOperation | loadShutdown | storeShutdown | call =>
    exact Prog.Owns.perform trivial fun a => by simp [Interface.after, operations, drops, creates]
  | _ => exact h.elim

/-- A step on the atomics that is no permit's keeps what is owned. -/
theorem Keeps.atomic {o : Operation} (h : o.Plain) : Keeps max (atomic o : Handler ε o.Answer) :=
  fun _ => Prog.Owns.bind h.owns

/-- A call into the vault or the socket keeps what is owned. -/
theorem Keeps.call (c : Call) : Keeps max (call c : Handler ε c.Result) := by
  intro m
  have hplain : (Operation.call c).Plain := trivial
  refine Prog.Owns.bind (hplain.owns.conseq fun a m' hm => ?_)
  cases a with
  | none => exact hm
  | some result => exact hm

/-- An I/O error leaves the handler with its permits. -/
theorem Keeps.callIo {ok : Handler IoError Bool} (h : Keeps max ok) (e : IoError) :
    Keeps max (callIo ok e) :=
  h.bind fun _ => .ite (.pure _) (.throw _)

/-- An error of the vault leaves the handler with its permits. -/
theorem Keeps.callVault {result : Handler VaultError (Except VaultError α)} (h : Keeps max result) :
    Keeps max (callVault result) := by
  refine h.bind fun result => ?_
  cases result with
  | ok a => exact .pure a
  | error e => exact .throw _

/-- Catching an error keeps what is owned. -/
theorem Keeps.attempt {x : Handler ε α} (h : Keeps max x) :
    Keeps max (attempt x : Handler ε' (Except ε α)) := by
  intro m
  refine Prog.Owns.bind ((h m).conseq fun result m' hm => ?_)
  rcases result with (_ | e) | a <;> exact hm

/-- A loop whose rounds keep the permits until one of them ends it. -/
theorem owns_repeatUntil {round : Handler ε (Option α)} {m : Multiset Permit}
    {post : Except (Exit ε) α → Multiset Permit → Prop}
    (h : Owns max round.run m fun result m' =>
      match result with
      | .ok none => m' = m
      | .ok (some a) => post (.ok a) m'
      | .error e => post (.error e) m') :
    Owns max (repeatUntil round).run m post := by
  refine ⟨(· = m), rfl, fun m' hm' => ?_⟩
  subst hm'
  refine Prog.Owns.bind (h.conseq fun result m'' hresult => ?_)
  rcases result with e | _ | a <;> exact hresult

/-- A loop keeps its permits when every round does, however many rounds it makes. -/
theorem Keeps.repeatUntil {round : Handler ε (Option α)} (h : Keeps max round) :
    Keeps max (repeatUntil round) := by
  refine fun m => owns_repeatUntil ((h m).conseq fun result m' hm => ?_)
  rcases result with e | _ | a <;> exact hm

/-! #### Permits -/

/-- Dropping a permit gives up that permit and no other. -/
theorem Permit.owns_drop (permit : Permit) (m : Multiset Permit) :
    Owns max permit.drop (permit ::ₘ m) fun _ m' => m' = m := by
  cases permit with
  | connection =>
    exact Prog.Owns.perform (Multiset.mem_cons_self _ _) fun _ => by
      simp [Interface.after, operations, Operation.drops, Operation.creates]
  | longOperation =>
    exact Prog.Owns.perform ⟨rfl, Multiset.mem_cons_self _ _⟩ fun _ => by
      simp [Interface.after, operations, Operation.drops, Operation.creates]

/-- A permit in a local variable is dropped on every way out. -/
theorem Spends.holding {x : Handler ε α} (h : Keeps max x) (permit : Permit) :
    Spends max permit (holding permit x) := by
  intro m
  refine Prog.Owns.bind ((h _).conseq fun result m' hm' => ?_)
  subst hm'
  exact Prog.Owns.bind ((permit.owns_drop m).conseq fun _ _ hm => hm)

/-- What follows a handler that spends its permit has it no more. -/
theorem Spends.bind {permit : Permit} {x : Handler ε α} {f : α → Handler ε β}
    (hx : Spends max permit x) (hf : ∀ a, Keeps max (f a)) : Spends max permit (x >>= f) := by
  intro m
  refine Prog.Owns.bind ((hx m).conseq fun result m' hm => ?_)
  subst hm
  cases result with
  | ok a => exact hf a m'
  | error e => rfl

/-- `if let Some(permit) = …`. -/
theorem Acquires.keeps {permit : Permit} {acquire : Handler ε Bool} {x y : Handler ε α}
    (hacquire : Acquires max permit acquire) (hx : Spends max permit x) (hy : Keeps max y) :
    Keeps max (do if ← acquire then x else y) := by
  intro m
  refine Prog.Owns.bind ((hacquire m).conseq fun result m' hresult => ?_)
  rcases hresult with ⟨rfl, rfl⟩ | ⟨rfl, rfl⟩
  · exact hx m
  · exact hy m'

/-- An atomic access and what follows it. -/
theorem owns_atomic_bind {o : Operation} {f : o.Answer → Handler ε α} {m : Multiset Permit}
    {post : Except (Exit ε) α → Multiset Permit → Prop} (hallowed : Allowed max o m)
    (hf : ∀ a, Owns max (f a).run (m - o.drops a + o.creates a) post) :
    Owns max (atomic o >>= f).run m post :=
  ⟨hallowed, hf⟩

/-- The long operation's permit is acquired by one exchange of the flag. -/
theorem acquires_tryAcquireLongOperation :
    Acquires max .longOperation (tryAcquireLongOperation : Handler ε Bool) := by
  refine fun m => ⟨⟨rfl, rfl⟩, fun a => ?_⟩
  cases a with
  | false => exact .inr ⟨rfl, by simp [Interface.after, operations, Operation.drops, Operation.creates]⟩
  | true =>
    refine .inl ⟨rfl, ?_⟩
    simp [Interface.after, operations, Operation.drops, Operation.creates, add_comm m]

/-- A connection's permit is acquired by the loop that exchanges the counter. -/
theorem acquires_tryAcquireConnection (config : Config) :
    Acquires config.maxConnections .connection (tryAcquireConnection config : Handler ε Bool) := by
  refine fun m => owns_repeatUntil (owns_atomic_bind trivial fun observed => ?_)
  by_cases hfull : observed ≥ config.maxConnections
  · rw [if_pos hfull]
    exact .inr ⟨rfl, by simp [Operation.drops, Operation.creates]⟩
  · rw [if_neg hfull]
    refine owns_atomic_bind ⟨UInt64.not_le.1 hfull, rfl⟩ fun exchanged => ?_
    cases exchanged with
    | false => exact show _ = m by simp [Operation.drops, Operation.creates]
    | true =>
      refine .inl ⟨rfl, ?_⟩
      simp [Operation.drops, Operation.creates, add_comm m]

/-! #### The handlers -/

theorem Keeps.writeResponse (response : Response) : Keeps max (writeResponse response) :=
  .callIo (.call _) _

theorem Keeps.writeStreamResponse (response : Response) : Keeps max (writeStreamResponse response) :=
  .callIo (.call _) _

/-- A call behind the vault's mutex keeps its permits when the operation does. -/
theorem Keeps.withVault {operation : Handler VaultError Success} (h : Keeps max operation) :
    Keeps max (withVault operation : Handler ε Response) :=
  .bind (.call _) fun _ => .ite (.bind h.attempt fun _ => .pure _) (.pure _)

/-- A call behind the vault's mutex keeps its permits when the operation does. -/
theorem Keeps.withVaultResult {operation : Handler VaultError UInt64} (h : Keeps max operation) :
    Keeps max (withVaultResult operation) :=
  .bind (.call _) fun _ => .ite h (.throw _)

section

variable (config : Config) (prim : Primitives)

/-- A call with the configured witness keeps its permits when the operation does. -/
theorem Keeps.withWitness {operation : Handler VaultError Success} (h : Keeps max operation) :
    Keeps max (withWitness config operation : Handler ε Response) := by
  unfold Admission.withWitness
  cases config.witness with
  | none => exact .pure _
  | some _ => exact .bind (.call _) fun _ => .ite h.withVault (.pure _)

/-- A call with the configured witness keeps its permits when the operation does. -/
theorem Keeps.withWitnessResult {operation : Handler VaultError UInt64} (h : Keeps max operation) :
    Keeps max (withWitnessResult config operation) := by
  unfold Admission.withWitnessResult
  cases config.witness with
  | none => exact .throw _
  | some _ => exact .bind (.call _) fun _ => .ite h.withVaultResult (.throw _)

theorem keeps_status : Keeps max (status : Handler ε Response) :=
  .bind (.atomic trivial) fun _ => .ite (.pure _) <|
    .bind (.call _) fun _ => .ite
      (.bind (.call _) fun _ => .bind (.call _) fun _ => .bind (.call _) fun _ =>
        .ite (.bind (.call _) fun _ => .pure _) (.pure _))
      (.pure _)

/-- An unlock needs no permit, with or without a witness. -/
theorem keeps_unlock (passphrase : Text) : Keeps max (unlock config passphrase : Handler ε Response) :=
  .ite
    (.withWitness config <| .bind (.callVault (.call _)) fun _ =>
      .bind (.callVault (.call _)) fun _ => .bind (.callVault (.call _)) fun _ => .pure _)
    (.withVault <| .bind (.callVault (.call _)) fun _ => .pure _)

/-- The body of `verify`, which runs under the permit. -/
theorem keeps_verify : Keeps max (verify config : Handler ε Response) := by
  refine acquires_tryAcquireLongOperation.keeps (.holding (.bind (.attempt ?_) fun result => ?_) _)
    (.pure _)
  · exact .ite (.withWitnessResult config (.callVault (.call _)))
      (.withVaultResult (.callVault (.call _)))
  · cases result with
    | ok activeObjects =>
      exact .bind (.call _) fun _ => .ite (.bind (.call _) fun _ => .pure _) (.pure _)
    | error e => exact .pure _

theorem keeps_backup (destination : Text) : Keeps max (backup destination : Handler ε Response) :=
  acquires_tryAcquireLongOperation.keeps
    (.holding (.withVault (.bind (.callVault (.call _)) fun _ => .pure _)) _) (.pure _)

theorem keeps_put (objectId plaintextB64 : Text) :
    Keeps max (put config prim objectId plaintextB64 : Handler ε Response) := by
  unfold put
  cases parseRequestObjectId objectId with
  | error response => exact .pure _
  | ok objectId =>
    cases prim.base64Decode plaintextB64 with
    | none => exact .pure _
    | some plaintext =>
      exact .ite (.withWitness config (.bind (.callVault (.call _)) fun _ => .pure _))
        (.withVault (.bind (.callVault (.call _)) fun _ => .pure _))

theorem keeps_get (objectId : Text) : Keeps max (get config prim objectId : Handler ε Response) := by
  unfold get
  cases parseRequestObjectId objectId with
  | error response => exact .pure _
  | ok objectId =>
    exact .ite
      (.withWitness config (.bind (.callVault (.call _)) fun _ =>
        .bind (.callVault (.call _)) fun _ => .pure _))
      (.withVault (.bind (.callVault (.call _)) fun _ => .pure _))

/-- An upload keeps its permits, whichever item of the stream ends it. -/
theorem keeps_putStream (objectId : Text) (items : List StreamItem) :
    Keeps max (putStream objectId items) := by
  refine acquires_tryAcquireLongOperation.keeps (.holding ?_ _) (.writeResponse _)
  cases parseRequestObjectId objectId with
  | error response => exact .writeResponse _
  | ok objectId =>
    refine .bind (.writeResponse _) fun _ => .bind (.call _) fun _ => .ite ?_ (.writeStreamResponse _)
    refine .bind (.call _) fun result => ?_
    cases result with
    | ok version => exact .writeResponse _
    | error e => exact .writeStreamResponse _

/-- A download keeps its permits, whether it is answered or breaks off. -/
theorem keeps_getStream (objectId : Text) : Keeps max (getStream objectId) := by
  refine acquires_tryAcquireLongOperation.keeps (.holding ?_ _) (.writeResponse _)
  cases parseRequestObjectId objectId with
  | error response => exact .writeResponse _
  | ok objectId =>
    refine .bind (.writeResponse _) fun _ => .bind (.call _) fun _ => .ite ?_ (.writeStreamResponse _)
    refine .bind (.call _) fun result => ?_
    cases result with
    | ok version => exact .callIo (.call _) _
    | error e => exact .writeStreamResponse _

/-- Every request is dispatched without a permit left over. -/
theorem keeps_dispatch (request : Request) :
    Keeps max (dispatch config prim request : Handler ε Response) := by
  refine .bind (.atomic trivial) fun _ => .ite (.pure _) ?_
  cases request with
  | status => exact keeps_status
  | unlock passphrase => exact keeps_unlock config passphrase
  | lock => exact .withVault (.bind (.call _) fun _ => .pure _)
  | put objectId plaintextB64 => exact keeps_put config prim objectId plaintextB64
  | get objectId => exact keeps_get config prim objectId
  | putStream | getStream => exact .pure _
  | rotatePassphrase | checkpoint => exact .withVault (.bind (.callVault (.call _)) fun _ => .pure _)
  | verify => exact keeps_verify config
  | backup destination => exact keeps_backup destination
  | shutdown => exact .ite (.bind (.atomic trivial) fun _ => .pure _) (.pure _)

/-- A connection is served to its end without a permit left over. -/
theorem keeps_serveStream : Keeps max (serveStream config prim) := by
  refine .bind (.callIo (.call _) _) fun _ => .bind (.callIo (.call _) _) fun _ =>
    .bind (.call _) fun _ => .ite (.bind (.call _) fun request => ?_) (.writeResponse _)
  cases request with
  | none => exact .writeResponse _
  | some request =>
    cases request with
    | putStream objectId items => exact keeps_putStream objectId items
    | getStream objectId => exact keeps_getStream objectId
    | _ => exact .bind (keeps_dispatch config prim _) fun _ => .writeResponse _

/-- A connection that is turned away never had a permit. -/
theorem keeps_rejectOverloaded : Keeps max (rejectOverloaded : Handler ε Unit) :=
  .bind (.call _) fun _ => .bind (.call _) fun _ => .pure _

/-- The thread of a connection ends without the permit it is given. -/
theorem owns_connectionThread :
    Owns max (connectionThread config prim) {.connection} fun _ m => m = 0 :=
  Prog.Owns.bind ((Spends.holding (keeps_serveStream config prim) .connection 0).conseq fun _ _ h => h)

/-- The permit goes to the connection's thread, or is dropped where no thread can be started. -/
theorem spends_spawnConnection :
    Spends max .connection (spawnConnection config prim : Handler ε Unit) := by
  refine fun m => owns_atomic_bind trivial fun started => ?_
  rw [show Permit.connection ::ₘ m - Operation.drops _ started + Operation.creates _ started =
    Permit.connection ::ₘ m by simp [Operation.drops, Operation.creates]]
  rcases started with _ | _ | _
  · exact Spends.holding (.throw .panic) .connection m
  · exact Spends.holding (.throw .panic) .connection m
  · exact ⟨by simp, owns_connectionThread config prim, by simp [Prog.Owns, pure]⟩

/-- The accept loop owns no permit between two connections. -/
theorem keeps_serve : Keeps config.maxConnections (serve config prim) := by
  refine .bind (.callIo (.call _) _) fun _ => .bind (.callIo (.call _) _) fun _ =>
    .bind (.repeatUntil ?_) fun _ => .callIo (.call _) _
  refine .bind (.atomic trivial) fun _ => .ite (.pure _) (.bind (.call _) fun accepted => ?_)
  cases accepted with
  | stream =>
    exact (acquires_tryAcquireConnection config).keeps
      ((spends_spawnConnection config prim).bind fun _ => .pure _)
      (keeps_rejectOverloaded.bind fun _ => .pure _)
  | wouldBlock => exact .bind (.call _) fun _ => .pure _
  | interrupted => exact .pure _
  | failed => exact .bind (.throw _) fun _ => .pure _

end

end Keeps

/-- What other threads of the process can call. -/
inductive Entry (config : Config) (prim : Primitives) : Program Unit → Prop
  | serve : Entry config prim (do let _ ← (serve config prim).run)
  | serveStream : Entry config prim (do let _ ← (serveStream config prim).run)
  | shutdownRequested : Entry config prim (do let _ ← Prog.perform .loadShutdown)

/-- The states that the threads of a daemon can reach from the one that `Daemon::open` builds. -/
abbrev Reachable (config : Config) (prim : Primitives) :
    Pool Operation Operation.Answer Permit Atomics → Prop :=
  Pool.Reachable operations (Entry config prim) Atomics.new

/-! ### Every reachable state -/

section

variable {config : Config} {prim : Primitives}

/-- A thread from outside owns no permit, and ends without one. -/
theorem owns_of_entry {p : Program Unit} (h : Entry config prim p) :
    Owns config.maxConnections p 0 fun _ m => m = 0 := by
  cases h with
  | serve => exact Prog.Owns.bind ((keeps_serve config prim 0).conseq fun _ _ hm => hm)
  | serveStream => exact Prog.Owns.bind ((keeps_serveStream config prim 0).conseq fun _ _ hm => hm)
  | shutdownRequested =>
    have hplain : Operation.loadShutdown.Plain := trivial
    exact Prog.Owns.bind (hplain.owns.conseq fun _ _ hm => hm)

variable {pool : Pool Operation Operation.Answer Permit Atomics}

/-- In every reachable state the counter and the flag agree with the live permits. -/
theorem Reachable.kept (h : Reachable config prim pool) :
    pool.Kept operations (Allowed config.maxConnections) (Exact config.maxConnections) :=
  Pool.Reachable.kept Exact.performs (fun _ => owns_of_entry) exact_new h

/-- The number of live permits of a kind. -/
def live (pool : Pool Operation Operation.Answer Permit Atomics) (permit : Permit) : ℕ :=
  pool.owned.count permit

/-- In every state that any number of threads can reach, in any interleaving: the counter is the number of live
connection permits, which is at most the limit; at most one long operation permit is live, and the flag says
whether one is. A thread about to count down finds a positive counter, one about to clear the flag finds it set,
and a thread that has ended, on whichever path, has dropped all its permits. -/
theorem admission_exact (h : Reachable config prim pool) :
    pool.shared.activeConnections.toNat = live pool .connection ∧
      live pool .connection ≤ config.maxConnections.toNat ∧
      live pool .longOperation ≤ 1 ∧
      (pool.shared.longOperationActive = true ↔ live pool .longOperation = 1) ∧
      ∀ t ∈ pool.threads,
        (∀ next, t.prog = .act .decrementConnections next → 0 < pool.shared.activeConnections.toNat) ∧
        (∀ value next, t.prog = .act (.storeLongOperation value) next →
          value = false ∧ pool.shared.longOperationActive = true) ∧
        (t.prog = .ret () → t.owned = 0) := by
  obtain ⟨hexact, hhonest⟩ := h.kept
  refine ⟨hexact.connections, hexact.bounded, hexact.single, hexact.active, fun t ht => ?_⟩
  have hthread := hhonest t ht
  have hle : t.owned ≤ pool.owned := Pool.owned_le ht
  unfold Thread.Honest at hthread
  refine ⟨fun next hprog => ?_, fun value next hprog => ?_, fun hprog => ?_⟩
  all_goals rw [hprog] at hthread
  · rw [hexact.connections]
    exact Multiset.count_pos.2 (Multiset.mem_of_le hle hthread.1)
  · obtain ⟨rfl, hmem⟩ := hthread.1
    have hpos := Multiset.count_pos.2 (Multiset.mem_of_le hle hmem)
    have hsingle := hexact.single
    exact ⟨rfl, hexact.active.2 (by omega)⟩
  · exact hthread

end

/-- A daemon that admits one connection. -/
def oneConnection : Config := { witness := none, allowShutdown := false, maxConnections := 1 }

/-- Surroundings in which the socket works and every client asks for a verification, which panics. -/
def obliging (s : Atomics) : (o : Operation) → o.Answer × Atomics
  | .loadConnections => (s.activeConnections, s)
  | .compareExchangeConnections observed new =>
    if s.activeConnections = observed then (true, { s with activeConnections := new }) else (false, s)
  | .decrementConnections => ((), { s with activeConnections := s.activeConnections - 1 })
  | .loadLongOperation => (s.longOperationActive, s)
  | .compareExchangeLongOperation observed new =>
    if s.longOperationActive = observed then (true, { s with longOperationActive := new }) else (false, s)
  | .storeLongOperation value => ((), { s with longOperationActive := value })
  | .loadShutdown => (s.shutdown, s)
  | .storeShutdown value => ((), { s with shutdown := value })
  | .call .accept => (some .stream, s)
  | .call .readRequest => (some (some .verify), s)
  | .call .bindSocket | .call .setNonblocking | .call .startThread | .call .setReadTimeout
  | .call .setWriteTimeout | .call .authorize | .call (.writeFrame _) => (some true, s)
  | .call _ => (none, s)

/-- The obliging scheduler performs each operation as the atomics do. -/
theorem obliging_performs (s : Atomics) (o : Operation) : o.Performs s (obliging s o).1 (obliging s o).2 := by
  cases o with
  | loadConnections | loadLongOperation | loadShutdown => exact ⟨rfl, rfl⟩
  | decrementConnections | storeLongOperation | storeShutdown => rfl
  | compareExchangeConnections observed new | compareExchangeLongOperation observed new =>
    simp only [obliging]
    split
    · next h => exact ⟨h, rfl⟩
    · rfl
  | call c => cases c <;> rfl

/-- The state after a schedule of the one thread that runs `serve` and those it starts. -/
def serving (schedule : List ℕ) : Pool Operation Operation.Answer Permit Atomics :=
  schedule.foldl (Pool.next operations obliging)
    ⟨Atomics.new, [⟨0, do let _ ← (serve oneConnection Primitives.checksum).run⟩]⟩

/-- Whatever the schedule, the sample daemon is in a reachable state. -/
theorem reachable_serving (schedule : List ℕ) :
    Reachable oneConnection Primitives.checksum (serving schedule) :=
  Pool.Reachable.foldl_next obliging_performs (.tail .refl (.enter .serve)) schedule

/-- `serve` takes ten steps to admit a connection and start its thread, which takes six to begin a
verification. -/
def busy : Pool Operation Operation.Answer Permit Atomics :=
  serving (List.replicate 10 0 ++ List.replicate 6 1)

/-- The sample daemon with one connection and one long operation under way. -/
theorem admission_exact_busy :
    live busy .connection = 1 ∧ live busy .longOperation = 1 ∧
      busy.shared.activeConnections.toNat = 1 ∧ busy.shared.longOperationActive = true := by
  have hconnection : live busy .connection = 1 := by decide +kernel
  have hlong : live busy .longOperation = 1 := by decide +kernel
  obtain ⟨hcounter, -, -, hflag, -⟩ := admission_exact (reachable_serving _ : Reachable _ _ busy)
  exact ⟨hconnection, hlong, hcounter.trans hconnection, hflag.2 hlong⟩

-- The verification panics; unwinding drops both permits, and the thread ends.
example : (serving (List.replicate 10 0 ++ List.replicate 10 1)).shared = Atomics.new := by
  decide +kernel

end Admission

end Vlt1

import Vlt1.Vault.Frame

/-!
# The daemon

One process holds the vault and serves requests from a local socket. Requests run one at a time
under the vault mutex; what concurrency can do to a request is to turn it away, and is part of its
`Arrival`. With a configured witness the daemon runs in the strict profile: unlocking first completes
staged publications and compares every active object with the witness.

`daemonStep` is one step of a daemon run: a request, the death or the restart of the process, time
passing outside, or another program replacing the database file. Within a request the process dies before a
storage step or while it waits for the witness (`Fault`); a death behind the last commit is a death after the
request, so the answer of that request counts as sent.
-/

namespace Vlt1

open Effect

/-! ### Messages -/

/-- A data item or a marker of a binary stream. -/
inductive StreamItem where
  | data (bytes : Bytes)
  | finish
  | error
deriving DecidableEq

/-- A request frame. A streamed upload carries the items the client sends after `stream_ready`; the
connection ends after the last. -/
inductive Request where
  | status
  | unlock (passphrase : Text)
  | lock
  | put (objectId plaintextB64 : Text)
  | putStream (objectId : Text) (items : List StreamItem)
  | get (objectId : Text)
  | getStream (objectId : Text)
  | rotatePassphrase (currentPassphrase replacementPassphrase : Text)
  | verify
  | checkpoint
  | backup (destination : Text)
  | shutdown
deriving DecidableEq

/-- Successful result payloads. -/
inductive Success where
  | empty
  | status (format : String) (vaultId : Text) (lifecycle : VaultStatus) (recovery : String)
      (verifiedActiveObjects : Option UInt64)
  | streamReady
  | published (versionId : Text)
  | plaintext (plaintextB64 : Text)
  | verified (activeObjects : UInt64)
  | backup (format databaseSha256 : Text) (databaseBytes : UInt64)
deriving DecidableEq

/-- Stable error categories. -/
inductive ErrorCode where
  | protocol
  | unauthorized
  | locked
  | notFound
  | invalidInput
  | verification
  | storage
  | witnessUnavailable
  | witnessConflict
  | overloaded
  | policy
  | internal
deriving DecidableEq

/-- One protocol response. -/
inductive Response where
  | ok (result : Success)
  | error (code : ErrorCode) (message : String)
deriving DecidableEq

/-- What the daemon writes to the client. -/
inductive Frame where
  | response (r : Response)
  /-- The plaintext bytes of a download that went out as data items. -/
  | data (bytes : Bytes)
  | streamEnd
  | streamError (r : Response)
deriving DecidableEq

/-- The safe error category of a vault error. -/
def mapVaultError : VaultError → Response
  | .locked => .error .locked "vault is locked"
  | .notFound => .error .notFound "requested object was not found"
  | .invalidInput _ => .error .invalidInput "request input is invalid"
  | .unlockFailed | .authentication | .invariant _ =>
    .error .verification "vault verification failed"
  | .invalidFormat _ => .error .verification "vault format verification failed"
  | .storage => .error .storage "vault storage operation failed"
  | .witnessUnavailable => .error .witnessUnavailable "freshness witness is unavailable"
  | .witnessConflict =>
    .error .witnessConflict "freshness witness state conflicts with local vault state"

/-- `overloaded_response` of a busy daemon. -/
def overloadedResponse : Response := .error .overloaded "daemon long operation is in progress"

/-- The daemon's parser of an object identifier, which also takes uppercase digits. -/
def parseRequestObjectId (text : Text) : Except Response ObjectId :=
  if text.length = 32 ∧ text.all isAsciiHexdigit then
    match (hexDecode text).bind (Block.ofBytes? 16) with
    | some bytes => .ok ⟨bytes⟩
    | none => .error (.error .invalidInput "object identifier is malformed")
  else .error (.error .invalidInput "object identifier must be 32 hexadecimal characters")

/-- The reader the daemon puts over the items of an upload. -/
def streamReader : List StreamItem → Reader
  | [] => [.failed]
  | .data [] :: rest => streamReader rest
  | .data bytes :: rest => .data bytes :: streamReader rest
  | .finish :: _ => []
  | .error :: _ => [.failed]

/-! ### The daemon's state -/

/-- The policy of a daemon. -/
structure DaemonConfig where
  /-- The trust anchors of the strict profile. -/
  witness : Option HttpsWitnessProvider
  allowShutdown : Bool
deriving DecidableEq

/-- How a request meets the daemon's other threads and its socket. -/
structure Arrival where
  /-- The peer has the allowed user. -/
  authorized : Bool := true
  /-- Another thread runs a long operation. -/
  longOperationActive : Bool := false
  witnessMutexPoisoned : Bool := false
  vaultMutexPoisoned : Bool := false
  recoveryMutexPoisoned : Bool := false
  /-- The `stream_ready` response reaches the client. -/
  readyWritten : Bool := true
deriving DecidableEq

/-- A daemon and its surroundings. -/
structure DaemonState (ω : Type) where
  world : World ω
  /-- The process is up. -/
  running : Bool
  /-- The count of the last verification. -/
  verifiedActiveObjects : Option UInt64
  shutdown : Bool

/-- A computation of the daemon. -/
abbrev DaemonOp (ω α : Type) := Op VaultError (DaemonState ω) α

/-- Every error of the vault is answered with an error. -/
theorem mapVaultError_eq_error (e : VaultError) :
    ∃ code message, mapVaultError e = .error code message := by
  cases e <;> exact ⟨_, _, rfl⟩

section

variable {ω : Type}

/-- Run a vault operation, keeping its result. -/
def runVault {α : Type} (operation : VaultOp ω α) : DaemonOp ω (Except VaultError α) :=
  fun s =>
    match operation s.world with
    | .ok a w => .ok (.ok a) { s with world := w }
    | .failed e w => .ok (.error e) { s with world := w }
    | .crashed w => .crashed { s with world := w }

/-- The response to an operation's result. -/
def respond : Except VaultError Success → Response
  | .ok result => .ok result
  | .error e => mapVaultError e

/-- `with_vault`. -/
def withVault (a : Arrival) (operation : VaultOp ω Success) : DaemonOp ω Response :=
  if a.vaultMutexPoisoned then return .error .internal "daemon state is unavailable"
  else return respond (← runVault operation)

variable [Machine ω] [Transport ω] (prim : Primitives) (config : DaemonConfig)

/-- `with_witness`. -/
def withWitness (a : Arrival) (operation : WitnessProvider ω → VaultOp ω Success) :
    DaemonOp ω Response :=
  match config.witness with
  | none => return .error .policy "external witness is not configured"
  | some witness =>
    if a.witnessMutexPoisoned then return .error .internal "witness state is unavailable"
    else withVault a (operation (witness.provider prim))

/-- Report non-secret metadata. -/
def serveStatus (a : Arrival) : DaemonOp ω Response := do
  let s ← Op.get
  if a.longOperationActive then return overloadedResponse
  if a.vaultMutexPoisoned then return .error .internal "daemon state is unavailable"
  if a.recoveryMutexPoisoned then return .error .internal "daemon recovery state is unavailable"
  return .ok (.status "VLT/1" s.world.vaultId.toHex s.world.vault.status "startup_integrity_ok"
    s.verifiedActiveObjects)

/-- The strict unlock: unlock, complete staged publications, verify against the witness. -/
def strictUnlock (passphrase : Text) (provider : WitnessProvider ω) : VaultOp ω Success := do
  unlock prim passphrase
  let _ ← recoverPendingWitnessPublications prim provider
  let _ ← verifyActiveObjectsWithWitness prim provider
  return .empty

/-- Unlock the vault. -/
def serveUnlock (a : Arrival) (passphrase : Text) : DaemonOp ω Response :=
  if config.witness.isSome then withWitness prim config a (strictUnlock prim passphrase)
  else withVault a do
    unlock prim passphrase
    return .empty

/-- The verification a `verify` request runs: `with_witness_result` or `with_vault_result`. -/
def verifyResult (a : Arrival) : VaultOp ω UInt64 :=
  match config.witness with
  | some witness =>
    if a.witnessMutexPoisoned then Op.fail .storage
    else if a.vaultMutexPoisoned then Op.fail .storage
    else verifyActiveObjectsWithWitness prim (witness.provider prim)
  | none => if a.vaultMutexPoisoned then Op.fail .storage else verifyActiveObjects prim

/-- Verify all active objects and remember the count. -/
def serveVerify (a : Arrival) : DaemonOp ω Response := do
  if a.longOperationActive then return overloadedResponse
  match ← runVault (verifyResult prim config a) with
  | .ok activeObjects =>
    if a.recoveryMutexPoisoned then
      return .error .internal "daemon recovery state is unavailable"
    Op.modify fun s => { s with verifiedActiveObjects := some activeObjects }
    return .ok (.verified activeObjects)
  | .error e => return mapVaultError e

/-- Create an online backup. -/
def serveBackup (a : Arrival) (destination : Text) : DaemonOp ω Response := do
  if a.longOperationActive then return overloadedResponse
  withVault a do
    let manifest ← backupTo destination
    return .backup manifest.format manifest.databaseSha256 manifest.databaseBytes

/-- Publish a buffered plaintext, through the witness in the strict profile. -/
def servePut (a : Arrival) (objectId plaintextB64 : Text) : DaemonOp ω Response :=
  match parseRequestObjectId objectId with
  | .error response => return response
  | .ok objectId =>
    match prim.base64Decode plaintextB64 with
    | none => return .error .invalidInput "plaintext is not valid base64"
    | some plaintext =>
      if config.witness.isSome then
        withWitness prim config a fun provider => do
          let version ← putWithWitness prim objectId plaintext provider
          return .published version.toHex
      else withVault a do
        let version ← put prim objectId plaintext
        return .published version.toHex

/-- Return a plaintext, after a strict sweep in the strict profile. -/
def serveGet (a : Arrival) (objectId : Text) : DaemonOp ω Response :=
  match parseRequestObjectId objectId with
  | .error response => return response
  | .ok objectId =>
    if config.witness.isSome then
      withWitness prim config a fun provider => do
        let _ ← verifyActiveObjectsWithWitness prim provider
        let plaintext ← get prim objectId
        return .plaintext (prim.base64Encode plaintext)
    else withVault a do
      let plaintext ← get prim objectId
      return .plaintext (prim.base64Encode plaintext)

/-- `put_stream`: the upload is published by the streaming path, with or without a witness. -/
def putStream (a : Arrival) (objectId : Text) (items : List StreamItem) :
    DaemonOp ω (List Frame) :=
  if a.longOperationActive then return [.response overloadedResponse]
  else
    match parseRequestObjectId objectId with
    | .error response => return [.response response]
    | .ok objectId =>
      if a.readyWritten = false then return []
      else if a.vaultMutexPoisoned then
        return [.response (.ok .streamReady),
          .streamError (.error .internal "daemon state is unavailable")]
      else do
        match ← runVault (putFromReader prim objectId (streamReader items)) with
        | .ok version =>
          return [.response (.ok .streamReady), .response (.ok (.published version.toHex))]
        | .error e => return [.response (.ok .streamReady), .streamError (mapVaultError e)]

/-- `get_stream`: the download is written by `get_to_writer`, with or without a witness. -/
def getStream (a : Arrival) (objectId : Text) : DaemonOp ω (List Frame) :=
  if a.longOperationActive then return [.response overloadedResponse]
  else
    match parseRequestObjectId objectId with
    | .error response => return [.response response]
    | .ok objectId =>
      if a.readyWritten = false then return []
      else if a.vaultMutexPoisoned then
        return [.response (.ok .streamReady),
          .streamError (.error .internal "daemon state is unavailable")]
      else do
        Op.modify fun s => { s with world := { s.world with sink := [] } }
        let result ← runVault (getToWriter prim objectId .stream)
        let written := (← Op.get).world.sink
        match result with
        | .ok () => return [.response (.ok .streamReady), .data written, .streamEnd]
        | .error e =>
          return [.response (.ok .streamReady), .data written, .streamError (mapVaultError e)]

/-- `dispatch`, for the requests with one response. -/
def dispatch (a : Arrival) (request : Request) : DaemonOp ω Response := do
  if a.longOperationActive ∧ request ≠ .shutdown then return overloadedResponse
  match request with
  | .status => serveStatus a
  | .unlock passphrase => serveUnlock prim config a passphrase
  | .lock => withVault a do
    lock
    return .empty
  | .put objectId plaintextB64 => servePut prim config a objectId plaintextB64
  | .get objectId => serveGet prim config a objectId
  | .putStream _ _ | .getStream _ =>
    return .error .protocol "streaming request was not handled as a stream"
  | .rotatePassphrase current replacement => withVault a do
    rotatePassphrase prim current replacement
    return .empty
  | .verify => serveVerify prim config a
  | .checkpoint => withVault a do
    fullCheckpoint
    return .empty
  | .backup destination => serveBackup a destination
  | .shutdown =>
    if config.allowShutdown then
      Op.modify fun s => { s with shutdown := true }
      return .ok .empty
    else return .error .policy "daemon shutdown is disabled by policy"

/-- One exchange with a client; `none` is a frame that is not a request. -/
def serveStream (a : Arrival) (request : Option Request) : DaemonOp ω (List Frame) :=
  if a.authorized then
    match request with
    | some (.putStream objectId items) => putStream prim a objectId items
    | some (.getStream objectId) => getStream prim a objectId
    | some request => return [.response (← dispatch prim config a request)]
    | none => return [.response (.error .protocol "invalid local protocol request")]
  else return [.response (.error .unauthorized "local peer is not authorized")]

/-! ### Runs -/

/-- What can happen to a daemon. -/
inductive DaemonInput where
  | request (a : Arrival) (request : Option Request)
  /-- The process dies between two requests. -/
  | kill
  /-- The process is started again. -/
  | start
  /-- Time passes outside. -/
  | elapse
  /-- Another program replaces the database file. -/
  | replaceDatabase (db : Database)

/-- The process is gone, and the Root Key with it. -/
def DaemonState.down (s : DaemonState ω) : DaemonState ω :=
  { s with running := false, world := s.world.locked, verifiedActiveObjects := none }

/-- One step of a daemon run. -/
def daemonStep (s : DaemonState ω) : DaemonInput → List Frame × DaemonState ω
  | .request a request =>
    if s.running then
      match serveStream prim config a request s with
      | .ok frames s' => (frames, s')
      | .failed _ s' => ([], s')
      | .crashed s' => ([], s'.down)
    else ([], s)
  | .kill => ([], s.down)
  | .start =>
    if s.running then ([], s)
    else
      match openVault prim s.world with
      | .ok _ w => ([], ⟨w, true, none, false⟩)
      | .failed _ w => ([], { s with world := w })
      | .crashed w => ([], { s with world := w })
  | .elapse => ([], { s with world := { s.world with outside := Machine.elapse s.world.outside } })
  | .replaceDatabase db => ([], { s with world := { s.world with db := db } })

end

/-! ### What every request keeps -/

section Assertions

variable {ω : Type} {I J : World ω → Prop}

/-- A call of the vault survives as its operation does. -/
theorem survives_runVault {α : Type} {operation : VaultOp ω α} (h : Op.Survives I J operation) :
    Op.Survives (fun s => I s.world) (fun s => J s.world) (runVault operation) := by
  intro s hs
  have hw := h s.world hs
  unfold runVault
  cases hout : operation s.world <;> (rw [hout] at hw; exact hw)

/-- A call behind the mutex survives as its operation does. -/
theorem survives_withVault (a : Arrival) {operation : VaultOp ω Success}
    (h : Op.Survives I J operation) :
    Op.Survives (fun s => I s.world) (fun s => J s.world) (withVault a operation) :=
  .ite (fun _ => .pure _) fun _ => .bind (survives_runVault h) fun _ => .pure _

variable [Transport ω] (prim : Primitives) (config : DaemonConfig)

/-- A call with the configured witness survives as its operation does. -/
theorem survives_withWitness (a : Arrival) {operation : WitnessProvider ω → VaultOp ω Success}
    (h : ∀ p : HttpsWitnessProvider, config.witness = some p →
      Op.Survives I J (operation (p.provider prim))) :
    Op.Survives (fun s => I s.world) (fun s => J s.world) (withWitness prim config a operation) := by
  unfold withWitness
  split
  · exact .pure _
  · rename_i p hp
    exact .ite (fun _ => .pure _) fun _ => survives_withVault a (h p hp)

variable [Machine ω]

/-- The operations with which a request changes the vault keep an assertion. -/
structure Request.Survives (I J : World ω → Prop) (request : Request) : Prop where
  unlock : ∀ passphrase, request = .unlock passphrase → config.witness = none →
    Op.Survives I J (Vlt1.unlock prim passphrase)
  strictUnlock : ∀ passphrase, request = .unlock passphrase → ∀ p, config.witness = some p →
    Op.Survives I J (Vlt1.strictUnlock prim passphrase (p.provider prim))
  put : ∀ objectId text, request = .put objectId text → config.witness = none → ∀ o plaintext,
    Op.Survives I J (Vlt1.put prim o plaintext)
  putWithWitness : ∀ objectId text, request = .put objectId text → ∀ p, config.witness = some p →
    ∀ o plaintext, Op.Survives I J (Vlt1.putWithWitness prim o plaintext (p.provider prim))
  putFromReader : ∀ objectId items, request = .putStream objectId items → ∀ o,
    Op.Survives I J (Vlt1.putFromReader prim o (streamReader items))
  rotatePassphrase : ∀ current replacement, request = .rotatePassphrase current replacement →
    Op.Survives I J (Vlt1.rotatePassphrase prim current replacement)

variable [CloseRelation fun w w' => I w → I w']
  (hheads : ∀ p : HttpsWitnessProvider,
    (p.provider prim : WitnessProvider ω).KeepsHeads fun w w' => I w → I w')
  (hcrash : ∀ w, I w → J w)

include hheads hcrash

/-- A verification survives, with a witness or without. -/
theorem survives_verifyResult (a : Arrival) : Op.Survives I J (verifyResult prim config a) := by
  unfold verifyResult
  split
  · exact .ite (fun _ => .fail _) fun _ => .ite (fun _ => .fail _) fun _ =>
      .of_keeps (keeps_verifyActiveObjectsWithWitness prim (hheads _)) hcrash
  · exact .ite (fun _ => .fail _) fun _ => .of_keeps (keeps_verifyActiveObjects prim) hcrash

/-- A request keeps what locking and its own operations keep. -/
theorem survives_dispatch (a : Arrival) {request : Request}
    (h : request.Survives prim config I J) :
    Op.Survives (fun s => I s.world) (fun s => J s.world) (dispatch prim config a request) := by
  refine .ite (fun _ => .pure _) fun _ => ?_
  cases request with
  | status =>
    exact .bind .get fun _ => .ite (fun _ => .pure _) fun _ => .ite (fun _ => .pure _) fun _ =>
      .ite (fun _ => .pure _) fun _ => .pure _
  | unlock passphrase =>
    refine .ite (fun _ => ?_) fun hnone => ?_
    · exact survives_withWitness prim config a fun p hp => h.strictUnlock passphrase rfl p hp
    · have hplain := h.unlock passphrase rfl (by simpa using hnone)
      exact survives_withVault a (.bind hplain fun _ => .pure _)
  | lock => exact survives_withVault a (.bind (.of_keeps keeps_lock hcrash) fun _ => .pure _)
  | put objectId plaintextB64 =>
    show Op.Survives _ _ (servePut prim config a objectId plaintextB64)
    unfold servePut
    split
    · exact .pure _
    · split
      · exact .pure _
      · refine .ite (fun _ => ?_) fun hnone => ?_
        · exact survives_withWitness prim config a fun p hp =>
            .bind (h.putWithWitness _ _ rfl p hp _ _) fun _ => .pure _
        · have hput := h.put _ _ rfl (by simpa using hnone)
          exact survives_withVault a (.bind (hput _ _) fun _ => .pure _)
  | putStream objectId items => exact .pure _
  | get objectId =>
    show Op.Survives _ _ (serveGet prim config a objectId)
    unfold serveGet
    split
    · exact .pure _
    · have hget (o : ObjectId) : Op.Survives I J (get prim o) := .of_keeps (keeps_get prim o) hcrash
      refine .ite (fun _ => ?_) fun _ => ?_
      · exact survives_withWitness prim config a fun p _ =>
          .bind (.of_keeps (keeps_verifyActiveObjectsWithWitness prim (hheads p)) hcrash) fun _ =>
            .bind (hget _) fun _ => .pure _
      · exact survives_withVault a (.bind (hget _) fun _ => .pure _)
  | getStream objectId => exact .pure _
  | rotatePassphrase current replacement =>
    exact survives_withVault a (.bind (h.rotatePassphrase _ _ rfl) fun _ => .pure _)
  | verify =>
    refine .ite (fun _ => .pure _) fun _ => .bind (survives_runVault
      (survives_verifyResult prim config hheads hcrash a)) fun result => ?_
    cases result with
    | ok n => exact .ite (fun _ => .pure _) fun _ => .bind (.modify fun _ hs => hs) fun _ => .pure _
    | error e => exact .pure _
  | checkpoint =>
    exact survives_withVault a (.bind (.of_keeps keeps_fullCheckpoint hcrash) fun _ => .pure _)
  | backup destination =>
    exact .ite (fun _ => .pure _) fun _ =>
      survives_withVault a (.bind (.of_keeps (keeps_backupTo _) hcrash) fun _ => .pure _)
  | shutdown =>
    exact .ite (fun _ => .bind (.modify fun _ hs => hs) fun _ => .pure _) fun _ => .pure _

/-- A connection survives when its request does. -/
theorem survives_serveStream (a : Arrival) {request : Option Request}
    (h : ∀ r, request = some r → r.Survives prim config I J) :
    Op.Survives (fun s => I s.world) (fun s => J s.world) (serveStream prim config a request) := by
  refine .ite (fun _ => ?_) fun _ => .pure _
  split
  · rename_i objectId items
    unfold putStream
    refine .ite (fun _ => .pure _) fun _ => ?_
    split
    · exact .pure _
    · have hput := (h _ rfl).putFromReader objectId items rfl
      refine .ite (fun _ => .pure _) fun _ => .ite (fun _ => .pure _) fun _ =>
        .bind (survives_runVault (hput _)) fun result => ?_
      cases result <;> exact .pure _
  · unfold getStream
    refine .ite (fun _ => .pure _) fun _ => ?_
    split
    · exact .pure _
    · have hsink : ∀ s : DaemonState ω, I s.world → I { s.world with sink := [] } := fun s =>
        ReadRelation.sink (R := fun w w' => I w → I w') s.world []
      refine .ite (fun _ => .pure _) fun _ => .ite (fun _ => .pure _) fun _ => .bind (.modify hsink)
        fun _ => .bind (survives_runVault (.of_keeps (keeps_getToWriter prim _ _) hcrash))
          fun result => .bind .get fun _ => ?_
      cases result <;> exact .pure _
  · exact .bind (survives_dispatch prim config hheads hcrash a (h _ rfl)) fun _ => .pure _
  · exact .pure _

/-- A step of a daemon run keeps what opening the vault and the operations of its request keep, when
the vault is locked after a crash. -/
theorem daemonStep_survives (hlocked : ∀ w, J w → I w.locked)
    (hopen : Op.Survives I I (openVault prim)) {s : DaemonState ω} {input : DaemonInput}
    (hrequest : ∀ a r, input = .request a (some r) → r.Survives prim config I J)
    (hreplace : ∀ db, input = .replaceDatabase db → I { s.world with db := db })
    (hs : I s.world) : I (daemonStep prim config s input).2.world := by
  cases input with
  | request a request =>
    unfold daemonStep
    dsimp only
    split
    · have hx := survives_serveStream prim config hheads hcrash a
        (fun r hr => hrequest a r (hr ▸ rfl)) s hs
      cases hout : serveStream prim config a request s with
      | ok frames s' => rw [hout] at hx; exact hx
      | failed e s' => rw [hout] at hx; exact hx
      | crashed s' => rw [hout] at hx; exact hlocked _ hx
    · exact hs
  | kill => exact hlocked _ (hcrash _ hs)
  | start =>
    unfold daemonStep
    dsimp only
    split
    · exact hs
    · have hx := hopen s.world hs
      cases hout : openVault prim s.world <;> (rw [hout] at hx; exact hx)
  | elapse =>
    exact ReadRelation.move (R := fun w w' => I w → I w') s.world _ (Machine.Moves.elapse _) hs
  | replaceDatabase db => exact hreplace db rfl

end Assertions

section Keeps

variable {ω : Type} {R : World ω → World ω → Prop} [Machine ω]

/-- A relation between the worlds of two daemon states. -/
def DaemonState.Related (R : World ω → World ω → Prop) (s s' : DaemonState ω) : Prop :=
  R s.world s'.world

section Locking

variable [LockRelation R]

instance : Std.Refl (DaemonState.Related R) := ⟨fun s => Std.Refl.refl s.world⟩

/-- What is related to a world is kept by what keeps the relation. -/
theorem lockRelation_from (w₀ : World ω) : LockRelation fun w w' => R w₀ w → R w₀ w' where
  refl _ h := h
  trans _ _ _ h h' hw := h' (h hw)
  move w o hmove h := IsTrans.trans _ _ _ h (ReadRelation.move w o hmove)
  interfere w h := IsTrans.trans _ _ _ h (ReadRelation.interfere w)
  sink w b h := IsTrans.trans _ _ _ h (ReadRelation.sink w b)
  observe w e he h := IsTrans.trans _ _ _ h (ReadRelation.observe w e he)
  sealing w e he h := IsTrans.trans _ _ _ h (SealRelation.sealing w e he)
  locked w h := IsTrans.trans _ _ _ h (LockRelation.locked w)

/-- What is kept from a fixed state on is an assertion that survives. -/
theorem survives_from {α : Type} {x : VaultOp ω α} (hx : Op.Keeps R x) (w₀ : World ω) :
    Op.Survives (R w₀) (R w₀) x :=
  .of_keeps (fun w h => IsTrans.trans _ _ _ h (hx w)) fun _ h => h

/-- What a witness keeps, it keeps from a fixed state on. -/
theorem WitnessProvider.KeepsHeads.from_world {provider : WitnessProvider ω}
    (h : provider.KeepsHeads R) (w₀ : World ω) :
    provider.KeepsHeads fun w w' => R w₀ w → R w₀ w' :=
  ⟨fun v o c w hw => IsTrans.trans _ _ _ hw (h.head v o c w)⟩

end Locking

variable [Transport ω] (prim : Primitives) (config : DaemonConfig)

/-- The operations of the daemon that write keep a relation. -/
structure WritesKeep (R : World ω → World ω → Prop) : Prop where
  putWithChunkSize : ∀ o plaintext size, Op.Keeps R (putWithChunkSize prim o plaintext size)
  putFromReader : ∀ o reader size, Op.Keeps R (putFromReaderWithChunkSize prim o reader size)
  putWithWitness : ∀ (p : HttpsWitnessProvider) o plaintext,
    Op.Keeps R (putWithWitness prim o plaintext (p.provider prim))
  rotatePassphrase : ∀ current replacement,
    Op.Keeps R (rotatePassphrase prim current replacement)

section

variable [LockRelation R]

/-- A request keeps what its operations keep. -/
theorem WritesKeep.survives (hwrites : WritesKeep prim R) {request : Request}
    (hunlock : ∀ passphrase, request = .unlock passphrase →
      Op.Keeps R (unlock prim passphrase) ∧
        ∀ p : HttpsWitnessProvider, Op.Keeps R (strictUnlock prim passphrase (p.provider prim)))
    (w₀ : World ω) : request.Survives prim config (R w₀) (R w₀) where
  unlock passphrase heq _ := survives_from (hunlock passphrase heq).1 w₀
  strictUnlock passphrase heq p _ := survives_from ((hunlock passphrase heq).2 p) w₀
  put _ _ _ _ _ _ := survives_from (hwrites.putWithChunkSize _ _ _) w₀
  putWithWitness _ _ _ p _ _ _ := survives_from (hwrites.putWithWitness p _ _) w₀
  putFromReader _ _ _ _ := survives_from (hwrites.putFromReader _ _ _) w₀
  rotatePassphrase _ _ _ := survives_from (hwrites.rotatePassphrase _ _) w₀

/-- What the operations keep, a whole connection keeps. -/
theorem keeps_serveStream
    (hheads : ∀ p : HttpsWitnessProvider, (p.provider prim : WitnessProvider ω).KeepsHeads R)
    (hwrites : WritesKeep prim R) (a : Arrival) (request : Option Request)
    (hunlock : ∀ passphrase, request = some (.unlock passphrase) →
      Op.Keeps R (unlock prim passphrase) ∧
        ∀ p : HttpsWitnessProvider, Op.Keeps R (strictUnlock prim passphrase (p.provider prim))) :
    Op.Keeps (DaemonState.Related R) (serveStream prim config a request) := by
  refine Op.Survives.keeps fun s₀ => ?_
  have hlock := lockRelation_from (R := R) s₀.world
  exact survives_serveStream (I := R s₀.world) (J := R s₀.world) prim config
    (fun p => (hheads p).from_world s₀.world) (fun _ h => h) a fun r hr =>
      hwrites.survives prim config (fun passphrase heq => hunlock passphrase (heq ▸ hr)) s₀.world

end

variable [StepRelation R]
  (hprovider : ∀ p : HttpsWitnessProvider, (p.provider prim : WitnessProvider ω).Keeps R)

include hprovider

/-- Every writing relation is kept by the calls that write. -/
theorem writesKeep : WritesKeep prim R where
  putWithChunkSize := keeps_putWithChunkSize prim
  putFromReader := keeps_putFromReaderWithChunkSize prim
  putWithWitness p := keeps_putWithWitness prim (hprovider p)
  rotatePassphrase := keeps_rotatePassphrase prim

/-- A strict unlock unlocks, recovers and verifies. -/
theorem keeps_strictUnlock (passphrase : Text) (p : HttpsWitnessProvider) :
    Op.Keeps R (strictUnlock prim passphrase (p.provider prim)) :=
  Op.Keeps.bind (keeps_unlock prim passphrase) fun _ =>
    Op.Keeps.bind (keeps_recoverPendingWitnessPublications prim (hprovider p)) fun _ =>
      Op.Keeps.bind (keeps_verifyActiveObjectsWithWitness prim (hprovider p).toKeepsHeads) fun _ =>
        Op.Keeps.pure _

/-- What every step of the process keeps, every step of a daemon run keeps, if replacing the database
does. -/
theorem daemonStep_keeps (s : DaemonState ω) (input : DaemonInput)
    (hreplace : ∀ db, input = .replaceDatabase db → R s.world { s.world with db := db }) :
    R s.world (daemonStep prim config s input).2.world := by
  have hlock := lockRelation_from (R := R) s.world
  refine daemonStep_survives (I := R s.world) (J := R s.world) prim config
    (fun p => (hprovider p).toKeepsHeads.from_world s.world) (fun _ h => h)
    (fun w h => IsTrans.trans _ _ _ h (StepRelation.vault w _))
    (survives_from (keeps_openVault prim) s.world) (fun a r _ => ?_) hreplace
    (Std.Refl.refl _)
  exact (writesKeep prim hprovider).survives prim config (fun passphrase _ =>
    ⟨keeps_unlock prim passphrase, keeps_strictUnlock prim hprovider passphrase⟩) s.world

end Keeps

section

variable {ω : Type} [Machine ω] [Transport ω] {prim : Primitives} {config : DaemonConfig}

/-- A strict daemon turns an unlock request away with an error, or runs the strict unlock. -/
theorem serveStream_unlock {p : HttpsWitnessProvider} (hconfig : config.witness = some p)
    (a : Arrival) (passphrase : Text) (s : DaemonState ω) :
    (∃ code message, serveStream prim config a (some (.unlock passphrase)) s =
      .ok [.response (.error code message)] s) ∨
      serveStream prim config a (some (.unlock passphrase)) s =
        (do return [.response
          (respond (← runVault (strictUnlock prim passphrase (p.provider prim))))] :
            DaemonOp _ _) s := by
  simp only [serveStream, dispatch, serveUnlock, hconfig, Option.isSome_some, if_true, withWitness,
    withVault]
  split
  · split
    · exact .inl ⟨_, _, rfl⟩
    split
    · exact .inl ⟨_, _, rfl⟩
    split
    · exact .inl ⟨_, _, rfl⟩
    · right
      simp only [Op.bind_apply]
      cases runVault (strictUnlock prim passphrase (p.provider prim)) s <;> rfl
  · exact .inl ⟨_, _, rfl⟩

/-- Nothing turns away an unlock request that arrives undisturbed. -/
theorem serveStream_unlock_admitted {p : HttpsWitnessProvider} (hconfig : config.witness = some p)
    (passphrase : Text) (s : DaemonState ω) :
    serveStream prim config {} (some (.unlock passphrase)) s =
      (do return [.response
        (respond (← runVault (strictUnlock prim passphrase (p.provider prim))))] :
          DaemonOp _ _) s := by
  simp only [serveStream, dispatch, serveUnlock, hconfig, Option.isSome_some, if_true, withWitness,
    withVault, Bool.false_eq_true, false_and, if_false, Op.bind_apply]
  cases runVault (strictUnlock prim passphrase (p.provider prim)) s <;> rfl

end

/-! ### What the daemon answers -/

section

variable {ω : Type} [Machine ω]

variable (ω) in
/-- The predicate holds of every answer of the daemon but a plaintext. The texts of its errors are
short. -/
structure Answers (P : Response → Prop) : Prop where
  error : ∀ code (message : String), message.length ≤ 64 → P (.error code message)
  empty : P (.ok .empty)
  status : ∀ (id : VaultId) lifecycle n,
    P (.ok (.status "VLT/1" id.toHex lifecycle "startup_integrity_ok" n))
  published : ∀ version : VersionId, P (.ok (.published version.toHex))
  verified : ∀ n, P (.ok (.verified n))
  backup : ∀ destination db (o : ω) m, (Machine.backup destination db o).1 = .ok m →
    P (.ok (.backup m.format m.databaseSha256 m.databaseBytes))

variable {P : Response → Prop} {a : Arrival}

/-- What holds of every error holds of the vault's. -/
theorem Answers.mapVaultError (hP : Answers ω P) (e : VaultError) : P (mapVaultError e) := by
  cases e <;> exact hP.error _ _ (by decide)

/-- What holds of every error holds of a malformed identifier's. -/
theorem Answers.parse (hP : Answers ω P) {text : Text} {r : Response}
    (h : parseRequestObjectId text = .error r) : P r := by
  unfold parseRequestObjectId at h
  split at h
  · split at h <;> cases h
    exact hP.error _ _ (by decide)
  · cases h
    exact hP.error _ _ (by decide)

/-- What holds of errors and of what an operation returns holds of its answer. -/
theorem Answers.withVault (hP : Answers ω P) {operation : VaultOp ω Success}
    (h : Op.Returns (fun r => P (.ok r)) operation) : Op.Returns P (withVault a operation) := by
  unfold Vlt1.withVault
  refine Op.Returns.ite (Op.Returns.pure (hP.error _ _ (by decide))) ?_
  intro s r s' hr
  obtain ⟨result, s1, hrun, hr⟩ := Op.bind_eq_ok.mp hr
  cases hr
  unfold runVault at hrun
  cases hw : operation s.world with
  | ok success w => rw [hw] at hrun; cases hrun; exact h _ _ _ hw
  | failed e w => rw [hw] at hrun; cases hrun; exact hP.mapVaultError e
  | crashed w => rw [hw] at hrun; cases hrun

variable [Transport ω] {prim : Primitives} {config : DaemonConfig}

/-- What holds of errors and of what an operation returns holds of its answer. -/
theorem Answers.withWitness (hP : Answers ω P) {operation : WitnessProvider ω → VaultOp ω Success}
    (h : ∀ p, Op.Returns (fun r => P (.ok r)) (operation p)) :
    Op.Returns P (withWitness prim config a operation) := by
  unfold Vlt1.withWitness
  split
  · exact Op.Returns.pure (hP.error _ _ (by decide))
  · exact Op.Returns.ite (Op.Returns.pure (hP.error _ _ (by decide))) (hP.withVault (h _))

/-- Only `get` is answered with a plaintext. -/
theorem Answers.dispatch (hP : Answers ω P) {request : Request}
    (hget : ∀ objectId, request ≠ .get objectId) :
    Op.Returns P (dispatch (ω := ω) prim config a request) := by
  have hreturn {x : Success} (hx : P (.ok x)) :
      Op.Returns (fun r => P (.ok r)) (pure x : VaultOp ω Success) := Op.Returns.pure hx
  have hoverloaded : P overloadedResponse := hP.error _ _ (by decide)
  refine Op.Returns.ite (Op.Returns.pure hoverloaded) ?_
  cases request with
  | status =>
    refine Op.Returns.bind _ fun s => ?_
    exact Op.Returns.ite (Op.Returns.pure hoverloaded) (Op.Returns.ite
      (Op.Returns.pure (hP.error _ _ (by decide))) (Op.Returns.ite
        (Op.Returns.pure (hP.error _ _ (by decide))) (Op.Returns.pure (hP.status _ _ _))))
  | unlock passphrase =>
    refine Op.Returns.ite (hP.withWitness fun p => ?_) (hP.withVault ?_)
    · exact Op.Returns.bind _ fun _ => Op.Returns.bind _ fun _ => Op.Returns.bind _ fun _ =>
        hreturn hP.empty
    · exact Op.Returns.bind _ fun _ => hreturn hP.empty
  | lock => exact hP.withVault (Op.Returns.bind _ fun _ => hreturn hP.empty)
  | put objectId plaintextB64 =>
    show Op.Returns _ (servePut prim config a objectId plaintextB64)
    unfold servePut
    split
    · rename_i hparse
      exact Op.Returns.pure (hP.parse hparse)
    · split
      · exact Op.Returns.pure (hP.error _ _ (by decide))
      · refine Op.Returns.ite (hP.withWitness fun p => ?_) (hP.withVault ?_)
        · exact Op.Returns.bind _ fun _ => hreturn (hP.published _)
        · exact Op.Returns.bind _ fun _ => hreturn (hP.published _)
  | putStream objectId items => exact Op.Returns.pure (hP.error _ _ (by decide))
  | get objectId => exact absurd rfl (hget objectId)
  | getStream objectId => exact Op.Returns.pure (hP.error _ _ (by decide))
  | rotatePassphrase current replacement =>
    exact hP.withVault (Op.Returns.bind _ fun _ => hreturn hP.empty)
  | verify =>
    refine Op.Returns.ite (Op.Returns.pure hoverloaded) (Op.Returns.bind _ fun result => ?_)
    cases result with
    | ok n =>
      exact Op.Returns.ite (Op.Returns.pure (hP.error _ _ (by decide)))
        (Op.Returns.bind _ fun _ => Op.Returns.pure (hP.verified n))
    | error e => exact Op.Returns.pure (hP.mapVaultError e)
  | checkpoint => exact hP.withVault (Op.Returns.bind _ fun _ => hreturn hP.empty)
  | backup destination =>
    refine Op.Returns.ite (Op.Returns.pure hoverloaded) (hP.withVault ?_)
    -- the response shows the manifest that the backup returned
    intro w success w' h
    obtain ⟨m, w1, hbackup, hreturned⟩ := Op.bind_eq_ok.mp h
    cases hreturned
    obtain ⟨result, w2, hinteract, hresult⟩ := Op.bind_eq_ok.mp hbackup
    cases hinteract
    exact hP.backup _ _ _ _ (Op.ofExcept_eq_ok.mp hresult).1
  | shutdown =>
    exact Op.Returns.ite (Op.Returns.bind _ fun _ => Op.Returns.pure hP.empty)
      (Op.Returns.pure (hP.error _ _ (by decide)))

end

end Vlt1

import Vlt1.Changes
import Vlt1.Daemon
import Vlt1.Library.Run

/-!
# A daemon as a program that calls the library

Every request a daemon serves comes down to a few calls of the library on the one handle it holds, and
starting and killing it to opening and dropping that handle. `DaemonInput.script` lists the calls of an
input, and `daemonStep_calls` says that a step of the daemon leaves its vault as some of them do, in their
order: a handler may stop early, and skips what its request does not need.
What is proved about every run of a program (`Run.final sessionStep`) thereby holds of every run of a
daemon in which nobody replaces the database file (`daemon_run_calls`), and what every change of a call
keeps, a run of the daemon keeps (`daemon_run_changes`).
-/

namespace Vlt1

open Effect

section

variable (prim : Primitives) (config : DaemonConfig)

/-- The calls of an input of the daemon, in their order. -/
def DaemonInput.script : DaemonInput → List VaultCall
  | .request _ (some (.unlock passphrase)) =>
    .unlock passphrase :: if config.witness.isSome then [.recover, .verifyWithWitness] else []
  | .request _ (some .lock) => [.lock]
  | .request _ (some (.put objectId text)) =>
    match parseRequestObjectId objectId, prim.base64Decode text with
    | .ok o, some plaintext =>
      if config.witness.isSome then [.putWithWitness o plaintext]
      else [.put o plaintext defaultChunkSize]
    | _, _ => []
  | .request _ (some (.putStream objectId items)) =>
    match parseRequestObjectId objectId with
    | .ok o => [.putFromReader o (streamReader items) defaultChunkSize]
    | .error _ => []
  | .request _ (some (.get objectId)) =>
    match parseRequestObjectId objectId with
    | .ok o => if config.witness.isSome then [.verifyWithWitness, .get o] else [.get o]
    | .error _ => []
  | .request _ (some (.getStream objectId)) =>
    match parseRequestObjectId objectId with
    | .ok o => [.getToWriter o]
    | .error _ => []
  | .request _ (some (.rotatePassphrase current replacement)) =>
    [.rotatePassphrase current replacement]
  | .request _ (some .verify) =>
    if config.witness.isSome then [.verifyWithWitness] else [.verify]
  | .request _ (some .checkpoint) => [.fullCheckpoint]
  | .request _ (some (.backup destination)) => [.backupTo destination]
  | .request _ _ => []
  | .kill => [.drop]
  | .start => [.reopen]
  | .elapse => [.elapse]
  | .replaceDatabase _ => []

/-- The calls of an input, case by case. -/
inductive DaemonInput.Calls : DaemonInput → VaultCall → Prop
  | unlock (a : Arrival) (passphrase : Text) :
      Calls (.request a (some (.unlock passphrase))) (.unlock passphrase)
  | recover (a : Arrival) (passphrase : Text) (hstrict : config.witness.isSome) :
      Calls (.request a (some (.unlock passphrase))) .recover
  | verifyUnlocked (a : Arrival) (passphrase : Text) (hstrict : config.witness.isSome) :
      Calls (.request a (some (.unlock passphrase))) .verifyWithWitness
  | lock (a : Arrival) : Calls (.request a (some .lock)) .lock
  | put (a : Arrival) {objectId text : Text} {o : ObjectId} {plaintext : Bytes}
      (hnone : config.witness = none) (ho : parseRequestObjectId objectId = .ok o)
      (hplaintext : prim.base64Decode text = some plaintext) :
      Calls (.request a (some (.put objectId text))) (.put o plaintext defaultChunkSize)
  | putWithWitness (a : Arrival) {objectId text : Text} {o : ObjectId} {plaintext : Bytes}
      (hstrict : config.witness.isSome) (ho : parseRequestObjectId objectId = .ok o)
      (hplaintext : prim.base64Decode text = some plaintext) :
      Calls (.request a (some (.put objectId text))) (.putWithWitness o plaintext)
  | putStream (a : Arrival) {objectId : Text} (items : List StreamItem) {o : ObjectId}
      (ho : parseRequestObjectId objectId = .ok o) :
      Calls (.request a (some (.putStream objectId items)))
        (.putFromReader o (streamReader items) defaultChunkSize)
  | get (a : Arrival) {objectId : Text} {o : ObjectId} (ho : parseRequestObjectId objectId = .ok o) :
      Calls (.request a (some (.get objectId))) (.get o)
  | verifyGet (a : Arrival) (objectId : Text) (hstrict : config.witness.isSome) :
      Calls (.request a (some (.get objectId))) .verifyWithWitness
  | getStream (a : Arrival) {objectId : Text} {o : ObjectId}
      (ho : parseRequestObjectId objectId = .ok o) :
      Calls (.request a (some (.getStream objectId))) (.getToWriter o)
  | rotatePassphrase (a : Arrival) (current replacement : Text) :
      Calls (.request a (some (.rotatePassphrase current replacement)))
        (.rotatePassphrase current replacement)
  | verify (a : Arrival) (hnone : config.witness = none) : Calls (.request a (some .verify)) .verify
  | verifyWithWitness (a : Arrival) (hstrict : config.witness.isSome) :
      Calls (.request a (some .verify)) .verifyWithWitness
  | checkpoint (a : Arrival) : Calls (.request a (some .checkpoint)) .fullCheckpoint
  | backup (a : Arrival) (destination : Text) :
      Calls (.request a (some (.backup destination))) (.backupTo destination)
  | kill : Calls .kill .drop
  | start : Calls .start .reopen
  | elapse : Calls .elapse .elapse

variable {prim config} in
/-- The calls of a script are among those its request may make. -/
theorem DaemonInput.calls_of_mem_script {input : DaemonInput} {call : VaultCall}
    (h : call ∈ input.script prim config) : DaemonInput.Calls prim config input call := by
  unfold DaemonInput.script at h
  split at h
  · -- an unlock request
    split at h
    · rename_i hstrict
      simp only [List.mem_cons, List.not_mem_nil, or_false] at h
      rcases h with rfl | rfl | rfl
      · exact .unlock _ _
      · exact .recover _ _ hstrict
      · exact .verifyUnlocked _ _ hstrict
    · obtain rfl := List.mem_singleton.mp h
      exact .unlock _ _
  · obtain rfl := List.mem_singleton.mp h
    exact .lock _
  · split at h
    · rename_i ho hplaintext
      split at h
      · rename_i hstrict
        obtain rfl := List.mem_singleton.mp h
        exact .putWithWitness _ hstrict ho hplaintext
      · rename_i hnone
        obtain rfl := List.mem_singleton.mp h
        exact .put _ (by simpa using hnone) ho hplaintext
    · cases h
  · split at h
    · rename_i ho
      obtain rfl := List.mem_singleton.mp h
      exact .putStream _ _ ho
    · cases h
  · split at h
    · rename_i ho
      split at h
      · rename_i hstrict
        simp only [List.mem_cons, List.not_mem_nil, or_false] at h
        rcases h with rfl | rfl
        · exact .verifyGet _ _ hstrict
        · exact .get _ ho
      · obtain rfl := List.mem_singleton.mp h
        exact .get _ ho
    · cases h
  · split at h
    · rename_i ho
      obtain rfl := List.mem_singleton.mp h
      exact .getStream _ ho
    · cases h
  · obtain rfl := List.mem_singleton.mp h
    exact .rotatePassphrase _ _ _
  · split at h
    · rename_i hstrict
      obtain rfl := List.mem_singleton.mp h
      exact .verifyWithWitness _ hstrict
    · rename_i hnone
      obtain rfl := List.mem_singleton.mp h
      exact .verify _ (by simpa using hnone)
  · obtain rfl := List.mem_singleton.mp h
    exact .checkpoint _
  · obtain rfl := List.mem_singleton.mp h
    exact .backup _ _
  · cases h
  · obtain rfl := List.mem_singleton.mp h
    exact .kill
  · obtain rfl := List.mem_singleton.mp h
    exact .start
  · obtain rfl := List.mem_singleton.mp h
    exact .elapse
  · cases h

variable {ω : Type} [Transport ω]

/-- The provider of a daemon's calls. Without a witness none of them asks it. -/
def DaemonConfig.provider : WitnessProvider ω :=
  match config.witness with
  | some witness => witness.provider prim
  | none =>
    { issueReceipt := fun _ _ => Op.fail .witnessUnavailable
      objectHead := fun _ _ _ => Op.fail .witnessUnavailable }

/-- The configured witness is the one in use. -/
theorem DaemonConfig.provider_of_some {config : DaemonConfig} {p : HttpsWitnessProvider}
    (h : config.witness = some p) : config.provider prim = (p.provider prim : WitnessProvider ω) := by
  unfold DaemonConfig.provider
  rw [h]

end

/-! ### Operations that are calls -/

section MakesCalls

variable {ω : Type} [Machine ω] {prim : Primitives} {provider : WitnessProvider ω}
  {script script' : List VaultCall} {α β : Type}

variable (prim provider script) in
/-- The operation leaves the vault as some calls of the script do, in their order. -/
def MakesCalls (x : VaultOp ω α) : Prop :=
  ∀ w, ∃ calls, calls.Sublist script ∧
    Run.final (sessionStep prim provider) ⟨w, true⟩ calls = (SessionState.after true (x w)).2

theorem MakesCalls.pure (a : α) : MakesCalls prim provider script (pure a : VaultOp ω α) :=
  fun _ => ⟨[], List.nil_sublist _, rfl⟩

theorem MakesCalls.fail (e : VaultError) :
    MakesCalls prim provider script (Op.fail e : VaultOp ω α) :=
  fun _ => ⟨[], List.nil_sublist _, rfl⟩

/-- The calls of a sequence are those of its parts, one after the other. -/
theorem MakesCalls.bind {x : VaultOp ω α} {f : α → VaultOp ω β} (hx : MakesCalls prim provider script x)
    (hf : ∀ a, MakesCalls prim provider script' (f a)) :
    MakesCalls prim provider (script ++ script') (x >>= f) := by
  intro w
  obtain ⟨calls, hcalls, hfinal⟩ := hx w
  rw [Op.bind_apply]
  cases hout : x w with
  | ok a w' =>
    -- the calls of the second operation follow
    rw [hout] at hfinal
    obtain ⟨calls', hcalls', hfinal'⟩ := hf a w'
    refine ⟨calls ++ calls', hcalls.append hcalls', ?_⟩
    rw [Run.final_append, hfinal]
    exact hfinal'
  | failed e w' =>
    rw [hout] at hfinal
    exact ⟨calls, hcalls.trans (List.sublist_append_left _ _), hfinal⟩
  | crashed w' =>
    rw [hout] at hfinal
    exact ⟨calls, hcalls.trans (List.sublist_append_left _ _), hfinal⟩

/-- What follows makes no calls. -/
theorem MakesCalls.bind_quiet {x : VaultOp ω α} {f : α → VaultOp ω β}
    (hx : MakesCalls prim provider script x) (hf : ∀ a, MakesCalls prim provider [] (f a)) :
    MakesCalls prim provider script (x >>= f) :=
  script.append_nil ▸ hx.bind hf

/-- An operation that is all a call does, but for the form of its result. -/
theorem MakesCalls.call (call : VaultCall) {x : VaultOp ω α} (f : α → CallResult)
    (hstep : ∀ w, sessionStep prim provider ⟨w, true⟩ call =
      SessionState.after true ((x >>= fun a => Pure.pure (f a)) w)) :
    MakesCalls prim provider [call] x := by
  intro w
  refine ⟨[call], List.Sublist.refl _, ?_⟩
  rw [Run.final_cons, Run.final_nil, hstep, Op.bind_apply]
  cases x w <;> rfl

end MakesCalls

/-! ### Handlers -/

section ServesCalls

variable {ω α β : Type}

/-- The daemon's vault, as the program that serves it holds it. -/
def DaemonState.session (s : DaemonState ω) : SessionState ω := ⟨s.world, s.running⟩

/-- The vault after a handler, as the program that serves it holds it: the handle is lost when the
process died. -/
def servedSession : Outcome VaultError (DaemonState ω) α → SessionState ω
  | .ok _ s => ⟨s.world, true⟩
  | .failed _ s => ⟨s.world, true⟩
  | .crashed s => ⟨s.world.locked, false⟩

/-- Clearing the writer is part of the operation that follows. -/
theorem runVault_after_clear {x : VaultOp ω α} {f : Except VaultError α → DaemonOp ω β} :
    (do
      Op.modify fun s : DaemonState ω => { s with world := { s.world with sink := [] } }
      let result ← runVault x
      f result) =
    (do
      let result ← runVault (do
        Op.modify fun w : World ω => { w with sink := [] }
        x)
      f result) := by
  funext s
  have hrun : runVault (do
      Op.modify fun w : World ω => { w with sink := [] }
      x) s = runVault x { s with world := { s.world with sink := [] } } := rfl
  show (runVault x >>= f) { s with world := { s.world with sink := [] } } = _
  rw [Op.bind_apply, Op.bind_apply, hrun]

variable [Machine ω] {prim : Primitives} {provider : WitnessProvider ω} {script script' : List VaultCall}

variable (prim provider script) in
/-- The handler leaves the vault as some calls of the script do, in their order, and the process up. -/
def ServesCalls (x : DaemonOp ω α) : Prop :=
  ∀ s, (x s).state.running = s.running ∧ ∃ calls, calls.Sublist script ∧
    Run.final (sessionStep prim provider) ⟨s.world, true⟩ calls = servedSession (x s)

theorem ServesCalls.pure (a : α) : ServesCalls prim provider script (pure a : DaemonOp ω α) :=
  fun _ => ⟨rfl, [], List.nil_sublist _, rfl⟩

theorem ServesCalls.get : ServesCalls prim provider script (Op.get : DaemonOp ω (DaemonState ω)) :=
  fun _ => ⟨rfl, [], List.nil_sublist _, rfl⟩

/-- A change of the daemon's own state. -/
theorem ServesCalls.modify {f : DaemonState ω → DaemonState ω} (hworld : ∀ s, (f s).world = s.world)
    (hrunning : ∀ s, (f s).running = s.running) :
    ServesCalls prim provider script (Op.modify f : DaemonOp ω Unit) := by
  refine fun s => ⟨hrunning s, [], List.nil_sublist _, ?_⟩
  show (⟨s.world, true⟩ : SessionState ω) = ⟨(f s).world, true⟩
  rw [hworld]

/-- The calls of a sequence of handlers are those of its parts, one after the other. -/
theorem ServesCalls.bind {x : DaemonOp ω α} {f : α → DaemonOp ω β}
    (hx : ServesCalls prim provider script x) (hf : ∀ a, ServesCalls prim provider script' (f a)) :
    ServesCalls prim provider (script ++ script') (x >>= f) := by
  intro s
  obtain ⟨hrunning, calls, hcalls, hfinal⟩ := hx s
  rw [Op.bind_apply]
  cases hout : x s with
  | ok a s' =>
    rw [hout] at hrunning hfinal
    obtain ⟨hrunning', calls', hcalls', hfinal'⟩ := hf a s'
    refine ⟨hrunning'.trans hrunning, calls ++ calls', hcalls.append hcalls', ?_⟩
    rw [Run.final_append, hfinal]
    exact hfinal'
  | failed e s' =>
    rw [hout] at hrunning hfinal
    exact ⟨hrunning, calls, hcalls.trans (List.sublist_append_left _ _), hfinal⟩
  | crashed s' =>
    rw [hout] at hrunning hfinal
    exact ⟨hrunning, calls, hcalls.trans (List.sublist_append_left _ _), hfinal⟩

/-- What follows makes no calls. -/
theorem ServesCalls.bind_quiet {x : DaemonOp ω α} {f : α → DaemonOp ω β}
    (hx : ServesCalls prim provider script x) (hf : ∀ a, ServesCalls prim provider [] (f a)) :
    ServesCalls prim provider script (x >>= f) :=
  script.append_nil ▸ hx.bind hf

/-- A choice serves a script when both branches do. -/
theorem ServesCalls.ite {p : Prop} [Decidable p] {x y : DaemonOp ω α}
    (hx : p → ServesCalls prim provider script x) (hy : ¬p → ServesCalls prim provider script y) :
    ServesCalls prim provider script (if p then x else y) := by
  split
  · exact hx ‹_›
  · exact hy ‹_›

/-- A call of the vault makes the calls of its operation, and none when it fails to start. -/
theorem serves_runVault {x : VaultOp ω α} (hx : MakesCalls prim provider script x) :
    ServesCalls prim provider script (runVault x) := by
  intro s
  obtain ⟨calls, hcalls, hfinal⟩ := hx s.world
  unfold runVault
  cases hout : x s.world <;> (rw [hout] at hfinal; exact ⟨rfl, calls, hcalls, hfinal⟩)

/-- Behind the mutex an operation makes the calls it makes. -/
theorem serves_withVault (a : Arrival) {x : VaultOp ω Success} (hx : MakesCalls prim provider script x) :
    ServesCalls prim provider script (withVault a x) :=
  .ite (fun _ => .pure _) fun _ => .bind_quiet (serves_runVault hx) fun _ => .pure _

variable [Transport ω]

/-- With the configured witness an operation makes the calls it makes. -/
theorem serves_withWitness {config : DaemonConfig} (a : Arrival)
    {operation : WitnessProvider ω → VaultOp ω Success}
    (h : ∀ p, config.witness = some p →
      MakesCalls prim provider script (operation (p.provider prim))) :
    ServesCalls prim provider script (withWitness prim config a operation) := by
  unfold withWitness
  split
  · exact .pure _
  · rename_i p hp
    exact .ite (fun _ => .pure _) fun _ => serves_withVault a (h p hp)

end ServesCalls

/-! ### Requests -/

section

variable {ω : Type} [Machine ω] [Transport ω] {prim : Primitives} {config : DaemonConfig}

/-- A handler that makes the calls of its request. -/
abbrev ServesRequest (prim : Primitives) (config : DaemonConfig) (a : Arrival) (request : Request)
    {α : Type} (x : DaemonOp ω α) : Prop :=
  ServesCalls prim (config.provider prim) (DaemonInput.script prim config (.request a (some request))) x

/-- An unlock request unlocks, and with a witness recovers and verifies too. -/
theorem serves_unlock (a : Arrival) (passphrase : Text) :
    ServesRequest (ω := ω) prim config a (.unlock passphrase)
      (serveUnlock prim config a passphrase) := by
  unfold ServesRequest DaemonInput.script
  dsimp only
  refine .ite (fun hstrict => serves_withWitness a fun p hp => ?_) fun hnone => ?_
  · rw [DaemonConfig.provider_of_some prim hp, if_pos hstrict]
    exact .bind (.call (.unlock passphrase) (fun _ => .unit) fun _ => rfl) fun _ =>
      .bind (.call .recover .count fun _ => rfl) fun _ =>
        .bind_quiet (.call .verifyWithWitness .count fun _ => rfl) fun _ => .pure _
  · rw [if_neg hnone]
    exact serves_withVault a (.bind_quiet (.call (.unlock passphrase) (fun _ => .unit) fun _ => rfl)
      fun _ => .pure _)

/-- A put request makes one put, or none. -/
theorem serves_put (a : Arrival) (objectId text : Text) :
    ServesRequest (ω := ω) prim config a (.put objectId text)
      (servePut prim config a objectId text) := by
  unfold servePut ServesRequest DaemonInput.script
  dsimp only
  cases parseRequestObjectId objectId with
  | error response => exact .pure _
  | ok o =>
    cases prim.base64Decode text with
    | none => exact .pure _
    | some plaintext =>
      dsimp only
      refine .ite (fun hstrict => serves_withWitness a fun p hp => ?_) fun hnone => ?_
      · rw [DaemonConfig.provider_of_some prim hp, if_pos hstrict]
        exact .bind_quiet (.call (.putWithWitness o plaintext) .version fun _ => rfl) fun _ => .pure _
      · rw [if_neg hnone]
        exact serves_withVault a (.bind_quiet (.call (.put o plaintext defaultChunkSize) .version
          fun _ => rfl) fun _ => .pure _)

/-- A get request makes one get, or none. -/
theorem serves_get (a : Arrival) (objectId : Text) :
    ServesRequest (ω := ω) prim config a (.get objectId) (serveGet prim config a objectId) := by
  unfold serveGet ServesRequest DaemonInput.script
  dsimp only
  cases parseRequestObjectId objectId with
  | error response => exact .pure _
  | ok o =>
    dsimp only
    refine .ite (fun hstrict => serves_withWitness a fun p hp => ?_) fun hnone => ?_
    · rw [DaemonConfig.provider_of_some prim hp, if_pos hstrict]
      exact .bind (.call .verifyWithWitness .count fun _ => rfl) fun _ =>
        .bind_quiet (.call (.get o) .plaintext fun _ => rfl) fun _ => .pure _
    · rw [if_neg hnone]
      exact serves_withVault a (.bind_quiet (.call (.get o) .plaintext fun _ => rfl) fun _ => .pure _)

/-- A verification makes one call, with the witness where one is configured. -/
theorem makesCalls_verifyResult (a : Arrival) :
    MakesCalls (ω := ω) prim (config.provider prim)
      (DaemonInput.script prim config (.request a (some .verify))) (verifyResult prim config a) := by
  have hite {script : List VaultCall} {p : Prop} [Decidable p] {x : VaultOp ω UInt64} {e : VaultError}
      (hx : MakesCalls prim (config.provider prim) script x) :
      MakesCalls prim (config.provider prim) script (if p then Op.fail e else x) := by
    split
    · exact .fail e
    · exact hx
  unfold verifyResult DaemonInput.script
  dsimp only
  cases hp : config.witness with
  | none => exact hite (.call .verify .count fun _ => rfl)
  | some p =>
    refine hite (hite ?_)
    rw [DaemonConfig.provider_of_some prim hp]
    exact .call .verifyWithWitness .count fun _ => rfl

/-- A request with one response makes its calls. -/
theorem serves_dispatch (a : Arrival) (request : Request) :
    ServesRequest (ω := ω) prim config a request (dispatch prim config a request) := by
  refine .ite (fun _ => .pure _) fun _ => ?_
  cases request with
  | status =>
    exact .bind_quiet .get fun _ => .ite (fun _ => .pure _) fun _ => .ite (fun _ => .pure _) fun _ =>
      .ite (fun _ => .pure _) fun _ => .pure _
  | unlock passphrase => exact serves_unlock a passphrase
  | lock =>
    exact serves_withVault a (.bind_quiet (.call .lock (fun _ => .unit) fun _ => rfl) fun _ => .pure _)
  | put objectId text => exact serves_put a objectId text
  | putStream objectId items => exact .pure _
  | get objectId => exact serves_get a objectId
  | getStream objectId => exact .pure _
  | rotatePassphrase current replacement =>
    exact serves_withVault a (.bind_quiet (.call (.rotatePassphrase current replacement)
      (fun _ => .unit) fun _ => rfl) fun _ => .pure _)
  | verify =>
    refine .ite (fun _ => .pure _) fun _ => .bind_quiet (serves_runVault (makesCalls_verifyResult a))
      fun result => ?_
    cases result with
    | ok n =>
      exact .ite (fun _ => .pure _) fun _ => .bind_quiet (.modify (fun _ => rfl) fun _ => rfl)
        fun _ => .pure _
    | error e => exact .pure _
  | checkpoint =>
    exact serves_withVault a
      (.bind_quiet (.call .fullCheckpoint (fun _ => .unit) fun _ => rfl) fun _ => .pure _)
  | backup destination =>
    exact .ite (fun _ => .pure _) fun _ => serves_withVault a
      (.bind_quiet (.call (.backupTo destination) .backup fun _ => rfl) fun _ => .pure _)
  | shutdown =>
    exact .ite (fun _ => .bind_quiet (.modify (fun _ => rfl) fun _ => rfl) fun _ => .pure _) fun _ =>
      .pure _

variable (prim config) in
/-- An exchange with a client makes the calls of its request. -/
theorem serves_serveStream (a : Arrival) (request : Option Request) :
    ServesCalls (ω := ω) prim (config.provider prim) (DaemonInput.script prim config (.request a request))
      (serveStream prim config a request) := by
  refine .ite (fun _ => ?_) fun _ => .pure _
  split
  · rename_i objectId items
    unfold putStream DaemonInput.script
    dsimp only
    refine .ite (fun _ => .pure _) fun _ => ?_
    cases parseRequestObjectId objectId with
    | error response => exact .pure _
    | ok o =>
      refine .ite (fun _ => .pure _) fun _ => .ite (fun _ => .pure _) fun _ => .bind_quiet
        (serves_runVault (.call (.putFromReader o (streamReader items) defaultChunkSize) .version
          fun _ => rfl)) fun result => ?_
      cases result <;> exact .pure _
  · rename_i objectId
    unfold getStream DaemonInput.script
    dsimp only
    refine .ite (fun _ => .pure _) fun _ => ?_
    cases parseRequestObjectId objectId with
    | error response => exact .pure _
    | ok o =>
      refine .ite (fun _ => .pure _) fun _ => .ite (fun _ => .pure _) fun _ => ?_
      -- the library call clears the writer, as the handler does
      rw [runVault_after_clear]
      refine .bind_quiet (serves_runVault (.call (.getToWriter o) (fun _ => .unit) fun _ => ?_))
        fun result => .bind_quiet .get fun _ => ?_
      · rfl
      · cases result <;> exact .pure _
  · rename_i request _ _
    exact .bind_quiet (serves_dispatch a request) fun _ => .pure _
  · exact .pure _

end

/-! ### Steps and runs -/

section

variable {ω : Type} {prim : Primitives} {config : DaemonConfig}

/-- A process that is not up holds no Root Key. -/
def DaemonState.Settled (s : DaemonState ω) : Prop :=
  s.running = false → s.world.vault.rootKey = none

/-- The input replaces the database file. -/
def DaemonInput.Replaces : DaemonInput → Prop
  | .replaceDatabase _ => True
  | _ => False

/-- Locking a locked vault does nothing. -/
theorem World.locked_eq_self {w : World ω} (h : w.vault.rootKey = none) : w.locked = w := by
  obtain ⟨⟨envelope, rootKey⟩, db, sink, history, outside⟩ := w
  obtain rfl : rootKey = none := h
  rfl

variable [Machine ω]

/-- Opening a vault leaves a locked one locked, however it ends. -/
theorem keeps_openVault_locked : Op.Keeps (fun w w' : World ω => w.vault.rootKey = none →
    w'.vault.rootKey = none) (openVault prim) := by
  have hrelation : QueryRelation fun w w' : World ω => w.vault.rootKey = none →
      w'.vault.rootKey = none :=
    { refl := fun _ h => h
      trans := fun _ _ _ h h' hw => h' (h hw)
      serve := fun _ _ _ h => h
      interfere := fun _ h => h }
  exact Op.Keeps.bind keeps_enforceOwnerPrivateStateFiles fun _ =>
    Op.Keeps.bind (keeps_query _) fun _ => Op.Keeps.bind (keeps_query _) fun _ => fun _ _ => rfl

variable [Transport ω]

/-- A running daemon answers a request with what its handler returns. -/
theorem daemonStep_of_ok {s s' : DaemonState ω} {a : Arrival} {request : Option Request}
    {frames : List Frame} (hrunning : s.running = true)
    (h : serveStream prim config a request s = .ok frames s') :
    daemonStep prim config s (.request a request) = (frames, s') := by
  unfold daemonStep
  dsimp only
  rw [if_pos hrunning, h]

/-- A daemon that dies in a request has not answered it. -/
theorem daemonStep_of_crashed {s s' : DaemonState ω} {a : Arrival} {request : Option Request}
    (hrunning : s.running = true) (h : serveStream prim config a request s = .crashed s') :
    daemonStep prim config s (.request a request) = ([], s'.down) := by
  unfold daemonStep
  dsimp only
  rw [if_pos hrunning, h]

/-- A daemon that is down serves no request. -/
theorem daemonStep_of_down {s : DaemonState ω} (hdown : ¬s.running = true) (a : Arrival)
    (request : Option Request) : daemonStep prim config s (.request a request) = ([], s) := by
  unfold daemonStep
  dsimp only
  rw [if_neg hdown]

variable (prim config) in
/-- **A daemon makes library calls.** A step of the daemon leaves the vault, and the handle on it, as
some of the calls of its input do, in their order. -/
theorem daemonStep_calls {s : DaemonState ω} (hs : s.Settled) {input : DaemonInput}
    (hinput : ¬input.Replaces) :
    (daemonStep prim config s input).2.Settled ∧
      ∃ calls, calls.Sublist (DaemonInput.script prim config input) ∧
        Run.final (sessionStep prim (config.provider prim)) s.session calls =
          (daemonStep prim config s input).2.session := by
  cases input with
  | request a request =>
    unfold daemonStep
    dsimp only
    by_cases hrunning : s.running = true
    · rw [if_pos hrunning]
      obtain ⟨hstays, calls, hcalls, hfinal⟩ :=
        serves_serveStream prim config a request s
      have hsession : s.session = ⟨s.world, true⟩ := by rw [DaemonState.session, hrunning]
      rw [hsession]
      -- a process that has served a request is up
      have hup : ∀ s' : DaemonState ω, s'.running = s.running →
          s'.Settled ∧ s'.session = ⟨s'.world, true⟩ := by
        intro s' hs'
        rw [hrunning] at hs'
        exact ⟨fun hdown => (by rw [hs'] at hdown; cases hdown), by rw [DaemonState.session, hs']⟩
      cases hout : serveStream prim config a request s with
      | ok frames s' =>
        rw [hout] at hstays hfinal
        exact ⟨(hup s' hstays).1, calls, hcalls, hfinal.trans (hup s' hstays).2.symm⟩
      | failed e s' =>
        rw [hout] at hstays hfinal
        exact ⟨(hup s' hstays).1, calls, hcalls, hfinal.trans (hup s' hstays).2.symm⟩
      | crashed s' =>
        rw [hout] at hfinal
        exact ⟨fun _ => rfl, calls, hcalls, hfinal⟩
    · rw [if_neg hrunning]
      exact ⟨hs, [], List.nil_sublist _, rfl⟩
  | kill => exact ⟨fun _ => rfl, [.drop], List.Sublist.refl _, rfl⟩
  | start =>
    unfold daemonStep
    dsimp only
    by_cases hrunning : s.running = true
    · rw [if_pos hrunning]
      exact ⟨hs, [], List.nil_sublist _, rfl⟩
    · rw [if_neg hrunning]
      have hdown : s.running = false := by simpa using hrunning
      have hlocked : (openVault prim s.world).state.vault.rootKey = none :=
        keeps_openVault_locked s.world (hs hdown)
      -- a vault that could not be opened is the locked one from before
      cases hout : openVault prim s.world with
      | ok _ w =>
        refine ⟨fun h => (by cases h), [.reopen], List.Sublist.refl _, ?_⟩
        simp only [Run.final, sessionStep, DaemonState.session, hout]
      | failed e w =>
        rw [hout] at hlocked
        refine ⟨fun _ => hlocked, [.reopen], List.Sublist.refl _, ?_⟩
        simp only [Run.final, sessionStep, DaemonState.session, hout, hdown]
        rw [World.locked_eq_self (w := w) hlocked]
      | crashed w =>
        rw [hout] at hlocked
        refine ⟨fun _ => hlocked, [.reopen], List.Sublist.refl _, ?_⟩
        simp only [Run.final, sessionStep, DaemonState.session, hout, hdown]
        rw [World.locked_eq_self (w := w) hlocked]
  | elapse => exact ⟨hs, [.elapse], List.Sublist.refl _, rfl⟩
  | replaceDatabase db => exact absurd trivial hinput

variable (prim config) in
/-- A run of a daemon leaves the vault as a run of some of the calls of its inputs does. -/
theorem daemon_run_calls {s : DaemonState ω} (hs : s.Settled) {inputs : List DaemonInput}
    (hinputs : ∀ input ∈ inputs, ¬input.Replaces) :
    ∃ calls, calls.Sublist (inputs.flatMap (DaemonInput.script prim config)) ∧
      Run.final (sessionStep prim (config.provider prim)) s.session calls =
        (Run.final (daemonStep prim config) s inputs).session := by
  induction inputs generalizing s with
  | nil => exact ⟨[], List.nil_sublist _, rfl⟩
  | cons input inputs ih =>
    obtain ⟨hsettled, calls, hcalls, hfinal⟩ :=
      daemonStep_calls prim config hs (hinputs input List.mem_cons_self)
    obtain ⟨calls', hcalls', hfinal'⟩ :=
      ih hsettled fun i hi => hinputs i (List.mem_cons_of_mem _ hi)
    refine ⟨calls ++ calls', ?_, ?_⟩
    · rw [List.flatMap_cons]
      exact hcalls.append hcalls'
    · rw [Run.final_append, hfinal, hfinal', Run.final_cons]

end

/-! ### Changes -/

section

variable {ω : Type} [Machine ω] [Exclusive ω] {prim : Primitives} {config : DaemonConfig}

/-- What the changes of some calls keep, a run of the calls keeps. -/
theorem session_run_changes {provider : WitnessProvider ω} {I : World ω → Prop} {s : SessionState ω}
    {calls : List VaultCall} (hstep : ∀ call ∈ calls, ∀ w₀ w w' : World ω,
      Change prim call w₀ w w' → I w → I w') (h : I s.world) :
    I (Run.final (sessionStep prim provider) s calls).world := by
  induction calls generalizing s with
  | nil => exact h
  | cons call calls ih =>
    have hchanges : Changes prim call s.world s.world (sessionStep prim provider s call).2.world :=
      sessionStep_changes s call
    exact ih (fun c hc => hstep c (List.mem_cons_of_mem _ hc))
      (hchanges.invariant (hstep call List.mem_cons_self s.world) h)

variable [Transport ω]

/-- What the changes of the calls of an input keep, a step of the daemon keeps. -/
theorem daemonStep_changes {I : World ω → Prop} {s : DaemonState ω} (hs : s.Settled)
    {input : DaemonInput} (hinput : ¬input.Replaces)
    (hstep : ∀ call, DaemonInput.Calls prim config input call → ∀ w₀ w w' : World ω,
      Change prim call w₀ w w' → I w → I w') (h : I s.world) :
    I (daemonStep prim config s input).2.world := by
  obtain ⟨-, calls, hcalls, hfinal⟩ := daemonStep_calls prim config hs hinput
  show I (daemonStep prim config s input).2.session.world
  rw [← hfinal]
  exact session_run_changes (fun call hcall =>
    hstep call (DaemonInput.calls_of_mem_script (hcalls.subset hcall))) h

/-- What the changes of the calls of some inputs keep, a run of the daemon keeps. -/
theorem daemon_run_changes {I : World ω → Prop} {s : DaemonState ω} (hs : s.Settled)
    {inputs : List DaemonInput} (hinputs : ∀ input ∈ inputs, ¬input.Replaces)
    (hstep : ∀ input ∈ inputs, ∀ call, DaemonInput.Calls prim config input call →
      ∀ w₀ w w' : World ω, Change prim call w₀ w w' → I w → I w') (h : I s.world) :
    I (Run.final (daemonStep prim config) s inputs).world := by
  obtain ⟨calls, hcalls, hfinal⟩ := daemon_run_calls prim config hs hinputs
  show I (Run.final (daemonStep prim config) s inputs).session.world
  rw [← hfinal]
  refine session_run_changes (fun call hcall => ?_) h
  obtain ⟨input, hinput, hmem⟩ := List.mem_flatMap.mp (hcalls.subset hcall)
  exact hstep input hinput call (DaemonInput.calls_of_mem_script hmem)

end

end Vlt1

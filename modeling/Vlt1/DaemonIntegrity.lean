import Vlt1.DaemonCalls
import Vlt1.ReadIntegrity
import Vlt1.StrictReads
import Vlt1.Upload

/-!
# Integrity of what the daemon sends

The daemon hands out plaintext in two ways: in the answer to `get`, and as the data items of a download.
`daemon_releases_supplied` carries the integrity of reads over to both, for runs of the daemon in either
profile: what leaves it was uploaded before, by `put` or by `put_stream`, for the same object. The
database may be replaced between any two requests, and other programs may write to it at any time.
-/

namespace Vlt1

open Effect

/-- The object and the plaintext an input of the daemon supplies. -/
inductive DaemonInput.Supplies (prim : Primitives) : DaemonInput → ObjectId → Bytes → Prop
  | put (a : Arrival) {objectId text : Text} {o : ObjectId} {plaintext : Bytes}
      (ho : parseRequestObjectId objectId = .ok o)
      (hplaintext : prim.base64Decode text = some plaintext) :
      Supplies prim (.request a (some (.put objectId text))) o plaintext
  | putStream (a : Arrival) {objectId : Text} (items : List StreamItem) {o : ObjectId}
      (ho : parseRequestObjectId objectId = .ok o) :
      Supplies prim (.request a (some (.putStream objectId items))) o
        ((streamReader items).chunks defaultChunkSize).1.flatten

/-- The submission has the object and the plaintext of one of the inputs. -/
def Submission.UploadedBy (prim : Primitives) (inputs : List DaemonInput) (s : Submission) : Prop :=
  ∃ input ∈ inputs, input.Supplies prim s.objectId s.plaintext

/-- What the calls of an input supply, the input supplies. -/
theorem DaemonInput.Calls.supplies {prim : Primitives} {config : DaemonConfig} {input : DaemonInput}
    {call : VaultCall} (h : DaemonInput.Calls prim config input call) {o : ObjectId} {b : Bytes}
    (hsupplies : call.Supplies o b) : input.Supplies prim o b := by
  cases hsupplies with
  | put _ _ _ =>
    cases h with
    | put a _ ho hplaintext => exact .put a ho hplaintext
  | putFromReader _ _ _ =>
    cases h with
    | putStream a items ho => exact .putStream a items ho
  | putWithWitness _ _ =>
    cases h with
    | putWithWitness a _ ho hplaintext => exact .put a ho hplaintext

section

variable {ω : Type} [Machine ω] [Transport ω] {prim : Primitives} {config : DaemonConfig}
  {P : Submission → Prop}

/-! ### The ledger of a daemon -/

variable (config) in
/-- A step of the daemon keeps the ledger of what its inputs have supplied. -/
theorem Ledger.daemonStep {s : DaemonState ω} (hs : s.Settled) (h : Ledger P s.world.history)
    (input : DaemonInput) (hP : ∀ t : Submission, input.Supplies prim t.objectId t.plaintext → P t) :
    (daemonStep prim config s input).2.Settled ∧
      Ledger P (daemonStep prim config s input).2.world.history := by
  by_cases hreplaces : input.Replaces
  · cases input with
    | replaceDatabase db => exact ⟨hs, h⟩
    | _ => exact hreplaces.elim
  · obtain ⟨hsettled, calls, hcalls, hfinal⟩ := daemonStep_calls prim config hs hreplaces
    refine ⟨hsettled, ?_⟩
    have hrun := Ledger.run prim (config.provider prim) (s := s.session) h calls
      fun call hcall t ht =>
        hP t ((DaemonInput.calls_of_mem_script (hcalls.subset hcall)).supplies ht)
    rw [hfinal] at hrun
    exact hrun

/-- A run of the daemon keeps it. -/
theorem Ledger.daemon_run {s : DaemonState ω} (hs : s.Settled) (h : Ledger P s.world.history)
    (inputs : List DaemonInput)
    (hP : ∀ input ∈ inputs, ∀ t : Submission, input.Supplies prim t.objectId t.plaintext → P t) :
    Ledger P (Run.final (Vlt1.daemonStep prim config) s inputs).world.history := by
  induction inputs generalizing s with
  | nil => exact h
  | cons input inputs ih =>
    obtain ⟨hsettled, hledger⟩ := h.daemonStep config hs input
      (hP input List.mem_cons_self)
    exact ih hsettled hledger fun i hi => hP i (List.mem_cons_of_mem _ hi)

/-! ### The frames with plaintext -/

omit [Machine ω] [Transport ω] in
/-- An operation whose result is sent has returned it. -/
theorem withVault_ok {a : Arrival} {operation : VaultOp ω Success} {success : Success}
    {s s' : DaemonState ω} (h : withVault a operation s = .ok (.ok success) s') :
    operation s.world = .ok success s'.world := by
  unfold withVault at h
  split at h
  · cases h
  · obtain ⟨result, s1, hrun, hrespond⟩ := Op.bind_eq_ok.mp h
    unfold runVault at hrun
    cases hout : operation s.world with
    | ok found w' =>
      rw [hout] at hrun
      cases hrun
      cases hrespond
      rfl
    | failed e w' =>
      rw [hout] at hrun
      cases hrun
      -- an error is answered with an error
      obtain ⟨code, message, hmap⟩ := mapVaultError_eq_error e
      have hanswer : (Outcome.ok (mapVaultError e) _ : Outcome VaultError (DaemonState ω) Response) =
        .ok (.ok success) s' := hrespond
      rw [hmap] at hanswer
      cases hanswer
    | crashed w' =>
      rw [hout] at hrun
      cases hrun

omit [Machine ω] in
theorem withWitness_ok {a : Arrival} {operation : WitnessProvider ω → VaultOp ω Success}
    {success : Success} {s s' : DaemonState ω}
    (h : withWitness prim config a operation s = .ok (.ok success) s') :
    ∃ p, config.witness = some p ∧ operation (p.provider prim) s.world = .ok success s'.world := by
  unfold withWitness at h
  cases hconfig : config.witness with
  | none =>
    rw [hconfig] at h
    cases h
  | some p =>
    rw [hconfig] at h
    dsimp only at h
    split at h
    · cases h
    · exact ⟨p, rfl, withVault_ok h⟩

omit [Transport ω] in
/-- A verification that returned has read, and nothing else. -/
theorem observed_of_verifyActiveObjectsWithWitness {provider : WitnessProvider ω} {w w' : World ω}
    {n : UInt64} (h : verifyActiveObjectsWithWitness prim provider w = .ok n w') : w.Observed w' := by
  have hinner := lockAfterFailure_eq_ok.mp h
  exact (Op.Keeps.bind keeps_requireRootKey fun _ => Op.Keeps.bind keeps_activeObjectIds fun _ =>
    Op.Keeps.bind (Op.Keeps.fold (fun _ o => keeps_verifyWithWitness prim provider.keeps_observed o)
      _ _) fun _ => keeps_countOf _ _).of_ok hinner

variable (prim config) in
/-- The state `x` is where a `get` request that found the state `w` reads: after the sweep, in the strict
profile. -/
def ReadsFrom (w x : World ω) : Prop :=
  x = w ∨ ∃ (p : HttpsWitnessProvider) (n : UInt64), config.witness = some p ∧
    verifyActiveObjectsWithWitness prim (p.provider prim) w = .ok n x

theorem ReadsFrom.observed {w x : World ω} (h : ReadsFrom prim config w x) : w.Observed x := by
  rcases h with rfl | ⟨p, n, -, hsweep⟩
  · exact Std.Refl.refl _
  · exact observed_of_verifyActiveObjectsWithWitness hsweep

/-- A plaintext in an answer to `get` was returned by `get`. -/
theorem serveGet_plaintext {a : Arrival} {objectId text : Text} {s s' : DaemonState ω}
    (h : serveGet prim config a objectId s = .ok (.ok (.plaintext text)) s') :
    ∃ o bytes x x', parseRequestObjectId objectId = .ok o ∧ ReadsFrom prim config s.world x ∧
      get prim o x = .ok bytes x' ∧ text = prim.base64Encode bytes := by
  unfold serveGet at h
  cases hparse : parseRequestObjectId objectId with
  | error response =>
    rw [hparse] at h
    cases h
    exact absurd hparse fun hparse' => (answers_not_releasesPlaintext ω).parse hparse' trivial
  | ok o =>
    rw [hparse] at h
    dsimp only at h
    split at h
    · -- in the strict profile the sweep comes first
      obtain ⟨p, hconfig, hoperation⟩ := withWitness_ok h
      obtain ⟨n, x, hsweep, hread⟩ := Op.bind_eq_ok.mp hoperation
      obtain ⟨bytes, x', hget, hreturn⟩ := Op.bind_eq_ok.mp hread
      cases hreturn
      exact ⟨o, bytes, x, _, rfl, .inr ⟨p, n, hconfig, hsweep⟩, hget, rfl⟩
    · obtain ⟨bytes, x', hget, hreturn⟩ := Op.bind_eq_ok.mp (withVault_ok h)
      cases hreturn
      exact ⟨o, bytes, s.world, _, rfl, .inl rfl, hget, rfl⟩

/-- Neither plaintext nor a result: the sign that a stream may start, or an error. -/
def Frame.Refuses : Frame → Prop
  | .response (.ok .streamReady) | .response (.error _ _) | .streamError _ => True
  | _ => False

omit [Transport ω] in
/-- A download is turned away, or sends what the writer of the read has received, and the end of the stream
when the read returned. -/
theorem getStream_cases {a : Arrival} {objectId : Text} {s s' : DaemonState ω} {frames : List Frame}
    (h : getStream prim a objectId s = .ok frames s') :
    (∀ f ∈ frames, f.Refuses) ∨
      ∃ o last, parseRequestObjectId objectId = .ok o ∧
        frames = [.response (.ok .streamReady),
          .data (getToWriter prim o .stream { s.world with sink := [] }).state.sink, last] ∧
        (last = .streamEnd ∧
            (getToWriter prim o .stream { s.world with sink := [] }).result = some (.ok ()) ∨
          ∃ e, last = .streamError (mapVaultError e)) := by
  unfold getStream at h
  split at h
  · cases h
    refine .inl fun f hf => ?_
    rw [List.mem_singleton.mp hf]
    trivial
  · cases hparse : parseRequestObjectId objectId with
    | error response =>
      rw [hparse] at h
      cases h
      refine .inl fun f hf => ?_
      obtain ⟨message, rfl⟩ := Protocol.parseRequestObjectId_error hparse
      rw [List.mem_singleton.mp hf]
      trivial
    | ok o =>
      rw [hparse] at h
      dsimp only at h
      split at h
      · cases h
        exact .inl fun f hf => absurd hf List.not_mem_nil
      · split at h
        · cases h
          refine .inl fun f hf => ?_
          simp only [List.mem_cons, List.not_mem_nil, or_false] at hf
          rcases hf with rfl | rfl <;> trivial
        · -- the read was made
          obtain ⟨_, s1, hclear, hrest⟩ := Op.bind_eq_ok.mp h
          cases hclear
          obtain ⟨result, s2, hrun, hsend⟩ := Op.bind_eq_ok.mp hrest
          unfold runVault at hrun
          dsimp only at hrun
          cases hout : getToWriter prim o .stream { s.world with sink := [] } with
          | ok x w' =>
            rw [hout] at hrun
            cases hrun
            cases hsend
            refine .inr ⟨o, .streamEnd, rfl, ?_, .inl ⟨rfl, ?_⟩⟩
            · rw [hout]
              rfl
            · rw [hout]
              rfl
          | failed e w' =>
            rw [hout] at hrun
            cases hrun
            cases hsend
            refine .inr ⟨o, _, rfl, ?_, .inr ⟨e, rfl⟩⟩
            rw [hout]
            rfl
          | crashed w' =>
            rw [hout] at hrun
            cases hrun

omit [Transport ω] in
/-- An upload is turned away, or was published by the streaming path and is answered so. -/
theorem putStream_cases {s s' : DaemonState ω} {a : Arrival} {objectId : Text} {items : List StreamItem}
    {frames : List Frame} (h : putStream prim a objectId items s = .ok frames s') :
    (∀ f ∈ frames, f.Refuses) ∨
      ∃ o version, parseRequestObjectId objectId = .ok o ∧
        putFromReader prim o (streamReader items) s.world = .ok version s'.world ∧
        frames = [.response (.ok .streamReady), .response (.ok (.published version.toHex))] := by
  have hone {f : Frame} (hf : f.Refuses) : ∀ g ∈ [f], g.Refuses := by
    intro g hg
    rwa [List.mem_singleton.mp hg]
  have htwo {f : Frame} (hf : f.Refuses) : ∀ g ∈ [.response (.ok .streamReady), f], g.Refuses := by
    intro g hg
    simp only [List.mem_cons, List.not_mem_nil, or_false] at hg
    rcases hg with rfl | rfl
    · trivial
    · exact hf
  unfold putStream at h
  by_cases hbusy : a.longOperationActive = true
  · rw [if_pos hbusy] at h
    cases h
    exact .inl (hone trivial)
  rw [if_neg hbusy] at h
  cases hparse : parseRequestObjectId objectId with
  | error response =>
    rw [hparse] at h
    cases h
    obtain ⟨message, rfl⟩ := Protocol.parseRequestObjectId_error hparse
    exact .inl (hone trivial)
  | ok o =>
  rw [hparse] at h
  dsimp only at h
  by_cases hready : a.readyWritten = false
  · rw [if_pos hready] at h
    cases h
    exact .inl fun f hf => absurd hf List.not_mem_nil
  rw [if_neg hready] at h
  by_cases hpoisoned : a.vaultMutexPoisoned = true
  · rw [if_pos hpoisoned] at h
    cases h
    exact .inl (htwo trivial)
  rw [if_neg hpoisoned] at h
  obtain ⟨result, s1, hrun, hreturn⟩ := Op.bind_eq_ok.mp h
  rcases Protocol.runVault_eq_ok hrun with ⟨version, rfl, hput⟩ | ⟨e, rfl, hput⟩
  · cases hreturn
    exact .inr ⟨o, version, rfl, hput, rfl⟩
  · cases hreturn
    exact .inl (htwo trivial)

/-- An answer with a plaintext is the answer to a `get`. -/
theorem serveStream_plaintext {a : Arrival} {request : Option Request} {text : Text}
    {s s' : DaemonState ω} {frames : List Frame}
    (h : serveStream prim config a request s = .ok frames s')
    (hframe : .response (.ok (.plaintext text)) ∈ frames) :
    ∃ objectId o bytes x x', request = some (.get objectId) ∧
      parseRequestObjectId objectId = .ok o ∧ ReadsFrom prim config s.world x ∧
      get prim o x = .ok bytes x' ∧ text = prim.base64Encode bytes := by
  have hplain : (Frame.response (.ok (.plaintext text))).ReleasesPlaintext := trivial
  unfold serveStream at h
  split at h
  · split at h
    · exact absurd hplain (putStream_returns _ _ _ _ _ h _ hframe)
    · rcases getStream_cases h with hnone | ⟨o, last, -, rfl, hlast⟩
      · exact (hnone _ hframe).elim
      · -- neither the first nor the last frame of a download is such an answer
        simp only [List.mem_cons, List.not_mem_nil, or_false] at hframe
        rcases hframe with hframe | hframe | hframe
        · cases hframe
        · cases hframe
        · rcases hlast with ⟨rfl, -⟩ | ⟨e, rfl⟩ <;> cases hframe
    · rename_i request _ _
      obtain ⟨r, s1, hdispatch, hreturn⟩ := Op.bind_eq_ok.mp h
      cases hreturn
      obtain rfl : Response.ok (.plaintext text) = r := by simpa using hframe
      by_cases hget : ∃ objectId, request = .get objectId
      · obtain ⟨objectId, rfl⟩ := hget
        simp only [dispatch] at hdispatch
        split at hdispatch
        · cases hdispatch
        · obtain ⟨o, bytes, x, x', hread⟩ := serveGet_plaintext hdispatch
          exact ⟨objectId, o, bytes, x, x', rfl, hread⟩
      · exact absurd hplain ((answers_not_releasesPlaintext ω).dispatch
          (fun objectId h => hget ⟨objectId, h⟩) _ _ _ hdispatch)
    · cases h
      cases List.mem_singleton.mp hframe
  · cases h
    cases List.mem_singleton.mp hframe

/-- The data of a download went to the writer of a read, and the end is sent when the read returned. -/
theorem serveStream_data {a : Arrival} {request : Option Request} {bytes : Bytes}
    {s s' : DaemonState ω} {frames : List Frame}
    (h : serveStream prim config a request s = .ok frames s') (hframe : .data bytes ∈ frames) :
    ∃ objectId o, request = some (.getStream objectId) ∧ parseRequestObjectId objectId = .ok o ∧
      bytes = (getToWriter prim o .stream { s.world with sink := [] }).state.sink ∧
      (.streamEnd ∈ frames →
        (getToWriter prim o .stream { s.world with sink := [] }).result = some (.ok ())) := by
  unfold serveStream at h
  split at h
  · split at h
    · rcases putStream_cases h with hnone | ⟨o, version, -, -, rfl⟩
      · exact (hnone _ hframe).elim
      · simp at hframe
    · rename_i objectId
      rcases getStream_cases h with hnone | ⟨o, last, hparse, rfl, hlast⟩
      · exact (hnone _ hframe).elim
      · refine ⟨objectId, o, rfl, hparse, ?_, fun hend => ?_⟩
        · simp only [List.mem_cons, List.not_mem_nil, or_false] at hframe
          rcases hframe with hframe | hframe | hframe
          · cases hframe
          · cases hframe
            rfl
          · rcases hlast with ⟨rfl, -⟩ | ⟨e, rfl⟩ <;> cases hframe
        · rcases hlast with ⟨rfl, hok⟩ | ⟨e, rfl⟩
          · exact hok
          · simp at hend
    · obtain ⟨r, s1, hdispatch, hreturn⟩ := Op.bind_eq_ok.mp h
      cases hreturn
      cases List.mem_singleton.mp hframe
    · cases h
      cases List.mem_singleton.mp hframe
  · cases h
    cases List.mem_singleton.mp hframe

/-! ### Runs -/

/-- Only an exchange with a client has an output. -/
theorem exchange_of_frame {s : DaemonState ω} {input : DaemonInput} {f : Frame}
    (h : f ∈ (daemonStep prim config s input).1) : ∃ a request frames s',
      input = .request a request ∧ serveStream prim config a request s = .ok frames s' ∧
      daemonStep prim config s input = (frames, s') := by
  cases input with
  | request a request =>
    unfold daemonStep at h ⊢
    dsimp only at h ⊢
    split at h
    · rename_i hrunning
      rw [if_pos hrunning]
      cases hserve : serveStream prim config a request s with
      | ok frames s' => exact ⟨a, request, frames, s', rfl, hserve, rfl⟩
      | failed e s' => rw [hserve] at h; exact absurd h List.not_mem_nil
      | crashed s' => rw [hserve] at h; exact absurd h List.not_mem_nil
    · exact absurd h List.not_mem_nil
  | start =>
    unfold daemonStep at h
    dsimp only at h
    split at h
    · exact absurd h List.not_mem_nil
    · split at h <;> exact absurd h List.not_mem_nil
  | _ => exact absurd h List.not_mem_nil

/-- The input asks for the object. -/
inductive DaemonInput.Asks : DaemonInput → ObjectId → Prop
  | get (a : Arrival) {objectId : Text} {o : ObjectId} (ho : parseRequestObjectId objectId = .ok o) :
      Asks (.request a (some (.get objectId))) o
  | getStream (a : Arrival) {objectId : Text} {o : ObjectId}
      (ho : parseRequestObjectId objectId = .ok o) : Asks (.request a (some (.getStream objectId))) o

/-- **The daemon sends what was uploaded.** In every run of a daemon, in either profile, on a vault
created for it: a plaintext it sends in answer to a `get` was uploaded for the object by an earlier
input, and what it sends of a download, however that ends, is a beginning of such a plaintext, and all of
it when the end of the stream is sent. For downloads other programs must not write to the chunks.

No version identifier was drawn twice in the run, and of the records that the read for this input tries to
open, none is forged. -/
theorem daemon_releases_supplied {passphrase : Text} {w₀ w : World ω} {u : Unit}
    (hnew : w₀.history = []) (hcreate : create prim passphrase w₀ = .ok u w) {s₀ s : DaemonState ω}
    (hs₀ : s₀.world = w.locked) (inputs : List DaemonInput)
    (hs : Run.final (daemonStep prim config) s₀ inputs = s)
    (hfresh : (drawnVersions s.world.history).Nodup)
    (input : DaemonInput) (hunforged : ∀ o x, input.Asks o → ReadsFrom prim config s.world x →
      Unforged prim s.world.history (ReadOpens prim o { x with sink := [] })) :
    (∀ text, .response (.ok (.plaintext text)) ∈ (daemonStep prim config s input).1 →
      ∃ a objectId o plaintext, input = .request a (some (.get objectId)) ∧
        parseRequestObjectId objectId = .ok o ∧ text = prim.base64Encode plaintext ∧
        ∃ i ∈ inputs, i.Supplies prim o plaintext) ∧
    (Machine.KeepsChunks ω → ∀ bytes, .data bytes ∈ (daemonStep prim config s input).1 →
      ∃ a objectId o, input = .request a (some (.getStream objectId)) ∧
        parseRequestObjectId objectId = .ok o ∧
        ((bytes = [] ∧ .streamEnd ∉ (daemonStep prim config s input).1) ∨
          ∃ plaintext, bytes <+: plaintext ∧
            (.streamEnd ∈ (daemonStep prim config s input).1 → bytes = plaintext) ∧
            ∃ i ∈ inputs, i.Supplies prim o plaintext)) := by
  have hledger : Ledger (Submission.UploadedBy prim inputs) s.world.history := by
    rw [← hs]
    refine Ledger.daemon_run (fun _ => by rw [hs₀]; rfl) ?_ inputs fun i hi t ht => ⟨i, hi, ht⟩
    rw [hs₀]
    show Ledger _ w.history
    exact (ledger_create passphrase).of_ok hcreate
      ⟨[], fun _ h => absurd h List.not_mem_nil, hnew ▸ Accounts.nil⟩
  obtain ⟨submissions, huploaded, haccounts⟩ := hledger
  refine ⟨fun text htext => ?_, fun hchunks bytes hbytes => ?_⟩
  · obtain ⟨a, request, frames, s', rfl, hserve, hframes⟩ := exchange_of_frame htext
    rw [hframes] at htext
    obtain ⟨objectId, o, bytes, x, x', rfl, hparse, hx, hget, rfl⟩ := serveStream_plaintext hserve htext
    obtain ⟨t, ht, rfl, rfl⟩ := get_submission haccounts hfresh (hunforged o x (.get a hparse) hx) hget
    exact ⟨a, objectId, t.objectId, t.plaintext, rfl, hparse, rfl, huploaded t ht⟩
  · obtain ⟨a, request, frames, s', rfl, hserve, hstep⟩ := exchange_of_frame hbytes
    rw [hstep] at hbytes ⊢
    obtain ⟨objectId, o, rfl, hparse, rfl, hend⟩ := serveStream_data hserve hbytes
    refine ⟨a, objectId, o, rfl, hparse, ?_⟩
    rcases getToWriter_submission haccounts hfresh
      (hunforged o s.world (.getStream a hparse) (.inl rfl)) (fun c => c.sameRows hchunks) rfl with
      ⟨hnothing, hnot⟩ | ⟨t, ht, ho, hwritten, hall⟩
    · exact .inl ⟨hnothing, fun h => hnot (hend h)⟩
    · obtain ⟨i, hi, hsupplies⟩ := huploaded t ht
      rw [ho] at hsupplies
      exact .inr ⟨t.plaintext, hwritten, fun h => hall (hend h), i, hi, hsupplies⟩

end

/-! ### Samples -/

/-- The daemon of the sample after its inputs. -/
def uploadState : DaemonState SampleChannel :=
  Run.final (daemonStep .transparent sampleConfig) ⟨mapWorld.locked, false, none, false⟩ sampleInputs

/-- What happens in the sample, in one evaluation. -/
theorem upload_run :
    (drawnVersions uploadState.world.history).Nodup ∧
    (∀ record ∈ uploadState.world.db.recordsOf (.repeated 2),
      wasSealed .transparent uploadState.world.history record = true) ∧
    (daemonStep .transparent sampleConfig uploadState (.ask (.getStream sampleObject))).1 =
      [.response (.ok .streamReady), .data [97], .streamEnd] ∧
    parseRequestObjectId sampleObject = .ok (.repeated 2) := by
  decide +kernel

/-- A `get` of the sample reads the tables that its request has found. -/
theorem unforged_readsFrom {w x : World SampleChannel} {o : ObjectId} {history : List Event}
    (h : ∀ record ∈ w.db.recordsOf o, wasSealed .transparent history record = true)
    (hx : ReadsFrom .transparent sampleConfig w x) :
    Unforged .transparent history (ReadOpens .transparent o { x with sink := [] }) := by
  have hdb : x.db = w.db := by
    rcases hx with rfl | ⟨p, n, -, hsweep⟩
    · rfl
    · exact (verifyActiveObjectsWithWitness_ok
        (HttpsWitnessProvider.provider .transparent p).keeps_untouched hsweep).1.db
  rw [← hdb] at h
  exact unforged_sample (w := { x with sink := [] }) h

theorem daemon_releases_supplied_sample :
    (daemonStep .transparent sampleConfig uploadState (.ask (.getStream sampleObject))).1 =
      [.response (.ok .streamReady), .data [97], .streamEnd] ∧
    ∃ i ∈ sampleInputs, i.Supplies .transparent (.repeated 2) [97] := by
  obtain ⟨hnodup, hsealed, hsent, hparse⟩ := upload_run
  refine ⟨hsent, ?_⟩
  have hchunks : Machine.KeepsChunks SampleChannel := fun _ _ => by rw [Exclusive.interfere_fst]
  have hrun : Run.final (daemonStep .transparent sampleConfig) ⟨mapWorld.locked, false, none, false⟩
      sampleInputs = uploadState := rfl
  have hunforged : ∀ o x, (DaemonInput.ask (.getStream sampleObject)).Asks o →
      ReadsFrom .transparent sampleConfig uploadState.world x →
      Unforged .transparent uploadState.world.history (ReadOpens .transparent o { x with sink := [] }) := by
    intro o x hasks hx
    cases hasks with
    | getStream _ ho =>
      obtain rfl := Except.ok.inj (hparse.symm.trans ho)
      exact unforged_readsFrom hsealed hx
  obtain ⟨-, hdata⟩ := daemon_releases_supplied rfl create_mapWorld rfl sampleInputs hrun hnodup
    (.ask (.getStream sampleObject)) hunforged
  rw [hsent] at hdata
  obtain ⟨a, objectId, o, hinput, ho, hbytes⟩ := hdata hchunks [97] (by simp)
  cases hinput
  obtain rfl := Except.ok.inj (hparse.symm.trans ho)
  rcases hbytes with ⟨hempty, -⟩ | ⟨plaintext, -, hall, hsupplied⟩
  · cases hempty
  · rw [hall (by simp)]
    exact hsupplied

end Vlt1

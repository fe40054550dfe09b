import Vlt1.Channel
import Vlt1.Vault.Sweep

/-!
# Strict reads

In the strict profile a plaintext should leave the daemon only after the witness confirmed, in the
same request and for a challenge drawn in it, that the active version is the newest one.

`strict_reads` proves it for every database, every sequence of requests and every reply of the
network, at every request other than `get_stream`. The handler of `get_stream` never asks the
witness: `getStream_releases_rolled_back_version` is a run in which it sends an old version while
`get` refuses.
-/

namespace Vlt1

open Effect

section

variable {ω : Type} [Machine ω] {prim : Primitives} {w w' : World ω}

/-! ### A head under a trusted key -/

/-- Within a stretch of a run, a head for `o` under a trusted key was obtained for a challenge drawn
in it, and it is the head of the stored receipt of the active version. -/
structure FreshlyConfirmed (prim : Primitives) (p : HttpsWitnessProvider) (o : ObjectId)
    (w w' : World ω) (head : WitnessHead) (receipt : WitnessReceipt) : Prop where
  recorded : ∃ earlier later, w'.history =
    later ++ .headObtained head :: .challengeDrawn head.challenge :: (earlier ++ w.history)
  vaultId : head.vaultId = w.vaultId
  objectId : head.objectId = o
  trusted : p.Trusts head.publicKey
  signed : verifySignature prim head.publicKey head.signingBytes head.signature = .ok ()
  active : w.db.selectActive o = .ok receipt.versionId
  stored : w.db.selectReceipt prim receipt.versionId = .ok (some receipt)
  equal : head.Matches receipt

theorem FreshHead.confirmed [Transport ω] {R : World ω → World ω → Prop}
    {p : HttpsWitnessProvider} {o : ObjectId} {c : Block 32} {head : WitnessHead}
    {r : WitnessReceipt} (h : FreshHead R prim (p.provider prim) o w w' c head r) :
    FreshlyConfirmed prim p o w w' head r := by
  obtain ⟨_, _, -, hhead⟩ := h.obtained
  obtain ⟨htrusted, hsigned, hvault, hobject, rfl⟩ := HttpsWitnessProvider.objectHead_ok hhead
  exact ⟨h.recorded, hvault, hobject, htrusted, hsigned, h.active, h.stored, h.equal⟩

end

/-! ### What the daemon sends -/

/-- The response carries a plaintext. -/
def Response.ReleasesPlaintext : Response → Prop
  | .ok (.plaintext _) => True
  | _ => False

/-- The frame carries plaintext bytes. -/
def Frame.ReleasesPlaintext : Frame → Prop
  | .response r | .streamError r => r.ReleasesPlaintext
  | .data bytes => bytes ≠ []
  | .streamEnd => False

/-- The input is a `get_stream` request. -/
def DaemonInput.IsGetStream : DaemonInput → Prop
  | .request _ (some (.getStream _)) => True
  | _ => False

section

variable {ω : Type} [Machine ω] [Transport ω] {prim : Primitives} {config : DaemonConfig}
  {a : Arrival}

omit [Transport ω] in
variable (ω) in
/-- No answer but that to a `get` carries a plaintext. -/
theorem answers_not_releasesPlaintext : Answers ω fun r => ¬r.ReleasesPlaintext :=
  ⟨fun _ _ _ => not_false, not_false, fun _ _ _ => not_false, fun _ => not_false, fun _ => not_false,
    fun _ _ _ _ _ => not_false⟩

omit [Transport ω] in
/-- No frame of an upload carries plaintext. -/
theorem putStream_returns (objectId : Text) (items : List StreamItem) :
    Op.Returns (fun frames => ∀ f ∈ frames, ¬f.ReleasesPlaintext)
      (putStream (ω := ω) prim a objectId items) := by
  have hone {r : Response} (hr : ¬r.ReleasesPlaintext) :
      ∀ f ∈ [Frame.response r], ¬f.ReleasesPlaintext := by
    intro f hf
    rw [List.mem_singleton.mp hf]
    exact hr
  have htwo {f : Frame} (hf : ¬f.ReleasesPlaintext) :
      ∀ g ∈ [Frame.response (.ok .streamReady), f], ¬g.ReleasesPlaintext := by
    simp only [List.mem_cons, List.not_mem_nil, or_false, forall_eq_or_imp, forall_eq]
    exact ⟨not_false, hf⟩
  unfold putStream
  refine Op.Returns.ite (Op.Returns.pure (hone not_false)) ?_
  split
  · rename_i hparse
    exact Op.Returns.pure (hone ((answers_not_releasesPlaintext ω).parse hparse))
  · refine Op.Returns.ite (Op.Returns.pure (by simp)) (Op.Returns.ite
      (Op.Returns.pure (htwo not_false)) (Op.Returns.bind _ fun result => ?_))
    cases result with
    | ok version => exact Op.Returns.pure (htwo not_false)
    | error e => exact Op.Returns.pure (htwo ((answers_not_releasesPlaintext ω).mapVaultError e))

variable [Exclusive ω]

/-- A plaintext returned by `get` in the strict profile was freshly confirmed. -/
theorem serveGet_confirmed {p : HttpsWitnessProvider} (hconfig : config.witness = some p)
    {objectId : Text} {s s' : DaemonState ω} {r : Response}
    (h : serveGet prim config a objectId s = .ok r s') (hr : r.ReleasesPlaintext) :
    ∃ o head receipt, parseRequestObjectId objectId = .ok o ∧
      FreshlyConfirmed prim p o s.world s'.world head receipt := by
  unfold serveGet at h
  cases hparse : parseRequestObjectId objectId with
  | error response =>
    rw [hparse] at h
    cases h
    exact absurd hr ((answers_not_releasesPlaintext ω).parse hparse)
  | ok o =>
    simp only [hparse, hconfig, Option.isSome_some, if_true, withWitness, withVault] at h
    split at h
    · cases h; exact hr.elim
    split at h
    · cases h; exact hr.elim
    obtain ⟨result, s1, hrun, hrespond⟩ := Op.bind_eq_ok.mp h
    cases hrespond
    unfold runVault at hrun
    split at hrun
    · rename_i success w hoperation
      cases hrun
      -- the sweep returned, and then `get` did
      obtain ⟨n, w1, hsweep, hget⟩ := Op.bind_eq_ok.mp hoperation
      obtain ⟨plaintext, w2, hget, hreturn⟩ := Op.bind_eq_ok.mp hget
      cases hreturn
      obtain ⟨hw1, -, -, hfresh⟩ := verifyActiveObjectsWithWitness_ok
        (HttpsWitnessProvider.provider prim p).keeps_untouched hsweep
      have hinner := lockAfterFailure_eq_ok.mp hget
      have hobs := (keeps_getInner (R := World.Observed) prim o).of_ok hinner
      obtain ⟨_, w3, hclear, hread⟩ := Op.bind_eq_ok.mp hinner
      cases hclear
      obtain ⟨_, w4, hread, -⟩ := Op.bind_eq_ok.mp hread
      obtain ⟨u, hactive⟩ := getToWriterInner_ok_active hread
      have hlookup := Database.selectActive_eq_ok.mp hactive
      rw [hw1.db] at hlookup
      obtain ⟨o', c, head, receipt, ho', hhead⟩ := hfresh o.blob (by simp [hlookup])
      obtain rfl := Identifier.blob_inj.mp ho'
      exact ⟨o', head, receipt, rfl,
        (hhead.widen (Std.Refl.refl _) (Std.Refl.refl _) (Std.Refl.refl _) hobs).confirmed⟩
    · rename_i e w hoperation
      cases hrun
      exact absurd hr ((answers_not_releasesPlaintext ω).mapVaultError e)
    · cases hrun

/-- A plaintext in an exchange other than a download was freshly confirmed. -/
theorem serveStream_confirmed {p : HttpsWitnessProvider} (hconfig : config.witness = some p)
    {request : Option Request} (hstream : ¬(DaemonInput.request a request).IsGetStream)
    {s s' : DaemonState ω} {frames : List Frame}
    (h : serveStream prim config a request s = .ok frames s') {f : Frame} (hf : f ∈ frames)
    (hplain : f.ReleasesPlaintext) :
    ∃ objectId o head receipt, request = some (.get objectId) ∧
      parseRequestObjectId objectId = .ok o ∧
      FreshlyConfirmed prim p o s.world s'.world head receipt := by
  unfold serveStream at h
  split at h
  · split at h
    · exact absurd hplain (putStream_returns _ _ _ _ _ h f hf)
    · exact (hstream trivial).elim
    · rename_i request _ _
      obtain ⟨r, s1, hdispatch, hreturn⟩ := Op.bind_eq_ok.mp h
      cases hreturn
      obtain rfl := List.mem_singleton.mp hf
      by_cases hget : ∃ objectId, request = .get objectId
      · obtain ⟨objectId, rfl⟩ := hget
        simp only [dispatch] at hdispatch
        split at hdispatch
        · cases hdispatch
          exact hplain.elim
        · obtain ⟨o, head, receipt, hparse, hconfirmed⟩ :=
            serveGet_confirmed hconfig hdispatch hplain
          exact ⟨objectId, o, head, receipt, rfl, hparse, hconfirmed⟩
      · exact absurd hplain
          ((answers_not_releasesPlaintext ω).dispatch (fun objectId h => hget ⟨objectId, h⟩) _ _ _ hdispatch)
    · cases h
      obtain rfl := List.mem_singleton.mp hf
      exact hplain.elim
  · cases h
    obtain rfl := List.mem_singleton.mp hf
    exact hplain.elim

/-- **Strict reads are fresh.** Whatever the database holds, whatever requests came before and
whatever the network replies, a strict daemon that sends plaintext in answer to a request other than
`get_stream` answers a `get`, and within that request it obtained, for a challenge drawn in it and
under a trusted key, a head for the object that equals the stored receipt of the active version. -/
theorem strict_reads {p : HttpsWitnessProvider} (hconfig : config.witness = some p)
    (s : DaemonState ω) (inputs : List DaemonInput) :
    ∀ t ∈ Run.trace (daemonStep prim config) s inputs, ¬t.input.IsGetStream →
      ∀ f ∈ t.output, f.ReleasesPlaintext →
        ∃ a objectId o head receipt, t.input = .request a (some (.get objectId)) ∧
          parseRequestObjectId objectId = .ok o ∧
          FreshlyConfirmed prim p o t.before.world t.after.world head receipt := by
  intro t ht hstream f hf hplain
  rw [Run.eq_transition_of_mem _ ht] at hf ⊢
  generalize t.before = before, t.input = input at hf hstream ⊢
  simp only [Run.transition] at hf ⊢
  cases input with
  | request a request =>
    simp only [daemonStep] at hf ⊢
    split at hf
    · rename_i hrunning
      rw [if_pos hrunning]
      cases hserve : serveStream prim config a request before with
      | ok frames after =>
        rw [hserve] at hf
        obtain ⟨objectId, o, head, receipt, rfl, hparse, hconfirmed⟩ :=
          serveStream_confirmed hconfig hstream hserve hf hplain
        exact ⟨a, objectId, o, head, receipt, rfl, hparse, hconfirmed⟩
      | failed e after => rw [hserve] at hf; cases hf
      | crashed after => rw [hserve] at hf; cases hf
    · cases hf
  | kill => cases hf
  | start =>
    simp only [daemonStep] at hf
    split at hf
    · cases hf
    · split at hf <;> cases hf
  | elapse => cases hf
  | replaceDatabase db => cases hf

end

/-! ### A rolled-back version -/

/-- Reading the byte back. -/
def sampleRead : Run.Transition (DaemonState SampleChannel) DaemonInput (List Frame) :=
  Run.transition sampleStep (Run.final sampleStep sampleDaemon sampleInputs)
    (.ask (.get sampleObject))

theorem strict_reads_sample :
    sampleRead.output = [.response (.ok (.plaintext [97]))] ∧
      ∃ o head receipt,
        FreshlyConfirmed .checksum sampleTrust o sampleRead.before.world sampleRead.after.world
          head receipt := by
  have houtput : sampleRead.output = [.response (.ok (.plaintext [97]))] := by decide +kernel
  have hmem : sampleRead ∈ Run.trace sampleStep sampleDaemon
      (sampleInputs ++ [.ask (.get sampleObject)]) := by
    rw [Run.trace_append]
    exact List.mem_append_right _ (List.mem_singleton.mpr rfl)
  obtain ⟨_, _, o, head, receipt, -, -, hconfirmed⟩ := strict_reads (p := sampleTrust) rfl
    sampleDaemon _ sampleRead hmem not_false (.response (.ok (.plaintext [97])))
    (houtput ▸ List.mem_singleton.mpr rfl) trivial
  exact ⟨houtput, o, head, receipt, hconfirmed⟩

/-- The sample daemon after the byte was overwritten. -/
def sampleOverwritten : DaemonState SampleChannel :=
  Run.final sampleStep sampleDaemon (sampleInputs ++ [.ask (.put sampleObject [98])])

/-- The database from before the overwrite is put back, and the object is downloaded. -/
def rollbackInputs : List DaemonInput :=
  [.replaceDatabase (Run.final sampleStep sampleDaemon sampleInputs).world.db,
    .ask (.getStream sampleObject)]

/-- The download of the old version. -/
def rollbackRead : Run.Transition (DaemonState SampleChannel) DaemonInput (List Frame) :=
  Run.transition sampleStep (Run.final sampleStep sampleOverwritten (rollbackInputs.take 1))
    (.ask (.getStream sampleObject))

/-- `get_stream` sends the overwritten byte of a rolled-back database without asking the witness,
while `get` in the same state reports the conflict. -/
theorem getStream_releases_rolled_back_version :
    rollbackRead ∈ Run.trace sampleStep sampleOverwritten rollbackInputs ∧
      (∃ f ∈ rollbackRead.output, f.ReleasesPlaintext) ∧
      (∀ o head receipt, ¬FreshlyConfirmed .checksum sampleTrust o rollbackRead.before.world
        rollbackRead.after.world head receipt) ∧
      (sampleStep rollbackRead.before (.ask (.get sampleObject))).1 =
        [.response (mapVaultError .witnessConflict)] := by
  have hhistory : rollbackRead.after.world.history.length =
      rollbackRead.before.world.history.length := by decide +kernel
  refine ⟨List.mem_cons_of_mem _ (List.mem_singleton.mpr rfl), ⟨.data [97], ?_, ?_⟩, ?_, ?_⟩
  · decide +kernel
  · exact List.cons_ne_nil _ _
  · -- a confirmation leaves two events on record
    intro o head receipt h
    obtain ⟨earlier, later, hrecorded⟩ := h.recorded
    rw [hrecorded] at hhistory
    simp only [List.length_append, List.length_cons] at hhistory
    omega
  · decide +kernel

end Vlt1

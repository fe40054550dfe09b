import Vlt1.DaemonMap
import Vlt1.WitnessedWrites

/-!
# Unlocking again

A strict daemon verifies every active object against the witness before it serves anything, so one
object that the witness does not confirm locks its owner out. Here the storage works and the witness
answers (`Channel.Undisturbed`), and the question is whether the daemon can be unlocked after whatever
it has served. `strict_writes_unlockable` says that it can, as long as every version was published through
the witness. A streamed upload is not, and `streamed_upload_unwitnessed` shows what follows.
-/

namespace Vlt1

open Effect StagedPublication

/-! ### Surroundings without failures -/

namespace Channel

variable {prim : Primitives} {signingKey : Block 32} {c c' : Channel prim signingKey}

/-- The client meets no failure from now on, and its writes go through. -/
def Undisturbed (c : Channel prim signingKey) : Prop :=
  ∀ choice ∈ c.choices, choice.Reachable ∧ choice.written = none

namespace Undisturbed

theorem responsive (h : c.Undisturbed) : c.Responsive := fun choice hchoice => (h choice hchoice).1

theorem reliable (h : c.Undisturbed) : Machine.Reliable c :=
  Channel.reliable fun choice hchoice => ⟨(h choice hchoice).1.fault, (h choice hchoice).2⟩

/-- An interaction leaves the others undisturbed. -/
theorem next (h : c.Undisturbed) : c.next.2.Undisturbed :=
  (next_of_forall ⟨Choice.reachable_calm, rfl⟩ h).2

/-- Only the script matters. -/
theorem postIssue (h : c.Undisturbed) (request : IssueWireRequest) :
    (Transport.postIssue request c).2.Undisturbed := by
  have hsent : (c.send request).Undisturbed := h
  rcases postIssue_snd request c with hsame | ⟨env, hsame⟩
  · rw [hsame]
    exact hsent.next
  · rw [hsame]
    exact hsent.next

end Undisturbed

/-- Nothing that the process does disturbs its surroundings. -/
instance : StepRelation fun w w' : World (Channel prim signingKey) =>
    w.outside.Undisturbed → w'.outside.Undisturbed where
  refl _ h := h
  trans _ _ _ h h' hw := h' (h hw)
  move _ _ hmove hw := moves_of_forall ⟨Choice.reachable_calm, rfl⟩ hw hmove
  interfere _ h := h
  sink _ _ h := h
  observe _ _ _ h := h
  sealing _ _ _ h := h
  locked _ h := h
  vault _ _ h := h
  commit _ _ h := h
  request _ _ _ h := h

/-- Nor do its requests to the witness. -/
theorem keeps_undisturbed (p : HttpsWitnessProvider) : (p.provider prim).Keeps
    fun w w' : World (Channel prim signingKey) => w.outside.Undisturbed → w'.outside.Undisturbed where
  head v o x w h := by
    show ((p.provider prim).objectHead v o x w.outside).state.Undisturbed
    rw [HttpsWitnessProvider.objectHead_state, postHead_snd]
    exact h.next
  issue r e w h := by
    show ((p.provider prim).issueReceipt r e w.outside).state.Undisturbed
    rw [HttpsWitnessProvider.issueReceipt_state]
    exact h.postIssue _

end Channel

/-! ### The sweep over a settled vault -/

section

variable {prim : Primitives} {signingKey : Block 32} {V : VaultId} {v : Vault} {db : Database}
  {p : HttpsWitnessProvider} {w w' : World (Channel prim signingKey)}

/-- The vault in memory and the tables, with nothing staged, in front of a witness that answers. -/
structure World.Idle (V : VaultId) (v : Vault) (db : Database) (w : World (Channel prim signingKey)) :
    Prop where
  vault : w.vault = v
  db : w.db = db
  paired : w.Paired V State.Unstaged
  undisturbed : w.outside.Undisturbed

theorem World.Idle.shows (h : w.Idle V v db) : w.Shows v db w.sink :=
  ⟨h.vault, h.db, rfl, h.undisturbed.reliable⟩

/-- What the tables say about an object whose active version is witnessed. -/
theorem Database.AllWitnessed.active (h : db.AllWitnessed prim V) {o : ObjectId} {b : Bytes}
    (hactive : db.objects.lookup o.blob = some b) : ∃ version r,
      db.selectActive o = .ok version.versionId ∧ db.selectVersion version.versionId = .ok version ∧
      db.selectReceipt prim version.versionId = .ok (some r) ∧
      db.activeReceipt prim o = .ok (some r) := by
  obtain ⟨version, r, -, rfl, hversion, hreceipt, -⟩ := h _ _ hactive
  refine ⟨version, r, Database.selectActive_eq_ok.mpr hactive, hversion, hreceipt, ?_⟩
  unfold Database.activeReceipt
  rw [hactive]
  dsimp only
  rw [Identifier.fromSlice_blob]
  exact hreceipt

/-- Every active object has a number of its own at the witness, so they can be counted. -/
theorem World.Idle.length_lt (h : w.Idle V v db) (hall : db.AllWitnessed prim V) {ids : List ObjectId}
    (hids : db.selectObjectKeys = ids.map Identifier.blob) : ids.length < 2 ^ 64 := by
  obtain ⟨-, s, hs, hmirrors, hnone⟩ := h.paired
  rw [h.db] at hmirrors
  have hnodup : ids.Nodup := by
    refine List.Nodup.of_map Identifier.blob ?_
    rw [← hids]
    exact Table.nodup_keys_select _ _
  -- the epochs of their receipts differ, and are 64-bit numbers
  refine hs.length_lt hnodup (by decide) fun o ho => ?_
  have hkey : o.blob ∈ db.selectObjectKeys := hids ▸ List.mem_map_of_mem ho
  obtain ⟨b, hactive⟩ := Option.ne_none_iff_exists'.mp (Database.mem_selectObjectKeys.mp hkey)
  obtain ⟨receipt, hreceipt, -, hentry⟩ := hmirrors.active o
  obtain ⟨-, r, -, -, -, hr⟩ := hall.active hactive
  obtain rfl := Except.ok.inj (hreceipt.symm.trans hr)
  exact ⟨r.request, r.witnessEpoch.toNat, (hs.settled o (hnone o)).trans hentry, r.witnessEpoch.toNat_lt⟩

variable (hsig : prim.SignatureCorrect)

include hsig

/-- Reading keeps a vault idle. -/
theorem steady_idle : Steady fun w : World (Channel prim signingKey) => w.Idle V v db where
  move w o hmove h := ⟨h.vault, h.db, (steady_paired hsig stable_unstaged).move w o hmove h.paired,
    Channel.moves_of_forall ⟨Choice.reachable_calm, rfl⟩ h.undisturbed hmove⟩
  interfere _ h := ⟨h.vault, h.db, h.paired, h.undisturbed⟩
  sink _ _ h := ⟨h.vault, h.db, h.paired, h.undisturbed⟩
  record _ _ _ h := ⟨h.vault, h.db, h.paired, h.undisturbed⟩

/-- What returns on a machine that works does so on an idle vault, and leaves it idle. -/
theorem total_idle {α : Type} {x : VaultOp (Channel prim signingKey) α} {post : α → Prop}
    (hx : ∀ R : World (Channel prim signingKey) → World (Channel prim signingKey) → Prop,
      SealRelation R → Op.Keeps R x)
    (htotal : ∀ sink, Op.Total (World.Shows v db sink) x fun a _ => post a) :
    Op.Total (World.Idle V v db) x fun a w => post a ∧ w.Idle V v db := by
  intro w hw
  have hreturns := htotal w.sink w hw.shows
  have hidle := (steady_idle hsig).triple hx w hw
  cases hout : x w with
  | ok a w' =>
    rw [hout] at hreturns hidle
    exact ⟨hreturns, hidle⟩
  | failed e w' =>
    rw [hout] at hreturns
    exact hreturns
  | crashed w' =>
    rw [hout] at hreturns
    exact hreturns

/-- A fresh head of a settled object is that of its active receipt. -/
theorem total_head (htrust : p.Trusts (prim.verifyingKey signingKey)) (o : ObjectId) (x : Block 32) :
    Op.Total (fun w : World (Channel prim signingKey) => w.Idle V v db)
      ((p.provider prim).head V o x) fun head w =>
      (∃ receipt, db.activeReceipt prim o = .ok receipt ∧
        head = .issue prim V o receipt x signingKey) ∧ w.Idle V v db := by
  intro w hw
  have hnext : Coherent prim V State.Unstaged w.db w.outside.next.2 :=
    hw.paired.2.drift hsig stable_unstaged (Channel.drifts_next _)
  obtain ⟨s, hs, hmirrors, hnone⟩ := hnext
  obtain ⟨receipt, hactive, hload⟩ := hmirrors.headSettled_of_eq (hs.settled o (hnone o))
  have hhead := Channel.objectHead_of_reachable (p := p) (x := x) hsig
    hw.undisturbed.responsive.next.1 hload htrust
  have hout : (p.provider prim).head V o x w =
      .ok (.issue prim V o receipt x signingKey) { w with
        outside := w.outside.next.2
        history := .headObtained (.issue prim V o receipt x signingKey) :: w.history } := by
    simp only [WitnessProvider.head, outside, Op.zoom, Op.bind_apply, hhead]
    rfl
  rw [hout]
  exact ⟨⟨receipt, hw.db ▸ hactive, rfl⟩, hw.vault, hw.db,
    ⟨hw.paired.1, s, hs, hmirrors, hnone⟩, hw.undisturbed.next⟩

section

variable {K : Block 32} {m : ObjectMap} (hprim : prim.OpensSealed)
  (htrust : p.Trusts (prim.verifyingKey signingKey)) (hmap : Represents prim V K db m)
  (hall : db.AllWitnessed prim V) (hkey : v.rootKey = some K) (hid : v.envelope.vaultId = V)

include hprim htrust hmap hall hkey hid

/-- A settled object whose active version can be read and has a receipt passes. -/
theorem total_verifyWithWitness {o : ObjectId} (ho : m.active.lookup o ≠ none) :
    Op.Total (fun w : World (Channel prim signingKey) => w.Idle V v db)
      (verifyWithWitness prim (p.provider prim) o) fun _ w => w.Idle V v db := by
  obtain ⟨plaintext, hplaintext⟩ := Option.ne_none_iff_exists'.mp ho
  obtain ⟨d, hd, rfl, rfl⟩ := hmap.active o plaintext hplaintext
  obtain ⟨version, receipt, hselect, hversion, hreceipt, hfound⟩ := hall.active hd.active
  refine Op.Triple.bind (fun r w => r = some receipt ∧ w.Idle V v db) (total_idle hsig
    (fun R hR => keeps_activeReceipt prim _) fun sink => ?_) fun r => ?_
  · exact (total_activeReceipt hselect hversion hreceipt).mono_post fun _ _ h => h.1
  refine Op.Triple.of_imp fun heq => ?_
  subst heq
  dsimp only
  refine Op.Triple.bind (fun _ w => True ∧ w.Idle V v db) (total_idle hsig
    (fun R hR => keeps_randomWitnessChallenge) fun _ _ _ => trivial) fun x => ?_
  refine Op.Triple.bind_get fun w hw => ?_
  have hvaultId : w.vaultId = V := by rw [World.vaultId, hw.2.vault, hid]
  rw [hvaultId]
  refine Op.Triple.bind _ ((total_head hsig htrust _ x).mono_pre fun w' h => h ▸ hw.2) fun head => ?_
  refine Op.Triple.of_imp fun hhead => ?_
  obtain ⟨r, hr, rfl⟩ := hhead
  obtain rfl := Except.ok.inj (hr.symm.trans hfound)
  refine Op.Triple.bind_require (fun _ => ?_) fun w' hnot hw' => hnot ?_
  · have hread : ∀ sink, Op.Total (World.Shows v db sink)
        (getToWriterInner prim d.objectId .discard)
        fun _ (_ : World (Channel prim signingKey)) => True := fun sink =>
      (total_getToWriterInner hprim hmap.wellFormed hd hkey hid .discard).mono_post
        fun _ _ _ => trivial
    exact (total_idle hsig (fun R hR => keeps_getToWriterInner prim _ _) hread).mono_post
      fun _ _ h => h.2
  · -- the head was signed for the stored receipt, so the two match
    obtain ⟨s, -, hmirrors, -⟩ := hw'.paired.2
    obtain ⟨r', hr', hissued, -⟩ := hw'.db ▸ hmirrors.active d.objectId
    obtain rfl := Except.ok.inj (hr'.symm.trans hfound)
    exact ⟨rfl, rfl, rfl, rfl, (hissued receipt rfl).publicKey.symm⟩

/-- The sweep over a settled vault passes. -/
theorem total_verifyActiveObjectsWithWitness :
    Op.Total (fun w : World (Channel prim signingKey) => w.Idle V v db)
      (verifyActiveObjectsWithWitness prim (p.provider prim)) fun _ w => w.Idle V v db := by
  obtain ⟨ids, hids, -, hactive⟩ := hmap.exists_ids
  refine total_lockAfterFailure ?_
  refine Op.Triple.bind _ (total_idle hsig (fun R hR => keeps_requireRootKey) fun sink =>
    (total_requireRootKey hkey).mono_post fun _ _ h => h.1) fun _ => ?_
  refine Op.Triple.of_imp fun _ => ?_
  refine Op.Triple.bind _ (total_idle hsig (fun R hR => keeps_activeObjectIds) fun sink =>
    (total_activeObjectIds hids).mono_post fun _ _ h => h.1) fun listed => ?_
  refine Op.Triple.of_imp fun hlisted => ?_
  subst hlisted
  -- one object after the other
  let I (_ rest : List ObjectId) (_ : Unit) (w : World (Channel prim signingKey)) : Prop :=
    (∀ o ∈ rest, m.active.lookup o ≠ none) ∧ w.Idle V v db
  refine Op.Triple.bind (I listed []) ((Op.Triple.fold (I := I) ?_ [] listed ()).mono_pre
    fun w hw => ⟨hactive, hw⟩) fun _ => ?_
  · intro done o rest _
    refine Op.Triple.of_imp fun hrest => ?_
    exact (total_verifyWithWitness hsig hprim htrust hmap hall hkey hid
      (hrest o List.mem_cons_self)).mono_post
        fun _ w hw => ⟨fun o' ho' => hrest o' (List.mem_cons_of_mem _ ho'), hw⟩
  · refine Op.Triple.bind_require (fun _ => Op.Triple.pure fun w hw => hw.2) fun w hlarge hw => ?_
    exact hlarge (hw.2.length_lt hall hids)

end

/-! ### The strict unlock -/

section

variable {Q : Set Text} {K : Block 32} {m : ObjectMap} (hprim : prim.OpensSealed)

include hprim

/-- A recovery that returns leaves a settled vault, with the same contents. -/
theorem idle_of_recover (hpaired : w.Paired V State.OneStaged) (hkey : w.vault.rootKey = some K)
    (hmap : HoldsMap prim Q V K m w) (hall : w.db.AllWitnessed prim V) (hcalm : w.outside.Undisturbed)
    {n : UInt64} (h : recoverPendingWitnessPublications prim (p.provider prim) w = .ok n w') :
    w'.Idle V w.vault w'.db ∧ w'.db.AllWitnessed prim V ∧ ∃ m', Represents prim V K w'.db m' := by
  have hvault : w'.vault = w.vault := (recoverPendingWitnessPublications_ok h).1
  have hunlocked : w.vault.rootKey ≠ none := hkey ▸ Option.some_ne_none K
  refine ⟨⟨hvault, rfl, ?_, ?_⟩, ?_, ?_⟩
  · have hguarded := triple_recover_guarded (p := p) hsig w ⟨hpaired, hunlocked⟩
    rw [h] at hguarded
    exact hguarded.2 (hvault ▸ hunlocked)
  · exact (keeps_recoverPendingWitnessPublications prim (Channel.keeps_undisturbed p)).of_ok h hcalm
  · have hchanges : Changes prim .recover w w
        (recoverPendingWitnessPublications prim (p.provider prim) w).state := changes_recover w
    rw [h] at hchanges
    have hcall : ∀ d, ¬VaultCall.recover.Publishes d := fun _ => not_false
    exact (hchanges.invariant (fun _ _ hchange h => hchange.allWitnessed hcall h) ⟨hpaired.1, hall⟩).2
  · -- to a session, recovery is one of its calls
    have hends : VaultCall.recover.EndsOnce := trivial
    obtain ⟨ts, -, hholds⟩ := hmap.step hprim (p.provider prim) (s := ⟨w, true⟩) hends
      (fun _ => False.elim) fun _ => False.elim
    simp only [sessionStep, VaultCall.run, if_true, Op.bind_of_ok h] at hholds
    exact ⟨_, hholds.represents⟩

/-- With a witness that answers, a strict unlock with the passphrase of the envelope passes, unless the
counter of the witness has no storable successor. -/
theorem strictUnlock_of_undisturbed (htrust : p.Trusts (prim.verifyingKey signingKey)) {passphrase : Text}
    (hguarded : w.Guarded V) (hmap : HoldsMap prim Q V K m w) (hall : w.db.AllWitnessed prim V)
    (hcalm : w.outside.Undisturbed) (hseals : w.vault.envelope.Seals prim passphrase K)
    (hvalid : validatePassphrase passphrase = .ok ()) :
    (∃ w', strictUnlock prim passphrase (p.provider prim) w = .ok .empty w' ∧
      w'.vault.rootKey = some K) ∨
    ∃ w', strictUnlock prim passphrase (p.provider prim) w = .failed .witnessUnavailable w' ∧
      (sqlIntegerBound : ℤ) ≤ w'.outside.service.nextEpoch V.blob + 1 := by
  let w₁ : World (Channel prim signingKey) := { w with vault := { w.vault with rootKey := some K } }
  have hunlock : unlock prim passphrase w = .ok () w₁ := by
    unfold unlock
    rw [hvalid, Op.ofExcept_ok, Op.pure_bind, Op.bind_of_ok (Op.get_apply w), hseals.openRootKey hprim]
    rfl
  have hpaired : w₁.Paired V State.OneStaged := hguarded.1
  have hkey : w₁.vault.rootKey = some K := rfl
  have hid : w₁.vault.envelope.vaultId = V := hmap.root.loaded
  have hmap₁ : HoldsMap prim Q V K m w₁ :=
    ⟨hmap.envelopes.congr rfl rfl, ⟨hmap.root.loaded, fun k hk => (Option.some.inj hk).symm,
      hmap.root.stored⟩, hmap.represents⟩
  rcases hpaired.recover (p := p) hsig htrust hcalm.responsive (Option.some_ne_none K) with
    ⟨n, w₂, hrecover, -⟩ | ⟨w₂, hrecover, hlimit⟩
  · -- the recovery has settled every object, so the sweep passes
    obtain ⟨hidle, hall₂, m', hmap₂⟩ := idle_of_recover hsig hprim hpaired hkey hmap₁ hall hcalm hrecover
    obtain ⟨count, w₃, hverify, hidle₃⟩ := (total_verifyActiveObjectsWithWitness (p := p) hsig hprim
      htrust hmap₂ hall₂ hkey hid).eq_ok hidle
    refine .inl ⟨w₃, ?_, by rw [hidle₃.vault]⟩
    rw [strictUnlock, Op.bind_of_ok hunlock, Op.bind_of_ok hrecover, Op.bind_of_ok hverify]
    rfl
  · refine .inr ⟨w₂, ?_, hlimit⟩
    rw [strictUnlock, Op.bind_of_ok hunlock, Op.bind_of_failed hrecover]

end

end

/-! ### The daemon -/

section

variable {prim : Primitives} {config : DaemonConfig} {p : HttpsWitnessProvider} {signingKey : Block 32}
  {Q : Set Text} {V : VaultId} {K : Block 32} {m : ObjectMap} {s : DaemonState (Channel prim signingKey)}

/-- On storage that works a vault with a readable envelope opens. -/
theorem total_openVault {v : Vault} {db : Database} {sink : Bytes} {e : RootEnvelope}
    (hdb : db.WellFormed prim) (henvelope : db.rootEnvelope prim = .ok e) :
    Op.Total (fun w : World (Channel prim signingKey) => w.Shows v db sink) (openVault prim)
      fun _ _ => True := by
  refine Op.Triple.bind (fun _ w => w.Shows v db sink) (fun w hw => ?_) fun _ => ?_
  · rw [Channel.enforceOwnerPrivateStateFiles_eq]
    exact hw
  refine Op.Triple.bind _ (total_query hdb.startupIntegrityCheck) fun _ => ?_
  refine Op.Triple.of_imp fun _ => ?_
  refine Op.Triple.bind _ (total_query henvelope) fun _ => ?_
  exact fun _ _ => trivial

variable (config) in
/-- A daemon on storage that works can be started again. -/
theorem running_of_restart (hmap : HoldsMap prim Q V K m s.world) (hcalm : s.world.outside.Undisturbed) :
    (Run.final (daemonStep prim config) s [.kill, .start]).running = true ∧
      (Run.final (daemonStep prim config) s [.kill, .start]).world.outside.Undisturbed := by
  obtain ⟨e, q, -, hrow, hseals⟩ := hmap.envelopes.stored
  have hshows : s.down.world.Shows s.world.locked.vault s.world.db s.down.world.sink :=
    ⟨rfl, rfl, rfl, hcalm.reliable⟩
  obtain ⟨_, w, hopen, -⟩ := (total_openVault hmap.represents.wellFormed
    (hseals.rootEnvelope hrow)).eq_ok hshows
  have hfinal : Run.final (daemonStep prim config) s [.kill, .start] = ⟨w, true, none, false⟩ := by
    show (daemonStep prim config s.down .start).2 = _
    simp only [daemonStep, show s.down.running = false from rfl, Bool.false_eq_true, if_false, hopen]
  rw [hfinal]
  exact ⟨rfl, (keeps_openVault (R := fun w w' : World (Channel prim signingKey) =>
    w.outside.Undisturbed → w'.outside.Undisturbed) prim).of_ok hopen hcalm⟩

/-- A strict daemon and its inputs, in front of an honest witness that had heard of nothing when the
vault was created. All passphrases are among `Q`, and none that is tried opens the envelope of that moment
by deriving another key than the one it was sealed under. -/
structure StrictRun (prim : Primitives) {signingKey : Block 32} (config : DaemonConfig) (Q : Set Text)
    (w : World (Channel prim signingKey)) (s₀ : DaemonState (Channel prim signingKey))
    (inputs : List DaemonInput) : Prop where
  created : ∃ w₀, ∃ passphrase ∈ Q, w₀.outside.Unused ∧ create prim passphrase w₀ = .ok () w
  start : s₀.world = w.locked
  witnessed : ∀ i ∈ inputs, i.Witnessed
  sets : ∀ i ∈ inputs, ∀ q, i.Sets q → q ∈ Q
  bound : ∀ t ∈ Run.trace (daemonStep prim config) s₀ inputs, ∀ q, t.input.Tries q →
    t.before.world.vault.envelope.BoundFor prim Q q

namespace StrictRun

variable {w : World (Channel prim signingKey)} {s₀ : DaemonState (Channel prim signingKey)}
  {inputs : List DaemonInput}

theorem settled (h : StrictRun prim config Q w s₀ inputs) : s₀.Settled := fun _ => by
  rw [h.start]
  rfl

/-- The daemon may be killed and started once more. -/
theorem restart (h : StrictRun prim config Q w s₀ inputs) :
    StrictRun prim config Q w s₀ (inputs ++ [.kill, .start]) := by
  have hquiet : ∀ i ∈ [DaemonInput.kill, .start], i.Witnessed ∧ ∀ q, ¬i.Tries q ∧ ¬i.Sets q := by
    intro i hi
    rcases List.mem_pair.mp hi with rfl | rfl <;>
      exact ⟨trivial, fun _ => ⟨not_false, not_false⟩⟩
  refine ⟨h.created, h.start, fun i hi => ?_, fun i hi q hq => ?_, fun t ht q hq => ?_⟩
  · rcases List.mem_append.mp hi with hi | hi
    · exact h.witnessed i hi
    · exact (hquiet i hi).1
  · rcases List.mem_append.mp hi with hi | hi
    · exact h.sets i hi q hq
    · exact absurd hq ((hquiet i hi).2 q).2
  · rw [Run.trace_append] at ht
    rcases List.mem_append.mp ht with ht | ht
    · exact h.bound t ht q hq
    · exact absurd hq ((hquiet t.input (Run.input_mem _ ht)).2 q).1

/-- At most one version is staged, and none while the vault is unlocked. -/
theorem guarded (h : StrictRun prim config Q w s₀ inputs) (hsig : prim.SignatureCorrect)
    (hstrict : config.witness ≠ none) :
    (Run.final (daemonStep prim config) s₀ inputs).world.Guarded w.vaultId := by
  obtain ⟨w₀, passphrase, -, hunused, hcreate⟩ := h.created
  have hstart : s₀.world.Guarded w.vaultId := h.start ▸ .of_create hunused hcreate
  exact hstart.daemon_run hsig hstrict h.witnessed

/-- Every active version is witnessed. -/
theorem allWitnessed (h : StrictRun prim config Q w s₀ inputs) (hstrict : config.witness.isSome) :
    (Run.final (daemonStep prim config) s₀ inputs).world.db.AllWitnessed prim w.vaultId := by
  obtain ⟨w₀, passphrase, -, -, hcreate⟩ := h.created
  have hid : s₀.world.Identified w.vaultId := h.start ▸ (World.Identified.of_create hcreate).locked
  have hempty : s₀.world.db.AllWitnessed prim w.vaultId := by
    rw [h.start]
    exact .of_create hcreate _
  exact (hempty.daemon_run hstrict h.settled hid h.witnessed).2

/-- The vault holds a map, and its envelopes are sealed under passphrases that are accepted. -/
theorem holdsMap (h : StrictRun prim config Q w s₀ inputs) (hprim : prim.OpensSealed) :
    ∃ K m, HoldsMap prim {q ∈ Q | validatePassphrase q = .ok ()} w.vaultId K m
      (Run.final (daemonStep prim config) s₀ inputs).world := by
  obtain ⟨w₀, passphrase, hp, -, hcreate⟩ := h.created
  obtain ⟨_, -, hkeyState⟩ := KeyState.of_create hcreate
  obtain ⟨K, hcreated⟩ := HoldsMap.of_create (Q := {q ∈ Q | validatePassphrase q = .ok ()})
    ⟨hp, hkeyState.passphrase⟩ hcreate
  have hstart : HoldsMap prim {q ∈ Q | validatePassphrase q = .ok ()} w.vaultId K .empty s₀.world :=
    h.start ▸ hcreated.locked
  obtain ⟨m, -, hmap, -⟩ := hstart.daemon_run config hprim h.settled
    (fun i hi => (h.witnessed i hi).not_replaces)
    (fun t ht q hq p hp => h.bound t ht q hq p hp.1)
    fun i hi q hq hvalid => ⟨h.sets i hi q hq, hvalid⟩
  exact ⟨K, m, hmap⟩

end StrictRun

/-- The answer to an unlock that passes, or that the witness has no number for. -/
theorem daemonStep_unlock {x : DaemonState (Channel prim signingKey)} {q : Text} {n : ℤ}
    (hconfig : config.witness = some p) (hrunning : x.running = true)
    (h : (∃ w, strictUnlock prim q (p.provider prim) x.world = .ok .empty w ∧
        w.vault.rootKey = some K) ∨
      ∃ w, strictUnlock prim q (p.provider prim) x.world = .failed .witnessUnavailable w ∧
        n ≤ w.outside.service.nextEpoch V.blob + 1) :
    ((daemonStep prim config x (.ask (.unlock q))).1 = [.response (.ok .empty)] ∧
      (daemonStep prim config x (.ask (.unlock q))).2.world.vault.status = .unlocked) ∨
    n ≤ (daemonStep prim config x (.ask (.unlock q))).2.world.outside.service.nextEpoch V.blob + 1 := by
  simp only [DaemonInput.ask, daemonStep, hrunning, if_true, serveStream_unlock_admitted hconfig]
  rcases h with ⟨w, hok, hkey⟩ | ⟨w, hfailed, hlimit⟩
  · refine .inl ?_
    simp only [runVault, Op.bind_apply, hok]
    refine ⟨rfl, ?_⟩
    show w.vault.status = .unlocked
    rw [Vault.status, hkey]
    rfl
  · refine .inr ?_
    simp only [runVault, Op.bind_apply, hfailed]
    exact hlimit

/-- **Strict writes leave the vault usable.** A strict daemon serves any requests but streamed uploads,
dies and is started again, anywhere.

Whatever the witness answers, every active version keeps a valid receipt for it in the table, if all had
one.

Before an honest witness no vault is lost: if from some point on the storage works and the witness answers,
the daemon is killed and started again, and unlocks with one of the passphrases; only a counter without a
storable successor can stop it. -/
theorem strict_writes_unlockable (hconfig : config.witness = some p) :
    (∀ {ω : Type} [Machine ω] [Exclusive ω] [Transport ω] (s : DaemonState ω) (V : VaultId),
      s.Settled → s.world.Identified V → s.world.db.AllWitnessed prim V →
      ∀ inputs : List DaemonInput, (∀ i ∈ inputs, i.Witnessed) →
        (Run.final (daemonStep prim config) s inputs).world.db.AllWitnessed prim V) ∧
    (prim.OpensSealed → prim.SignatureCorrect → ∀ {signingKey : Block 32},
      p.Trusts (prim.verifyingKey signingKey) → ∀ {Q : Set Text} {w : World (Channel prim signingKey)}
        {s₀ : DaemonState (Channel prim signingKey)} {inputs : List DaemonInput},
      StrictRun prim config Q w s₀ inputs →
      (Run.final (daemonStep prim config) s₀ inputs).world.outside.Undisturbed →
      ∃ q ∈ Q, ∀ x, x = Run.final (daemonStep prim config) s₀ (inputs ++ [.kill, .start]) →
        ((daemonStep prim config x (.ask (.unlock q))).1 = [.response (.ok .empty)] ∧
          (daemonStep prim config x (.ask (.unlock q))).2.world.vault.status = .unlocked) ∨
        (sqlIntegerBound : ℤ) ≤ (daemonStep prim config x
          (.ask (.unlock q))).2.world.outside.service.nextEpoch w.vaultId.blob + 1) := by
  have hstrict : config.witness.isSome := hconfig ▸ rfl
  refine ⟨fun s V hs hid hall inputs hinputs =>
    (Database.AllWitnessed.daemon_run hstrict hs hid hall hinputs).2, ?_⟩
  intro hprim hsig signingKey htrust Q w s₀ inputs hrun hcalm
  obtain ⟨_, _, hbefore⟩ := hrun.holdsMap hprim
  obtain ⟨hrunning, hcalm'⟩ := running_of_restart config hbefore hcalm
  rw [← Run.final_append] at hrunning hcalm'
  obtain ⟨K, m, hmap⟩ := hrun.restart.holdsMap hprim
  have hguarded := hrun.restart.guarded hsig (Option.isSome_iff_ne_none.mp hstrict)
  have hall := hrun.restart.allWitnessed hstrict
  obtain ⟨q, ⟨hq, hvalid⟩, hseals⟩ := hmap.envelopes.loaded
  refine ⟨q, hq, ?_⟩
  rintro _ rfl
  exact daemonStep_unlock hconfig hrunning
    (strictUnlock_of_undisturbed hsig hprim htrust hguarded hmap hall hcalm' hseals hvalid)

end

/-- A vault with primitives that open what they seal, in front of a witness whose replies are lost at
first. -/
def silencedVault : World (Channel .transparent sampleSeed) :=
  (create .transparent [112] (.blank ⟨.empty, [], silentScript⟩)).state

theorem create_silencedVault :
    create .transparent [112] (.blank ⟨.empty, [], silentScript⟩) = .ok () silencedVault :=
  Outcome.eq_ok_of_result (by decide +kernel)

/-- The strict daemon of this vault before its first start. -/
def silencedDaemon : DaemonState (Channel .transparent sampleSeed) :=
  ⟨silencedVault.locked, false, none, false⟩

/-- It was started, unlocked and asked to store one byte, and has heard no receipt. -/
def unacknowledgedDaemon : DaemonState (Channel .transparent sampleSeed) :=
  Run.final (daemonStep .transparent sampleConfig) silencedDaemon sampleInputs

/-- It was killed and started again. -/
def revivedDaemon : DaemonState (Channel .transparent sampleSeed) :=
  Run.final (daemonStep .transparent sampleConfig) silencedDaemon (sampleInputs ++ [.kill, .start])

/-- It is unlocked. -/
def revivedUnlock : List Frame × DaemonState (Channel .transparent sampleSeed) :=
  daemonStep .transparent sampleConfig revivedDaemon (.ask (.unlock [112]))

/-- What happens in the sample, in one evaluation. -/
theorem revived_run :
    unacknowledgedDaemon.world.db.pending.rows.length = 1 ∧
    (∀ c ∈ unacknowledgedDaemon.world.outside.choices, (c.fault = .none ∧ c.env = .calm ∧
      c.arrives = true ∧ c.returns = true ∧ c.dies = false) ∧ c.written = none) ∧
    revivedUnlock.2.world.outside.service.nextEpoch silencedVault.vaultId.blob + 1 < sqlIntegerBound := by
  decide +kernel

/-- The reply to the sample upload is lost, and the daemon can be unlocked again. -/
theorem strict_writes_unlockable_sample :
    unacknowledgedDaemon.world.db.pending.rows.length = 1 ∧
    unacknowledgedDaemon.world.db.AllWitnessed .transparent silencedVault.vaultId ∧
    revivedUnlock.1 = [.response (.ok .empty)] ∧ revivedUnlock.2.world.vault.status = .unlocked := by
  obtain ⟨hpending, hchoices, hroom⟩ := revived_run
  have hconfig : sampleConfig.witness = some sampleTrust := rfl
  have hsig : Primitives.transparent.SignatureCorrect :=
    ⟨fun _ => rfl, fun _ _ => decide_eq_true rfl⟩
  have htrust : sampleTrust.Trusts (Primitives.transparent.verifyingKey sampleSeed) := .inl rfl
  have hrun : StrictRun .transparent sampleConfig {[112]} silencedVault silencedDaemon sampleInputs :=
    ⟨⟨_, [112], rfl, ⟨rfl, rfl⟩, create_silencedVault⟩, rfl, witnessed_sampleInputs,
      by simp [sampleInputs, DaemonInput.ask, DaemonInput.Sets],
      fun _ _ q _ => Primitives.idealAead_transparent.boundFor _ _ q⟩
  have hcalm : unacknowledgedDaemon.world.outside.Undisturbed := fun c hc => by
    obtain ⟨⟨hfault, henv, harrives, hreturns, hdies⟩, hwritten⟩ := hchoices c hc
    exact ⟨⟨hfault, henv, harrives, hreturns, hdies⟩, hwritten⟩
  have hfinal : Run.final (daemonStep .transparent sampleConfig) silencedDaemon sampleInputs =
      unacknowledgedDaemon := rfl
  have hsettled : silencedDaemon.Settled := fun _ => rfl
  have hid : silencedDaemon.world.Identified silencedVault.vaultId :=
    (World.Identified.of_create create_silencedVault).locked
  have hempty : silencedDaemon.world.db.AllWitnessed .transparent silencedVault.vaultId :=
    Database.AllWitnessed.of_create create_silencedVault _
  obtain ⟨hwitnessed, hunlocks⟩ :=
    @strict_writes_unlockable .transparent sampleConfig sampleTrust hconfig
  have hall := hwitnessed silencedDaemon silencedVault.vaultId hsettled hid hempty sampleInputs
    witnessed_sampleInputs
  rw [hfinal] at hall
  obtain ⟨q, hq, hunlocked⟩ := hunlocks Primitives.idealAead_transparent.toOpensSealed hsig htrust hrun
    (hfinal.symm ▸ hcalm)
  obtain rfl : q = [112] := hq
  refine ⟨hpending, hall, ?_⟩
  have hanswer : daemonStep .transparent sampleConfig revivedDaemon (.ask (.unlock [112])) =
      revivedUnlock := rfl
  have hdone := hunlocked revivedDaemon rfl
  rw [hanswer] at hdone
  rcases hdone with hdone | hlimit
  · exact hdone
  · exact absurd hroom (not_lt.mpr hlimit)

/-- The sample daemon, which has stored one byte through the witness, receives a stream for the object. -/
def overwrittenDaemon : DaemonState SampleChannel := (sampleStep storedDaemon (.ask streamedByte)).2

/-- The version that the upload stores. -/
def overwritingVersion : VersionId := ⟨⟨18 :: List.replicate 15 0, rfl⟩⟩

/-- What happens in the sample, in one evaluation. -/
theorem overwritten_run :
    storedDaemon.world.db.objects.rows.length = 1 ∧
    (sampleStep storedDaemon (.ask streamedByte)).1 =
      [.response (.ok .streamReady), .response (.ok (.published overwritingVersion.toHex))] ∧
    overwrittenDaemon.world.db.pending.rows = [] ∧
    overwrittenDaemon.world.db.objects.lookup (Identifier.repeated 2 : ObjectId).blob =
      some overwritingVersion.blob ∧
    overwrittenDaemon.world.db.receipts.lookup overwritingVersion.blob = none := by
  decide +kernel

/-- **A streamed upload is not witnessed.** The active version of the sample daemon is witnessed. A
streamed upload to its object is published, and its version has no receipt; once the daemon has died,
nothing unlocks it again. -/
theorem streamed_upload_unwitnessed :
    storedDaemon.world.db.objects.rows.length = 1 ∧
    storedDaemon.world.db.AllWitnessed .checksum sampleWorld.vaultId ∧
    (sampleStep storedDaemon (.ask streamedByte)).1 =
      [.response (.ok .streamReady), .response (.ok (.published overwritingVersion.toHex))] ∧
    ¬overwrittenDaemon.world.db.AllWitnessed .checksum sampleWorld.vaultId ∧
    ∀ later, (∀ i ∈ later, ¬i.Replaces) →
      (Run.final sampleStep overwrittenDaemon.down later).world.vault.rootKey = none ∧
      ∀ a passphrase, ∀ frame ∈ (sampleStep (Run.final sampleStep overwrittenDaemon.down later)
        (.request a (some (.unlock passphrase)))).1,
          ∃ code message, frame = .response (.error code message) := by
  obtain ⟨hstored, hanswer, hpending, hpointer, hreceipt⟩ := overwritten_run
  have hconfig : sampleConfig.witness = some sampleTrust := rfl
  have hsettled : sampleDaemon.Settled := fun _ => rfl
  have hid : sampleDaemon.world.Identified sampleWorld.vaultId :=
    (World.Identified.of_create create_sampleWorld).locked
  have hempty : sampleDaemon.world.db.AllWitnessed .checksum sampleWorld.vaultId :=
    Database.AllWitnessed.of_create create_sampleWorld _
  have hstrict : sampleConfig.witness.isSome := rfl
  have hfinal : Run.final (daemonStep .checksum sampleConfig) sampleDaemon sampleInputs =
      storedDaemon := rfl
  have hall := (hempty.daemon_run hstrict hsettled hid witnessed_sampleInputs).2
  rw [hfinal] at hall
  refine ⟨hstored, hall, hanswer, fun hwitnessed => ?_, fun later hlater => ?_⟩
  · obtain ⟨_, r, -, hversion, -, hr, -⟩ := hwitnessed _ _ hpointer
    have hrow := (Database.selectReceipt_eq_ok_some.mp hr).2.2.2
    rw [hversion, hreceipt] at hrow
    cases hrow
  · rw [← overwrittenDaemon.db_down] at hpending hpointer hreceipt
    obtain ⟨hafter, -, -, hrefused⟩ := unwitnessed_pointer_locks_out hconfig
      overwrittenDaemon.rootKey_down hpending hpointer hreceipt later hlater
    exact ⟨hafter, hrefused⟩

end Vlt1

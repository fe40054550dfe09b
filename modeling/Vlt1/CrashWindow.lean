import Vlt1.Recovery

/-!
# The window between staging and finishing

A strict daemon publishes an object with `putWithWitness` and completes what was interrupted when it is
unlocked the next time. Its vault is unlocked only while nothing is staged (`World.Guarded`): a
publication that stops after its version was staged locks the vault, and the unlock that follows
completes the version first. So at most one version is ever staged, and wherever the two stores differ
it explains the difference. `crash_window_agreement` says so about every state a daemon reaches, and
that a recovery there is never refused.
-/

namespace Vlt1

open Effect StagedPublication

/-! ### Reading the agreement off the tables -/

/-- The witness's head of the object is the receipt of its active version. -/
def HeadSettled (prim : Primitives) (signingKey : Block 32) (V : VaultId) (db : Database)
    (service : WitnessDb) (o : ObjectId) : Prop :=
  ∃ receipt, db.activeReceipt prim o = .ok receipt ∧
    loadReceipt prim service V o (prim.verifyingKey signingKey) = .ok receipt

/-- The witness's head of the object is the receipt of a staged version, which expects the epoch of the
active one. -/
def HeadAhead (prim : Primitives) (signingKey : Block 32) (V : VaultId) (db : Database)
    (service : WitnessDb) (o : ObjectId) : Prop :=
  ∃ v receipt r, v.objectId = o ∧ db.activeReceipt prim o = .ok receipt ∧
    db.Staged v (receipt.elim 0 WitnessReceipt.witnessEpoch) ∧
      loadReceipt prim service V o (prim.verifyingKey signingKey) = .ok (some r) ∧
        r.request = v.request prim V

namespace Mirrors

variable {prim : Primitives} {signingKey : Block 32} {V : VaultId} {db : Database}
  {c : Channel prim signingKey} {s : Stores} {o : ObjectId}

/-- Where head and active version are one, the object is settled. -/
theorem headSettled_of_eq (h : Mirrors prim V db c s) (heq : s.head o = s.active o) :
    HeadSettled prim signingKey V db c.service o := by
  have hsame := (heq ▸ h.head o).unique (h.active o)
  obtain ⟨receipt, hreceipt, -⟩ := h.active o
  exact ⟨receipt, hreceipt, hsame.trans hreceipt⟩

/-- A staged version expects the epoch of the active one. -/
theorem expected (h : Mirrors prim V db c s) (hs : Agreement s) {v : StoredVersion} {e : UInt64}
    (hve : db.Staged v e) : ∃ receipt, db.activeReceipt prim v.objectId = .ok receipt ∧
      e = receipt.elim 0 WitnessReceipt.witnessEpoch := by
  obtain ⟨receipt, hreceipt, hrest⟩ := h.active v.objectId
  refine ⟨receipt, hreceipt, UInt64.toNat_inj.mp ?_⟩
  have hself := (h.staged _ _ _).mpr ⟨v, e, hve, rfl, rfl, rfl⟩
  rw [hs.expected _ _ _ hself]
  exact ReadsAs.number_eq ⟨receipt, rfl, hrest⟩

/-- An object is settled, or the witness is one step ahead with what is staged. -/
theorem headSettled_or_headAhead (h : Mirrors prim V db c s) (hs : Agreement s) (o : ObjectId) :
    HeadSettled prim signingKey V db c.service o ∨ HeadAhead prim signingKey V db c.service o := by
  cases hstaged : s.staged o with
  | none => exact .inl (h.headSettled_of_eq (hs.settled o hstaged))
  | some entry =>
    obtain ⟨v, e, hve, rfl, hrequest, -⟩ := (h.staged o entry.1 entry.2).mp hstaged
    rcases hs.unsettled _ entry.1 entry.2 hstaged with hsame | ⟨n, hhead, -⟩
    · exact .inl (h.headSettled_of_eq hsame)
    · -- the head is the acknowledgement of the staged version
      obtain ⟨receipt, hreceipt, rfl⟩ := h.expected hs hve
      obtain ⟨found, hload, -, hentry⟩ := h.head v.objectId
      rw [hhead] at hentry
      obtain ⟨r, rfl, hr⟩ := Option.map_eq_some_iff.mp hentry.symm
      exact .inr ⟨v, receipt, r, rfl, hreceipt, hve, hload,
        (Prod.mk.inj hr).1.trans hrequest.symm⟩

/-- With at most one staged object there is at most one pending row. -/
theorem length_pending (h : Mirrors prim V db c s) (hone : s.OneStaged) :
    db.pending.rows.length ≤ 1 := by
  have hstaged : ∀ b ∈ db.pending.rows.map Prod.fst, ∃ v e, db.Staged v e ∧ v.versionId.blob = b := by
    intro b hb
    obtain ⟨row, hrow, rfl⟩ := List.mem_map.mp hb
    refine h.pending row.1 ?_
    rw [Table.mem_rows.mp hrow]
    exact Option.some_ne_none _
  rw [← List.length_map (f := Prod.fst)]
  refine length_le_one db.pending.nodup_keys fun b hb b' hb' => ?_
  obtain ⟨v, e, hve, rfl⟩ := hstaged b hb
  obtain ⟨v', e', hve', rfl⟩ := hstaged b' hb'
  have hself := (h.staged _ _ _).mpr ⟨v, e, hve, rfl, rfl, rfl⟩
  have hself' := (h.staged _ _ _).mpr ⟨v', e', hve', rfl, rfl, rfl⟩
  have hobject : v.objectId = v'.objectId := by
    refine hone _ _ ?_ ?_
    · rw [hself]
      exact Option.some_ne_none _
    · rw [hself']
      exact Option.some_ne_none _
  -- the object has one staged request, so the two rows name one version
  rw [hobject, hself'] at hself
  have hrequest := (Prod.mk.inj (Option.some.inj hself)).1
  exact congrArg (fun r : WitnessRequest => r.versionId.blob) hrequest.symm

/-- Where nothing is staged no row is pending. -/
theorem rows_pending_eq_nil (h : Mirrors prim V db c s) (hnone : s.Unstaged) :
    db.pending.rows = [] := by
  refine List.eq_nil_iff_forall_not_mem.mpr fun row hrow => ?_
  obtain ⟨v, e, hve, -⟩ := h.pending row.1 (by
    rw [Table.mem_rows.mp hrow]; exact Option.some_ne_none _)
  cases (hnone _).symm.trans ((h.staged _ _ _).mpr ⟨v, e, hve, rfl, rfl, rfl⟩)

end Mirrors

/-! ### The vault of a strict daemon -/

/-- At most one version is staged, and none while the vault is unlocked. -/
def World.Guarded {prim : Primitives} {signingKey : Block 32} (V : VaultId)
    (w : World (Channel prim signingKey)) : Prop :=
  w.Paired V State.OneStaged ∧ (w.vault.rootKey ≠ none → w.Paired V State.Unstaged)

section

variable {prim : Primitives} {signingKey : Block 32} {V : VaultId} {p : HttpsWitnessProvider}
  {w w' : World (Channel prim signingKey)}

/-- Requests do not stage a second value. -/
theorem sendable_oneStaged : Sendable (State.OneStaged : Stores → Prop) :=
  .client fun _ staged => ∀ o o', staged o ≠ none → staged o' ≠ none → o = o'

/-- Requests stage nothing. -/
theorem stable_unstaged : Stable (State.Unstaged : Stores → Prop) :=
  .client fun _ staged => ∀ o, staged o = none

/-- A vault with nothing staged is guarded. -/
theorem World.Guarded.of_unstaged (h : w.Paired V State.Unstaged) : w.Guarded V :=
  ⟨h.mono fun _ h => h.oneStaged, fun _ => h⟩

/-- A locked vault with one value staged is guarded. -/
theorem World.Guarded.of_locked (h : w.Paired V State.OneStaged) (hlocked : w.vault.rootKey = none) :
    w.Guarded V :=
  ⟨h, fun hkey => absurd hlocked hkey⟩

/-- A vault that was just created is guarded. -/
theorem World.Guarded.of_create {w₀ : World (Channel prim signingKey)} (hunused : w₀.outside.Unused)
    {passphrase : Text} {u : Unit} (hcreate : create prim passphrase w₀ = .ok u w) :
    w.locked.Guarded w.vaultId := by
  refine .of_unstaged (((World.Paired.of_create hunused hcreate).mono ?_).locked)
  rintro _ rfl o
  rfl

variable (hsig : prim.SignatureCorrect)

include hsig

/-- Reading and sealing keep a vault guarded. -/
theorem steady_guarded : Steady fun w : World (Channel prim signingKey) => w.Guarded V :=
  (steady_paired hsig sendable_oneStaged.stable).and
    (Steady.of_vault_imp (fun v => v.rootKey ≠ none) (steady_paired hsig stable_unstaged))

/-- Asking for a head keeps a vault guarded. -/
theorem keepsHeads_guarded : (p.provider prim).KeepsHeads
    fun w w' : World (Channel prim signingKey) => w.Guarded V → w'.Guarded V where
  head v o c w h := ⟨(keepsHeads_paired hsig sendable_oneStaged.stable).head v o c w h.1,
    fun hkey => (keepsHeads_paired hsig stable_unstaged).head v o c w (h.2 hkey)⟩

/-- Opening keeps a vault guarded: it begins locked. -/
theorem survives_openVault_guarded :
    Op.Survives (fun w : World (Channel prim signingKey) => w.Guarded V) (fun w => w.Guarded V)
      (openVault prim) := by
  refine .of_triple ((triple_openVault_paired hsig sendable_oneStaged.stable).and
    (triple_openVault (Steady.of_vault_imp (fun v => v.rootKey ≠ none)
      (steady_paired hsig stable_unstaged)) ?_)) fun _ h => h
  exact fun _ _ _ _ hkey => absurd rfl hkey

/-- A rotation keeps a vault guarded, and a crash leaves it paired. -/
theorem survives_rotatePassphrase_guarded (current replacement : Text) :
    Op.Survives (fun w : World (Channel prim signingKey) => w.Guarded V)
      (fun w => w.Paired V State.OneStaged) (rotatePassphrase prim current replacement) := by
  have hM : Steady fun w : World (Channel prim signingKey) => w.Guarded V := steady_guarded hsig
  have hlock : ∀ w : World (Channel prim signingKey), w.Guarded V → w.locked.Guarded V :=
    fun w h => .of_locked h.1.locked rfl
  refine .of_triple ((triple_rotatePassphrase hM hM hM hlock hlock ?_).mono_stop
    fun _ _ h => h.elim id id) fun _ h => h.1
  intro w rootKey envelope db hw _ _ hid hbody
  exact ⟨⟨hw.1.replaceEnvelope hid rfl hbody, fun hkey => (hw.2 hkey).replaceEnvelope hid rfl hbody⟩,
    .of_locked (hw.1.replaceEnvelope hid hid hbody) rfl⟩

/-! ### Unlocking -/

/-- A recovery that stops has locked the vault. -/
theorem triple_recover_guarded :
    Op.Triple (fun w : World (Channel prim signingKey) =>
        w.Paired V State.OneStaged ∧ w.vault.rootKey ≠ none)
      (recoverPendingWitnessPublications prim (p.provider prim)) (fun _ w => w.Guarded V)
      fun stop w => stop.elim (w.Paired V State.OneStaged) fun _ => w.Guarded V := by
  rintro w ⟨hw, hkey⟩
  have hrecover := triple_recover_paired (p := p) hsig sendable_oneStaged
    (fun s o r e n _ h hstaged _ => (h.finish (by rw [hstaged]; exact Option.some_ne_none _)).oneStaged)
    w hw
  cases hout : recoverPendingWitnessPublications prim (p.provider prim) w with
  | ok n w' =>
    rw [hout] at hrecover
    exact .of_unstaged (hrecover.mono fun _ h => h.2)
  | crashed w' =>
    rw [hout] at hrecover
    exact hrecover
  | failed e w' =>
    rw [hout] at hrecover
    obtain ⟨-, s, -, hmirrors, -⟩ := hw
    refine .of_locked hrecover (recoverPendingWitnessPublications_failed p.fails_issueReceipt
      Channel.fails_enforceOwnerPrivateStateFiles hkey (fun row hrow => ?_) hout).2
    refine (hmirrors.wellFormed.pending row.1 ?_).1
    rw [Table.mem_rows.mp hrow]
    exact Option.some_ne_none _

/-- A strict unlock ends unlocked only when its recovery has settled everything. -/
theorem survives_strictUnlock (passphrase : Text) :
    Op.Survives (fun w : World (Channel prim signingKey) => w.Guarded V)
      (fun w => w.Paired V State.OneStaged) (strictUnlock prim passphrase (p.provider prim)) := by
  have hsteady : Steady fun w : World (Channel prim signingKey) => w.Guarded V := steady_guarded hsig
  have hlock := hsteady.lockRelation fun w h => .of_locked h.1.locked rfl
  have hverify : Op.Survives (fun w : World (Channel prim signingKey) => w.Guarded V)
      (fun w => w.Paired V State.OneStaged)
      (verifyActiveObjectsWithWitness prim (p.provider prim)) :=
    .of_keeps (keeps_verifyActiveObjectsWithWitness prim (keepsHeads_guarded hsig)) fun _ h => h.1
  refine Op.Triple.bind (fun _ w => w.Paired V State.OneStaged ∧ w.vault.rootKey ≠ none) ?_
    fun _ => Op.Triple.bind (fun _ => World.Guarded V) (triple_recover_guarded hsig) fun _ =>
      hverify.bind fun _ => .pure _
  intro w hw
  rcases unlock_cases prim passphrase w with ⟨e, hfailed⟩ | ⟨rootKey, -, hok⟩
  · rw [hfailed]
    exact hw
  · rw [hok]
    exact ⟨hw.1, Option.some_ne_none _⟩

/-! ### Publishing -/

omit hsig in
/-- A publication that stops has locked the vault, or left the tables as they were. -/
theorem putWithWitness_failed {o : ObjectId} {plaintext : Bytes} {e : VaultError}
    (h : putWithWitness prim o plaintext (p.provider prim) w = .failed e w') :
    w'.vault.rootKey = none ∨ w.Untouched w' := by
  obtain ⟨w1, hinner, rfl⟩ := lockAfterFailure_eq_failed.mp h
  by_cases hlocks : e.requiresLock = true
  · rw [if_pos hlocks]
    exact .inl rfl
  · rw [if_neg hlocks]
    refine .inr ?_
    rcases Op.bind_eq_failed.mp hinner with hprepare | ⟨prepared, w2, hprepare, hrest⟩
    · exact Op.Keeps.of_failed (keeps_prepareVersion prim o plaintext _) hprepare
    have hw2 : w.Untouched w2 := Op.Keeps.of_ok (keeps_prepareVersion prim o plaintext _) hprepare
    rcases Op.bind_eq_failed.mp hrest with hactive | ⟨active, w3, -, hrest⟩
    · exact IsTrans.trans _ _ _ hw2 (Op.Keeps.of_failed (keeps_activeReceipt prim o) hactive)
    -- from here on every error locks
    refine absurd (?_ : e.Locks) hlocks
    rcases Op.bind_eq_failed.mp hrest with hstage | ⟨_, w4, -, hrest⟩
    · exact fails_stageWitnessPublication (fun _ h => h) Channel.fails_enforceOwnerPrivateStateFiles
        _ _ _ _ _ _ hstage
    rcases Op.bind_eq_failed.mp hrest with hack | ⟨_, w5, -, hreturn⟩
    · exact fails_acknowledge (fun _ h => h) p.fails_issueReceipt
        Channel.fails_enforceOwnerPrivateStateFiles _ _ _ _ _ hack
    · cases hreturn

omit hsig in
/-- A locked vault publishes nothing. -/
theorem putWithWitness_of_locked {o : ObjectId} {plaintext : Bytes}
    (hlocked : w.vault.rootKey = none) :
    putWithWitness prim o plaintext (p.provider prim) w = .failed .locked w := by
  have hroot : requireRootKey w = .failed .locked w := by
    unfold requireRootKey
    rw [Op.bind_of_ok (Op.get_apply w), hlocked]
    rfl
  refine lockAfterFailure_eq_failed.mpr ⟨w, ?_, rfl⟩
  exact Op.bind_of_failed (Op.bind_of_failed hroot)

/-- A witnessed put that does not finish locks the vault. -/
theorem survives_putWithWitness_guarded (o : ObjectId) (plaintext : Bytes) :
    Op.Survives (fun w : World (Channel prim signingKey) => w.Guarded V)
      (fun w => w.Paired V State.OneStaged) (putWithWitness prim o plaintext (p.provider prim)) := by
  intro w hw
  by_cases hkey : w.vault.rootKey = none
  · rw [putWithWitness_of_locked hkey]
    exact hw
  have hunstaged := hw.2 hkey
  have hput := triple_putWithWitness_paired (p := p) hsig stable_unstaged (fun s h => h o)
    sendable_oneStaged (fun s r h => h.stage) stable_unstaged
    (fun s r e n _ h hstaged _ => h.finish (by rw [hstaged]; exact Option.some_ne_none _)) plaintext
    w hunstaged
  have hone : ∀ x : World (Channel prim signingKey), x.Paired V State.Unstaged ∨
      x.Paired V State.OneStaged ∨ x.Paired V State.Unstaged → x.Paired V State.OneStaged := by
    rintro x (h | h | h)
    · exact h.mono fun _ h => h.oneStaged
    · exact h
    · exact h.mono fun _ h => h.oneStaged
  cases hout : putWithWitness prim o plaintext (p.provider prim) w with
  | ok u w' =>
    rw [hout] at hput
    exact .of_unstaged hput
  | crashed w' =>
    rw [hout] at hput
    exact hone w' hput
  | failed e w' =>
    rw [hout] at hput
    refine ⟨hone w' hput, fun hkey' => ?_⟩
    -- the vault is still unlocked, so nothing was staged
    obtain ⟨hid, s, hs, hmirrors, -⟩ := hone w' hput
    refine ⟨hid, s, hs, hmirrors, hmirrors.unstaged fun v e' hve => ?_⟩
    rw [((putWithWitness_failed hout).resolve_left hkey').db] at hve
    obtain ⟨-, s', -, hmirrors', hnone⟩ := hunstaged
    cases (hnone _).symm.trans ((hmirrors'.staged _ _ _).mpr ⟨v, e', hve, rfl, rfl, rfl⟩)

/-! ### Runs of the daemon -/

omit hsig in
/-- The input leaves the database file to the daemon and stores nothing past the witness. -/
def DaemonInput.Witnessed : DaemonInput → Prop
  | .request _ (some (.putStream _ _)) => False
  | .replaceDatabase _ => False
  | _ => True

/-- Every request keeps the vault guarded. -/
theorem World.Guarded.step {config : DaemonConfig} (hconfig : config.witness ≠ none)
    {s : DaemonState (Channel prim signingKey)} {input : DaemonInput} (hinput : input.Witnessed)
    (h : s.world.Guarded V) : (daemonStep prim config s input).2.world.Guarded V := by
  have hsteady : Steady fun w : World (Channel prim signingKey) => w.Guarded V := steady_guarded hsig
  have hlock := hsteady.lockRelation fun w h => .of_locked h.1.locked rfl
  refine daemonStep_survives prim config (J := fun w => w.Paired V State.OneStaged)
    (fun _ => keepsHeads_guarded hsig) (fun _ h => h.1) (fun w h => .of_locked h.locked rfl)
    (survives_openVault_guarded hsig) (fun a r heq => ⟨?_, ?_, ?_, ?_, ?_, ?_⟩) ?_ h
  · exact fun _ _ hnone => absurd hnone hconfig
  · exact fun passphrase _ p _ => survives_strictUnlock hsig passphrase
  · exact fun _ _ _ hnone => absurd hnone hconfig
  · exact fun _ _ _ p _ o plaintext => survives_putWithWitness_guarded hsig o plaintext
  · rintro objectId items rfl
    subst heq
    exact hinput.elim
  · exact fun current replacement _ => survives_rotatePassphrase_guarded hsig current replacement
  · rintro db rfl
    exact hinput.elim

/-- Every run keeps the vault guarded. -/
theorem World.Guarded.daemon_run {config : DaemonConfig} (hconfig : config.witness ≠ none)
    {s : DaemonState (Channel prim signingKey)} (h : s.world.Guarded V) {inputs : List DaemonInput}
    (hinputs : ∀ i ∈ inputs, i.Witnessed) :
    (Run.final (daemonStep prim config) s inputs).world.Guarded V := by
  refine (Run.guarded_invariant (daemonStep prim config) (I := fun s => s.world.Guarded V)
    (fun _ input => input.Witnessed) (fun s input h hinput => ?_) h fun t ht => ?_).1
  · exact h.step hsig hconfig hinput
  · exact hinputs t.input (Run.input_mem _ ht)

/-- With at most one version staged and a witness that answers, a recovery settles every object, unless
the counter of the witness has no storable successor. -/
theorem World.Paired.recover (htrust : p.Trusts (prim.verifyingKey signingKey))
    (h : w.Paired V State.OneStaged) (hresponsive : w.outside.Responsive)
    (hkey : w.vault.rootKey ≠ none) :
    (∃ n w', recoverPendingWitnessPublications prim (p.provider prim) w = .ok n w' ∧
      w'.db.pending.rows = [] ∧
        ∀ o, HeadSettled prim signingKey V w'.db w'.outside.service o) ∨
    ∃ w', recoverPendingWitnessPublications prim (p.provider prim) w =
        .failed .witnessUnavailable w' ∧
      (sqlIntegerBound : ℤ) ≤ w'.outside.service.nextEpoch V.blob + 1 := by
  have hfew : StagesFew State.OneStaged := fun s _ hone l hl hstaged =>
    (hone.length_le hl hstaged).trans_lt (by decide)
  have hrecover := triple_recover_of_responsive (p := p) hsig htrust sendable_oneStaged
    (fun s o r e n _ h hstaged _ => (h.finish (by rw [hstaged]; exact Option.some_ne_none _)).oneStaged)
    hfew w ⟨h.agrees, hresponsive, hkey⟩
  cases hout : recoverPendingWitnessPublications prim (p.provider prim) w with
  | ok n w' =>
    rw [hout] at hrecover
    obtain ⟨-, s, hs, hmirrors, -, hnone⟩ := hrecover
    exact .inl ⟨n, w', rfl, hmirrors.rows_pending_eq_nil hnone, fun o =>
      hmirrors.headSettled_of_eq (hs.settled o (hnone o))⟩
  | failed e w' =>
    rw [hout] at hrecover
    obtain ⟨heq, -, s, -, hmirrors, -, hlimit, -⟩ := hrecover
    obtain rfl := Option.some.inj heq
    refine .inr ⟨w', rfl, ?_⟩
    rw [hmirrors.next]
    exact_mod_cast hlimit
  | crashed w' =>
    rw [hout] at hrecover
    cases hrecover.1

/-- **Agreement across the crash window.** A strict daemon serves any requests but streamed uploads in
front of an honest witness, any request for a receipt is lost, late or repeated, any reply is lost, and
the process dies anywhere. In every state it reaches at most one row is pending, every pending row
expects the epoch of the active receipt of its object, and the witness's head of an object is its active
receipt or the receipt of exactly its pending version. Once the vault is unlocked and the witness
answers, a recovery settles every object; only a counter without a storable successor can stop it. -/
theorem crash_window_agreement {config : DaemonConfig} (hconfig : config.witness = some p)
    {w₀ : World (Channel prim signingKey)} (hunused : w₀.outside.Unused) {passphrase : Text} {u : Unit}
    (hcreate : create prim passphrase w₀ = .ok u w) {s₀ s : DaemonState (Channel prim signingKey)}
    (hs₀ : s₀.world = w.locked) (inputs : List DaemonInput) (hinputs : ∀ i ∈ inputs, i.Witnessed)
    (hs : s = Run.final (daemonStep prim config) s₀ inputs) :
    s.world.db.pending.rows.length ≤ 1 ∧
    (∀ v e, s.world.db.Staged v e → ∃ receipt, s.world.db.activeReceipt prim v.objectId = .ok receipt ∧
      e = receipt.elim 0 WitnessReceipt.witnessEpoch) ∧
    (∀ o, HeadSettled prim signingKey w.vaultId s.world.db s.world.outside.service o ∨
      HeadAhead prim signingKey w.vaultId s.world.db s.world.outside.service o) ∧
    (p.Trusts (prim.verifyingKey signingKey) → s.world.outside.Responsive → ∀ rootKey,
      let x : World (Channel prim signingKey) :=
        { s.world with vault := { s.world.vault with rootKey := some rootKey } }
      (∃ n x', recoverPendingWitnessPublications prim (p.provider prim) x = .ok n x' ∧
        x'.db.pending.rows = [] ∧
          ∀ o, HeadSettled prim signingKey w.vaultId x'.db x'.outside.service o) ∨
      ∃ x', recoverPendingWitnessPublications prim (p.provider prim) x =
          .failed .witnessUnavailable x' ∧
        (sqlIntegerBound : ℤ) ≤ x'.outside.service.nextEpoch w.vaultId.blob + 1) := by
  have hstart : s₀.world.Guarded w.vaultId := hs₀ ▸ .of_create hunused hcreate
  have hguarded : s.world.Guarded w.vaultId := by
    rw [hs]
    exact hstart.daemon_run hsig (hconfig ▸ Option.some_ne_none p) hinputs
  obtain ⟨-, x, hx, hmirrors, hone⟩ := hguarded.1
  refine ⟨hmirrors.length_pending hone, fun v e hve => hmirrors.expected hx hve,
    hmirrors.headSettled_or_headAhead hx, fun htrust hresponsive rootKey => ?_⟩
  -- the Root Key plays no role in the tables
  have hpaired : World.Paired w.vaultId State.OneStaged
      { s.world with vault := { s.world.vault with rootKey := some rootKey } } := hguarded.1
  exact hpaired.recover hsig htrust hresponsive (Option.some_ne_none _)

end

/-- A script in which no reply of the witness comes back at first. -/
def silentScript : List Choice :=
  (List.range 60).map fun i => { random := [UInt8.ofNat (i + 1)], returns := 17 ≤ i }

/-- A vault in front of a witness whose replies are lost. -/
def silentVault : World (Channel .checksum sampleSeed) :=
  (create .checksum [112] (.blank ⟨.empty, [], silentScript⟩)).state

theorem create_silentVault :
    create .checksum [112] (.blank ⟨.empty, [], silentScript⟩) = .ok () silentVault :=
  Outcome.eq_ok_of_result (by decide +kernel)

theorem witnessed_sampleInputs : ∀ i ∈ sampleInputs, i.Witnessed := by
  simp [sampleInputs, DaemonInput.ask, DaemonInput.Witnessed]

/-- The strict daemon of this vault, after it was started, unlocked and asked to store one byte. -/
def interruptedDaemon : DaemonState (Channel .checksum sampleSeed) :=
  Run.final (daemonStep .checksum sampleConfig) ⟨silentVault.locked, false, none, false⟩ sampleInputs

/-- The vault after it was unlocked again. -/
def reopenedVault : World (Channel .checksum sampleSeed) :=
  { interruptedDaemon.world with
    vault := { interruptedDaemon.world.vault with
      rootKey := some (silentVault.vault.rootKey.getD (.zero 32)) } }

/-- The request was acknowledged and its reply lost: the row is pending, and the head of the object is
explained. From now on the witness answers, and a recovery settles the object. -/
theorem crash_window_agreement_sample :
    interruptedDaemon.world.db.pending.rows.length = 1 ∧
    interruptedDaemon.world.outside.service.objectHeads.rows.length = 1 ∧
    (∀ o, HeadSettled .checksum sampleSeed silentVault.vaultId interruptedDaemon.world.db
        interruptedDaemon.world.outside.service o ∨
      HeadAhead .checksum sampleSeed silentVault.vaultId interruptedDaemon.world.db
        interruptedDaemon.world.outside.service o) ∧
    ∃ x', recoverPendingWitnessPublications .checksum (sampleTrust.provider .checksum) reopenedVault =
        .ok 1 x' ∧ x'.db.pending.rows = [] ∧
      ∀ o, HeadSettled .checksum sampleSeed silentVault.vaultId x'.db x'.outside.service o := by
  have hrun : interruptedDaemon.world.db.pending.rows.length = 1 ∧
      interruptedDaemon.world.outside.service.objectHeads.rows.length = 1 ∧
      (∀ c ∈ interruptedDaemon.world.outside.choices, c.fault = .none ∧ c.env = .calm ∧ c.arrives = true ∧
        c.returns = true ∧ c.dies = false) ∧
      (recoverPendingWitnessPublications .checksum (sampleTrust.provider .checksum) reopenedVault).result =
        some (.ok 1) := by decide +kernel
  obtain ⟨-, -, hheads, hrecover⟩ := crash_window_agreement (p := sampleTrust)
    (s := interruptedDaemon) Primitives.signatureCorrect_checksum rfl ⟨rfl, rfl⟩
    create_silentVault rfl sampleInputs witnessed_sampleInputs rfl
  obtain ⟨hpending, hservice, hchoices, hresult⟩ := hrun
  have hresponsive : interruptedDaemon.world.outside.Responsive := fun c hc => by
    obtain ⟨hfault, henv, harrives, hreturns, hdies⟩ := hchoices c hc
    exact ⟨hfault, henv, harrives, hreturns, hdies⟩
  refine ⟨hpending, hservice, hheads, ?_⟩
  rcases hrecover (.inl rfl) hresponsive (silentVault.vault.rootKey.getD (.zero 32)) with
    ⟨n, x', hok, hsettled⟩ | ⟨x', hfailed, -⟩
  · rw [show recoverPendingWitnessPublications .checksum (sampleTrust.provider .checksum) reopenedVault =
      .ok n x' from hok] at hresult
    cases hresult
    exact ⟨x', hok, hsettled⟩
  · rw [show recoverPendingWitnessPublications .checksum (sampleTrust.provider .checksum) reopenedVault =
      .failed .witnessUnavailable x' from hfailed] at hresult
    cases hresult

end Vlt1

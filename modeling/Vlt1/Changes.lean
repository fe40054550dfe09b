import Mathlib.Logic.Relation
import Vlt1.Session
import Vlt1.Vault.Putting

/-!
# What a call can change

A call of the library reads, seals and talks to the witness, and in between changes the vault in
memory or commits a transaction. `Change` lists these changes, each with what the call had checked
when it made it, and `sessionStep_changes` says that a call makes a sequence of them, wherever it
fails or dies. What every change keeps, every run of a program keeps (`Changes.invariant`).

No other program writes to the database file here.
-/

namespace Vlt1

open Effect

namespace VaultCall

/-- The drafts a call may publish. -/
def Publishes : VaultCall → Draft → Prop
  | .put o plaintext _, d => d.Of o plaintext
  | .putFromReader o reader size, d => d.OfReader o reader size
  | _, _ => False

/-- The drafts a call may stage. -/
def Stages : VaultCall → Draft → Prop
  | .putWithWitness o plaintext, d => d.Of o plaintext
  | _, _ => False

/-- The staged versions a call may make active that found these tables: a call that publishes only
the one it staged itself. -/
def Finalizes (db : Database) : VaultCall → StoredVersion → Prop
  | .putWithWitness o _, v => v.objectId = o ∧ db.versions.lookup v.versionId.blob = none
  | .recover, _ => True
  | _, _ => False

end VaultCall

section

variable {ω : Type} (prim : Primitives) (call : VaultCall) (w₀ : World ω)

/-- Nothing was committed since `w₀`, and the envelope in memory is the same. -/
structure World.Pristine (w : World ω) : Prop where
  db : w.db = w₀.db
  envelope : w.vault.envelope = w₀.vault.envelope
  commits : w.commits = w₀.commits

/-- One change a call makes that began in `w₀`. A call stores a version or an envelope only as its
first transaction. -/
inductive Change (w w' : World ω) : Prop
  /-- Neither the vault in memory nor the tables. -/
  | quiet (h : w.Quiet w')
  | locked (h : w' = w.locked)
  | unlocked {passphrase : Text} {rootKey : Block 32} (hcall : call = .unlock passphrase)
      (hfirst : w₀.Pristine w)
      (hopen : openRootKey prim passphrase w.vault.envelope = .ok rootKey)
      (h : w' = { w with vault := { w.vault with rootKey := some rootKey } })
  | opened {envelope : RootEnvelope} (hcall : call = .reopen)
      (henvelope : w.db.rootEnvelope prim = .ok envelope)
      (h : w' = { w with vault := ⟨envelope, none⟩ })
  /-- A new envelope was stored, and not taken over in memory. -/
  | replaced {current replacement : Text} {rootKey : Block 32} {envelope : RootEnvelope}
      {db : Database} (hcall : call = .rotatePassphrase current replacement)
      (hopen : openRootKey prim current w.vault.envelope = .ok rootKey)
      (hseals : envelope.Seals prim replacement rootKey) (hid : envelope.vaultId = w.vaultId)
      (hfirst : w₀.Pristine w) (hbody : w.db.replaceEnvelopeBody envelope = .ok db)
      (h : w' = w.committed db)
  /-- A new envelope was stored and taken over. -/
  | rotated {current replacement : Text} {rootKey : Block 32} {envelope : RootEnvelope}
      {db : Database} (hcall : call = .rotatePassphrase current replacement)
      (hopen : openRootKey prim current w.vault.envelope = .ok rootKey)
      (hseals : envelope.Seals prim replacement rootKey) (hid : envelope.vaultId = w.vaultId)
      (hfirst : w₀.Pristine w) (hbody : w.db.replaceEnvelopeBody envelope = .ok db)
      (h : w' = { w.committed db with vault := ⟨envelope, none⟩ })
  | published {d : Draft} (hcall : call.Publishes d) (hfirst : w₀.Pristine w)
      (hnew : d.New prim w) (h : w' = w.committed (d.published w.db))
  | staged {d : Draft} {e : UInt64} (hcall : call.Stages d) (hfirst : w₀.Pristine w)
      (hnew : d.New prim w) (hepoch : e.toNat < sqlIntegerBound)
      (hpending : w.db.pending.lookup d.versionId.blob = none)
      (h : w' = w.committed (d.staged e w.db))
  | finalized {v : StoredVersion} {e : UInt64} {r : WitnessReceipt} (hcall : call.Finalizes w₀.db v)
      (hstaged : w.db.Staged v e) (hack : r.Acknowledges prim w.vaultId v)
      (hbody : w.db.finalizeBody v r = .ok w'.db) (hvault : w'.vault = w.vault)
      (hcommits : w'.commits = w'.db :: w.commits)

/-- A sequence of changes. -/
abbrev Changes : World ω → World ω → Prop := Relation.ReflTransGen (Change prim call w₀)

variable {prim call w₀} {w w' : World ω}

/-- A quiet step may follow. -/
theorem Changes.quiet (h : Changes prim call w₀ w w') {w'' : World ω} (hquiet : w'.Quiet w'') :
    Changes prim call w₀ w w'' :=
  h.tail (.quiet hquiet)

/-- What every change keeps, a sequence of changes keeps. -/
theorem Changes.invariant {I : World ω → Prop}
    (hstep : ∀ w w', Change prim call w₀ w w' → I w → I w') (h : Changes prim call w₀ w w')
    (hw : I w) : I w' := by
  induction h with
  | refl => exact hw
  | tail _ hchange ih => exact hstep _ _ hchange ih

/-- The lock may follow. -/
theorem Changes.lock {x : World ω} (h : Changes prim call w₀ w x) :
    Changes prim call w₀ w x.locked :=
  h.tail (.locked rfl)

/-- Quiet steps commit nothing. -/
theorem World.Pristine.quiet {x x' : World ω} (h : w.Pristine x) (hquiet : x.Quiet x') :
    w.Pristine x' :=
  ⟨hquiet.db.trans h.db, (congrArg Vault.envelope hquiet.vault).trans h.envelope,
    hquiet.commits.trans h.commits⟩

/-- What was just staged is found staged. -/
theorem Draft.New.staged {d : Draft} {e : UInt64} (hnew : d.New prim w)
    (hepoch : e.toNat < sqlIntegerBound) : (d.staged e w.db).Staged d.storedVersion e := by
  obtain ⟨rootKey, -, hd⟩ := hnew.sealedFor
  refine ⟨Database.selectVersion_eq_ok.mpr ⟨rfl, ?_, ?_⟩,
    Database.selectStaged_eq_ok.mpr ⟨hepoch, ?_⟩⟩
  · rw [hd.toNat_plaintextLen]
    exact hnew.fits
  · exact AList.lookup_insert _
  · exact AList.lookup_insert _

/-- A call that began in `w` and has committed nothing yet. -/
def Begun (prim : Primitives) (call : VaultCall) (w x : World ω) : Prop :=
  Changes prim call w w x ∧ w.Pristine x

/-- A call begins with nothing done. -/
theorem Begun.refl (w : World ω) : Begun prim call w w := ⟨.refl, rfl, rfl, rfl⟩

/-- The lock commits nothing. -/
theorem Begun.lock {x : World ω} (h : Begun prim call w x) : Begun prim call w x.locked :=
  ⟨h.1.lock, h.2.db, h.2.envelope, h.2.commits⟩

/-- A call that makes its changes from its beginning on. -/
theorem changes_of_triple {α : Type} {x : VaultOp ω α}
    (h : Op.Triple (Begun prim call w) x (fun _ => Changes prim call w w)
      fun _ y => Begun prim call w y ∨ Changes prim call w w y) :
    Changes prim call w w (x w).state :=
  (h.mono_stop fun _ _ hy => hy.elim And.left id).state (.refl w)

/-- An unlock changes the vault in memory, or nothing. -/
theorem changes_unlock (passphrase : Text) (w : World ω) :
    Changes prim (.unlock passphrase) w w (unlock prim passphrase w).state := by
  rcases unlock_cases prim passphrase w with ⟨e, hfailed⟩ | ⟨rootKey, hopen, hok⟩
  · rw [hfailed]
    exact .refl
  · rw [hok]
    exact .single (.unlocked rfl ⟨rfl, rfl, rfl⟩ hopen rfl)

/-- Asking for a head is a quiet step. -/
theorem keepsHeads_changes (provider : WitnessProvider ω) :
    provider.KeepsHeads (Changes prim call w₀) where
  head _ _ _ _ := .single (.quiet ⟨⟨rfl, rfl⟩, rfl⟩)

variable [Machine ω] [Exclusive ω]

/-- Reading, sealing and locking are changes. -/
instance : LockRelation (Changes prim call w₀) where
  refl _ := .refl
  trans _ _ _ h h' := h.trans h'
  move w o hmove := .single (.quiet (ReadRelation.move w o hmove))
  interfere w := .single (.quiet (ReadRelation.interfere w))
  sink w b := .single (.quiet (ReadRelation.sink w b))
  observe w e he := .single (.quiet (ReadRelation.observe w e he))
  sealing w e he := .single (.quiet (SealRelation.sealing w e he))
  locked _ := .single (.locked rfl)

/-- Reading and sealing may follow. -/
theorem steady_changes (w : World ω) : Steady (Changes prim call w₀ w) where
  move x o hmove h := h.quiet (ReadRelation.move x o hmove)
  interfere x h := h.quiet (ReadRelation.interfere x)
  sink x b h := h.quiet (ReadRelation.sink x b)
  record x e he h := by
    rcases he with he | he
    · exact h.quiet (ReadRelation.observe x e he)
    · exact h.quiet (SealRelation.sealing x e he)

/-! ### Calls that publish -/

variable {provider : WitnessProvider ω}

/-- An acknowledgement finalises what is staged, or does nothing. -/
theorem changes_acknowledge {v : StoredVersion} {e : UInt64} (hcall : call.Finalizes w₀.db v)
    (hstaged : w.db.Staged v e) :
    Changes prim call w₀ w (acknowledge prim provider v e w).state := by
  rcases acknowledge_state v e w with hquiet | ⟨hvault, hcommits, r, hack, hbody⟩
  · exact .single (.quiet hquiet)
  · exact .single (.finalized hcall hstaged hack hbody hvault hcommits)

/-- Reading and sealing commit nothing. -/
theorem steady_begun (w : World ω) : Steady (Begun prim call w) := by
  have hquiet {x x' : World ω} (h : Begun prim call w x) (hx : x.Quiet x') : Begun prim call w x' :=
    ⟨h.1.quiet hx, h.2.quiet hx⟩
  refine ⟨fun x o hmove h => ?_, fun x h => ?_, fun x b h => ?_, fun x e he h => ?_⟩
  · exact hquiet h (ReadRelation.move x o hmove)
  · exact hquiet h (ReadRelation.interfere x)
  · exact hquiet h (ReadRelation.sink x b)
  · rcases he with he | he
    · exact hquiet h (ReadRelation.observe x e he)
    · exact hquiet h (SealRelation.sealing x e he)

/-- A put publishes its draft in one change. -/
theorem changes_put (o : ObjectId) (plaintext : Bytes) (size : ℕ) (w : World ω) :
    Changes prim (.put o plaintext size) w w (putWithChunkSize prim o plaintext size w).state :=
  changes_of_triple <| triple_putWithChunkSize (steady_begun w) (steady_changes w)
    (fun _ => Begun.lock) (fun _ => Changes.lock) size
    fun _ _ hx hof hnew => hx.1.tail (.published hof hx.2 hnew rfl)

/-- An upload from a reader publishes its draft in one change. -/
theorem changes_putFromReader (o : ObjectId) (reader : Reader) (size : ℕ) (w : World ω) :
    Changes prim (.putFromReader o reader size) w w
      (putFromReaderWithChunkSize prim o reader size w).state :=
  changes_of_triple <| triple_putFromReaderWithChunkSize (steady_begun w) (steady_changes w)
    (fun _ => Begun.lock) (fun _ => Changes.lock)
    fun _ _ hx hof hnew => hx.1.tail (.published hof hx.2 hnew rfl)

/-- A witnessed put stages its draft and may finalise it. -/
theorem changes_putWithWitness (o : ObjectId) (plaintext : Bytes) (w : World ω) :
    Changes prim (.putWithWitness o plaintext) w w
      (putWithWitness prim o plaintext provider w).state := by
  let B : World ω → Prop := Begun prim (.putWithWitness o plaintext) w
  let C : World ω → Prop := Changes prim (.putWithWitness o plaintext) w w
  have hB : Steady B := steady_begun w
  have hC : Steady C := steady_changes w
  refine changes_of_triple (triple_lockAfterFailure_or ?_ (fun _ => Begun.lock)
    fun _ => Changes.lock)
  refine Op.Triple.bind _ ((triple_prepareVersion hB plaintext _).mono_stop
    fun _ _ => .inl) fun prepared => ?_
  refine Op.Triple.of_exists fun d => Op.Triple.of_imp fun hd => ?_
  obtain ⟨hof, rfl⟩ := hd
  have hS : Steady fun x => B x ∧ d.SealedFor prim x.vault := steady_sealedFor hB d
  refine Op.Triple.bind _ ((hS.triple fun R hR => keeps_activeReceipt prim o).mono_stop
    fun _ _ hx => .inl hx.1) fun active => ?_
  let e : UInt64 := active.elim 0 WitnessReceipt.witnessEpoch
  -- the version is staged, and was not there when the call began
  let staged (x : World ω) : Prop :=
    C x ∧ x.db.Staged d.storedVersion e ∧ w.db.versions.lookup d.versionId.blob = none
  have hstaged : Steady staged := hC.and (Steady.of_untouched fun _ db =>
    db.Staged d.storedVersion e ∧ w.db.versions.lookup d.versionId.blob = none)
  refine Op.Triple.bind (fun _ => staged) ((triple_stageWitnessPublication hB hstaged
    fun x hx hnew hepoch hpending => ⟨hx.1.tail (.staged hof hx.2 hnew hepoch hpending rfl),
      hnew.staged hepoch, hx.2.db ▸ hnew.fresh⟩).mono_stop
        fun _ _ hx => hx.imp id And.left) fun _ => ?_
  refine Op.Triple.bind (fun _ => C) ?_ fun _ => Op.Triple.pure fun _ h => h
  rintro x ⟨hx, hx', hfresh⟩
  have hack : C (acknowledge prim provider d.storedVersion e x).state :=
    hx.trans (changes_acknowledge ⟨hof.object, hfresh⟩ hx')
  cases hout : acknowledge prim provider d.storedVersion e x with
  | ok _ y => rw [hout] at hack; exact hack
  | failed _ y => rw [hout] at hack; exact .inr hack
  | crashed y => rw [hout] at hack; exact .inr hack

/-- Recovery finalises what is staged, one version after the other. -/
theorem changes_recover (w : World ω) :
    Changes prim .recover w w (recoverPendingWitnessPublications prim provider w).state := by
  let C : World ω → Prop := Changes prim .recover w w
  have hC : Steady C := steady_changes w
  have hack : ∀ v e, Op.Triple (fun x => C x ∧ x.db.Staged v e) (acknowledge prim provider v e)
      (fun _ => C) fun _ => C := by
    rintro v e x ⟨hx, hstaged⟩
    have hdone : C (acknowledge prim provider v e x).state :=
      hx.trans (changes_acknowledge trivial hstaged)
    cases hout : acknowledge prim provider v e x <;> (rw [hout] at hdone; exact hdone)
  have hrecover := triple_recover_of_acknowledge (hC.triple fun R hR => keeps_requireRootKey)
    (hC.triple fun R hR => keeps_pendingWitnessPublications) hack (fun _ _ _ _ _ _ _ h => h)
    fun _ _ h _ => h.lock
  exact (hrecover.mono_post fun _ _ h => h.1).state .refl

/-! ### Calls that change the vault in memory -/

/-- Opening takes the envelope that is stored. -/
theorem changes_openVault (w : World ω) : Changes prim .reopen w w (openVault prim w).state :=
  (triple_openVault (steady_changes w) fun _ _ hx henvelope =>
    hx.tail (.opened rfl henvelope rfl)).state .refl

/-- A rotation replaces the stored envelope, and then the one in memory. -/
theorem changes_rotatePassphrase (current replacement : Text) (w : World ω) :
    Changes prim (.rotatePassphrase current replacement) w w
      (rotatePassphrase prim current replacement w).state :=
  changes_of_triple <| triple_rotatePassphrase (steady_begun w) (steady_changes w)
    (steady_changes w) (fun _ => Begun.lock) (fun _ => Changes.lock)
    fun _ _ _ _ hx hopen hseals hid hbody =>
      ⟨hx.1.tail (.replaced rfl hopen hseals hid hx.2 hbody rfl),
        hx.1.tail (.rotated rfl hopen hseals hid hx.2 hbody rfl)⟩

/-! ### Sessions -/

/-- A call that needs a handle makes a sequence of changes, however it ends. -/
theorem run_changes (call : VaultCall) (w : World ω) :
    Changes prim call w w (call.run prim provider w).state := by
  have hreturn {α : Type} {call : VaultCall} {x : VaultOp ω α} {f : α → CallResult}
      (hx : Changes prim call w w (x w).state) :
      Changes prim call w w ((x >>= fun a => pure (f a)) w).state := by
    rw [Op.Keeps.state_bind fun _ _ => rfl]
    exact hx
  cases call with
  | reopen => exact .refl
  | drop => exact .refl
  | elapse => exact .refl
  | unlock passphrase => exact hreturn (changes_unlock passphrase w)
  | lock => exact hreturn (keeps_lock w)
  | put o plaintext size => exact hreturn (changes_put o plaintext size w)
  | putFromReader o reader size => exact hreturn (changes_putFromReader o reader size w)
  | putWithWitness o plaintext => exact hreturn (changes_putWithWitness o plaintext w)
  | recover => exact hreturn (changes_recover w)
  | get o => exact hreturn (keeps_get prim o w)
  | getToWriter o =>
    exact Op.Keeps.bind (fun w => ReadRelation.sink w []) (fun _ =>
      Op.Keeps.bind (keeps_getToWriter prim o .stream) fun _ => Op.Keeps.pure _) w
  | verify => exact hreturn (keeps_verifyActiveObjects prim w)
  | verifyWithWitness =>
    exact hreturn (keeps_verifyActiveObjectsWithWitness prim (keepsHeads_changes provider) w)
  | rotatePassphrase current replacement =>
    exact hreturn (changes_rotatePassphrase current replacement w)
  | fullCheckpoint => exact hreturn (keeps_fullCheckpoint w)
  | backupTo destination => exact hreturn (keeps_backupTo destination w)

/-- A step of a session makes the changes of its call, and a crash one lock more. -/
theorem sessionStep_changes (s : SessionState ω) (call : VaultCall) :
    Changes prim call s.world s.world (sessionStep prim provider s call).2.world := by
  have hrun : Changes prim call s.world s.world (if s.opened then
      SessionState.after true (call.run prim provider s.world) else (none, s)).2.world := by
    split
    · have h : Changes prim call s.world s.world (call.run prim provider s.world).state :=
        run_changes call s.world
      cases hout : call.run prim provider s.world with
      | ok a w => rw [hout] at h; exact h
      | failed e w => rw [hout] at h; exact h
      | crashed w => rw [hout] at h; exact h.lock
    · exact .refl
  cases call with
  | reopen =>
    have h : Changes prim .reopen s.world s.world (openVault prim s.world).state :=
      changes_openVault s.world
    unfold sessionStep
    cases hout : openVault prim s.world with
    | ok _ w => rw [hout] at h; exact h
    | failed e w => rw [hout] at h; exact h.lock
    | crashed w => rw [hout] at h; exact h.lock
  | drop => exact .single (.locked rfl)
  | elapse => exact .single (.quiet ⟨⟨rfl, rfl⟩, rfl⟩)
  | _ => exact hrun

/-- What a creation that returns has done: it has committed an envelope alone, and taken it and its Root
Key into memory. -/
theorem create_eq_ok {passphrase : Text} {u : Unit} (h : create prim passphrase w = .ok u w') :
    ∃ rootKey envelope x w₁, validatePassphrase passphrase = .ok () ∧
      envelope.Seals prim passphrase rootKey ∧ w.Quiet x ∧
      (x.committed { Database.empty with vaultMeta := some (.ofEnvelope envelope) }).Quiet w₁ ∧
      w' = { w₁ with vault := { envelope, rootKey := some rootKey } } := by
  obtain ⟨_, w1, hcheck, hrest1⟩ := Op.bind_eq_ok.mp h
  obtain ⟨vaultId, w2, hid, hrest2⟩ := Op.bind_eq_ok.mp hrest1
  obtain ⟨rootKey, w3, hkey, hrest3⟩ := Op.bind_eq_ok.mp hrest2
  obtain ⟨envelope, w4, hseal, hrest4⟩ := Op.bind_eq_ok.mp hrest3
  obtain ⟨_, w5, hcommit, hrest5⟩ := Op.bind_eq_ok.mp hrest4
  obtain ⟨_, w6, hfiles, hmodify⟩ := Op.bind_eq_ok.mp hrest5
  obtain ⟨hvalid, rfl⟩ := Op.ofExcept_eq_ok.mp hcheck
  obtain ⟨-, hseals⟩ := returns_sealRootKey _ _ _ _ _ _ _ hseal
  obtain ⟨x, db, hx, hbody, rfl⟩ := transaction_ok (R := World.Quiet) hcommit
  obtain ⟨_, -, hinsert⟩ := except_bind_eq_ok.mp hbody
  obtain rfl := Except.ok.inj hinsert
  have hquiet : w.Quiet x := IsTrans.trans _ _ _ ((keeps_randomBytes 16).of_ok hid)
    (IsTrans.trans _ _ _ ((keeps_randomBytes 32).of_ok hkey)
      (IsTrans.trans _ _ _ ((keeps_sealRootKey prim _ _ _ _).of_ok hseal) hx))
  cases hmodify
  exact ⟨rootKey, envelope, x, w6, hvalid, hseals, hquiet,
    keeps_enforceOwnerPrivateStateFiles.of_ok hfiles, rfl⟩

end

end Vlt1

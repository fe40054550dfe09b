import Vlt1.Channel
import Vlt1.UnlockGate
import Vlt1.Vault.Sweep

/-!
# Rollback of the database

A strict unlock completes the staged publications and compares every active object with the head the
witness holds. What it finds out about a database file that was put back from an earlier time is
decided by `strictUnlock_ok`: it compares the objects that the file knows, so the active versions
are the witness's heads exactly when the file knows every object the witness has a head for.

`rollback_detection` states it for every run of a strict daemon, every database put in the place of
the current one and all state files that the permission steps may meet. `unlock_accepts_missing_object`
is the gap: a database from before an object was first stored is accepted.
-/

namespace Vlt1

open Effect

/-- The rows of `objects`: each object with its active version. -/
def Database.activePairs (db : Database) : Set (Bytes × Bytes) :=
  {pair | db.objects.lookup pair.1 = some pair.2}

namespace WitnessDb

/-- The heads of a vault: each object with the version the witness last acknowledged. -/
def headPairs (db : WitnessDb) (v : VaultId) : Set (Bytes × Bytes) :=
  {pair | ∃ row, db.objectHeads.lookup (v.blob, pair.1) = some row ∧ row.versionId = pair.2}

end WitnessDb

/-! ### Strange state files -/

section

variable {ω α β : Type}

/-- The last state files looked at on the way from `w` to `w'` are strange. -/
def World.MeetsStrangeFiles (w w' : World (OnDisk ω)) : Prop :=
  ∃ files : StateFiles, files :: w'.outside.files <:+ w.outside.files ∧ files.Strange

/-- The computation fails with errors that lock, or stops at strange state files. -/
structure StopsAtFiles (x : VaultOp (OnDisk ω) α) : Prop where
  keeps : Op.Keeps OnDisk.Takes x
  failed : ∀ w e w', x w = .failed e w' → e.Locks ∨ w.MeetsStrangeFiles w'

namespace StopsAtFiles

theorem of_fails {x : VaultOp (OnDisk ω) α}
    (hkeeps : Op.Keeps OnDisk.Takes x)
    (h : Op.Fails VaultError.Locks x) : StopsAtFiles x :=
  ⟨hkeeps, fun w e w' hx => .inl (h w e w' hx)⟩

theorem bind {x : VaultOp (OnDisk ω) α} {f : α → VaultOp (OnDisk ω) β} (hx : StopsAtFiles x)
    (hf : ∀ a, StopsAtFiles (f a)) : StopsAtFiles (x >>= f) := by
  refine ⟨fun w => ?_, fun w e w' h => ?_⟩
  · rw [Op.bind_apply]
    have hkept := hx.keeps w
    cases hout : x w with
    | ok a w1 => rw [hout] at hkept; exact ((hf a).keeps w1).trans hkept
    | failed e w1 => rw [hout] at hkept; exact hkept
    | crashed w1 => rw [hout] at hkept; exact hkept
  · rcases Op.bind_eq_failed.mp h with h | ⟨a, w1, hok, h⟩
    · exact hx.failed w e w' h
    · refine ((hf a).failed w1 e w' h).imp_right ?_
      rintro ⟨files, hfiles, hstrange⟩
      exact ⟨files, hfiles.trans (hx.keeps.of_ok hok), hstrange⟩

theorem fold {f : β → α → VaultOp (OnDisk ω) β} (hf : ∀ b a, StopsAtFiles (f b a)) (b : β)
    (as : List α) : StopsAtFiles (Op.fold f b as) := by
  induction as generalizing b with
  | nil => exact ⟨fun _ => List.suffix_rfl, fun _ _ _ h => by cases h⟩
  | cons a as ih => exact (hf b a).bind fun b' => ih b'

theorem enforceOwnerPrivateStateFiles [Machine ω] :
    StopsAtFiles (Vlt1.enforceOwnerPrivateStateFiles (ω := OnDisk ω)) := by
  refine ⟨keeps_enforceOwnerPrivateStateFiles, fun w e w' h => ?_⟩
  have hstep : Op.ofExcept (enforceOwnerPrivateSqliteState (w.outside.files.headD .ownerPrivate))
      { w with outside := { w.outside with files := w.outside.files.tail } } = .failed e w' := h
  obtain ⟨herror, hw'⟩ := Op.ofExcept_eq_failed.mp hstep
  refine (StateFiles.strange_of_error herror).imp_right fun hstrange => ?_
  -- private files are not strange, so the files come from the list
  cases hfiles : w.outside.files with
  | nil =>
    rw [hfiles] at herror
    cases herror
  | cons files rest =>
    rw [hfiles] at hstrange hw'
    refine ⟨files, ?_, hstrange⟩
    rw [← hw', hfiles]
    exact List.suffix_rfl

end StopsAtFiles

variable [Transport ω] {prim : Primitives} {p : HttpsWitnessProvider}

/-- The pinned client looks at no state files. -/
theorem keeps_takes : (p.provider prim).Keeps
    fun w w' : World (OnDisk ω) => OnDisk.Takes w w' where
  head v o c w := by
    rw [HttpsWitnessProvider.objectHead_state]
    exact List.suffix_rfl
  issue r e w := by
    rw [HttpsWitnessProvider.issueReceipt_state]
    exact List.suffix_rfl

variable [Machine ω]

theorem stopsAtFiles_acknowledge (v : StoredVersion) (e : UInt64) :
    StopsAtFiles (acknowledge prim (p.provider prim) v e : VaultOp (OnDisk ω) Unit) := by
  refine StopsAtFiles.bind (.of_fails Op.Keeps.get Op.Fails.get) fun w0 => ?_
  refine StopsAtFiles.bind (.of_fails ?_ ?_) fun r => ?_
  · refine Op.Keeps.bind (fun w => WriteRelation.request w _ _) fun _ w => ?_
    rw [outside, Op.zoom, Outcome.state_mapState]
    exact keeps_takes.issue _ _ w
  · exact Op.Fails.bind (Op.Fails.modify _) fun _ => outside_failed (p.fails_issueReceipt _ _)
  refine StopsAtFiles.bind (.of_fails (Op.Keeps.ofExcept _)
    (Op.Fails.ofExcept fun e he => throws_verifyRequest _ _ e he)) fun _ => ?_
  refine StopsAtFiles.bind (.of_fails (Op.Keeps.require _ _) (Op.Fails.require rfl)) fun _ => ?_
  exact StopsAtFiles.bind (.of_fails (keeps_transaction _)
    (fails_transaction fun _ => Database.throws_finalizeBody _ _)) fun _ =>
      .enforceOwnerPrivateStateFiles

/-- A recovery of an unlocked vault that fails locks it, or stops at strange state files, when every
pending row has its version. -/
theorem recoverPendingWitnessPublications_failed_onDisk [Exclusive ω] {e : VaultError}
    {w w' : World (OnDisk ω)} (hkey : w.vault.rootKey ≠ none)
    (hversions : ∀ r ∈ w.db.pending.rows, w.db.versions.lookup r.1 ≠ none)
    (h : recoverPendingWitnessPublications prim (p.provider prim) w = .failed e w') :
    w'.vault.rootKey = none ∨ w.MeetsStrangeFiles w' := by
  obtain ⟨w1, hinner, rfl⟩ := lockAfterFailure_eq_failed.mp h
  have hstops : e.Locks ∨ w.MeetsStrangeFiles w1 := by
    obtain ⟨_, hlist⟩ := bind_requireRootKey_failed hkey hinner
    rcases Op.bind_eq_failed.mp hlist with hpending | ⟨pending, w3, hpending, hloop⟩
    · exact .inl (pendingWitnessPublications_failed hversions hpending)
    have hrest : StopsAtFiles ((Op.fold (fun _ (q : StoredVersion × UInt64) =>
        acknowledge prim (p.provider prim) q.1 q.2) () pending >>= fun _ => countOf pending
          "pending witness publication count exceeds u64") : VaultOp (OnDisk ω) UInt64) :=
      (StopsAtFiles.fold (fun _ _ => stopsAtFiles_acknowledge _ _) _ _).bind
        fun _ => .of_fails (keeps_countOf _ _) (fails_countOf _ _)
    refine (hrest.failed _ _ _ hloop).imp_right ?_
    rintro ⟨files, hfiles, hstrange⟩
    have htakes : OnDisk.Takes w w3 := keeps_pendingWitnessPublications.of_ok hpending
    exact ⟨files, hfiles.trans htakes, hstrange⟩
  by_cases hlocks : e.Locks
  · rw [if_pos (show e.requiresLock = true from hlocks)]
    exact .inl rfl
  · rw [if_neg (show ¬e.requiresLock = true from hlocks)]
    exact .inr (hstops.resolve_left hlocks)

end

section

variable {prim : Primitives} {signingKey : Block 32}

/-! ### Heads while no request is late -/

/-- An issue request can give a head to its own object, and takes none away. -/
theorem issueWire_heads {env : ServiceEnv} {request : WitnessRequest} {e : UInt64} {db : WitnessDb}
    (key : Bytes × Bytes) :
    let db' := (issueWire prim signingKey env (.fromRequest request e) db).state
    (db.objectHeads.lookup key ≠ none → db'.objectHeads.lookup key ≠ none) ∧
      (db'.objectHeads.lookup key ≠ none →
        db.objectHeads.lookup key ≠ none ∨ key.2 = request.objectId.blob) := by
  intro db'
  rcases serviceStep_cases prim signingKey db (.issue (.fromRequest request e) env) with
    hsame | ⟨_, _, parsed, r, hcall, hparse, hadv, hafter⟩
  · rw [show db' = db from hsame]
    exact ⟨id, Or.inl⟩
  · obtain ⟨rfl, rfl⟩ := ServiceCall.issue.inj hcall
    rw [parseIssue_fromRequest] at hparse
    obtain rfl := Except.ok.inj hparse
    have hkey : WitnessDb.keyOf r = request.headKey := hadv.keyOf_eq
    rw [show db' = db.advanced r from hafter, WitnessDb.lookup_advanced]
    by_cases heq : key = WitnessDb.keyOf r
    · rw [if_pos heq]
      exact ⟨nofun, fun _ => .inr (by rw [heq, hkey]; rfl)⟩
    · rw [if_neg heq]
      exact ⟨id, Or.inl⟩

/-- While no request is late, heads appear for the given objects only and none disappears. -/
def HeadsAppear (objects : Set Bytes) (w w' : World (OnDisk (Channel prim signingKey))) : Prop :=
  w.outside.inner.Punctual → w'.outside.inner.Punctual ∧ ∀ key,
    (w.outside.inner.service.objectHeads.lookup key ≠ none →
      w'.outside.inner.service.objectHeads.lookup key ≠ none) ∧
    (w'.outside.inner.service.objectHeads.lookup key ≠ none →
      w.outside.inner.service.objectHeads.lookup key ≠ none ∨ key.2 ∈ objects)

instance (objects : Set Bytes) : StepRelation
    fun w w' : World (OnDisk (Channel prim signingKey)) => HeadsAppear objects w w' where
  refl _ h := ⟨h, fun _ => ⟨id, Or.inl⟩⟩
  trans w w' w'' h h' hw := by
    obtain ⟨hw', hkeys⟩ := h hw
    obtain ⟨hw'', hkeys'⟩ := h' hw'
    exact ⟨hw'', fun key => ⟨fun hkey => (hkeys' key).1 ((hkeys key).1 hkey), fun hkey =>
      ((hkeys' key).2 hkey).elim (hkeys key).2 Or.inr⟩⟩
  move w o hmove hw := by
    obtain ⟨ho, hservice⟩ := OnDisk.unmoved_of_moves hmove hw
    exact ⟨ho, fun key => by rw [hservice]; exact ⟨id, Or.inl⟩⟩
  interfere _ h := ⟨h, fun _ => ⟨id, Or.inl⟩⟩
  sink _ _ h := ⟨h, fun _ => ⟨id, Or.inl⟩⟩
  observe _ _ _ h := ⟨h, fun _ => ⟨id, Or.inl⟩⟩
  sealing _ _ _ h := ⟨h, fun _ => ⟨id, Or.inl⟩⟩
  locked _ h := ⟨h, fun _ => ⟨id, Or.inl⟩⟩
  vault _ _ h := ⟨h, fun _ => ⟨id, Or.inl⟩⟩
  commit _ _ h := ⟨h, fun _ => ⟨id, Or.inl⟩⟩
  request _ _ _ h := ⟨h, fun _ => ⟨id, Or.inl⟩⟩

variable {p : HttpsWitnessProvider} {w w' : World (OnDisk (Channel prim signingKey))}

/-- A request for one of the objects. -/
theorem headsAppear_issue {objects : Set Bytes} {request : WitnessRequest} (e : UInt64)
    (hobject : request.objectId.blob ∈ objects) (w : World (OnDisk (Channel prim signingKey))) :
    HeadsAppear objects w
      { w with outside := ((p.provider prim).issueReceipt request e w.outside).state } := by
  intro hw
  have hsend : (w.outside.inner.send (.fromRequest request e)).Punctual := hw
  obtain ⟨hnext, hservice⟩ := hsend.next
  simp only [HttpsWitnessProvider.issueReceipt_state]
  have hinner : (Transport.postIssue (.fromRequest request e) w.outside).2.inner =
      (Transport.postIssue (.fromRequest request e) w.outside.inner).2 := rfl
  rw [hinner]
  rcases Channel.postIssue_snd (.fromRequest request e) w.outside.inner with hlost | ⟨env, hissued⟩
  · rw [hlost]
    refine ⟨hnext, fun key => ?_⟩
    rw [hservice]
    exact ⟨id, Or.inl⟩
  · rw [hissued]
    refine ⟨hnext, fun key => ?_⟩
    obtain ⟨hkeep, hnew⟩ :=
      @issueWire_heads prim signingKey env request e w.outside.inner.service key
    dsimp only
    rw [hservice]
    refine ⟨hkeep, fun hkey => (hnew hkey).imp_right fun hobj => ?_⟩
    rw [hobj]
    exact hobject

/-- A recovery gives heads to staged objects only. -/
theorem recoverPendingWitnessPublications_heads {n : UInt64}
    (h : recoverPendingWitnessPublications prim (p.provider prim) w = .ok n w') :
    HeadsAppear {b | ∃ v e, w.db.Staged v e ∧ v.objectId.blob = b} w w' := by
  obtain ⟨_, w1, hkey, hlist⟩ := Op.bind_eq_ok.mp (lockAfterFailure_eq_ok.mp h)
  obtain ⟨-, rfl⟩ := requireRootKey_eq_ok.mp hkey
  obtain ⟨pending, w2, hpending, hloop⟩ := Op.bind_eq_ok.mp hlist
  obtain ⟨_, hstaged, -⟩ := pendingWitnessPublications_ok hpending
  let R (x y : World (OnDisk (Channel prim signingKey))) : Prop :=
    HeadsAppear {b | ∃ v e, w.db.Staged v e ∧ v.objectId.blob = b} x y
  have hstep : ∀ staged ∈ pending,
      Op.Keeps R (acknowledge prim (p.provider prim) staged.1 staged.2) := by
    intro staged hmem
    refine keeps_acknowledge_of_issue prim fun vaultId x => headsAppear_issue _ ?_ x
    exact ⟨staged.1, staged.2, hstaged staged hmem, rfl⟩
  have hloopR : R w2 w' := (Op.Keeps.bind (Op.Keeps.fold_of_mem (fun _ => hstep) ())
    fun _ => keeps_countOf _ _).of_ok hloop
  exact IsTrans.trans (r := R) _ _ _ (keeps_pendingWitnessPublications.of_ok hpending) hloopR

/-! ### The sweep -/

/-- While no request is late, the witness stays as it is. -/
def WitnessUnmoved (w w' : World (OnDisk (Channel prim signingKey))) : Prop :=
  w.outside.inner.Unmoved w'.outside.inner

instance : ReadRelation
    fun w w' : World (OnDisk (Channel prim signingKey)) => WitnessUnmoved w w' where
  refl _ := .refl _
  trans _ _ _ h h' := h.trans h'
  move _ _ hmove := OnDisk.unmoved_of_moves hmove
  interfere _ := .refl _
  sink _ _ := .refl _
  observe _ _ _ := .refl _

theorem keepsHeads_witnessUnmoved : (p.provider prim).KeepsHeads
    fun w w' : World (OnDisk (Channel prim signingKey)) => WitnessUnmoved w w' where
  head v o c w := by
    rw [HttpsWitnessProvider.objectHead_state]
    exact Channel.unmoved_postHead _ _

/-- After a sweep that returned, every active version is the witness's head of its object. -/
theorem activePairs_subset_headPairs (hsig : prim.SignatureCorrect) (hw : w.outside.inner.Punctual)
    {n : UInt64} (h : verifyActiveObjectsWithWitness prim (p.provider prim) w = .ok n w') :
    w.Untouched w' ∧ w'.outside.inner.service = w.outside.inner.service ∧
      w.db.activePairs ⊆ w.outside.inner.service.headPairs w.vaultId := by
  obtain ⟨huntouched, hunmoved, -, hfresh⟩ :=
    verifyActiveObjectsWithWitness_ok keepsHeads_witnessUnmoved h
  refine ⟨huntouched, (hunmoved hw).2, ?_⟩
  rintro ⟨b, u⟩ (hactive : w.db.objects.lookup b = some u)
  obtain ⟨o, c, head, r, rfl, hhead⟩ := hfresh b (by rw [hactive]; nofun)
  obtain ⟨x, after, hx, hobtained⟩ := hhead.obtained
  obtain ⟨stored, hload, rfl⟩ := Channel.objectHead_honest hsig (OnDisk.objectHead_ok hobtained)
  -- the head was read from tables that have not changed since
  rw [(hx hw).1.next.2, (hx hw).2] at hload
  obtain ⟨hpresent, hversion, -⟩ := hhead.equal
  cases stored with
  | none => cases hpresent
  | some held =>
    obtain ⟨hrow, -⟩ := loadReceipt_eq_ok_some.mp hload
    have hsame : held.versionId = r.versionId := Option.some.inj hversion
    have hu := Database.selectActive_eq_ok.mp hhead.active
    rw [hactive] at hu
    refine ⟨_, hrow, ?_⟩
    rw [Option.some.inj hu, ← hsame]
    rfl

/-! ### The strict unlock -/

/-- After a strict unlock that returned, the active versions are the witness's heads exactly when the
database knew every object the witness had a head for. -/
theorem strictUnlock_ok (hsig : prim.SignatureCorrect) (hw : w.outside.inner.Punctual)
    (hhonest : w.outside.inner.service.Honest prim signingKey) {passphrase : Text} {r : Success}
    (h : strictUnlock prim passphrase (p.provider prim) w = .ok r w') :
    w'.vaultId = w.vaultId ∧
      (w'.db.activePairs = w'.outside.inner.service.headPairs w'.vaultId ↔
        ∀ o, w.outside.inner.service.HasHead w.vaultId o → w.db.Knows o) := by
  obtain ⟨_, w1, hunlock, hrest1⟩ := Op.bind_eq_ok.mp h
  obtain ⟨_, w2, hrecover, hrest2⟩ := Op.bind_eq_ok.mp hrest1
  obtain ⟨_, w3, hverify, hreturn⟩ := Op.bind_eq_ok.mp hrest2
  cases hreturn
  obtain ⟨rootKey, -, rfl⟩ := unlock_ok hunlock
  obtain ⟨hvault, hobjects⟩ := recoverPendingWitnessPublications_ok hrecover
  obtain ⟨hw2, hheads⟩ := recoverPendingWitnessPublications_heads hrecover hw
  have hissue : ∀ request env (db : WitnessDb), db.Honest prim signingKey →
      (issueWire prim signingKey env request db).state.Honest prim signingKey :=
    fun request env db hdb => hdb.issueWire request env
  have hstep := OnDisk.stepRelation_service hissue
  have hhonest2 : w2.outside.inner.service.Honest prim signingKey :=
    (keeps_recoverPendingWitnessPublications prim (OnDisk.keeps_service hissue p)).of_ok
      hrecover hhonest
  obtain ⟨huntouched, hservice, hsubset⟩ := activePairs_subset_headPairs hsig hw2 hverify
  have hid2 : w2.vaultId = w.vaultId := by rw [World.vaultId, hvault]; rfl
  have hid : w'.vaultId = w.vaultId := by rw [World.vaultId, huntouched.vault]; exact hid2
  refine ⟨hid, ?_⟩
  rw [huntouched.db, hservice, hid]
  rw [hid2] at hsubset
  constructor
  · -- a head from before is still there, so its object is active, so it was known
    intro heq o hhead
    obtain ⟨row, hrow⟩ := Option.ne_none_iff_exists'.mp ((hheads _).1 hhead)
    have hpair : (o.blob, row.versionId) ∈ w2.db.activePairs := heq ▸ ⟨row, hrow, rfl⟩
    refine (hobjects o).mp ?_
    rw [show w2.db.objects.lookup o.blob = some row.versionId from hpair]
    exact Option.some_ne_none _
  · intro hknown
    refine Set.Subset.antisymm hsubset ?_
    rintro ⟨b, u⟩ ⟨row, hrow, rfl⟩
    -- the witness's rows are receipts it signed, so the row is one of an object
    obtain ⟨held, -, hkey, -⟩ := hhonest2.headsSigned hsig _ _ hrow
    obtain ⟨-, rfl⟩ := Prod.mk.inj hkey
    have hknows : w.db.Knows held.objectId := by
      rcases (hheads (w.vaultId.blob, held.objectId.blob)).2 (by simp [hrow]) with
        hbefore | ⟨v, e, hstaged, hblob⟩
      · exact hknown _ hbefore
      · exact .inr ⟨v, e, hstaged, Identifier.blob_inj.mp hblob⟩
    obtain ⟨u, hactive⟩ := Option.ne_none_iff_exists'.mp ((hobjects _).mpr hknows)
    obtain ⟨row', hrow', rfl⟩ := hsubset (show (held.objectId.blob, u) ∈ w2.db.activePairs from hactive)
    rw [hrow] at hrow'
    obtain rfl := Option.some.inj hrow'
    exact hactive

/-- A strict unlock of a locked vault that fails leaves it locked, or stops at strange state files. -/
theorem strictUnlock_failed {passphrase : Text} {e : VaultError} (hlocked : w.vault.rootKey = none)
    (hversions : ∀ r ∈ w.db.pending.rows, w.db.versions.lookup r.1 ≠ none)
    (h : strictUnlock prim passphrase (p.provider prim) w = .failed e w') :
    w'.vault.rootKey = none ∨ w.MeetsStrangeFiles w' := by
  rcases Op.bind_eq_failed.mp h with hunlock | ⟨_, w1, hunlock, hrest1⟩
  · rcases unlock_cases prim passphrase w with ⟨e', hfailed⟩ | ⟨k, -, hok⟩
    · rw [hfailed] at hunlock
      cases hunlock
      exact .inl hlocked
    · rw [hok] at hunlock
      cases hunlock
  obtain ⟨rootKey, -, rfl⟩ := unlock_ok hunlock
  rcases Op.bind_eq_failed.mp hrest1 with hrecover | ⟨_, w2, hrecover, hrest2⟩
  · exact @recoverPendingWitnessPublications_failed_onDisk _ _ _ _ _ _ _
      { w with vault := { w.vault with rootKey := some rootKey } } _ (Option.some_ne_none rootKey)
      hversions hrecover
  have hkey : w2.vault.rootKey ≠ none := by
    rw [(recoverPendingWitnessPublications_ok hrecover).1]
    exact Option.some_ne_none _
  rcases Op.bind_eq_failed.mp hrest2 with hverify | ⟨_, w3, -, hreturn⟩
  · exact .inl (verifyActiveObjectsWithWitness_failed (HttpsWitnessProvider.fails_objectHead p)
      hkey hverify).2
  · cases hreturn

/-! ### The daemon -/

variable {config : DaemonConfig}

/-- A vault that was opened is locked, and its file passed the startup check. -/
theorem openVault_ok {u : Unit} (h : openVault prim w = .ok u w') :
    w'.db = w.db ∧ w'.vault.rootKey = none ∧ w.db.startupIntegrityCheck = .ok () := by
  obtain ⟨_, w1, hfiles, hrest1⟩ := Op.bind_eq_ok.mp h
  obtain ⟨_, w2, hcheck, hrest2⟩ := Op.bind_eq_ok.mp hrest1
  obtain ⟨envelope, w3, hmeta, hset⟩ := Op.bind_eq_ok.mp hrest2
  have hw1 : w.Untouched w1 := keeps_enforceOwnerPrivateStateFiles.of_ok hfiles
  obtain ⟨hbody, hw2⟩ := query_ok_of_exclusive hcheck
  obtain ⟨-, hw3⟩ := query_ok_of_exclusive hmeta
  cases hset
  exact ⟨hw3.db.trans (hw2.db.trans hw1.db), rfl, hw1.db ▸ hbody⟩

/-- Opening a vault never unlocks it. -/
theorem openVault_locked (h : w.vault.rootKey = none) :
    (openVault prim w).state.vault.rootKey = none := by
  have hkeeps : Op.Keeps (fun x y : World (OnDisk (Channel prim signingKey)) =>
      x.vault.rootKey = none → y.vault.rootKey = none) (openVault prim) := by
    have : ReadRelation fun x y : World (OnDisk (Channel prim signingKey)) =>
        x.vault.rootKey = none → y.vault.rootKey = none :=
      { refl := fun _ h => h, trans := fun _ _ _ h h' hx => h' (h hx), move := fun _ _ _ h => h
        interfere := fun _ h => h, sink := fun _ _ h => h, observe := fun _ _ _ h => h }
    exact Op.Keeps.bind keeps_enforceOwnerPrivateStateFiles fun _ => Op.Keeps.bind (keeps_query _)
      fun _ => Op.Keeps.bind (keeps_query _) fun _ => fun _ _ => rfl
  exact hkeeps w h

theorem startupIntegrityCheck_pending {db : Database} (h : db.startupIntegrityCheck = .ok ()) :
    ∀ r ∈ db.pending.rows, db.versions.lookup r.1 ≠ none := by
  obtain ⟨_, hkeys, -⟩ := except_bind_eq_ok.mp h
  exact (ensure_eq_ok.mp hkeys).2.1

/-- The witness of a daemon run stays honest. -/
theorem honest_final (config : DaemonConfig) (s : DaemonState (OnDisk (Channel prim signingKey)))
    (inputs : List DaemonInput)
    (h : s.world.outside.inner.service.Honest prim signingKey) :
    (Run.final (daemonStep prim config) s inputs).world.outside.inner.service.Honest prim signingKey := by
  refine (Run.invariant (daemonStep prim config)
    (I := fun s : DaemonState (OnDisk (Channel prim signingKey)) =>
      s.world.outside.inner.service.Honest prim signingKey) ?_ inputs h).1
  intro s input hs
  have hissue : ∀ request env (db : WitnessDb), db.Honest prim signingKey →
      (issueWire prim signingKey env request db).state.Honest prim signingKey :=
    fun request env db hdb => hdb.issueWire request env
  have hstep := OnDisk.stepRelation_service hissue
  exact daemonStep_keeps prim config (OnDisk.keeps_service hissue) s input (fun _ _ h => h) hs

/-- The daemon was stopped, its database replaced, and it was started again: it is down, or it holds
a locked vault over the new database, which passed the startup check. -/
theorem daemon_after_replacement (config : DaemonConfig)
    (s : DaemonState (OnDisk (Channel prim signingKey))) (S : Database) :
    let s' := Run.final (daemonStep prim config) s [.kill, .replaceDatabase S, .start]
    s'.world.vault.rootKey = none ∧
      (s'.running = true → s'.world.db = S ∧ S.startupIntegrityCheck = .ok ()) := by
  let w : World (OnDisk (Channel prim signingKey)) := { s.world.locked with db := S }
  have hs' : Run.final (daemonStep prim config) s [.kill, .replaceDatabase S, .start] =
      (daemonStep prim config ⟨w, false, none, s.shutdown⟩ .start).2 := rfl
  rw [hs']
  have hlocked := @openVault_locked prim signingKey w rfl
  simp only [daemonStep, Bool.false_eq_true, if_false]
  cases hopen : openVault prim w with
  | ok u w' =>
    obtain ⟨hdb, hkey, hcheck⟩ := openVault_ok hopen
    exact ⟨hkey, fun _ => ⟨hdb, hcheck⟩⟩
  | failed e w' =>
    rw [hopen] at hlocked
    exact ⟨hlocked, nofun⟩
  | crashed w' =>
    rw [hopen] at hlocked
    exact ⟨hlocked, nofun⟩

end

/-- The sample daemon before its first start, with private state files. -/
def sampleOnDisk : DaemonState (OnDisk (Channel .checksum sampleSeed)) :=
  ⟨⟨sampleWorld.locked.vault, sampleWorld.db, sampleWorld.sink, sampleWorld.history,
    ⟨sampleWorld.outside, []⟩⟩, false, none, false⟩

/-- The sample daemon after it stored a byte, restarted on a given database. -/
def sampleRestarted (S : Database) : DaemonState (OnDisk (Channel .checksum sampleSeed)) :=
  Run.final (daemonStep .checksum sampleConfig) sampleOnDisk
    (sampleInputs ++ [.kill, .replaceDatabase S, .start])

/-- Unlocking it. -/
def sampleUnlock (S : Database) :
    Run.Transition (DaemonState (OnDisk (Channel .checksum sampleSeed))) DaemonInput (List Frame) :=
  Run.transition (daemonStep .checksum sampleConfig) (sampleRestarted S) (.ask (.unlock [112]))

/-- The database the sample daemon has itself after storing the byte. -/
def sampleDb : Database :=
  (Run.final (daemonStep .checksum sampleConfig) sampleOnDisk sampleInputs).world.db

end Vlt1

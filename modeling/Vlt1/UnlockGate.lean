import Vlt1.Changes
import Vlt1.Vault.Reading

/-!
# The strict unlock as a gate

A strict daemon unlocks the vault first and then completes the staged publications and compares every
active object with the witness. If one of these fails, the vault has to be locked again, which is
left to `lockAfterFailure` and so depends on the kind of the error. Two errors slip through: a pending
row without its version is reported as `notFound`, and a state file that is not a regular file, found
by the permission step after a version was completed, as `invalidInput`.

`strict_unlock_gated_iff` says exactly for which tables, passphrases and state files an unlock request
that is answered with an error can leave the vault unlocked, over all behaviours of the witness, of
the storage and of the random generator. No other request unlocks a vault (`unlocked_by_request`).
-/

namespace Vlt1

open Effect

/-! ### What slips through -/

/-- The permission step meets a file that is not a regular file before anything else is wrong. -/
def StateFiles.Strange (files : StateFiles) : Prop :=
  files.main.status = .notRegular ∨ enforceOwnerPrivateFile files.main = .ok () ∧
    (files.wal.status = .notRegular ∨ enforceOwnerPrivateOptionalFile files.wal = .ok () ∧
      files.shm.status = .notRegular)

/-- A receipt that the client and the tables accept for a staged version. -/
structure WitnessReceipt.Completes (prim : Primitives) (p : HttpsWitnessProvider)
    (vaultId : VaultId) (db : Database) (v : StoredVersion) (e : UInt64) (r : WitnessReceipt) :
    Prop where
  trusted : p.Trusts r.publicKey
  acknowledges : r.Acknowledges prim vaultId v
  newer : e < r.witnessEpoch
  stored : ∃ db', db.finalizeBody v r = .ok db'

/-- All pending rows can be read, and the first of them can be completed. -/
def Database.Completable (prim : Primitives) (p : HttpsWitnessProvider) (vaultId : VaultId)
    (db : Database) : Prop :=
  (∀ row ∈ db.selectPending, ∃ v e, db.Staged v e ∧ row = (v.versionId.blob, (e.toNat : ℤ))) ∧
    ∃ (v : StoredVersion) (e : UInt64) (r : WitnessReceipt),
      db.selectPending.head? = some (v.versionId.blob, (e.toNat : ℤ)) ∧ db.Staged v e ∧
        r.Completes prim p vaultId db v e

/-- The passphrase opens the envelope in memory. -/
def Vault.OpensWith (prim : Primitives) (v : Vault) (passphrase : Text) : Prop :=
  validatePassphrase passphrase = .ok () ∧
    ∃ rootKey, openRootKey prim passphrase v.envelope = .ok rootKey

/-- With these tables, and state files of this kind, a recovery can stop with an error that does not
lock. -/
def Database.SlipsThrough (prim : Primitives) (p : HttpsWitnessProvider) (vaultId : VaultId)
    (found : Set StateFiles) (db : Database) : Prop :=
  db.Dangles ∨ db.Completable prim p vaultId ∧ ∃ files ∈ found, files.Strange

theorem enforceOwnerPrivateFile_error {f : StateFile} {e : VaultError} :
    enforceOwnerPrivateFile f = .error e → e.Locks ∨ f.status = .notRegular := by
  unfold enforceOwnerPrivateFile
  split
  · exact fun h => .inl (Except.error.inj h ▸ rfl)
  · exact fun h => .inl (Except.error.inj h ▸ rfl)
  · rename_i hstatus
    exact fun _ => .inr hstatus
  · refine fun h => .inl ?_
    split at h
    · split at h
      · cases h
      · exact Except.error.inj h ▸ rfl
    · cases h

theorem enforceOwnerPrivateOptionalFile_error {f : StateFile} {e : VaultError} :
    enforceOwnerPrivateOptionalFile f = .error e → e.Locks ∨ f.status = .notRegular := by
  unfold enforceOwnerPrivateOptionalFile
  split
  · nofun
  · exact fun h => .inl (Except.error.inj h ▸ rfl)
  · exact enforceOwnerPrivateFile_error

/-- The permission step reports an error that does not lock only about strange files. -/
theorem StateFiles.strange_of_error {files : StateFiles} {e : VaultError}
    (h : enforceOwnerPrivateSqliteState files = .error e) : e.Locks ∨ files.Strange := by
  unfold enforceOwnerPrivateSqliteState at h
  cases hmain : enforceOwnerPrivateFile files.main with
  | error e' =>
    rw [hmain] at h
    cases h
    exact (enforceOwnerPrivateFile_error hmain).imp_right .inl
  | ok _ =>
    rw [hmain] at h
    cases hwal : enforceOwnerPrivateOptionalFile files.wal with
    | error e' =>
      have he : e' = e := by
        rw [hwal] at h
        cases h
        rfl
      subst he
      exact (enforceOwnerPrivateOptionalFile_error hwal).imp_right fun hstatus =>
        .inr ⟨hmain, .inl hstatus⟩
    | ok _ =>
      rw [hwal] at h
      exact (enforceOwnerPrivateOptionalFile_error h).imp_right fun hstatus =>
        .inr ⟨hmain, .inr ⟨hwal, hstatus⟩⟩

theorem StateFiles.Strange.error {files : StateFiles} (h : files.Strange) :
    enforceOwnerPrivateSqliteState files = .error (.invalidInput "VLT/1 state file type") := by
  have hfile : ∀ {f : StateFile}, f.status = .notRegular →
      enforceOwnerPrivateFile f = .error (.invalidInput "VLT/1 state file type") := by
    intro f hf
    rw [enforceOwnerPrivateFile, hf]
  have hoptional : ∀ {f : StateFile}, f.status = .notRegular →
      enforceOwnerPrivateOptionalFile f = .error (.invalidInput "VLT/1 state file type") := by
    intro f hf
    rw [enforceOwnerPrivateOptionalFile, hf]
    exact hfile hf
  unfold enforceOwnerPrivateSqliteState
  rcases h with hmain | ⟨hmain, hwal | ⟨hwal, hshm⟩⟩
  · rw [hfile hmain]
    rfl
  · rw [hmain, hoptional hwal]
    rfl
  · rw [hmain, hwal, hoptional hshm]
    rfl

/-! ### A recovery that slips through -/

section

variable {ω : Type} [Machine ω] {prim : Primitives} {p : HttpsWitnessProvider}
  {found : Set StateFiles} {w w' : World ω}

theorem fails_enforceOwnerPrivateStateFiles (hfiles : ∀ o : ω, (Machine.files o).1 ∈ found) :
    Op.Fails (fun e => e.Locks ∨ ∃ files ∈ found, files.Strange)
      (enforceOwnerPrivateStateFiles (ω := ω)) := by
  intro w e w' h
  obtain ⟨herror, -⟩ := Op.ofExcept_eq_failed.mp h
  exact (StateFiles.strange_of_error herror).imp_right fun hstrange =>
    ⟨_, hfiles w.outside, hstrange⟩

variable [Exclusive ω] [Transport ω]

/-- An acknowledgement that returned, or stopped with an error that does not lock, was given a
receipt that completes the version. -/
theorem triple_acknowledge_completes (v : StoredVersion) (e : UInt64) :
    Op.Triple (· = w) (acknowledge prim (p.provider prim) v e)
      (fun _ _ => ∃ r : WitnessReceipt, r.Completes prim p w.vaultId w.db v e)
      fun stop _ => ∀ error, stop = some error →
        error.Locks ∨ ∃ r : WitnessReceipt, r.Completes prim p w.vaultId w.db v e := by
  let request := WitnessRequest.new prim w.vaultId v.objectId v.versionId v.manifest
  have hlocks : ∀ {error : VaultError}, error.Locks → ∀ error', some error = some error' →
      error'.Locks ∨ ∃ r : WitnessReceipt, r.Completes prim p w.vaultId w.db v e :=
    fun h _ heq => .inl (Option.some.inj heq ▸ h)
  refine Op.Triple.bind_get fun w0 hw0 => ?_
  subst hw0
  refine Op.Triple.bind (fun r x => (p.Trusts r.publicKey ∧ e < r.witnessEpoch) ∧ w0.Quiet x) ?_
    fun r => Op.Triple.of_imp fun hr => ?_
  · -- the client checks the key and the epoch
    rintro x rfl
    have hquiet := keeps_issue (p.provider prim) request e x
    have hfails : Op.Fails VaultError.Locks ((p.provider prim).issue request e : VaultOp ω _) :=
      Op.Fails.bind (Op.Fails.modify _) fun _ => outside_failed (p.fails_issueReceipt request e)
    cases hout : (p.provider prim).issue request e x with
    | ok r y =>
      rw [hout] at hquiet
      obtain ⟨_, x1, -, hissue⟩ := Op.bind_eq_ok.mp hout
      obtain ⟨o, hreceipt, -⟩ := outside_eq_ok.mp hissue
      obtain ⟨htrusted, -, hnewer⟩ := HttpsWitnessProvider.issueReceipt_ok hreceipt
      exact ⟨⟨htrusted, hnewer⟩, hquiet⟩
    | failed error y => exact hlocks (hfails _ _ _ hout)
    | crashed y => nofun
  refine Op.Triple.bind_ofExcept (fun _ hverify => ?_) fun _ error herror _ =>
    hlocks (throws_verifyRequest _ _ _ herror)
  refine Op.Triple.bind_require (fun _ => ?_) fun _ _ _ => hlocks rfl
  refine Op.Triple.bind (fun _ _ => ∃ r : WitnessReceipt, r.Completes prim p w0.vaultId w0.db v e) ?_
    fun _ x hx => ?_
  · intro x hx
    cases hout : transaction (fun db => db.finalizeBody v r) x with
    | ok _ y =>
      obtain ⟨x', db, hx', hbody, -⟩ := transaction_ok (R := World.Quiet) hout
      rw [hx'.db, hx.db] at hbody
      exact ⟨r, hr.1, ⟨hverify⟩, hr.2, db, hbody⟩
    | failed error y =>
      exact hlocks (fails_transaction (fun _ => Database.throws_finalizeBody _ _) _ _ _ hout)
    | crashed y => nofun
  · -- nothing that follows takes the receipt back
    cases enforceOwnerPrivateStateFiles x with
    | ok _ y => exact hx
    | failed error y => exact fun _ _ => .inr hx
    | crashed y => exact fun _ _ => .inr hx

/-- A recovery of an unlocked vault that stops with an error that does not lock has slipped
through. -/
theorem slipsThrough_of_recover (hfiles : ∀ o : ω, (Machine.files o).1 ∈ found)
    (hkey : w.vault.rootKey ≠ none) {e : VaultError} (he : ¬e.Locks)
    (h : recoverPendingWitnessPublications prim (p.provider prim) w = .failed e w') :
    w.db.SlipsThrough prim p w.vaultId found := by
  obtain ⟨w1, hinner, -⟩ := lockAfterFailure_eq_failed.mp h
  obtain ⟨_, hlist⟩ := bind_requireRootKey_failed hkey hinner
  rcases Op.bind_eq_failed.mp hlist with hpending | ⟨pending, w3, hpending, hloop⟩
  · exact .inl (((triple_pendingWitnessPublications w).failed_of rfl hpending e rfl).resolve_left he)
  obtain ⟨hquiet, hstaged, hrows⟩ := pendingWitnessPublications_ok hpending
  have hstops : Op.Fails (fun e => e.Locks ∨ ∃ files ∈ found, files.Strange)
      (Op.fold (fun _ (q : StoredVersion × UInt64) => acknowledge prim (p.provider prim) q.1 q.2) ()
        pending : VaultOp ω Unit) :=
    Op.Fails.fold (fun _ _ => fails_acknowledge (fun _ => .inl) p.fails_issueReceipt
      (fails_enforceOwnerPrivateStateFiles hfiles) _ _) _ _
  rcases Op.bind_eq_failed.mp hloop with hfold | ⟨_, w4, -, hcount⟩
  · refine .inr ⟨⟨fun row hrow => ?_, ?_⟩, (hstops _ _ _ hfold).resolve_left he⟩
    · rw [← hrows] at hrow
      obtain ⟨q, hq, rfl⟩ := List.mem_map.mp hrow
      exact ⟨q.1, q.2, hstaged q hq, rfl⟩
    · -- the first version was completed, whichever one it stopped at
      cases pending with
      | nil => cases hfold
      | cons q pending =>
        refine ⟨q.1, q.2, ?_⟩
        have hcompletes : ∃ r : WitnessReceipt, r.Completes prim p w3.vaultId w3.db q.1 q.2 := by
          rcases Op.bind_eq_failed.mp hfold with hfirst | ⟨_, w4, hfirst, -⟩
          · exact ((triple_acknowledge_completes q.1 q.2).failed_of rfl hfirst e rfl).resolve_left he
          · exact (triple_acknowledge_completes q.1 q.2).ok_of rfl hfirst
        obtain ⟨r, hr⟩ := hcompletes
        rw [hquiet.db, World.vaultId, hquiet.vault] at hr
        refine ⟨r, ?_, hstaged q List.mem_cons_self, hr⟩
        rw [← hrows]
        rfl
  · exact absurd (fails_countOf _ _ _ _ _ hcount) he

/-- A strict unlock of a locked vault that fails and leaves it unlocked has slipped through. -/
theorem slipsThrough_of_strictUnlock (hfiles : ∀ o : ω, (Machine.files o).1 ∈ found)
    (hlocked : w.vault.rootKey = none) {passphrase : Text} {e : VaultError}
    (h : strictUnlock prim passphrase (p.provider prim) w = .failed e w')
    (hopen : w'.vault.rootKey ≠ none) :
    w.vault.OpensWith prim passphrase ∧ w.db.SlipsThrough prim p w.vaultId found := by
  rcases Op.bind_eq_failed.mp h with hunlock | ⟨_, w1, hunlock, hrest1⟩
  · rcases unlock_cases prim passphrase w with ⟨e', hfailed⟩ | ⟨k, -, hok⟩
    · rw [hfailed] at hunlock
      cases hunlock
      exact absurd hlocked hopen
    · rw [hok] at hunlock
      cases hunlock
  obtain ⟨_, w0, hvalid, -⟩ := Op.bind_eq_ok.mp hunlock
  obtain ⟨rootKey, hopens, rfl⟩ := unlock_ok hunlock
  refine ⟨⟨(Op.ofExcept_eq_ok.mp hvalid).1, rootKey, hopens⟩, ?_⟩
  rcases Op.bind_eq_failed.mp hrest1 with hrecover | ⟨_, w2, hrecover, hrest2⟩
  · -- an error that locks would have locked the vault
    let w1 : World ω := { w with vault := { w.vault with rootKey := some rootKey } }
    have hkey : w1.vault.rootKey ≠ none := Option.some_ne_none _
    refine show w1.db.SlipsThrough prim p w1.vaultId found from
      slipsThrough_of_recover hfiles hkey (fun hlocks => ?_) hrecover
    obtain ⟨w3, -, rfl⟩ := lockAfterFailure_eq_failed.mp hrecover
    rw [if_pos (show e.requiresLock = true from hlocks)] at hopen
    exact hopen rfl
  have hkey : w2.vault.rootKey ≠ none := by
    rw [(recoverPendingWitnessPublications_ok hrecover).1]
    exact Option.some_ne_none _
  rcases Op.bind_eq_failed.mp hrest2 with hverify | ⟨_, w3, -, hreturn⟩
  · exact absurd (verifyActiveObjectsWithWitness_failed p.fails_objectHead hkey hverify).2 hopen
  · cases hreturn

end

/-! ### Surroundings that let it through -/

section

variable {ω : Type} [Machine ω] [Exclusive ω] {v : Vault} {db : Database} {sink : Bytes}

omit [Exclusive ω] in
/-- How a pending row with an identifier and an epoch is read. -/
theorem pendingRow_eq {row : Bytes × ℤ} {u : VersionId} {e : UInt64}
    (he : e.toNat < sqlIntegerBound) (hrow : row = (u.blob, (e.toNat : ℤ)))
    (pending : List (StoredVersion × UInt64)) :
    (do storageFault
        let expectedEpoch ← Op.ofExcept (sqlToUInt64 row.2)
        let versionId ← Op.ofExcept (Identifier.fromSlice row.1)
        let version ← query fun db => db.selectVersion versionId
        return pending ++ [(version, expectedEpoch)] : VaultOp ω _) = do
      storageFault
      let version ← query fun db => db.selectVersion u
      return pending ++ [(version, e)] := by
  have hepoch : sqlToUInt64 (e.toNat : ℤ) = .ok e := sqlToUInt64_eq_ok.mpr ⟨he, rfl⟩
  simp only [hrow, hepoch, Identifier.fromSlice_blob, Op.ofExcept_ok, Op.pure_bind]

/-- A pending row that can be read. -/
theorem total_pendingRow {row : Bytes × ℤ} {version : StoredVersion} {e : UInt64}
    (h : db.Staged version e) (hrow : row = (version.versionId.blob, (e.toNat : ℤ)))
    (pending : List (StoredVersion × UInt64)) :
    Op.Total (World.Shows (ω := ω) v db sink) (do
        storageFault
        let expectedEpoch ← Op.ofExcept (sqlToUInt64 row.2)
        let versionId ← Op.ofExcept (Identifier.fromSlice row.1)
        let version ← query fun db => db.selectVersion versionId
        return pending ++ [(version, expectedEpoch)])
      fun _ => World.Shows v db sink := by
  rw [pendingRow_eq (Database.selectStaged_eq_ok.mp h.pending).1 hrow]
  exact Op.Triple.bind _ total_storageFault fun _ =>
    Op.Triple.bind _ (total_query h.version) fun _ => Op.Triple.pure fun _ hw => hw.2

/-- A list that ends at a row whose version is not there. -/
theorem triple_pendingWitnessPublications_notFound (h : db.Dangles) :
    Op.Triple (World.Shows (ω := ω) v db sink) pendingWitnessPublications (fun _ _ => False)
      fun stop w => stop = some .notFound ∧ w.vault = v := by
  obtain ⟨done, rest, u, e, hrows, he, hdone, hnone⟩ := h
  -- the rows still to come begin with readable ones up to that row
  let inv (_ left : List (Bytes × ℤ)) (_ : List (StoredVersion × UInt64)) (w : World ω) : Prop :=
    (∃ before, left = before ++ (u.blob, (e.toNat : ℤ)) :: rest ∧ ∀ row ∈ before,
      ∃ version e, db.Staged version e ∧ row = (version.versionId.blob, (e.toNat : ℤ))) ∧
      w.Shows v db sink
  have hselect : db.selectVersion u = .error .notFound := by
    rw [Database.selectVersion, hnone]
  have hlist : Op.Total (World.Shows (ω := ω) v db sink) (query fun db => .ok db.selectPending)
      fun rows w => rows = db.selectPending ∧ w.Shows v db sink := total_query rfl
  refine Op.Triple.bind _ (hlist.triple _) fun rows => ?_
  refine Op.Triple.of_imp fun heq => ?_
  subst heq
  refine (Op.Triple.fold (I := inv) ?_ [] db.selectPending []).conseq
    (fun w hw => ⟨⟨done, hrows, hdone⟩, hw⟩) ?_ fun _ _ h => h
  · intro _ row left pending
    refine Op.Triple.of_imp fun hleft => ?_
    obtain ⟨before, heq, hbefore⟩ := hleft
    cases before with
    | nil =>
      obtain ⟨hrow, rfl⟩ := List.cons.inj heq
      rw [pendingRow_eq he hrow]
      refine Op.Triple.bind (fun _ => World.Shows v db sink) (total_storageFault.triple _) fun _ => ?_
      refine Op.Triple.bind (fun _ _ => False) ((triple_query _).conseq (fun _ h => h) ?_ ?_)
        fun _ _ h => h.elim
      · rintro stored w ⟨hstored, -⟩
        cases hstored.symm.trans hselect
      · rintro stop w ⟨error, rfl, herror, hw⟩
        exact ⟨congrArg some (Except.error.inj (herror.symm.trans hselect)), hw.vault⟩
    | cons row' before =>
      obtain ⟨rfl, rfl⟩ := List.cons.inj heq
      obtain ⟨version, e', hstaged, hrow⟩ := hbefore _ List.mem_cons_self
      refine ((total_pendingRow hstaged hrow pending).triple _).mono_post fun _ x hx => ?_
      exact ⟨⟨before, rfl, fun row hrow => hbefore row (List.mem_cons_of_mem _ hrow)⟩, hx⟩
  · rintro _ w ⟨⟨before, hnil, -⟩, -⟩
    cases before <;> cases hnil

/-- A list of rows that can all be read. -/
theorem total_pendingWitnessPublications (h : ∀ row ∈ db.selectPending,
    ∃ version e, db.Staged version e ∧ row = (version.versionId.blob, (e.toNat : ℤ))) :
    Op.Total (World.Shows (ω := ω) v db sink) pendingWitnessPublications
      fun _ => World.Shows v db sink := by
  let inv (_ left : List (Bytes × ℤ)) (_ : List (StoredVersion × UInt64)) (w : World ω) : Prop :=
    (∀ row ∈ left, row ∈ db.selectPending) ∧ w.Shows v db sink
  refine Op.Triple.bind _ (total_query rfl) fun rows => ?_
  refine Op.Triple.of_imp fun heq => ?_
  subst heq
  refine (Op.Triple.fold (I := inv) ?_ [] db.selectPending []).conseq
    (fun w hw => ⟨fun _ hrow => hrow, hw⟩) (fun _ _ h => h.2) fun _ _ h => h
  intro _ row left pending
  refine Op.Triple.of_imp fun hleft => ?_
  obtain ⟨version, e, hstaged, hrow⟩ := h row (hleft row List.mem_cons_self)
  exact (total_pendingRow hstaged hrow pending).mono_post fun _ x hx =>
    ⟨fun row hrow => hleft row (List.mem_cons_of_mem _ hrow), hx⟩

end

/-- Surroundings in which everything works, with the given state files, and a witness that answers
every request for a receipt in the same way. -/
structure Calm (files : StateFiles) (reply : HttpReply IssueWireResponse) where

namespace Calm

variable {files : StateFiles} {reply : HttpReply IssueWireResponse}

instance : Machine (Calm files reply) where
  fault o := (.none, o)
  interfere db o := (db, o)
  files o := (files, o)
  random n o := (.zero n, o)
  write _ o := (none, o)
  backup _ _ o := (.error .storage, o)
  elapse o := o

instance : Exclusive (Calm files reply) where
  interfere_fst _ _ := rfl

instance : Transport (Calm files reply) where
  postIssue _ o := (some reply, o)
  postHead _ o := (some .unavailable, o)

theorem reliable (o : Calm files reply) : Machine.Reliable o :=
  ⟨Set.univ, trivial, fun _ _ => ⟨rfl, fun _ => rfl, fun _ _ => trivial, fun _ => trivial⟩⟩

variable {prim : Primitives} {p : HttpsWitnessProvider} {v : Vault} {db : Database} {sink : Bytes}

/-- The witness's answer completes the version, and then the permission step meets the strange
file. -/
theorem triple_acknowledge {version : StoredVersion} {e : UInt64} {r : WitnessReceipt}
    (hstrange : files.Strange) (hr : r.Completes prim p v.envelope.vaultId db version e) :
    Op.Triple (World.Shows v db sink) (acknowledge prim (p.provider prim) version e :
        VaultOp (Calm files (.body (.ofReceipt r))) Unit)
      (fun _ _ => False)
      fun stop w => stop = some (.invalidInput "VLT/1 state file type") ∧ w.vault = v := by
  have hverify := hr.acknowledges.verified
  obtain ⟨-, hobject, hversion, -⟩ := WitnessReceipt.verifyRequest_eq_ok.mp hverify
  obtain ⟨db', hstored⟩ := hr.stored
  refine Op.Triple.bind_get fun w hw => ?_
  obtain rfl := hw.vault
  refine Op.Triple.bind (fun receipt x => receipt = r ∧ x.Shows w.vault db sink) ?_ fun receipt => ?_
  · rintro x rfl
    let request := WitnessRequest.new prim x.vaultId version.objectId version.versionId
      version.manifest
    have hissue : (p.provider prim).issueReceipt request e x.outside = .ok r x.outside :=
      HttpsWitnessProvider.issueReceipt_of_post rfl hr.trusted hverify hr.newer
    simp only [WitnessProvider.issue, record, Op.bind_of_ok (Op.modify_apply _ x), outside, Op.zoom]
    rw [hissue]
    exact ⟨rfl, rfl, hw.db, hw.sink, reliable _⟩
  refine Op.Triple.of_imp fun heq => ?_
  subst heq
  rw [World.vaultId, hverify, Op.ofExcept_ok, Op.pure_bind]
  refine Op.Triple.bind_require (fun _ => ?_) fun _ hnot _ => (hnot ⟨hobject, hversion⟩).elim
  refine Op.Triple.bind (fun _ => World.Shows w.vault db' sink)
    ((total_transaction hstored).triple _) fun _ x hx => ?_
  have hfiles : enforceOwnerPrivateStateFiles x =
      Op.ofExcept (enforceOwnerPrivateSqliteState files) x := rfl
  rw [hfiles, hstrange.error]
  exact ⟨rfl, hx.vault⟩

end Calm

section

variable {ω : Type} [Machine ω] [Exclusive ω] {prim : Primitives} {provider : WitnessProvider ω}
  {v : Vault} {db : Database} {sink : Bytes}

/-- The first version of the list is that of the first row. -/
theorem total_pendingWitnessPublications_head {version : StoredVersion} {e : UInt64}
    (hrows : ∀ row ∈ db.selectPending,
      ∃ version e, db.Staged version e ∧ row = (version.versionId.blob, (e.toNat : ℤ)))
    (hhead : db.selectPending.head? = some (version.versionId.blob, (e.toNat : ℤ)))
    (hstaged : db.Staged version e) :
    Op.Total (World.Shows (ω := ω) v db sink) pendingWitnessPublications
      fun pending w => pending.head? = some (version, e) ∧ w.Shows v db sink := by
  intro w hw
  have hlist := total_pendingWitnessPublications hrows w hw
  cases hout : pendingWitnessPublications w with
  | ok pending x =>
    rw [hout] at hlist
    obtain ⟨-, hall, hmap⟩ := pendingWitnessPublications_ok hout
    refine ⟨?_, hlist⟩
    rw [hw.db] at hall hmap
    rw [← hmap] at hhead
    cases pending with
    | nil => cases hhead
    | cons q pending =>
      -- a row names the version and its epoch
      obtain ⟨hblob, hepoch⟩ := Prod.mk.inj (Option.some.inj hhead)
      have hversion := (hall q List.mem_cons_self).version
      rw [Identifier.blob_inj.mp hblob, hstaged.version] at hversion
      have he : q.2 = e := UInt64.toNat_inj.mp (Int.ofNat_inj.mp hepoch)
      exact congrArg some (Prod.ext (Except.ok.inj hversion).symm he)
  | failed error x => rw [hout] at hlist; exact hlist.elim
  | crashed x => rw [hout] at hlist; exact hlist.elim

omit [Exclusive ω] in
/-- An error that does not lock leaves the vault as it was when it stops a recovery, at its list or
in its loop. -/
theorem triple_recover_stops {e : VaultError} {Q : List (StoredVersion × UInt64) → Prop}
    (hkey : v.rootKey ≠ none) (he : ¬e.Locks)
    (hlist : Op.Triple (World.Shows v db sink) (pendingWitnessPublications (ω := ω))
      (fun pending w => Q pending ∧ w.Shows v db sink) fun stop w => stop = some e ∧ w.vault = v)
    (hloop : ∀ pending, Q pending → Op.Triple (World.Shows v db sink)
      (Op.fold (fun _ (q : StoredVersion × UInt64) => acknowledge prim provider q.1 q.2) () pending)
      (fun _ _ => False) fun stop w => stop = some e ∧ w.vault = v) :
    Op.Triple (World.Shows v db sink) (recoverPendingWitnessPublications prim provider)
      (fun _ _ => False) fun stop w => stop = some e ∧ w.vault = v := by
  obtain ⟨rootKey, hrootKey⟩ := Option.ne_none_iff_exists'.mp hkey
  refine @triple_lockAfterFailure _ _ _ _ _ (fun stop w => stop = some e ∧ w.vault = v) _ ?_ ?_
    fun _ h => h
  · intro w hw
    rw [Op.bind_of_ok (requireRootKey_eq_ok.mpr ⟨hw.vault ▸ hrootKey, rfl⟩)]
    refine Op.Triple.bind _ hlist (fun pending => ?_) w hw
    refine Op.Triple.of_imp fun hpending => ?_
    exact Op.Triple.bind _ (hloop pending hpending) fun _ _ h => h.elim
  · rintro _ w ⟨heq, hvault⟩
    obtain rfl := Option.some.inj heq
    rw [if_neg (show ¬_ = true from he)]
    exact ⟨rfl, hvault⟩

end

/-- In some surroundings a recovery stops with an error that does not lock. -/
theorem Database.SlipsThrough.triple_recover {prim : Primitives} {p : HttpsWitnessProvider}
    {found : Set StateFiles} {v : Vault} {db : Database} (sink : Bytes)
    (hfound : found.Nonempty) (hkey : v.rootKey ≠ none)
    (h : db.SlipsThrough prim p v.envelope.vaultId found) :
    ∃ files ∈ found, ∃ reply e, Op.Triple (World.Shows v db sink)
      (recoverPendingWitnessPublications prim (p.provider prim) : VaultOp (Calm files reply) UInt64)
      (fun _ _ => False) fun stop w => stop = some e ∧ w.vault = v := by
  rcases h with hdangles | ⟨⟨hrows, version, e, r, hhead, hstaged, hr⟩, files, hfiles, hstrange⟩
  · obtain ⟨files, hfiles⟩ := hfound
    refine ⟨files, hfiles, .unavailable, .notFound, @triple_recover_stops _ _ _ _ _ _ _ _
      (fun _ => False) hkey nofun ?_ fun _ h => h.elim⟩
    exact (triple_pendingWitnessPublications_notFound hdangles).mono_post fun _ _ h => h.elim
  · refine ⟨files, hfiles, .body (.ofReceipt r), .invalidInput "VLT/1 state file type",
      triple_recover_stops hkey nofun ((total_pendingWitnessPublications_head hrows hhead
        hstaged).triple _) ?_⟩
    intro pending hpending
    obtain ⟨rest, rfl⟩ := List.head?_eq_some_iff.mp hpending
    exact Op.Triple.bind _ (Calm.triple_acknowledge hstrange hr) fun _ _ h => h.elim

/-! ### Locked vaults -/

section

variable {ω : Type} [Machine ω] [Exclusive ω] {prim : Primitives} {config : DaemonConfig}

/-- A locked vault stays locked. -/
def StaysLocked (w w' : World ω) : Prop := w.vault.rootKey = none → w'.vault.rootKey = none

instance : LockRelation fun w w' : World ω => StaysLocked w w' where
  refl _ h := h
  trans _ _ _ h h' hw := h' (h hw)
  move _ _ _ h := h
  interfere _ h := h
  sink _ _ h := h
  observe _ _ _ h := h
  sealing _ _ _ h := h
  locked _ _ := rfl

omit [Machine ω] [Exclusive ω] in
/-- Only an unlock changes a locked vault into an unlocked one. -/
theorem Changes.staysLocked {call : VaultCall} {w₀ w w' : World ω}
    (hcall : ∀ passphrase, call ≠ .unlock passphrase) (h : Changes prim call w₀ w w') :
    StaysLocked w w' := by
  refine h.invariant fun x x' hchange (hx : x.vault.rootKey = none) => ?_
  cases hchange with
  | quiet hquiet => rw [hquiet.vault]; exact hx
  | unlocked heq => exact absurd heq (hcall _)
  | finalized _ _ _ _ hvault => rw [hvault]; exact hx
  | locked heq | opened _ _ heq | rotated _ _ _ _ _ _ heq => exact heq ▸ rfl
  | replaced _ _ _ _ _ _ heq | published _ _ _ heq | staged _ _ _ _ _ heq => rw [heq]; exact hx

variable [Transport ω]

theorem writesKeep_staysLocked :
    WritesKeep prim fun w w' : World ω => StaysLocked w w' where
  putWithChunkSize o plaintext size w := (changes_put o plaintext size w).staysLocked (by nofun)
  putFromReader o reader size w := (changes_putFromReader o reader size w).staysLocked (by nofun)
  putWithWitness _ o plaintext w := (changes_putWithWitness o plaintext w).staysLocked (by nofun)
  rotatePassphrase current replacement w :=
    (changes_rotatePassphrase current replacement w).staysLocked (by nofun)

/-- No step of a daemon but an unlock request unlocks the vault. -/
theorem unlocked_by_request {s : DaemonState ω} {input : DaemonInput}
    (hlocked : s.world.vault.rootKey = none)
    (hopen : (daemonStep prim config s input).2.world.vault.rootKey ≠ none) :
    ∃ a passphrase, input = .request a (some (.unlock passphrase)) := by
  by_contra hnot
  refine hopen ?_
  cases input with
  | request a request =>
    have hkeeps : StaysLocked s.world (serveStream prim config a request s).state.world :=
      keeps_serveStream prim config (fun _ => ⟨fun _ _ _ _ h => h⟩) writesKeep_staysLocked a request
        (fun passphrase heq => absurd ⟨a, passphrase, heq ▸ rfl⟩ hnot) s
    have hafter := hkeeps hlocked
    unfold daemonStep
    dsimp only
    split
    · cases hs : serveStream prim config a request s with
      | ok frames s' => rw [hs] at hafter; exact hafter
      | failed e s' => rw [hs] at hafter; exact hafter
      | crashed s' => rfl
    · exact hlocked
  | kill => rfl
  | start =>
    have hafter : (openVault prim s.world).state.vault.rootKey = none :=
      (changes_openVault s.world).staysLocked (by nofun) hlocked
    unfold daemonStep
    dsimp only
    split
    · exact hlocked
    · cases hs : openVault prim s.world <;> (rw [hs] at hafter; exact hafter)
  | elapse => exact hlocked
  | replaceDatabase db => exact hlocked

end

/-! ### The gate -/

section

variable {ω : Type} [Machine ω] [Transport ω]

/-- What the gate promises about an unlock request. -/
structure UnlockGated (prim : Primitives) (config : DaemonConfig) (p : HttpsWitnessProvider)
    (a : Arrival) (passphrase : Text) (s : DaemonState ω) : Prop where
  /-- A request that is answered with an error leaves the vault locked. -/
  refused : ∀ code message s', serveStream prim config a (some (.unlock passphrase)) s =
    .ok [.response (.error code message)] s' → s'.world.vault.rootKey = none
  /-- If the vault is unlocked when the request ends, the staged publications were completed and the
  active objects compared with the witness. -/
  completed : ∀ frames s', serveStream prim config a (some (.unlock passphrase)) s = .ok frames s' →
    s'.world.vault.rootKey ≠ none → ∃ w₁ w₂ recovered verified,
      unlock prim passphrase s.world = .ok () w₁ ∧
        recoverPendingWitnessPublications prim (p.provider prim) w₁ = .ok recovered w₂ ∧
          verifyActiveObjectsWithWitness prim (p.provider prim) w₂ = .ok verified s'.world

variable {prim : Primitives} {config : DaemonConfig} {p : HttpsWitnessProvider} {passphrase : Text}
  {s : DaemonState ω}

theorem strictUnlock_eq_ok {w w' : World ω} {result : Success}
    (h : strictUnlock prim passphrase (p.provider prim) w = .ok result w') :
    result = .empty ∧ ∃ w₁ w₂ recovered verified, unlock prim passphrase w = .ok () w₁ ∧
      recoverPendingWitnessPublications prim (p.provider prim) w₁ = .ok recovered w₂ ∧
        verifyActiveObjectsWithWitness prim (p.provider prim) w₂ = .ok verified w' := by
  obtain ⟨_, w₁, hunlock, hrest⟩ := Op.bind_eq_ok.mp h
  obtain ⟨recovered, w₂, hrecover, hrest⟩ := Op.bind_eq_ok.mp hrest
  obtain ⟨verified, w₃, hverify, hreturn⟩ := Op.bind_eq_ok.mp hrest
  cases hreturn
  exact ⟨rfl, w₁, w₂, recovered, verified, hunlock, hrecover, hverify⟩

/-- The gate holds if a strict unlock that fails leaves the vault locked. -/
theorem UnlockGated.of_strictUnlock (hconfig : config.witness = some p)
    (hlocked : s.world.vault.rootKey = none)
    (hfailed : ∀ e w, strictUnlock prim passphrase (p.provider prim) s.world = .failed e w →
      w.vault.rootKey = none) (a : Arrival) : UnlockGated prim config p a passphrase s := by
  rcases serveStream_unlock hconfig a passphrase s with ⟨code, message, hrefused⟩ | hrun
  · refine ⟨fun _ _ s' hs => ?_, fun _ s' hs hopen => ?_⟩ <;> rw [hrefused] at hs <;> cases hs
    · exact hlocked
    · exact absurd hlocked hopen
  · simp only [runVault, Op.bind_apply] at hrun
    cases hout : strictUnlock prim passphrase (p.provider prim) s.world with
    | ok result w =>
      rw [hout] at hrun
      refine ⟨fun _ _ s' hs => ?_, fun _ s' hs _ => ?_⟩ <;> rw [hrun] at hs <;> cases hs
      exact (strictUnlock_eq_ok hout).2
    | failed e w =>
      rw [hout] at hrun
      have hafter := hfailed e w hout
      refine ⟨fun _ _ s' hs => ?_, fun _ s' hs hopen => ?_⟩ <;>
        rw [hrun] at hs <;> obtain ⟨-, rfl⟩ := Outcome.ok.inj hs
      · exact hafter
      · exact absurd hafter hopen
    | crashed w =>
      rw [hout] at hrun
      refine ⟨fun _ _ s' hs => ?_, fun _ s' hs _ => ?_⟩ <;> rw [hrun] at hs <;> cases hs

/-- An undisturbed request whose strict unlock fails and leaves the vault unlocked is not gated. -/
theorem not_unlockGated_of_strictUnlock (hconfig : config.witness = some p) {e : VaultError}
    {w : World ω} (hfailed : strictUnlock prim passphrase (p.provider prim) s.world = .failed e w)
    (hopen : w.vault.rootKey ≠ none) : ¬UnlockGated prim config p {} passphrase s := by
  intro hgated
  obtain ⟨code, message, herror⟩ := mapVaultError_eq_error e
  refine hopen (hgated.refused code message { s with world := w } ?_)
  rw [serveStream_unlock_admitted hconfig]
  simp only [runVault, Op.bind_apply, hfailed]
  exact congrArg (fun response => Outcome.ok [Frame.response response] _) herror

end

/-- In some surroundings a strict unlock fails and leaves the vault unlocked. -/
theorem Database.SlipsThrough.strictUnlock {prim : Primitives} {p : HttpsWitnessProvider}
    {found : Set StateFiles} {v : Vault} {db : Database} {passphrase : Text}
    (hfound : found.Nonempty) (hopens : v.OpensWith prim passphrase)
    (h : db.SlipsThrough prim p v.envelope.vaultId found) :
    ∃ files ∈ found, ∃ reply e, ∃ w : World (Calm files reply),
      Vlt1.strictUnlock prim passphrase (p.provider prim) ⟨v, db, [], [], {}⟩ = .failed e w ∧
        w.vault.rootKey ≠ none := by
  obtain ⟨hvalid, rootKey, hopen⟩ := hopens
  let v' : Vault := { v with rootKey := some rootKey }
  obtain ⟨files, hfiles, reply, e, hrecover⟩ :=
    h.triple_recover (v := v') [] hfound (Option.some_ne_none _)
  refine ⟨files, hfiles, reply, e, ?_⟩
  let w₁ : World (Calm files reply) := ⟨v', db, [], [], {}⟩
  have hunlock : unlock prim passphrase (⟨v, db, [], [], {}⟩ : World (Calm files reply)) =
      .ok () w₁ := by
    simp only [unlock, hvalid, Op.ofExcept_ok, Op.pure_bind, Op.bind_of_ok (Op.get_apply _), hopen]
    rfl
  have hafter := hrecover w₁ ⟨rfl, rfl, rfl, Calm.reliable _⟩
  cases hout : recoverPendingWitnessPublications prim (p.provider prim) w₁ with
  | ok _ w => rw [hout] at hafter; exact hafter.elim
  | failed e' w =>
    rw [hout] at hafter
    obtain ⟨heq, hvault⟩ := hafter
    obtain rfl := Option.some.inj heq
    refine ⟨w, ?_, hvault ▸ Option.some_ne_none _⟩
    rw [Vlt1.strictUnlock, Op.bind_of_ok hunlock, Op.bind_apply, hout]
  | crashed w => rw [hout] at hafter; cases hafter.1

/-- The strict unlock is a gate exactly for the tables, passphrases and state files with which no
recovery slips through, and nothing but an unlock request unlocks a vault. -/
theorem strict_unlock_gated_iff (prim : Primitives) {config : DaemonConfig}
    {p : HttpsWitnessProvider} (hconfig : config.witness = some p) (passphrase : Text) {v : Vault}
    (hlocked : v.rootKey = none) (db : Database) {found : Set StateFiles} (hfound : found.Nonempty) :
    ((∀ (ω : Type) [Machine ω] [Exclusive ω] [Transport ω], (∀ o : ω, (Machine.files o).1 ∈ found) →
        ∀ (s : DaemonState ω) (a : Arrival), s.world.vault = v → s.world.db = db →
          UnlockGated prim config p a passphrase s) ↔
      ¬(v.OpensWith prim passphrase ∧ db.SlipsThrough prim p v.envelope.vaultId found)) ∧
    ∀ (ω : Type) [Machine ω] [Exclusive ω] [Transport ω] (s : DaemonState ω) (input : DaemonInput),
      s.world.vault.rootKey = none → (daemonStep prim config s input).2.world.vault.rootKey ≠ none →
        ∃ a passphrase, input = .request a (some (.unlock passphrase)) := by
  refine ⟨⟨?_, ?_⟩, fun ω _ _ _ s input => unlocked_by_request⟩
  · rintro hgated ⟨hopens, hslips⟩
    obtain ⟨files, hfiles, reply, e, w, hfailed, hopen⟩ := hslips.strictUnlock hfound hopens
    let s : DaemonState (Calm files reply) := ⟨⟨v, db, [], [], {}⟩, true, none, false⟩
    exact not_unlockGated_of_strictUnlock (s := s) hconfig hfailed hopen
      (hgated (Calm files reply) (fun _ => hfiles) s {} rfl rfl)
  · rintro hnot ω _ _ _ hfiles s a rfl rfl
    refine .of_strictUnlock hconfig hlocked (fun e w hfailed => ?_) a
    by_contra hopen
    exact hnot (slipsThrough_of_strictUnlock hfiles hlocked hfailed hopen)

/-! ### A version left staged -/

/-- The sample vault after a call to `put_with_witness` that did not reach the witness: its version is
staged and the vault is locked. -/
def sampleStaged : World SampleChannel :=
  (putWithWitness .checksum (.repeated 2) [97] ⟨fun _ _ => Op.fail .witnessUnavailable,
    fun _ _ _ => Op.fail .witnessUnavailable⟩ sampleWorld).state

/-- With private state files the gate holds for the sample vault, and the unlock completes the staged
version. -/
theorem unlock_gated_sample :
    let s : DaemonState SampleChannel := ⟨sampleStaged, true, none, false⟩
    UnlockGated .checksum sampleConfig sampleTrust {} [112] s ∧
      (serveStream .checksum sampleConfig {} (some (.unlock [112])) s).result =
        some (.ok [.response (.ok .empty)]) := by
  have hversions : ∀ row ∈ sampleStaged.db.selectPending,
      sampleStaged.db.versions.lookup row.1 ≠ none := by decide +kernel
  have hprivate : ∀ files ∈ ({.ownerPrivate} : Set StateFiles), ¬files.Strange := by
    rintro _ rfl hstrange
    cases hstrange.error
  have hgated := (@strict_unlock_gated_iff .checksum sampleConfig sampleTrust rfl [112] _
    (show sampleStaged.vault.rootKey = none by decide +kernel) sampleStaged.db
    _ (Set.singleton_nonempty StateFiles.ownerPrivate)).1.mpr
  refine ⟨hgated ?_ SampleChannel (fun _ => rfl) _ {} rfl rfl, by decide +kernel⟩
  rintro ⟨-, ⟨done, rest, u, e, hrows, -, -, hnone⟩ | ⟨-, files, hfiles, hstrange⟩⟩
  · exact hversions _ (hrows ▸ List.mem_append_right _ List.mem_cons_self) hnone
  · exact hprivate files hfiles hstrange

/-- The write-ahead log is not a regular file when the staged version has been completed: the unlock
request is answered with an error and leaves the vault unlocked. -/
theorem unlock_fails_unlocked :
    let s : DaemonState (OnDisk SampleChannel) := ⟨⟨sampleStaged.vault, sampleStaged.db,
      [], [], ⟨sampleStaged.outside, [.strangeWal]⟩⟩, true, none, false⟩
    s.world.vault.rootKey = none ∧
      ∃ s', serveStream .checksum sampleConfig {} (some (.unlock [112])) s =
        .ok [.response (.error .invalidInput "request input is invalid")] s' ∧
          s'.world.vault.rootKey ≠ none := by
  intro s
  have hanswer : (serveStream .checksum sampleConfig {} (some (.unlock [112])) s).result =
      some (.ok [.response (.error .invalidInput "request input is invalid")]) := by
    decide +kernel
  exact ⟨by decide +kernel, _, Outcome.eq_ok_of_result hanswer, by decide +kernel⟩

end Vlt1

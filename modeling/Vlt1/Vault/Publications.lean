import Vlt1.Vault.Failures

/-!
# What the publications do to the tables

The transactions of the three publication paths as explicit changes of the tables, and the steps of
the staged path: what a stage, an acknowledgement and a recovery that returned have done, and that
they stop only with errors that lock the vault once a version is staged.
-/

namespace Vlt1

open Effect

/-! ### The transactions -/

namespace Database

/-- A version is staged: its row and its pending row are there. -/
structure Staged (db : Database) (v : StoredVersion) (e : UInt64) : Prop where
  version : db.selectVersion v.versionId = .ok v
  pending : db.selectStaged v.versionId = .ok e

theorem Staged.pending_ne_none {db : Database} {v : StoredVersion} {e : UInt64} (h : db.Staged v e) :
    db.pending.lookup v.versionId.blob ≠ none := by
  rw [(selectStaged_eq_ok.mp h.pending).2]
  exact Option.some_ne_none _

/-- The pending rows can be read up to one whose version is not there. -/
def Dangles (db : Database) : Prop :=
  ∃ (done rest : List (Bytes × ℤ)) (u : VersionId) (e : UInt64),
    db.selectPending = done ++ (u.blob, (e.toNat : ℤ)) :: rest ∧ e.toNat < sqlIntegerBound ∧
      (∀ row ∈ done, ∃ v e, db.Staged v e ∧ row = (v.versionId.blob, (e.toNat : ℤ))) ∧
      db.versions.lookup u.blob = none

/-- The object has an active or a staged version. -/
def Knows (db : Database) (o : ObjectId) : Prop :=
  db.objects.lookup o.blob ≠ none ∨ ∃ v e, db.Staged v e ∧ v.objectId = o

variable {db db' : Database}

/-- Publishing adds a version with its chunks and points the object at it. -/
theorem publishBody_ok {v : StoredVersion} {chunks : List EncryptedChunk}
    (h : db.publishBody v chunks none = .ok db') :
    v.plaintextLen.toNat < sqlIntegerBound ∧ db.versions.lookup v.versionId.blob = none ∧
      db' = { db with
        versions := db.versions.insert v.versionId.blob v.toRow
        chunks := insertRows v.versionId db.chunks chunks
        objects := db.objects.insert v.objectId.blob v.versionId.blob } := by
  obtain ⟨db1, hversion, h⟩ := except_bind_eq_ok.mp h
  obtain ⟨hlen, -, hnew, rfl⟩ := insertVersion_eq_ok.mp hversion
  obtain ⟨db2, hchunks, h⟩ := except_bind_eq_ok.mp h
  obtain rfl := insertChunks_eq_ok hchunks
  obtain rfl := Except.ok.inj h
  exact ⟨hlen, hnew, rfl⟩

/-- Staging adds a version with its chunks and a pending row. -/
theorem stageBody_ok {v : StoredVersion} {chunks : List EncryptedChunk} {e : UInt64}
    (h : db.stageBody v chunks e = .ok db') :
    v.plaintextLen.toNat < sqlIntegerBound ∧ e.toNat < sqlIntegerBound ∧
      db.versions.lookup v.versionId.blob = none ∧ db.pending.lookup v.versionId.blob = none ∧
      db' = { db with
        versions := db.versions.insert v.versionId.blob v.toRow
        chunks := insertRows v.versionId db.chunks chunks
        pending := db.pending.insert v.versionId.blob e.toNat } := by
  obtain ⟨db1, hversion, h⟩ := except_bind_eq_ok.mp h
  obtain ⟨hlen, -, hnew, rfl⟩ := insertVersion_eq_ok.mp hversion
  obtain ⟨db2, hchunks, h⟩ := except_bind_eq_ok.mp h
  obtain rfl := insertChunks_eq_ok hchunks
  obtain ⟨he, hpending, -, rfl⟩ := insertPending_eq_ok.mp h
  exact ⟨hlen, he, hnew, hpending, rfl⟩

/-- Finalizing stores the receipt, points the object at the version and clears the pending row. -/
theorem finalizeBody_eq_ok {v : StoredVersion} {r : WitnessReceipt} :
    db.finalizeBody v r = .ok db' ↔
      (∃ e, db.selectStaged v.versionId = .ok e) ∧ r.witnessEpoch.toNat < sqlIntegerBound ∧
        db.receipts.lookup r.versionId.blob = none ∧
        (∀ row ∈ db.receipts.rows, ¬(row.2.publicKey = r.publicKey.toList ∧
          row.2.witnessEpoch = r.witnessEpoch.toNat)) ∧
        db.versions.lookup r.versionId.blob ≠ none ∧
        db' = { db with
          receipts := db.receipts.insert r.versionId.blob (.ofReceipt r)
          objects := db.objects.insert v.objectId.blob v.versionId.blob
          pending := db.pending.erase v.versionId.blob } := by
  constructor
  · intro h
    obtain ⟨e, hstaged, h⟩ := except_bind_eq_ok.mp h
    obtain ⟨db1, hreceipt, h⟩ := except_bind_eq_ok.mp h
    obtain ⟨hepoch, hnone, hunique, hversion, rfl⟩ := insertReceipt_eq_ok.mp hreceipt
    obtain rfl := Except.ok.inj h
    exact ⟨⟨e, hstaged⟩, hepoch, hnone, hunique, hversion, rfl⟩
  · rintro ⟨⟨e, hstaged⟩, hepoch, hnone, hunique, hversion, rfl⟩
    exact except_bind_eq_ok.mpr ⟨e, hstaged, except_bind_eq_ok.mpr
      ⟨_, insertReceipt_eq_ok.mpr ⟨hepoch, hnone, hunique, hversion, rfl⟩, rfl⟩⟩

/-- After a version is finalized, the others are still staged. -/
theorem staged_finalized_iff {v v' : StoredVersion} {e : UInt64} {r : WitnessReceipt}
    (hbody : db.finalizeBody v r = .ok db') :
    db'.Staged v' e ↔ db.Staged v' e ∧ v'.versionId ≠ v.versionId := by
  obtain ⟨-, -, -, -, -, rfl⟩ := finalizeBody_eq_ok.mp hbody
  constructor
  · intro h
    obtain ⟨hepoch, hpending⟩ := selectStaged_eq_ok.mp h.pending
    rw [Table.lookup_erase_eq] at hpending
    split at hpending
    · cases hpending
    · rename_i hne
      exact ⟨⟨h.version, selectStaged_eq_ok.mpr ⟨hepoch, hpending⟩⟩,
        fun hid => hne (congrArg Identifier.blob hid)⟩
  · rintro ⟨h, hne⟩
    obtain ⟨hepoch, hpending⟩ := selectStaged_eq_ok.mp h.pending
    refine ⟨h.version, selectStaged_eq_ok.mpr ⟨hepoch, ?_⟩⟩
    rw [Table.lookup_erase_eq, if_neg fun hblob => hne (Identifier.blob_inj.mp hblob)]
    exact hpending

end Database

section

variable {ω α : Type} [Machine ω] {prim : Primitives} {R : World ω → World ω → Prop}
  [ReadRelation R]

/-! ### Transactions of the process -/

/-- A transaction that returned has read the tables and committed what it made of them. -/
theorem transaction_ok {body : Database → Except VaultError Database} {w w' : World ω} {u : Unit}
    (h : transaction body w = .ok u w') :
    ∃ x db, R w x ∧ body x.db = .ok db ∧ w' = x.committed db := by
  obtain ⟨_, w1, hfault, htables⟩ := Op.bind_eq_ok.mp h
  obtain ⟨db, w2, htables, hbody⟩ := Op.bind_eq_ok.mp htables
  obtain ⟨db', w3, hexcept, hcommit⟩ := Op.bind_eq_ok.mp hbody
  obtain ⟨hok, rfl⟩ := Op.ofExcept_eq_ok.mp hexcept
  have hR : R w w2 := IsTrans.trans _ _ _ (keeps_storageFault.of_ok hfault)
    (keeps_tables.of_ok htables)
  cases htables
  cases hcommit
  exact ⟨_, db', hR, hok, rfl⟩

/-- A transaction that did not return has only read. -/
theorem transaction_not_ok {body : Database → Except VaultError Database} {w : World ω}
    (h : ∀ u w', transaction body w ≠ .ok u w') : R w (transaction body w).state := by
  have hread : Op.Keeps R (storageFault (ω := ω) >>= fun _ => tables >>= fun db =>
      Op.ofExcept (body db)) :=
    Op.Keeps.bind keeps_storageFault fun _ => Op.Keeps.bind keeps_tables fun _ =>
      Op.Keeps.ofExcept _
  have hsplit : transaction body w =
      ((storageFault >>= fun _ => tables >>= fun db => Op.ofExcept (body db)) >>= commit) w := by
    simp only [transaction, Op.bind_apply]
    cases storageFault w with
    | ok _ w1 => cases tables w1 <;> rfl
    | failed e w1 => rfl
    | crashed w1 => rfl
  have hR := hread w
  rw [hsplit] at h ⊢
  rw [Op.bind_apply] at h ⊢
  cases hx : (storageFault >>= fun _ => tables >>= fun db => Op.ofExcept (body db)) w with
  | ok db w1 =>
    rw [hx] at h
    exact absurd rfl (h () _)
  | failed e w1 => rw [hx] at hR; exact hR
  | crashed w1 => rw [hx] at hR; exact hR

end

/-! ### Between two commits -/

/-- The tables a run has committed, newest first. -/
def World.commits {ω : Type} (w : World ω) : List Database :=
  w.history.filterMap fun
    | .committed db => some db
    | _ => none

/-- Nothing was committed, and the vault in memory and the tables are as before. -/
structure World.Quiet {ω : Type} (w w' : World ω) : Prop extends w.Untouched w' where
  commits : w'.commits = w.commits

section

variable {ω α : Type} [Machine ω]

omit [Machine ω] in
@[simp] theorem World.commits_committed (w : World ω) (db : Database) :
    (w.committed db).commits = db :: w.commits := rfl

instance [Exclusive ω] : SealRelation (World.Quiet (ω := ω)) where
  refl _ := ⟨⟨rfl, rfl⟩, rfl⟩
  trans _ _ _ h h' := ⟨IsTrans.trans _ _ _ h.toUntouched h'.toUntouched, h'.commits.trans h.commits⟩
  move _ _ _ := ⟨⟨rfl, rfl⟩, rfl⟩
  interfere w := ⟨⟨rfl, Exclusive.interfere_fst w.db w.outside⟩, rfl⟩
  sink _ _ := ⟨⟨rfl, rfl⟩, rfl⟩
  observe w e he := ⟨⟨rfl, rfl⟩, by cases e <;> first | rfl | exact he.elim⟩
  sealing w e he := ⟨⟨rfl, rfl⟩, by cases e <;> first | rfl | exact he.elim⟩

omit [Machine ω] in
theorem keeps_issue (provider : WitnessProvider ω) (request : WitnessRequest) (e : UInt64) :
    Op.Keeps World.Quiet (provider.issue request e) := by
  refine fun w => ?_
  simp only [WitnessProvider.issue, record, Op.bind_of_ok (Op.modify_apply _ w)]
  refine ⟨⟨?_, ?_⟩, ?_⟩ <;> simp [outside, Op.zoom, World.commits]

variable [Exclusive ω] {prim : Primitives} {provider : WitnessProvider ω}

/-- The receipt acknowledges a version of a vault. -/
structure WitnessReceipt.Acknowledges (prim : Primitives) (r : WitnessReceipt) (vaultId : VaultId)
    (v : StoredVersion) : Prop where
  verified : r.verifyRequest prim
    (WitnessRequest.new prim vaultId v.objectId v.versionId v.manifest) = .ok ()

/-- What finalizing a version leaves, however it ends. -/
theorem finalizeWitnessPublication_state (v : StoredVersion) (r : WitnessReceipt) (w : World ω) :
    let w' := (finalizeWitnessPublication v r w).state
    w.Quiet w' ∨ w'.vault = w.vault ∧ w'.commits = w'.db :: w.commits ∧
      r.objectId = v.objectId ∧ r.versionId = v.versionId ∧
      w.db.finalizeBody v r = .ok w'.db := by
  intro w'
  let bound : VaultOp ω Unit :=
    Op.require (r.objectId = v.objectId ∧ r.versionId = v.versionId)
      (.invariant "freshness receipt version binding")
  have hrequire : w.Quiet (bound w).state := Op.Keeps.require _ _ w
  rcases Op.bind_cases bound (fun _ => transaction (fun db => db.finalizeBody v r) >>= fun _ =>
    enforceOwnerPrivateStateFiles) w with ⟨_, w1, hok, hrest⟩ | ⟨-, hsame⟩
  · obtain ⟨hbound, rfl⟩ := Op.require_eq_ok.mp hok
    rcases Op.bind_cases (transaction fun db => db.finalizeBody v r)
      (fun _ => enforceOwnerPrivateStateFiles) w with ⟨_, w2, hcommit, hrest'⟩ | ⟨hnot, hsame⟩
    · -- committed: the permission step changes neither vault nor tables
      obtain ⟨x, db, hx, hbody, rfl⟩ := transaction_ok (R := World.Quiet) hcommit
      have hafter := keeps_enforceOwnerPrivateStateFiles (R := World.Quiet) (x.committed db)
      rw [← hrest', ← hrest] at hafter
      have hdb : w'.db = db := hafter.db
      refine .inr ⟨hafter.vault.trans hx.vault, ?_, hbound.1, hbound.2, ?_⟩
      · rw [hdb, ← hx.commits]
        exact hafter.commits
      · rw [hdb, ← hx.db]
        exact hbody
    · have hread := transaction_not_ok (R := World.Quiet) hnot
      rw [← hsame, ← hrest] at hread
      exact .inl hread
  · rw [← hsame] at hrequire
    exact .inl hrequire

/-- What an acknowledgement leaves, however it ends: nothing happened to the vault and its tables,
or the version was finalized with a verified receipt. -/
theorem acknowledge_state (v : StoredVersion) (e : UInt64) (w : World ω) :
    let w' := (acknowledge prim provider v e w).state
    w.Quiet w' ∨ w'.vault = w.vault ∧ w'.commits = w'.db :: w.commits ∧
      ∃ r : WitnessReceipt, r.Acknowledges prim w.vaultId v ∧
        w.db.finalizeBody v r = .ok w'.db := by
  intro w'
  let request := WitnessRequest.new prim w.vaultId v.objectId v.versionId v.manifest
  let finish (r : WitnessReceipt) : VaultOp ω Unit :=
    Op.ofExcept (r.verifyRequest prim request) >>= fun _ => finalizeWitnessPublication v r
  have hw' : w' = ((provider.issue request e >>= finish) w).state := rfl
  rcases Op.bind_cases (provider.issue request e) finish w with ⟨r, w1, hissue, hrest⟩ | ⟨-, hsame⟩
  · have hquiet : w.Quiet w1 := (keeps_issue provider request e).of_ok hissue
    rcases Op.bind_cases (Op.ofExcept (r.verifyRequest prim request))
      (fun _ : Unit => finalizeWitnessPublication v r) w1 with ⟨_, w2, hok, hrest'⟩ | ⟨-, hsame⟩
    · obtain ⟨hverify, rfl⟩ := Op.ofExcept_eq_ok.mp hok
      rw [hrest] at hw'
      rw [show finish r w1 = _ from hrest'] at hw'
      rcases finalizeWitnessPublication_state v r w1 with hfinal | ⟨hvault, hcommits, -, -, hbody⟩
      · rw [← hw'] at hfinal
        exact .inl (IsTrans.trans _ _ _ hquiet hfinal)
      · rw [← hw'] at hvault hcommits hbody
        refine .inr ⟨hvault.trans hquiet.vault, by rw [hcommits, hquiet.commits], r, ⟨hverify⟩, ?_⟩
        rw [← hquiet.db]
        exact hbody
    · have hread := Op.Keeps.ofExcept (R := World.Quiet (ω := ω)) (r.verifyRequest prim request) w1
      rw [← hsame] at hread
      rw [hrest] at hw'
      exact .inl (hw' ▸ IsTrans.trans _ _ _ hquiet hread)
  · have hread := keeps_issue provider request e w
    rw [← hsame, ← hw'] at hread
    exact .inl hread

/-- What an acknowledgement that returned has done. -/
theorem acknowledge_ok {v : StoredVersion} {e : UInt64} {w w' : World ω} {u : Unit}
    (h : acknowledge prim provider v e w = .ok u w') :
    w'.vault = w.vault ∧ ∃ r : WitnessReceipt, r.Acknowledges prim w.vaultId v ∧
      w.db.finalizeBody v r = .ok w'.db := by
  rw [acknowledge, Op.bind_of_ok (Op.get_apply w)] at h
  obtain ⟨r, w1, hissue, hrest⟩ := Op.bind_eq_ok.mp h
  obtain ⟨_, w2, hok, hfinal⟩ := Op.bind_eq_ok.mp hrest
  obtain ⟨hverify, rfl⟩ := Op.ofExcept_eq_ok.mp hok
  obtain ⟨_, w3, hrequire, hrest⟩ := Op.bind_eq_ok.mp hfinal
  obtain ⟨-, rfl⟩ := Op.require_eq_ok.mp hrequire
  obtain ⟨_, w4, hcommit, henforce⟩ := Op.bind_eq_ok.mp hrest
  obtain ⟨x, db, hx, hbody, rfl⟩ := transaction_ok (R := World.Quiet) hcommit
  have hissued : w.Quiet w1 := (keeps_issue provider _ e).of_ok hissue
  have hafter : (x.committed db).Quiet w' := keeps_enforceOwnerPrivateStateFiles.of_ok henforce
  refine ⟨hafter.vault.trans (hx.vault.trans hissued.vault), r, ⟨hverify⟩, ?_⟩
  rw [hafter.db, ← hissued.db, ← hx.db]
  exact hbody

/-- The list of staged publications is the pending rows, each with its version. It cannot be made
because of an error that locks, or because a version is not there. -/
theorem triple_pendingWitnessPublications (w : World ω) :
    Op.Triple (· = w) pendingWitnessPublications
      (fun pending x => w.Quiet x ∧ (∀ p ∈ pending, w.db.Staged p.1 p.2) ∧
        pending.map (fun p => (p.1.versionId.blob, (p.2.toNat : ℤ))) = w.db.selectPending)
      fun stop _ => ∀ e, stop = some e → e.Locks ∨ w.db.Dangles := by
  -- the rows done so far are those of the versions collected so far
  let inv (done rest : List (Bytes × ℤ)) (acc : List (StoredVersion × UInt64)) (x : World ω) : Prop :=
    w.Quiet x ∧ done ++ rest = w.db.selectPending ∧ (∀ p ∈ acc, w.db.Staged p.1 p.2) ∧
      acc.map (fun p => (p.1.versionId.blob, (p.2.toNat : ℤ))) = done
  have hstep : ∀ done row rest acc, Op.Triple (inv done (row :: rest) acc) (do
      storageFault
      let expectedEpoch ← Op.ofExcept (sqlToUInt64 row.2)
      let versionId ← Op.ofExcept (Identifier.fromSlice row.1)
      let version ← query fun db => db.selectVersion versionId
      return acc ++ [(version, expectedEpoch)]) (inv (done ++ [row]) rest)
      fun stop _ => ∀ e, stop = some e → e.Locks ∨ w.db.Dangles := by
    rintro done ⟨b, i⟩ rest acc x ⟨hx, hrows, hstaged, hkeys⟩
    generalize hout : (do
      storageFault
      let expectedEpoch ← Op.ofExcept (sqlToUInt64 i)
      let versionId ← Op.ofExcept (Identifier.fromSlice b)
      let version ← query fun db => db.selectVersion versionId
      return acc ++ [(version, expectedEpoch)] : VaultOp ω _) x = outcome
    cases outcome with
    | crashed y => nofun
    | failed error y =>
      intro _ herror
      obtain rfl := Option.some.inj herror
      rcases Op.bind_eq_failed.mp hout with hfault | ⟨_, x1, hfault, hrest1⟩
      · exact .inl (fails_storageFault _ _ _ hfault)
      rcases Op.bind_eq_failed.mp hrest1 with hepoch | ⟨e, x2, hok, hrest2⟩
      · exact .inl (throws_sqlToUInt64 _ _ (Op.ofExcept_eq_failed.mp hepoch).1)
      obtain ⟨hepoch, rfl⟩ := Op.ofExcept_eq_ok.mp hok
      obtain ⟨hlt, rfl⟩ := sqlToUInt64_eq_ok.mp hepoch
      rcases Op.bind_eq_failed.mp hrest2 with hid | ⟨u, x3, hok', hrest3⟩
      · exact .inl (throws_fromSlice _ _ (Op.ofExcept_eq_failed.mp hid).1)
      obtain ⟨hid, rfl⟩ := Op.ofExcept_eq_ok.mp hok'
      obtain rfl := Identifier.fromSlice_eq_ok.mp hid
      rcases Op.bind_eq_failed.mp hrest3 with hversion | ⟨_, x4, -, hreturn⟩
      · rcases query_failed_of_exclusive hversion with hlocks | hbody
        · exact .inl hlocks
        rcases Database.selectVersion_error hbody with hlocks | ⟨-, hnone⟩
        · exact .inl hlocks
        -- nothing has changed since the rows were listed
        have hx1 : w.Quiet x1 := IsTrans.trans _ _ _ hx (keeps_storageFault.of_ok hfault)
        rw [hx1.db] at hnone
        refine .inr ⟨done, rest, u, e, hrows.symm, hlt, fun row hrow => ?_, hnone⟩
        rw [← hkeys] at hrow
        obtain ⟨p, hp, rfl⟩ := List.mem_map.mp hrow
        exact ⟨p.1, p.2, hstaged p hp, rfl⟩
      · cases hreturn
    | ok acc' y =>
      obtain ⟨_, x1, hfault, hrest1⟩ := Op.bind_eq_ok.mp hout
      obtain ⟨e, x2, hok, hrest2⟩ := Op.bind_eq_ok.mp hrest1
      obtain ⟨hepoch, rfl⟩ := Op.ofExcept_eq_ok.mp hok
      obtain ⟨hlt, rfl⟩ := sqlToUInt64_eq_ok.mp hepoch
      obtain ⟨u, x3, hok', hrest3⟩ := Op.bind_eq_ok.mp hrest2
      obtain ⟨hversionId, rfl⟩ := Op.ofExcept_eq_ok.mp hok'
      obtain rfl := Identifier.fromSlice_eq_ok.mp hversionId
      obtain ⟨v, x4, hversion, hreturn⟩ := Op.bind_eq_ok.mp hrest3
      cases hreturn
      have hx3 : w.Quiet x1 := IsTrans.trans _ _ _ hx (keeps_storageFault.of_ok hfault)
      have hselected := (query_ok_of_exclusive hversion).1
      rw [hx3.db] at hselected
      obtain ⟨rfl, -⟩ := Database.selectVersion_eq_ok.mp hselected
      have hrow : (v.versionId.blob, (e.toNat : ℤ)) ∈ w.db.selectPending := by
        rw [← hrows]
        simp
      refine ⟨IsTrans.trans _ _ _ hx3 ((keeps_query _).of_ok hversion), by simp [← hrows], ?_, ?_⟩
      · intro p hp
        rcases List.mem_append.mp hp with hp | hp
        · exact hstaged p hp
        · obtain rfl := List.mem_singleton.mp hp
          exact ⟨hselected, Database.selectStaged_eq_ok.mpr ⟨hlt, (Table.mem_select _).mp hrow⟩⟩
      · rw [List.map_append, hkeys]
        rfl
  refine Op.Triple.bind (fun rows x => rows = w.db.selectPending ∧ w.Quiet x) ?_ fun rows => ?_
  · rintro x rfl
    cases hquery : query (fun db => .ok db.selectPending) x with
    | ok rows y =>
      obtain rfl := Except.ok.inj (query_ok_of_exclusive hquery).1
      exact ⟨rfl, (keeps_query _).of_ok hquery⟩
    | failed error y =>
      intro _ herror
      obtain rfl := Option.some.inj herror
      exact .inl (fails_query (fun _ => Throws.ok _) _ _ _ hquery)
    | crashed y => nofun
  · refine Op.Triple.of_imp fun hrows => ?_
    subst hrows
    refine (Op.Triple.fold hstep [] w.db.selectPending []).conseq
      (fun x hx => ⟨hx, rfl, by simp, rfl⟩) ?_ fun _ _ h => h
    rintro pending x ⟨hx, -, hstaged, hkeys⟩
    exact ⟨hx, hstaged, hkeys⟩

theorem pendingWitnessPublications_ok {pending : List (StoredVersion × UInt64)} {w w' : World ω}
    (h : pendingWitnessPublications w = .ok pending w') :
    w.Quiet w' ∧ (∀ p ∈ pending, w.db.Staged p.1 p.2) ∧
      pending.map (fun p => (p.1.versionId.blob, (p.2.toNat : ℤ))) = w.db.selectPending :=
  (triple_pendingWitnessPublications w).ok_of rfl h

/-- Completing a list of staged versions gives an active version to their objects and takes none
away. -/
theorem fold_acknowledge_ok {pending : List (StoredVersion × UInt64)} {w w' : World ω} {u u' : Unit}
    (h : Op.fold (fun _ p => acknowledge prim provider p.1 p.2) u pending w = .ok u' w') :
    w'.vault = w.vault ∧ ∀ b, w'.db.objects.lookup b ≠ none ↔
      w.db.objects.lookup b ≠ none ∨ ∃ p ∈ pending, p.1.objectId.blob = b := by
  induction pending generalizing w u with
  | nil =>
    cases h
    simp
  | cons p pending ih =>
    obtain ⟨_, w1, hstep, hrest⟩ := Op.bind_eq_ok.mp h
    obtain ⟨hvault, r, -, hbody⟩ := acknowledge_ok hstep
    obtain ⟨-, -, -, -, -, hdb⟩ := Database.finalizeBody_eq_ok.mp hbody
    obtain ⟨hvault', hobjects⟩ := ih hrest
    refine ⟨hvault'.trans hvault, fun b => ?_⟩
    rw [hobjects, hdb, Table.lookup_insert_eq]
    by_cases hb : b = p.1.objectId.blob
    · simp [hb]
    · simp [hb, Ne.symm hb]

/-- After a recovery that returned, the objects with an active version are those that had an active
or a staged one before. -/
theorem recoverPendingWitnessPublications_ok {n : UInt64} {w w' : World ω}
    (h : recoverPendingWitnessPublications prim provider w = .ok n w') :
    w'.vault = w.vault ∧ ∀ o : ObjectId, w'.db.objects.lookup o.blob ≠ none ↔ w.db.Knows o := by
  obtain ⟨_, w1, hkey, hlist⟩ := Op.bind_eq_ok.mp (lockAfterFailure_eq_ok.mp h)
  obtain ⟨-, rfl⟩ := requireRootKey_eq_ok.mp hkey
  obtain ⟨pending, w2, hpending, hloop⟩ := Op.bind_eq_ok.mp hlist
  obtain ⟨_, w3, hfold, hcount⟩ := Op.bind_eq_ok.mp hloop
  obtain ⟨hw2, hstaged, hrows⟩ := pendingWitnessPublications_ok hpending
  obtain ⟨hvault, hobjects⟩ := fold_acknowledge_ok hfold
  have hw' : w3.Quiet w' := (keeps_countOf pending _).of_ok hcount
  refine ⟨hw'.vault.trans (hvault.trans hw2.vault), fun o => ?_⟩
  rw [hw'.db, hobjects, hw2.db, Database.Knows]
  refine or_congr_right ⟨?_, ?_⟩
  · rintro ⟨p, hp, hblob⟩
    exact ⟨p.1, p.2, hstaged p hp, Identifier.blob_inj.mp hblob⟩
  · rintro ⟨v, e, hve, rfl⟩
    -- a staged version has a pending row, so it is in the list
    have hrow := (Table.mem_select (· ≤ ·)).mpr (Database.selectStaged_eq_ok.mp hve.pending).2
    rw [← Database.selectPending, ← hrows, List.mem_map] at hrow
    obtain ⟨p, hp, hkeys⟩ := hrow
    have hid := Identifier.blob_inj.mp (Prod.mk.inj hkeys).1
    have hsame : p.1 = v := by
      have := (hstaged p hp).version
      rw [hid, hve.version] at this
      exact (Except.ok.inj this).symm
    exact ⟨p, hp, by rw [hsame]⟩

/-! ### Failures once a version is staged -/

omit [Exclusive ω] in
theorem fails_stageWitnessPublication {P : VaultError → Prop} (hlocks : ∀ e, e.Locks → P e)
    (hfiles : Op.Fails P (enforceOwnerPrivateStateFiles (ω := ω))) (v : StoredVersion)
    (chunks : List EncryptedChunk) (e : UInt64) :
    Op.Fails P (stageWitnessPublication (ω := ω) v chunks e) :=
  Op.Fails.bind (Op.Fails.require (hlocks _ rfl)) fun _ =>
    Op.Fails.bind ((fails_transaction fun _ => Database.throws_stageBody v chunks e).mono hlocks)
      fun _ => hfiles

omit [Exclusive ω] in
theorem fails_acknowledge {P : VaultError → Prop} (hlocks : ∀ e, e.Locks → P e)
    (hissue : ∀ request e, Op.Fails VaultError.Locks (provider.issueReceipt request e))
    (hfiles : Op.Fails P (enforceOwnerPrivateStateFiles (ω := ω)))
    (v : StoredVersion) (e : UInt64) : Op.Fails P (acknowledge prim provider v e) :=
  Op.Fails.bind Op.Fails.get fun _ =>
    Op.Fails.bind (Op.Fails.bind (Op.Fails.modify _) fun _ =>
      (outside_failed (hissue _ _)).mono hlocks) fun _ =>
      Op.Fails.bind (Op.Fails.ofExcept fun e he => hlocks e (throws_verifyRequest _ _ e he)) fun _ =>
        Op.Fails.bind (Op.Fails.require (hlocks _ rfl)) fun _ =>
          Op.Fails.bind ((fails_transaction fun _ => Database.throws_finalizeBody _ _).mono hlocks)
            fun _ => hfiles

omit [Machine ω] [Exclusive ω] in
/-- When every pending row has its version, none dangles. -/
theorem Database.not_dangles {db : Database}
    (hversions : ∀ r ∈ db.pending.rows, db.versions.lookup r.1 ≠ none) : ¬db.Dangles := by
  rintro ⟨done, rest, u, epoch, hrows, -, -, hnone⟩
  have hrow : (u.blob, (epoch.toNat : ℤ)) ∈ db.selectPending := by
    rw [hrows]
    simp
  exact hversions _ ((Table.select_perm (· ≤ ·) _).mem_iff.mp hrow) hnone

/-- Listing the staged versions fails only with errors that lock, when every pending row has its
version. -/
theorem pendingWitnessPublications_failed {e : VaultError} {w w' : World ω}
    (hversions : ∀ r ∈ w.db.pending.rows, w.db.versions.lookup r.1 ≠ none)
    (h : pendingWitnessPublications w = .failed e w') : e.Locks :=
  ((triple_pendingWitnessPublications w).failed_of rfl h e rfl).resolve_right
    (Database.not_dangles hversions)

/-- A recovery of an unlocked vault fails only with errors that lock, when every pending row has its
version. -/
theorem recoverPendingWitnessPublications_failed {e : VaultError} {w w' : World ω}
    (hissue : ∀ request e, Op.Fails VaultError.Locks (provider.issueReceipt request e))
    (hfiles : Op.Fails VaultError.Locks (enforceOwnerPrivateStateFiles (ω := ω)))
    (hkey : w.vault.rootKey ≠ none)
    (hversions : ∀ r ∈ w.db.pending.rows, w.db.versions.lookup r.1 ≠ none)
    (h : recoverPendingWitnessPublications prim provider w = .failed e w') :
    e.Locks ∧ w'.vault.rootKey = none := by
  obtain ⟨w1, hinner, rfl⟩ := lockAfterFailure_eq_failed.mp h
  have hlocks : e.Locks := by
    obtain ⟨_, hlist⟩ := bind_requireRootKey_failed hkey hinner
    rcases Op.bind_eq_failed.mp hlist with hpending | ⟨pending, w3, -, hloop⟩
    · exact pendingWitnessPublications_failed hversions hpending
    exact Op.Fails.bind (Op.Fails.fold (fun _ _ => fails_acknowledge (fun _ h => h) hissue hfiles _ _) _ _)
      (fun _ => fails_countOf _ _) _ _ _ hloop
  refine ⟨hlocks, ?_⟩
  rw [if_pos (show e.requiresLock = true from hlocks)]
  rfl

end

end Vlt1

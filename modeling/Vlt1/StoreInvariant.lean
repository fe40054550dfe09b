import Vlt1.Changes
import Vlt1.Channel

/-!
# The tables over whole runs

`Database.WellFormed` is the joint invariant of the five tables: every version is complete, with
exactly its chunk rows, active pointers and receipts belong to the object of their version, and a
staged version has no receipt and is not active. Every change of a call keeps it, and keeps the rows
of versions, chunks and receipts (`Database.Extends`); only one pointer moves at a time.

`store_invariant` is about every state a program has committed since it created the vault.
-/

namespace Vlt1

open Effect

namespace Database

/-- The version is stored as it was sealed, with all of its chunks. -/
def Complete (prim : Primitives) (db : Database) (b : Bytes) (row : VersionRow) : Prop :=
  ∃ (d : Draft) (vaultId : VaultId) (rootKey : Block 32), d.Sealed prim vaultId rootKey ∧
    d.versionId.blob = b ∧ d.storedVersion.toRow = row ∧
    ∀ c ∈ encryptedChunks d.parts, db.chunks.lookup (b, sqlOfUInt32 c.index) = some c.toRow

/-- The invariant of the tables. -/
structure WellFormed (prim : Primitives) (db : Database) : Prop where
  complete : ∀ b row, db.versions.lookup b = some row → db.Complete prim b row
  chunks : ∀ b row, db.versions.lookup b = some row →
    ∀ i, db.chunks.lookup (b, i) ≠ none ↔ 0 ≤ i ∧ i < row.chunkCount
  owned : ∀ b i, db.chunks.lookup (b, i) ≠ none → db.versions.lookup b ≠ none
  active : ∀ k b, db.objects.lookup k = some b →
    ∃ row, db.versions.lookup b = some row ∧ row.objectId = k
  pending : ∀ b, db.pending.lookup b ≠ none →
    db.versions.lookup b ≠ none ∧ db.receipts.lookup b = none ∧
      ∀ k, db.objects.lookup k ≠ some b
  receipts : ∀ b r, db.receipts.lookup b = some r →
    ∃ row, db.versions.lookup b = some row ∧ row.objectId = r.objectId

/-- The rows of versions, chunks and receipts are still there, unchanged. -/
structure Extends (db db' : Database) : Prop where
  versions : ∀ b row, db.versions.lookup b = some row → db'.versions.lookup b = some row
  chunks : ∀ key row, db.chunks.lookup key = some row → db'.chunks.lookup key = some row
  receipts : ∀ b row, db.receipts.lookup b = some row → db'.receipts.lookup b = some row

/-- At most one pointer moved. -/
def OnePointer (db db' : Database) : Prop :=
  ∃ k, ∀ k', k' ≠ k → db'.objects.lookup k' = db.objects.lookup k'

/-- What is only ever extended is extended over any number of steps. -/
theorem Extends.trans {db db' db'' : Database} (h : db.Extends db') (h' : db'.Extends db'') :
    db.Extends db'' :=
  ⟨fun b row hb => h'.versions b row (h.versions b row hb),
    fun key row hkey => h'.chunks key row (h.chunks key row hkey),
    fun b row hb => h'.receipts b row (h.receipts b row hb)⟩

end Database

/-! ### Adding a version -/

/-- The chunks of a draft are numbered by their places. -/
theorem index_of_mem_encryptedChunks {parts : List (Bytes × SealedRecord)} {c : EncryptedChunk}
    (h : c ∈ encryptedChunks parts) : ∃ i < parts.length, c.index = UInt32.ofNat i := by
  obtain ⟨i, hi, rfl⟩ := List.mem_mapIdx.mp h
  exact ⟨i, hi, rfl⟩

/-- A small number is stored as itself. -/
theorem sqlOfUInt32_ofNat {i : ℕ} (h : i < 2 ^ 32) : sqlOfUInt32 (UInt32.ofNat i) = i := by
  rw [sqlOfUInt32, UInt32.toNat_ofNat', Nat.mod_eq_of_lt h]

namespace Draft

variable {prim : Primitives} {vaultId : VaultId} {rootKey : Block 32} {d : Draft} {db : Database}

/-- A sealed draft has few enough chunks to number. -/
theorem Sealed.length_lt (hd : d.Sealed prim vaultId rootKey) : d.parts.length < 2 ^ 32 :=
  lt_of_le_of_lt hd.count (by decide)

/-- No two chunks of a sealed draft have one number. -/
theorem Sealed.nodup_index (hd : d.Sealed prim vaultId rootKey) :
    ((encryptedChunks d.parts).map EncryptedChunk.index).Nodup := by
  have hindex : (encryptedChunks d.parts).map EncryptedChunk.index =
      (List.range d.parts.length).map UInt32.ofNat := by
    apply List.ext_getElem?
    intro i
    by_cases hi : i < d.parts.length
    · simp [encryptedChunks, hi]
    · simp [encryptedChunks, hi]
  rw [hindex]
  refine List.Nodup.map_on (fun i hi j hj h => ?_) List.nodup_range
  have hlt := hd.length_lt
  have hi := List.mem_range.mp hi
  have hj := List.mem_range.mp hj
  have h := congrArg sqlOfUInt32 h
  rw [sqlOfUInt32_ofNat (hi.trans hlt), sqlOfUInt32_ofNat (hj.trans hlt)] at h
  exact Int.ofNat_inj.mp h

/-- The chunk rows of an added version. -/
theorem Sealed.lookup_chunk (hd : d.Sealed prim vaultId rootKey) {c : EncryptedChunk}
    (hc : c ∈ encryptedChunks d.parts) :
    (d.addTo db).chunks.lookup (d.versionId.blob, sqlOfUInt32 c.index) = some c.toRow :=
  Database.lookup_insertRows_of_mem hd.nodup_index hc

/-- The chunk rows of other versions stay. -/
theorem lookup_chunk_of_ne {b : Bytes} {i : ℤ} (h : b ≠ d.versionId.blob) :
    (d.addTo db).chunks.lookup (b, i) = db.chunks.lookup (b, i) :=
  Database.lookup_insertRows_of_ne fun _ _ hkey => h (Prod.mk.inj hkey).1

/-- A draft adds its own version and leaves the others. -/
theorem lookup_version (b : Bytes) :
    (d.addTo db).versions.lookup b =
      if b = d.versionId.blob then some d.storedVersion.toRow else db.versions.lookup b :=
  Table.lookup_insert_eq _ _ _ _

/-- A version that was there is not the draft's, and stays as it was. -/
theorem lookup_version_of_ne_none (hfresh : db.versions.lookup d.versionId.blob = none) {b : Bytes}
    (h : db.versions.lookup b ≠ none) :
    b ≠ d.versionId.blob ∧ (d.addTo db).versions.lookup b = db.versions.lookup b := by
  have hne : b ≠ d.versionId.blob := fun heq => h (heq ▸ hfresh)
  exact ⟨hne, by rw [lookup_version, if_neg hne]⟩

/-- Adding a new version changes no row. -/
theorem extends_addTo (h : db.WellFormed prim) (hfresh : db.versions.lookup d.versionId.blob = none) :
    db.Extends (d.addTo db) where
  versions b row hb := by
    rw [(lookup_version_of_ne_none hfresh (by rw [hb]; nofun)).2, hb]
  chunks key row hkey := by
    obtain ⟨b, i⟩ := key
    -- a chunk of the new version would have a version already
    have hversion : db.versions.lookup b ≠ none := h.owned b i (by rw [hkey]; nofun)
    rw [lookup_chunk_of_ne (lookup_version_of_ne_none hfresh hversion).1, hkey]
  receipts _ _ hb := hb

/-- The chunk rows of the added version are those of its indices. -/
theorem Sealed.lookup_chunk_ne_none (hd : d.Sealed prim vaultId rootKey) (h : db.WellFormed prim)
    (hfresh : db.versions.lookup d.versionId.blob = none) (i : ℤ) :
    (d.addTo db).chunks.lookup (d.versionId.blob, i) ≠ none ↔
      0 ≤ i ∧ i < d.storedVersion.toRow.chunkCount := by
  have hcount : d.storedVersion.toRow.chunkCount = d.parts.length :=
    sqlOfUInt32_ofNat hd.length_lt
  rw [hcount]
  constructor
  · intro hlookup
    by_contra hout
    refine hlookup ?_
    rw [show (d.addTo db).chunks.lookup (d.versionId.blob, i) = _ from
      Database.lookup_insertRows_of_ne fun c hc hkey => hout ?_]
    · by_contra hold
      exact h.owned _ _ hold hfresh
    · obtain ⟨j, hj, hindex⟩ := index_of_mem_encryptedChunks hc
      have hi := (Prod.mk.inj hkey).2
      rw [hindex, sqlOfUInt32_ofNat (hj.trans hd.length_lt)] at hi
      omega
  · rintro ⟨hpos, hlt⟩
    obtain ⟨n, rfl⟩ := Int.eq_ofNat_of_zero_le hpos
    have hn : n < d.parts.length := by omega
    have hmem : ⟨UInt32.ofNat n, (d.parts[n]).2⟩ ∈ encryptedChunks d.parts :=
      List.mem_mapIdx.mpr ⟨n, hn, rfl⟩
    have hlookup : (d.addTo db).chunks.lookup
        (d.versionId.blob, sqlOfUInt32 (UInt32.ofNat n)) = _ := hd.lookup_chunk hmem
    rw [sqlOfUInt32_ofNat (hn.trans hd.length_lt)] at hlookup
    rw [hlookup]
    nofun

/-- Adding a sealed draft under a new identifier keeps the tables well formed. -/
theorem Sealed.wellFormed_addTo (hd : d.Sealed prim vaultId rootKey) (h : db.WellFormed prim)
    (hfresh : db.versions.lookup d.versionId.blob = none) : (d.addTo db).WellFormed prim := by
  have hext := extends_addTo h hfresh
  have hgrow : ∀ b, db.versions.lookup b ≠ none → (d.addTo db).versions.lookup b ≠ none :=
    fun b hb => by rwa [(lookup_version_of_ne_none hfresh hb).2]
  refine ⟨fun b row hb => ?_, fun b row hb i => ?_, fun b i hkey => ?_, fun k b hb => ?_,
    fun b hb => ?_, fun b r hb => ?_⟩
  · rw [lookup_version] at hb
    split at hb
    · rename_i heq
      subst heq
      obtain rfl := Option.some.inj hb
      exact ⟨d, vaultId, rootKey, hd, rfl, rfl, fun c hc => hd.lookup_chunk hc⟩
    · obtain ⟨d', v', k', hd', hid, hrow, hchunks⟩ := h.complete b row hb
      exact ⟨d', v', k', hd', hid, hrow, fun c hc => hext.chunks _ _ (hchunks c hc)⟩
  · rw [lookup_version] at hb
    split at hb
    · rename_i heq
      subst heq
      obtain rfl := Option.some.inj hb
      exact hd.lookup_chunk_ne_none h hfresh i
    · rename_i hne
      rw [lookup_chunk_of_ne hne]
      exact h.chunks b row hb i
  · by_cases heq : b = d.versionId.blob
    · rw [lookup_version, if_pos heq]
      nofun
    · rw [lookup_chunk_of_ne heq] at hkey
      exact hgrow b (h.owned b i hkey)
  · obtain ⟨row, hrow, hobject⟩ := h.active k b hb
    exact ⟨row, hext.versions b row hrow, hobject⟩
  · obtain ⟨hversion, hreceipt, hactive⟩ := h.pending b hb
    exact ⟨hgrow b hversion, hreceipt, hactive⟩
  · obtain ⟨row, hrow, hobject⟩ := h.receipts b r hb
    exact ⟨row, hext.versions b row hrow, hobject⟩

end Draft

/-! ### The transactions -/

namespace Database.WellFormed

variable {prim : Primitives} {db db' : Database}

/-- The invariant does not look at the envelope. -/
theorem vaultMeta (h : db.WellFormed prim) (row : Option MetaRow) :
    { db with vaultMeta := row }.WellFormed prim :=
  ⟨h.complete, h.chunks, h.owned, h.active, h.pending, h.receipts⟩

/-- A stored version that is not pending may become active. -/
theorem upsertActive (h : db.WellFormed prim) {o : ObjectId} {u : VersionId} {row : VersionRow}
    (hrow : db.versions.lookup u.blob = some row) (hobject : row.objectId = o.blob)
    (hpending : db.pending.lookup u.blob = none) : (db.upsertActive o u).WellFormed prim := by
  refine ⟨h.complete, h.chunks, h.owned, fun k b hb => ?_, fun b hb => ?_, h.receipts⟩
  · rw [Database.upsertActive, Table.lookup_insert_eq] at hb
    split at hb
    · obtain rfl := Option.some.inj hb
      rename_i hk
      exact ⟨row, hrow, hobject.trans hk.symm⟩
    · exact h.active k b hb
  · obtain ⟨hversion, hreceipt, hactive⟩ := h.pending b hb
    refine ⟨hversion, hreceipt, fun k hk => ?_⟩
    rw [Database.upsertActive, Table.lookup_insert_eq] at hk
    split at hk
    · obtain rfl := Option.some.inj hk
      exact hb hpending
    · exact hactive k hk

variable {d : Draft} {vaultId : VaultId} {rootKey : Block 32}

/-- A version that is not stored yet is not staged. -/
theorem pending_eq_none (h : db.WellFormed prim) {b : Bytes} (hfresh : db.versions.lookup b = none) :
    db.pending.lookup b = none := by
  by_contra hb
  exact (h.pending b hb).1 hfresh

/-- A publication keeps the tables well formed. -/
theorem published (h : db.WellFormed prim) (hd : d.Sealed prim vaultId rootKey)
    (hfresh : db.versions.lookup d.versionId.blob = none) : (d.published db).WellFormed prim := by
  have hrow : (d.addTo db).versions.lookup d.versionId.blob = some d.storedVersion.toRow := by
    rw [Draft.lookup_version, if_pos rfl]
  exact (hd.wellFormed_addTo h hfresh).upsertActive hrow rfl (h.pending_eq_none hfresh)

/-- Staging keeps the tables well formed. -/
theorem staged (h : db.WellFormed prim) (hd : d.Sealed prim vaultId rootKey)
    (hfresh : db.versions.lookup d.versionId.blob = none) (e : UInt64) :
    (d.staged e db).WellFormed prim := by
  have hadded := hd.wellFormed_addTo h hfresh
  refine ⟨hadded.complete, hadded.chunks, hadded.owned, hadded.active, fun b hb => ?_,
    hadded.receipts⟩
  by_cases heq : b = d.versionId.blob
  · subst heq
    refine ⟨?_, ?_, fun k hk => ?_⟩
    · show (d.addTo db).versions.lookup d.versionId.blob ≠ none
      rw [Draft.lookup_version, if_pos rfl]
      nofun
    · -- a receipt or a pointer would belong to a stored version
      by_contra hreceipt
      obtain ⟨r, hr⟩ := Option.ne_none_iff_exists'.mp hreceipt
      obtain ⟨row, hrow, -⟩ := h.receipts _ r hr
      rw [hfresh] at hrow
      cases hrow
    · obtain ⟨row, hrow, -⟩ := h.active k _ hk
      rw [hfresh] at hrow
      cases hrow
  · refine hadded.pending b ?_
    rwa [Draft.staged, Table.lookup_insert_eq, if_neg heq] at hb

/-- Finalising what is staged, under its own receipt, keeps the tables well formed. -/
theorem finalized (h : db.WellFormed prim) {v : StoredVersion} {e : UInt64} {r : WitnessReceipt}
    (hstaged : db.Staged v e) (hobject : r.objectId = v.objectId)
    (hversion : r.versionId = v.versionId) (hbody : db.finalizeBody v r = .ok db') :
    db'.WellFormed prim := by
  obtain ⟨-, -, hnone, -, -, rfl⟩ := Database.finalizeBody_eq_ok.mp hbody
  obtain ⟨-, -, hrow⟩ := Database.selectVersion_eq_ok.mp hstaged.version
  rw [hversion] at hnone ⊢
  -- first without the row of the version that is no longer staged
  have herased : { db with
      pending := db.pending.erase v.versionId.blob
      receipts := db.receipts.insert v.versionId.blob (.ofReceipt r) }.WellFormed prim := by
    refine ⟨h.complete, h.chunks, h.owned, h.active, fun b hb => ?_, fun b row hb => ?_⟩
    · simp only [Table.lookup_erase_eq, ne_eq, ite_eq_left_iff, not_forall] at hb
      obtain ⟨hne, hb⟩ := hb
      obtain ⟨hold, hreceipt, hactive⟩ := h.pending b hb
      exact ⟨hold, by rwa [Table.lookup_insert_eq, if_neg hne], hactive⟩
    · simp only [Table.lookup_insert_eq] at hb
      split at hb
      · rename_i heq
        subst heq
        obtain rfl := Option.some.inj hb
        exact ⟨v.toRow, hrow, by rw [ReceiptRow.ofReceipt, hobject]; rfl⟩
      · exact h.receipts b row hb
  exact herased.upsertActive hrow rfl (by simp)

/-- Well-formed tables pass the foreign-key check. -/
theorem foreignKeysHold (h : db.WellFormed prim) : db.ForeignKeysHold := by
  refine ⟨?_, ?_, ?_⟩
  · rintro ⟨⟨b, i⟩, row⟩ hr
    exact h.owned b i (by rw [Table.mem_rows.mp hr]; nofun)
  · rintro ⟨b, e⟩ hr
    exact (h.pending b (by rw [Table.mem_rows.mp hr]; nofun)).1
  · rintro ⟨b, row⟩ hr
    obtain ⟨row', hrow, -⟩ := h.receipts b row (Table.mem_rows.mp hr)
    rw [hrow]
    nofun

/-- The checks at the start pass. -/
theorem startupIntegrityCheck (h : db.WellFormed prim) : db.startupIntegrityCheck = .ok () := by
  have hkeys := h.foreignKeysHold
  unfold Database.startupIntegrityCheck
  rw [ensure_pos hkeys, ensure_pos]
  · exact ensure_pos hkeys.2.1
  · rintro ⟨k, b⟩ hr
    obtain ⟨row, hrow, hobject⟩ := h.active k b (Table.mem_rows.mp hr)
    rw [hrow, Option.map_some, hobject]

/-- Tables without rows. -/
theorem empty (row : Option MetaRow) : { Database.empty with vaultMeta := row }.WellFormed prim :=
  ⟨nofun, nofun, fun _ _ h => absurd rfl h, nofun, fun _ h => absurd rfl h, nofun⟩

end Database.WellFormed

/-! ### Runs -/

section

variable {ω : Type} {prim : Primitives} {call : VaultCall} {w₀ w w' : World ω}

/-- The vault was just created: its only transaction left the envelope and no rows. -/
structure World.Created (w : World ω) : Prop where
  commits : w.commits = [w.db]
  empty : w.db = { Database.empty with vaultMeta := w.db.vaultMeta }

/-- What holds of the states committed so far. -/
structure Settled (prim : Primitives) (w : World ω) : Prop where
  current : w.commits.head? = some w.db
  wellFormed : ∀ db ∈ w.commits, db.WellFormed prim
  rows : w.commits.Pairwise fun later earlier => earlier.Extends later
  pointers : w.commits.IsChain fun later earlier => earlier.OnePointer later

namespace Settled

/-- The tables of a settled vault are well formed. -/
theorem db_wellFormed (h : Settled prim w) : w.db.WellFormed prim :=
  h.wellFormed _ (List.mem_of_mem_head? h.current)

/-- A vault that was just created is settled. -/
theorem created (h : w.Created) : Settled prim w := by
  have hcommits := h.commits
  refine ⟨by rw [hcommits]; rfl, fun db hdb => ?_, by rw [hcommits]; simp, by rw [hcommits]; simp⟩
  rw [hcommits, List.mem_singleton] at hdb
  rw [hdb, h.empty]
  exact .empty _

/-- Whatever leaves the tables and the history of commits alone keeps a vault settled. -/
theorem same (h : Settled prim w) (hdb : w'.db = w.db) (hcommits : w'.commits = w.commits) :
    Settled prim w' := by
  refine ⟨?_, ?_, ?_, ?_⟩ <;> rw [hcommits]
  · rw [hdb]
    exact h.current
  · exact h.wellFormed
  · exact h.rows
  · exact h.pointers

/-- One more transaction. -/
theorem commit (h : Settled prim w) (hcommits : w'.commits = w'.db :: w.commits)
    (hwell : w'.db.WellFormed prim) (hrows : w.db.Extends w'.db)
    (hpointer : w.db.OnePointer w'.db) : Settled prim w' := by
  obtain ⟨rest, hrest⟩ : ∃ rest, w.commits = w.db :: rest := by
    cases hlist : w.commits with
    | nil => have := h.current; rw [hlist] at this; cases this
    | cons db rest =>
      have := h.current
      rw [hlist] at this
      exact ⟨rest, by rw [Option.some.inj this]⟩
  refine ⟨by rw [hcommits]; rfl, fun db hdb => ?_, ?_, ?_⟩
  · rw [hcommits] at hdb
    rcases List.mem_cons.mp hdb with rfl | hdb
    · exact hwell
    · exact h.wellFormed db hdb
  · rw [hcommits]
    refine List.pairwise_cons.mpr ⟨fun earlier hearlier => ?_, h.rows⟩
    have hold := h.rows
    rw [hrest] at hearlier hold
    rcases List.mem_cons.mp hearlier with rfl | hearlier
    · exact hrows
    · exact ((List.pairwise_cons.mp hold).1 earlier hearlier).trans hrows
  · have hold := h.pointers
    rw [hrest] at hold
    rw [hcommits, hrest]
    exact List.IsChain.cons_cons hpointer hold

/-- A new envelope touches no other table. -/
theorem envelope (h : Settled prim w) {envelope : RootEnvelope}
    (hbody : w.db.replaceEnvelopeBody envelope = .ok w'.db)
    (hcommits : w'.commits = w'.db :: w.commits) : Settled prim w' := by
  obtain ⟨row, -, -, hdb⟩ := Database.replaceEnvelopeBody_eq_ok.mp hbody
  refine h.commit hcommits ?_ ?_ ⟨[], fun _ _ => ?_⟩
  · rw [hdb]
    exact h.db_wellFormed.vaultMeta _
  · rw [hdb]
    exact ⟨fun _ _ h => h, fun _ _ h => h, fun _ _ h => h⟩
  · rw [hdb]

/-- Every change keeps the invariant. -/
theorem change (hchange : Change prim call w₀ w w') (h : Settled prim w) : Settled prim w' := by
  have hdb := h.db_wellFormed
  cases hchange with
  | quiet hquiet => exact h.same hquiet.db hquiet.commits
  | locked heq | unlocked _ _ _ heq | opened _ _ heq => subst heq; exact h.same rfl rfl
  | replaced _ _ _ _ _ hbody heq | rotated _ _ _ _ _ hbody heq =>
    subst heq
    exact h.envelope hbody rfl
  | @published d _ _ hnew heq =>
    subst heq
    obtain ⟨rootKey, -, hd⟩ := hnew.sealedFor
    have hext := Draft.extends_addTo hdb hnew.fresh
    refine h.commit rfl (hdb.published hd hnew.fresh) ⟨hext.versions, hext.chunks, hext.receipts⟩
      ⟨d.objectId.blob, fun k hk => ?_⟩
    exact (Table.lookup_insert_eq _ _ _ _).trans (if_neg hk)
  | @staged d e _ _ hnew _ _ heq =>
    subst heq
    obtain ⟨rootKey, -, hd⟩ := hnew.sealedFor
    have hext := Draft.extends_addTo hdb hnew.fresh
    exact h.commit rfl (hdb.staged hd hnew.fresh e) ⟨hext.versions, hext.chunks, hext.receipts⟩
      ⟨[], fun _ _ => rfl⟩
  | @finalized v e r _ hstaged hack hbody _ hcommits =>
    obtain ⟨-, hobject, hversion, -⟩ := WitnessReceipt.verifyRequest_eq_ok.mp hack.verified
    obtain ⟨-, -, hnone, -, -, hdb'⟩ := Database.finalizeBody_eq_ok.mp hbody
    refine h.commit hcommits (hdb.finalized hstaged hobject hversion hbody) ?_
      ⟨v.objectId.blob, fun k hk => ?_⟩
    · rw [hdb']
      refine ⟨fun _ _ h => h, fun _ _ h => h, fun b row hb => ?_⟩
      show (w.db.receipts.insert r.versionId.blob (.ofReceipt r)).lookup b = some row
      rw [Table.lookup_insert_eq, if_neg]
      · exact hb
      · rintro rfl
        rw [hnone] at hb
        cases hb
    · rw [hdb']
      exact (Table.lookup_insert_eq _ _ _ _).trans (if_neg hk)

end Settled

/-- The objects whose pointer a call may move, given the tables it found. -/
def VaultCall.Moves (call : VaultCall) (db : Database) (k : Bytes) : Prop :=
  match call with
  | .put o _ _ | .putFromReader o _ _ | .putWithWitness o _ => k = o.blob
  | .recover => ∃ v e, db.Staged v e ∧ k = v.objectId.blob
  | _ => False

/-- A call that publishes moves its own object, and is no recovery. -/
theorem VaultCall.Publishes.moves {d : Draft} (h : call.Publishes d) (db : Database) :
    call ≠ .recover ∧ call.Moves db d.objectId.blob := by
  cases call <;> first
    | exact ⟨nofun, congrArg Identifier.blob (Draft.Of.object h)⟩
    | exact ⟨nofun, congrArg Identifier.blob (Draft.OfReader.object h)⟩
    | exact h.elim

/-- A call that finalises moves the object of what it finalises. -/
theorem VaultCall.Finalizes.moves {v : StoredVersion} {db₀ : Database} (h : call.Finalizes db₀ v)
    {db : Database} {e : UInt64} (hstaged : call = .recover → db.Staged v e) :
    call.Moves db v.objectId.blob := by
  cases call <;> first
    | exact congrArg Identifier.blob h.1
    | exact ⟨v, e, hstaged rfl, rfl⟩
    | exact h.elim

/-- A call moves no other pointer. -/
theorem Changes.pointer (h : Changes prim call w₀ w w') {k : Bytes}
    (hk : w'.db.objects.lookup k ≠ w.db.objects.lookup k) : call.Moves w.db k := by
  -- what a recovery finds staged later was staged when it began
  let J (x : World ω) : Prop :=
    (call = .recover → ∀ v e, x.db.Staged v e → w.db.Staged v e) ∧
      ∀ k, x.db.objects.lookup k ≠ w.db.objects.lookup k → call.Moves w.db k
  have hJ : J w' := by
    refine h.invariant (I := J) (fun x x' hchange hx => ?_) ⟨fun _ _ _ h => h, fun k hk => absurd rfl hk⟩
    obtain ⟨hstaged, hmoved⟩ := hx
    have hsame : x'.db = x.db → J x' := fun heq => by
      constructor <;> rw [heq]
      · exact hstaged
      · exact hmoved
    cases hchange with
    | quiet hquiet => exact hsame hquiet.db
    | locked heq | unlocked _ _ _ heq | opened _ _ heq => exact hsame (heq ▸ rfl)
    | replaced hcall _ _ _ _ hbody heq | rotated hcall _ _ _ _ hbody heq =>
      subst heq
      obtain ⟨_, -, -, hdb⟩ := Database.replaceEnvelopeBody_eq_ok.mp hbody
      refine ⟨fun hrecover => ?_, fun k hk => hmoved k ?_⟩
      · rw [hcall] at hrecover
        cases hrecover
      · rwa [World.committed, hdb] at hk
    | @published d hcall _ hnew heq =>
      subst heq
      obtain ⟨hnot, hobject⟩ := hcall.moves w.db
      refine ⟨fun hrecover => absurd hrecover hnot, fun k hk => ?_⟩
      by_cases heq : k = d.objectId.blob
      · exact heq ▸ hobject
      · refine hmoved k fun hsame => hk ?_
        rw [← hsame]
        exact (Table.lookup_insert_eq _ _ _ _).trans (if_neg heq)
    | @staged d e hcall _ hnew _ _ heq =>
      subst heq
      refine ⟨fun hrecover => ?_, hmoved⟩
      rw [hrecover] at hcall
      exact hcall.elim
    | @finalized v e r hcall hv hack hbody _ _ =>
      obtain ⟨-, -, -, -, -, hdb⟩ := Database.finalizeBody_eq_ok.mp hbody
      refine ⟨fun hrecover u e' hu => hstaged hrecover u e'
        ((Database.staged_finalized_iff hbody).mp hu).1, fun k hk => ?_⟩
      by_cases heq : k = v.objectId.blob
      · exact heq ▸ hcall.moves fun hrecover => hstaged hrecover v e hv
      · refine hmoved k fun hsame => hk ?_
        rw [← hsame, hdb]
        exact (Table.lookup_insert_eq _ _ _ _).trans (if_neg heq)
  exact hJ.2 k hk

variable [Machine ω] [Exclusive ω] {provider : WitnessProvider ω}

/-- **Store invariant.** In every run of a program on a vault it created, every committed state is
well formed and accepted by the checks at the start, rows of versions, chunks and receipts are never
changed or deleted, two consecutive states differ in one pointer at most, and a call moves only the
pointers it is about. -/
theorem store_invariant {s : SessionState ω} (hcreated : s.world.Created) (calls : List VaultCall) :
    let w := (Run.final (sessionStep prim provider) s calls).world
    (w.commits.head? = some w.db ∧
      ∀ db ∈ w.commits, db.WellFormed prim ∧ db.startupIntegrityCheck = .ok ()) ∧
    (w.commits.Pairwise fun later earlier => earlier.Extends later) ∧
    (w.commits.IsChain fun later earlier => earlier.OnePointer later) ∧
    ∀ t ∈ Run.trace (sessionStep prim provider) s calls, ∀ k,
      t.after.world.db.objects.lookup k ≠ t.before.world.db.objects.lookup k →
        t.input.Moves t.before.world.db k := by
  intro w
  have hstep : ∀ (s : SessionState ω) call, Settled prim s.world →
      Settled prim (sessionStep prim provider s call).2.world :=
    fun s call hs => (sessionStep_changes s call).invariant (fun _ _ => Settled.change) hs
  have hw : Settled prim w := (Run.invariant _ hstep calls (Settled.created hcreated)).1
  refine ⟨⟨hw.current, fun db hdb => ?_⟩, hw.rows, hw.pointers, fun t ht k hk => ?_⟩
  · exact ⟨hw.wellFormed db hdb, (hw.wellFormed db hdb).startupIntegrityCheck⟩
  · rw [Run.eq_transition_of_mem _ ht] at hk ⊢
    exact (sessionStep_changes _ _).pointer hk

/-- Creating a vault commits its envelope, and nothing else. -/
theorem create_ok {passphrase : Text} {u : Unit} (h : create prim passphrase w = .ok u w') :
    w'.commits = w'.db :: w.commits ∧
      w'.db = { Database.empty with vaultMeta := w'.db.vaultMeta } := by
  obtain ⟨_, _, x, w₁, -, -, hquiet, hafter, rfl⟩ := create_eq_ok h
  constructor
  · show w₁.commits = w₁.db :: w.commits
    rw [hafter.commits, hafter.db, World.commits_committed, hquiet.commits]
    rfl
  · show w₁.db = { Database.empty with vaultMeta := w₁.db.vaultMeta }
    rw [hafter.db]
    rfl

/-- Creation on a new machine leaves a created vault. -/
theorem created_of_create {passphrase : Text} {u : Unit} (hblank : w.commits = [])
    (h : create prim passphrase w = .ok u w') : w'.Created := by
  obtain ⟨hcommits, hempty⟩ := create_ok h
  exact ⟨by rw [hcommits, hblank], hempty⟩

end

/-- The sample vault is a created one. -/
theorem created_sampleWorld : sampleWorld.Created := created_of_create rfl create_sampleWorld

/-- The sample program stores an object twice, once through the witness, and reopens the vault. -/
def sampleCalls : List VaultCall :=
  [.put (.repeated 2) [97] 1, .putWithWitness (.repeated 2) [98, 99], .drop, .reopen]

/-- The invariant over a run of the sample vault. -/
theorem store_invariant_sample :
    let w := (Run.final (sessionStep .checksum (sampleTrust.provider .checksum))
      ⟨sampleWorld, true⟩ sampleCalls).world
    sampleWorld.Created ∧ w.commits.length = 4 ∧
      ∀ db ∈ w.commits, db.startupIntegrityCheck = .ok () := by
  refine ⟨created_sampleWorld, by decide +kernel, fun db hdb => ?_⟩
  have hcreated : World.Created (SessionState.world ⟨sampleWorld, true⟩) := created_sampleWorld
  exact ((store_invariant hcreated sampleCalls).1.2 db hdb).2

end Vlt1

import Vlt1.IdealCrypto
import Vlt1.StoreInvariant
import Vlt1.Vault.Failures

/-!
# Reading a stored version back

A version that was sealed and stored reads back as its plaintext (`total_getToWriterInner`), provided
that the storage works while it is read (`Machine.Reliable`). The writer and the reader have to agree
on everything: keys and associated data, the Manifest, the order and the lengths of the chunks.
-/

namespace Vlt1

open Effect

/-! ### Chunk rows -/

/-- The rows of a version, in the order of their numbers, are what the query returns. -/
theorem Database.selectChunks_eq {db : Database} {u : VersionId} {rows : List (ℤ × ChunkRow)}
    (hsorted : rows.Pairwise fun a b => a.1 < b.1)
    (hmem : ∀ i row, (i, row) ∈ rows ↔ db.chunks.lookup (u.blob, i) = some row) :
    db.selectChunks u = rows := by
  have hnodup : rows.Nodup := hsorted.imp fun hlt heq => by
    rw [heq] at hlt
    exact absurd hlt (lt_irrefl _)
  -- the unsorted rows are the same ones
  have hperm : (((db.chunks.rows.filter fun r => r.1.1 = u.blob).map fun r => (r.1.2, r.2))).Perm
      rows := by
    refine (List.perm_ext_iff_of_nodup ?_ hnodup).mpr ?_
    · refine List.Nodup.map_on ?_ ((List.Nodup.of_map _ db.chunks.nodup_keys).filter _)
      rintro ⟨⟨b, i⟩, row⟩ hb ⟨⟨b', i'⟩, row'⟩ hb' heq
      simp only [List.mem_filter, decide_eq_true_eq] at hb hb'
      obtain ⟨rfl, rfl⟩ := Prod.mk.inj heq
      obtain ⟨-, rfl⟩ := hb
      obtain ⟨-, rfl⟩ := hb'
      rfl
    · rintro ⟨i, row⟩
      rw [hmem]
      simp only [List.mem_map, List.mem_filter, decide_eq_true_eq, Prod.exists, Prod.mk.injEq]
      constructor
      · rintro ⟨b, i', row', ⟨hrow, rfl⟩, rfl, rfl⟩
        exact Table.mem_rows.mp hrow
      · intro hrow
        exact ⟨u.blob, i, row, ⟨Table.mem_rows.mpr hrow, rfl⟩, rfl, rfl⟩
  have htotal : Std.Total fun a b : ℤ × ChunkRow => a.1 ≤ b.1 := ⟨fun a b => le_total a.1 b.1⟩
  have htrans : IsTrans (ℤ × ChunkRow) fun a b => a.1 ≤ b.1 := ⟨fun _ _ _ h h' => le_trans h h'⟩
  refine @List.Perm.eq_of_pairwise _ (fun a b => a.1 ≤ b.1) _ _ ?_ (List.pairwise_insertionSort _ _)
    (hsorted.imp le_of_lt) ((List.perm_insertionSort _ _).trans hperm)
  rintro ⟨i, row⟩ ⟨i', row'⟩ hrow hrow' hle hle'
  obtain rfl : i = i' := le_antisymm hle hle'
  have hold := (List.perm_insertionSort _ _).mem_iff.mp hrow
  have h := (hmem i row).mp (hperm.mem_iff.mp hold)
  have h' := (hmem i row').mp hrow'
  rw [Option.some.inj (h.symm.trans h')]

/-- A chunk row is read back. -/
theorem readChunkRow_toRow (c : EncryptedChunk) :
    readChunkRow (sqlOfUInt32 c.index, c.toRow) = .ok c := by
  simp only [readChunkRow, except_bind_eq_ok, sqlToUInt32_eq_ok, bytes12, fixedBytes_eq_ok]
  exact ⟨_, rfl, _, rfl, rfl⟩

namespace Draft

/-- The draft is stored in the tables. -/
structure Stored (prim : Primitives) (vaultId : VaultId) (rootKey : Block 32) (db : Database)
    (d : Draft) : Prop where
  sealed : d.Sealed prim vaultId rootKey
  even : d.Even
  fits : d.plaintext.length < sqlIntegerBound
  version : db.versions.lookup d.versionId.blob = some d.storedVersion.toRow
  chunks : ∀ c ∈ encryptedChunks d.parts,
    db.chunks.lookup (d.versionId.blob, sqlOfUInt32 c.index) = some c.toRow

variable {prim : Primitives} {v : VaultId} {k : Block 32} {db db' : Database} {d : Draft}

/-- What is stored stays so while the tables are only extended. -/
theorem Stored.mono (h : d.Stored prim v k db) (hext : db.Extends db') : d.Stored prim v k db' :=
  ⟨h.sealed, h.even, h.fits, hext.versions _ _ h.version, fun c hc => hext.chunks _ _ (h.chunks c hc)⟩

/-- A stored draft is found under its identifier. -/
theorem Stored.selectVersion (h : d.Stored prim v k db) :
    db.selectVersion d.versionId = .ok d.storedVersion := by
  refine Database.selectVersion_eq_ok.mpr ⟨rfl, ?_, h.version⟩
  rw [h.sealed.toNat_plaintextLen]
  exact h.fits

/-- The chunks of a stored draft are read in their order. -/
theorem Stored.selectChunks (h : d.Stored prim v k db) (hdb : db.WellFormed prim) :
    db.selectChunks d.versionId =
      (encryptedChunks d.parts).map fun c => (sqlOfUInt32 c.index, c.toRow) := by
  have hlt := h.sealed.length_lt
  apply Database.selectChunks_eq
  · rw [List.pairwise_map]
    refine List.pairwise_iff_getElem.mpr fun i j hi hj hij => ?_
    simp only [length_encryptedChunks] at hi hj
    simp only [encryptedChunks, List.getElem_mapIdx]
    rw [sqlOfUInt32_ofNat (by omega), sqlOfUInt32_ofNat (by omega)]
    exact Int.ofNat_lt.mpr hij
  · intro i row
    constructor
    · intro hrow
      obtain ⟨c, hc, heq⟩ := List.mem_map.mp hrow
      obtain ⟨rfl, rfl⟩ := Prod.mk.inj heq
      exact h.chunks c hc
    · intro hrow
      -- there is a row only at the index of a chunk
      have hindex := (hdb.chunks _ _ h.version i).mp (by simp [hrow])
      have hcount : d.storedVersion.toRow.chunkCount = d.parts.length := sqlOfUInt32_ofNat hlt
      rw [hcount] at hindex
      obtain ⟨n, rfl⟩ := Int.eq_ofNat_of_zero_le hindex.1
      have hn : n < d.parts.length := by omega
      let c : EncryptedChunk := ⟨UInt32.ofNat n, (d.parts[n]).2⟩
      have hc : c ∈ encryptedChunks d.parts := List.mem_mapIdx.mpr ⟨n, hn, rfl⟩
      have hat : sqlOfUInt32 c.index = n := sqlOfUInt32_ofNat (hn.trans hlt)
      refine List.mem_map.mpr ⟨c, hc, Prod.ext hat ?_⟩
      have hlookup := h.chunks c hc
      rw [hat] at hlookup
      exact Option.some.inj (hlookup.symm.trans hrow)

/-! ### What the reader computes -/

/-- What was encrypted opens. -/
theorem openRecord_of_encrypt (hprim : prim.OpensSealed) {key : Block 32} {aad plaintext : Bytes}
    {r : SealedRecord} (h : prim.encrypt key.toList r.nonce aad plaintext = some r.ciphertext) :
    openRecord prim key.toList aad r = .ok plaintext := by
  have hlength : ¬key.toList.length ≠ 32 := by simp
  rw [openRecord, if_neg hlength, hprim.decrypt_encrypt h]

/-- The data key of a sealed draft opens. -/
theorem Sealed.openDataKey (hprim : prim.OpensSealed) (h : d.Sealed prim v k) :
    Vlt1.openDataKey prim k v d.objectId d.storedVersion = .ok d.dataKey := by
  obtain ⟨kek, hkek, hseal⟩ := h.dek
  refine except_bind_eq_ok.mpr ⟨kek, hkek, except_bind_eq_ok.mpr ⟨_, ?_, fixedBytes_toList _ _⟩⟩
  exact openRecord_of_encrypt hprim hseal

/-- The row of a sealed draft has the numbers of its Manifest. -/
theorem Sealed.validateManifestBinding (h : d.Sealed prim v k) :
    Vlt1.validateManifestBinding (d.contents prim) d.storedVersion = .ok () := by
  refine except_bind_eq_ok.mpr ⟨(), ensure_pos ⟨rfl, rfl, rfl, rfl, rfl, rfl⟩, ensure_pos ⟨h.size, ?_⟩⟩
  rw [UInt32.le_iff_toNat_le]
  exact h.toNat_chunkCount.trans_le h.count

/-- The manifest of a sealed draft opens, and says what was sealed. -/
theorem Sealed.openManifest (hprim : prim.OpensSealed) (h : d.Sealed prim v k) :
    Vlt1.openManifest prim d.dataKey v d.objectId d.storedVersion = .ok (d.contents prim) := by
  obtain ⟨key, hkey, hseal⟩ := h.manifest
  exact except_bind_eq_ok.mpr ⟨key, hkey, except_bind_eq_ok.mpr ⟨_, openRecord_of_encrypt hprim hseal,
    except_bind_eq_ok.mpr ⟨_, decodeManifest_encodeManifest _,
      except_bind_eq_ok.mpr ⟨(), h.validateManifestBinding, rfl⟩⟩⟩⟩

/-- The parts of an even draft are the segments of its plaintext. -/
theorem Even.part_eq (h : d.Even) {i : ℕ} {part : Bytes × SealedRecord} (hi : d.parts[i]? = some part) :
    d.parts.length = Chunks.count d.chunkSize.toNat d.plaintext.length ∧
      part.1 = Chunks.segment d.chunkSize.toNat d.plaintext i := by
  have hlength : d.parts.length = Chunks.count d.chunkSize.toNat d.plaintext.length := by
    simpa using congrArg List.length h
  have hat : (d.parts.map Prod.fst)[i]? = some part.1 := by rw [List.getElem?_map, hi]; rfl
  have hlt : i < d.parts.length := (List.getElem?_eq_some_iff.mp hi).1
  rw [h, Chunks.getElem?_chunks, if_pos (hlength ▸ hlt)] at hat
  exact ⟨hlength, (Option.some.inj hat).symm⟩

/-- The length the reader expects of a chunk is its length. -/
theorem Sealed.expectedPlaintextChunkLen (h : d.Sealed prim v k) (heven : d.Even) {i : ℕ}
    {part : Bytes × SealedRecord} (hi : d.parts[i]? = some part) :
    Vlt1.expectedPlaintextChunkLen (d.contents prim) (UInt32.ofNat i) =
      .ok (UInt32.ofNat part.1.length) := by
  obtain ⟨hlength, hpart⟩ := heven.part_eq hi
  have hlt : i < d.parts.length := (List.getElem?_eq_some_iff.mp hi).1
  have hpos : 0 < d.chunkSize.toNat := Nat.pos_of_ne_zero fun hzero => h.size (UInt32.toNat_inj.mp hzero)
  have hcount : (d.contents prim).chunkCount.toNat = d.parts.length := h.toNat_chunkCount
  have hlen : (d.contents prim).plaintextLen.toNat = d.plaintext.length := h.toNat_plaintextLen
  have hindex : (UInt32.ofNat i).toNat = i := by
    rw [UInt32.toNat_ofNat']
    exact Nat.mod_eq_of_lt (hlt.trans h.length_lt)
  have hshort : part.1.length ≤ d.chunkSize.toNat := hpart ▸ Chunks.length_segment_le i
  have hinside : ¬(d.contents prim).chunkCount ≤ UInt32.ofNat i := by
    rw [UInt32.le_iff_toNat_le, hcount, hindex]
    omega
  unfold Vlt1.expectedPlaintextChunkLen
  rw [if_neg hinside, hcount, hlen, hindex]
  by_cases hlast : i + 1 < d.parts.length
  · -- all chunks before the last are full
    rw [if_pos hlast, hpart, Chunks.length_segment_of_lt hpos (hlength ▸ hlast)]
    exact congrArg _ UInt32.ofNat_toNat.symm
  · -- the last chunk is the rest
    have hi : i + 1 = Chunks.count d.chunkSize.toNat d.plaintext.length := by omega
    have hbefore : d.chunkSize.toNat * (d.parts.length - 1) = i * d.chunkSize.toNat := by
      rw [hlength, ← hi, Nat.add_sub_cancel, Nat.mul_comm]
    have htail : d.plaintext.length - i * d.chunkSize.toNat = part.1.length := by
      rw [hpart, Chunks.length_segment_last hpos hi]
    have hle : i * d.chunkSize.toNat < d.plaintext.length :=
      Chunks.mul_lt_of_lt_count hpos (by omega)
    have hsize : d.chunkSize.toNat < 2 ^ 32 := d.chunkSize.toNat_lt
    simp only [show (d.contents prim).chunkSize = d.chunkSize from rfl]
    rw [if_neg hlast, hbefore, if_neg (by omega), htail, if_pos (by omega)]

end Draft

/-! ### Reliable surroundings -/

section

variable {ω α : Type} [Machine ω]

/-- From here on no storage step fails and no write is cut short. -/
def Machine.Reliable (o : ω) : Prop :=
  ∃ S : Set ω, o ∈ S ∧ ∀ x ∈ S, (Machine.fault x).1 = .none ∧ (∀ b, (Machine.write b x).1 = none) ∧
    (∀ y, Machine.Moves x y → y ∈ S) ∧ ∀ db, (Machine.interfere db x).2 ∈ S

namespace Machine.Reliable

variable {o o' : ω}

theorem fault_eq (h : Reliable o) : (Machine.fault o).1 = .none := by
  obtain ⟨S, ho, hS⟩ := h
  exact (hS o ho).1

theorem write_eq (h : Reliable o) (b : Bytes) : (Machine.write b o).1 = none := by
  obtain ⟨S, ho, hS⟩ := h
  exact (hS o ho).2.1 b

/-- A machine that is reliable stays so. -/
theorem move (h : Reliable o) (hmove : Machine.Moves o o') : Reliable o' := by
  obtain ⟨S, ho, hS⟩ := h
  exact ⟨S, (hS o ho).2.2.1 o' hmove, hS⟩

/-- Other processes do not make a machine unreliable. -/
theorem interfere (h : Reliable o) (db : Database) : Reliable (Machine.interfere db o).2 := by
  obtain ⟨S, ho, hS⟩ := h
  exact ⟨S, (hS o ho).2.2.2 db, hS⟩

end Machine.Reliable

/-- The vault in memory, the tables and what the writer has received, in reliable surroundings. -/
structure World.Shows (v : Vault) (db : Database) (sink : Bytes) (w : World ω) : Prop where
  vault : w.vault = v
  db : w.db = db
  sink : w.sink = sink
  reliable : Machine.Reliable w.outside

variable {v : Vault} {db : Database} {sink : Bytes}

/-- The Root Key of an unlocked vault is there. -/
theorem total_requireRootKey {rootKey : Block 32} (hkey : v.rootKey = some rootKey) :
    Op.Total (World.Shows (ω := ω) v db sink) requireRootKey
      fun k w => k = rootKey ∧ w.Shows v db sink := by
  intro w hw
  rw [requireRootKey_eq_ok.mpr ⟨hw.vault ▸ hkey, rfl⟩]
  exact ⟨rfl, hw⟩

/-- A reliable machine has no fault. -/
theorem total_storageFault :
    Op.Total (World.Shows (ω := ω) v db sink) storageFault fun _ => World.Shows v db sink := by
  intro w hw
  rw [storageFault_of_none hw.reliable.fault_eq]
  exact ⟨hw.vault, hw.db, hw.sink, hw.reliable.move (.fault _)⟩

variable [Exclusive ω]

theorem total_tables :
    Op.Total (World.Shows (ω := ω) v db sink) tables fun x w => x = db ∧ w.Shows v db sink := by
  intro w hw
  have hdb : (Machine.interfere w.db w.outside).1 = db := (Exclusive.interfere_fst _ _).trans hw.db
  exact ⟨hdb, hw.vault, hdb, hw.sink, hw.reliable.interfere _⟩

/-- A statement reads the tables. -/
theorem triple_query (body : Database → Except VaultError α) :
    Op.Triple (World.Shows (ω := ω) v db sink) (query body)
      (fun a w => body db = .ok a ∧ w.Shows v db sink)
      fun e w => ∃ e', e = some e' ∧ body db = .error e' ∧ w.Shows v db sink := by
  refine Op.Triple.bind (fun _ => World.Shows v db sink)
    (total_storageFault.triple _) fun _ => ?_
  refine Op.Triple.bind _ (total_tables.triple _) fun x => ?_
  refine Op.Triple.of_imp fun hx => ?_
  subst hx
  exact Op.Triple.ofExcept (fun a ha w hw => ⟨ha, hw⟩) fun e he w hw => ⟨e, rfl, he, hw⟩

/-- On a reliable machine a query returns what its body says. -/
theorem total_query {body : Database → Except VaultError α} {a : α} (h : body db = .ok a) :
    Op.Total (World.Shows (ω := ω) v db sink) (query body)
      fun x w => x = a ∧ w.Shows v db sink := by
  refine (triple_query body).conseq (fun _ h => h) ?_ ?_
  · rintro x w ⟨hx, hw⟩
    exact ⟨Except.ok.inj (hx.symm.trans h), hw⟩
  · rintro e w ⟨e', -, he, -⟩
    cases he.symm.trans h

/-- A statement that the tables make fail fails, and changes nothing. -/
theorem triple_query_error {body : Database → Except VaultError α} {e : VaultError}
    (h : body db = .error e) :
    Op.Triple (World.Shows (ω := ω) v db sink) (query body) (fun _ _ => False)
      fun stop w => stop = some e ∧ w.Shows v db sink := by
  refine (triple_query body).conseq (fun _ h => h) ?_ ?_
  · rintro a w ⟨ha, -⟩
    cases ha.symm.trans h
  · rintro stop w ⟨e', rfl, he, hw⟩
    exact ⟨congrArg some (Except.error.inj (he.symm.trans h)), hw⟩

/-- The active objects are listed. -/
theorem total_activeObjectIds {ids : List ObjectId}
    (hids : db.selectObjectKeys = ids.map Identifier.blob) :
    Op.Total (World.Shows (ω := ω) v db sink) activeObjectIds
      fun listed w => listed = ids ∧ w.Shows v db sink := by
  have hquery : Op.Total (World.Shows (ω := ω) v db sink)
      (query fun db => .ok db.selectObjectKeys)
      fun keys w => keys = db.selectObjectKeys ∧ w.Shows v db sink := total_query rfl
  refine Op.Triple.bind _ hquery fun keys => ?_
  refine Op.Triple.of_imp fun hkeys => ?_
  rw [hkeys, hids, Identifier.mapM_fromSlice_eq_ok.mpr rfl, Op.ofExcept_ok]
  exact Op.Triple.pure fun _ hw => ⟨rfl, hw⟩

/-- The active version is read through its pointer. -/
theorem total_activeVersion {o : ObjectId} {version : StoredVersion}
    (hactive : db.selectActive o = .ok version.versionId)
    (hversion : db.selectVersion version.versionId = .ok version) :
    Op.Total (World.Shows (ω := ω) v db sink) (activeVersion o)
      fun x w => x = version ∧ w.Shows v db sink := by
  refine Op.Triple.bind _ (total_query hactive) fun u => ?_
  refine Op.Triple.of_imp fun heq => ?_
  subst heq
  exact total_query hversion

/-- The receipt of the active version is read. -/
theorem total_activeReceipt {prim : Primitives} {o : ObjectId} {version : StoredVersion}
    {receipt : Option WitnessReceipt} (hactive : db.selectActive o = .ok version.versionId)
    (hversion : db.selectVersion version.versionId = .ok version)
    (hreceipt : db.selectReceipt prim version.versionId = .ok receipt) :
    Op.Total (World.Shows (ω := ω) v db sink) (activeReceipt prim o)
      fun r w => r = receipt ∧ w.Shows v db sink := by
  intro w hw
  obtain ⟨x, w', hout, rfl, hw'⟩ := (total_activeVersion hactive hversion).eq_ok hw
  unfold activeReceipt
  rw [hout]
  exact total_query hreceipt w' hw'

/-- A transaction whose statements go through commits. -/
theorem total_transaction {body : Database → Except VaultError Database} {db' : Database}
    (h : body db = .ok db') :
    Op.Total (World.Shows (ω := ω) v db sink) (transaction body)
      fun _ => World.Shows v db' sink := by
  refine Op.Triple.bind _ total_storageFault fun _ => ?_
  refine Op.Triple.bind _ total_tables fun x => ?_
  refine Op.Triple.of_imp fun hx => ?_
  subst hx
  rw [h, Op.ofExcept_ok, Op.pure_bind]
  exact fun w hw => ⟨hw.vault, rfl, hw.sink, hw.reliable⟩

/-- Visit the stored chunks in order; `inv i` holds before the chunk at index `i`. -/
theorem total_visitChunks {β : Type} {u : VersionId} {visit : β → EncryptedChunk → VaultOp ω β}
    {init : β} {chunks : List EncryptedChunk} (sinkAt : ℕ → Bytes) {inv : ℕ → β → Prop}
    (hrows : db.selectChunks u = chunks.map fun c => (sqlOfUInt32 c.index, c.toRow))
    (hvisit : ∀ i c b, chunks[i]? = some c → inv i b →
      Op.Total (World.Shows (ω := ω) v db (sinkAt i)) (visit b c)
        fun b' w => inv (i + 1) b' ∧ w.Shows v db (sinkAt (i + 1)))
    (hinit : inv 0 init) :
    Op.Total (World.Shows v db (sinkAt 0)) (visitChunks u visit init)
      fun b w => inv chunks.length b ∧ w.Shows v db (sinkAt chunks.length) := by
  let rows := chunks.map fun c => (sqlOfUInt32 c.index, c.toRow)
  let I (done rest : List (ℤ × ChunkRow)) (b : β) (w : World ω) : Prop :=
    done ++ rest = rows ∧ inv done.length b ∧ w.Shows v db (sinkAt done.length)
  refine Op.Triple.bind _ (total_query (by rw [hrows])) fun rows' => ?_
  refine Op.Triple.of_imp fun heq => ?_
  subst heq
  refine (Op.Triple.fold (I := I) ?_ [] rows init).conseq (fun w hw => ⟨rfl, hinit, hw⟩) ?_
    fun _ _ h => h
  · intro done row rest b
    refine Op.Triple.of_imp fun hall => Op.Triple.of_imp fun hb => ?_
    -- the row is that of the chunk at this index
    have hat : rows[done.length]? = some row := by
      rw [← hall, List.getElem?_append_right le_rfl, Nat.sub_self, List.getElem?_cons_zero]
    rw [List.getElem?_map] at hat
    obtain ⟨c, hc, rfl⟩ := Option.map_eq_some_iff.mp hat
    refine Op.Triple.bind _ total_storageFault fun _ => ?_
    rw [readChunkRow_toRow, Op.ofExcept_ok, Op.pure_bind]
    refine (hvisit _ c b hc hb).mono_post fun b' w hw => ?_
    refine ⟨by simpa using hall, ?_⟩
    rw [List.length_append]
    exact hw
  · rintro b w ⟨hall, hb, hw⟩
    have hlength : rows.length = chunks.length := List.length_map _
    rw [List.append_nil] at hall
    rw [hall, hlength] at hb hw
    exact ⟨hb, hw⟩

variable {prim : Primitives} {d : Draft} {vaultId : VaultId} {rootKey : Block 32}

omit [Machine ω] [Exclusive ω] in
/-- The chunk at an index. -/
theorem getElem?_encryptedChunks {parts : List (Bytes × SealedRecord)} {i : ℕ} {c : EncryptedChunk}
    (h : (encryptedChunks parts)[i]? = some c) :
    ∃ part, parts[i]? = some part ∧ c = ⟨UInt32.ofNat i, part.2⟩ := by
  rw [encryptedChunks, List.getElem?_mapIdx] at h
  obtain ⟨part, hpart, rfl⟩ := Option.map_eq_some_iff.mp h
  exact ⟨part, hpart, rfl⟩

omit [Machine ω] [Exclusive ω] in
/-- One more element is taken. -/
theorem take_succ_of_getElem? {β : Type} {l : List β} {i : ℕ} {a : β} (h : l[i]? = some a) :
    l.take (i + 1) = l.take i ++ [a] := by
  rw [List.take_add_one, h]
  rfl

/-- The digest pass accepts a stored draft. -/
theorem total_digestPass (hdb : db.WellFormed prim) (hd : d.Stored prim vaultId rootKey db) :
    Op.Total (World.Shows (ω := ω) v db sink) (digestPass prim d.versionId (d.contents prim))
      fun _ => World.Shows v db sink := by
  -- before the chunk at index `i`, the digest is that of the chunks before it
  let inv (i : ℕ) (b : ChunkDigestBuilder × UInt32) : Prop :=
    b = (digestOf (d.parts.take i), UInt32.ofNat i)
  have hvisit : ∀ i c b, (encryptedChunks d.parts)[i]? = some c → inv i b →
      Op.Total (World.Shows (ω := ω) v db sink) (digestVisit b c)
        fun b' w => inv (i + 1) b' ∧ w.Shows v db sink := by
    rintro i c b hc rfl
    obtain ⟨part, hpart, rfl⟩ := getElem?_encryptedChunks hc
    have hi : i < d.parts.length := (List.getElem?_eq_some_iff.mp hpart).1
    have hlt := hd.sealed.count
    have hnext : ∀ e, checkedAdd32 (UInt32.ofNat i) 1 e = .ok (UInt32.ofNat (i + 1)) := by
      intro e
      have hsmall : (UInt32.ofNat i).toNat + (1 : UInt32).toNat < 2 ^ 32 := by
        rw [UInt32.toNat_ofNat']
        have : i % 2 ^ 32 ≤ i := Nat.mod_le _ _
        have hbound : maxChunksPerVersion.toNat = 16777216 := rfl
        have hone : (1 : UInt32).toNat = 1 := rfl
        omega
      rw [checkedAdd32, if_pos hsmall, UInt32.ofNat_add]
      rfl
    unfold digestVisit
    rw [Op.require_pos rfl, Op.pure_bind, hnext, Op.ofExcept_ok, Op.pure_bind]
    refine Op.Triple.pure fun w hw => ⟨?_, hw⟩
    show _ = _
    rw [take_succ_of_getElem? hpart, digestOf_concat, List.length_take, Nat.min_eq_left hi.le]
  refine Op.Triple.bind _ (total_visitChunks (fun _ => sink) (hd.selectChunks hdb) hvisit
    (by simp [inv, digestOf, encryptedChunks])) fun b => ?_
  refine Op.Triple.of_imp fun hb => ?_
  rw [length_encryptedChunks] at hb
  obtain rfl : b = _ := hb
  refine Op.Triple.bind_require (fun _ => ?_) fun _ hne _ => hne rfl
  refine Op.Triple.require (fun _ _ hw => hw) fun hne _ _ => hne ?_
  rw [List.take_length]
  rfl

/-- What a writer has received after it was given some bytes. -/
def Writer.received (writer : Writer) (sink bytes : Bytes) : Bytes :=
  match writer with
  | .discard => sink
  | _ => sink ++ bytes

omit [Machine ω] [Exclusive ω] in
/-- Two parts are received as one. -/
theorem Writer.received_append (writer : Writer) (sink a b : Bytes) :
    writer.received (writer.received sink a) b = writer.received sink (a ++ b) := by
  cases writer <;> simp [Writer.received]

omit [Exclusive ω] in
/-- On a reliable machine all the bytes are written. -/
theorem total_writeAll (writer : Writer) (part : Bytes) :
    Op.Total (World.Shows (ω := ω) v db sink) (writer.writeAll part)
      fun _ => World.Shows v db (writer.received sink part) := by
  intro w hw
  cases writer with
  | vector => exact ⟨hw.vault, hw.db, congrArg (· ++ part) hw.sink, hw.reliable⟩
  | discard => exact hw
  | stream =>
    have hstep : Writer.stream.writeAll part w = .ok () { w with
        outside := (Machine.write part w.outside).2
        sink := w.sink ++ part } := by
      simp only [Writer.writeAll, Op.bind_apply, interact, hw.reliable.write_eq]
      rfl
    rw [hstep]
    exact ⟨hw.vault, hw.db, congrArg (· ++ part) hw.sink, hw.reliable.move (.write _ _)⟩

/-- The decryption pass writes the plaintext of a stored draft. -/
theorem total_decryptPass (hprim : prim.OpensSealed) (hdb : db.WellFormed prim)
    (hd : d.Stored prim vaultId rootKey db) (writer : Writer) :
    Op.Total (World.Shows (ω := ω) v db sink)
      (decryptPass prim vaultId d.objectId d.versionId d.dataKey (d.contents prim) writer)
      fun _ => World.Shows v db (writer.received sink d.plaintext) := by
  -- before the chunk at index `i`, the plaintext of the chunks before it is written
  let before (i : ℕ) : Bytes := ((d.parts.take i).map Prod.fst).flatten
  let inv (i : ℕ) (written : UInt64) : Prop := written.toNat = (before i).length
  have hbefore : ∀ {i part}, d.parts[i]? = some part → before (i + 1) = before i ++ part.1 := by
    intro i part hpart
    show ((d.parts.take (i + 1)).map Prod.fst).flatten = _
    rw [take_succ_of_getElem? hpart]
    simp [before]
  have hall : before d.parts.length = d.plaintext := by
    show ((d.parts.take d.parts.length).map Prod.fst).flatten = _
    rw [List.take_length]
    rfl
  have hvisit : ∀ i c written, (encryptedChunks d.parts)[i]? = some c → inv i written →
      Op.Total (World.Shows (ω := ω) v db (writer.received sink (before i)))
        (decryptVisit prim vaultId d.objectId d.versionId d.dataKey (d.contents prim) writer written c)
        fun written' w => inv (i + 1) written' ∧
          w.Shows v db (writer.received sink (before (i + 1))) := by
    intro i c written hc hwritten
    obtain ⟨part, hpart, rfl⟩ := getElem?_encryptedChunks hc
    obtain ⟨hshort, hseal⟩ := hd.sealed.parts i part hpart
    have hlen : (UInt32.ofNat part.1.length).toNat = part.1.length := by
      rw [UInt32.toNat_ofNat']
      exact Nat.mod_eq_of_lt hshort
    unfold decryptVisit
    rw [hd.sealed.expectedPlaintextChunkLen hd.even hpart, Op.ofExcept_ok, Op.pure_bind,
      Draft.openRecord_of_encrypt hprim hseal, Op.ofExcept_ok, Op.pure_bind,
      Op.require_pos hlen.symm, Op.pure_bind]
    refine Op.Triple.bind _ (total_writeAll writer part.1) fun _ => ?_
    rw [Writer.received_append, ← hbefore hpart]
    -- the length written stays below that of the plaintext
    have hsum : written.toNat + (UInt32.ofNat part.1.length).toUInt64.toNat =
        (before (i + 1)).length := by
      rw [hbefore hpart, List.length_append, ← hwritten, UInt32.toNat_toUInt64, hlen]
    have hbound : (before (i + 1)).length < 2 ^ 64 := by
      refine lt_of_le_of_lt ?_ hd.sealed.len
      have hsplit : d.plaintext = before (i + 1) ++ ((d.parts.drop (i + 1)).map Prod.fst).flatten := by
        rw [← List.flatten_append, ← List.map_append, List.take_append_drop]
        rfl
      rw [hsplit, List.length_append]
      exact Nat.le_add_right _ _
    rw [checkedAdd64, if_pos (hsum ▸ hbound), Op.ofExcept_ok]
    refine Op.Triple.pure fun w hw => ⟨?_, hw⟩
    show (written + _).toNat = _
    rw [UInt64.toNat_add, hsum]
    exact Nat.mod_eq_of_lt hbound
  have hnone : writer.received sink (before 0) = sink := by
    cases writer <;> simp [Writer.received, before]
  refine Op.Triple.bind _ ((total_visitChunks (fun i => writer.received sink (before i))
    (hd.selectChunks hdb) hvisit (show inv 0 0 from rfl)).mono_pre
      fun w hw => hnone.symm ▸ hw) fun written => ?_
  refine Op.Triple.of_imp fun hwritten => ?_
  rw [length_encryptedChunks] at hwritten ⊢
  rw [hall]
  refine Op.Triple.require (fun _ _ hw => hw) fun hne _ _ => hne (UInt64.toNat_inj.mp ?_)
  rw [show written.toNat = _ from hwritten, hall]
  exact hd.sealed.toNat_plaintextLen.symm

/-- A stored draft that its object points at, acknowledged by the receipt stored with it, if there is
one. -/
structure Draft.Readable (prim : Primitives) (vaultId : VaultId) (rootKey : Block 32) (db : Database)
    (d : Draft) : Prop extends d.Stored prim vaultId rootKey db where
  active : db.objects.lookup d.objectId.blob = some d.versionId.blob
  acknowledged : db.selectReceipt prim d.versionId = .ok none ∨
    ∃ r, db.selectReceipt prim d.versionId = .ok (some r) ∧ r.verifyRequest prim
      (WitnessRequest.new prim vaultId d.objectId d.versionId d.manifest) = .ok ()

/-- A readable draft has no receipt, or its own. -/
theorem total_checkStoredReceipt (hd : d.Readable prim vaultId rootKey db) :
    Op.Total (World.Shows (ω := ω) v db sink)
      (checkStoredReceipt prim vaultId d.objectId d.storedVersion)
      fun _ => World.Shows v db sink := by
  rcases hd.acknowledged with hnone | ⟨r, hsome, hverify⟩
  · refine Op.Triple.bind _ (total_query hnone) fun receipt => Op.Triple.of_imp fun heq => ?_
    subst heq
    exact Op.Triple.pure fun _ hw => hw
  · refine Op.Triple.bind _ (total_query hsome) fun receipt => Op.Triple.of_imp fun heq => ?_
    subst heq
    refine Op.Triple.ofExcept (fun _ _ _ hw => hw) fun e he _ _ => ?_
    cases he.symm.trans hverify

/-- A readable draft is written in full. -/
theorem total_getToWriterInner (hprim : prim.OpensSealed) (hdb : db.WellFormed prim)
    (hd : d.Readable prim vaultId rootKey db) (hkey : v.rootKey = some rootKey)
    (hid : v.envelope.vaultId = vaultId) (writer : Writer) :
    Op.Total (World.Shows (ω := ω) v db sink) (getToWriterInner prim d.objectId writer)
      fun _ => World.Shows v db (writer.received sink d.plaintext) := by
  refine Op.Triple.bind _ (total_requireRootKey hkey) fun k => ?_
  refine Op.Triple.of_imp fun heq => ?_
  subst heq
  refine Op.Triple.bind (fun version w => version = d.storedVersion ∧ w.Shows v db sink)
    (total_activeVersion (Database.selectActive_eq_ok.mpr hd.active) hd.selectVersion) fun version => ?_
  refine Op.Triple.of_imp fun heq => ?_
  subst heq
  rw [Op.require_pos (show d.storedVersion.objectId = d.objectId from rfl), Op.pure_bind]
  refine Op.Triple.bind_get fun w0 hw0 => ?_
  have hvaultId : w0.vaultId = vaultId := by rw [World.vaultId, hw0.vault, hid]
  rw [hvaultId]
  dsimp only
  rw [hd.sealed.openDataKey hprim, Op.ofExcept_ok, Op.pure_bind,
    hd.sealed.openManifest hprim, Op.ofExcept_ok, Op.pure_bind]
  refine Op.Triple.bind _ ((total_checkStoredReceipt hd).mono_pre fun w hw => hw ▸ hw0) fun _ => ?_
  refine Op.Triple.bind _ (total_digestPass hdb hd.toStored) fun _ => ?_
  exact total_decryptPass hprim hdb hd.toStored writer

/-- An object without an active version that could be read is not found, and nothing is written. -/
theorem triple_getToWriterInner_notFound {o : ObjectId} (hkey : v.rootKey = some rootKey)
    (ho : db.Missing o) (writer : Writer) :
    Op.Triple (World.Shows (ω := ω) v db sink) (getToWriterInner prim o writer) (fun _ _ => False)
      fun e w => e = some .notFound ∧ w.Shows v db sink := by
  refine Op.Triple.bind _ ((total_requireRootKey hkey).triple _) fun k => ?_
  refine Op.Triple.of_imp fun _ => ?_
  refine Op.Triple.bind (fun _ _ => False) ?_ fun _ _ h => h.elim
  rcases ho with hnone | ⟨u, hactive, hnone⟩
  · -- the pointer is missing
    have hactive : db.selectActive o = .error .notFound := by
      rw [Database.selectActive, hnone]
    exact Op.Triple.bind _ (triple_query_error hactive) fun _ _ h => h.elim
  · -- the pointer is there, and the row it names is missing
    have hversion : db.selectVersion u = .error .notFound := by
      rw [Database.selectVersion, hnone]
    refine Op.Triple.bind _ ((total_query hactive).triple _) fun x => ?_
    refine Op.Triple.of_imp fun heq => ?_
    subst heq
    exact triple_query_error hversion

end

end Vlt1

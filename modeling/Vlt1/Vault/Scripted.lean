import Vlt1.Cde
import Vlt1.Vault.Putting

/-!
# Publications that go through

The other modules say what a publication has done if it returned. Here is the converse: when the
storage works, the primitives seal, and the random generator returns given values
(`Machine.Follows`), sealing and storing succeed, and the draft that is stored is the one the values
determine (`Choices.draft`).

The order in which a path draws its values is its script. The storage accepts the values
(`Database.Accepts`) when the version identifier is new and no two chunks share a nonce; the tables have
`UNIQUE` constraints for both.
-/

namespace Vlt1

open Effect

/-- The documented behaviour of AES-256-GCM-SIV and HKDF-SHA-256 on the inputs of a vault: 32-byte keys
and plaintexts within the limit of the AEAD, and 32 bytes of output. -/
structure Primitives.Seals (prim : Primitives) : Prop where
  encrypt : ∀ {key : Bytes} (nonce : Block 12) (aad : Bytes) {plaintext : Bytes},
    key.length = 32 → plaintext.length ≤ 2 ^ 36 →
      (prim.encrypt key nonce aad plaintext).isSome = true
  hkdf : ∀ salt ikm label, (prim.hkdf salt ikm label).isSome = true

/-- The random values of one publication. -/
structure Choices where
  versionId : VersionId
  dataKey : Block 32
  dekNonce : Block 12
  manifestNonce : Block 12
  /-- The nonce of the chunk at each index. -/
  chunkNonce : ℕ → Block 12

namespace Choices

variable (c : Choices)

/-- The nonces of `n` chunks from an index on. -/
def chunkNonces (start n : ℕ) : List Bytes :=
  (List.range' start n).map fun i => (c.chunkNonce i).toList

/-- The order in which `put` draws the values for `n` chunks. -/
def bufferedScript (n : ℕ) : List Bytes :=
  c.versionId.blob :: c.dataKey.toList ::
    (c.chunkNonces 0 n ++ [c.manifestNonce.toList, c.dekNonce.toList])

/-- The order in which `put_from_reader` draws them: the DEK is wrapped first. -/
def streamedScript (n : ℕ) : List Bytes :=
  c.versionId.blob :: c.dataKey.toList :: c.dekNonce.toList ::
    (c.chunkNonces 0 n ++ [c.manifestNonce.toList])

end Choices

/-- The tables take a version with these values and `n` chunks. -/
structure Database.Accepts (db : Database) (c : Choices) (n : ℕ) : Prop where
  fresh : db.versions.lookup c.versionId.blob = none
  unused : ∀ r ∈ db.chunks.rows, r.1.1 ≠ c.versionId.blob
  distinct : ∀ i < n, ∀ j < n, c.chunkNonce i = c.chunkNonce j → i = j

/-! ### The draft that the values determine -/

section

variable (prim : Primitives)

/-- The record of a plaintext under a given nonce. -/
def sealedWith (key : Bytes) (nonce : Block 12) (aad plaintext : Bytes) : SealedRecord :=
  ⟨nonce, (prim.encrypt key nonce aad plaintext).getD []⟩

variable (vaultId : VaultId) (o : ObjectId) (c : Choices)

/-- The record of the chunk at an index. -/
def Choices.chunkRecord (i : ℕ) (piece : Bytes) : SealedRecord :=
  sealedWith prim c.dataKey.toList (c.chunkNonce i)
    (chunkAad vaultId o c.versionId (UInt32.ofNat i) (UInt32.ofNat piece.length)) piece

/-- The pieces of a plaintext with their records. -/
def Choices.parts (pieces : List Bytes) : List (Bytes × SealedRecord) :=
  pieces.mapIdx fun i piece => (piece, c.chunkRecord prim vaultId o i piece)

/-- The draft of the pieces, under a key-encryption key and a Manifest key. -/
def Choices.draft (kek manifestKey : Block 32) (size : UInt32) (pieces : List Bytes) : Draft :=
  let d : Draft :=
    { objectId := o
      versionId := c.versionId
      dataKey := c.dataKey
      wrappedDek := sealedWith prim kek.toList c.dekNonce (wrappedDekAad vaultId o c.versionId)
        c.dataKey.toList
      manifest := ⟨c.manifestNonce, []⟩
      chunkSize := size
      parts := c.parts prim vaultId o pieces }
  { d with
    manifest := sealedWith prim manifestKey.toList c.manifestNonce (manifestAad vaultId o c.versionId)
      (encodeManifest (d.contents prim)) }

end

section

variable {prim : Primitives} {vaultId : VaultId} {o : ObjectId} {c : Choices} {rootKey : Block 32}

/-- Within the cipher's limits a record is sealed. -/
theorem encrypt_sealedWith (hprim : prim.Seals) {key aad plaintext : Bytes} {nonce : Block 12}
    (hkey : key.length = 32) (hlen : plaintext.length ≤ 2 ^ 36) :
    prim.encrypt key nonce aad plaintext =
      some (sealedWith prim key nonce aad plaintext).ciphertext := by
  obtain ⟨ciphertext, h⟩ := Option.isSome_iff_exists.mp (hprim.encrypt nonce aad hkey hlen)
  rw [sealedWith, h]
  rfl

/-- A key can always be derived. -/
theorem exists_deriveDomainKey (hprim : prim.Seals) (root : Block 32) (salt label : Bytes) :
    ∃ key, deriveDomainKey prim root salt label = .ok key := by
  obtain ⟨key, h⟩ := Option.isSome_iff_exists.mp (hprim.hkdf salt root.toList label)
  exact ⟨key, by rw [deriveDomainKey, h]⟩

@[simp] theorem Choices.length_parts (pieces : List Bytes) :
    (c.parts prim vaultId o pieces).length = pieces.length := by
  simp [Choices.parts]

@[simp] theorem Choices.map_fst_parts (pieces : List Bytes) :
    (c.parts prim vaultId o pieces).map Prod.fst = pieces := by
  apply List.ext_getElem?
  intro i
  cases hi : pieces[i]? <;> simp [Choices.parts, hi]

/-- One more piece is sealed as the next chunk. -/
theorem Choices.parts_concat (pieces : List Bytes) (piece : Bytes) :
    c.parts prim vaultId o (pieces ++ [piece]) =
      c.parts prim vaultId o pieces ++
        [(piece, c.chunkRecord prim vaultId o pieces.length piece)] := by
  simp [Choices.parts, List.mapIdx_append]

/-- The chunks sealed with these choices are those of a version. -/
theorem Choices.sealsParts (hprim : prim.Seals) {pieces : List Bytes}
    (hpieces : ∀ piece ∈ pieces, piece.length < 2 ^ 32) :
    SealsParts prim vaultId o c.versionId c.dataKey (c.parts prim vaultId o pieces) := by
  intro i part hi
  rw [Choices.parts, List.getElem?_mapIdx] at hi
  obtain ⟨piece, hpiece, rfl⟩ := Option.map_eq_some_iff.mp hi
  have hlen := hpieces piece (List.mem_of_getElem? hpiece)
  have hlimit : piece.length ≤ 2 ^ 36 := by omega
  exact ⟨hlen, encrypt_sealedWith hprim c.dataKey.length_toList hlimit⟩

/-- Bounded pieces have a bounded length together. -/
theorem length_flatten_le {pieces : List Bytes} {bound : ℕ}
    (h : ∀ piece ∈ pieces, piece.length ≤ bound) :
    pieces.flatten.length ≤ pieces.length * bound := by
  induction pieces with
  | nil => simp
  | cons piece pieces ih =>
    have hhead := h piece List.mem_cons_self
    have htail := ih fun p hp => h p (List.mem_cons_of_mem _ hp)
    rw [List.flatten_cons, List.length_append, List.length_cons, Nat.add_mul, Nat.one_mul]
    omega

/-- A CBOR head takes at most nine bytes. -/
theorem length_putMajorUint_le (major : UInt8) (value : UInt64) :
    (putMajorUint major value).length ≤ 9 := by
  unfold putMajorUint
  split
  · simp
  · split
    · simp
    · split
      · simp
      · split <;> simp

/-- A Manifest is a short record. -/
theorem length_encodeManifest_le (m : Manifest) : (encodeManifest m).length ≤ 256 := by
  have h := length_putMajorUint_le
  have h1 := h 0 m.formatVersion.toUInt64
  have h2 := h 2 (UInt64.ofNat m.objectId.blob.length)
  have h3 := h 2 (UInt64.ofNat m.versionId.blob.length)
  have h4 := h 0 m.plaintextLen
  have h5 := h 0 m.chunkSize.toUInt64
  have h6 := h 0 m.chunkCount.toUInt64
  have h7 := h 2 (UInt64.ofNat m.chunkDigest.toList.length)
  have h8 := h 0 1
  simp only [encodeManifest, encodeEntries, putUint, putBytes, List.length_cons, List.length_append,
    Identifier.length_blob, Block.length_toList] at *
  omega

/-- The draft is sealed. -/
theorem Choices.sealed_draft (hprim : prim.Seals) {kek manifestKey : Block 32} {size : UInt32}
    {pieces : List Bytes} (hkek : deriveKek prim rootKey vaultId = .ok kek)
    (hmanifest : deriveManifestKey prim c.dataKey c.versionId = .ok manifestKey) (hsize : size ≠ 0)
    (hcount : pieces.length ≤ maxChunksPerVersion.toNat)
    (hpieces : ∀ piece ∈ pieces, piece.length < 2 ^ 32) :
    (c.draft prim vaultId o kek manifestKey size pieces).Sealed prim vaultId rootKey where
  size := hsize
  count := by rw [Choices.draft, Choices.length_parts]; exact hcount
  len := by
    have hbound : maxChunksPerVersion.toNat = 16777216 := rfl
    have hle := length_flatten_le fun piece hp => Nat.le_of_lt (hpieces piece hp)
    rw [Draft.plaintext, Choices.draft, Choices.map_fst_parts]
    omega
  dek := ⟨kek, hkek, encrypt_sealedWith hprim kek.length_toList (by simp)⟩
  manifest := ⟨manifestKey, hmanifest, encrypt_sealedWith hprim manifestKey.length_toList
    ((length_encodeManifest_le _).trans (by omega))⟩
  parts := Choices.sealsParts hprim hpieces

end

/-! ### What the tables accept -/

namespace Database

variable {db : Database} {c : Choices} {n : ℕ} {prim : Primitives} {vaultId : VaultId} {o : ObjectId}

/-- The rows of a version are those stored before and those inserted. -/
theorem mem_rows_insertRows {u : VersionId} {t : Table (Bytes × ℤ) ChunkRow}
    {chunks : List EncryptedChunk} {r : (Bytes × ℤ) × ChunkRow}
    (h : r ∈ (insertRows u t chunks).rows) :
    r ∈ t.rows ∨ ∃ chunk ∈ chunks, r = ((u.blob, sqlOfUInt32 chunk.index), chunk.toRow) := by
  induction chunks using List.reverseRecOn with
  | nil => exact .inl h
  | append_singleton chunks chunk ih =>
    obtain ⟨key, row⟩ := r
    rw [insertRows_concat] at h
    have hlookup := Table.mem_rows.mp h
    rw [Table.lookup_insert_eq] at hlookup
    split at hlookup
    · rename_i hkey
      obtain rfl := Option.some.inj hlookup
      exact .inr ⟨chunk, by simp, by rw [hkey]⟩
    · refine (ih (Table.mem_rows.mpr hlookup)).imp_right fun ⟨chunk', hchunk, hr⟩ => ?_
      exact ⟨chunk', by simp [hchunk], hr⟩

/-- The chunk rows of the first pieces are in, and the next one is accepted. -/
theorem Accepts.insertChunk (h : db.Accepts c n) {pieces : List Bytes} {piece : Bytes}
    {versions : Table Bytes VersionRow} (hversion : versions.lookup c.versionId.blob ≠ none)
    (hn : pieces.length < n) (hcount : pieces.length < 2 ^ 32) :
    Database.insertChunk { db with
        versions := versions
        chunks := insertRows c.versionId db.chunks
          (encryptedChunks (c.parts prim vaultId o pieces)) }
      c.versionId ⟨UInt32.ofNat pieces.length, c.chunkRecord prim vaultId o pieces.length piece⟩ =
        .ok { db with
          versions := versions
          chunks := insertRows c.versionId db.chunks
            (encryptedChunks (c.parts prim vaultId o (pieces ++ [piece]))) } := by
  -- each row of the version has a smaller index and the nonce of that index
  have hearlier : ∀ chunk ∈ encryptedChunks (c.parts prim vaultId o pieces), ∃ i < pieces.length,
      chunk.index = UInt32.ofNat i ∧ chunk.record.nonce = c.chunkNonce i := by
    intro chunk hchunk
    obtain ⟨i, hi⟩ := List.mem_iff_getElem?.mp hchunk
    simp only [encryptedChunks, Choices.parts, List.getElem?_mapIdx, Option.map_map] at hi
    obtain ⟨p, hp, rfl⟩ := Option.map_eq_some_iff.mp hi
    exact ⟨i, (List.getElem?_eq_some_iff.mp hp).1, rfl, rfl⟩
  have hofNat : ∀ i < 2 ^ 32, (UInt32.ofNat i).toNat = i := fun i hi => by
    rw [UInt32.toNat_ofNat']
    exact Nat.mod_eq_of_lt hi
  refine insertChunk_eq_ok.mpr ⟨?_, ?_, hversion, ?_⟩
  · rw [lookup_insertRows_of_ne]
    · by_contra hsome
      obtain ⟨row, hrow⟩ := Option.ne_none_iff_exists'.mp hsome
      exact h.unused _ (Table.mem_rows.mpr hrow) rfl
    · intro chunk hchunk hkey
      obtain ⟨i, hi, hindex, -⟩ := hearlier chunk hchunk
      have heq := congrArg UInt32.toNat (sqlOfUInt32_inj (Prod.mk.inj hkey).2)
      rw [hindex, hofNat _ hcount, hofNat i (by omega)] at heq
      omega
  · intro r hr hkey
    rcases mem_rows_insertRows hr with hold | ⟨chunk, hchunk, rfl⟩
    · exact absurd hkey (h.unused r hold)
    · obtain ⟨i, hi, -, hnonce⟩ := hearlier chunk hchunk
      intro heq
      have hsame : c.chunkNonce i = c.chunkNonce pieces.length := by
        rw [← hnonce]
        exact Block.toList_inj.mp heq
      exact absurd (h.distinct i (by omega) _ hn hsame) (by omega)
  · rw [Choices.parts_concat, encryptedChunks_concat, insertRows_concat, Choices.length_parts]

/-- All chunk rows are accepted, one after another. -/
theorem Accepts.insertChunks (h : db.Accepts c n) {versions : Table Bytes VersionRow}
    (hversion : versions.lookup c.versionId.blob ≠ none) (done rest : List Bytes)
    (hn : (done ++ rest).length ≤ n) (hcount : (done ++ rest).length < 2 ^ 32) :
    insertChunks c.versionId { db with
        versions := versions
        chunks := insertRows c.versionId db.chunks (encryptedChunks (c.parts prim vaultId o done)) }
      ((encryptedChunks (c.parts prim vaultId o (done ++ rest))).drop done.length) =
        .ok { db with
          versions := versions
          chunks := insertRows c.versionId db.chunks
            (encryptedChunks (c.parts prim vaultId o (done ++ rest))) } := by
  induction rest generalizing done with
  | nil =>
    rw [List.append_nil, List.drop_of_length_le (by simp)]
    rfl
  | cons piece rest ih =>
    have hsplit : done ++ piece :: rest = done ++ [piece] ++ rest := by simp
    have hlength : (done ++ piece :: rest).length = done.length + 1 + rest.length := by
      simp
      omega
    have hdrop : (encryptedChunks (c.parts prim vaultId o (done ++ piece :: rest))).drop
        done.length = ⟨UInt32.ofNat done.length, c.chunkRecord prim vaultId o done.length piece⟩ ::
          (encryptedChunks (c.parts prim vaultId o (done ++ [piece] ++ rest))).drop
            (done ++ [piece]).length := by
      rw [hsplit, List.length_append, List.length_singleton]
      refine (List.drop_eq_getElem_cons (by simp)).trans ?_
      congr 1
      simp [encryptedChunks, Choices.parts]
    rw [hdrop, Database.insertChunks, h.insertChunk hversion (by omega) (by omega)]
    refine (ih (done ++ [piece]) (by rw [← hsplit]; exact hn) (by rw [← hsplit]; exact hcount)).trans ?_
    rw [hsplit]

/-- The transaction of a prepared version commits. -/
theorem Accepts.publishBody {d : Draft} (h : db.Accepts c n) {pieces : List Bytes} {rootKey : Block 32}
    (hd : d.Sealed prim vaultId rootKey) (hversion : d.versionId = c.versionId)
    (hparts : d.parts = c.parts prim vaultId o pieces) (hn : pieces.length ≤ n)
    (hfits : d.plaintext.length < sqlIntegerBound) :
    db.publishBody d.storedVersion (encryptedChunks d.parts) none = .ok (d.published db) := by
  have hlength : pieces.length < 2 ^ 32 := by
    have hcount := hd.count
    have hbound : maxChunksPerVersion.toNat = 16777216 := rfl
    rw [hparts, Choices.length_parts] at hcount
    omega
  have hinsert : db.insertVersion d.storedVersion = .ok { db with
      versions := db.versions.insert d.versionId.blob d.storedVersion.toRow } := by
    refine insertVersion_eq_ok.mpr ⟨?_, hd.size, ?_, rfl⟩
    · rw [hd.toNat_plaintextLen]
      exact hfits
    · rw [show d.storedVersion.versionId = c.versionId from hversion]
      exact h.fresh
  refine except_bind_eq_ok.mpr ⟨_, hinsert, except_bind_eq_ok.mpr ⟨d.addTo db, ?_, rfl⟩⟩
  rw [Draft.addTo, show d.storedVersion.versionId = c.versionId from hversion, hversion, hparts]
  exact h.insertChunks (by simp) [] pieces hn hlength

end Database

/-! ### Surroundings that follow a script -/

section

variable {ω α : Type} [Machine ω]

/-- From here on the storage works, no other program writes to it, the state files are private, and the
random generator returns the values of the script in order. -/
def Machine.Follows (o : ω) (script : List Bytes) : Prop :=
  ∃ S : List Bytes → Set ω, o ∈ S script ∧ ∀ l, ∀ x ∈ S l,
    ((Machine.fault x).1 = .none ∧ (Machine.fault x).2 ∈ S l) ∧
    (∀ db, (Machine.interfere db x).1 = db ∧ (Machine.interfere db x).2 ∈ S l) ∧
    (enforceOwnerPrivateSqliteState (Machine.files x).1 = .ok () ∧ (Machine.files x).2 ∈ S l) ∧
    ∀ (n : ℕ) (b : Block n) (rest : List Bytes), l = b.toList :: rest →
      (Machine.random n x).1 = b ∧ (Machine.random n x).2 ∈ S rest

/-- The vault in memory and the tables, in surroundings that follow a script. -/
structure World.Ready (v : Vault) (db : Database) (script : List Bytes) (w : World ω) : Prop where
  vault : w.vault = v
  db : w.db = db
  follows : Machine.Follows w.outside script

variable {v : Vault} {db : Database} {script : List Bytes} {prim : Primitives}

namespace World.Ready

/-- A ready machine has no fault. -/
theorem storageFault :
    Op.Total (World.Ready (ω := ω) v db script) storageFault fun _ => World.Ready v db script := by
  intro w hw
  obtain ⟨S, hS, hclosed⟩ := hw.follows
  obtain ⟨⟨hfault, hnext⟩, -⟩ := hclosed _ _ hS
  rw [storageFault_of_none hfault]
  exact ⟨hw.vault, hw.db, S, hnext, hclosed⟩

/-- No other process has written the tables of a ready machine. -/
theorem tables :
    Op.Total (World.Ready (ω := ω) v db script) tables fun x w => x = db ∧ w.Ready v db script := by
  intro w hw
  obtain ⟨S, hS, hclosed⟩ := hw.follows
  obtain ⟨-, hinterfere, -⟩ := hclosed _ _ hS
  obtain ⟨hsame, hnext⟩ := hinterfere w.db
  have hdb := hsame.trans hw.db
  exact ⟨hdb, hw.vault, hdb, S, hnext, hclosed⟩

/-- The state files of a ready machine are the owner's own. -/
theorem enforceOwnerPrivateStateFiles :
    Op.Total (World.Ready (ω := ω) v db script) enforceOwnerPrivateStateFiles
      fun _ => World.Ready v db script := by
  intro w hw
  obtain ⟨S, hS, hclosed⟩ := hw.follows
  obtain ⟨-, -, ⟨hfiles, hnext⟩, -⟩ := hclosed _ _ hS
  have hstep : Vlt1.enforceOwnerPrivateStateFiles w =
      .ok () { w with outside := (Machine.files w.outside).2 } := by
    unfold Vlt1.enforceOwnerPrivateStateFiles
    rw [Op.bind_apply, interact]
    simp only [hfiles]
    rfl
  rw [hstep]
  exact ⟨hw.vault, hw.db, S, hnext, hclosed⟩

/-- The random bytes are those the script has next. -/
theorem randomBytes {n : ℕ} {b : Block n} :
    Op.Total (World.Ready (ω := ω) v db (b.toList :: script)) (randomBytes n)
      fun x w => x = b ∧ w.Ready v db script := by
  intro w hw
  obtain ⟨S, hS, hclosed⟩ := hw.follows
  obtain ⟨-, -, -, hrandom⟩ := hclosed _ _ hS
  obtain ⟨hvalue, hnext⟩ := hrandom n b script rfl
  exact ⟨hvalue, hw.vault, hw.db, S, hnext, hclosed⟩

theorem record (e : Event) :
    Op.Total (World.Ready (ω := ω) v db script) (record e) fun _ => World.Ready v db script :=
  fun _ hw => ⟨hw.vault, hw.db, hw.follows⟩

theorem commit (db' : Database) :
    Op.Total (World.Ready (ω := ω) v db script) (commit db') fun _ => World.Ready v db' script :=
  fun _ hw => ⟨hw.vault, rfl, hw.follows⟩

/-- A version identifier is the script's next bytes. -/
theorem randomVersionId {u : VersionId} :
    Op.Total (World.Ready (ω := ω) v db (u.blob :: script)) randomVersionId
      fun x w => x = u ∧ w.Ready v db script := by
  refine Op.Triple.bind _ randomBytes fun b => ?_
  refine Op.Triple.of_imp fun hb => ?_
  subst hb
  exact Op.Triple.bind _ (record _) fun _ => Op.Triple.pure fun _ hw => ⟨rfl, hw⟩

/-- An unlocked vault gives out its root key. -/
theorem requireRootKey {rootKey : Block 32} (hkey : v.rootKey = some rootKey) :
    Op.Total (World.Ready (ω := ω) v db script) requireRootKey
      fun x w => x = rootKey ∧ w.Ready v db script := by
  intro w hw
  have hopen : w.vault.rootKey = some rootKey := by rw [hw.vault, hkey]
  rw [requireRootKey_eq_ok.mpr ⟨hopen, rfl⟩]
  exact ⟨rfl, hw⟩

/-! ### Sealing -/

/-- A record is sealed under the script's next nonce. -/
theorem sealRecord (hprim : prim.Seals) {key aad plaintext : Bytes} {nonce : Block 12}
    (hkey : key.length = 32) (hlen : plaintext.length ≤ 2 ^ 36) :
    Op.Total (World.Ready (ω := ω) v db (nonce.toList :: script)) (sealRecord prim key aad plaintext)
      fun r w => r = sealedWith prim key nonce aad plaintext ∧ w.Ready v db script := by
  refine Op.Triple.bind_require (fun _ => ?_) fun _ hneg _ => hneg hkey
  refine Op.Triple.bind _ randomBytes fun b => ?_
  refine Op.Triple.of_imp fun hb => ?_
  subst hb
  rw [encrypt_sealedWith hprim hkey hlen]
  exact Op.Triple.bind _ (record _) fun _ => Op.Triple.pure fun _ hw => ⟨rfl, hw⟩

/-- A chunk is sealed under its own nonce. -/
theorem sealChunk (hprim : prim.Seals) {vaultId : VaultId} {o : ObjectId} {c : Choices} {i : ℕ}
    {piece : Bytes} (hlen : piece.length < 2 ^ 32) :
    Op.Total (World.Ready (ω := ω) v db ((c.chunkNonce i).toList :: script))
      (sealChunk prim vaultId o c.versionId c.dataKey (UInt32.ofNat i) piece)
      fun r w => r = ⟨UInt32.ofNat i, c.chunkRecord prim vaultId o i piece⟩ ∧
        w.Ready v db script := by
  have hlimit : piece.length ≤ 2 ^ 36 := by omega
  refine Op.Triple.bind_require (fun _ => ?_) fun _ hneg _ => hneg hlen
  refine Op.Triple.bind _ (sealRecord hprim c.dataKey.length_toList hlimit) fun r => ?_
  refine Op.Triple.of_imp fun hr => ?_
  subst hr
  exact Op.Triple.pure fun _ hw => ⟨rfl, hw⟩

/-- The manifest is sealed under its own nonce. -/
theorem sealManifest (hprim : prim.Seals) {vaultId : VaultId} {dataKey key : Block 32} {m : Manifest}
    {nonce : Block 12} (hkey : deriveManifestKey prim dataKey m.versionId = .ok key) :
    Op.Total (World.Ready (ω := ω) v db (nonce.toList :: script)) (sealManifest prim vaultId dataKey m)
      fun r w => r = sealedWith prim key.toList nonce (manifestAad vaultId m.objectId m.versionId)
        (encodeManifest m) ∧ w.Ready v db script := by
  unfold Vlt1.sealManifest
  rw [hkey, Op.ofExcept_ok, Op.pure_bind]
  exact sealRecord hprim key.length_toList ((length_encodeManifest_le m).trans (by omega))

/-- The data key is wrapped under its own nonce. -/
theorem wrapDataKey (hprim : prim.Seals) {rootKey kek dataKey : Block 32} {vaultId : VaultId}
    {o : ObjectId} {u : VersionId} {nonce : Block 12} (hkey : deriveKek prim rootKey vaultId = .ok kek) :
    Op.Total (World.Ready (ω := ω) v db (nonce.toList :: script))
      (wrapDataKey prim rootKey vaultId o u dataKey)
      fun r w => r = sealedWith prim kek.toList nonce (wrappedDekAad vaultId o u) dataKey.toList ∧
        w.Ready v db script := by
  unfold Vlt1.wrapDataKey
  rw [hkey, Op.ofExcept_ok, Op.pure_bind]
  exact sealRecord hprim kek.length_toList (by simp)

end World.Ready

/-! ### A version prepared in memory -/

variable {vaultId : VaultId} {o : ObjectId} {c : Choices} {rootKey kek manifestKey : Block 32} {size : ℕ}

omit [Machine ω] in
/-- The nonces of the chunks follow one another. -/
theorem Choices.chunkNonces_succ (start n : ℕ) :
    c.chunkNonces start (n + 1) = (c.chunkNonce start).toList :: c.chunkNonces (start + 1) n := by
  rw [Choices.chunkNonces, List.range'_succ]
  rfl

/-- The loop of `prepareVersion` seals the pieces in order. -/
theorem World.Ready.fold_sealChunk (hprim : prim.Seals) {pieces : List Bytes} {tail : List Bytes}
    (hpieces : ∀ piece ∈ pieces, piece.length < 2 ^ 32) (hcount : pieces.length < 2 ^ 32) :
    Op.Total (World.Ready (ω := ω) v db (c.chunkNonces 0 pieces.length ++ tail))
      (Op.fold (fun chunks (x : ℕ × Bytes) => do
          Op.require (x.1 < 2 ^ 32) (.invalidInput "chunk index")
          let sealedChunk ← Vlt1.sealChunk prim vaultId o c.versionId c.dataKey (UInt32.ofNat x.1) x.2
          return chunks ++ [sealedChunk])
        [] (pieces.mapIdx fun offset chunk => (offset, chunk)))
      fun chunks w => chunks = encryptedChunks (c.parts prim vaultId o pieces) ∧
        w.Ready v db tail := by
  let indexed := pieces.mapIdx fun offset chunk => (offset, chunk)
  have hindexed : indexed.map Prod.snd = pieces := by
    apply List.ext_getElem?
    intro i
    cases hi : pieces[i]? <;> simp [indexed, hi]
  let inv (done rest : List (ℕ × Bytes)) (acc : List EncryptedChunk) (w : World ω) : Prop :=
    (done ++ rest = indexed ∧ acc = encryptedChunks (c.parts prim vaultId o (done.map Prod.snd))) ∧
      w.Ready v db (c.chunkNonces done.length rest.length ++ tail)
  refine (Op.Triple.fold (I := inv) ?_ [] indexed []).conseq (fun w hw => ⟨⟨rfl, rfl⟩, ?_⟩) ?_
    fun _ _ h => h
  · rintro done ⟨offset, piece⟩ rest acc
    refine Op.Triple.of_imp fun hinv => ?_
    obtain ⟨hall, rfl⟩ := hinv
    -- the offset counts the pieces done
    have hat : indexed[done.length]? = some (offset, piece) := by
      rw [← hall, List.getElem?_append_right le_rfl, Nat.sub_self, List.getElem?_cons_zero]
    rw [List.getElem?_mapIdx] at hat
    obtain ⟨piece', hpiece, heq⟩ := Option.map_eq_some_iff.mp hat
    obtain ⟨rfl, rfl⟩ := Prod.mk.inj heq
    have hlt : done.length < pieces.length := (List.getElem?_eq_some_iff.mp hpiece).1
    rw [List.length_cons, Choices.chunkNonces_succ, List.cons_append]
    refine Op.Triple.bind_require (fun _ => ?_) fun _ hneg _ => hneg (hlt.trans hcount)
    refine Op.Triple.bind _ (World.Ready.sealChunk hprim
      (hpieces _ (List.mem_of_getElem? hpiece))) fun chunk => ?_
    refine Op.Triple.of_imp fun hchunk => ?_
    subst hchunk
    refine Op.Triple.pure fun w hw => ⟨⟨by simpa using hall, ?_⟩, ?_⟩
    · rw [List.map_append, List.map_singleton, Choices.parts_concat, encryptedChunks_concat]
      simp
    · rw [List.length_append, List.length_singleton]
      exact hw
  · rw [List.length_mapIdx]
    exact hw
  · rintro acc w ⟨⟨hall, rfl⟩, hw⟩
    rw [List.append_nil] at hall
    rw [hall, hindexed]
    exact ⟨rfl, hw⟩

/-- The pieces of a plaintext that a version can hold. -/
theorem pieces_fit {plaintext : Bytes} (hpos : 0 < size) (hsize : size < 2 ^ 32)
    (hcount : Chunks.count size plaintext.length ≤ maxChunksPerVersion.toNat) :
    (∀ piece ∈ Chunks.chunks size plaintext, piece.length < 2 ^ 32) ∧
      plaintext.length < sqlIntegerBound := by
  have hbound : maxChunksPerVersion.toNat = 16777216 := rfl
  refine ⟨fun piece hpiece => ?_, ?_⟩
  · obtain ⟨i, -, rfl⟩ := List.mem_map.mp hpiece
    exact (Chunks.length_segment_le i).trans_lt hsize
  · have hle : plaintext.length ≤ Chunks.count size plaintext.length * size :=
      Chunks.le_count_mul hpos
    have hmul : Chunks.count size plaintext.length * size ≤ 16777216 * 2 ^ 32 :=
      Nat.mul_le_mul (hbound ▸ hcount) hsize.le
    have hsql : sqlIntegerBound = 2 ^ 63 := rfl
    omega

/-- A plaintext in memory is prepared as the draft of its pieces. -/
theorem World.Ready.prepareVersion (hprim : prim.Seals) (hkey : v.rootKey = some rootKey)
    (hkek : deriveKek prim rootKey v.envelope.vaultId = .ok kek)
    (hmanifest : deriveManifestKey prim c.dataKey c.versionId = .ok manifestKey) {plaintext : Bytes}
    (hpos : 0 < size) (hsize : size < 2 ^ 32)
    (hcount : Chunks.count size plaintext.length ≤ maxChunksPerVersion.toNat) :
    Op.Total (World.Ready (ω := ω) v db (c.bufferedScript (Chunks.count size plaintext.length)))
      (Vlt1.prepareVersion prim o plaintext size) fun prepared w =>
        prepared = ⟨(c.draft prim v.envelope.vaultId o kek manifestKey (UInt32.ofNat size)
            (Chunks.chunks size plaintext)).storedVersion,
          encryptedChunks (c.parts prim v.envelope.vaultId o (Chunks.chunks size plaintext))⟩ ∧
        w.Ready v db [] := by
  have hbound : maxChunksPerVersion.toNat = 16777216 := rfl
  have hsql : sqlIntegerBound = 2 ^ 63 := rfl
  obtain ⟨hpieces, hfits⟩ := pieces_fit hpos hsize hcount
  have hplaintext := Chunks.flatten_chunks (l := plaintext) hpos
  refine Op.Triple.bind _ (World.Ready.requireRootKey hkey) fun key => ?_
  refine Op.Triple.of_imp fun heq => ?_
  subst heq
  refine Op.Triple.bind_get fun w0 hw0 => ?_
  rw [show w0.vaultId = v.envelope.vaultId by rw [World.vaultId, hw0.vault]]
  refine Op.Triple.conseq ?_ (fun w hw => hw ▸ hw0) (fun _ _ h => h) fun _ _ h => h
  refine Op.Triple.bind_require (fun _ => ?_) fun _ hneg _ => hneg hpos.ne'
  refine Op.Triple.bind_require (fun _ => ?_) fun _ hneg _ => hneg hsize
  refine Op.Triple.bind_require (fun _ => ?_) fun _ hneg _ => hneg (by omega)
  refine Op.Triple.bind_require (fun _ => ?_) fun _ hneg _ => hneg (by omega)
  refine Op.Triple.bind_require (fun _ => ?_) fun _ hneg _ => hneg hcount
  refine Op.Triple.bind _ World.Ready.randomVersionId fun u => ?_
  refine Op.Triple.of_imp fun hu => ?_
  subst hu
  refine Op.Triple.bind _ World.Ready.randomBytes fun dataKey => ?_
  refine Op.Triple.of_imp fun hdataKey => ?_
  subst hdataKey
  have hseal := @World.Ready.fold_sealChunk ω _ v db prim v.envelope.vaultId o c hprim _
    [c.manifestNonce.toList, c.dekNonce.toList] hpieces (by rw [Chunks.length_chunks]; omega)
  rw [Chunks.length_chunks] at hseal
  refine Op.Triple.bind _ hseal fun chunks => ?_
  refine Op.Triple.of_imp fun hchunks => ?_
  subst hchunks
  refine Op.Triple.bind _ (World.Ready.sealManifest hprim hmanifest) fun manifest => ?_
  refine Op.Triple.of_imp fun heq => ?_
  subst heq
  refine Op.Triple.bind _ (World.Ready.wrapDataKey hprim hkek) fun wrappedDek => ?_
  refine Op.Triple.of_imp fun heq => ?_
  subst heq
  refine Op.Triple.pure fun w hw => ⟨?_, hw⟩
  -- the lengths of the draft are those of the plaintext
  simp only [Choices.draft, Draft.storedVersion, Draft.contents, Draft.plaintext, Choices.map_fst_parts,
    Choices.length_parts, Chunks.length_chunks, hplaintext]
  rfl

/-- On a ready machine a transaction commits what its body makes. -/
theorem World.Ready.transaction {body : Database → Except VaultError Database} {db' : Database}
    (h : body db = .ok db') :
    Op.Total (World.Ready (ω := ω) v db script) (transaction body)
      fun _ => World.Ready v db' script := by
  refine Op.Triple.bind _ World.Ready.storageFault fun _ => ?_
  refine Op.Triple.bind _ World.Ready.tables fun x => ?_
  refine Op.Triple.of_imp fun hx => ?_
  subst hx
  rw [h, Op.ofExcept_ok, Op.pure_bind]
  exact World.Ready.commit db'

omit [Machine ω] in
/-- Locking after failures does not change what a computation that returns does. -/
theorem Op.Total.lockAfterFailure {pre : World ω → Prop} {x : VaultOp ω α}
    {post : α → World ω → Prop} (h : Op.Total pre x post) :
    Op.Total pre (Vlt1.lockAfterFailure x) post :=
  triple_lockAfterFailure_of_locked h fun _ _ hfalse _ => hfalse.elim

/-- The draft of a plaintext under the keys of an unlocked vault. -/
structure Choices.Prepares (prim : Primitives) (c : Choices) (v : Vault) (o : ObjectId) (size : ℕ)
    (pieces : List Bytes) (d : Draft) : Prop where
  sealedFor : d.SealedFor prim v
  object : d.objectId = o
  version : d.versionId = c.versionId
  dataKey : d.dataKey = c.dataKey
  size : d.chunkSize.toNat = size
  dekNonce : d.wrappedDek.nonce = c.dekNonce
  manifestNonce : d.manifest.nonce = c.manifestNonce
  parts : d.parts = c.parts prim v.envelope.vaultId o pieces

omit [Machine ω] in
/-- The draft made with these choices is one a put prepares. -/
theorem Choices.prepares_draft (hprim : prim.Seals) (hkey : v.rootKey = some rootKey)
    (hkek : deriveKek prim rootKey v.envelope.vaultId = .ok kek)
    (hmanifest : deriveManifestKey prim c.dataKey c.versionId = .ok manifestKey)
    {pieces : List Bytes} (hpos : 0 < size) (hsize : size < 2 ^ 32)
    (hcount : pieces.length ≤ maxChunksPerVersion.toNat)
    (hpieces : ∀ piece ∈ pieces, piece.length < 2 ^ 32) :
    c.Prepares prim v o size pieces
      (c.draft prim v.envelope.vaultId o kek manifestKey (UInt32.ofNat size) pieces) := by
  have hsizeNat := toNat_ofNat_of_lt hsize
  have hne : UInt32.ofNat size ≠ 0 := by
    intro hzero
    rw [hzero] at hsizeNat
    exact hpos.ne' hsizeNat.symm
  exact ⟨⟨rootKey, hkey, Choices.sealed_draft hprim hkek hmanifest hne hcount hpieces⟩, rfl, rfl, rfl,
    hsizeNat, rfl, rfl, rfl⟩

omit [Machine ω] in
/-- A draft of the pieces of a plaintext is a draft of the plaintext. -/
theorem Choices.Prepares.of {plaintext : Bytes} {d : Draft} (hpos : 0 < size)
    (hd : c.Prepares prim v o size (Chunks.chunks size plaintext) d) : d.Of o plaintext := by
  have hplaintext : d.plaintext = plaintext := by
    rw [Draft.plaintext, hd.parts, Choices.map_fst_parts, Chunks.flatten_chunks hpos]
  refine ⟨hd.object, hplaintext, ?_⟩
  rw [Draft.Even, hd.parts, Choices.map_fst_parts, hd.size, hplaintext]

/-- `put_with_chunk_size` publishes the draft of the plaintext. -/
theorem World.Ready.putWithChunkSize (hprim : prim.Seals) (hkey : v.rootKey = some rootKey)
    (hkek : deriveKek prim rootKey v.envelope.vaultId = .ok kek)
    (hmanifest : deriveManifestKey prim c.dataKey c.versionId = .ok manifestKey) {plaintext : Bytes}
    (hpos : 0 < size) (hsize : size < 2 ^ 32)
    (hcount : Chunks.count size plaintext.length ≤ maxChunksPerVersion.toNat)
    (haccepts : db.Accepts c (Chunks.count size plaintext.length)) :
    Op.Total (World.Ready (ω := ω) v db (c.bufferedScript (Chunks.count size plaintext.length)))
      (Vlt1.putWithChunkSize prim o plaintext size)
      fun u w => u = c.versionId ∧ w.Ready v
        ((c.draft prim v.envelope.vaultId o kek manifestKey (UInt32.ofNat size)
          (Chunks.chunks size plaintext)).published db) [] := by
  obtain ⟨hpieces, hfits⟩ := pieces_fit hpos hsize hcount
  have hlength := Chunks.length_chunks size plaintext
  have hd := Choices.prepares_draft (o := o) hprim hkey hkek hmanifest hpos hsize
    (hlength ▸ hcount) hpieces
  obtain ⟨_, hopen, hsealed⟩ := hd.sealedFor
  apply Op.Total.lockAfterFailure
  refine Op.Triple.bind _ (World.Ready.prepareVersion hprim hkey hkek hmanifest hpos hsize hcount)
    fun prepared => ?_
  refine Op.Triple.of_imp fun heq => ?_
  subst heq
  refine Op.Triple.bind (fun _ => World.Ready v _ []) ?_ fun _ =>
    Op.Triple.pure fun _ hw => ⟨rfl, hw⟩
  refine Op.Triple.bind_require (fun _ => ?_) fun _ hneg _ => hneg ?_
  · refine Op.Triple.bind _ (World.Ready.transaction ?_) fun _ =>
      World.Ready.enforceOwnerPrivateStateFiles
    exact haccepts.publishBody hsealed rfl rfl (le_of_eq hlength)
      (by rw [(hd.of hpos).plaintext]; exact hfits)
  · exact (length_encryptedChunks _).trans hsealed.toNat_chunkCount.symm

/-! ### A streamed version -/

/-- A round of the loop within the budget adds the next part. -/
theorem World.Ready.streamChunk (hprim : prim.Seals) {n : ℕ} (haccepts : db.Accepts c n)
    {start : StreamingPublication} {done : List Bytes} {piece : Bytes} {s : StreamingState}
    (hversion : start.versionId = c.versionId) (hobject : start.objectId = o)
    (hworking : ∃ row, start.working = { db with
      versions := db.versions.insert c.versionId.blob row })
    (hs : StreamsParts prim vaultId c.dataKey start (c.parts prim vaultId o done) s)
    (hbudget : done.length < maxChunksPerVersion.toNat) (hn : done.length < n)
    (hdone : ∀ piece ∈ done, piece.length < 2 ^ 32) (hpiece : piece.length < 2 ^ 32) :
    Op.Total (World.Ready (ω := ω) v db ((c.chunkNonce done.length).toList :: script))
      (Vlt1.streamChunk prim vaultId c.dataKey s piece) fun s' w =>
        StreamsParts prim vaultId c.dataKey start (c.parts prim vaultId o (done ++ [piece])) s' ∧
          w.Ready v db script := by
  have hbound : maxChunksPerVersion.toNat = 16777216 := rfl
  have hcountNat : s.chunkCount.toNat = done.length := hs.count.trans (Choices.length_parts _)
  have hcount : s.chunkCount = UInt32.ofNat done.length := by
    rw [← hcountNat, UInt32.ofNat_toNat]
  have hlt : s.chunkCount < maxChunksPerVersion := by
    rw [UInt32.lt_iff_toNat_lt, hcountNat]
    exact hbudget
  have hpub := hs.publication
  have hpubVersion : s.publication.versionId = c.versionId := by rw [hpub]; exact hversion
  have hpubObject : s.publication.objectId = o := by rw [hpub]; exact hobject
  have hpubNext : s.publication.nextChunkIndex = s.chunkCount := by rw [hpub]
  have hpubLen : s.publication.plaintextLen = s.plaintextLen := by rw [hpub]
  -- the lengths added so far are far from the end of the counters
  have hlen : s.plaintextLen.toNat + (UInt32.ofNat piece.length).toUInt64.toNat < 2 ^ 64 := by
    have hle := length_flatten_le fun piece hp => Nat.le_of_lt (hdone piece hp)
    rw [hs.len, Choices.map_fst_parts, UInt32.toNat_toUInt64, toNat_ofNat_of_lt hpiece]
    omega
  have hadd32 (e : VaultError) : checkedAdd32 s.chunkCount 1 e = .ok (s.chunkCount + 1) :=
    if_pos (by rw [hcountNat]; simp; omega)
  have hadd64 (e : VaultError) :
      checkedAdd64 s.plaintextLen (UInt32.ofNat piece.length).toUInt64 e =
        .ok (s.plaintextLen + (UInt32.ofNat piece.length).toUInt64) := if_pos hlen
  -- the row of the chunk goes in
  obtain ⟨row, hworking⟩ := hworking
  obtain ⟨working, hinsert⟩ : ∃ working, s.publication.working.insertChunk c.versionId
      ⟨UInt32.ofNat done.length, c.chunkRecord prim vaultId o done.length piece⟩ = .ok working := by
    rw [hpub, hworking, hversion]
    exact ⟨_, haccepts.insertChunk (by rw [Table.lookup_insert_eq, if_pos rfl]; nofun) hn (by omega)⟩
  have hencrypt : prim.encrypt c.dataKey.toList (c.chunkRecord prim vaultId o done.length piece).nonce
      (chunkAad vaultId s.publication.objectId s.publication.versionId s.chunkCount
        (UInt32.ofNat piece.length)) piece =
          some (c.chunkRecord prim vaultId o done.length piece).ciphertext := by
    rw [hpubObject, hpubVersion, hcount]
    exact encrypt_sealedWith hprim c.dataKey.length_toList (by omega)
  have hnext : checkedAdd32 s.publication.nextChunkIndex 1 .storage = .ok (s.chunkCount + 1) := by
    rw [hpubNext]
    exact hadd32 _
  have htotal : checkedAdd64 s.publication.plaintextLen (UInt32.ofNat piece.length).toUInt64 .storage =
      .ok (s.plaintextLen + (UInt32.ofNat piece.length).toUInt64) := by
    rw [hpubLen]
    exact hadd64 _
  have hstep := hs.step hlt hcount.symm hpiece hencrypt (hpubVersion ▸ hinsert) hnext htotal
    (hadd64 .storage) (hadd32 .storage)
  rw [← Choices.parts_concat] at hstep
  refine Op.Triple.bind_require (fun _ => ?_) fun _ hneg _ => hneg hlt
  rw [hpubObject, hpubVersion, hcount]
  refine Op.Triple.bind _ (World.Ready.sealChunk hprim hpiece) fun chunk => ?_
  refine Op.Triple.of_imp fun hchunk => ?_
  subst hchunk
  refine Op.Triple.bind (fun p w => p = { s.publication with
      working, nextChunkIndex := s.chunkCount + 1
      plaintextLen := s.plaintextLen + (UInt32.ofNat piece.length).toUInt64 } ∧ w.Ready v db script)
    ?_ fun p => ?_
  · refine Op.Triple.bind_require (fun _ => ?_) fun _ hneg _ => hneg (hcount.symm.trans hpubNext.symm)
    refine Op.Triple.bind _ World.Ready.storageFault fun _ => ?_
    rw [hpubVersion, hinsert, hpubNext, hadd32, hpubLen, hadd64]
    exact Op.Triple.pure fun _ hw => ⟨by rw [← hpubVersion], hw⟩
  · refine Op.Triple.of_imp fun hp => ?_
    subst hp
    rw [hadd64, ← hcount, hadd32]
    refine Op.Triple.pure fun _ hw => ⟨?_, hw⟩
    rw [hcount] at hstep ⊢
    exact hstep

/-- The loop seals the pieces in order, and stops with `invalidInput` at one piece too many. -/
theorem World.Ready.fold_streamChunk (hprim : prim.Seals) {pieces tail : List Bytes}
    (haccepts : db.Accepts c pieces.length) {start : StreamingPublication}
    (hversion : start.versionId = c.versionId) (hobject : start.objectId = o)
    (hindex : start.nextChunkIndex = 0) (hlen : start.plaintextLen = 0)
    (hworking : ∃ row, start.working = { db with
      versions := db.versions.insert c.versionId.blob row })
    (hpieces : ∀ piece ∈ pieces, piece.length < 2 ^ 32) :
    Op.Triple (World.Ready (ω := ω) v db (c.chunkNonces 0 pieces.length ++ tail))
      (Op.fold (Vlt1.streamChunk prim vaultId c.dataKey)
        { publication := start, digest := .new, chunkCount := 0, plaintextLen := 0 } pieces)
      (fun s w => StreamsParts prim vaultId c.dataKey start (c.parts prim vaultId o pieces) s ∧
        w.Ready v db tail)
      fun e w => (e = some (.invalidInput "nonce budget exceeded") ∧
        maxChunksPerVersion.toNat < pieces.length) ∧ w.vault = v ∧ w.db = db := by
  let inv (done rest : List Bytes) (s : StreamingState) (w : World ω) : Prop :=
    (done ++ rest = pieces ∧
      StreamsParts prim vaultId c.dataKey start (c.parts prim vaultId o done) s) ∧
        w.Ready v db (c.chunkNonces done.length rest.length ++ tail)
  refine (Op.Triple.fold (I := inv) ?_ [] pieces _).conseq (fun w hw => ⟨⟨rfl, ?_⟩, hw⟩) ?_
    fun _ _ h => h
  · intro done piece rest s
    refine Op.Triple.of_imp fun hinv => ?_
    obtain ⟨hall, hs⟩ := hinv
    have hlength : done.length + (rest.length + 1) = pieces.length := by
      rw [← hall, List.length_append, List.length_cons]
    rw [List.length_cons, Choices.chunkNonces_succ, List.cons_append]
    by_cases hbudget : done.length < maxChunksPerVersion.toNat
    · refine (World.Ready.streamChunk hprim haccepts hversion hobject hworking hs hbudget (by omega)
        (fun p hp => hpieces p (by simp [← hall, hp])) (hpieces piece (by simp [← hall]))).conseq
          (fun _ h => h) (fun s' w hw => ⟨⟨by simpa using hall, hw.1⟩, ?_⟩) fun _ _ h => h.elim
      rw [List.length_append, List.length_singleton]
      exact hw.2
    · -- the budget is spent
      have hspent : ¬s.chunkCount < maxChunksPerVersion := by
        rw [UInt32.lt_iff_toNat_lt, hs.count, Choices.length_parts]
        exact hbudget
      refine Op.Triple.bind_require (fun hlt => absurd hlt hspent) fun w _ hw => ?_
      exact ⟨⟨rfl, by omega⟩, hw.vault, hw.db⟩
  · refine ⟨fun i part hi => by simp [Choices.parts] at hi, Nat.zero_le _, rfl, rfl, rfl, ?_⟩
    rw [← hindex, ← hlen]
    rfl
  · rintro s w ⟨⟨hall, hs⟩, hw⟩
    rw [List.append_nil] at hall
    rw [hall] at hs
    exact ⟨hs, hw⟩

/-- On a ready machine a stream of a new version can begin. -/
theorem World.Ready.beginStreamingPublication {n : ℕ} (haccepts : db.Accepts c n) (dek : SealedRecord)
    {size : UInt32} (hsize : size ≠ 0) :
    Op.Total (World.Ready (ω := ω) v db script)
      (beginStreamingPublication o c.versionId dek size)
      fun start w => ((start.objectId = o ∧ start.versionId = c.versionId ∧ start.nextChunkIndex = 0 ∧
        start.plaintextLen = 0) ∧ start.Begins dek size db) ∧ w.Ready v db script := by
  refine Op.Triple.bind _ World.Ready.storageFault fun _ => ?_
  refine Op.Triple.bind _ World.Ready.tables fun x => ?_
  refine Op.Triple.of_imp fun hx => ?_
  subst hx
  have hzero : (0 : UInt64).toNat < sqlIntegerBound := by decide
  rw [Database.insertVersion_eq_ok.mpr ⟨hzero, hsize, haccepts.fresh, rfl⟩, Op.ofExcept_ok,
    Op.pure_bind]
  exact Op.Triple.pure fun _ hw => ⟨⟨⟨rfl, rfl, rfl, rfl⟩, haccepts.fresh, rfl⟩, hw⟩

omit [Machine ω] in
/-- The last writes of a streamed version go through. -/
theorem StreamsParts.finishBody {dataKey : Block 32} {start : StreamingPublication}
    {wrappedDek manifest : SealedRecord} {size : UInt32} {parts : List (Bytes × SealedRecord)}
    {s : StreamingState} (hstart : start.Begins wrappedDek size db)
    (hs : StreamsParts prim vaultId dataKey start parts s)
    (hfits : (parts.map Prod.fst).flatten.length < sqlIntegerBound) :
    s.publication.finishBody manifest s.chunkCount =
      .ok ((streamedDraft start dataKey wrappedDek size parts manifest).published db) := by
  obtain ⟨db', hdb'⟩ : ∃ db', s.publication.finishBody manifest s.chunkCount = .ok db' := by
    have hsql : sqlOfUInt64 s.publication.plaintextLen = .ok (s.plaintextLen.toNat : ℤ) := by
      rw [hs.publication]
      exact sqlOfUInt64_eq_ok.mpr ⟨hs.len ▸ hfits, rfl⟩
    rw [StreamingPublication.finishBody, hsql, hs.publication, hstart.working]
    simp only [Table.lookup_insert_eq, if_true]
    exact ⟨_, except_bind_eq_ok.mpr ⟨_, rfl, except_bind_eq_ok.mpr ⟨(), ensure_pos rfl, rfl⟩⟩⟩
  rw [hdb', (finishBody_streamed hstart.working hs hdb').2]
  rfl

/-- A reader's pieces are published as their draft, unless there are too many or reading failed. -/
theorem World.Ready.putFromReaderWithChunkSize (hprim : prim.Seals) (hkey : v.rootKey = some rootKey)
    (hkek : deriveKek prim rootKey v.envelope.vaultId = .ok kek)
    (hmanifest : deriveManifestKey prim c.dataKey c.versionId = .ok manifestKey) {reader : Reader}
    {pieces : List Bytes} {ending : Except VaultError Unit} (hpos : 0 < size) (hsize : size < 2 ^ 32)
    (hreader : reader.chunks size = (pieces, ending))
    (hpieces : ∀ piece ∈ pieces, piece.length < 2 ^ 32) (haccepts : db.Accepts c pieces.length) :
    Op.Triple (World.Ready (ω := ω) v db (c.streamedScript pieces.length))
      (Vlt1.putFromReaderWithChunkSize prim o reader size)
      (fun u w => (u = c.versionId ∧ ending = .ok () ∧ pieces.length ≤ maxChunksPerVersion.toNat) ∧
        w.Ready v ((c.draft prim v.envelope.vaultId o kek manifestKey (UInt32.ofNat size)
          pieces).published db) [])
      fun e w => ((e = some (.invalidInput "nonce budget exceeded") ∧
        maxChunksPerVersion.toNat < pieces.length ∧ w.vault = v) ∨
          ∃ e', e = some e' ∧ ending = .error e') ∧ w.db = db := by
  have hbound : maxChunksPerVersion.toNat = 16777216 := rfl
  have hsql : sqlIntegerBound = 2 ^ 63 := rfl
  have hne : UInt32.ofNat size ≠ 0 := by
    intro hzero
    have hsizeNat := toNat_ofNat_of_lt hsize
    rw [hzero] at hsizeNat
    exact hpos.ne' hsizeNat.symm
  refine triple_lockAfterFailure_of_locked ?_ ?_
  · refine Op.Triple.bind_require (fun _ => ?_) fun _ hneg _ => absurd hpos.ne' hneg
    refine Op.Triple.bind_require (fun _ => ?_) fun _ hneg _ => absurd hsize hneg
    refine Op.Triple.bind _ ((World.Ready.requireRootKey hkey).triple _) fun key => ?_
    refine Op.Triple.of_imp fun heq => ?_
    subst heq
    refine Op.Triple.bind_get fun w0 hw0 => ?_
    rw [show w0.vaultId = v.envelope.vaultId by rw [World.vaultId, hw0.vault]]
    refine Op.Triple.conseq ?_ (fun w hw => hw ▸ hw0) (fun _ _ h => h) fun _ _ h => h
    refine Op.Triple.bind _ (World.Ready.randomVersionId.triple _) fun u => ?_
    refine Op.Triple.of_imp fun hu => ?_
    subst hu
    refine Op.Triple.bind _ (World.Ready.randomBytes.triple _) fun dataKey => ?_
    refine Op.Triple.of_imp fun hdataKey => ?_
    subst hdataKey
    refine Op.Triple.bind _ ((World.Ready.wrapDataKey hprim hkek).triple _) fun wrappedDek => ?_
    refine Op.Triple.of_imp fun hdek => ?_
    refine Op.Triple.bind _ ((World.Ready.beginStreamingPublication haccepts wrappedDek hne).triple _)
      fun start => ?_
    refine Op.Triple.of_imp fun hstart => ?_
    obtain ⟨⟨hobject, hversion, hindex, hlen⟩, hbegins⟩ := hstart
    rw [hreader]
    have hworking : ∃ row, start.working = { db with
        versions := db.versions.insert c.versionId.blob row } := by
      rw [hbegins.working, hversion]
      exact ⟨_, rfl⟩
    refine Op.Triple.bind _ ((World.Ready.fold_streamChunk hprim haccepts hversion hobject hindex hlen
      hworking hpieces).mono_stop fun e w h => ⟨.inl ⟨h.1.1, h.1.2, h.2.1⟩, h.2.2⟩) fun s => ?_
    refine Op.Triple.of_imp fun hs => ?_
    have hcount : pieces.length ≤ maxChunksPerVersion.toNat := by
      rw [← Choices.length_parts (c := c) (o := o)]
      exact hs.bound
    -- the counters of the loop are the lengths of the draft
    have hchunkCount : s.chunkCount = UInt32.ofNat pieces.length := by
      rw [← Choices.length_parts (c := c) (o := o), ← hs.count, UInt32.ofNat_toNat]
    have hplaintextLen : s.plaintextLen = UInt64.ofNat pieces.flatten.length := by
      rw [← Choices.map_fst_parts (c := c) (o := o) pieces, ← hs.len, UInt64.ofNat_toNat]
    refine Op.Triple.bind_ofExcept (fun _ hending => ?_) fun e _ he hw => ⟨.inr ⟨e, rfl, he⟩, hw.db⟩
    refine Op.Triple.bind _ ((World.Ready.sealManifest hprim hmanifest).triple _) fun manifest => ?_
    refine Op.Triple.of_imp fun hsealed => ?_
    have hfits : pieces.flatten.length < sqlIntegerBound := by
      have hle := length_flatten_le fun piece hp => Nat.le_of_lt (hpieces piece hp)
      omega
    have hdraft : streamedDraft start c.dataKey wrappedDek (UInt32.ofNat size)
        (c.parts prim v.envelope.vaultId o pieces) manifest =
          c.draft prim v.envelope.vaultId o kek manifestKey (UInt32.ofNat size) pieces := by
      rw [hsealed, hdek, hchunkCount, hplaintextLen, hs.digest]
      simp only [streamedDraft, Choices.draft, Draft.contents, Draft.plaintext, Choices.map_fst_parts,
        Choices.length_parts, hobject, hversion]
    refine Op.Triple.bind (fun _ => World.Ready v ((c.draft prim v.envelope.vaultId o kek manifestKey
      (UInt32.ofNat size) pieces).published db) []) ?_ fun _ =>
        Op.Triple.pure fun _ hw => ⟨⟨rfl, hending, hcount⟩, hw⟩
    refine Op.Triple.bind_require (fun _ => ?_) fun _ hneg _ => absurd (by rw [hs.publication]) hneg
    refine Op.Triple.bind _ (World.Ready.storageFault.triple _) fun _ => ?_
    rw [StreamsParts.finishBody hbegins hs (by rw [Choices.map_fst_parts]; exact hfits), hdraft,
      Op.ofExcept_ok, Op.pure_bind]
    exact Op.Triple.bind _ ((World.Ready.commit _).triple _) fun _ =>
      World.Ready.enforceOwnerPrivateStateFiles.triple _
  · -- only a failed read can lock the vault
    rintro e w ⟨⟨he, -⟩ | hending, hdb⟩ hlocks
    · obtain rfl := Option.some.inj he
      cases hlocks
    · exact ⟨.inr hending, hdb⟩

end

end Vlt1

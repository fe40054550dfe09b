import Vlt1.Vault.Publications

/-!
# What a publication seals

A call that publishes draws a version identifier and a DEK, seals the chunks under the DEK, the
Manifest under a key derived from it, and the DEK under the vault's key-encryption key. A `Draft` is
all of that together; `Draft.Sealed` says that its records are encryptions of its parts.

`prepareVersion_ok` gives the draft behind a version that was prepared in memory, and `StreamsParts` says
how far a streamed one has come. `Draft.addTo` is what either leaves in the tables.
-/

namespace Vlt1

open Effect

/-- The parts of a version and their encryptions. -/
@[ext]
structure Draft where
  objectId : ObjectId
  versionId : VersionId
  dataKey : Block 32
  wrappedDek : SealedRecord
  manifest : SealedRecord
  chunkSize : UInt32
  /-- The chunks of the plaintext in order, each with its record. -/
  parts : List (Bytes × SealedRecord)

/-- The records of the parts under their indices. -/
def encryptedChunks (parts : List (Bytes × SealedRecord)) : List EncryptedChunk :=
  parts.mapIdx fun i part => ⟨UInt32.ofNat i, part.2⟩

/-- The digest of the records of the parts. -/
def digestOf (parts : List (Bytes × SealedRecord)) : ChunkDigestBuilder :=
  (encryptedChunks parts).foldl (fun d c => d.update c.index c.record) .new

theorem encryptedChunks_concat (parts : List (Bytes × SealedRecord)) (part : Bytes × SealedRecord) :
    encryptedChunks (parts ++ [part]) =
      encryptedChunks parts ++ [⟨UInt32.ofNat parts.length, part.2⟩] := by
  simp [encryptedChunks, List.mapIdx_append]

theorem digestOf_concat (parts : List (Bytes × SealedRecord)) (part : Bytes × SealedRecord) :
    digestOf (parts ++ [part]) = (digestOf parts).update (UInt32.ofNat parts.length) part.2 := by
  rw [digestOf, encryptedChunks_concat, List.foldl_append]
  rfl

@[simp] theorem length_encryptedChunks (parts : List (Bytes × SealedRecord)) :
    (encryptedChunks parts).length = parts.length := by
  simp [encryptedChunks]

/-- The records of the parts encrypt them under the DEK, each bound to its place. -/
def SealsParts (prim : Primitives) (vaultId : VaultId) (o : ObjectId) (u : VersionId)
    (dataKey : Block 32) (parts : List (Bytes × SealedRecord)) : Prop :=
  ∀ i part, parts[i]? = some part → part.1.length < 2 ^ 32 ∧
    prim.encrypt dataKey.toList part.2.nonce
      (chunkAad vaultId o u (UInt32.ofNat i) (UInt32.ofNat part.1.length)) part.1 =
        some part.2.ciphertext

namespace Draft

/-- The plaintext of the version. -/
def plaintext (d : Draft) : Bytes := (d.parts.map Prod.fst).flatten

/-- The Manifest of the version. -/
def contents (prim : Primitives) (d : Draft) : Manifest where
  formatVersion := formatVersion
  objectId := d.objectId
  versionId := d.versionId
  plaintextLen := UInt64.ofNat d.plaintext.length
  chunkSize := d.chunkSize
  chunkCount := UInt32.ofNat d.parts.length
  chunkDigest := (digestOf d.parts).finalize prim

/-- The version as the storage layer takes it. -/
def storedVersion (d : Draft) : StoredVersion where
  objectId := d.objectId
  versionId := d.versionId
  wrappedDek := d.wrappedDek
  manifest := d.manifest
  plaintextLen := UInt64.ofNat d.plaintext.length
  chunkSize := d.chunkSize
  chunkCount := UInt32.ofNat d.parts.length

/-- The records of the draft encrypt its parts for the vault. -/
structure Sealed (prim : Primitives) (vaultId : VaultId) (rootKey : Block 32) (d : Draft) :
    Prop where
  size : d.chunkSize ≠ 0
  count : d.parts.length ≤ maxChunksPerVersion.toNat
  len : d.plaintext.length < 2 ^ 64
  dek : ∃ kek, deriveKek prim rootKey vaultId = .ok kek ∧
    prim.encrypt kek.toList d.wrappedDek.nonce (wrappedDekAad vaultId d.objectId d.versionId)
      d.dataKey.toList = some d.wrappedDek.ciphertext
  manifest : ∃ key, deriveManifestKey prim d.dataKey d.versionId = .ok key ∧
    prim.encrypt key.toList d.manifest.nonce (manifestAad vaultId d.objectId d.versionId)
      (encodeManifest (d.contents prim)) = some d.manifest.ciphertext
  parts : SealsParts prim vaultId d.objectId d.versionId d.dataKey d.parts

/-- The plaintext is cut into chunks of the declared size, as the reader expects. -/
def Even (d : Draft) : Prop :=
  d.parts.map Prod.fst = Chunks.chunks d.chunkSize.toNat d.plaintext

/-- The tables with the rows of the version and its chunks. -/
def addTo (d : Draft) (db : Database) : Database :=
  { db with
    versions := db.versions.insert d.versionId.blob d.storedVersion.toRow
    chunks := Database.insertRows d.versionId db.chunks (encryptedChunks d.parts) }

end Draft

section

variable {ω : Type} [Machine ω] {prim : Primitives} {w w' : World ω}

/-! ### Sealing steps -/

/-- A chunk that was sealed is encrypted with its place and its length. -/
theorem sealChunk_ok {v : VaultId} {o : ObjectId} {u : VersionId} {dataKey : Block 32}
    {index : UInt32} {chunk : Bytes} {c : EncryptedChunk}
    (h : sealChunk prim v o u dataKey index chunk w = .ok c w') :
    c.index = index ∧ chunk.length < 2 ^ 32 ∧
      prim.encrypt dataKey.toList c.record.nonce
        (chunkAad v o u index (UInt32.ofNat chunk.length)) chunk = some c.record.ciphertext := by
  obtain ⟨_, w1, hcheck, hrest⟩ := Op.bind_eq_ok.mp h
  obtain ⟨hlength, rfl⟩ := Op.require_eq_ok.mp hcheck
  obtain ⟨record, w2, hseal, hreturn⟩ := Op.bind_eq_ok.mp hrest
  cases hreturn
  exact ⟨rfl, hlength, (sealRecord_ok hseal).2.1⟩

/-- A manifest that was sealed is encrypted under the key of its version. -/
theorem sealManifest_ok {v : VaultId} {dataKey : Block 32} {m : Manifest} {r : SealedRecord}
    (h : sealManifest prim v dataKey m w = .ok r w') :
    ∃ key, deriveManifestKey prim dataKey m.versionId = .ok key ∧
      prim.encrypt key.toList r.nonce (manifestAad v m.objectId m.versionId) (encodeManifest m) =
        some r.ciphertext := by
  obtain ⟨key, w1, hkey, hseal⟩ := Op.bind_eq_ok.mp h
  exact ⟨key, (Op.ofExcept_eq_ok.mp hkey).1, (sealRecord_ok hseal).2.1⟩

/-- A data key that was wrapped is encrypted under the key of its vault. -/
theorem wrapDataKey_ok {rootKey : Block 32} {v : VaultId} {o : ObjectId} {u : VersionId}
    {dataKey : Block 32} {r : SealedRecord} (h : wrapDataKey prim rootKey v o u dataKey w = .ok r w') :
    ∃ kek, deriveKek prim rootKey v = .ok kek ∧
      prim.encrypt kek.toList r.nonce (wrappedDekAad v o u) dataKey.toList = some r.ciphertext := by
  obtain ⟨key, w1, hkey, hseal⟩ := Op.bind_eq_ok.mp h
  exact ⟨key, (Op.ofExcept_eq_ok.mp hkey).1, (sealRecord_ok hseal).2.1⟩

omit [Machine ω] in
/-- One more sealed chunk continues the version. -/
theorem SealsParts.concat {v : VaultId} {o : ObjectId} {u : VersionId} {dataKey : Block 32}
    {parts : List (Bytes × SealedRecord)} {chunk : Bytes} {r : SealedRecord}
    (h : SealsParts prim v o u dataKey parts) (hlength : chunk.length < 2 ^ 32)
    (hseal : prim.encrypt dataKey.toList r.nonce
      (chunkAad v o u (UInt32.ofNat parts.length) (UInt32.ofNat chunk.length)) chunk =
        some r.ciphertext) :
    SealsParts prim v o u dataKey (parts ++ [(chunk, r)]) := by
  intro i part hi
  rcases Nat.lt_trichotomy i parts.length with hlt | rfl | hgt
  · rw [List.getElem?_append_left hlt] at hi
    exact h i part hi
  · obtain rfl : (chunk, r) = part := by simpa using hi
    exact ⟨hlength, hseal⟩
  · rw [List.getElem?_eq_none (by simp; omega)] at hi
    cases hi

/-! ### A version prepared in memory -/

/-- The loop of `prepareVersion` seals the chunks in order. -/
theorem fold_sealChunk_ok {v : VaultId} {o : ObjectId} {u : VersionId} {dataKey : Block 32}
    {pieces : List Bytes} {chunks : List EncryptedChunk}
    (h : Op.fold (fun chunks (x : ℕ × Bytes) => do
        Op.require (x.1 < 2 ^ 32) (.invalidInput "chunk index")
        let sealedChunk ← sealChunk prim v o u dataKey (UInt32.ofNat x.1) x.2
        return chunks ++ [sealedChunk])
      [] (pieces.mapIdx fun offset chunk => (offset, chunk)) w = .ok chunks w') :
    ∃ parts : List (Bytes × SealedRecord), parts.map Prod.fst = pieces ∧
      SealsParts prim v o u dataKey parts ∧ chunks = encryptedChunks parts := by
  -- the pieces done so far are the parts sealed so far
  let inv (done rest : List (ℕ × Bytes)) (acc : List EncryptedChunk) (_ : World ω) : Prop :=
    done ++ rest = (pieces.mapIdx fun offset chunk => (offset, chunk)) ∧
      ∃ parts : List (Bytes × SealedRecord), parts.map Prod.fst = done.map Prod.snd ∧
        SealsParts prim v o u dataKey parts ∧ acc = encryptedChunks parts
  have hstep : ∀ done x rest acc, Op.Triple (inv done (x :: rest) acc) (do
        Op.require (x.1 < 2 ^ 32) (.invalidInput "chunk index")
        let sealedChunk ← sealChunk prim v o u dataKey (UInt32.ofNat x.1) x.2
        return acc ++ [sealedChunk]) (inv (done ++ [x]) rest) fun _ _ => True := by
    rintro done ⟨offset, chunk⟩ rest acc x ⟨hall, parts, hdone, hparts, rfl⟩
    generalize hout : (do
      Op.require (offset < 2 ^ 32) (.invalidInput "chunk index")
      let sealedChunk ← sealChunk prim v o u dataKey (UInt32.ofNat offset) chunk
      return encryptedChunks parts ++ [sealedChunk] : VaultOp ω _) x = outcome
    cases outcome with
    | failed e y => trivial
    | crashed y => trivial
    | ok acc' y =>
      obtain ⟨_, x1, hcheck, hrest1⟩ := Op.bind_eq_ok.mp hout
      obtain ⟨-, rfl⟩ := Op.require_eq_ok.mp hcheck
      obtain ⟨c, x2, hseal, hreturn⟩ := Op.bind_eq_ok.mp hrest1
      cases hreturn
      obtain ⟨hindex, hlength, hencrypt⟩ := sealChunk_ok hseal
      -- the offset counts the pieces done
      have hlen : parts.length = done.length := by simpa using congrArg List.length hdone
      have hoffset : offset = parts.length := by
        have hat := congrArg (fun l => l[done.length]?) hall
        simp only [List.getElem?_append_right le_rfl, Nat.sub_self, List.getElem?_cons_zero,
          List.getElem?_mapIdx] at hat
        obtain ⟨piece, -, hpiece⟩ := Option.map_eq_some_iff.mp hat.symm
        rw [hlen]
        exact (Prod.mk.inj hpiece).1.symm
      subst hoffset
      refine ⟨by simpa using hall, parts ++ [(chunk, c.record)], by simp [hdone],
        hparts.concat hlength hencrypt, ?_⟩
      rw [encryptedChunks_concat, ← hindex]
  obtain ⟨-, parts, hdone, hparts, hchunks⟩ :=
    (Op.Triple.fold hstep [] (pieces.mapIdx fun offset chunk => (offset, chunk)) []).ok_of
      ⟨rfl, [], rfl, fun i part hi => by simp at hi, rfl⟩ h
  refine ⟨parts, ?_, hparts, hchunks⟩
  rw [hdone, List.nil_append]
  apply List.ext_getElem?
  intro i
  cases hi : pieces[i]? <;> simp [hi]

/-- A version prepared in memory comes from a sealed draft of the plaintext. -/
theorem prepareVersion_ok {o : ObjectId} {plaintext : Bytes} {size : ℕ} {prepared : PreparedVersion}
    (h : prepareVersion prim o plaintext size w = .ok prepared w') :
    ∃ d rootKey, w.vault.rootKey = some rootKey ∧ Draft.Sealed prim w.vaultId rootKey d ∧
      d.objectId = o ∧ d.plaintext = plaintext ∧ d.Even ∧
      prepared = ⟨d.storedVersion, encryptedChunks d.parts⟩ := by
  obtain ⟨rootKey, w1, hrequire, hrest1⟩ := Op.bind_eq_ok.mp h
  obtain ⟨hkey, rfl⟩ := requireRootKey_eq_ok.mp hrequire
  rw [Op.bind_of_ok (Op.get_apply w)] at hrest1
  obtain ⟨_, w2, hcheck, hrest2⟩ := Op.bind_eq_ok.mp hrest1
  obtain ⟨hsize, rfl⟩ := Op.require_eq_ok.mp hcheck
  obtain ⟨_, w3, hcheck, hrest3⟩ := Op.bind_eq_ok.mp hrest2
  obtain ⟨hsize32, rfl⟩ := Op.require_eq_ok.mp hcheck
  obtain ⟨_, w4, hcheck, hrest4⟩ := Op.bind_eq_ok.mp hrest3
  obtain ⟨hlen, rfl⟩ := Op.require_eq_ok.mp hcheck
  obtain ⟨_, w5, hcheck, hrest5⟩ := Op.bind_eq_ok.mp hrest4
  obtain ⟨-, rfl⟩ := Op.require_eq_ok.mp hcheck
  obtain ⟨_, w6, hcheck, hrest6⟩ := Op.bind_eq_ok.mp hrest5
  obtain ⟨hcount, rfl⟩ := Op.require_eq_ok.mp hcheck
  obtain ⟨versionId, w7, -, hrest7⟩ := Op.bind_eq_ok.mp hrest6
  obtain ⟨dataKey, w8, -, hrest8⟩ := Op.bind_eq_ok.mp hrest7
  obtain ⟨chunks, w9, hfold, hrest9⟩ := Op.bind_eq_ok.mp hrest8
  obtain ⟨manifest, w10, hmanifest, hrest10⟩ := Op.bind_eq_ok.mp hrest9
  obtain ⟨wrappedDek, w11, hdek, hreturn⟩ := Op.bind_eq_ok.mp hrest10
  cases hreturn
  obtain ⟨parts, hpieces, hparts, rfl⟩ := fold_sealChunk_ok hfold
  have hpos : 0 < size := Nat.pos_of_ne_zero hsize
  have hsizeNat : (UInt32.ofNat size).toNat = size := by
    rw [UInt32.toNat_ofNat']
    exact Nat.mod_eq_of_lt hsize32
  have hplaintext : (parts.map Prod.fst).flatten = plaintext := by
    rw [hpieces, Chunks.flatten_chunks hpos]
  have hlength : parts.length = Chunks.count size plaintext.length := by
    have := congrArg List.length hpieces
    simpa using this
  let d : Draft := ⟨o, versionId, dataKey, wrappedDek, manifest, UInt32.ofNat size, parts⟩
  have hd : d.plaintext = plaintext := hplaintext
  refine ⟨d, rootKey, hkey, ⟨?_, ?_, ?_, wrapDataKey_ok hdek, ?_, hparts⟩, rfl, hd, ?_, ?_⟩
  · intro hzero
    rw [show UInt32.ofNat size = 0 from hzero] at hsizeNat
    exact hsize hsizeNat.symm
  · rw [show d.parts.length = _ from hlength]
    exact hcount
  · rw [hd]
    exact hlen
  · have hcontents := sealManifest_ok hmanifest
    rw [← hlength, ← hplaintext] at hcontents
    exact hcontents
  · show parts.map Prod.fst = _
    rw [hpieces, hd]
    exact congrArg (Chunks.chunks · plaintext) hsizeNat.symm
  · simp only [Draft.storedVersion, hd, hlength, d]

/-! ### A streamed version -/

omit [Machine ω] in
theorem checkedAdd32_eq_ok {a b c : UInt32} {e : VaultError} (h : checkedAdd32 a b e = .ok c) :
    c.toNat = a.toNat + b.toNat := by
  unfold checkedAdd32 at h
  split at h
  · rename_i hlt
    obtain rfl := Except.ok.inj h
    rw [UInt32.toNat_add]
    exact Nat.mod_eq_of_lt hlt
  · cases h

omit [Machine ω] in
theorem checkedAdd64_eq_ok {a b c : UInt64} {e : VaultError} (h : checkedAdd64 a b e = .ok c) :
    c.toNat = a.toNat + b.toNat := by
  unfold checkedAdd64 at h
  split at h
  · rename_i hlt
    obtain rfl := Except.ok.inj h
    rw [UInt64.toNat_add]
    exact Nat.mod_eq_of_lt hlt
  · cases h

/-- Where the streaming loop stands after some parts, counted from the transaction as it began. -/
structure StreamsParts (prim : Primitives) (vaultId : VaultId) (dataKey : Block 32)
    (start : StreamingPublication) (parts : List (Bytes × SealedRecord)) (s : StreamingState) :
    Prop where
  seals : SealsParts prim vaultId start.objectId start.versionId dataKey parts
  bound : parts.length ≤ maxChunksPerVersion.toNat
  count : s.chunkCount.toNat = parts.length
  len : s.plaintextLen.toNat = (parts.map Prod.fst).flatten.length
  digest : s.digest = digestOf parts
  publication : s.publication = { start with
    working := { start.working with
      chunks := Database.insertRows start.versionId start.working.chunks (encryptedChunks parts) }
    nextChunkIndex := s.chunkCount
    plaintextLen := s.plaintextLen }

omit [Machine ω] in
/-- Where the loop stands after one more part, whose record is `c`. -/
theorem StreamsParts.step {v : VaultId} {dataKey : Block 32} {start : StreamingPublication}
    {parts : List (Bytes × SealedRecord)} {s : StreamingState} {chunk : Bytes} {c : EncryptedChunk}
    {working : Database} {next count : UInt32} {total len : UInt64} {e e' f f' : VaultError}
    (hs : StreamsParts prim v dataKey start parts s) (hbudget : s.chunkCount < maxChunksPerVersion)
    (hindex : c.index = s.chunkCount) (hshort : chunk.length < 2 ^ 32)
    (hencrypt : prim.encrypt dataKey.toList c.record.nonce
      (chunkAad v s.publication.objectId s.publication.versionId s.chunkCount
        (UInt32.ofNat chunk.length)) chunk = some c.record.ciphertext)
    (hinsert : s.publication.working.insertChunk s.publication.versionId c = .ok working)
    (hnext : checkedAdd32 s.publication.nextChunkIndex 1 e = .ok next)
    (htotal : checkedAdd64 s.publication.plaintextLen (UInt32.ofNat chunk.length).toUInt64 e' =
      .ok total)
    (hlen : checkedAdd64 s.plaintextLen (UInt32.ofNat chunk.length).toUInt64 f = .ok len)
    (hcount : checkedAdd32 s.chunkCount 1 f' = .ok count) :
    StreamsParts prim v dataKey start (parts ++ [(chunk, c.record)])
      { publication := { s.publication with working, nextChunkIndex := next, plaintextLen := total }
        digest := s.digest.update c.index c.record
        chunkCount := count
        plaintextLen := len } := by
  obtain ⟨-, -, -, rfl⟩ := Database.insertChunk_eq_ok.mp hinsert
  have hpub := hs.publication
  -- the transaction made the same two additions
  have hnextEq : next = count := by
    have hsame := checkedAdd32_eq_ok hnext
    rw [hpub, ← checkedAdd32_eq_ok hcount] at hsame
    exact UInt32.toNat_inj.mp hsame
  have htotalEq : total = len := by
    have hsame := checkedAdd64_eq_ok htotal
    rw [hpub, ← checkedAdd64_eq_ok hlen] at hsame
    exact UInt64.toNat_inj.mp hsame
  have hat : s.chunkCount = UInt32.ofNat parts.length := by
    rw [← hs.count, UInt32.ofNat_toNat]
  have hchunkLen : (UInt32.ofNat chunk.length).toUInt64.toNat = chunk.length := by
    rw [UInt32.toNat_toUInt64, UInt32.toNat_ofNat']
    exact Nat.mod_eq_of_lt hshort
  rw [hpub, hat] at hencrypt
  refine ⟨hs.seals.concat hshort hencrypt, ?_, ?_, ?_, ?_, ?_⟩
  · rw [List.length_append, ← hs.count]
    exact UInt32.lt_iff_toNat_lt.mp hbudget
  · rw [List.length_append, checkedAdd32_eq_ok hcount, hs.count]
    rfl
  · rw [checkedAdd64_eq_ok hlen, hs.len, hchunkLen]
    simp
  · rw [digestOf_concat, hs.digest, hindex, hat]
  · rw [encryptedChunks_concat, Database.insertRows_concat, hnextEq, htotalEq, hindex, hat, hpub]
    rfl

/-- One round of the loop adds one part. -/
theorem streamChunk_ok {v : VaultId} {dataKey : Block 32} {start : StreamingPublication}
    {parts : List (Bytes × SealedRecord)} {s s' : StreamingState} {chunk : Bytes}
    (hs : StreamsParts prim v dataKey start parts s)
    (h : streamChunk prim v dataKey s chunk w = .ok s' w') :
    ∃ r, StreamsParts prim v dataKey start (parts ++ [(chunk, r)]) s' := by
  obtain ⟨_, w1, hcheck, hrest1⟩ := Op.bind_eq_ok.mp h
  obtain ⟨hbudget, rfl⟩ := Op.require_eq_ok.mp hcheck
  obtain ⟨c, w2, hseal, hrest2⟩ := Op.bind_eq_ok.mp hrest1
  obtain ⟨p, w3, happend, hrest3⟩ := Op.bind_eq_ok.mp hrest2
  obtain ⟨len, w4, hlen, hrest4⟩ := Op.bind_eq_ok.mp hrest3
  obtain ⟨count, w5, hcount, hreturn⟩ := Op.bind_eq_ok.mp hrest4
  cases hreturn
  obtain ⟨hindex, hshort, hencrypt⟩ := sealChunk_ok hseal
  obtain ⟨_, w6, hnext, hrest5⟩ := Op.bind_eq_ok.mp happend
  obtain ⟨_, w7, -, hrest6⟩ := Op.bind_eq_ok.mp hrest5
  obtain ⟨working, w8, hinsert, hrest7⟩ := Op.bind_eq_ok.mp hrest6
  obtain ⟨next, w9, hnextCount, hrest8⟩ := Op.bind_eq_ok.mp hrest7
  obtain ⟨total, w10, htotal, hpublication⟩ := Op.bind_eq_ok.mp hrest8
  cases hpublication
  exact ⟨c.record, hs.step hbudget hindex hshort hencrypt (Op.ofExcept_eq_ok.mp hinsert).1
    (Op.ofExcept_eq_ok.mp hnextCount).1 (Op.ofExcept_eq_ok.mp htotal).1
    (Op.ofExcept_eq_ok.mp hlen).1 (Op.ofExcept_eq_ok.mp hcount).1⟩

/-- The draft a streamed version comes to. -/
def streamedDraft (start : StreamingPublication) (dataKey : Block 32) (wrappedDek : SealedRecord)
    (size : UInt32) (parts : List (Bytes × SealedRecord)) (manifest : SealedRecord) : Draft where
  objectId := start.objectId
  versionId := start.versionId
  dataKey := dataKey
  wrappedDek := wrappedDek
  manifest := manifest
  chunkSize := size
  parts := parts

omit [Machine ω] in
/-- The last writes of a streamed version leave its rows and point the object at it. -/
theorem finishBody_streamed {v : VaultId} {dataKey : Block 32} {db db' : Database}
    {start : StreamingPublication} {wrappedDek manifest : SealedRecord} {size : UInt32}
    {parts : List (Bytes × SealedRecord)} {s : StreamingState}
    (hstart : start.working = { db with
      versions := db.versions.insert start.versionId.blob
        (streamingPlaceholder start.objectId start.versionId wrappedDek size).toRow })
    (hs : StreamsParts prim v dataKey start parts s)
    (h : s.publication.finishBody manifest s.chunkCount = .ok db') :
    let d := streamedDraft start dataKey wrappedDek size parts manifest
    d.plaintext.length < sqlIntegerBound ∧
      db' = (d.addTo db).upsertActive d.objectId d.versionId := by
  intro d
  obtain ⟨len, hsql, hfinish⟩ := except_bind_eq_ok.mp h
  obtain ⟨hfits, rfl⟩ := sqlOfUInt64_eq_ok.mp hsql
  rw [hs.publication, hstart] at hfinish
  simp only [Table.lookup_insert_eq, if_true] at hfinish
  obtain ⟨_, -, hreturn⟩ := except_bind_eq_ok.mp hfinish
  obtain rfl := Except.ok.inj hreturn
  have hcount : UInt32.ofNat parts.length = s.chunkCount := by
    rw [← hs.count, UInt32.ofNat_toNat]
  have hlen : UInt64.ofNat d.plaintext.length = s.plaintextLen := by
    rw [show d.plaintext.length = _ from hs.len.symm, UInt64.ofNat_toNat]
  refine ⟨?_, ?_⟩
  · rw [hs.publication, hs.len] at hfits
    exact hfits
  · -- the placeholder row is overwritten with the row of the draft
    have hrow : d.storedVersion.toRow =
        { (streamingPlaceholder start.objectId start.versionId wrappedDek size).toRow with
          manifestNonce := manifest.nonce.toList
          manifestCiphertext := manifest.ciphertext
          plaintextLen := (s.plaintextLen.toNat : ℤ)
          chunkCount := sqlOfUInt32 s.chunkCount } := by
      rw [← hlen, ← hcount]
      rfl
    rw [Draft.addTo, hrow]
    simp only [Database.upsertActive, AList.insert_insert]
    rfl

end

end Vlt1

import Vlt1.Refinement
import Vlt1.Vault.Scripted

/-!
# The layout of a plaintext

A version states the length of its plaintext, the size and the number of its chunks. The writers cut the
plaintext and count; the reader goes the other way and derives the length of each chunk from the three numbers.

`admits_iff` says which numbers pass the checks of the reader, and with which lengths: all chunks but the last
are full and the last one makes up the rest, whatever that is. So the reader takes the layouts of the writers
(`Draft.Sealed.admits`), but also layouts with an empty or an oversized last chunk, which no writer produces
(`reader_layouts`, `lax_layouts`).

The budget of chunks keeps all numbers small, and so the arithmetic of the writers and of the reader is exact
(`arithmetic_fits`).
-/

namespace Vlt1

open Effect

/-! ### Checked sums -/

/-- A checked addition succeeds exactly if the sum is a 64-bit value. -/
theorem checkedAdd64_iff {a b c : UInt64} {e : VaultError} :
    checkedAdd64 a b e = .ok c ↔ c.toNat = a.toNat + b.toNat := by
  refine ⟨checkedAdd64_eq_ok, fun h => ?_⟩
  have hlt : a.toNat + b.toNat < 2 ^ 64 := h ▸ c.toNat_lt
  rw [checkedAdd64, if_pos hlt]
  refine congrArg _ (UInt64.toNat_inj.mp ?_)
  rw [UInt64.toNat_add, Nat.mod_eq_of_lt hlt, h]

theorem checkedAdd32_of_lt {a b : UInt32} {e : VaultError} (h : a.toNat + b.toNat < 2 ^ 32) :
    checkedAdd32 a b e = .ok (a + b) := if_pos h

theorem checkedAdd64_of_lt {a b : UInt64} {e : VaultError} (h : a.toNat + b.toNat < 2 ^ 64) :
    checkedAdd64 a b e = .ok (a + b) := if_pos h

/-- `written_len` after chunks of these lengths. -/
def writtenLen (start : UInt64) : List UInt32 → Except VaultError UInt64
  | [] => .ok start
  | len :: lens => do
    let total ← checkedAdd64 start len.toUInt64 (.invariant "plaintext length after chunk assembly")
    writtenLen total lens

/-- Adding one length after the other is adding all of them once. -/
theorem writtenLen_eq_ok {start total : UInt64} {lens : List UInt32} :
    writtenLen start lens = .ok total ↔ total.toNat = start.toNat + (lens.map UInt32.toNat).sum := by
  induction lens generalizing start with
  | nil => simp [writtenLen, UInt64.toNat_inj, eq_comm]
  | cons len lens ih =>
    rw [writtenLen, except_bind_eq_ok, List.map_cons, List.sum_cons, ← Nat.add_assoc]
    simp only [checkedAdd64_iff, ih, UInt32.toNat_toUInt64]
    constructor
    · rintro ⟨next, hnext, htotal⟩
      rw [htotal, hnext]
    · intro htotal
      -- the total is a 64-bit value, so the sums before it are
      have hlt : start.toNat + len.toNat < 2 ^ 64 := by
        have := total.toNat_lt
        omega
      refine ⟨start + len.toUInt64, ?_, ?_⟩
      · rw [UInt64.toNat_add, UInt32.toNat_toUInt64, Nat.mod_eq_of_lt hlt]
      · rw [UInt64.toNat_add, UInt32.toNat_toUInt64, Nat.mod_eq_of_lt hlt, htotal]

/-! ### What the reader derives -/

/-- The lengths that `expected_plaintext_chunk_len` gives for the indices of a Manifest. -/
def expectedLengths (m : Manifest) : Except VaultError (List UInt32) :=
  (List.range m.chunkCount.toNat).mapM fun i => expectedPlaintextChunkLen m (UInt32.ofNat i)

/-- The checks of the reader on the numbers of a version: the row has the numbers of the Manifest, each chunk
has a length, and the lengths make up the plaintext. -/
structure Admits (m : Manifest) (stored : StoredVersion) (lens : List UInt32) : Prop where
  binding : validateManifestBinding m stored = .ok ()
  lengths : expectedLengths m = .ok lens
  total : writtenLen 0 lens = .ok m.plaintextLen

section

variable {m : Manifest} {stored : StoredVersion} {lens : List UInt32} {i : ℕ}

/-- All chunks before the last are full. -/
theorem expectedPlaintextChunkLen_full (hi : i + 1 < m.chunkCount.toNat) :
    expectedPlaintextChunkLen m (UInt32.ofNat i) = .ok m.chunkSize := by
  have hindex : (UInt32.ofNat i).toNat = i :=
    toNat_ofNat_of_lt ((Nat.lt_of_succ_lt hi).trans m.chunkCount.toNat_lt)
  have hinside : ¬m.chunkCount ≤ UInt32.ofNat i := by
    rw [UInt32.le_iff_toNat_le, hindex]
    omega
  rw [expectedPlaintextChunkLen, if_neg hinside, if_pos (by rw [hindex]; exact hi)]

/-- The last chunk is the rest. -/
theorem expectedPlaintextChunkLen_last {len : UInt32} (hi : i + 1 = m.chunkCount.toNat) :
    expectedPlaintextChunkLen m (UInt32.ofNat i) = .ok len ↔
      m.plaintextLen.toNat = m.chunkSize.toNat * i + len.toNat := by
  have hindex : (UInt32.ofNat i).toNat = i :=
    toNat_ofNat_of_lt ((by omega : i < m.chunkCount.toNat).trans m.chunkCount.toNat_lt)
  have hinside : ¬m.chunkCount ≤ UInt32.ofNat i := by
    rw [UInt32.le_iff_toNat_le, hindex]
    omega
  have hbefore : m.chunkCount.toNat - 1 = i := by omega
  rw [expectedPlaintextChunkLen, if_neg hinside, if_neg (by rw [hindex]; omega), hbefore]
  simp only
  split
  · refine ⟨nofun, fun h => ?_⟩
    omega
  · rename_i hle
    split
    · rename_i hlt
      rw [Except.ok.injEq, ← UInt32.toNat_inj, toNat_ofNat_of_lt hlt]
      omega
    · rename_i hlong
      refine ⟨nofun, fun h => ?_⟩
      have := len.toNat_lt
      omega

theorem mapM_eq_ok_replicate {α β ε : Type} {f : α → Except ε β} {b : β} {l : List α}
    (h : ∀ a ∈ l, f a = .ok b) : l.mapM f = .ok (List.replicate l.length b) := by
  induction l with
  | nil => rfl
  | cons a l ih =>
    rw [List.mapM_cons, h a List.mem_cons_self, ih fun x hx => h x (List.mem_cons_of_mem _ hx)]
    rfl

/-- The lengths the reader derives: full chunks, and the rest. -/
theorem expectedLengths_eq_ok :
    expectedLengths m = .ok lens ↔
      (m.chunkCount.toNat = 0 ∧ lens = []) ∨ ∃ n tail, m.chunkCount.toNat = n + 1 ∧
        m.plaintextLen.toNat = m.chunkSize.toNat * n + tail.toNat ∧
          lens = List.replicate n m.chunkSize ++ [tail] := by
  unfold expectedLengths
  cases hcount : m.chunkCount.toNat with
  | zero => simp [eq_comm, pure, Except.pure]
  | succ n =>
    have hfull : ∀ i ∈ List.range n,
        expectedPlaintextChunkLen m (UInt32.ofNat i) = .ok m.chunkSize := fun i hi =>
      expectedPlaintextChunkLen_full (by rw [hcount]; exact Nat.succ_lt_succ (List.mem_range.mp hi))
    rw [List.range_succ, List.mapM_append, mapM_eq_ok_replicate hfull, List.length_range]
    simp only [except_bind_eq_ok, List.mapM_cons, List.mapM_nil]
    constructor
    · rintro ⟨_, hfirst, _, ⟨tail, htail, _, hnil, hlast⟩, hlens⟩
      cases hfirst
      cases hnil
      cases hlast
      cases hlens
      exact .inr ⟨n, tail, rfl, (expectedPlaintextChunkLen_last hcount.symm).mp htail, rfl⟩
    · rintro (⟨hzero, -⟩ | ⟨k, tail, hk, hlen, rfl⟩)
      · cases hzero
      · obtain rfl : n = k := Nat.succ.inj hk
        exact ⟨_, rfl, _, ⟨tail, (expectedPlaintextChunkLen_last hcount.symm).mpr hlen, _, rfl, rfl⟩,
          rfl⟩

/-- The lengths derived for at least one chunk make up the plaintext. -/
theorem sum_expectedLengths (h : expectedLengths m = .ok lens) (hcount : m.chunkCount ≠ 0) :
    (lens.map UInt32.toNat).sum = m.plaintextLen.toNat := by
  rcases expectedLengths_eq_ok.mp h with ⟨hzero, -⟩ | ⟨n, tail, -, hlen, rfl⟩
  · exact absurd (UInt32.toNat_inj.mp hzero) hcount
  · simp [hlen, Nat.mul_comm]

/-- A Manifest without a chunk size is refused. -/
theorem chunkSize_pos (h : validateManifestBinding m stored = .ok ()) : 0 < m.chunkSize.toNat := by
  obtain ⟨_, -, hpolicy⟩ := except_bind_eq_ok.mp h
  exact Nat.pos_of_ne_zero fun hzero =>
    (ensure_eq_ok.mp hpolicy).1 (UInt32.toNat_inj.mp hzero)

/-- Which numbers the reader admits, and with which lengths. -/
theorem admits_iff (hbinding : validateManifestBinding m stored = .ok ()) :
    Admits m stored lens ↔
      (m.chunkCount = 0 ∧ m.plaintextLen = 0 ∧ lens = []) ∨ ∃ n tail, m.chunkCount.toNat = n + 1 ∧
        m.plaintextLen.toNat = m.chunkSize.toNat * n + tail.toNat ∧
          lens = List.replicate n m.chunkSize ++ [tail] := by
  constructor
  · rintro ⟨-, hlengths, htotal⟩
    rcases expectedLengths_eq_ok.mp hlengths with ⟨hzero, rfl⟩ | hsome
    · exact .inl ⟨UInt32.toNat_inj.mp hzero, (Except.ok.inj htotal).symm, rfl⟩
    · exact .inr hsome
  · rintro (⟨hzero, hlen, rfl⟩ | ⟨n, tail, hcount, hlen, rfl⟩)
    · refine ⟨hbinding, expectedLengths_eq_ok.mpr (.inl ⟨by rw [hzero]; rfl, rfl⟩), ?_⟩
      rw [hlen]
      rfl
    · have hlengths := expectedLengths_eq_ok.mpr (.inr ⟨n, tail, hcount, hlen, rfl⟩)
      have hne : m.chunkCount ≠ 0 := by
        intro hzero
        rw [hzero] at hcount
        cases hcount
      refine ⟨hbinding, hlengths, writtenLen_eq_ok.mpr ?_⟩
      rw [sum_expectedLengths hlengths hne]
      exact (Nat.zero_add _).symm

/-- The numbers and lengths of a plaintext that was cut into pieces of the chunk size. -/
structure CutEvenly (m : Manifest) (lens : List UInt32) : Prop where
  count : m.chunkCount.toNat = Chunks.count m.chunkSize.toNat m.plaintextLen.toNat
  pieces : ∀ plaintext : Bytes, plaintext.length = m.plaintextLen.toNat →
    lens.map UInt32.toNat = (Chunks.chunks m.chunkSize.toNat plaintext).map List.length

/-- The admitted layouts that come from a cut are those with a last chunk that is neither empty nor longer than
the others. -/
theorem Admits.cutEvenly_iff (h : Admits m stored lens) :
    CutEvenly m lens ↔ ∀ n, m.chunkCount.toNat = n + 1 →
      m.chunkSize.toNat * n < m.plaintextLen.toNat ∧
        m.plaintextLen.toNat ≤ m.chunkSize.toNat * (n + 1) := by
  have hsize := chunkSize_pos h.binding
  constructor
  · intro hcut n hn
    have hcount := (Chunks.count_eq_succ_iff hsize).mp (hcut.count.symm.trans hn)
    rw [Nat.mul_comm _ n, Nat.mul_comm _ (n + 1)]
    exact hcount
  · intro htail
    rcases (admits_iff h.binding).mp h with ⟨hzero, hlen, rfl⟩ | ⟨n, tail, hn, hlen, rfl⟩
    · refine ⟨?_, fun plaintext hplaintext => ?_⟩
      · rw [hzero, hlen]
        exact ((Chunks.count_eq_zero hsize).mpr rfl).symm
      · rw [hlen] at hplaintext
        rw [List.length_eq_zero_iff.mp hplaintext, Chunks.chunks_nil _ hsize]
        rfl
    · obtain ⟨hlt, hle⟩ := htail n hn
      rw [Nat.mul_comm _ n] at hlt
      rw [Nat.mul_comm _ (n + 1)] at hle
      have hcount := (Chunks.count_eq_succ_iff hsize).mpr ⟨hlt, hle⟩
      refine ⟨hn.trans hcount.symm, fun plaintext hplaintext => ?_⟩
      rw [Chunks.map_length_chunks hsize (by rw [hplaintext, hcount]), hplaintext, hlen,
        Nat.mul_comm _ n, Nat.add_sub_cancel_left]
      simp

end

/-! ### What the writers produce -/

/-- The lengths of the parts of a draft. -/
def Draft.lengths (d : Draft) : List UInt32 := d.parts.map fun part => UInt32.ofNat part.1.length

section

variable {prim : Primitives} {v : VaultId} {k : Block 32} {d : Draft}

/-- The numbers of a plaintext that a writer cut are admitted, with the lengths of its parts. -/
theorem Draft.Sealed.admits (h : d.Sealed prim v k) (heven : d.Even) :
    Admits (d.contents prim) d.storedVersion d.lengths ∧ CutEvenly (d.contents prim) d.lengths := by
  have hbinding := h.validateManifestBinding
  have hsize : 0 < d.chunkSize.toNat := chunkSize_pos hbinding
  have hcountNat : (d.contents prim).chunkCount.toNat = d.parts.length := h.toNat_chunkCount
  have hlenNat : (d.contents prim).plaintextLen.toNat = d.plaintext.length := h.toNat_plaintextLen
  have hlength : d.parts.length = Chunks.count d.chunkSize.toNat d.plaintext.length := by
    simpa using congrArg List.length heven
  have hlengths : d.lengths = ((Chunks.chunks d.chunkSize.toNat d.plaintext).map List.length).map
      UInt32.ofNat := by
    rw [← heven]
    simp [Draft.lengths]
  have hadmits : Admits (d.contents prim) d.storedVersion d.lengths := by
    refine (admits_iff hbinding).mpr ?_
    cases hn : d.parts.length with
    | zero =>
      have hparts : d.parts = [] := List.length_eq_zero_iff.mp hn
      refine .inl ⟨?_, ?_, ?_⟩
      · rw [Draft.contents, hn]
        rfl
      · rw [Draft.contents, Draft.plaintext, hparts]
        rfl
      · rw [Draft.lengths, hparts]
        rfl
    | succ n =>
      have hcount := hlength.symm.trans hn
      obtain ⟨hlt, hle⟩ := (Chunks.count_eq_succ_iff hsize).mp hcount
      have hshort : d.plaintext.length - n * d.chunkSize.toNat < 2 ^ 32 := by
        have := d.chunkSize.toNat_lt
        rw [Nat.add_mul, Nat.one_mul] at hle
        omega
      refine .inr ⟨n, UInt32.ofNat (d.plaintext.length - n * d.chunkSize.toNat), hcountNat.trans hn,
        ?_, ?_⟩
      · rw [hlenNat, toNat_ofNat_of_lt hshort, show (d.contents prim).chunkSize = d.chunkSize from rfl,
          Nat.mul_comm]
        omega
      · rw [hlengths, Chunks.map_length_chunks hsize hcount]
        simp [show (d.contents prim).chunkSize = d.chunkSize from rfl]
  refine ⟨hadmits, hadmits.cutEvenly_iff.mpr fun n hn => ?_⟩
  have hcount := hlength.symm.trans (hcountNat.symm.trans hn)
  rw [hlenNat, Nat.mul_comm _ n, Nat.mul_comm _ (n + 1)]
  exact (Chunks.count_eq_succ_iff hsize).mp hcount

variable {ω : Type} [Machine ω] {w w' : World ω} {o : ObjectId}

/-- The last step commits what `finishBody` made of the tables. -/
theorem finish_ok {p : StreamingPublication} {manifest : SealedRecord} {count : UInt32} {a : Unit}
    (h : p.finish manifest count w = .ok a w') : p.finishBody manifest count = .ok w'.db := by
  obtain ⟨_, w1, -, hrest1⟩ := Op.bind_eq_ok.mp h
  obtain ⟨_, w2, -, hrest2⟩ := Op.bind_eq_ok.mp hrest1
  obtain ⟨db, w3, hbody, hrest3⟩ := Op.bind_eq_ok.mp hrest2
  obtain ⟨hdb, rfl⟩ := Op.ofExcept_eq_ok.mp hbody
  obtain ⟨_, w4, hcommit, henforce⟩ := Op.bind_eq_ok.mp hrest3
  cases hcommit
  -- the permission step leaves the tables alone
  obtain ⟨files, w5, hfiles, henforce⟩ := Op.bind_eq_ok.mp henforce
  cases hfiles
  obtain ⟨-, rfl⟩ := Op.ofExcept_eq_ok.mp henforce
  exact hdb

/-- A streamed version comes from a sealed draft of what the reader delivered, and its row is committed. -/
theorem putFromReaderInner_ok {reader : Reader} {size : ℕ} {u : VersionId}
    (h : putFromReaderInner prim o reader size w = .ok u w') :
    ∃ d rootKey, w.vault.rootKey = some rootKey ∧ Draft.Sealed prim w.vaultId rootKey d ∧
      d.OfReader o reader size ∧ d.versionId = u ∧
      w'.db.versions.lookup u.blob = some d.storedVersion.toRow := by
  obtain ⟨_, w1, hcheck, hrest1⟩ := Op.bind_eq_ok.mp h
  obtain ⟨hpos, rfl⟩ := Op.require_eq_ok.mp hcheck
  obtain ⟨_, w2, hcheck, hrest2⟩ := Op.bind_eq_ok.mp hrest1
  obtain ⟨hsize, rfl⟩ := Op.require_eq_ok.mp hcheck
  obtain ⟨rootKey, w3, hrequire, hrest3⟩ := Op.bind_eq_ok.mp hrest2
  obtain ⟨hkey, rfl⟩ := requireRootKey_eq_ok.mp hrequire
  rw [Op.bind_of_ok (Op.get_apply w)] at hrest3
  obtain ⟨versionId, w4, -, hrest4⟩ := Op.bind_eq_ok.mp hrest3
  obtain ⟨dataKey, w5, -, hrest5⟩ := Op.bind_eq_ok.mp hrest4
  obtain ⟨wrappedDek, w6, hdek, hrest6⟩ := Op.bind_eq_ok.mp hrest5
  obtain ⟨start, w7, hbegin, hrest7⟩ := Op.bind_eq_ok.mp hrest6
  obtain ⟨s, w8, hloop, hrest8⟩ := Op.bind_eq_ok.mp hrest7
  obtain ⟨_, w9, hending, hrest9⟩ := Op.bind_eq_ok.mp hrest8
  obtain ⟨manifest, w10, hmanifest, hrest10⟩ := Op.bind_eq_ok.mp hrest9
  obtain ⟨_, w11, hfinish, hreturn⟩ := Op.bind_eq_ok.mp hrest10
  cases hreturn
  obtain ⟨hstart, -, hbegins⟩ := (triple_beginStreamingPublication (Steady.of_vault fun _ => True) u
    wrappedDek _).ok_of trivial hbegin
  obtain ⟨rfl, rfl, hindex, hlen⟩ := hstart
  obtain ⟨⟨parts, hpieces, hs⟩, -⟩ := (triple_streamChunks (Steady.of_vault fun _ => True) hindex hlen
    (reader.chunks size).1).ok_of trivial hloop
  obtain ⟨-, hdb⟩ := finishBody_streamed hbegins.working hs (finish_ok hfinish)
  refine ⟨streamedDraft start dataKey wrappedDek (UInt32.ofNat size) parts manifest, rootKey, hkey,
    hs.sealed (ofNat_ne_zero hpos hsize) (wrapDataKey_ok hdek) (sealManifest_ok hmanifest), ?_, rfl, ?_⟩
  · exact ⟨rfl, Prod.ext hpieces.symm (Op.ofExcept_eq_ok.mp hending).1, toNat_ofNat_of_lt hsize⟩
  · rw [hdb]
    exact AList.lookup_insert _

end

/-- The reader admits the layouts with full chunks and any last chunk. Those that a cut produces are the ones
whose last chunk is neither empty nor longer than the others, and both writers produce such layouts, the
streaming one as long as its reader delivers nothing after end of file. -/
theorem reader_layouts (prim : Primitives) :
    (∀ m stored lens, validateManifestBinding m stored = .ok () →
      (Admits m stored lens ↔
        (m.chunkCount = 0 ∧ m.plaintextLen = 0 ∧ lens = []) ∨ ∃ n tail, m.chunkCount.toNat = n + 1 ∧
          m.plaintextLen.toNat = m.chunkSize.toNat * n + tail.toNat ∧
            lens = List.replicate n m.chunkSize ++ [tail]) ∧
      (Admits m stored lens → (CutEvenly m lens ↔ ∀ n, m.chunkCount.toNat = n + 1 →
        m.chunkSize.toNat * n < m.plaintextLen.toNat ∧
          m.plaintextLen.toNat ≤ m.chunkSize.toNat * (n + 1)))) ∧
    (∀ (ω : Type) [Machine ω] (w w' : World ω) o plaintext size prepared,
      prepareVersion prim o plaintext size w = .ok prepared w' →
        ∃ d rootKey, Draft.Sealed prim w.vaultId rootKey d ∧ d.plaintext = plaintext ∧
          prepared = ⟨d.storedVersion, encryptedChunks d.parts⟩ ∧
          Admits (d.contents prim) d.storedVersion d.lengths ∧ CutEvenly (d.contents prim) d.lengths) ∧
    ∀ (ω : Type) [Machine ω] (w w' : World ω) o (reader : Reader) size u,
      putFromReaderInner prim o reader size w = .ok u w' → reader.EndsOnce →
        ∃ d rootKey, Draft.Sealed prim w.vaultId rootKey d ∧ d.plaintext = reader.contents ∧
          d.OfReader o reader size ∧ d.versionId = u ∧
          w'.db.versions.lookup u.blob = some d.storedVersion.toRow ∧
          Admits (d.contents prim) d.storedVersion d.lengths ∧
          CutEvenly (d.contents prim) d.lengths := by
  refine ⟨fun m stored lens hbinding => ⟨admits_iff hbinding, fun h => h.cutEvenly_iff⟩, ?_, ?_⟩
  · intro ω _ w w' o plaintext size prepared h
    obtain ⟨d, rootKey, -, hsealed, -, hplaintext, heven, hprepared⟩ := prepareVersion_ok h
    exact ⟨d, rootKey, hsealed, hplaintext, hprepared, hsealed.admits heven⟩
  · intro ω _ w w' o reader size u h hends
    obtain ⟨d, rootKey, -, hsealed, hof, hversion, hrow⟩ := putFromReaderInner_ok h
    obtain ⟨-, hplaintext, heven⟩ := hof.of hsealed.size hends
    exact ⟨d, rootKey, hsealed, hplaintext, hof, hversion, hrow, hsealed.admits heven⟩

/-- A Manifest with these numbers. -/
def layoutManifest (plaintextLen : UInt64) (chunkSize chunkCount : UInt32) : Manifest where
  formatVersion := formatVersion
  objectId := ⟨Block.zero 16⟩
  versionId := ⟨Block.zero 16⟩
  plaintextLen := plaintextLen
  chunkSize := chunkSize
  chunkCount := chunkCount
  chunkDigest := Block.zero 32

/-- The row with the numbers of a Manifest. -/
def rowOf (m : Manifest) : StoredVersion where
  objectId := m.objectId
  versionId := m.versionId
  wrappedDek := ⟨Block.zero 12, []⟩
  manifest := ⟨Block.zero 12, []⟩
  plaintextLen := m.plaintextLen
  chunkSize := m.chunkSize
  chunkCount := m.chunkCount

/-- Ten bytes in chunks of size four, and five bytes that the two writers cut. -/
theorem reader_layouts_sample :
    (Admits (layoutManifest 10 4 3) (rowOf (layoutManifest 10 4 3)) [4, 4, 2] ∧
      CutEvenly (layoutManifest 10 4 3) [4, 4, 2]) ∧
    (∃ prepared w', prepareVersion .checksum (.repeated 2) [1, 2, 3, 4, 5] 4 sampleWorld =
        .ok prepared w' ∧ ∃ d : Draft, d.plaintext = [1, 2, 3, 4, 5] ∧
      prepared.storedVersion = d.storedVersion ∧ CutEvenly (d.contents .checksum) d.lengths) ∧
    ∃ u w', putFromReaderInner .checksum (.repeated 2) [.data [1, 2, 3], .data [4, 5]] 4 sampleWorld =
        .ok u w' ∧ ∃ d : Draft, d.plaintext = [1, 2, 3, 4, 5] ∧
      w'.db.versions.lookup u.blob = some d.storedVersion.toRow ∧
      CutEvenly (d.contents .checksum) d.lengths := by
  obtain ⟨hreader, hprepare, hstream⟩ := reader_layouts .checksum
  refine ⟨?_, ?_, ?_⟩
  · obtain ⟨hadmits, heven⟩ := hreader (layoutManifest 10 4 3) (rowOf (layoutManifest 10 4 3)) [4, 4, 2] rfl
    have hlayout := hadmits.mpr (.inr ⟨2, 2, rfl, rfl, rfl⟩)
    refine ⟨hlayout, (heven hlayout).mpr fun n hn => ?_⟩
    obtain rfl : n = 2 := by simpa [layoutManifest] using hn.symm
    decide
  · obtain ⟨prepared, w', hok⟩ := Outcome.exists_eq_ok (o := prepareVersion .checksum (.repeated 2)
      [1, 2, 3, 4, 5] 4 sampleWorld) (by decide +kernel)
    obtain ⟨d, -, -, hplaintext, rfl, -, heven⟩ := hprepare _ _ _ _ _ _ _ hok
    exact ⟨_, w', hok, d, hplaintext, rfl, heven⟩
  · obtain ⟨u, w', hok⟩ := Outcome.exists_eq_ok (o := putFromReaderInner .checksum (.repeated 2)
      [.data [1, 2, 3], .data [4, 5]] 4 sampleWorld) (by decide +kernel)
    obtain ⟨d, -, -, hplaintext, -, -, hrow, -, heven⟩ := hstream _ _ _ _ _ _ _ hok (by simp [Reader.EndsOnce])
    exact ⟨u, w', hok, d, hplaintext, hrow, heven⟩

/-- The reader admits eight bytes in three chunks of size four, the last of them empty, and ten bytes in one
chunk of size four. A plaintext of that length has two and three pieces. And a reader that goes on after end of
file makes the streaming writer produce numbers that are not admitted. -/
theorem lax_layouts :
    (Admits (layoutManifest 8 4 3) (rowOf (layoutManifest 8 4 3)) [4, 4, 0] ∧
      ¬CutEvenly (layoutManifest 8 4 3) [4, 4, 0]) ∧
    (Admits (layoutManifest 10 4 1) (rowOf (layoutManifest 10 4 1)) [10] ∧
      ¬CutEvenly (layoutManifest 10 4 1) [10]) ∧
    ∀ prim d o, Draft.OfReader d o [.data [97], .data [], .data [98]] 4 →
      ∀ stored lens, ¬Admits (d.contents prim) stored lens := by
  refine ⟨⟨⟨rfl, rfl, rfl⟩, fun h => ?_⟩, ⟨⟨rfl, rfl, rfl⟩, fun h => ?_⟩, ?_⟩
  · exact absurd h.count (by decide)
  · exact absurd h.count (by decide)
  · intro prim d o hof stored lens h
    have hpieces : d.parts.map Prod.fst = [[97], [98]] := by
      have heq := hof.pieces
      rw [show Reader.chunks 4 [.data [97], .data [], .data [98]] = ([[97], [98]], .ok ()) from rfl] at heq
      exact (Prod.mk.inj heq).1.symm
    have hcount : (d.contents prim).chunkCount = 2 := by
      have hlength : d.parts.length = 2 := by simpa using congrArg List.length hpieces
      rw [Draft.contents, hlength]
      rfl
    have hlen : (d.contents prim).plaintextLen = 2 := by
      rw [Draft.contents, Draft.plaintext, hpieces]
      rfl
    have hsize : (d.contents prim).chunkSize.toNat = 4 := hof.size
    -- one full chunk is longer than the two bytes
    rcases expectedLengths_eq_ok.mp h.lengths with ⟨hzero, -⟩ | ⟨n, tail, hn, hrest, -⟩
    · rw [hcount] at hzero
      cases hzero
    · rw [hcount, show (2 : UInt32).toNat = 2 from rfl] at hn
      rw [hlen, hsize, show (2 : UInt64).toNat = 2 from rfl] at hrest
      omega

/-! ### Machine arithmetic -/

section

variable {prim : Primitives} {size : ℕ} {plaintext : Bytes}

/-- The arithmetic of `prepare_version` behind the check of the budget, and of the row it is for. -/
structure PlaintextFits (size : ℕ) (plaintext : Bytes) : Prop where
  bound : plaintext.length ≤ 2 ^ 24 * (2 ^ 32 - 1)
  signed : plaintext.length < 2 ^ 63
  len : (UInt64.ofNat plaintext.length).toNat = plaintext.length
  count : (UInt32.ofNat (Chunks.count size plaintext.length)).toNat =
    Chunks.count size plaintext.length
  sql : sqlOfUInt64 (UInt64.ofNat plaintext.length) = .ok (plaintext.length : ℤ)
  /-- Each index and each length is a 32-bit value. -/
  pieces : ∀ i chunk, (Chunks.chunks size plaintext)[i]? = some chunk →
    i < 2 ^ 32 ∧ chunk.length < 2 ^ 32

theorem plaintextFits (hpos : 0 < size) (hsize : size < 2 ^ 32)
    (hbudget : Chunks.count size plaintext.length ≤ maxChunksPerVersion.toNat) :
    PlaintextFits size plaintext := by
  have hmax : maxChunksPerVersion.toNat = 2 ^ 24 := rfl
  have hbound : plaintext.length ≤ 2 ^ 24 * (2 ^ 32 - 1) :=
    (Chunks.le_count_mul hpos).trans (Nat.mul_le_mul (hmax ▸ hbudget) (by omega))
  have hlen : (UInt64.ofNat plaintext.length).toNat = plaintext.length := by
    rw [UInt64.toNat_ofNat']
    exact Nat.mod_eq_of_lt (by omega)
  refine ⟨hbound, by omega, hlen, toNat_ofNat_of_lt (by omega), ?_, fun i chunk hi => ?_⟩
  · refine sqlOfUInt64_eq_ok.mpr ⟨?_, by rw [hlen]⟩
    rw [hlen, show sqlIntegerBound = 2 ^ 63 from rfl]
    omega
  · rw [Chunks.getElem?_chunks] at hi
    split at hi
    · obtain rfl := Option.some.inj hi
      have hle : (Chunks.segment size plaintext i).length ≤ size := Chunks.length_segment_le i
      exact ⟨by omega, by omega⟩
    · cases hi

/-- The arithmetic of one round of the streaming loop. -/
structure RoundFits (s : StreamingState) (chunk : Bytes) : Prop where
  chunkLen : chunk.length < 2 ^ 32
  nextChunkIndex : ∀ e, checkedAdd32 s.publication.nextChunkIndex 1 e =
    .ok (s.publication.nextChunkIndex + 1)
  rowLen : ∀ e, checkedAdd64 s.publication.plaintextLen (UInt32.ofNat chunk.length).toUInt64 e =
    .ok (s.publication.plaintextLen + (UInt32.ofNat chunk.length).toUInt64)
  plaintextLen : ∀ e, checkedAdd64 s.plaintextLen (UInt32.ofNat chunk.length).toUInt64 e =
    .ok (s.plaintextLen + (UInt32.ofNat chunk.length).toUInt64)
  chunkCount : ∀ e, checkedAdd32 s.chunkCount 1 e = .ok (s.chunkCount + 1)

/-- The numbers of a streamed version: the row has those of the Manifest, and they can be stored. -/
structure StreamFits (s : StreamingState) : Prop where
  bound : s.plaintextLen.toNat ≤ 2 ^ 24 * (2 ^ 32 - 1)
  signed : s.plaintextLen.toNat < 2 ^ 63
  rowLen : s.publication.plaintextLen = s.plaintextLen
  rowCount : s.publication.nextChunkIndex = s.chunkCount
  sql : sqlOfUInt64 s.publication.plaintextLen = .ok (s.plaintextLen.toNat : ℤ)

/-- Parts that fit the buffer keep the numbers of the loop small. -/
theorem StreamsParts.fits {v : VaultId} {dataKey : Block 32} {start : StreamingPublication}
    {parts : List (Bytes × SealedRecord)} {s : StreamingState}
    (hs : StreamsParts prim v dataKey start parts s) (hsize : size < 2 ^ 32)
    (hparts : ∀ piece ∈ parts.map Prod.fst, piece.length ≤ size) :
    StreamFits s ∧ ∀ chunk : Bytes, chunk.length ≤ size → s.chunkCount < maxChunksPerVersion →
      RoundFits s chunk := by
  have hmax : maxChunksPerVersion.toNat = 2 ^ 24 := rfl
  have hbound : s.plaintextLen.toNat ≤ 2 ^ 24 * (2 ^ 32 - 1) := by
    have hle := length_flatten_le hparts
    rw [List.length_map] at hle
    rw [hs.len]
    exact hle.trans (Nat.mul_le_mul (hmax ▸ hs.bound) (by omega))
  have hrowLen : s.publication.plaintextLen = s.plaintextLen := by rw [hs.publication]
  have hrowCount : s.publication.nextChunkIndex = s.chunkCount := by rw [hs.publication]
  refine ⟨⟨hbound, by omega, hrowLen, hrowCount, sqlOfUInt64_eq_ok.mpr ⟨?_, by rw [hrowLen]⟩⟩,
    fun chunk hchunk hcount => ?_⟩
  · rw [hrowLen, show sqlIntegerBound = 2 ^ 63 from rfl]
    omega
  · have hcount : s.chunkCount.toNat < 2 ^ 24 := hmax ▸ UInt32.lt_iff_toNat_lt.mp hcount
    have hnext : s.chunkCount.toNat + (1 : UInt32).toNat < 2 ^ 32 := by
      rw [show (1 : UInt32).toNat = 1 from rfl]
      omega
    have htotal : s.plaintextLen.toNat + (UInt32.ofNat chunk.length).toUInt64.toNat < 2 ^ 64 := by
      rw [UInt32.toNat_toUInt64, toNat_ofNat_of_lt (by omega)]
      omega
    refine ⟨by omega, fun e => ?_, fun e => ?_, fun e => checkedAdd64_of_lt htotal,
      fun e => checkedAdd32_of_lt hnext⟩
    · rw [hrowCount]
      exact checkedAdd32_of_lt hnext
    · rw [hrowLen]
      exact checkedAdd64_of_lt htotal

end

/-- An addition, subtraction or multiplication that stops the process when the result does not fit. -/
def trapping (width result : ℕ) (fits : Prop) [Decidable fits] : Option ℕ :=
  if fits ∧ result < 2 ^ width then some result else none

/-- `expected_plaintext_chunk_len` in machine arithmetic; `none` is an overflow. -/
def trappingChunkLen (m : Manifest) (index : UInt32) : Option (Except VaultError UInt32) :=
  if m.chunkCount ≤ index then some (.error (.invalidFormat "chunk index outside Manifest"))
  else do
    let next ← trapping 32 (index.toNat + 1) True
    if next < m.chunkCount.toNat then return .ok m.chunkSize
    let last ← trapping 32 (m.chunkCount.toNat - 1) (1 ≤ m.chunkCount.toNat)
    let before ← trapping 64 (m.chunkSize.toNat * last) True
    if m.plaintextLen.toNat < before then return .error (.invalidFormat "Manifest plaintext length")
    let tail := m.plaintextLen.toNat - before
    if tail < 2 ^ 32 then return .ok (UInt32.ofNat tail)
    return .error (.invalidFormat "final chunk length")

theorem trapping_eq_some {width result : ℕ} {fits : Prop} [Decidable fits] (hfits : fits)
    (h : result < 2 ^ width) : trapping width result fits = some result := if_pos ⟨hfits, h⟩

/-- Nothing overflows while the length of a chunk is derived. -/
theorem trappingChunkLen_eq (m : Manifest) (index : UInt32) :
    trappingChunkLen m index = some (expectedPlaintextChunkLen m index) := by
  unfold trappingChunkLen expectedPlaintextChunkLen
  have hcount := m.chunkCount.toNat_lt
  by_cases hinside : m.chunkCount ≤ index
  · rw [if_pos hinside, if_pos hinside]
  · have hlt : index.toNat < m.chunkCount.toNat := by
      rw [UInt32.le_iff_toNat_le] at hinside
      omega
    have hproduct : m.chunkSize.toNat * (m.chunkCount.toNat - 1) < 2 ^ 64 :=
      calc m.chunkSize.toNat * (m.chunkCount.toNat - 1)
          ≤ (2 ^ 32 - 1) * (2 ^ 32 - 1) :=
            Nat.mul_le_mul (Nat.le_pred_of_lt m.chunkSize.toNat_lt) (by omega)
        _ < 2 ^ 64 := by norm_num
    rw [if_neg hinside, if_neg hinside, trapping_eq_some trivial (by omega)]
    dsimp only [Option.bind_eq_bind, Option.bind_some]
    by_cases hfull : index.toNat + 1 < m.chunkCount.toNat
    · rw [if_pos hfull, if_pos hfull]
      rfl
    · rw [if_neg hfull, if_neg hfull, trapping_eq_some (by omega) (by omega)]
      dsimp only [Option.bind_some]
      rw [trapping_eq_some trivial hproduct]
      dsimp only [Option.bind_some]
      split
      · rfl
      · split <;> rfl

/-- Behind the check of the budget no addition and no conversion of the writers fails, the row of a streamed
version has the length of its Manifest, and nothing overflows on the way back; the lengths derived for at least
one chunk make up the plaintext. -/
theorem arithmetic_fits (prim : Primitives) :
    (∀ size (plaintext : Bytes), 0 < size → size < 2 ^ 32 →
      Chunks.count size plaintext.length ≤ maxChunksPerVersion.toNat →
        PlaintextFits size plaintext) ∧
    (∀ (ω : Type) [Machine ω] (w₀ w w' : World ω) v dataKey o u wrappedDek start (reader : Reader) size
        rounds s, size < 2 ^ 32 →
      beginStreamingPublication o u wrappedDek (UInt32.ofNat size) w₀ = .ok start w →
      Op.fold (streamChunk prim v dataKey)
        { publication := start, digest := .new, chunkCount := 0, plaintextLen := 0 }
        ((reader.chunks size).1.take rounds) w = .ok s w' →
      StreamFits s ∧ ∀ chunk, (reader.chunks size).1[rounds]? = some chunk →
        s.chunkCount < maxChunksPerVersion → RoundFits s chunk) ∧
    (∀ m index, trappingChunkLen m index = some (expectedPlaintextChunkLen m index)) ∧
    ∀ m lens, expectedLengths m = .ok lens → m.chunkCount ≠ 0 →
      (lens.map UInt32.toNat).sum = m.plaintextLen.toNat := by
  refine ⟨fun size plaintext => plaintextFits, ?_, trappingChunkLen_eq, fun m lens => sum_expectedLengths⟩
  intro ω _ w₀ w w' v dataKey o u wrappedDek start reader size rounds s hsize hbegin hloop
  obtain ⟨⟨-, -, hindex, hlen⟩, -⟩ := (triple_beginStreamingPublication (Steady.of_vault fun _ => True)
    u wrappedDek _).ok_of trivial hbegin
  obtain ⟨⟨parts, hpieces, hs⟩, -⟩ := (triple_streamChunks (Steady.of_vault fun _ => True) hindex hlen
    _).ok_of trivial hloop
  have hparts : ∀ piece ∈ parts.map Prod.fst, piece.length ≤ size := by
    intro piece hpiece
    rw [hpieces] at hpiece
    exact Reader.length_le_of_mem_chunks (List.mem_of_mem_take hpiece)
  obtain ⟨hfits, hround⟩ := hs.fits hsize hparts
  exact ⟨hfits, fun chunk hchunk hcount =>
    hround chunk (Reader.length_le_of_mem_chunks (List.mem_of_getElem? hchunk)) hcount⟩

/-- Five bytes in chunks of size four, one round of their upload, and the way back. -/
theorem arithmetic_fits_sample :
    PlaintextFits 4 [1, 2, 3, 4, 5] ∧
    (∃ start w s w', beginStreamingPublication (.repeated 2) (.repeated 3) ⟨.zero 12, []⟩ 4 sampleWorld =
        .ok start w ∧
      Op.fold (streamChunk .checksum sampleWorld.vaultId (.zero 32))
        { publication := start, digest := .new, chunkCount := 0, plaintextLen := 0 } [[1, 2, 3, 4]] w =
          .ok s w' ∧ StreamFits s ∧ RoundFits s [5]) ∧
    expectedLengths (layoutManifest 10 4 3) = .ok [4, 4, 2] ∧
      (([4, 4, 2] : List UInt32).map UInt32.toNat).sum = 10 := by
  obtain ⟨hplaintext, hstream, -, hsum⟩ := arithmetic_fits .checksum
  refine ⟨hplaintext 4 _ (by decide) (by decide) (by decide), ?_, rfl,
    hsum (layoutManifest 10 4 3) _ rfl (by decide)⟩
  have hrun : ((do
      let start ← beginStreamingPublication (.repeated 2) (.repeated 3) ⟨.zero 12, []⟩ 4
      let s ← Op.fold (streamChunk .checksum sampleWorld.vaultId (.zero 32))
        { publication := start, digest := .new, chunkCount := 0, plaintextLen := 0 } [[1, 2, 3, 4]]
      return s.chunkCount : VaultOp SampleChannel UInt32) sampleWorld).result = some (.ok 1) := by
    decide +kernel
  obtain ⟨start, w, hbegin, hrest⟩ := Op.bind_eq_ok.mp (Outcome.eq_ok_of_result hrun)
  obtain ⟨s, w', hloop, hcount⟩ := Op.bind_eq_ok.mp hrest
  obtain ⟨hfits, hround⟩ := hstream _ sampleWorld w w' sampleWorld.vaultId (.zero 32) _ _ _ start
    [.data [1, 2, 3, 4, 5]] 4 1 s (by decide) hbegin hloop
  refine ⟨start, w, s, w', hbegin, hloop, hfits, hround [5] rfl ?_⟩
  rw [(Outcome.ok.inj hcount).1]
  decide

end Vlt1

import Vlt1.Vault.Reading

/-!
# What a read can write

`getToWriterInner` makes all of its checks before it writes: `getToWriterInner_cases` says that a read
either stops with the writer as it was, or is the decryption pass after every check (`ReadChecks`).

The decryption pass reads the chunk rows anew. What it writes is described against the pieces that open
under the key of the version (`triple_decryptRows`): the rows come in the order of their index, so what
was written are some of the pieces in their order. Nothing here assumes that both passes find the same
rows, unless `ReadChecks.SameRows` is asked for.
-/

namespace Vlt1

open Effect

/-! ### Chunk rows -/

/-- Chunk rows are read in the order of their index, each index once. -/
theorem Database.pairwise_selectChunks (db : Database) (u : VersionId) :
    (db.selectChunks u).Pairwise fun a b => a.1 < b.1 := by
  have htotal : Std.Total fun a b : ℤ × ChunkRow => a.1 ≤ b.1 := ⟨fun a b => le_total a.1 b.1⟩
  have htrans : IsTrans (ℤ × ChunkRow) fun a b => a.1 ≤ b.1 := ⟨fun _ _ _ h h' => le_trans h h'⟩
  have hnodup : ((db.selectChunks u).map Prod.fst).Nodup := by
    refine ((List.perm_insertionSort _ _).map Prod.fst).nodup_iff.mpr ?_
    rw [List.map_map]
    refine List.Nodup.map_on ?_ ((List.Nodup.of_map _ db.chunks.nodup_keys).filter _)
    rintro ⟨⟨b, i⟩, row⟩ hb ⟨⟨b', i'⟩, row'⟩ hb' heq
    simp only [List.mem_filter, decide_eq_true_eq] at hb hb'
    obtain ⟨hrow, rfl⟩ := hb
    obtain ⟨hrow', rfl⟩ := hb'
    obtain rfl : i = i' := heq
    -- the key determines the row
    have hsame := (Table.mem_rows.mp hrow).symm.trans (Table.mem_rows.mp hrow')
    rw [Option.some.inj hsame]
  exact ((List.pairwise_insertionSort _ _).and (List.pairwise_map.mp hnodup)).imp
    fun h => lt_of_le_of_ne h.1 h.2

theorem readChunkRow_index {row : ℤ × ChunkRow} {c : EncryptedChunk} (h : readChunkRow row = .ok c) :
    row.1 = c.index.toNat := by
  obtain ⟨index, hindex, h⟩ := except_bind_eq_ok.mp h
  obtain ⟨nonce, -, h⟩ := except_bind_eq_ok.mp h
  cases h
  exact sqlToUInt32_eq_ok.mp hindex

section

variable {ω : Type} [Machine ω] {prim : Primitives}

variable (ω) in
/-- Other programs leave the chunk rows alone. -/
def Machine.KeepsChunks : Prop :=
  ∀ (db : Database) (o : ω), (Machine.interfere db o).1.chunks = db.chunks

/-- The vault in memory, the writer and the record of the run are as before. -/
structure World.Queried (w w' : World ω) : Prop where
  vault : w'.vault = w.vault
  sink : w'.sink = w.sink
  history : w'.history = w.history

instance : QueryRelation (World.Queried (ω := ω)) where
  refl _ := ⟨rfl, rfl, rfl⟩
  trans _ _ _ h h' := ⟨h'.vault.trans h.vault, h'.sink.trans h.sink, h'.history.trans h.history⟩
  serve _ _ _ := ⟨rfl, rfl, rfl⟩
  interfere _ := ⟨rfl, rfl, rfl⟩

/-- The chunk rows are as before. -/
def World.SameChunks (w w' : World ω) : Prop := w'.db.chunks = w.db.chunks

theorem Machine.KeepsChunks.queryRelation (h : Machine.KeepsChunks ω) :
    QueryRelation (World.SameChunks (ω := ω)) where
  refl _ := rfl
  trans _ _ _ h h' := Eq.trans h' h
  serve _ _ _ := rfl
  interfere w := h w.db w.outside

omit [Machine ω] in
theorem World.SameChunks.selectChunks_eq {w w' : World ω} (h : w.SameChunks w') (u : VersionId) :
    w'.db.selectChunks u = w.db.selectChunks u := by
  unfold Database.selectChunks
  rw [h]

/-- The chunk rows of a version are read, and `w'` is the state after. -/
def World.Selects (u : VersionId) (w w' : World ω) : Prop :=
  query (fun db => .ok (db.selectChunks u)) w = .ok (w'.db.selectChunks u) w'

/-! ### The checks before the first byte -/

/-- The checks a read of an object makes before it writes, in their order, with what they found. -/
structure ReadChecks (prim : Primitives) (o : ObjectId) (w : World ω) where
  rootKey : Block 32
  version : StoredVersion
  dataKey : Block 32
  manifest : Manifest
  /-- After the version was found. -/
  located : World ω
  /-- After the stored receipt was compared. -/
  acknowledged : World ω
  /-- After the digest pass. -/
  digested : World ω
  unlocked : w.vault.rootKey = some rootKey
  active : activeVersion o w = .ok version located
  bound : version.objectId = o
  opensDataKey : openDataKey prim rootKey w.vaultId o version = .ok dataKey
  opensManifest : openManifest prim dataKey w.vaultId o version = .ok manifest
  receipt : checkStoredReceipt prim w.vaultId o version located = .ok () acknowledged
  digest : digestPass prim version.versionId manifest acknowledged = .ok () digested

namespace ReadChecks

variable {o : ObjectId} {w : World ω} (c : ReadChecks prim o w)

/-- The pass that follows the checks. -/
def pass (writer : Writer) : Outcome VaultError (World ω) Unit :=
  decryptPass prim w.vaultId o c.version.versionId c.dataKey c.manifest writer c.digested

/-- The chunk rows that the pass finds. -/
def rows : Set (ℤ × ChunkRow) :=
  {row | ∃ w1 : World ω, c.digested.Selects c.version.versionId w1 ∧
    row ∈ w1.db.selectChunks c.version.versionId}

/-- Both passes find the same chunk rows. -/
def SameRows : Prop :=
  ∀ w1 w2 : World ω, c.acknowledged.Selects c.version.versionId w1 →
    c.digested.Selects c.version.versionId w2 →
      w2.db.selectChunks c.version.versionId = w1.db.selectChunks c.version.versionId

/-- If other programs leave the chunk rows alone, both passes find the same. -/
theorem sameRows (hchunks : Machine.KeepsChunks ω) : c.SameRows := by
  intro w1 w2 hfirst hsecond
  have hrelation := hchunks.queryRelation
  have hquery : c.acknowledged.SameChunks w1 := (keeps_query _).of_ok hfirst
  have hdigest : c.acknowledged.SameChunks c.digested := (keeps_digestPass prim _ _).of_ok c.digest
  have hquery' : c.digested.SameChunks w2 := (keeps_query _).of_ok hsecond
  have hsame : c.acknowledged.SameChunks w2 := Eq.trans hquery' hdigest
  rw [hsame.selectChunks_eq, hquery.selectChunks_eq]

theorem queried : w.Queried c.digested :=
  IsTrans.trans _ _ _ ((keeps_activeVersion o).of_ok c.active) (IsTrans.trans _ _ _
    ((keeps_checkStoredReceipt prim _ _ _).of_ok c.receipt) ((keeps_digestPass prim _ _).of_ok c.digest))

end ReadChecks

/-- A sequence of which the first step leaves the writer alone. -/
theorem bind_before_writing {α β : Type} {x : VaultOp ω α} {f : α → VaultOp ω β} {w₀ w : World ω}
    {G : Outcome VaultError (World ω) β → Prop} (hx : Op.Keeps World.Queried x) (hw : w₀.Queried w)
    (hok : ∀ a w', x w = .ok a w' → w₀.Queried w' → G (f a w'))
    (hstop : ∀ out, (∀ b w', out ≠ .ok b w') → out.state.sink = w₀.sink → G out) :
    G ((x >>= f) w) := by
  have hkeeps : w₀.Queried (x w).state := IsTrans.trans _ _ _ hw (hx w)
  rw [Op.bind_apply]
  cases hout : x w with
  | ok a w' =>
    rw [hout] at hkeeps
    exact hok a w' hout hkeeps
  | failed e w' =>
    rw [hout] at hkeeps
    exact hstop _ (fun _ _ h => by cases h) hkeeps.sink
  | crashed w' =>
    rw [hout] at hkeeps
    exact hstop _ (fun _ _ h => by cases h) hkeeps.sink

variable (prim) in
/-- A read stops before it writes, or is the decryption pass after all of its checks. -/
theorem getToWriterInner_cases (o : ObjectId) (writer : Writer) (w : World ω) :
    (∃ c : ReadChecks prim o w, getToWriterInner prim o writer w = c.pass writer) ∨
      (∀ u w', getToWriterInner prim o writer w ≠ .ok u w') ∧
        (getToWriterInner prim o writer w).state.sink = w.sink := by
  let G (out : Outcome VaultError (World ω) Unit) : Prop :=
    (∃ c : ReadChecks prim o w, out = c.pass writer) ∨
      (∀ u w', out ≠ .ok u w') ∧ out.state.sink = w.sink
  have hstop : ∀ out, (∀ u w', out ≠ .ok u w') → out.state.sink = w.sink → G out :=
    fun _ hnot hsink => .inr ⟨hnot, hsink⟩
  show G (getToWriterInner prim o writer w)
  refine bind_before_writing keeps_requireRootKey (Std.Refl.refl w) (fun rootKey w0 hroot _ => ?_) hstop
  obtain ⟨hkey, rfl⟩ := requireRootKey_eq_ok.mp hroot
  refine bind_before_writing (keeps_activeVersion o) (Std.Refl.refl w)
    (fun version w1 hversion hw1 => ?_) hstop
  refine bind_before_writing (Op.Keeps.require _ _) hw1 (fun _ w1' hrequire _ => ?_) hstop
  obtain ⟨hbound, rfl⟩ := Op.require_eq_ok.mp hrequire
  rw [Op.bind_of_ok (Op.get_apply w1)]
  -- the identifier in memory is that of the start
  have hid : w1.vaultId = w.vaultId := congrArg (fun v => v.envelope.vaultId) hw1.vault
  rw [hid]
  refine bind_before_writing (Op.Keeps.ofExcept _) hw1 (fun dataKey w2 hunwrap _ => ?_) hstop
  obtain ⟨hdek, rfl⟩ := Op.ofExcept_eq_ok.mp hunwrap
  refine bind_before_writing (Op.Keeps.ofExcept _) hw1 (fun manifest w2 hunseal _ => ?_) hstop
  obtain ⟨hmanifest, rfl⟩ := Op.ofExcept_eq_ok.mp hunseal
  refine bind_before_writing (keeps_checkStoredReceipt prim _ _ _) hw1 (fun _ w2 hreceipt hw2 => ?_)
    hstop
  refine bind_before_writing (keeps_digestPass prim _ _) hw2 (fun _ w3 hdigest _ => ?_) hstop
  exact .inl ⟨⟨rootKey, version, dataKey, manifest, w1, w2, w3, hkey, hversion, hbound, hdek, hmanifest,
    hreceipt, hdigest⟩, rfl⟩

/-! ### The digest pass -/

/-- The digest pass goes on only while each row has the next index. -/
theorem fold_digestVisit_ok {rows : List (ℤ × ChunkRow)} {a b : ChunkDigestBuilder × UInt32}
    {w w' : World ω} (h : Op.fold (fun b row => do
        storageFault
        let chunk ← Op.ofExcept (readChunkRow row)
        digestVisit b chunk) a rows w = .ok b w') :
    rows.map Prod.fst = (List.range rows.length).map (fun i => ((a.2.toNat + i : ℕ) : ℤ)) ∧
      b.2.toNat = a.2.toNat + rows.length := by
  induction rows generalizing a w with
  | nil =>
    cases h
    exact ⟨rfl, rfl⟩
  | cons row rows ih =>
    obtain ⟨a', w1, hround, hrest⟩ := Op.bind_eq_ok.mp h
    obtain ⟨_, w2, -, hround1⟩ := Op.bind_eq_ok.mp hround
    obtain ⟨chunk, w3, hrow, hround2⟩ := Op.bind_eq_ok.mp hround1
    obtain ⟨hread, rfl⟩ := Op.ofExcept_eq_ok.mp hrow
    obtain ⟨_, w4, hrequire, hround3⟩ := Op.bind_eq_ok.mp hround2
    obtain ⟨hindex, rfl⟩ := Op.require_eq_ok.mp hrequire
    obtain ⟨next, w5, hadd, hreturn⟩ := Op.bind_eq_ok.mp hround3
    obtain ⟨hnext, rfl⟩ := Op.ofExcept_eq_ok.mp hadd
    cases hreturn
    have hsucc : next.toNat = a.2.toNat + 1 := checkedAdd32_eq_ok hnext
    obtain ⟨hrows, hcount⟩ := ih hrest
    simp only [hsucc] at hrows hcount
    refine ⟨?_, by rw [hcount, List.length_cons]; omega⟩
    rw [List.map_cons, List.length_cons, List.range_succ_eq_map, List.map_cons, List.map_map, hrows,
      readChunkRow_index hread, hindex]
    refine congrArg₂ _ (by simp) (List.map_congr_left fun i _ => ?_)
    simp only [Function.comp_apply]
    push_cast
    ring

/-- After the digest pass the rows it has read are numbered from zero, as many as the Manifest says. -/
theorem digestPass_ok {u : VersionId} {m : Manifest} {x : Unit} {w w' : World ω}
    (h : digestPass prim u m w = .ok x w') :
    ∃ w1, w.Selects u w1 ∧
      (w1.db.selectChunks u).map Prod.fst = (List.range m.chunkCount.toNat).map Nat.cast := by
  obtain ⟨⟨digest, count⟩, w2, hvisit, hrest⟩ := Op.bind_eq_ok.mp h
  obtain ⟨rows, w1, hquery, hfold⟩ := Op.bind_eq_ok.mp hvisit
  obtain ⟨_, w3, hrequire, -⟩ := Op.bind_eq_ok.mp hrest
  obtain ⟨hcount, rfl⟩ := Op.require_eq_ok.mp hrequire
  obtain rfl : w1.db.selectChunks u = rows := Except.ok.inj (query_ok hquery)
  obtain ⟨hrows, hlength⟩ := fold_digestVisit_ok hfold
  refine ⟨w1, hquery, ?_⟩
  rw [hrows, ← hcount, hlength]
  simp

/-! ### The decryption pass -/

/-- A writer receives the part, or on failure some of its first bytes. -/
theorem triple_writeAll (writer : Writer) (s b part : Bytes) :
    Op.Triple (fun w : World ω => w.sink = writer.received s b) (writer.writeAll part)
      (fun _ w => w.sink = writer.received s (b ++ part))
      fun _ w => ∃ cut, cut <+: part ∧ w.sink = writer.received s (b ++ cut) := by
  intro w hw
  cases writer with
  | vector =>
    show w.sink ++ part = s ++ (b ++ part)
    rw [hw, ← List.append_assoc]
    rfl
  | discard => exact hw
  | stream =>
    have hsink : ∀ cut : Bytes, w.sink ++ cut = s ++ (b ++ cut) := by
      intro cut
      rw [hw, ← List.append_assoc]
      rfl
    simp only [Writer.writeAll, Op.bind_apply, interact]
    cases (Machine.write part w.outside).1 with
    | none => exact hsink part
    | some n => exact ⟨part.take n, List.take_prefix n part, hsink _⟩

section Pieces

variable {V : VaultId} {o : ObjectId} {u : VersionId} {dataKey : Block 32} {m : Manifest}
  {writer : Writer} {s : Bytes} {pieces : List Bytes}

/-- What the decryption pass has written when it stops: some first bytes of the pieces at the indices of
the first rows. -/
def WroteSome (writer : Writer) (s : Bytes) (pieces : List Bytes) (rows : List (ℤ × ChunkRow))
    (w : World ω) : Prop :=
  ∃ indices parts b, (indices.map Nat.cast : List ℤ) <+: rows.map Prod.fst ∧
    Chunks.Picks pieces indices parts ∧ b <+: parts.flatten ∧ w.sink = writer.received s b

/-- What it has written after all rows: the pieces at their indices. -/
def WroteAll (writer : Writer) (s : Bytes) (pieces : List Bytes) (rows : List (ℤ × ChunkRow))
    (written : UInt64) (w : World ω) : Prop :=
  ∃ indices parts, (indices.map Nat.cast : List ℤ) = rows.map Prod.fst ∧
    Chunks.Picks pieces indices parts ∧ written.toNat = parts.flatten.length ∧
      w.sink = writer.received s parts.flatten

/-- What opens of these rows, as long as the Manifest says, is the piece at the index of the row. -/
def OpenToPieces (prim : Primitives) (V : VaultId) (o : ObjectId) (u : VersionId) (dataKey : Block 32)
    (m : Manifest) (pieces : List Bytes) (rows : List (ℤ × ChunkRow)) : Prop :=
  ∀ row ∈ rows, ∀ chunk, readChunkRow row = .ok chunk →
    ∀ len, expectedPlaintextChunkLen m chunk.index = .ok len → ∀ part,
      openRecord prim dataKey.toList (chunkAad V o u chunk.index len) chunk.record = .ok part →
        pieces[chunk.index.toNat]? = some part

/-- The decryption pass over known rows. -/
theorem triple_decryptRows (writer : Writer) {rows : List (ℤ × ChunkRow)}
    (hopen : OpenToPieces prim V o u dataKey m pieces rows) :
    Op.Triple (fun w : World ω => w.sink = s) (Op.fold (fun b row => do
        storageFault
        let chunk ← Op.ofExcept (readChunkRow row)
        decryptVisit prim V o u dataKey m writer b chunk) 0 rows)
      (WroteAll writer s pieces rows) fun _ => WroteSome writer s pieces rows := by
  -- the rows that are done were written in full
  let inv (done rest : List (ℤ × ChunkRow)) (written : UInt64) (w : World ω) : Prop :=
    done ++ rest = rows ∧ WroteAll writer s pieces done written w
  refine ((Op.Triple.fold (I := inv) ?_ [] rows 0).conseq (fun w hw => ?_) (fun written w hw => hw.2)
    fun _ _ h => h)
  · rintro done row rest written w ⟨hrows, indices, parts, hindices, hpicks, hwritten, hsink⟩
    have hfirst : (indices.map Nat.cast : List ℤ) <+: rows.map Prod.fst := by
      rw [hindices, ← hrows, List.map_append]
      exact List.prefix_append _ _
    -- until the writer is used it holds what was written before
    let before (w : World ω) : Prop := w.sink = writer.received s parts.flatten
    have hbefore : ∀ (e : Option VaultError) (w : World ω), before w → WroteSome writer s pieces rows w :=
      fun _ w hw => ⟨indices, parts, _, hfirst, hpicks, List.prefix_rfl, hw⟩
    suffices hround : Op.Triple before (do
        storageFault
        let chunk ← Op.ofExcept (readChunkRow row)
        decryptVisit prim V o u dataKey m writer written chunk) (inv (done ++ [row]) rest)
        fun _ => WroteSome writer s pieces rows from hround w hsink
    refine Op.Triple.bind (fun _ => before) ?_ fun _ => ?_
    · refine (Op.Triple.of_keeps (P := before) fun w hw => ?_).mono_stop hbefore
      exact (keeps_storageFault (R := World.Queried) w).sink.trans hw
    refine Op.Triple.bind_ofExcept (fun chunk hread => ?_) fun e w _ hw => hbefore (some e) w hw
    refine Op.Triple.bind_ofExcept (fun len hlen => ?_) fun e w _ hw => hbefore (some e) w hw
    refine Op.Triple.bind_ofExcept (fun part hpart => ?_) fun e w _ hw => hbefore (some e) w hw
    refine Op.Triple.bind_require (fun hlength => ?_) fun w _ hw => hbefore none w hw
    -- the part is the piece at the index of the row
    have hpiece :=
      hopen row (hrows ▸ List.mem_append_right _ List.mem_cons_self) _ hread _ hlen _ hpart
    have hpicks' := hpicks.concat hpiece
    have hindices' : ((indices ++ [chunk.index.toNat]).map Nat.cast : List ℤ) =
        (done ++ [row]).map Prod.fst := by
      rw [List.map_append, List.map_append, hindices]
      simp [readChunkRow_index hread]
    have hnext : ((indices ++ [chunk.index.toNat]).map Nat.cast : List ℤ) <+: rows.map Prod.fst := by
      rw [hindices', ← hrows]
      exact List.IsPrefix.map _ ⟨rest, by simp⟩
    have hflatten : (parts ++ [part]).flatten = parts.flatten ++ part := by simp
    refine Op.Triple.bind _ ((triple_writeAll writer s parts.flatten part).mono_stop ?_) fun _ => ?_
    · rintro _ w ⟨cut, hcut, hw⟩
      refine ⟨_, _, parts.flatten ++ cut, hnext, hpicks', ?_, hw⟩
      rw [hflatten]
      exact (List.prefix_append_right_inj _).mpr hcut
    · refine Op.Triple.ofExcept (fun written' hsum w hw => ⟨?_, _, _, hindices', hpicks', ?_, ?_⟩)
        fun e _ w hw => ⟨_, _, _, hnext, hpicks', List.prefix_rfl, ?_⟩
      · rw [← hrows]
        simp
      · rw [checkedAdd64_eq_ok hsum, hwritten, hflatten, List.length_append, hlength,
          UInt32.toNat_toUInt64]
      · rw [hflatten]
        exact hw
      · rw [hflatten]
        exact hw
  · refine ⟨rfl, [], [], rfl, .nil, rfl, hw.trans ?_⟩
    cases writer <;> simp [Writer.received]

omit [Machine ω] in
theorem WroteAll.some {rows : List (ℤ × ChunkRow)} {written : UInt64} {w : World ω}
    (h : WroteAll writer s pieces rows written w) : WroteSome writer s pieces rows w := by
  obtain ⟨indices, parts, hindices, hpicks, -, hsink⟩ := h
  exact ⟨indices, parts, _, hindices ▸ List.prefix_rfl, hpicks, List.prefix_rfl, hsink⟩

omit [Machine ω] in
/-- If the rows are numbered from zero, what was written is a beginning of the whole. -/
theorem WroteSome.exists_prefix {rows : List (ℤ × ChunkRow)} {n : ℕ} {w : World ω}
    (h : WroteSome writer s pieces rows w) (hrows : rows.map Prod.fst = (List.range n).map Nat.cast) :
    ∃ b, b <+: pieces.flatten ∧ w.sink = writer.received s b := by
  obtain ⟨indices, parts, b, hindices, hpicks, hb, hsink⟩ := h
  rw [hrows] at hindices
  obtain ⟨firsts, hfirsts, heq⟩ := List.prefix_map_iff.mp hindices
  obtain rfl : indices = firsts := List.map_injective_iff.mpr Nat.cast_injective heq
  -- a beginning of the numbers from zero are the numbers from zero
  rw [List.prefix_iff_eq_take.mp hfirsts, List.take_range] at hpicks
  rw [hpicks.eq_take] at hb
  refine ⟨b, hb.trans ⟨(pieces.drop (min indices.length n)).flatten, ?_⟩, hsink⟩
  rw [← List.flatten_append, List.take_append_drop]

variable {w : World ω} (hopen : ∀ w1, w.Selects u w1 →
  OpenToPieces prim V o u dataKey m pieces (w1.db.selectChunks u))

include hopen

/-- A decryption pass that returns has written all pieces, if the Manifest has their length. -/
theorem decryptPass_ok {x : Unit} {w' : World ω}
    (h : decryptPass prim V o u dataKey m writer w = .ok x w')
    (hlength : m.plaintextLen.toNat = pieces.flatten.length) :
    w'.sink = writer.received w.sink pieces.flatten := by
  obtain ⟨written, w2, hvisit, hrequire⟩ := Op.bind_eq_ok.mp h
  obtain ⟨hwritten, rfl⟩ := Op.require_eq_ok.mp hrequire
  obtain ⟨rows, w1, hquery, hfold⟩ := Op.bind_eq_ok.mp hvisit
  obtain rfl : w1.db.selectChunks u = rows := Except.ok.inj (query_ok hquery)
  have hsink : w1.sink = w.sink := ((keeps_query (R := World.Queried) _).of_ok hquery).sink
  obtain ⟨indices, parts, hindices, hpicks, htotal, hwrote⟩ :=
    (triple_decryptRows _ (hopen w1 hquery)).ok_of hsink hfold
  have hsorted : indices.Pairwise (· < ·) := by
    have hrows := List.pairwise_map.mpr (w1.db.pairwise_selectChunks u)
    rw [← hindices, List.pairwise_map] at hrows
    exact hrows.imp Int.ofNat_lt.mp
  rw [hwrote, hpicks.flatten_eq hsorted (by rw [← htotal, hwritten, hlength])]

/-- A decryption pass over rows numbered from zero writes a beginning of the whole, however it ends. -/
theorem decryptPass_prefix (hnumbered : ∀ w1, w.Selects u w1 →
      ∃ n, (w1.db.selectChunks u).map Prod.fst = (List.range n).map Nat.cast) :
    ∃ b, b <+: pieces.flatten ∧
      (decryptPass prim V o u dataKey m writer w).state.sink = writer.received w.sink b := by
  let written (w' : World ω) : Prop :=
    ∃ b, b <+: pieces.flatten ∧ w'.sink = writer.received w.sink b
  have hnothing : ∀ w' : World ω, w'.sink = w.sink → written w' := by
    refine fun w' hsink => ⟨[], List.nil_prefix, hsink.trans ?_⟩
    cases writer <;> simp [Writer.received]
  suffices htriple : Op.Triple (· = w) (decryptPass prim V o u dataKey m writer) (fun _ => written)
      fun _ => written from htriple.state rfl
  refine Op.Triple.bind (fun _ => written) (Op.Triple.bind (fun rows w1 =>
    (OpenToPieces prim V o u dataKey m pieces rows ∧
      ∃ n, rows.map Prod.fst = (List.range n).map Nat.cast) ∧ w1.sink = w.sink) ?_ fun rows => ?_)
    fun _ => ?_
  · intro w0 hw0
    rw [hw0]
    have hkeeps := (keeps_query (R := World.Queried) (fun db => .ok (db.selectChunks u)) w).sink
    cases hquery : query (fun db => .ok (db.selectChunks u)) w with
    | ok rows w1 =>
      rw [hquery] at hkeeps
      obtain rfl : w1.db.selectChunks u = rows := Except.ok.inj (query_ok hquery)
      exact ⟨⟨hopen w1 hquery, hnumbered w1 hquery⟩, hkeeps⟩
    | failed e w1 => rw [hquery] at hkeeps; exact hnothing w1 hkeeps
    | crashed w1 => rw [hquery] at hkeeps; exact hnothing w1 hkeeps
  · refine Op.Triple.of_imp fun hrows => ?_
    obtain ⟨hpieces, n, hn⟩ := hrows
    exact (triple_decryptRows writer (s := w.sink) hpieces).conseq (fun _ h => h)
      (fun _ _ hw' => hw'.some.exists_prefix hn) fun _ _ hw' => hw'.exists_prefix hn
  · exact Op.Triple.require (fun _ _ h => h) fun _ _ h => h

end Pieces

/-! ### Reads -/

section Reads

variable {o : ObjectId} {w : World ω} (c : ReadChecks prim o w) {pieces : List Bytes}
  (hopen : ∀ w1 : World ω, c.digested.Selects c.version.versionId w1 →
    OpenToPieces prim w.vaultId o c.version.versionId c.dataKey c.manifest pieces
      (w1.db.selectChunks c.version.versionId))

include hopen

/-- A read that returns has written all pieces. -/
theorem ReadChecks.pass_ok {writer : Writer} {x : Unit} {w' : World ω} (h : c.pass writer = .ok x w')
    (hlength : c.manifest.plaintextLen.toNat = pieces.flatten.length) :
    w'.sink = writer.received w.sink pieces.flatten := by
  rw [← c.queried.sink]
  exact decryptPass_ok hopen h hlength

/-- If both passes find the same rows, a read has written a beginning of the whole, however it ends. -/
theorem ReadChecks.pass_prefix (hsame : c.SameRows) (writer : Writer) :
    ∃ b, b <+: pieces.flatten ∧ (c.pass writer).state.sink = writer.received w.sink b := by
  rw [← c.queried.sink]
  refine decryptPass_prefix hopen fun w1 hquery => ⟨c.manifest.chunkCount.toNat, ?_⟩
  obtain ⟨w2, hquery', hrows⟩ := digestPass_ok c.digest
  -- the rows of the second pass are those of the first
  rw [hsame w2 w1 hquery' hquery]
  exact hrows

end Reads

end

end Vlt1

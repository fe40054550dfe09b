import Vlt1.StreamItems
import Vlt1.StreamingEquivalence

/-!
# An upload is published when it is complete

After `stream_ready` a client may send anything and stop anywhere. `put_stream` publishes a version exactly
when the bytes begin with data items and the end marker, and the chunks fit into the nonce budget
(`upload_published_iff_complete`); the version then holds the data, whatever the items were. Everything else
leaves the tables as they were.

The vault asks its reader for more after every full buffer, so a stream that is cut off fails the reader
even if all buffers so far were full.
-/

namespace Vlt1

open Effect Framing

/-! ### Readers that fail -/

namespace Reader

/-- The reader delivers some fragments and then fails. -/
def Breaks (reader : Reader) : Prop :=
  ∃ steps : Reader, reader = steps ++ [.failed] ∧ ∀ step ∈ steps, ∃ bytes, step = .data bytes ∧ bytes ≠ []

variable {reader rest : Reader} {filled chunk : Bytes} {capacity : ℕ}

/-- A buffer that was filled is full, and the failure is still to come. -/
theorem Breaks.readNextChunk (h : reader.Breaks) (hfilled : filled.length ≤ capacity) :
    readNextChunk capacity filled reader = .error .storage ∨
      ∃ chunk rest, readNextChunk capacity filled reader = .ok (chunk, rest) ∧ rest.Breaks ∧
        chunk.length = capacity := by
  obtain ⟨steps, rfl, hsteps⟩ := h
  induction steps generalizing filled with
  | nil =>
    rw [List.nil_append]
    unfold Vlt1.readNextChunk
    by_cases hroom : filled.length < capacity
    · rw [if_pos hroom]
      exact .inl rfl
    · rw [if_neg hroom]
      exact .inr ⟨_, _, rfl, ⟨[], rfl, by simp⟩, by omega⟩
  | cons step steps ih =>
    obtain ⟨⟨bytes, rfl, hne⟩, htail⟩ := List.forall_mem_cons.mp hsteps
    rw [List.cons_append]
    unfold Vlt1.readNextChunk
    by_cases hroom : filled.length < capacity
    · rw [if_pos hroom]
      simp only
      rw [if_neg hne]
      by_cases hfits : bytes.length ≤ capacity - filled.length
      · rw [if_pos hfits]
        exact ih (by rw [List.length_append]; omega) htail
      · -- the fragment is cut
        rw [if_neg hfits]
        refine .inr ⟨_, _, rfl, ⟨.data (bytes.drop (capacity - filled.length)) :: steps, rfl, ?_⟩, ?_⟩
        · refine List.forall_mem_cons.mpr ⟨⟨_, rfl, ?_⟩, htail⟩
          rw [ne_eq, List.drop_eq_nil_iff]
          omega
        · rw [List.length_append, List.length_take]
          omega
    · rw [if_neg hroom]
      exact .inr ⟨_, _, rfl, ⟨.data bytes :: steps, rfl, hsteps⟩, by omega⟩

/-- Reading to the end meets the failure. -/
theorem Breaks.chunks (h : reader.Breaks) (hcapacity : 0 < capacity) :
    (reader.chunks capacity).2 = .error .storage := by
  suffices hloop : ∀ fuel (reader : Reader), reader.Breaks → reader.size < fuel →
      (chunksWithin capacity fuel reader).2 = .error .storage from
    hloop _ reader h (Nat.lt_succ_self _)
  intro fuel
  induction fuel with
  | zero => exact fun reader _ hfuel => absurd hfuel (Nat.not_lt_zero _)
  | succ fuel ih =>
    intro reader h hfuel
    rw [chunksWithin]
    rcases h.readNextChunk (show ([] : Bytes).length ≤ capacity from Nat.zero_le _) with
      hread | ⟨chunk, rest, hread, hrest, hlength⟩
    · rw [hread]
    · have hsize := size_readNextChunk hread
      rw [List.length_nil, Nat.add_zero] at hsize
      rw [hread]
      cases chunk with
      | nil => exact absurd hlength.symm hcapacity.ne'
      | cons b bs => exact ih rest hrest (by omega)

end Reader

namespace Protocol

variable {responses : Codec Response} {input : Input UInt8} {chunks : List Bytes}

/-- A complete upload delivers its data. -/
theorem delivers_upload (h : ∀ chunk ∈ chunks, IsItem chunk) :
    Reader.Delivers (streamReader (upload chunks)) chunks.flatten := by
  have hreader : streamReader (upload chunks) = chunks.map ReadStep.data := by
    induction chunks with
    | nil => rfl
    | cons chunk chunks ih =>
      obtain ⟨hchunk, hrest⟩ := List.forall_mem_cons.mp h
      exact (StreamReader.streamReader_data hchunk.1 _).trans
        (congrArg (ReadStep.data chunk :: ·) (ih hrest))
  rw [hreader]
  refine ⟨fun step hstep => ?_, ?_⟩
  · obtain ⟨chunk, hchunk, rfl⟩ := List.mem_map.mp hstep
    exact ⟨nofun, fun heq => (h chunk hchunk).1 (ReadStep.data.inj heq)⟩
  · rw [Reader.contents, List.flatMap_def, List.map_map]
    exact congrArg List.flatten (List.map_id _)

/-- An upload without its end marker fails the reader. -/
theorem breaks_incomplete {tail : List Vlt1.StreamItem} (h : ∀ chunk ∈ chunks, IsItem chunk)
    (htail : tail = [] ∨ tail = [.error]) :
    Reader.Breaks (streamReader (chunks.map .data ++ tail)) := by
  have hreader : streamReader (chunks.map .data ++ tail) = chunks.map ReadStep.data ++ [.failed] := by
    induction chunks with
    | nil => rcases htail with rfl | rfl <;> rfl
    | cons chunk chunks ih =>
      obtain ⟨hchunk, hrest⟩ := List.forall_mem_cons.mp h
      exact (StreamReader.streamReader_data hchunk.1 _).trans
        (congrArg (ReadStep.data chunk :: ·) (ih hrest))
  refine ⟨_, hreader, fun step hstep => ?_⟩
  obtain ⟨chunk, hchunk, rfl⟩ := List.mem_map.mp hstep
  exact ⟨chunk, rfl, (h chunk hchunk).1⟩

/-! ### Uploads -/

/-- The bytes hold a complete upload that fits into the nonce budget. -/
def CompleteUpload (bytes : Bytes) (chunks : List Bytes) : Prop :=
  Completes bytes chunks ∧
    Chunks.count defaultChunkSize chunks.flatten.length ≤ maxChunksPerVersion.toNat

/-- Nothing turns the request away before `put_from_reader`. -/
structure Admitted (a : Arrival) : Prop where
  idle : a.longOperationActive = false
  ready : a.readyWritten = true
  available : a.vaultMutexPoisoned = false

variable (responses) in
/-- The number of buffers the vault fills from the bytes. -/
def bufferCount (input : Input UInt8) : ℕ :=
  (Reader.chunks defaultChunkSize (streamReader (receivedItems responses input))).1.length

section

variable {ω : Type} [Machine ω] {prim : Primitives} {v : Vault} {rootKey : Block 32} {db : Database}
  {o : ObjectId} {c : Choices} {w : World ω} {a : Arrival} {text : Text} {s : DaemonState ω}

/-- What `put_from_reader` does with the bytes, in the terms of the reader. -/
theorem triple_putFromReader (hprim : prim.Seals) (hkey : v.rootKey = some rootKey)
    (haccepts : db.Accepts c (bufferCount responses input)) :
    ∃ kek manifestKey, deriveKek prim rootKey v.envelope.vaultId = .ok kek ∧
      deriveManifestKey prim c.dataKey c.versionId = .ok manifestKey ∧
      Op.Triple (World.Ready (ω := ω) v db (c.streamedScript (bufferCount responses input)))
        (putFromReader prim o (streamReader (receivedItems responses input)))
        (fun u w => (u = c.versionId ∧
          (Reader.chunks defaultChunkSize (streamReader (receivedItems responses input))).2 = .ok () ∧
          bufferCount responses input ≤ maxChunksPerVersion.toNat) ∧
          w.Ready v ((c.draft prim v.envelope.vaultId o kek manifestKey (UInt32.ofNat defaultChunkSize)
            (Reader.chunks defaultChunkSize
              (streamReader (receivedItems responses input))).1).published db) [])
        fun e w => ((e = some (.invalidInput "nonce budget exceeded") ∧
          maxChunksPerVersion.toNat < bufferCount responses input ∧ w.vault = v) ∨
            ∃ e', e = some e' ∧ (Reader.chunks defaultChunkSize
              (streamReader (receivedItems responses input))).2 = .error e') ∧ w.db = db := by
  obtain ⟨kek, hkek⟩ := exists_deriveDomainKey hprim rootKey v.envelope.vaultId.blob kekLabel
  obtain ⟨manifestKey, hmanifest⟩ :=
    exists_deriveDomainKey hprim c.dataKey c.versionId.blob manifestKeyLabel
  refine ⟨kek, manifestKey, hkek, hmanifest, ?_⟩
  exact World.Ready.putFromReaderWithChunkSize hprim hkey hkek hmanifest (by decide) (by decide) rfl
    (fun piece hpiece => (Reader.length_le_of_mem_chunks hpiece).trans_lt (by decide)) haccepts

variable (responses) in
theorem bufferCount_complete (h : Completes input.rest chunks) :
    Reader.chunks defaultChunkSize (streamReader (receivedItems responses input)) =
        (Chunks.chunks defaultChunkSize chunks.flatten, .ok ()) ∧
      bufferCount responses input = Chunks.count defaultChunkSize chunks.flatten.length := by
  have hchunks : Reader.chunks defaultChunkSize (streamReader (receivedItems responses input)) =
      (Chunks.chunks defaultChunkSize chunks.flatten, .ok ()) := by
    rw [receivedItems_of_completes h]
    exact (delivers_upload h.1).chunks (by decide)
  refine ⟨hchunks, ?_⟩
  rw [bufferCount, hchunks, Chunks.length_chunks]

/-- A complete upload within the budget is published. -/
theorem putFromReader_complete (hprim : prim.Seals) (hkey : v.rootKey = some rootKey)
    (hw : w.Ready v db (c.streamedScript (bufferCount responses input)))
    (haccepts : db.Accepts c (bufferCount responses input)) (h : CompleteUpload input.rest chunks) :
    ∃ (d : Draft) (w' : World ω), d.New prim w ∧ d.Of o chunks.flatten ∧
      putFromReader prim o (streamReader (receivedItems responses input)) w = .ok c.versionId w' ∧
      w'.Ready v (d.published db) [] := by
  obtain ⟨hcompletes, hbudget⟩ := h
  obtain ⟨hchunks, hcount⟩ := bufferCount_complete responses hcompletes
  obtain ⟨kek, manifestKey, hkek, hmanifest, htriple⟩ := 
    triple_putFromReader (ω := ω) (o := o) hprim hkey haccepts
  rw [hchunks] at htriple
  -- neither of the two ways to stop is open
  obtain ⟨u, w', hput, ⟨rfl, -⟩, hready⟩ := Op.Total.eq_ok (htriple.mono_stop
    fun e w h => h.1.elim (fun hmany => by omega) nofun) hw
  have hpos : 0 < defaultChunkSize := by decide
  have hsize : defaultChunkSize < 2 ^ 32 := by decide
  have hlength := Chunks.length_chunks defaultChunkSize chunks.flatten
  obtain ⟨hpieces, hfits⟩ := pieces_fit hpos hsize hbudget
  have hd := Choices.prepares_draft (o := o) hprim hkey hkek hmanifest hpos hsize (hlength ▸ hbudget) hpieces
  have hof := hd.of hpos
  refine ⟨_, w', ⟨?_, ?_, by rw [hof.plaintext]; exact hfits⟩, hof, hput, hready⟩
  · rw [hw.vault]
    exact hd.sealedFor
  · rw [hw.db, hd.version]
    exact haccepts.fresh

/-- Any other upload fails, and the tables stay. -/
theorem putFromReader_incomplete (hprim : prim.Seals) (hkey : v.rootKey = some rootKey)
    (hw : w.Ready v db (c.streamedScript (bufferCount responses input)))
    (haccepts : db.Accepts c (bufferCount responses input))
    (h : ¬∃ chunks, CompleteUpload input.rest chunks) :
    ∃ (e : VaultError) (w' : World ω),
      putFromReader prim o (streamReader (receivedItems responses input)) w = .failed e w' ∧
      w'.db = db := by
  obtain ⟨kek, manifestKey, -, -, htriple⟩ := 
    triple_putFromReader (ω := ω) (o := o) hprim hkey haccepts
  have hnot : ¬((Reader.chunks defaultChunkSize (streamReader (receivedItems responses input))).2 =
      .ok () ∧ bufferCount responses input ≤ maxChunksPerVersion.toNat) := by
    rintro ⟨hending, hbudget⟩
    by_cases hcomplete : ∃ chunks, Completes input.rest chunks
    · -- complete, so it was the budget
      obtain ⟨chunks, hchunks⟩ := hcomplete
      exact h ⟨chunks, hchunks, (bufferCount_complete responses hchunks).2 ▸ hbudget⟩
    · -- the reader failed
      obtain ⟨chunks, hitems, hreceived⟩ := receivedItems_incomplete responses
        (not_exists.mp hcomplete)
      have hbreaks : Reader.Breaks (streamReader (receivedItems responses input)) := by
        rcases hreceived with hreceived | hreceived
        · rw [hreceived, ← List.append_nil (chunks.map _)]
          exact breaks_incomplete hitems (.inl rfl)
        · rw [hreceived]
          exact breaks_incomplete hitems (.inr rfl)
      rw [hbreaks.chunks (by decide)] at hending
      cases hending
  have hw' := htriple w hw
  cases hput : putFromReader prim o (streamReader (receivedItems responses input)) w with
  | ok u w' =>
    rw [hput] at hw'
    exact absurd hw'.1.2 hnot
  | failed e w' =>
    rw [hput] at hw'
    exact ⟨e, w', rfl, hw'.2⟩
  | crashed w' =>
    rw [hput] at hw'
    rcases hw'.1 with ⟨hnone, -⟩ | ⟨e, hnone, -⟩ <;> cases hnone

/-- What the daemon makes of a result of the vault. -/
theorem putStream_admitted (ha : Admitted a) (hparse : parseRequestObjectId text = .ok o)
    {items : List Vlt1.StreamItem} :
    (∀ u w, putFromReader prim o (streamReader items) s.world = .ok u w →
      putStream prim a text items s =
        .ok [.response (.ok .streamReady), .response (.ok (.published u.toHex))] { s with world := w }) ∧
    ∀ e w, putFromReader prim o (streamReader items) s.world = .failed e w →
      putStream prim a text items s =
        .ok [.response (.ok .streamReady), .streamError (mapVaultError e)] { s with world := w } := by
  unfold putStream
  rw [hparse]
  -- An admitted upload passes every test before the vault is called.
  simp only [ha.idle, ha.ready, ha.available, Bool.false_eq_true, if_false, Bool.true_eq_false]
  refine ⟨fun u w hput => ?_, fun e w hput => ?_⟩
  · have hrun : runVault (putFromReader prim o (streamReader items)) s =
        .ok (.ok u) { s with world := w } := by
      rw [runVault, hput]
    rw [Op.bind_of_ok hrun]
    rfl
  · have hrun : runVault (putFromReader prim o (streamReader items)) s =
        .ok (.error e) { s with world := w } := by
      rw [runVault, hput]
    rw [Op.bind_of_ok hrun]
    rfl

/-- **Complete uploads.** For an unlocked vault whose storage works and whatever bytes a client sends after
`stream_ready`, a new active version of the object is committed exactly if the bytes begin with data items
and the end marker and fit into the nonce budget. It then holds the data of the items; otherwise the tables
stay as they were. The buffers the daemon's reader fills from the bytes are those the vault seals. -/
theorem upload_published_iff_complete (hprim : prim.Seals) (hkey : v.rootKey = some rootKey)
    (ha : Admitted a) (hparse : parseRequestObjectId text = .ok o)
    (hs : s.world.Ready v db (c.streamedScript (bufferCount responses input)))
    (haccepts : db.Accepts c (bufferCount responses input)) :
    let outcome := putStream prim a text (receivedItems responses input) s
    ((∃ d : Draft, d.New prim s.world ∧ d.objectId = o ∧
        outcome.state.world.db = d.published db) ↔ ∃ chunks, CompleteUpload input.rest chunks) ∧
      (∀ chunks, CompleteUpload input.rest chunks → ∃ d : Draft, d.New prim s.world ∧
        d.Of o chunks.flatten ∧ outcome.state.world.db = d.published db ∧
        outcome.result = some (.ok [.response (.ok .streamReady),
          .response (.ok (.published c.versionId.toHex))])) ∧
      ((¬∃ chunks, CompleteUpload input.rest chunks) → outcome.state.world.db = db ∧
        ∃ e, outcome.result = some (.ok [.response (.ok .streamReady),
          .streamError (mapVaultError e)])) ∧
      ∀ fuel, buffersWithin (StreamReader.read responses) defaultChunkSize fuel (.new input) =
        Reader.chunksWithin defaultChunkSize fuel (streamReader (receivedItems responses input)) := by
  intro outcome
  have hpublished : ∀ chunks, CompleteUpload input.rest chunks → ∃ d : Draft, d.New prim s.world ∧
      d.Of o chunks.flatten ∧ outcome.state.world.db = d.published db ∧
      outcome.result = some (.ok [.response (.ok .streamReady),
        .response (.ok (.published c.versionId.toHex))]) := by
    intro chunks hchunks
    obtain ⟨d, w', hnew, hof, hput, hready⟩ := putFromReader_complete hprim hkey hs haccepts hchunks
    have houtcome := (putStream_admitted ha hparse).1 _ _ hput
    exact ⟨d, hnew, hof, by rw [show outcome = _ from houtcome]; exact hready.db,
      by rw [show outcome = _ from houtcome]; rfl⟩
  have hkept : (¬∃ chunks, CompleteUpload input.rest chunks) → outcome.state.world.db = db ∧
      ∃ e, outcome.result = some (.ok [.response (.ok .streamReady),
        .streamError (mapVaultError e)]) := by
    intro hincomplete
    obtain ⟨e, w', hput, hdb⟩ := putFromReader_incomplete hprim hkey hs haccepts hincomplete
    have houtcome := (putStream_admitted ha hparse).2 _ _ hput
    exact ⟨by rw [show outcome = _ from houtcome]; exact hdb,
      e, by rw [show outcome = _ from houtcome]; rfl⟩
  refine ⟨⟨?_, ?_⟩, hpublished, hkept, fun fuel => StreamReader.buffersWithin_eq _ fuel input⟩
  · rintro ⟨d, hnew, -, hdb⟩
    by_contra hincomplete
    -- a new version would be in the tables
    rw [(hkept hincomplete).1] at hdb
    have hfresh := hnew.fresh
    rw [hs.db, hdb, Draft.published, Draft.addTo, Database.upsertActive, Table.lookup_insert_eq,
      if_pos rfl] at hfresh
    cases hfresh
  · rintro ⟨chunks, hchunks⟩
    obtain ⟨d, hnew, hof, hdb, -⟩ := hpublished chunks hchunks
    exact ⟨d, hnew, hof.object, hdb⟩

end

/-! ### An upload in two items -/

/-- Two data items and the end marker. -/
def sentSample : Input UInt8 := ⟨[0, 0, 0, 2, 7, 8, 0, 0, 0, 1, 9, 0, 0, 0, 0], false⟩

theorem completeUpload_sentSample : CompleteUpload sentSample.rest [[7, 8], [9]] :=
  ⟨⟨by simp [IsItem, maxStreamChunkBytes], [], rfl⟩, by decide⟩

/-- A daemon over the vault of `taped`. -/
def tapedDaemon : DaemonState Tape := ⟨taped (choicesSample.streamedScript 1), true, none, false⟩

theorem upload_published_iff_complete_two_items :
    ∃ d : Draft, d.New .transparent tapedDaemon.world ∧ d.Of (.repeated 2) [7, 8, 9] ∧
      (putStream .transparent {} sampleObject (receivedItems sampleResponses sentSample)
        tapedDaemon).state.world.db = d.published .empty ∧
      (putStream .transparent {} sampleObject (receivedItems sampleResponses sentSample)
        tapedDaemon).result = some (.ok [.response (.ok .streamReady),
          .response (.ok (.published choicesSample.versionId.toHex))]) := by
  have hcount : bufferCount sampleResponses sentSample = 1 :=
    (bufferCount_complete sampleResponses completeUpload_sentSample.1).2
  have hready : tapedDaemon.world.Ready unlockedSample .empty
      (choicesSample.streamedScript (bufferCount sampleResponses sentSample)) := by
    rw [hcount]
    exact ready_taped _
  have haccepts : Database.empty.Accepts choicesSample (bufferCount sampleResponses sentSample) := by
    rw [hcount]
    exact ⟨rfl, nofun, by decide⟩
  exact (upload_published_iff_complete Primitives.seals_transparent rfl ⟨rfl, rfl, rfl⟩
    (show parseRequestObjectId sampleObject = .ok (.repeated 2) by decide +kernel) hready haccepts).2.1
      _ completeUpload_sentSample

end Protocol

end Vlt1

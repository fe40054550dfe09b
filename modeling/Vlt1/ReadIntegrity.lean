import Vlt1.Ledger
import Vlt1.Refinement
import Vlt1.Vault.Passes

/-!
# Integrity of reads

The database file is in nobody's custody: between any two statements other programs may write to it as
they like. What a read returns is nevertheless a plaintext that the program has stored for that object.

Two assumptions carry this. `Unforged` is the integrity of the AEAD, asked of the records that the read
tries to open (`Opening`) and of no others: what opens was sealed in the run, under the same key and with the
same associated data. It says nothing of records that are never read, and an AEAD that opens what it sealed
meets it (`unforged_of_sealed`). The other assumption is that no version identifier was drawn twice. With
them the Manifest and the chunks of a version lead to one submission of the ledger, since the associated
data of each names object, version and place (`ReadChecks.submission`).
-/

namespace Vlt1

open Effect

/-! ### What a read opens -/

/-- The attempts of a read to open a record of a version and its chunk rows: under which key, with which
associated data, which record. -/
inductive Opening (prim : Primitives) (rootKey : Block 32) (v : VaultId) (o : ObjectId)
    (version : StoredVersion) (rows : Set (ℤ × ChunkRow)) : Bytes → Bytes → SealedRecord → Prop
  | dataKey {kek : Block 32} (hkek : deriveKek prim rootKey v = .ok kek) :
      Opening prim rootKey v o version rows kek.toList (wrappedDekAad v o version.versionId)
        version.wrappedDek
  | manifest {dataKey key : Block 32} (hdataKey : openDataKey prim rootKey v o version = .ok dataKey)
      (hkey : deriveManifestKey prim dataKey version.versionId = .ok key) :
      Opening prim rootKey v o version rows key.toList (manifestAad v o version.versionId) version.manifest
  | chunk {dataKey : Block 32} {m : Manifest} {row : ℤ × ChunkRow} {chunk : EncryptedChunk} {len : UInt32}
      (hdataKey : openDataKey prim rootKey v o version = .ok dataKey)
      (hmanifest : openManifest prim dataKey v o version = .ok m) (hrow : row ∈ rows)
      (hread : readChunkRow row = .ok chunk) (hlen : expectedPlaintextChunkLen m chunk.index = .ok len) :
      Opening prim rootKey v o version rows dataKey.toList
        (chunkAad v o version.versionId chunk.index len) chunk.record

/-- Of these attempts to open a record, those that succeed find what was sealed under the same key and with
the same associated data. -/
def Unforged (prim : Primitives) (history : List Event) (opens : Bytes → Bytes → SealedRecord → Prop) :
    Prop :=
  ∀ key aad record, opens key aad record → ∀ plaintext, openRecord prim key aad record = .ok plaintext →
    ∃ record', .sealed key aad plaintext record' ∈ history

/-- What a read of the object opens, if no other program writes to the tables. -/
def Database.Opens (prim : Primitives) (rootKey : Block 32) (v : VaultId) (o : ObjectId) (db : Database)
    (key aad : Bytes) (record : SealedRecord) : Prop :=
  ∃ u version, db.selectActive o = .ok u ∧ db.selectVersion u = .ok version ∧
    Opening prim rootKey v o version {row | row ∈ db.selectChunks u} key aad record

section

variable {ω : Type} [Machine ω] {prim : Primitives}

/-! ### One read -/

omit [Machine ω] in
/-- Locking the vault leaves what was written. -/
theorem sink_lockAfterFailure {α : Type} (x : VaultOp ω α) (w : World ω) :
    (lockAfterFailure x w).state.sink = (x w).state.sink := by
  unfold lockAfterFailure
  cases x w with
  | ok a w' => rfl
  | failed e w' => dsimp only; split <;> rfl
  | crashed w' => rfl

/-- What a read of the object in this state opens when its checks succeed: the rows of the version it has
found, and the chunk rows of its decryption pass. -/
def ReadOpens (prim : Primitives) (o : ObjectId) (w : World ω) (key aad : Bytes) (record : SealedRecord) :
    Prop :=
  ∃ c : ReadChecks prim o w, Opening prim c.rootKey w.vaultId o c.version c.rows key aad record

/-- On tables that nobody else writes to, a read opens what is in them. -/
theorem ReadOpens.opens [Exclusive ω] {o : ObjectId} {w : World ω} {key aad : Bytes}
    {record : SealedRecord} (h : ReadOpens prim o w key aad record) :
    ∃ rootKey, w.vault.rootKey = some rootKey ∧ w.db.Opens prim rootKey w.vaultId o key aad record := by
  obtain ⟨c, hopening⟩ := h
  obtain ⟨hactive, hversion, -⟩ := activeVersion_ok c.active
  have hrows : ∀ row ∈ c.rows, row ∈ w.db.selectChunks c.version.versionId := by
    rintro row ⟨w1, hselects, hrow⟩
    have huntouched : w.Untouched w1 := IsTrans.trans _ _ _ ((keeps_activeVersion _).of_ok c.active)
      (IsTrans.trans _ _ _ ((keeps_checkStoredReceipt prim _ _ _).of_ok c.receipt)
        (IsTrans.trans _ _ _ ((keeps_digestPass prim _ _).of_ok c.digest)
          ((keeps_query _).of_ok hselects)))
    rwa [huntouched.db] at hrow
  refine ⟨c.rootKey, c.unlocked, _, _, hactive, hversion, ?_⟩
  cases hopening with
  | dataKey hkek => exact .dataKey hkek
  | manifest hdataKey hkey => exact .manifest hdataKey hkey
  | chunk hdataKey hmanifest hrow hread hlen =>
    exact .chunk hdataKey hmanifest (hrows _ hrow) hread hlen

/-- So it is enough that the records in the tables are not forged. -/
theorem Unforged.readOpens [Exclusive ω] {history : List Event} {o : ObjectId} {w : World ω}
    (h : ∀ rootKey, w.vault.rootKey = some rootKey →
      Unforged prim history (w.db.Opens prim rootKey w.vaultId o)) :
    Unforged prim history (ReadOpens prim o w) := by
  intro key aad record hopens
  obtain ⟨rootKey, hkey, hmem⟩ := hopens.opens
  exact h rootKey hkey key aad record hmem

section Reads

variable {submissions : List Submission} {history : List Event} {o : ObjectId} {w : World ω}
  (haccounts : Accounts submissions history) (hfresh : (drawnVersions history).Nodup)
  (hunforged : Unforged prim history (ReadOpens prim o w))

include haccounts hfresh hunforged

/-- The checks of a read lead to one submission, which says how long the plaintext is and which piece
opens at which index. -/
theorem ReadChecks.submission (c : ReadChecks prim o w) :
    ∃ s ∈ submissions, (s.objectId = o ∧ s.versionId = c.version.versionId) ∧
      c.manifest.plaintextLen.toNat = s.plaintext.length ∧
      ∀ w1 : World ω, c.digested.Selects c.version.versionId w1 →
        OpenToPieces prim w.vaultId o c.version.versionId c.dataKey c.manifest s.pieces
          (w1.db.selectChunks c.version.versionId) := by
  -- the Manifest names the submission
  obtain ⟨manifestKey, bytes, hderive, hopenManifest, hdecode, -⟩ := openManifest_eq_ok c.opensManifest
  obtain ⟨record, hsealedManifest⟩ :=
    hunforged _ _ _ ⟨c, .manifest c.opensDataKey hderive⟩ _ hopenManifest
  obtain ⟨s, hs, -, ho, hu, m, rfl, hlength⟩ := haccounts.manifest hsealedManifest
  rw [decodeManifest_encodeManifest] at hdecode
  obtain rfl := Except.ok.inj hdecode
  refine ⟨s, hs, ⟨ho, hu⟩, hlength, fun w1 hselects row hrow chunk hread len hlen part hopen => ?_⟩
  -- a chunk leads to a submission with the same version identifier
  obtain ⟨record', hsealedChunk⟩ := hunforged _ _ _
    ⟨c, .chunk c.opensDataKey c.opensManifest ⟨w1, hselects, hrow⟩ hread hlen⟩ _ hopen
  obtain ⟨s', hs', -, -, hu', hpiece⟩ := haccounts.chunk hsealedChunk
  rw [haccounts.unique hfresh hs hs' (hu.trans hu'.symm)]
  exact hpiece

/-- A read to a writer that returned has written the plaintext of a submission. -/
theorem getToWriter_ok_submission {w' : World ω} (hsink : w.sink = [])
    (h : getToWriter prim o .stream w = .ok () w') :
    ∃ s ∈ submissions, s.objectId = o ∧ w'.sink = s.plaintext := by
  have hread : getToWriterInner prim o .stream w = .ok () w' := lockAfterFailure_eq_ok.mp h
  rcases getToWriterInner_cases prim o .stream w with ⟨c, hc⟩ | ⟨hnot, -⟩
  · obtain ⟨s, hs, ⟨ho, -⟩, hlength, hopen⟩ := c.submission haccounts hfresh hunforged
    have hall := c.pass_ok hopen (hc.symm.trans hread) hlength
    rw [hsink] at hall
    exact ⟨s, hs, ho, hall⟩
  · exact absurd hread (hnot _ _)

/-- A read to a writer whose passes find the same rows has written nothing and not returned, or a beginning
of the plaintext of a submission, and all of it if it returned. -/
theorem getToWriter_submission (hsame : ∀ c : ReadChecks prim o w, c.SameRows) (hsink : w.sink = []) :
    ((getToWriter prim o .stream w).state.sink = [] ∧
        (getToWriter prim o .stream w).result ≠ some (.ok ())) ∨
      ∃ s ∈ submissions, s.objectId = o ∧ (getToWriter prim o .stream w).state.sink <+: s.plaintext ∧
        ((getToWriter prim o .stream w).result = some (.ok ()) →
          (getToWriter prim o .stream w).state.sink = s.plaintext) := by
  have hreturned : (getToWriter prim o .stream w).result = some (.ok ()) →
      getToWriterInner prim o .stream w = .ok () (getToWriter prim o .stream w).state :=
    fun hok => lockAfterFailure_eq_ok.mp (Outcome.eq_ok_of_result hok)
  have hstate : (getToWriter prim o .stream w).state.sink =
      (getToWriterInner prim o .stream w).state.sink := sink_lockAfterFailure _ w
  rcases getToWriterInner_cases prim o .stream w with ⟨c, hc⟩ | ⟨hnot, hnothing⟩
  · obtain ⟨s, hs, ⟨ho, -⟩, hlength, hopen⟩ := c.submission haccounts hfresh hunforged
    obtain ⟨b, hb, hwritten⟩ := c.pass_prefix hopen (hsame c) .stream
    refine .inr ⟨s, hs, ho, ?_, fun hok => ?_⟩
    · rw [hstate, hc, hwritten, hsink]
      exact hb
    · have hall := c.pass_ok hopen (hc.symm.trans (hreturned hok)) hlength
      rwa [hsink] at hall
  · refine .inl ⟨by rw [hstate, hnothing, hsink], fun hok => ?_⟩
    exact hnot _ _ (hreturned hok)

end Reads

/-- `get` returns the plaintext of a submission. -/
theorem get_submission {submissions : List Submission} {history : List Event} {o : ObjectId} {w w' : World ω}
    (haccounts : Accounts submissions history) (hfresh : (drawnVersions history).Nodup)
    (hunforged : Unforged prim history (ReadOpens prim o { w with sink := [] })) {bytes : Bytes}
    (h : get prim o w = .ok bytes w') : ∃ s ∈ submissions, s.objectId = o ∧ bytes = s.plaintext := by
  obtain ⟨hread, rfl⟩ := get_eq_ok h
  rcases getToWriterInner_cases prim o .vector { w with sink := [] } with ⟨c, hc⟩ | ⟨hnot, -⟩
  · obtain ⟨s, hs, ⟨ho, -⟩, hlength, hopen⟩ := c.submission haccounts hfresh hunforged
    exact ⟨s, hs, ho, c.pass_ok hopen (hc.symm.trans hread) hlength⟩
  · exact absurd hread (hnot _ _)

/-- A read that has written has made its checks. -/
theorem exists_readChecks_of_written {o : ObjectId} (writer : Writer) {w : World ω}
    (h : (getToWriter prim o writer w).state.sink ≠ w.sink) : Nonempty (ReadChecks prim o w) := by
  rw [getToWriter, sink_lockAfterFailure] at h
  rcases getToWriterInner_cases prim o writer w with ⟨c, -⟩ | ⟨-, hsink⟩
  · exact ⟨c⟩
  · exact absurd hsink h

/-- **Checks before the first byte.** Whatever is in the tables, the writer receives a byte only after
the vault was found unlocked, the version row, its wrapped key, its Manifest and its receipt have
passed their checks, and the stored chunks have matched the digest of the Manifest. -/
theorem writes_after_checks (o : ObjectId) (writer : Writer) (w : World ω)
    (h : (getToWriter prim o writer w).state.sink ≠ w.sink) : Nonempty (ReadChecks prim o w) :=
  exists_readChecks_of_written writer h

/-! ### Reads in a run -/

section Runs

variable {provider : WitnessProvider ω} {passphrase : Text} {w₀ w : World ω} {u : Unit}

/-- **Integrity of reads.** A program makes its calls on a vault it created; then anyone replaces the
database and the surroundings, and other programs write to the tables while an object is read. If `get` or
`getToWriter` returns, the bytes are exactly a plaintext that one of the calls has supplied for the object,
even if the two passes over the chunks find different rows. If they find the same, then also a read that
does not return has written nothing, or a beginning of such a plaintext. And the writer receives a byte
only after the version row, its wrapped key, its Manifest and its receipt have passed their checks, and
the stored chunks have matched index by index the count and the digest of the Manifest.

No version identifier was drawn twice by the calls, and of the records that the read tries to open none is
forged. -/
theorem read_integrity (hnew : w₀.history = []) (hcreate : create prim passphrase w₀ = .ok u w)
    (calls : List VaultCall) {x : World ω}
    (hx : (Run.final (sessionStep prim provider) ⟨w, true⟩ calls).world = x)
    (hfresh : (drawnVersions x.history).Nodup) {y : World ω} (hsink : y.sink = []) (o : ObjectId)
    (hunforged : Unforged prim x.history (ReadOpens prim o y)) :
    (∀ bytes y', get prim o y = .ok bytes y' → ∃ call ∈ calls, call.Supplies o bytes) ∧
    (∀ y', getToWriter prim o .stream y = .ok () y' → ∃ call ∈ calls, call.Supplies o y'.sink) ∧
    ((∀ c : ReadChecks prim o y, c.SameRows) → (getToWriter prim o .stream y).state.sink = [] ∨
      ∃ call ∈ calls, ∃ plaintext, call.Supplies o plaintext ∧
        (getToWriter prim o .stream y).state.sink <+: plaintext) ∧
    ((getToWriter prim o .stream y).state.sink ≠ [] → Nonempty (ReadChecks prim o y)) := by
  obtain ⟨submissions, hsupplied, haccounts⟩ :=
    Ledger.of_create provider hnew hcreate calls
  rw [hx] at haccounts
  have hsame : { y with sink := [] } = y := by rw [← hsink]
  refine ⟨fun bytes y' hget => ?_, fun y' hread => ?_, fun hrows => ?_, fun hwritten => ?_⟩
  · obtain ⟨s, hs, rfl, rfl⟩ := get_submission haccounts hfresh (hsame.symm ▸ hunforged) hget
    exact hsupplied s hs
  · obtain ⟨s, hs, rfl, hall⟩ := getToWriter_ok_submission haccounts hfresh hunforged hsink hread
    rw [hall]
    exact hsupplied s hs
  · rcases getToWriter_submission haccounts hfresh hunforged hrows hsink with
      ⟨hnothing, -⟩ | ⟨s, hs, rfl, hprefix, -⟩
    · exact .inl hnothing
    · obtain ⟨call, hcall, hsupplies⟩ := hsupplied s hs
      exact .inr ⟨call, hcall, s.plaintext, hsupplies, hprefix⟩
  · refine exists_readChecks_of_written .stream ?_
    rwa [hsink]

end Runs

end

/-! ### Records of the program -/

/-- The record was sealed by the program. -/
def wasSealed (prim : Primitives) (history : List Event) (record : SealedRecord) : Bool :=
  history.any fun
    | .sealed key aad plaintext record' =>
      record' = record && prim.encrypt key record.nonce aad plaintext = some record.ciphertext
    | _ => false

theorem decrypt_of_openRecord {prim : Primitives} {key aad plaintext : Bytes} {record : SealedRecord}
    (h : openRecord prim key aad record = .ok plaintext) :
    prim.decrypt key record.nonce aad record.ciphertext = some plaintext := by
  unfold openRecord at h
  split at h
  · cases h
  · cases hdecrypt : prim.decrypt key record.nonce aad record.ciphertext with
    | none => rw [hdecrypt] at h; cases h
    | some found => rw [hdecrypt] at h; cases h; rfl

/-- If a read opens only records that the program has sealed, an ideal AEAD finds only what was sealed. -/
theorem unforged_of_sealed {prim : Primitives} (hprim : prim.IdealAead) {history : List Event}
    {opens : Bytes → Bytes → SealedRecord → Prop}
    (h : ∀ key aad record, opens key aad record → wasSealed prim history record = true) :
    Unforged prim history opens := by
  intro key aad record hopens plaintext hopen
  obtain ⟨e, he, hsealed⟩ := List.any_eq_true.mp (h key aad record hopens)
  cases e with
  | sealed key' aad' plaintext' record' =>
    simp only [Bool.and_eq_true, decide_eq_true_eq] at hsealed
    obtain ⟨rfl, hencrypt⟩ := hsealed
    have hdecrypt := decrypt_of_openRecord hopen
    obtain ⟨rfl, rfl⟩ := hprim.binding hencrypt hdecrypt
    rw [hprim.plaintext_eq hencrypt hdecrypt]
    exact ⟨record', he⟩
  | _ => cases hsealed

/-- The records of the active version of an object. -/
def Database.recordsOf (db : Database) (o : ObjectId) : List SealedRecord :=
  match db.selectActive o with
  | .error _ => []
  | .ok u =>
    match db.selectVersion u with
    | .error _ => []
    | .ok version => version.wrappedDek :: version.manifest ::
      (db.selectChunks u).filterMap fun row => (readChunkRow row).toOption.map EncryptedChunk.record

theorem Database.Opens.mem_recordsOf {prim : Primitives} {rootKey : Block 32} {v : VaultId} {o : ObjectId}
    {db : Database} {key aad : Bytes} {record : SealedRecord}
    (h : db.Opens prim rootKey v o key aad record) : record ∈ db.recordsOf o := by
  obtain ⟨u, version, hactive, hversion, hopening⟩ := h
  unfold Database.recordsOf
  rw [hactive]
  dsimp only
  rw [hversion]
  cases hopening with
  | dataKey _ => exact List.mem_cons_self
  | manifest _ _ => exact List.mem_cons_of_mem _ List.mem_cons_self
  | chunk _ _ hrow hread _ =>
    refine List.mem_cons_of_mem _ (List.mem_cons_of_mem _ (List.mem_filterMap.mpr ⟨_, hrow, ?_⟩))
    rw [hread]
    rfl

/-! ### Samples -/

/-- An object is stored twice, the second time from a reader. -/
def integrityCalls : List VaultCall :=
  [.put (.repeated 2) [97] 1, .putFromReader (.repeated 2) [.interrupted, .data [98, 99, 100]] 2]

/-- The state in which the object is read. -/
def integrityState : World SampleChannel :=
  (Run.final mapSession ⟨mapWorld, true⟩ integrityCalls).world

/-- The same state with the tables from before the second call put back. -/
def rolledBackState : World SampleChannel :=
  { integrityState with
    db := (Run.final mapSession ⟨mapWorld, true⟩ (integrityCalls.take 1)).world.db }

/-- What happens in the sample, in one evaluation. -/
theorem integrity_run :
    (drawnVersions integrityState.history).Nodup ∧
    (∀ record ∈ rolledBackState.db.recordsOf (.repeated 2),
      wasSealed .transparent integrityState.history record = true) ∧
    (integrityState.sink = [] ∧ rolledBackState.sink = []) ∧
    (getToWriter .transparent (.repeated 2) .stream integrityState).state.sink = [98, 99, 100] ∧
    (get .transparent (.repeated 2) rolledBackState).result = some (.ok [97]) ∧
    (getToWriter .transparent (.repeated 2) .stream rolledBackState).result = some (.ok ()) ∧
    (getToWriter .transparent (.repeated 2) .stream rolledBackState).state.sink = [97] := by
  decide +kernel

section

variable {history : List Event} {o : ObjectId} {w : World SampleChannel}
  (h : ∀ record ∈ w.db.recordsOf o, wasSealed .transparent history record = true)

include h

/-- Records of the program are not forged. -/
theorem unforged_sample : Unforged .transparent history (ReadOpens .transparent o w) := by
  refine Unforged.readOpens fun rootKey _ => ?_
  exact unforged_of_sealed Primitives.idealAead_transparent
    fun key aad record hopens => h record hopens.mem_recordsOf

end

/-- The read of the sample writes, so its checks have passed. -/
theorem writes_after_checks_sample :
    Nonempty (ReadChecks .transparent (.repeated 2) integrityState) := by
  obtain ⟨-, -, ⟨hsink, -⟩, hwritten, -⟩ := integrity_run
  refine writes_after_checks (.repeated 2) .stream integrityState ?_
  rw [hwritten, hsink]
  exact List.cons_ne_nil _ _

/-- From tables that were put back, a read returns what an earlier call has supplied. -/
theorem read_integrity_sample :
    (get .transparent (.repeated 2) rolledBackState).result = some (.ok [97]) ∧
      (∃ call ∈ integrityCalls, call.Supplies (.repeated 2) [97]) ∧
      (getToWriter .transparent (.repeated 2) .stream rolledBackState).state.sink = [97] ∧
      Nonempty (ReadChecks .transparent (.repeated 2) rolledBackState) := by
  obtain ⟨hnodup, hsealed, ⟨-, hsink⟩, -, hget, -, hwritten⟩ := integrity_run
  have hrun : (Run.final mapSession ⟨mapWorld, true⟩ integrityCalls).world = integrityState := rfl
  have hunforged := unforged_sample hsealed
  obtain ⟨hreturns, -, -, hchecks⟩ := read_integrity rfl create_mapWorld integrityCalls hrun hnodup
    hsink (.repeated 2) hunforged
  refine ⟨hget, hreturns _ _ (Outcome.eq_ok_of_result hget), hwritten, hchecks ?_⟩
  rw [hwritten]
  exact List.cons_ne_nil _ _

end Vlt1

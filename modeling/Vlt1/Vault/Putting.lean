import Vlt1.Vault.Assertions
import Vlt1.Vault.Drafts

/-!
# The publications as pre- and postconditions

A call that publishes seals a draft and then stores it in one transaction: as the active version of
its object (`Draft.published`), or staged until the witness has acknowledged it (`Draft.staged`). The
triples here reduce what such a call keeps to what this one change of the tables keeps, whatever
fails on the way.
-/

namespace Vlt1

open Effect

namespace Draft

/-- The tables with the draft as the active version of its object. -/
def published (d : Draft) (db : Database) : Database :=
  (d.addTo db).upsertActive d.objectId d.versionId

/-- The tables with the draft staged. -/
def staged (d : Draft) (e : UInt64) (db : Database) : Database :=
  { d.addTo db with pending := db.pending.insert d.versionId.blob (e.toNat : ℤ) }

/-- The draft was sealed for a vault in memory. -/
def SealedFor (prim : Primitives) (d : Draft) (v : Vault) : Prop :=
  ∃ rootKey, v.rootKey = some rootKey ∧ d.Sealed prim v.envelope.vaultId rootKey

/-- The draft was sealed for the vault and its version is not stored yet. -/
structure New {ω : Type} (prim : Primitives) (d : Draft) (w : World ω) : Prop where
  sealedFor : d.SealedFor prim w.vault
  fresh : w.db.versions.lookup d.versionId.blob = none
  fits : d.plaintext.length < sqlIntegerBound

/-- A draft of a plaintext for an object. -/
structure Of (d : Draft) (o : ObjectId) (plaintext : Bytes) : Prop where
  object : d.objectId = o
  plaintext : d.plaintext = plaintext
  even : d.Even

/-- A draft of what a reader delivers until end of file. -/
structure OfReader (d : Draft) (o : ObjectId) (reader : Reader) (size : ℕ) : Prop where
  object : d.objectId = o
  pieces : reader.chunks size = (d.parts.map Prod.fst, .ok ())
  size : d.chunkSize.toNat = size

/-- The stored length is the length of the plaintext, as it fits. -/
theorem Sealed.toNat_plaintextLen {prim : Primitives} {v : VaultId} {k : Block 32} {d : Draft}
    (h : d.Sealed prim v k) : d.storedVersion.plaintextLen.toNat = d.plaintext.length := by
  rw [storedVersion, UInt64.toNat_ofNat']
  exact Nat.mod_eq_of_lt h.len

theorem Sealed.toNat_chunkCount {prim : Primitives} {v : VaultId} {k : Block 32} {d : Draft}
    (h : d.Sealed prim v k) : (UInt32.ofNat d.parts.length).toNat = d.parts.length := by
  rw [UInt32.toNat_ofNat']
  exact Nat.mod_eq_of_lt (lt_of_le_of_lt h.count (by decide))

end Draft

section

variable {ω : Type} [Machine ω] {prim : Primitives} {M N : World ω → Prop} {o : ObjectId}
  {d : Draft}

/-- Storage failures leave a steady assertion. -/
theorem faults_of_steady {M : World ω → Prop} {stop : Option VaultError → World ω → Prop}
    (h : ∀ e w, M w → stop e w) : Steady.Faults M stop :=
  fun _ _ w' hw' => ⟨fun _ => h _ w' hw', fun _ => h _ w' hw'⟩

theorem triple_requireRootKey (hM : Steady M) :
    Op.Triple M (requireRootKey (ω := ω)) (fun rootKey w => M w ∧ w.vault.rootKey = some rootKey)
      fun _ => M := by
  intro w hw
  have hkept := (hM.triple fun R hR => keeps_requireRootKey) w hw
  cases hout : requireRootKey w with
  | ok rootKey w' =>
    obtain ⟨hkey, rfl⟩ := requireRootKey_eq_ok.mp hout
    exact ⟨hw, hkey⟩
  | failed e w' => rw [hout] at hkept; exact hkept
  | crashed w' => rw [hout] at hkept; exact hkept

/-! ### Versions prepared in memory -/

/-- A version that was prepared is a sealed draft of the plaintext; nothing has been committed. -/
theorem triple_prepareVersion (hM : Steady M) (plaintext : Bytes) (size : ℕ) :
    Op.Triple M (prepareVersion prim o plaintext size)
      (fun prepared w => ∃ d : Draft, (d.Of o plaintext ∧
        prepared = ⟨d.storedVersion, encryptedChunks d.parts⟩) ∧ M w ∧ d.SealedFor prim w.vault)
      fun _ => M := by
  intro w hw
  have hsame := hM.and (Steady.of_vault (· = w.vault))
  have hkept := (hsame.triple fun R hR => keeps_prepareVersion prim o plaintext size) w ⟨hw, rfl⟩
  cases hout : prepareVersion prim o plaintext size w with
  | ok prepared w' =>
    rw [hout] at hkept
    obtain ⟨d, rootKey, hkey, hsealed, hobject, hplaintext, heven, rfl⟩ := prepareVersion_ok hout
    refine ⟨d, ⟨⟨hobject, hplaintext, heven⟩, rfl⟩, hkept.1, rootKey, ?_, ?_⟩
    · rw [hkept.2]
      exact hkey
    · rw [hkept.2]
      exact hsealed
  | failed e w' => rw [hout] at hkept; exact hkept.1
  | crashed w' => rw [hout] at hkept; exact hkept.1

/-- An assertion about a vault that a draft is sealed for. -/
theorem steady_sealedFor (hM : Steady M) (d : Draft) :
    Steady fun w => M w ∧ d.SealedFor prim w.vault :=
  hM.and (Steady.of_vault (d.SealedFor prim))

/-- A publication takes the tables from before the draft to after it in one commit. -/
theorem triple_publish (hM : Steady M) (hN : Steady N)
    (hpublish : ∀ w, M w → d.New prim w → N (w.committed (d.published w.db))) :
    Op.Triple (fun w => M w ∧ d.SealedFor prim w.vault)
      (publish d.storedVersion (encryptedChunks d.parts)) (fun _ => N) fun _ w => M w ∨ N w := by
  have hS : Steady fun w => M w ∧ d.SealedFor prim w.vault := steady_sealedFor hM d
  refine Op.Triple.bind_require (fun _ => ?_) fun _ _ hw => .inl hw.1
  refine Op.Triple.bind (fun _ => N) (hS.triple_transaction (faults_of_steady fun _ _ hw => .inl hw.1)
    ?_ fun _ _ hw _ => .inl hw.1) fun _ => ?_
  · rintro w db ⟨hw, hsealed⟩ hbody
    obtain ⟨hfits, hfresh, rfl⟩ := Database.publishBody_ok hbody
    obtain ⟨rootKey, hkey, hd⟩ := hsealed
    rw [hd.toNat_plaintextLen] at hfits
    exact hpublish w hw ⟨⟨rootKey, hkey, hd⟩, hfresh, hfits⟩
  · exact (hN.triple fun R hR => keeps_enforceOwnerPrivateStateFiles).mono_stop fun _ _ => .inr

/-- Staging stores the draft with a pending row. -/
theorem triple_stageWitnessPublication (hM : Steady M) (hN : Steady N) {e : UInt64}
    (hstage : ∀ w, M w → d.New prim w → e.toNat < sqlIntegerBound →
      w.db.pending.lookup d.versionId.blob = none → N (w.committed (d.staged e w.db))) :
    Op.Triple (fun w => M w ∧ d.SealedFor prim w.vault)
      (stageWitnessPublication d.storedVersion (encryptedChunks d.parts) e) (fun _ => N)
      fun _ w => M w ∨ N w := by
  have hS : Steady fun w => M w ∧ d.SealedFor prim w.vault := steady_sealedFor hM d
  refine Op.Triple.bind_require (fun _ => ?_) fun _ _ hw => .inl hw.1
  refine Op.Triple.bind (fun _ => N) (hS.triple_transaction (faults_of_steady fun _ _ hw => .inl hw.1)
    ?_ fun _ _ hw _ => .inl hw.1) fun _ => ?_
  · rintro w db ⟨hw, hsealed⟩ hbody
    obtain ⟨hfits, hepoch, hfresh, hpending, rfl⟩ := Database.stageBody_ok hbody
    obtain ⟨rootKey, hkey, hd⟩ := hsealed
    rw [hd.toNat_plaintextLen] at hfits
    exact hstage w hw ⟨⟨rootKey, hkey, hd⟩, hfresh, hfits⟩ hepoch hpending
  · exact (hN.triple fun R hR => keeps_enforceOwnerPrivateStateFiles).mono_stop fun _ _ => .inr

omit [Machine ω] in
/-- A failed operation keeps what locking keeps. -/
theorem triple_lockAfterFailure_or {α : Type} {pre : World ω → Prop} {x : VaultOp ω α}
    {post : α → World ω → Prop} (hx : Op.Triple pre x post fun _ w => M w ∨ N w)
    (hMlock : ∀ w, M w → M w.locked) (hNlock : ∀ w, N w → N w.locked) :
    Op.Triple pre (lockAfterFailure x) post fun _ w => M w ∨ N w :=
  triple_lockAfterFailure_of_locked hx fun _ w hw _ => hw.imp (hMlock w) (hNlock w)

/-- A put does nothing to the tables, or publishes a draft of its plaintext. -/
theorem triple_putWithChunkSize (hM : Steady M) (hN : Steady N) (hMlock : ∀ w, M w → M w.locked)
    (hNlock : ∀ w, N w → N w.locked) {plaintext : Bytes} (size : ℕ)
    (hpublish : ∀ w (d : Draft), M w → d.Of o plaintext → d.New prim w →
      N (w.committed (d.published w.db))) :
    Op.Triple M (putWithChunkSize prim o plaintext size) (fun _ => N) fun _ w => M w ∨ N w := by
  refine triple_lockAfterFailure_or ?_ hMlock hNlock
  refine Op.Triple.bind _ ((triple_prepareVersion hM plaintext size).mono_stop
    fun _ _ => .inl) fun prepared => ?_
  refine Op.Triple.of_exists fun d => Op.Triple.of_imp fun hd => ?_
  obtain ⟨hof, rfl⟩ := hd
  have hpublished := triple_publish hM hN (d := d) fun w hw hnew => hpublish w d hw hof hnew
  exact Op.Triple.bind _ hpublished fun _ => Op.Triple.pure fun _ h => h

variable [Exclusive ω]

/-! ### Recovery -/

/-- A recovery, given what the acknowledgement of one staged version does: the versions are completed
one after another, and when the recovery returns none is left. -/
theorem triple_recover_of_acknowledge {provider : WitnessProvider ω}
    {stop : Option VaultError → World ω → Prop}
    (hkey : Op.Triple M (requireRootKey (ω := ω)) (fun _ => M) stop)
    (hlist : Op.Triple M (pendingWitnessPublications (ω := ω)) (fun _ => M) stop)
    (hack : ∀ v e, Op.Triple (fun w => M w ∧ w.db.Staged v e) (acknowledge prim provider v e)
      (fun _ => M) stop)
    (hcount : ∀ w (pending : List (StoredVersion × UInt64)), M w →
      (∀ q ∈ pending, w.db.Staged q.1 q.2) → (pending.map fun q => q.1.versionId).Nodup →
      ¬pending.length < 2 ^ 64 → ∀ w', M w' →
        stop (some (.invariant "pending witness publication count exceeds u64")) w')
    (hlock : ∀ e w, stop (some e) w → e.requiresLock = true → stop (some e) w.locked) :
    Op.Triple M (recoverPendingWitnessPublications prim provider)
      (fun _ w => M w ∧ ∀ v e, ¬w.db.Staged v e) stop := by
  refine triple_lockAfterFailure_of_locked ?_ hlock
  refine Op.Triple.bind _ hkey fun _ => ?_
  -- the versions still to complete are the staged ones, each once
  let inv (_ rest : List (StoredVersion × UInt64)) (_ : Unit) (w : World ω) : Prop :=
    M w ∧ (∀ q ∈ rest, w.db.Staged q.1 q.2) ∧ (rest.map fun q => q.1.versionId).Nodup ∧
      ∀ v e, w.db.Staged v e → ∃ q ∈ rest, q.1.versionId = v.versionId
  refine Op.Triple.bind (fun pending w => (pending.length < 2 ^ 64 ∨ ∀ w', M w' →
    stop (some (.invariant "pending witness publication count exceeds u64")) w') ∧
      inv [] pending () w) ?_ fun pending => Op.Triple.of_imp fun hlength => ?_
  · intro w hw
    have hkept := hlist w hw
    cases hout : pendingWitnessPublications w with
    | ok pending w' =>
      rw [hout] at hkept
      obtain ⟨hquiet, hstaged, hrows⟩ := pendingWitnessPublications_ok hout
      have hnodup := Table.nodup_keys_select (· ≤ ·) w.db.pending
      rw [show w.db.pending.select (· ≤ ·) = _ from hrows.symm, List.map_map] at hnodup
      have hdistinct : (pending.map fun q => q.1.versionId).Nodup :=
        List.Nodup.of_map Identifier.blob (by rwa [List.map_map])
      refine ⟨?_, hkept, fun q hq => hquiet.db ▸ hstaged q hq, hdistinct, fun v e hve => ?_⟩
      · by_cases hfits : pending.length < 2 ^ 64
        · exact .inl hfits
        · exact .inr (hcount w pending hw hstaged hdistinct hfits)
      · rw [hquiet.db] at hve
        have hrow := (Table.mem_select (· ≤ ·)).mpr (Database.selectStaged_eq_ok.mp hve.pending).2
        rw [← Database.selectPending, ← hrows, List.mem_map] at hrow
        obtain ⟨q, hq, hkeys⟩ := hrow
        exact ⟨q, hq, Identifier.blob_inj.mp (Prod.mk.inj hkeys).1⟩
    | failed error w' => rw [hout] at hkept; exact hkept
    | crashed w' => rw [hout] at hkept; exact hkept
  have hstep : ∀ done q rest u, Op.Triple (inv done (q :: rest) u)
      (acknowledge prim provider q.1 q.2) (inv (done ++ [q]) rest) stop := by
    rintro done ⟨v, e⟩ rest u w ⟨hw, hstaged, hnodup, hall⟩
    obtain ⟨hnot, hnodup⟩ := List.nodup_cons.mp hnodup
    have hdone := hack v e w ⟨hw, hstaged (v, e) List.mem_cons_self⟩
    cases hout : acknowledge prim provider v e w with
    | ok _ w' =>
      rw [hout] at hdone
      obtain ⟨-, r, -, hbody⟩ := acknowledge_ok hout
      refine ⟨hdone, fun q hq => ?_, hnodup, fun v' e' hve => ?_⟩
      · refine (Database.staged_finalized_iff hbody).mpr ⟨hstaged q (List.mem_cons_of_mem _ hq), ?_⟩
        exact fun heq => hnot (List.mem_map.mpr ⟨q, hq, heq⟩)
      · obtain ⟨hold, hne⟩ := (Database.staged_finalized_iff hbody).mp hve
        obtain ⟨q, hq, hid⟩ := hall v' e' hold
        rcases List.mem_cons.mp hq with rfl | hq
        · exact absurd hid.symm hne
        · exact ⟨q, hq, hid⟩
    | failed error w' => rw [hout] at hdone; exact hdone
    | crashed w' => rw [hout] at hdone; exact hdone
  refine Op.Triple.bind _ (Op.Triple.fold hstep [] pending ()) fun _ => ?_
  refine Op.Triple.bind_require (fun _ => Op.Triple.pure ?_) fun w hfits hw => ?_
  · rintro w ⟨hw, -, -, hall⟩
    refine ⟨hw, fun v e hve => ?_⟩
    obtain ⟨q, hq, -⟩ := hall v e hve
    cases hq
  · exact hlength.resolve_left hfits w hw.1

/-! ### The streaming path -/

/-- Without interference, an assertion about the vault in memory, the tables and what was
committed. -/
theorem Steady.of_quiet (P : Vault → Database → List Database → Prop) :
    Steady fun w : World ω => P w.vault w.db w.commits where
  move _ _ _ h := h
  interfere w h := by
    rw [Exclusive.interfere_fst]
    exact h
  sink _ _ h := h
  record w e he h := by
    have hcommits : World.commits { w with history := e :: w.history } = w.commits := by
      rcases he with he | he <;> cases e <;> first | rfl | exact he.elim
    rw [hcommits]
    exact h

/-- The transaction began over the tables as they are. -/
structure StreamingPublication.Begins (p : StreamingPublication) (wrappedDek : SealedRecord)
    (size : UInt32) (db : Database) : Prop where
  fresh : db.versions.lookup p.versionId.blob = none
  working : p.working = { db with
    versions := db.versions.insert p.versionId.blob
      (streamingPlaceholder p.objectId p.versionId wrappedDek size).toRow }

/-- An assertion around an open streaming transaction. -/
def Streaming (M : World ω → Prop) (start : StreamingPublication) (wrappedDek : SealedRecord)
    (size : UInt32) (w : World ω) : Prop :=
  M w ∧ start.Begins wrappedDek size w.db

theorem steady_streaming (hM : Steady M) (start : StreamingPublication) (wrappedDek : SealedRecord)
    (size : UInt32) : Steady (Streaming M start wrappedDek size) :=
  hM.and (Steady.of_untouched fun _ db => start.Begins wrappedDek size db)

omit [Exclusive ω] in
/-- A stream begins without chunks, for a version that is not there. -/
theorem triple_beginStreamingPublication (hM : Steady M) (u : VersionId) (dek : SealedRecord)
    (size : UInt32) :
    Op.Triple M (beginStreamingPublication o u dek size)
      (fun start w => (start.objectId = o ∧ start.versionId = u ∧ start.nextChunkIndex = 0 ∧
        start.plaintextLen = 0) ∧ Streaming M start dek size w) fun _ => M := by
  refine Op.Triple.bind _ (hM.triple_storageFault (faults_of_steady fun _ _ h => h)) fun _ => ?_
  refine Op.Triple.bind _ hM.triple_tables fun db => ?_
  refine Op.Triple.bind_ofExcept (fun working hworking => ?_) fun _ _ _ hw => hw.1
  obtain ⟨-, -, hnew, rfl⟩ := Database.insertVersion_eq_ok.mp hworking
  refine Op.Triple.pure ?_
  rintro w ⟨hw, rfl⟩
  exact ⟨⟨rfl, rfl, rfl, rfl⟩, hw, hnew, rfl⟩

omit [Exclusive ω] in
/-- The loop seals what the reader delivered. -/
theorem triple_streamChunks {P : World ω → Prop} (hP : Steady P) {v : VaultId} {dataKey : Block 32}
    {start : StreamingPublication} (hindex : start.nextChunkIndex = 0)
    (hlen : start.plaintextLen = 0) (pieces : List Bytes) :
    Op.Triple P (Op.fold (streamChunk prim v dataKey)
        { publication := start, digest := .new, chunkCount := 0, plaintextLen := 0 } pieces)
      (fun s w => (∃ parts, parts.map Prod.fst = pieces ∧
        StreamsParts prim v dataKey start parts s) ∧ P w) fun _ => P := by
  let inv (done _ : List Bytes) (s : StreamingState) (w : World ω) : Prop :=
    (∃ parts, parts.map Prod.fst = done ∧ StreamsParts prim v dataKey start parts s) ∧ P w
  have hstep : ∀ done chunk rest s, Op.Triple (inv done (chunk :: rest) s)
      (streamChunk prim v dataKey s chunk) (inv (done ++ [chunk]) rest) fun _ => P := by
    rintro done chunk rest s w ⟨⟨parts, rfl, hs⟩, hw⟩
    have hkept := (hP.triple fun R hR => keeps_streamChunk prim v dataKey s chunk) w hw
    cases hout : streamChunk prim v dataKey s chunk w with
    | ok s' w' =>
      rw [hout] at hkept
      obtain ⟨r, hs'⟩ := streamChunk_ok hs hout
      exact ⟨⟨_, by simp, hs'⟩, hkept⟩
    | failed e w' => rw [hout] at hkept; exact hkept
    | crashed w' => rw [hout] at hkept; exact hkept
  refine (Op.Triple.fold hstep [] pieces _).mono_pre fun w hw => ⟨⟨[], rfl, ?_⟩, hw⟩
  refine ⟨fun i part hi => by simp at hi, Nat.zero_le _, rfl, rfl, rfl, ?_⟩
  rw [← hindex, ← hlen]
  rfl

omit [Machine ω] [Exclusive ω] in
theorem toNat_ofNat_of_lt {n : ℕ} (h : n < 2 ^ 32) : (UInt32.ofNat n).toNat = n := by
  rw [UInt32.toNat_ofNat']
  exact Nat.mod_eq_of_lt h

omit [Machine ω] [Exclusive ω] in
theorem ofNat_ne_zero {n : ℕ} (hpos : n ≠ 0) (h : n < 2 ^ 32) : UInt32.ofNat n ≠ 0 := by
  intro hzero
  have hn := toNat_ofNat_of_lt h
  rw [hzero] at hn
  exact hpos hn.symm

omit [Machine ω] [Exclusive ω] in
/-- What the loop has sealed, with the wrapped DEK and the Manifest, is a sealed draft. -/
theorem StreamsParts.sealed {v : VaultId} {rootKey dataKey : Block 32} {start : StreamingPublication}
    {wrappedDek manifest : SealedRecord} {size : UInt32} {parts : List (Bytes × SealedRecord)}
    {s : StreamingState} (hs : StreamsParts prim v dataKey start parts s) (hsize : size ≠ 0)
    (hdek : ∃ kek, deriveKek prim rootKey v = .ok kek ∧
      prim.encrypt kek.toList wrappedDek.nonce (wrappedDekAad v start.objectId start.versionId)
        dataKey.toList = some wrappedDek.ciphertext)
    (hmanifest : ∃ key, deriveManifestKey prim dataKey start.versionId = .ok key ∧
      prim.encrypt key.toList manifest.nonce (manifestAad v start.objectId start.versionId)
        (encodeManifest
          { formatVersion, objectId := start.objectId, versionId := start.versionId
            plaintextLen := s.plaintextLen, chunkSize := size, chunkCount := s.chunkCount
            chunkDigest := s.digest.finalize prim }) = some manifest.ciphertext) :
    (streamedDraft start dataKey wrappedDek size parts manifest).Sealed prim v rootKey := by
  have hcount : s.chunkCount = UInt32.ofNat parts.length := by
    rw [← hs.count, UInt32.ofNat_toNat]
  have hlen : s.plaintextLen = UInt64.ofNat (parts.map Prod.fst).flatten.length := by
    rw [← hs.len, UInt64.ofNat_toNat]
  rw [hcount, hlen, hs.digest] at hmanifest
  refine ⟨hsize, hs.bound, ?_, hdek, hmanifest, hs.seals⟩
  show (parts.map Prod.fst).flatten.length < 2 ^ 64
  rw [← hs.len]
  exact s.plaintextLen.toNat_lt

/-- The last step stores the streamed draft. -/
theorem triple_finish (hM : Steady M) (hN : Steady N) {dataKey : Block 32}
    {start : StreamingPublication} {wrappedDek manifest : SealedRecord} {size : UInt32}
    {parts : List (Bytes × SealedRecord)} {v : VaultId} {s : StreamingState}
    (hs : StreamsParts prim v dataKey start parts s)
    (hsealed : ∀ w, M w →
      (streamedDraft start dataKey wrappedDek size parts manifest).SealedFor prim w.vault)
    (hpublish : ∀ w, M w → (streamedDraft start dataKey wrappedDek size parts manifest).New prim w →
      N (w.committed ((streamedDraft start dataKey wrappedDek size parts manifest).published w.db))) :
    Op.Triple (Streaming M start wrappedDek size) (s.publication.finish manifest s.chunkCount)
      (fun _ => N) fun _ w => M w ∨ N w := by
  have hS := steady_streaming hM start wrappedDek size
  refine Op.Triple.bind_require (fun _ => ?_) fun _ _ hw => .inl hw.1
  refine Op.Triple.bind _ (hS.triple_storageFault (faults_of_steady fun _ _ hw => .inl hw.1))
    fun _ => ?_
  refine Op.Triple.bind_ofExcept (fun db hdb => ?_) fun _ _ _ hw => .inl hw.1
  refine Op.Triple.bind (fun _ => N) ?_ fun _ =>
    (hN.triple fun R hR => keeps_enforceOwnerPrivateStateFiles).mono_stop fun _ _ => .inr
  rintro w ⟨hw, hbegins⟩
  obtain ⟨hfits, rfl⟩ := finishBody_streamed hbegins.working hs hdb
  exact hpublish w hw ⟨hsealed w hw, hbegins.fresh, hfits⟩

/-- An upload does nothing to the tables, or publishes a draft of what its reader gave. -/
theorem triple_putFromReaderWithChunkSize (hM : Steady M) (hN : Steady N)
    (hMlock : ∀ w, M w → M w.locked) (hNlock : ∀ w, N w → N w.locked) {reader : Reader} {size : ℕ}
    (hpublish : ∀ w (d : Draft), M w → d.OfReader o reader size → d.New prim w →
      N (w.committed (d.published w.db))) :
    Op.Triple M (putFromReaderWithChunkSize prim o reader size) (fun _ => N)
      fun _ w => M w ∨ N w := by
  refine triple_lockAfterFailure_or ?_ hMlock hNlock
  refine Op.Triple.bind_require (fun hpos => ?_) fun _ _ => .inl
  refine Op.Triple.bind_require (fun hsize => ?_) fun _ _ => .inl
  refine Op.Triple.bind _ ((triple_requireRootKey hM).mono_stop fun _ _ => .inl) fun rootKey => ?_
  refine Op.Triple.bind_get fun w0 hw0 => ?_
  -- nothing up to the last step touches the vault in memory
  let K (w : World ω) : Prop := M w ∧ w.vault = w0.vault
  have hK : Steady K := hM.and (Steady.of_vault (· = w0.vault))
  have hread {β : Type} {x : VaultOp ω β}
      (hx : ∀ R : World ω → World ω → Prop, SealRelation R → Op.Keeps R x) :
      Op.Triple K x (fun _ => K) fun _ w => M w ∨ N w :=
    (hK.triple hx).mono_stop fun _ _ hw => .inl hw.1
  refine (Op.Triple.bind _ (hread fun R hR => keeps_randomVersionId) fun u => ?_).mono_pre
    fun w hw => show K w from ⟨hw ▸ hw0.1, by rw [hw]⟩
  refine Op.Triple.bind _ (hread fun R hR => keeps_randomBytes 32) fun dataKey => ?_
  refine Op.Triple.bind _ ((hread fun R hR => keeps_wrapDataKey prim rootKey w0.vaultId o u
    dataKey).returns fun _ _ _ h => wrapDataKey_ok h) fun wrappedDek => ?_
  refine Op.Triple.of_imp fun hdek => ?_
  refine Op.Triple.bind _ ((triple_beginStreamingPublication hK u wrappedDek _).mono_stop
    fun _ _ hw => .inl hw.1) fun start => ?_
  refine Op.Triple.of_imp fun hstart => ?_
  obtain ⟨rfl, rfl, hindex, hlen⟩ := hstart
  have hS := steady_streaming hK start wrappedDek (UInt32.ofNat size)
  refine Op.Triple.bind _ ((triple_streamChunks hS hindex hlen (reader.chunks size).1).mono_stop
    fun _ _ hw => .inl hw.1.1) fun s => ?_
  refine Op.Triple.of_imp fun hparts => ?_
  obtain ⟨parts, hpieces, hs⟩ := hparts
  refine Op.Triple.bind_ofExcept (fun _ hending => ?_) fun _ _ _ hw => .inl hw.1.1
  refine Op.Triple.bind _ (((hS.triple fun R hR => keeps_sealManifest prim w0.vaultId dataKey
    _).mono_stop fun _ _ hw => .inl hw.1.1).returns
      fun _ _ _ h => sealManifest_ok h) fun manifest => ?_
  refine Op.Triple.of_imp fun hmanifest => ?_
  let d : Draft := streamedDraft start dataKey wrappedDek (UInt32.ofNat size) parts manifest
  have hd : d.Sealed prim w0.vaultId rootKey :=
    hs.sealed (ofNat_ne_zero hpos hsize) hdek hmanifest
  have hof : d.OfReader start.objectId reader size :=
    ⟨rfl, Prod.ext hpieces.symm hending, toNat_ofNat_of_lt hsize⟩
  refine Op.Triple.bind (fun _ => N) ?_ fun _ => Op.Triple.pure fun _ h => h
  refine (triple_finish hK hN hs (fun w hw => ?_) fun w hw hnew => hpublish w d hw.1 hof hnew).mono_stop
    fun _ _ hw => hw.imp And.left id
  rw [hw.2]
  exact ⟨rootKey, hw0.2, hd⟩

end

end Vlt1

import Vlt1.Library.Run
import Vlt1.Session
import Vlt1.Vault.Drafts

/-!
# Where sealed records come from

The history of a run has every record the vault has sealed. `Accounts` is the ledger of such a history:
each drawn version identifier belongs to one submission of a plaintext, and every sealed record is the
wrapped key, a piece or the Manifest of a submission, bound to it by its associated data; all others
are Root Key envelopes. `Ledger.run` says that every run of a program keeps the ledger of the
plaintexts its calls have supplied, whatever the surroundings do, and `Accounts.chunk` and its
companions read it backwards, from associated data to the submission.
-/

namespace Vlt1

open Effect

/-! ### Submissions -/

/-- A plaintext submitted for publication, cut into the pieces that are sealed one by one. -/
structure Submission where
  vaultId : VaultId
  objectId : ObjectId
  versionId : VersionId
  pieces : List Bytes

namespace Submission

/-- The plaintext as a whole. -/
def plaintext (s : Submission) : Bytes := s.pieces.flatten

/-- The associated data and the plaintext of a record that is sealed for a submission. -/
inductive Seals (s : Submission) : Bytes → Bytes → Prop
  | dataKey (key : Bytes) : Seals s (wrappedDekAad s.vaultId s.objectId s.versionId) key
  | chunk {index : UInt32} {piece : Bytes} (hpiece : s.pieces[index.toNat]? = some piece) :
      Seals s (chunkAad s.vaultId s.objectId s.versionId index (UInt32.ofNat piece.length)) piece
  | manifest {m : Manifest} (hlength : m.plaintextLen.toNat = s.plaintext.length) :
      Seals s (manifestAad s.vaultId s.objectId s.versionId) (encodeManifest m)

end Submission

/-- The version identifiers a run has drawn, newest first. -/
def drawnVersions (history : List Event) : List VersionId :=
  history.filterMap fun
    | .versionDrawn u => some u
    | _ => none

/-- The submissions account for every version and every sealed record of a history. -/
structure Accounts (submissions : List Submission) (history : List Event) : Prop where
  drawn : drawnVersions history = submissions.map Submission.versionId
  seals : ∀ key aad plaintext record, Event.sealed key aad plaintext record ∈ history →
    (∃ v, aad = rootAad v) ∨ ∃ s ∈ submissions, s.Seals aad plaintext

namespace Accounts

variable {submissions : List Submission} {history : List Event}

theorem nil : Accounts [] [] := ⟨rfl, fun _ _ _ _ h => by cases h⟩

/-- An event that seals nothing leaves the ledger. -/
theorem other (h : Accounts submissions history) {e : Event} (he : ¬e.IsSealing) :
    Accounts submissions (e :: history) := by
  refine ⟨?_, fun key aad plaintext record hmem => ?_⟩
  · rw [← h.drawn]
    cases e <;> first | rfl | exact absurd trivial he
  · rcases List.mem_cons.mp hmem with rfl | hmem
    · exact absurd trivial he
    · exact h.seals key aad plaintext record hmem

/-- A new version identifier begins a new submission. -/
theorem draw (h : Accounts submissions history) (s : Submission) :
    Accounts (s :: submissions) (.versionDrawn s.versionId :: history) := by
  refine ⟨?_, fun key aad plaintext record hmem => ?_⟩
  · rw [List.map_cons, ← h.drawn]
    rfl
  · rcases List.mem_cons.mp hmem with heq | hmem
    · cases heq
    · exact (h.seals key aad plaintext record hmem).imp id fun ⟨s', hs', hseals⟩ =>
        ⟨s', List.mem_cons_of_mem _ hs', hseals⟩

/-- A record of a submission or of an envelope may be sealed. -/
theorem sealing (h : Accounts submissions history) {key aad plaintext : Bytes} (record : SealedRecord)
    (horigin : (∃ v, aad = rootAad v) ∨ ∃ s ∈ submissions, s.Seals aad plaintext) :
    Accounts submissions (.sealed key aad plaintext record :: history) := by
  refine ⟨h.drawn, fun key' aad' plaintext' record' hmem => ?_⟩
  rcases List.mem_cons.mp hmem with heq | hmem
  · cases heq
    exact horigin
  · exact h.seals key' aad' plaintext' record' hmem

/-! ### From associated data to the submission -/

variable {key aad plaintext : Bytes} {record : SealedRecord} {v : VaultId} {o : ObjectId} {u : VersionId}

/-- A sealed Manifest belongs to the submission its associated data names, and has its length. -/
theorem manifest (h : Accounts submissions history)
    (hmem : Event.sealed key (manifestAad v o u) plaintext record ∈ history) :
    ∃ s ∈ submissions, s.vaultId = v ∧ s.objectId = o ∧ s.versionId = u ∧
      ∃ m, plaintext = encodeManifest m ∧ m.plaintextLen.toNat = s.plaintext.length := by
  rcases h.seals _ _ _ _ hmem with ⟨v', heq⟩ | ⟨s, hs, hseals⟩
  · exact absurd heq (manifestAad_ne_rootAad _ _ _ _)
  · generalize haad : manifestAad v o u = aad at hseals
    cases hseals with
    | dataKey _ => exact absurd haad (manifestAad_ne_wrappedDekAad _ _ _ _ _ _)
    | chunk _ => exact absurd haad (manifestAad_ne_chunkAad _ _ _ _ _ _ _ _)
    | @manifest m hlength =>
      obtain ⟨hv, ho, hu⟩ := manifestAad_inj haad
      exact ⟨s, hs, hv.symm, ho.symm, hu.symm, m, rfl, hlength⟩

/-- A sealed chunk is the piece of the submission at the index its associated data names. -/
theorem chunk (h : Accounts submissions history) {index len : UInt32}
    (hmem : Event.sealed key (chunkAad v o u index len) plaintext record ∈ history) :
    ∃ s ∈ submissions, s.vaultId = v ∧ s.objectId = o ∧ s.versionId = u ∧
      s.pieces[index.toNat]? = some plaintext := by
  rcases h.seals _ _ _ _ hmem with ⟨v', heq⟩ | ⟨s, hs, hseals⟩
  · exact absurd heq (chunkAad_ne_rootAad _ _ _ _ _ _)
  · generalize haad : chunkAad v o u index len = aad at hseals
    cases hseals with
    | dataKey _ => exact absurd haad (chunkAad_ne_wrappedDekAad _ _ _ _ _ _ _ _)
    | manifest _ => exact absurd haad.symm (manifestAad_ne_chunkAad _ _ _ _ _ _ _ _)
    | chunk hpiece =>
      obtain ⟨hv, ho, hu, rfl, -⟩ := chunkAad_inj haad
      exact ⟨s, hs, hv.symm, ho.symm, hu.symm, hpiece⟩

/-- If no version identifier was drawn twice, it determines the submission. -/
theorem unique (h : Accounts submissions history) (hfresh : (drawnVersions history).Nodup)
    {s s' : Submission} (hs : s ∈ submissions) (hs' : s' ∈ submissions)
    (heq : s.versionId = s'.versionId) : s = s' := by
  rw [h.drawn] at hfresh
  exact List.inj_on_of_nodup_map hfresh hs hs' heq

end Accounts

/-! ### Steps that seal nothing -/

section

variable {ω : Type} [Machine ω] {prim : Primitives}

/-- What events other than sealing leave true of the history, every step but sealing keeps. -/
theorem writeRelation_of_history {P : List Event → Prop}
    (h : ∀ e l, ¬e.IsSealing → P l → P (e :: l)) :
    WriteRelation fun w w' : World ω => P w.history → P w'.history where
  refl _ hw := hw
  trans _ _ _ h h' hw := h' (h hw)
  move _ _ _ hw := hw
  interfere _ hw := hw
  sink _ _ hw := hw
  observe _ e he hw := h e _ (by cases e <;> first | exact he.elim | exact not_false) hw
  locked _ hw := hw
  vault _ _ hw := hw
  commit _ _ hw := h _ _ not_false hw
  request _ _ _ hw := h _ _ not_false hw

instance (submissions : List Submission) : WriteRelation fun w w' : World ω =>
    Accounts submissions w.history → Accounts submissions w'.history :=
  writeRelation_of_history (P := Accounts submissions) fun _ _ he hl => hl.other he

/-- Sealing keeps what its own event keeps. -/
theorem keeps_sealRecord_of {R : World ω → World ω → Prop} [QueryRelation R]
    {key aad plaintext : Bytes} (h : ∀ (w : World ω) record,
      R w { w with history := .sealed key aad plaintext record :: w.history }) :
    Op.Keeps R (sealRecord prim key aad plaintext) := by
  refine Op.Keeps.bind (Op.Keeps.require _ _) fun _ =>
    Op.Keeps.bind (keeps_randomBytes 12) fun nonce => ?_
  cases prim.encrypt key nonce aad plaintext with
  | none => exact Op.Keeps.fail _
  | some ciphertext =>
    exact Op.Keeps.bind (fun w => h w ⟨nonce, ciphertext⟩) fun _ => Op.Keeps.pure _

section Sealing

variable {submissions : List Submission}

/-- The relation the ledger is carried by. -/
abbrev KeepsLedger (ω : Type) (submissions : List Submission) (w w' : World ω) : Prop :=
  Accounts submissions w.history → Accounts submissions w'.history

theorem ledger_sealRootKey (passphrase : Text) (v : VaultId) (rootKey : Block 32) (params : KdfParams) :
    Op.Keeps (KeepsLedger ω submissions) (sealRootKey prim passphrase v rootKey params) :=
  Op.Keeps.bind (Op.Keeps.ofExcept _) fun _ => Op.Keeps.bind (keeps_randomBytes 16) fun _ =>
    Op.Keeps.bind (Op.Keeps.ofExcept _) fun _ => Op.Keeps.bind
      (keeps_sealRecord_of fun _ record h => h.sealing record (.inl ⟨v, rfl⟩)) fun _ => Op.Keeps.pure _

variable {s : Submission} (hs : s ∈ submissions)

include hs

theorem ledger_sealChunk (dataKey : Block 32) {index : UInt32} {piece : Bytes}
    (hpiece : s.pieces[index.toNat]? = some piece) :
    Op.Keeps (KeepsLedger ω submissions)
      (sealChunk prim s.vaultId s.objectId s.versionId dataKey index piece) :=
  Op.Keeps.bind (Op.Keeps.require _ _) fun _ => Op.Keeps.bind
    (keeps_sealRecord_of fun _ record h => h.sealing record (.inr ⟨s, hs, .chunk hpiece⟩))
      fun _ => Op.Keeps.pure _

theorem ledger_sealManifest (dataKey : Block 32) {m : Manifest} (ho : m.objectId = s.objectId)
    (hu : m.versionId = s.versionId) (hlength : m.plaintextLen.toNat = s.plaintext.length) :
    Op.Keeps (KeepsLedger ω submissions) (sealManifest prim s.vaultId dataKey m) := by
  refine Op.Keeps.bind (Op.Keeps.ofExcept _) fun _ => keeps_sealRecord_of fun _ record h => ?_
  rw [ho, hu]
  exact h.sealing record (.inr ⟨s, hs, .manifest hlength⟩)

theorem ledger_wrapDataKey (rootKey dataKey : Block 32) :
    Op.Keeps (KeepsLedger ω submissions)
      (wrapDataKey prim rootKey s.vaultId s.objectId s.versionId dataKey) :=
  Op.Keeps.bind (Op.Keeps.ofExcept _) fun _ => keeps_sealRecord_of fun _ record h =>
    h.sealing record (.inr ⟨s, hs, .dataKey _⟩)

end Sealing

/-! ### Submissions of a kind -/

/-- The records of a history come from submissions with the property `P`. -/
def Ledger (P : Submission → Prop) (history : List Event) : Prop :=
  ∃ submissions, (∀ s ∈ submissions, P s) ∧ Accounts submissions history

/-- A ledger in which the given submission is entered. -/
def LedgerWith (P : Submission → Prop) (s : Submission) (history : List Event) : Prop :=
  ∃ submissions, (s ∈ submissions ∧ ∀ s' ∈ submissions, P s') ∧ Accounts submissions history

instance (P : Submission → Prop) : WriteRelation fun w w' : World ω =>
    Ledger P w.history → Ledger P w'.history :=
  writeRelation_of_history (P := Ledger P) fun _ _ he ⟨submissions, hP, h⟩ =>
    ⟨submissions, hP, h.other he⟩

variable {P : Submission → Prop}

omit [Machine ω] in
/-- What is sealed for an entered submission keeps the ledger. -/
theorem LedgerWith.triple {α : Type} {s : Submission} {x : VaultOp ω α}
    (hx : ∀ submissions, s ∈ submissions → Op.Triple (fun w => Accounts submissions w.history) x
      (fun _ w => Accounts submissions w.history) fun _ w => Accounts submissions w.history) :
    Op.Triple (fun w => LedgerWith P s w.history) x (fun _ w => Ledger P w.history)
      fun _ w => Ledger P w.history :=
  Op.Triple.of_exists fun submissions => Op.Triple.of_imp fun hs =>
    (hx submissions hs.1).conseq (fun _ h => h) (fun _ _ h => ⟨submissions, hs.2, h⟩)
      fun _ _ h => ⟨submissions, hs.2, h⟩

/-- A version identifier is drawn for a new submission. -/
theorem ledger_randomVersionId (v : VaultId) {o : ObjectId} {pieces : List Bytes}
    (hP : ∀ u, P ⟨v, o, u, pieces⟩) :
    Op.Triple (fun w : World ω => Ledger P w.history) randomVersionId
      (fun u w => LedgerWith P ⟨v, o, u, pieces⟩ w.history) fun _ w => Ledger P w.history := by
  refine Op.Triple.bind _ (Op.Triple.of_keeps (keeps_randomBytes 16)) fun bytes => ?_
  rintro w ⟨submissions, hall, h⟩
  refine ⟨_ :: submissions, ⟨List.mem_cons_self, fun s hs => ?_⟩, h.draw ⟨v, o, ⟨bytes⟩, pieces⟩⟩
  rcases List.mem_cons.mp hs with rfl | hs
  · exact hP ⟨bytes⟩
  · exact hall s hs

variable (prim) in
/-- Preparing a version seals the pieces of its plaintext. -/
theorem ledger_prepareVersion {o : ObjectId} {plaintext : Bytes} (size : ℕ)
    (hP : ∀ s : Submission, s.objectId = o → s.plaintext = plaintext → P s) :
    Op.Triple (fun w : World ω => Ledger P w.history) (prepareVersion prim o plaintext size)
      (fun _ w => Ledger P w.history) fun _ w => Ledger P w.history := by
  refine Op.Triple.bind _ (Op.Triple.of_keeps keeps_requireRootKey) fun rootKey => ?_
  refine Op.Triple.bind_get fun w0 hw0 => ?_
  refine Op.Triple.bind_require (fun hpos => ?_) fun w _ hw => hw ▸ hw0
  refine Op.Triple.bind_require (fun _ => ?_) fun w _ hw => hw ▸ hw0
  refine Op.Triple.bind_require (fun hlen => ?_) fun w _ hw => hw ▸ hw0
  refine Op.Triple.bind_require (fun hcount => ?_) fun w _ hw => hw ▸ hw0
  refine Op.Triple.bind_require (fun _ => ?_) fun w _ hw => hw ▸ hw0
  have hflatten : (Chunks.chunks size plaintext).flatten = plaintext :=
    Chunks.flatten_chunks (Nat.pos_of_ne_zero hpos)
  refine Op.Triple.bind _ ((ledger_randomVersionId w0.vaultId fun u => hP _ rfl hflatten).mono_pre
    fun w hw => hw ▸ hw0) fun u => ?_
  refine LedgerWith.triple fun submissions hs => Op.Triple.of_keeps ?_
  refine Op.Keeps.bind (keeps_randomBytes 32) fun dataKey => Op.Keeps.bind
    (Op.Keeps.fold_of_mem (fun chunks part hpart => ?_) _) fun chunks => Op.Keeps.bind ?_ fun _ =>
      Op.Keeps.bind (ledger_wrapDataKey hs rootKey dataKey) fun _ => Op.Keeps.pure _
  · -- the offset of a piece fits the index it is sealed under
    obtain ⟨offset, hoffset, rfl⟩ := List.mem_mapIdx.mp hpart
    have hindex : (UInt32.ofNat offset).toNat = offset := by
      rw [UInt32.toNat_ofNat', Nat.mod_eq_of_lt]
      rw [Chunks.length_chunks] at hoffset
      exact hoffset.trans hcount
    refine Op.Keeps.bind (Op.Keeps.require _ _) fun _ => Op.Keeps.bind
      (ledger_sealChunk hs dataKey ?_) fun _ => Op.Keeps.pure _
    rw [hindex]
    exact List.getElem?_eq_getElem hoffset
  · refine ledger_sealManifest hs dataKey rfl rfl ?_
    show (UInt64.ofNat plaintext.length).toNat = (Chunks.chunks size plaintext).flatten.length
    rw [hflatten, UInt64.toNat_ofNat']
    exact Nat.mod_eq_of_lt hlen

/-- The streaming loop seals the pieces of the reader in their order. -/
theorem ledger_streamChunks {submissions : List Submission} {s : Submission} (hs : s ∈ submissions)
    {dataKey : Block 32} {start : StreamingPublication} (ho : start.objectId = s.objectId)
    (hu : start.versionId = s.versionId) (hindex : start.nextChunkIndex = 0)
    (hlen : start.plaintextLen = 0) :
    Op.Triple (fun w : World ω => Accounts submissions w.history)
      (Op.fold (streamChunk prim s.vaultId dataKey)
        { publication := start, digest := .new, chunkCount := 0, plaintextLen := 0 } s.pieces)
      (fun t w => t.plaintextLen.toNat = s.plaintext.length ∧ Accounts submissions w.history)
      fun _ w => Accounts submissions w.history := by
  let inv (done rest : List Bytes) (t : StreamingState) (w : World ω) : Prop :=
    (done ++ rest = s.pieces ∧ ∃ parts, parts.map Prod.fst = done ∧
      StreamsParts prim s.vaultId dataKey start parts t) ∧ Accounts submissions w.history
  have hstep : ∀ done piece rest t, Op.Triple (inv done (piece :: rest) t)
      (streamChunk prim s.vaultId dataKey t piece) (inv (done ++ [piece]) rest)
      fun _ w => Accounts submissions w.history := by
    rintro done piece rest t w ⟨⟨hpieces, parts, hdone, ht⟩, hw⟩
    have hpiece : s.pieces[t.chunkCount.toNat]? = some piece := by
      rw [ht.count, ← hpieces, ← hdone, List.getElem?_append_right (by simp)]
      simp
    have hsame : t.publication.objectId = s.objectId ∧ t.publication.versionId = s.versionId := by
      rw [ht.publication]
      exact ⟨ho, hu⟩
    have hkeeps : Op.Keeps (KeepsLedger ω submissions)
        (streamChunk prim s.vaultId dataKey t piece) := by
      unfold streamChunk
      rw [hsame.1, hsame.2]
      exact Op.Keeps.bind (Op.Keeps.require _ _) fun _ =>
        Op.Keeps.bind (ledger_sealChunk hs dataKey hpiece) fun _ =>
          Op.Keeps.bind (Op.Keeps.bind (Op.Keeps.require _ _) fun _ =>
              Op.Keeps.bind keeps_storageFault fun _ => Op.Keeps.bind (Op.Keeps.ofExcept _) fun _ =>
                Op.Keeps.bind (Op.Keeps.ofExcept _) fun _ => Op.Keeps.bind (Op.Keeps.ofExcept _)
                  fun _ => Op.Keeps.pure _) fun _ => Op.Keeps.bind (Op.Keeps.ofExcept _) fun _ =>
            Op.Keeps.bind (Op.Keeps.ofExcept _) fun _ => Op.Keeps.pure _
    have hkept := hkeeps w hw
    cases hout : streamChunk prim s.vaultId dataKey t piece w with
    | ok t' w' =>
      rw [hout] at hkept
      obtain ⟨r, ht'⟩ := streamChunk_ok ht hout
      exact ⟨⟨by simpa using hpieces, _, by simp [hdone], ht'⟩, hkept⟩
    | failed e w' => rw [hout] at hkept; exact hkept
    | crashed w' => rw [hout] at hkept; exact hkept
  refine (Op.Triple.fold hstep [] s.pieces _).conseq
    (fun w hw => ⟨⟨rfl, [], rfl, ?_⟩, hw⟩) (fun t w h => ?_) fun _ _ h => h
  · refine ⟨fun i part hi => by simp at hi, Nat.zero_le _, rfl, rfl, rfl, ?_⟩
    rw [← hindex, ← hlen]
    rfl
  · obtain ⟨⟨-, parts, hparts, ht⟩, hw⟩ := h
    rw [ht.len, hparts]
    exact ⟨rfl, hw⟩

omit [Machine ω] in
/-- A streaming publication starts with nothing written, under its identifiers. -/
theorem returns_beginStreamingPublication [Machine ω] (o : ObjectId) (u : VersionId)
    (dek : SealedRecord) (size : UInt32) :
    Op.Returns (fun p : StreamingPublication => p.objectId = o ∧ p.versionId = u ∧
        p.nextChunkIndex = 0 ∧ p.plaintextLen = 0)
      (beginStreamingPublication (ω := ω) o u dek size) :=
  Op.Returns.bind _ fun _ => Op.Returns.bind _ fun _ => Op.Returns.bind _ fun _ =>
    Op.Returns.pure ⟨rfl, rfl, rfl, rfl⟩

variable (prim) in
/-- Streaming a version seals the pieces that were read, up to where the reader failed. -/
theorem ledger_putFromReaderInner {o : ObjectId} {reader : Reader} (size : ℕ)
    (hP : ∀ s : Submission, s.objectId = o → s.pieces = (reader.chunks size).1 → P s) :
    Op.Triple (fun w : World ω => Ledger P w.history) (putFromReaderInner prim o reader size)
      (fun _ w => Ledger P w.history) fun _ w => Ledger P w.history := by
  refine Op.Triple.bind_require (fun _ => ?_) fun _ _ hw => hw
  refine Op.Triple.bind_require (fun _ => ?_) fun _ _ hw => hw
  refine Op.Triple.bind _ (Op.Triple.of_keeps keeps_requireRootKey) fun rootKey => ?_
  refine Op.Triple.bind_get fun w0 hw0 => ?_
  refine Op.Triple.bind _ ((ledger_randomVersionId w0.vaultId fun u => hP _ rfl rfl).mono_pre
    fun w hw => hw ▸ hw0) fun u => ?_
  refine LedgerWith.triple fun submissions hs => ?_
  refine Op.Triple.bind _ (Op.Triple.of_keeps (keeps_randomBytes 32)) fun dataKey => ?_
  refine Op.Triple.bind _ (Op.Triple.of_keeps (ledger_wrapDataKey hs rootKey dataKey)) fun dek => ?_
  refine Op.Triple.bind _ ((Op.Triple.of_keeps (keeps_beginStreamingPublication o u dek _)).returns
    (returns_beginStreamingPublication o u dek _)) fun start => ?_
  refine Op.Triple.of_imp fun ⟨ho, hu, hindex, hlen⟩ => ?_
  refine Op.Triple.bind _ (ledger_streamChunks hs ho hu hindex hlen) fun t => ?_
  refine Op.Triple.of_imp fun htotal => ?_
  refine Op.Triple.bind_ofExcept (fun _ _ => ?_) fun _ _ _ hw => hw
  exact Op.Triple.of_keeps (Op.Keeps.bind (ledger_sealManifest hs dataKey rfl rfl htotal) fun _ =>
    Op.Keeps.bind (keeps_finish _ _ _) fun _ => Op.Keeps.pure _)

/-! ### Runs -/

/-- The object and the plaintext a call supplies. -/
inductive VaultCall.Supplies : VaultCall → ObjectId → Bytes → Prop
  | put (o : ObjectId) (plaintext : Bytes) (size : ℕ) :
      Supplies (.put o plaintext size) o plaintext
  | putFromReader (o : ObjectId) (reader : Reader) (size : ℕ) :
      Supplies (.putFromReader o reader size) o (reader.chunks size).1.flatten
  | putWithWitness (o : ObjectId) (plaintext : Bytes) :
      Supplies (.putWithWitness o plaintext) o plaintext

/-- The submission has the object and the plaintext of one of the calls. -/
def Submission.SuppliedBy (calls : List VaultCall) (s : Submission) : Prop :=
  ∃ call ∈ calls, call.Supplies s.objectId s.plaintext

omit [Machine ω] in
/-- A provider's calls leave the history alone. -/
theorem WitnessProvider.keeps_history (provider : WitnessProvider ω) (Q : List Event → Prop) :
    provider.Keeps fun w w' => Q w.history → Q w'.history where
  head _ _ _ _ h := h
  issue _ _ _ h := h

theorem ledger_create (passphrase : Text) :
    Op.Keeps (fun w w' : World ω => Ledger P w.history → Ledger P w'.history)
      (create prim passphrase) := by
  refine Op.Keeps.bind (Op.Keeps.ofExcept _) fun _ => Op.Keeps.bind (keeps_randomBytes 16) fun v =>
    Op.Keeps.bind (keeps_randomBytes 32) fun rootKey => Op.Keeps.bind (fun w hw => ?_)
      fun _ => Op.Keeps.bind (keeps_transaction _) fun _ =>
        Op.Keeps.bind keeps_enforceOwnerPrivateStateFiles fun _ => fun _ hw => hw
  obtain ⟨submissions, hall, h⟩ := hw
  exact ⟨submissions, hall, ledger_sealRootKey _ _ _ _ w h⟩

theorem ledger_rotatePassphrase (current replacement : Text) :
    Op.Keeps (fun w w' : World ω => Ledger P w.history → Ledger P w'.history)
      (rotatePassphrase prim current replacement) := by
  refine Op.Keeps.bind (Op.Keeps.ofExcept _) fun _ => keeps_lockAfterFailure
    (Op.Keeps.bind Op.Keeps.get fun _ => Op.Keeps.bind (Op.Keeps.ofExcept _) fun _ =>
      Op.Keeps.bind (fun w hw => ?_) fun _ => Op.Keeps.bind (keeps_transaction _) fun _ =>
        Op.Keeps.bind keeps_enforceOwnerPrivateStateFiles fun _ => fun _ hw => hw)
  obtain ⟨submissions, hall, h⟩ := hw
  exact ⟨submissions, hall, ledger_sealRootKey _ _ _ _ w h⟩

variable (prim) in
/-- A call keeps the ledger of submissions with a property that what it supplies has. -/
theorem ledger_call (provider : WitnessProvider ω) {call : VaultCall}
    (hP : ∀ s : Submission, call.Supplies s.objectId s.plaintext → P s) :
    call.Survives prim provider (fun w => Ledger P w.history) fun w => Ledger P w.history := by
  have hstay : ∀ w : World ω, Ledger P w.history → Ledger P w.history := fun _ h => h
  have hprovider := provider.keeps_history (Ledger P)
  refine ⟨fun _ => .of_keeps (keeps_openVault prim) hstay,
    fun p _ => .of_keeps (keeps_unlock prim p) hstay, fun o plaintext size hcall => ?_,
    fun o reader size hcall => ?_, fun o plaintext hcall => ?_,
    fun _ => .of_keeps (keeps_recoverPendingWitnessPublications prim hprovider) hstay,
    fun p q _ => .of_keeps (ledger_rotatePassphrase p q) hstay⟩
  · have hprepare := ledger_prepareVersion (ω := ω) prim (P := P) size
      fun s ho hs => hP s (by rw [hcall, ho, hs]; exact .put o plaintext size)
    exact .of_keeps (keeps_lockAfterFailure (Op.Keeps.bind (fun _ hw => hprepare.state hw) fun _ =>
      Op.Keeps.bind (keeps_publish _ _) fun _ => Op.Keeps.pure _)) hstay
  · have hstream := ledger_putFromReaderInner (ω := ω) prim (P := P) size
      fun s ho hs => hP s (by rw [hcall, ho, Submission.plaintext, hs]; exact .putFromReader o reader size)
    exact .of_keeps (keeps_lockAfterFailure fun _ hw => hstream.state hw) hstay
  · have hprepare := ledger_prepareVersion (ω := ω) prim (P := P) defaultChunkSize
      fun s ho hs => hP s (by rw [hcall, ho, hs]; exact .putWithWitness o plaintext)
    exact .of_keeps (keeps_lockAfterFailure (Op.Keeps.bind (fun _ hw => hprepare.state hw) fun _ =>
      Op.Keeps.bind (keeps_activeReceipt prim o) fun _ =>
        Op.Keeps.bind (keeps_stageWitnessPublication _ _ _) fun _ =>
          Op.Keeps.bind (keeps_acknowledge prim hprovider _ _) fun _ => Op.Keeps.pure _)) hstay

variable (prim) in
/-- A run keeps the ledger of what its calls have supplied. -/
theorem Ledger.run (provider : WitnessProvider ω) {s : SessionState ω} (h : Ledger P s.world.history)
    (calls : List VaultCall)
    (hP : ∀ call ∈ calls, ∀ t : Submission, call.Supplies t.objectId t.plaintext → P t) :
    Ledger P (Run.final (sessionStep prim provider) s calls).world.history := by
  induction calls generalizing s with
  | nil => exact h
  | cons call calls ih =>
    refine ih ?_ fun c hc => hP c (List.mem_cons_of_mem _ hc)
    have hcall := ledger_call prim provider (hP call List.mem_cons_self)
    exact hcall.step (provider.keeps_history (Ledger P)).toKeepsHeads (fun _ hw => hw)
      (fun _ hw => hw) h

/-- **The ledger.** In every run of a program on a vault it created, whatever the surroundings do
between the steps, the version identifiers and sealed records in the history are those of
plaintexts that the calls so far have supplied. -/
theorem Ledger.of_create (provider : WitnessProvider ω) {passphrase : Text} {w w' : World ω} {u : Unit}
    (hnew : w.history = []) (hcreate : create prim passphrase w = .ok u w') (calls : List VaultCall) :
    Ledger (Submission.SuppliedBy calls)
      (Run.final (sessionStep prim provider) ⟨w', true⟩ calls).world.history := by
  have hstart : Ledger (Submission.SuppliedBy calls) w.history :=
    ⟨[], fun _ hs => absurd hs List.not_mem_nil, hnew ▸ Accounts.nil⟩
  have hcreated := (ledger_create passphrase).of_ok hcreate hstart
  exact Ledger.run prim provider hcreated calls fun call hcall t ht => ⟨call, hcall, ht⟩

end

end Vlt1

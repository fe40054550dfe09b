import Vlt1.ManifestCodec
import Vlt1.Vault.Frame

/-!
# How the operations fail

A failed operation locks the vault only if its error calls for it (`VaultError.requiresLock`).
Errors about malformed, unauthentic or contradictory data, about storage and about the witness do;
a missing row and a missing Root Key do not. This module follows the errors through the code: what
the parsers and checks report always locks, and reading an object reports something else only if
the vault is locked or the object has no active version.
-/

namespace Vlt1

open Effect

/-- The vault goes to `Locked` after the error. -/
def VaultError.Locks (e : VaultError) : Prop := e.requiresLock = true

/-! ### Checks and parsers -/

section Parsers

variable {prim : Primitives}

/-- A column that is out of range calls for a lock. -/
theorem throws_sqlToUInt64 (i : ℤ) : Throws VaultError.Locks (sqlToUInt64 i) :=
  Throws.ite (Throws.ok _) (Throws.error rfl)

/-- A column that is out of range calls for a lock. -/
theorem throws_sqlToUInt32 (i : ℤ) : Throws VaultError.Locks (sqlToUInt32 i) :=
  Throws.ite (Throws.ok _) (Throws.error rfl)

/-- A number SQLite cannot hold calls for a lock. -/
theorem throws_sqlOfUInt64 (n : UInt64) : Throws VaultError.Locks (sqlOfUInt64 n) :=
  Throws.ite (Throws.ok _) (Throws.error rfl)

/-- A column of the wrong length calls for a lock. -/
theorem throws_fixedBytes (n : ℕ) (message : String) (b : Bytes) :
    Throws VaultError.Locks (fixedBytes n message b) := by
  unfold fixedBytes
  split
  · exact Throws.ok _
  · exact Throws.error rfl

/-- A stored identifier of the wrong length calls for a lock. -/
theorem throws_fromSlice {kind : IdKind} (b : Bytes) :
    Throws VaultError.Locks (Identifier.fromSlice b : Except VaultError (Identifier kind)) := by
  intro e he
  unfold Identifier.fromSlice at he
  cases hb : fixedBytes 16 "invalid identifier length" b with
  | ok x => rw [hb] at he; cases he
  | error e' => rw [hb] at he; cases he; exact throws_fixedBytes _ _ _ _ hb

theorem throws_mapM_fromSlice {kind : IdKind} (columns : List Bytes) :
    Throws VaultError.Locks
      (columns.mapM Identifier.fromSlice : Except VaultError (List (Identifier kind))) := by
  induction columns with
  | nil => exact Throws.ok _
  | cons b columns ih =>
    rw [List.mapM_cons]
    exact Throws.bind (throws_fromSlice b) fun _ => Throws.bind ih fun _ => Throws.ok _

/-- A wire field that is malformed calls for a lock. -/
theorem throws_parseFixed (n : ℕ) (value : Text) (error : String) :
    Throws VaultError.Locks (parseFixed n value error) := by
  unfold parseFixed
  refine Throws.ite ?_ (Throws.error rfl)
  split
  · exact Throws.ok _
  · exact Throws.error rfl

/-- A wire identifier that is malformed calls for a lock. -/
theorem throws_parseIdentifier {kind : IdKind} (value : Text) (error : String) :
    Throws VaultError.Locks (parseIdentifier value error : Except _ (Identifier kind)) :=
  Throws.bind (throws_parseFixed _ _ _) fun _ => throws_fromSlice _

/-- A signature that does not verify calls for a lock. -/
theorem throws_verifySignature (k : Block 32) (message : Bytes) (signature : Block 64) :
    Throws VaultError.Locks (verifySignature prim k message signature) :=
  Throws.ite (Throws.error rfl) (Throws.ite (Throws.ok _) (Throws.error rfl))

/-- A receipt that is not accepted calls for a lock. -/
theorem throws_newReceipt (r : WitnessReceipt) :
    Throws VaultError.Locks (WitnessReceipt.new prim r) :=
  Throws.bind (throws_verifySignature _ _ _) fun _ => Throws.ok _

/-- A head that is not accepted calls for a lock. -/
theorem throws_newHead (h : WitnessHead) : Throws VaultError.Locks (WitnessHead.new prim h) :=
  Throws.ite (Throws.error rfl) (Throws.ite (Throws.error rfl)
    (Throws.bind (throws_verifySignature _ _ _) fun _ => Throws.ok _))

/-- A receipt for another request calls for a lock. -/
theorem throws_verifyRequest (r : WitnessReceipt) (request : WitnessRequest) :
    Throws VaultError.Locks (r.verifyRequest prim request) :=
  Throws.ite (Throws.error rfl) (throws_verifySignature _ _ _)

/-- An answer that is not a receipt calls for a lock. -/
theorem throws_intoReceipt (r : IssueWireResponse) :
    Throws VaultError.Locks (r.intoReceipt prim) :=
  Throws.bind (throws_parseIdentifier _ _) fun _ => Throws.bind (throws_parseIdentifier _ _)
    fun _ => Throws.bind (throws_parseIdentifier _ _) fun _ => Throws.bind (throws_parseFixed _ _ _)
      fun _ => Throws.bind (throws_parseFixed _ _ _) fun _ => Throws.bind (throws_parseFixed _ _ _)
        fun _ => throws_newReceipt _

/-- An optional field throws what its content throws. -/
theorem throws_transposeMap {α β : Type} {f : α → Except VaultError β}
    (hf : ∀ a, Throws VaultError.Locks (f a)) (x : Option α) :
    Throws VaultError.Locks (transposeMap f x) := by
  cases x with
  | none => exact Throws.ok _
  | some a =>
    intro e he
    rw [transposeMap] at he
    cases ha : f a with
    | ok b => rw [ha] at he; cases he
    | error e' => rw [ha] at he; cases he; exact hf a _ ha

/-- An answer that is not a head calls for a lock. -/
theorem throws_intoHead (r : HeadWireResponse) : Throws VaultError.Locks (r.intoHead prim) :=
  Throws.bind (throws_transposeMap (fun _ => throws_parseIdentifier _ _) _) fun _ =>
    Throws.bind (throws_transposeMap (fun _ => throws_parseFixed _ _ _) _) fun _ =>
      Throws.bind (throws_parseIdentifier _ _) fun _ =>
        Throws.bind (throws_parseIdentifier _ _) fun _ =>
          Throws.bind (throws_parseFixed _ _ _) fun _ =>
            Throws.bind (throws_parseFixed _ _ _) fun _ =>
              Throws.bind (throws_parseFixed _ _ _) fun _ => throws_newHead _

/-- A record that does not open calls for a lock. -/
theorem throws_openRecord (key aad : Bytes) (record : SealedRecord) :
    Throws VaultError.Locks (openRecord prim key aad record) := by
  unfold openRecord
  refine Throws.ite (Throws.error rfl) ?_
  split
  · exact Throws.ok _
  · exact Throws.error rfl

/-- A key that cannot be derived calls for a lock. -/
theorem throws_deriveDomainKey (root : Block 32) (salt label : Bytes) :
    Throws VaultError.Locks (deriveDomainKey prim root salt label) := by
  unfold deriveDomainKey
  split
  · exact Throws.ok _
  · exact Throws.error rfl

end Parsers

/-! ### The pinned client -/

section Client

variable {ω : Type} [Transport ω] {prim : Primitives} (p : HttpsWitnessProvider)

omit [Transport ω] in
/-- A request that is lost, refused or answered with too much calls for a lock. -/
theorem fails_post {α : Type} (send : ω → Option (HttpReply α) × ω) :
    Op.Fails VaultError.Locks (post send) := by
  intro s e s' h
  unfold post at h
  split at h <;> cases h <;> rfl

/-- However a receipt is not obtained over HTTPS, the error calls for a lock. -/
theorem HttpsWitnessProvider.fails_issueReceipt (request : WitnessRequest) (e : UInt64) :
    Op.Fails VaultError.Locks ((p.provider prim : WitnessProvider ω).issueReceipt request e) :=
  Op.Fails.bind (fails_post _) fun _ => Op.Fails.bind (Op.Fails.ofExcept (throws_intoReceipt _))
    fun _ => Op.Fails.bind (Op.Fails.ofExcept (Throws.ensure rfl)) fun _ =>
      Op.Fails.bind (Op.Fails.ofExcept (throws_verifyRequest _ _)) fun _ =>
        Op.Fails.bind (Op.Fails.require rfl) fun _ => Op.Fails.pure _

/-- However a head is not obtained over HTTPS, the error calls for a lock. -/
theorem HttpsWitnessProvider.fails_objectHead (v : VaultId) (o : ObjectId) (c : Block 32) :
    Op.Fails VaultError.Locks ((p.provider prim : WitnessProvider ω).objectHead v o c) :=
  Op.Fails.bind (fails_post _) fun _ => Op.Fails.bind (Op.Fails.ofExcept (throws_intoHead _))
    fun _ => Op.Fails.bind (Op.Fails.ofExcept (Throws.ensure rfl)) fun _ =>
      Op.Fails.bind (Op.Fails.require rfl) fun _ => Op.Fails.pure _

end Client

/-! ### The Manifest decoder -/

/-- Every check that fails calls for a lock. -/
theorem FailedCheck.locks {e : VaultError} (h : FailedCheck e) : e.Locks := by
  obtain ⟨message, -, rfl⟩ := h
  rfl

/-! ### Statements -/

namespace Database

variable {db : Database} {prim : Primitives}

/-- A pointer is not found only if the object has none. -/
theorem selectActive_error {o : ObjectId} {e : VaultError} (h : db.selectActive o = .error e) :
    e.Locks ∨ e = .notFound ∧ db.objects.lookup o.blob = none := by
  unfold selectActive at h
  cases hrow : db.objects.lookup o.blob with
  | none =>
    rw [hrow] at h
    exact .inr ⟨(Except.error.inj h).symm, rfl⟩
  | some active =>
    rw [hrow] at h
    exact .inl (throws_fromSlice _ _ h)

/-- A version is not found only if it has no row. -/
theorem selectVersion_error {u : VersionId} {e : VaultError} (h : db.selectVersion u = .error e) :
    e.Locks ∨ e = .notFound ∧ db.versions.lookup u.blob = none := by
  unfold selectVersion at h
  cases hrow : db.versions.lookup u.blob with
  | none =>
    rw [hrow] at h
    exact .inr ⟨(Except.error.inj h).symm, rfl⟩
  | some row =>
    rw [hrow] at h
    refine .inl (Throws.bind (throws_sqlToUInt64 _) (fun _ => ?_) e h)
    exact Throws.bind (throws_sqlToUInt32 _) fun _ => Throws.bind (throws_sqlToUInt32 _) fun _ =>
      Throws.bind (throws_fromSlice _) fun _ => Throws.bind (throws_fixedBytes _ _ _) fun _ =>
        Throws.bind (throws_fixedBytes _ _ _) fun _ => Throws.ok _

/-- The object has no active version that could be read: it has no pointer, or the pointer names a
version without a row. -/
def Missing (db : Database) (o : ObjectId) : Prop :=
  db.objects.lookup o.blob = none ∨
    ∃ u, db.selectActive o = .ok u ∧ db.versions.lookup u.blob = none

/-- An object whose active version is stored is not missing. -/
theorem not_missing {o : ObjectId} {u : VersionId} (hactive : db.selectActive o = .ok u)
    (hversion : db.versions.lookup u.blob ≠ none) : ¬ db.Missing o := by
  rintro (hnone | ⟨u', hactive', hnone⟩)
  · rw [selectActive, hnone] at hactive
    cases hactive
  · obtain rfl := Except.ok.inj (hactive.symm.trans hactive')
    exact hversion hnone

/-- A stored receipt that is not accepted calls for a lock. -/
theorem throws_selectReceipt (u : VersionId) : Throws VaultError.Locks (db.selectReceipt prim u) := by
  unfold selectReceipt
  split
  · exact Throws.ok _
  · exact Throws.bind (throws_sqlToUInt64 _) fun _ => Throws.bind (throws_fromSlice _) fun _ =>
      Throws.bind (throws_fromSlice _) fun _ => Throws.bind (throws_fixedBytes _ _ _) fun _ =>
        Throws.bind (throws_fixedBytes _ _ _) fun _ => Throws.bind (throws_fixedBytes _ _ _)
          fun _ => Throws.bind (throws_newReceipt _) fun _ => Throws.ok _

/-- A version that cannot be inserted calls for a lock. -/
theorem throws_insertVersion (v : StoredVersion) : Throws VaultError.Locks (db.insertVersion v) :=
  Throws.bind (throws_sqlOfUInt64 _) fun _ => Throws.bind (Throws.ensure rfl) fun _ =>
    Throws.bind (Throws.ensure rfl) fun _ => Throws.ok _

/-- A chunk that cannot be inserted calls for a lock. -/
theorem throws_insertChunk (u : VersionId) (c : EncryptedChunk) :
    Throws VaultError.Locks (db.insertChunk u c) := by
  refine Throws.bind (Throws.ensure rfl) fun _ => Throws.bind (Throws.ensure rfl) fun _ => ?_
  exact Throws.bind (Throws.ensure rfl) fun _ => Throws.ok _

theorem throws_insertChunks (u : VersionId) (chunks : List EncryptedChunk) :
    Throws VaultError.Locks (insertChunks u db chunks) := by
  induction chunks generalizing db with
  | nil => exact Throws.ok _
  | cons c chunks ih => exact Throws.bind (throws_insertChunk u c) fun _ => ih

/-- A publication that cannot be staged calls for a lock. -/
theorem throws_stageBody (v : StoredVersion) (chunks : List EncryptedChunk) (e : UInt64) :
    Throws VaultError.Locks (db.stageBody v chunks e) := by
  refine Throws.bind (throws_insertVersion v) fun _ =>
    Throws.bind (throws_insertChunks _ chunks) fun _ => ?_
  exact Throws.bind (throws_sqlOfUInt64 _) fun _ => Throws.bind (Throws.ensure rfl) fun _ =>
    Throws.bind (Throws.ensure rfl) fun _ => Throws.ok _

/-- A receipt that cannot be inserted calls for a lock. -/
theorem throws_insertReceipt (r : WitnessReceipt) : Throws VaultError.Locks (db.insertReceipt r) :=
  Throws.bind (throws_sqlOfUInt64 _) fun _ => Throws.bind (Throws.ensure rfl) fun _ =>
    Throws.bind (Throws.ensure rfl) fun _ => Throws.bind (Throws.ensure rfl) fun _ => Throws.ok _

/-- A staged publication that cannot be finalised calls for a lock. -/
theorem throws_finalizeBody (v : StoredVersion) (r : WitnessReceipt) :
    Throws VaultError.Locks (db.finalizeBody v r) := by
  refine Throws.bind ?_ fun _ => Throws.bind (throws_insertReceipt r) fun _ => Throws.ok _
  unfold selectStaged
  split
  · exact Throws.error rfl
  · exact throws_sqlToUInt64 _

end Database

/-! ### Operations -/

section

variable {ω α β : Type} [Machine ω] {prim : Primitives}

/-- A storage that fails calls for a lock. -/
theorem fails_storageFault : Op.Fails VaultError.Locks (storageFault (ω := ω)) := by
  refine Op.Fails.bind (fun w e w' h => by cases h) fun fault => ?_
  cases fault with
  | none => exact Op.Fails.pure ()
  | storage => exact Op.Fails.fail rfl
  | crash => exact fun w e w' h => by cases h

theorem fails_tables {P : VaultError → Prop} : Op.Fails P (tables (ω := ω)) :=
  fun w e w' h => by cases h

/-- A query fails as the storage or its body does. -/
theorem fails_query {body : Database → Except VaultError α}
    (h : ∀ db, Throws VaultError.Locks (body db)) :
    Op.Fails VaultError.Locks (query (ω := ω) body) :=
  Op.Fails.bind fails_storageFault fun _ => Op.Fails.bind fails_tables fun db =>
    Op.Fails.ofExcept (h db)

/-- A statement fails with the storage or with what it finds in the tables it leaves. -/
theorem query_failed {body : Database → Except VaultError α} {w w' : World ω} {e : VaultError}
    (h : query body w = .failed e w') : e.Locks ∨ body w'.db = .error e := by
  rcases Op.bind_eq_failed.mp h with hfault | ⟨_, w1, -, hrest⟩
  · exact .inl (fails_storageFault _ _ _ hfault)
  rcases Op.bind_eq_failed.mp hrest with htables | ⟨db, w2, htables, hexcept⟩
  · exact (fails_tables (P := fun _ => False) _ _ _ htables).elim
  · obtain ⟨hbody, rfl⟩ := Op.ofExcept_eq_failed.mp hexcept
    cases htables
    exact .inr hbody

/-- A transaction fails as the storage or its body does. -/
theorem fails_transaction {body : Database → Except VaultError Database}
    (h : ∀ db, Throws VaultError.Locks (body db)) :
    Op.Fails VaultError.Locks (transaction (ω := ω) body) :=
  Op.Fails.bind fails_storageFault fun _ => Op.Fails.bind fails_tables fun db =>
    Op.Fails.bind (Op.Fails.ofExcept (h db)) fun _ => Op.Fails.modify _

theorem fails_readChunkRow (row : ℤ × ChunkRow) : Throws VaultError.Locks (readChunkRow row) :=
  Throws.bind (throws_sqlToUInt32 _) fun _ => Throws.bind (throws_fixedBytes _ _ _) fun _ =>
    Throws.ok _

/-- Reading the chunks fails as the storage, a malformed row or the visitor does. -/
theorem fails_visitChunks (u : VersionId) {visit : β → EncryptedChunk → VaultOp ω β}
    (hvisit : ∀ b c, Op.Fails VaultError.Locks (visit b c)) (b : β) :
    Op.Fails VaultError.Locks (visitChunks u visit b) :=
  Op.Fails.bind (fails_query fun _ => Throws.ok _) fun _ => Op.Fails.fold (fun _ _ =>
    Op.Fails.bind fails_storageFault fun _ =>
      Op.Fails.bind (Op.Fails.ofExcept (fails_readChunkRow _)) fun _ => hvisit _ _) _ _

/-- A writer that does not take the bytes calls for a lock. -/
theorem fails_writeAll (writer : Writer) (part : Bytes) :
    Op.Fails VaultError.Locks (writer.writeAll (ω := ω) part) := by
  cases writer with
  | vector => exact Op.Fails.modify _
  | discard => exact Op.Fails.pure ()
  | stream =>
    refine Op.Fails.bind (fun w e w' h => by cases h) fun accepted => ?_
    cases accepted with
    | none => exact Op.Fails.modify _
    | some n => exact Op.Fails.bind (Op.Fails.modify _) fun _ => Op.Fails.fail rfl

theorem throws_checkedAdd32 (a b : UInt32) {e : VaultError} (he : e.Locks) :
    Throws VaultError.Locks (checkedAdd32 a b e) :=
  Throws.ite (Throws.ok _) (Throws.error he)

theorem throws_checkedAdd64 (a b : UInt64) {e : VaultError} (he : e.Locks) :
    Throws VaultError.Locks (checkedAdd64 a b e) :=
  Throws.ite (Throws.ok _) (Throws.error he)

/-- A chunk beyond the manifest's length calls for a lock. -/
theorem throws_expectedPlaintextChunkLen (manifest : Manifest) (index : UInt32) :
    Throws VaultError.Locks (expectedPlaintextChunkLen manifest index) :=
  Throws.ite (Throws.error rfl) (Throws.ite (Throws.ok _) (Throws.ite (Throws.error rfl)
    (Throws.ite (Throws.ok _) (Throws.error rfl))))

/-- A data key that does not open calls for a lock. -/
theorem throws_openDataKey (rootKey : Block 32) (v : VaultId) (o : ObjectId)
    (version : StoredVersion) : Throws VaultError.Locks (openDataKey prim rootKey v o version) :=
  Throws.bind (throws_deriveDomainKey _ _ _) fun _ => Throws.bind (throws_openRecord _ _ _) fun _ =>
    throws_fixedBytes _ _ _

/-- A manifest that does not open, or describes something else, calls for a lock. -/
theorem throws_openManifest (dataKey : Block 32) (v : VaultId) (o : ObjectId)
    (version : StoredVersion) : Throws VaultError.Locks (openManifest prim dataKey v o version) :=
  Throws.bind (throws_deriveDomainKey _ _ _) fun _ => Throws.bind (throws_openRecord _ _ _) fun _ =>
    Throws.bind ((throws_decodeManifest _).mono fun _ => FailedCheck.locks) fun _ => Throws.bind
      (Throws.bind (Throws.ensure rfl) fun _ => Throws.ensure rfl) fun _ => Throws.ok _

/-- A stored receipt that does not match calls for a lock. -/
theorem fails_checkStoredReceipt (v : VaultId) (o : ObjectId) (version : StoredVersion) :
    Op.Fails VaultError.Locks (checkStoredReceipt (ω := ω) prim v o version) := by
  refine Op.Fails.bind (fails_query fun db => Database.throws_selectReceipt _) fun receipt => ?_
  cases receipt with
  | none => exact Op.Fails.pure ()
  | some receipt => exact Op.Fails.ofExcept (throws_verifyRequest _ _)

omit [Machine ω] in
theorem fails_digestVisit (s : ChunkDigestBuilder × UInt32) (c : EncryptedChunk) :
    Op.Fails VaultError.Locks (digestVisit (ω := ω) s c) :=
  Op.Fails.bind (Op.Fails.require rfl) fun _ =>
    Op.Fails.bind (Op.Fails.ofExcept (throws_checkedAdd32 _ _ rfl)) fun _ => Op.Fails.pure _

/-- A chunk that does not open, or has not the length it should, calls for a lock. -/
theorem fails_decryptVisit (v : VaultId) (o : ObjectId) (u : VersionId) (dataKey : Block 32)
    (manifest : Manifest) (writer : Writer) (n : UInt64) (c : EncryptedChunk) :
    Op.Fails VaultError.Locks (decryptVisit (ω := ω) prim v o u dataKey manifest writer n c) :=
  Op.Fails.bind (Op.Fails.ofExcept (throws_expectedPlaintextChunkLen _ _)) fun _ =>
    Op.Fails.bind (Op.Fails.ofExcept (throws_openRecord _ _ _)) fun _ =>
      Op.Fails.bind (Op.Fails.require rfl) fun _ => Op.Fails.bind (fails_writeAll _ _) fun _ =>
        Op.Fails.ofExcept (throws_checkedAdd64 _ _ rfl)

/-- A digest pass fails with errors that call for a lock only. -/
theorem fails_digestPass (u : VersionId) (manifest : Manifest) :
    Op.Fails VaultError.Locks (digestPass (ω := ω) prim u manifest) :=
  Op.Fails.bind (fails_visitChunks u fails_digestVisit _) fun _ =>
    Op.Fails.bind (Op.Fails.require rfl) fun _ => Op.Fails.require rfl

/-- A decryption pass fails with errors that call for a lock only. -/
theorem fails_decryptPass (v : VaultId) (o : ObjectId) (u : VersionId) (dataKey : Block 32)
    (manifest : Manifest) (writer : Writer) :
    Op.Fails VaultError.Locks (decryptPass (ω := ω) prim v o u dataKey manifest writer) :=
  Op.Fails.bind (fails_visitChunks u (fails_decryptVisit v o u dataKey manifest writer) _) fun _ =>
    Op.Fails.require rfl

omit [Machine ω] in
theorem fails_countOf (l : List α) (message : String) :
    Op.Fails VaultError.Locks (countOf (ω := ω) l message) :=
  Op.Fails.bind (Op.Fails.require rfl) fun _ => Op.Fails.pure _

omit [Machine ω] in
/-- An unlocked vault passes the check for its Root Key, so that what fails is behind it. -/
theorem bind_requireRootKey_failed {α : Type} {f : Block 32 → VaultOp ω α} {w w' : World ω}
    {e : VaultError} (hkey : w.vault.rootKey ≠ none) (h : (requireRootKey >>= f) w = .failed e w') :
    ∃ k, f k w = .failed e w' := by
  obtain ⟨k, hk⟩ := Option.ne_none_iff_exists'.mp hkey
  rw [Op.bind_of_ok (requireRootKey_eq_ok.mpr ⟨hk, rfl⟩)] at h
  exact ⟨k, h⟩

section Exclusive

variable [Exclusive ω] {w w' : World ω} {e : VaultError}

/-- With no other process writing, a query that fails with another error has it from its body. -/
theorem query_failed_of_exclusive {body : Database → Except VaultError α}
    (h : query body w = .failed e w') : e.Locks ∨ body w.db = .error e := by
  have hkeeps := keeps_query (R := World.Untouched) body w
  rw [h] at hkeeps
  exact hkeeps.db ▸ query_failed h

/-- Looking up the active version fails with an error that locks, or because there is none. -/
theorem activeVersion_failed {o : ObjectId} (h : activeVersion o w = .failed e w') :
    e.Locks ∨ e = .notFound ∧ w.db.Missing o := by
  rcases Op.bind_eq_failed.mp h with hquery | ⟨u, w1, hquery, hrest⟩
  · rcases query_failed_of_exclusive hquery with hlocks | hbody
    · exact .inl hlocks
    · exact (Database.selectActive_error hbody).imp_right fun h => ⟨h.1, .inl h.2⟩
  · obtain ⟨hu, hw1⟩ := query_ok_of_exclusive hquery
    rcases query_failed_of_exclusive hrest with hlocks | hbody
    · exact .inl hlocks
    · rw [hw1.db] at hbody
      exact (Database.selectVersion_error hbody).imp_right fun h => ⟨h.1, .inr ⟨u, hu, h.2⟩⟩

/-- Looking up a receipt fails only with errors that lock: a missing object has none. -/
theorem activeReceipt_failed {o : ObjectId} (h : activeReceipt prim o w = .failed e w') :
    e.Locks := by
  unfold activeReceipt at h
  cases hversion : activeVersion o w with
  | ok version w1 =>
    rw [hversion] at h
    exact fails_query (fun db => Database.throws_selectReceipt _) _ _ _ h
  | failed e' w1 =>
    rw [hversion] at h
    change (if e' = .notFound then Outcome.ok none w1 else Outcome.failed e' w1) = _ at h
    split at h
    · cases h
    rename_i hne
    cases h
    -- `NotFound` is caught, and everything else the lookup reports locks
    rcases Op.bind_eq_failed.mp hversion with hquery | ⟨u, w2, -, hquery⟩
    · rcases query_failed_of_exclusive hquery with hlocks | hbody
      · exact hlocks
      · exact (Database.selectActive_error hbody).resolve_right fun h => hne h.1
    · rcases query_failed_of_exclusive hquery with hlocks | hbody
      · exact hlocks
      · exact (Database.selectVersion_error hbody).resolve_right fun h => hne h.1
  | crashed w1 => rw [hversion] at h; cases h

/-- Reading an object fails with an error that locks, or because there is nothing to read. -/
theorem getToWriterInner_failed {o : ObjectId} {writer : Writer} (hkey : w.vault.rootKey ≠ none)
    (h : getToWriterInner prim o writer w = .failed e w') :
    e.Locks ∨ e = .notFound ∧ w.db.Missing o := by
  obtain ⟨rootKey, hrest⟩ := bind_requireRootKey_failed hkey h
  rcases Op.bind_eq_failed.mp hrest with hactive | ⟨version, w2, -, hrest⟩
  · exact activeVersion_failed hactive
  -- from here on every check reports an error that locks
  refine .inl (Op.Fails.bind (P := VaultError.Locks) (Op.Fails.require ?_) (fun _ => ?_) _ _ _ hrest)
  · exact rfl
  exact Op.Fails.bind Op.Fails.get fun _ =>
    Op.Fails.bind (Op.Fails.ofExcept (throws_openDataKey _ _ _ _)) fun _ =>
      Op.Fails.bind (Op.Fails.ofExcept (throws_openManifest _ _ _ _)) fun _ =>
        Op.Fails.bind (fails_checkStoredReceipt _ _ _) fun _ =>
          Op.Fails.bind (fails_digestPass _ _) fun _ => fails_decryptPass _ _ _ _ _ _

variable {provider : WitnessProvider ω}

omit [Machine ω] [Exclusive ω] in
/-- A call outside fails as it does there. -/
theorem outside_failed {x : Op VaultError ω α} (hx : Op.Fails VaultError.Locks x) :
    Op.Fails VaultError.Locks (outside x) := by
  intro w e w' h
  unfold outside Op.zoom at h
  cases ho : x w.outside with
  | ok a o => rw [ho] at h; cases h
  | failed e' o => rw [ho] at h; cases h; exact hx _ _ _ ho
  | crashed o => rw [ho] at h; cases h

/-- Comparing an object with the witness fails only with errors that lock. -/
theorem verifyWithWitness_failed {o : ObjectId}
    (hprovider : ∀ v o c, Op.Fails VaultError.Locks (provider.objectHead v o c))
    (hkey : w.vault.rootKey ≠ none) (h : verifyWithWitness prim provider o w = .failed e w') :
    e.Locks := by
  rcases Op.bind_eq_failed.mp h with hreceipt | ⟨stored, w1, hreceipt, hrest⟩
  · exact activeReceipt_failed hreceipt
  cases stored with
  | none => cases hrest; rfl
  | some receipt =>
    obtain ⟨hactive, ⟨version, hversion⟩, -, hw1⟩ := activeReceipt_ok_some hreceipt
    rcases Op.bind_eq_failed.mp hrest with hdraw | ⟨c, w2, hdraw, hrest⟩
    · cases hdraw
    rw [Op.bind_of_ok (Op.get_apply _)] at hrest
    rcases Op.bind_eq_failed.mp hrest with hhead | ⟨head, w3, hhead, hrest⟩
    · exact Op.Fails.bind (outside_failed (hprovider _ _ _)) (fun _ =>
        Op.Fails.bind (Op.Fails.modify _) fun _ => Op.Fails.pure _) _ _ _ hhead
    rcases Op.bind_eq_failed.mp hrest with hmatches | ⟨_, w4, hmatches, hread⟩
    · refine Op.Fails.require (P := VaultError.Locks) ?_ _ _ _ hmatches
      exact rfl
    -- the vault and the tables have not changed since the receipt was read
    obtain ⟨-, rfl⟩ := Op.require_eq_ok.mp hmatches
    have hw3 : w.Untouched w3 := IsTrans.trans _ _ _ hw1 (IsTrans.trans _ _ _
      (keeps_randomWitnessChallenge.of_ok hdraw)
      ((keeps_head provider.keeps_untouched _ _ _).of_ok hhead))
    refine (getToWriterInner_failed (by rwa [hw3.vault]) hread).resolve_right fun hmissing => ?_
    rw [hw3.db] at hmissing
    refine Database.not_missing hactive ?_ hmissing.2
    rw [(Database.selectVersion_eq_ok.mp hversion).2.2]
    exact Option.some_ne_none _

/-- A strict sweep of an unlocked vault fails only with errors that lock. -/
theorem verifyActiveObjectsWithWitness_failed
    (hprovider : ∀ v o c, Op.Fails VaultError.Locks (provider.objectHead v o c))
    (hkey : w.vault.rootKey ≠ none)
    (h : verifyActiveObjectsWithWitness prim provider w = .failed e w') :
    e.Locks ∧ w'.vault.rootKey = none := by
  obtain ⟨w1, hinner, rfl⟩ := lockAfterFailure_eq_failed.mp h
  have hlocks : e.Locks := by
    obtain ⟨rootKey, hlist⟩ := bind_requireRootKey_failed hkey hinner
    rcases Op.bind_eq_failed.mp hlist with hids | ⟨ids, w3, hids, hloop⟩
    · exact Op.Fails.bind (fails_query fun _ => Throws.ok _)
        (fun _ => Op.Fails.ofExcept (throws_mapM_fromSlice _)) _ _ _ hids
    rcases Op.bind_eq_failed.mp hloop with hsweep | ⟨_, w4, -, hcount⟩
    · -- the sweep keeps the vault unlocked until it fails
      have hw3 : w.Untouched w3 := keeps_activeObjectIds.of_ok hids
      obtain ⟨o, -, _, w4, hw4, hverify⟩ := Op.Keeps.failed_of_fold (R := World.Untouched)
        (fun _ o => keeps_verifyWithWitness prim provider.keeps_untouched o) hsweep
      refine verifyWithWitness_failed hprovider ?_ hverify
      rwa [hw4.vault, hw3.vault]
    · exact fails_countOf _ _ _ _ _ hcount
  refine ⟨hlocks, ?_⟩
  rw [if_pos (show e.requiresLock = true from hlocks)]
  rfl

end Exclusive

end

end Vlt1

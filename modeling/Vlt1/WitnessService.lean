import Vlt1.Library.Table
import Vlt1.Platform
import Vlt1.Witness

/-!
# The witness state machine

The independently deployed witness keeps one sequence number for each vault and one head for each
object. `issueWire` conditionally advances a head inside one transaction; `headWire` signs the
current head for a caller's challenge. Failures of SQLite statements and of the file permission
step are inputs (`ServiceEnv`).

`issueWire_effect` says once what a request can do to the tables: nothing, or one advance
(`Advances`). Every invariant of the witness is derived from it.
-/

namespace Vlt1

open Effect

/-- A row of `object_heads` without its key. -/
@[ext]
structure HeadRow where
  versionId : Bytes
  witnessEpoch : ℤ
  commitment : Bytes
  signature : Bytes
deriving DecidableEq

/-- The tables of the witness. -/
structure WitnessDb where
  /-- `vault_epochs`: the next epoch of each vault. -/
  vaultEpochs : Table Bytes ℤ
  /-- `object_heads`, keyed by vault and object. -/
  objectHeads : Table (Bytes × Bytes) HeadRow
deriving DecidableEq

/-- The tables of a freshly created witness database. -/
def WitnessDb.empty : WitnessDb := ⟨∅, ∅⟩

/-- How the platform treats one request. -/
structure ServiceEnv where
  /-- The transaction cannot be opened or a read statement fails. -/
  readFails : Bool
  /-- A write statement or the commit fails. -/
  writeFails : Bool
  /-- The state files after the commit. -/
  files : StateFiles
deriving DecidableEq

/-- Everything succeeds. -/
def ServiceEnv.calm : ServiceEnv := ⟨false, false, .ownerPrivate⟩

/-- A parsed issue request. -/
structure ParsedIssue where
  request : WitnessRequest
  expectedEpoch : UInt64
deriving DecidableEq

/-- A parsed head request. -/
structure ParsedHead where
  vaultId : VaultId
  objectId : ObjectId
  challenge : Block 32
deriving DecidableEq

/-- Parse the fields of an issue request. -/
def parseIssue (request : IssueWireRequest) : Except VaultError ParsedIssue := do
  let vaultId ← parseId 16 request.vaultId "witness vault ID"
  let objectId ← parseId 16 request.objectId "witness object ID"
  let versionId ← parseId 16 request.versionId "witness version ID"
  let commitment ← parseId 32 request.commitment "witness commitment"
  return { request := { vaultId := ⟨vaultId⟩, objectId := ⟨objectId⟩, versionId := ⟨versionId⟩,
                        commitment }
           expectedEpoch := request.expectedEpoch }

/-- Parse the fields of a head request. -/
def parseHead (request : HeadWireRequest) : Except VaultError ParsedHead := do
  let vaultId ← parseId 16 request.vaultId "witness vault ID"
  let objectId ← parseId 16 request.objectId "witness object ID"
  let challenge ← parseId 32 request.challenge "witness challenge"
  return { vaultId := ⟨vaultId⟩, objectId := ⟨objectId⟩, challenge }

/-- The row that stores a receipt as a head. -/
def HeadRow.ofReceipt (r : WitnessReceipt) : HeadRow where
  versionId := r.versionId.blob
  witnessEpoch := r.witnessEpoch.toNat
  commitment := r.commitment.toList
  signature := r.signature.toList

section

variable (prim : Primitives)

/-- The stored head of an object as a receipt under the given key. -/
def loadReceipt (db : WitnessDb) (vaultId : VaultId) (objectId : ObjectId)
    (publicKey : Block 32) : Except VaultError (Option WitnessReceipt) :=
  match db.objectHeads.lookup (vaultId.blob, objectId.blob) with
  | none => .ok none
  | some row => do
    let witnessEpoch ← sqlToUInt64 row.witnessEpoch
    let versionId ← Identifier.fromSlice row.versionId
    let commitment ← fixedBytes 32 "witness fixed-width field" row.commitment
    let signature ← fixedBytes 64 "witness fixed-width field" row.signature
    let receipt ← WitnessReceipt.new prim
      { vaultId, objectId, versionId, witnessEpoch, commitment, publicKey, signature }
    return some receipt

/-- The stored next epoch of a vault, one for a vault never seen. -/
def readNextEpoch (db : WitnessDb) (vaultId : VaultId) : Except VaultError UInt64 :=
  match db.vaultEpochs.lookup vaultId.blob with
  | none => .ok 1
  | some next => sqlToUInt64 next

/-- Allocate the next epoch of a vault. -/
def nextEpoch (db : WitnessDb) (vaultId : VaultId) : Except VaultError (UInt64 × WitnessDb) := do
  let epoch ← readNextEpoch db vaultId
  ensure (epoch.toNat + 1 < 2 ^ 64) (.invariant "witness epoch exhausted")
  let after ← sqlOfUInt64 (epoch + 1)
  return (epoch, { db with vaultEpochs := db.vaultEpochs.insert vaultId.blob after })

/-- Store a receipt as the head of its object. The column has `CHECK(witness_epoch > 0)`. -/
def upsertHead (db : WitnessDb) (receipt : WitnessReceipt) : Except VaultError WitnessDb := do
  let witnessEpoch ← sqlOfUInt64 receipt.witnessEpoch
  ensure (0 < witnessEpoch) .storage
  return { db with
    objectHeads := db.objectHeads.insert (receipt.vaultId.blob, receipt.objectId.blob)
      { HeadRow.ofReceipt receipt with witnessEpoch } }

/-- What the conditional check decides about a request. -/
inductive Decision where
  /-- The request was already acknowledged: repeat the stored receipt. -/
  | answer (receipt : WitnessReceipt)
  /-- The request is stale. -/
  | conflict
  /-- The head may advance. -/
  | advance
deriving DecidableEq

/-- The conditional check against the current head. -/
def decision (current : Option WitnessReceipt) (p : ParsedIssue) : Decision :=
  match current with
  | some receipt =>
    if receipt.versionId = p.request.versionId ∧ receipt.commitment = p.request.commitment ∧
        receipt.witnessEpoch > p.expectedEpoch then .answer receipt
    else if receipt.witnessEpoch ≠ p.expectedEpoch then .conflict
    else .advance
  | none => if p.expectedEpoch ≠ 0 then .conflict else .advance

variable (signingKey : Block 32)

/-- The writes of an advance: a fresh epoch, a signed receipt and the new head. -/
def advanceHead (db : WitnessDb) (request : WitnessRequest) :
    Except VaultError (WitnessReceipt × WitnessDb) := do
  let (epoch, db) ← nextEpoch db request.vaultId
  let receipt := WitnessReceipt.issue prim request epoch signingKey
  let db ← upsertHead db receipt
  return (receipt, db)

variable (env : ServiceEnv)

/-- Process and conditionally sign an issue request. -/
def issueWire (request : IssueWireRequest) : Op VaultError WitnessDb IssueWireResponse := do
  let p ← Op.ofExcept (parseIssue request)
  Op.require (env.readFails = false) .storage
  let db ← Op.get
  let current ← Op.ofExcept
    (loadReceipt prim db p.request.vaultId p.request.objectId (prim.verifyingKey signingKey))
  match decision current p with
  | .answer receipt => return .ofReceipt receipt
  | .conflict => Op.fail .witnessConflict
  | .advance =>
    let (receipt, db') ← Op.ofExcept (advanceHead prim signingKey db p.request)
    Op.require (env.writeFails = false) .storage
    Op.modify fun _ => db'
    -- the head has advanced: a failure from here on is reported although the commit stands
    Op.ofExcept (enforceOwnerPrivateSqliteState env.files)
    return .ofReceipt receipt

/-- Process one signed object-head request. -/
def headWire (request : HeadWireRequest) : Op VaultError WitnessDb HeadWireResponse := do
  let p ← Op.ofExcept (parseHead request)
  Op.require (env.readFails = false) .storage
  let db ← Op.get
  let receipt ← Op.ofExcept
    (loadReceipt prim db p.vaultId p.objectId (prim.verifyingKey signingKey))
  return .ofHead (WitnessHead.issue prim p.vaultId p.objectId receipt p.challenge signingKey)

end

/-! ### What the stored head says -/

/-- The epoch a vault's next advance will use. -/
def WitnessDb.nextEpoch (db : WitnessDb) (vault : Bytes) : ℤ :=
  (db.vaultEpochs.lookup vault).getD 1

/-- The epoch of an object's head, zero when it has none. -/
def WitnessDb.headEpoch (db : WitnessDb) (key : Bytes × Bytes) : ℤ :=
  (db.objectHeads.lookup key).elim 0 HeadRow.witnessEpoch

section

variable {prim : Primitives} {signingKey : Block 32} {env : ServiceEnv}

theorem loadReceipt_eq_ok_none {db : WitnessDb} {v : VaultId} {o : ObjectId} {k : Block 32} :
    loadReceipt prim db v o k = .ok none ↔ db.objectHeads.lookup (v.blob, o.blob) = none := by
  unfold loadReceipt
  cases db.objectHeads.lookup (v.blob, o.blob) with
  | none => simp
  | some row =>
    simp only [except_bind_eq_ok, reduceCtorEq, iff_false, not_exists, not_and]
    intro _ _ _ _ _ _ _ _ _ _ h
    cases h

/-- A head is loaded exactly when its row is the row of a valid receipt for that object. -/
theorem loadReceipt_eq_ok_some {db : WitnessDb} {v : VaultId} {o : ObjectId} {k : Block 32}
    {r : WitnessReceipt} :
    loadReceipt prim db v o k = .ok (some r) ↔
      db.objectHeads.lookup (v.blob, o.blob) = some (HeadRow.ofReceipt r) ∧ r.vaultId = v ∧
        r.objectId = o ∧ r.publicKey = k ∧ r.witnessEpoch.toNat < sqlIntegerBound ∧
        r.Valid prim := by
  unfold loadReceipt
  cases hrow : db.objectHeads.lookup (v.blob, o.blob) with
  | none => simp
  | some row =>
    simp only [except_bind_eq_ok, sqlToUInt64_eq_ok, Identifier.fromSlice_eq_ok, fixedBytes_eq_ok,
      WitnessReceipt.new_eq_ok, Option.some.injEq]
    constructor
    · rintro ⟨e, ⟨he, hrowe⟩, u, hu, c, hc, s, hs, r', ⟨hvalid, rfl⟩, hr⟩
      obtain rfl := Option.some.inj (Except.ok.inj hr)
      exact ⟨HeadRow.ext hu hrowe hc hs, rfl, rfl, rfl, he, hvalid⟩
    · rintro ⟨rfl, rfl, rfl, rfl, he, hvalid⟩
      exact ⟨_, ⟨he, rfl⟩, _, rfl, _, rfl, _, rfl, r, ⟨hvalid, rfl⟩, rfl⟩

theorem readNextEpoch_eq_ok {db : WitnessDb} {v : VaultId} {e : UInt64} :
    readNextEpoch db v = .ok e ↔ e.toNat < sqlIntegerBound ∧ db.nextEpoch v.blob = e.toNat := by
  unfold readNextEpoch WitnessDb.nextEpoch
  cases db.vaultEpochs.lookup v.blob with
  | none =>
    constructor
    · intro h
      obtain rfl := Except.ok.inj h
      exact ⟨by decide, rfl⟩
    · rintro ⟨-, h⟩
      have he : (1 : UInt64).toNat = e.toNat := by
        rw [Option.getD_none] at h
        exact_mod_cast h
      rw [UInt64.toNat_inj.mp he]
  | some next => exact sqlToUInt64_eq_ok

/-- An epoch is allocated exactly when its successor still fits the column. -/
theorem nextEpoch_eq_ok {db db' : WitnessDb} {v : VaultId} {e : UInt64} :
    nextEpoch db v = .ok (e, db') ↔
      db.nextEpoch v.blob = e.toNat ∧ e.toNat + 1 < sqlIntegerBound ∧
        db' = { db with vaultEpochs := db.vaultEpochs.insert v.blob (e.toNat + 1) } := by
  have hbound : sqlIntegerBound < 2 ^ 64 := by decide
  have hadd : ∀ x : UInt64, x.toNat + 1 < 2 ^ 64 → (x + 1).toNat = x.toNat + 1 := by
    intro x hx
    rw [UInt64.toNat_add]
    exact Nat.mod_eq_of_lt hx
  simp only [nextEpoch, except_bind_eq_ok, readNextEpoch_eq_ok, ensure_eq_ok, sqlOfUInt64_eq_ok]
  constructor
  · rintro ⟨e', hread, _, hmax, after, hafter, h⟩
    obtain ⟨rfl, rfl⟩ := Prod.mk.inj (Except.ok.inj h)
    rw [hadd _ hmax] at hafter
    exact ⟨hread.2, hafter.1, by rw [hafter.2]; rfl⟩
  · rintro ⟨hnext, hlt, rfl⟩
    refine ⟨e, ⟨by omega, hnext⟩, (), by omega, _, ⟨?_, rfl⟩, ?_⟩
    · rw [hadd _ (by omega)]; exact hlt
    · rw [hadd _ (by omega)]; rfl

/-- The tables after an advance of the head of `(v, o)` to a receipt `r`. -/
def WitnessDb.advanced (db : WitnessDb) (r : WitnessReceipt) : WitnessDb where
  vaultEpochs := db.vaultEpochs.insert r.vaultId.blob (r.witnessEpoch.toNat + 1)
  objectHeads := db.objectHeads.insert (r.vaultId.blob, r.objectId.blob) (.ofReceipt r)

/-- An advance takes the vault's next epoch, which is positive and has a successor that fits. -/
theorem advanceHead_eq_ok {db db' : WitnessDb} {request : WitnessRequest} {r : WitnessReceipt} :
    advanceHead prim signingKey db request = .ok (r, db') ↔
      db.nextEpoch request.vaultId.blob = r.witnessEpoch.toNat ∧ 0 < r.witnessEpoch.toNat ∧
        r.witnessEpoch.toNat + 1 < sqlIntegerBound ∧
        r = WitnessReceipt.issue prim request r.witnessEpoch signingKey ∧ db' = db.advanced r := by
  simp only [advanceHead, upsertHead, except_bind_eq_ok, Prod.exists, nextEpoch_eq_ok,
    sqlOfUInt64_eq_ok, ensure_eq_ok]
  constructor
  · rintro ⟨e, _, ⟨hread, hlt, rfl⟩, _, ⟨_, ⟨-, rfl⟩, _, hpos, hput⟩, h⟩
    obtain ⟨rfl, rfl⟩ := Prod.mk.inj (Except.ok.inj h)
    obtain rfl := Except.ok.inj hput
    exact ⟨hread, by exact_mod_cast hpos, hlt, rfl, rfl⟩
  · rintro ⟨hread, hpos, hlt, hr, rfl⟩
    have hvault : r.vaultId = request.vaultId := by rw [hr]; rfl
    refine ⟨r.witnessEpoch, _, ⟨hread, hlt, rfl⟩, db.advanced r, ?_, by rw [← hr]; rfl⟩
    refine ⟨r.witnessEpoch.toNat, ⟨by rw [← hr]; omega, by rw [← hr]⟩, (),
      by exact_mod_cast hpos, ?_⟩
    rw [← hr, WitnessDb.advanced, hvault]
    rfl

/-- The head of a request's object. -/
def WitnessRequest.headKey (request : WitnessRequest) : Bytes × Bytes :=
  (request.vaultId.blob, request.objectId.blob)

/-- A request that expected the head's epoch, and the receipt that replaces the head. -/
structure Advances (prim : Primitives) (signingKey : Block 32) (db : WitnessDb) (p : ParsedIssue)
    (r : WitnessReceipt) : Prop where
  /-- The request expected the epoch of the head it replaces. -/
  expected : db.headEpoch p.request.headKey = p.expectedEpoch.toNat
  /-- The receipt acknowledges the request. -/
  receipt : r = WitnessReceipt.issue prim p.request r.witnessEpoch signingKey
  /-- Its epoch is the vault's next one. -/
  epoch : db.nextEpoch p.request.vaultId.blob = r.witnessEpoch.toNat
  pos : 0 < r.witnessEpoch.toNat
  /-- The successor of the epoch can still be stored. -/
  fits : r.witnessEpoch.toNat + 1 < sqlIntegerBound

/-- A stored head that already acknowledges a request. -/
structure Acknowledged (prim : Primitives) (signingKey : Block 32) (db : WitnessDb)
    (p : ParsedIssue) (r : WitnessReceipt) : Prop where
  load : loadReceipt prim db p.request.vaultId p.request.objectId (prim.verifyingKey signingKey) =
    .ok (some r)
  versionId : r.versionId = p.request.versionId
  commitment : r.commitment = p.request.commitment
  newer : p.expectedEpoch < r.witnessEpoch

/-- Everything an issue request can do. -/
inductive IssueEffect (prim : Primitives) (signingKey : Block 32) (db : WitnessDb)
    (request : IssueWireRequest) : Outcome VaultError WitnessDb IssueWireResponse → Prop
  /-- It is refused and the tables stay. -/
  | refused (e : VaultError) : IssueEffect prim signingKey db request (.failed e db)
  /-- It was acknowledged before: the stored receipt is repeated and the tables stay. -/
  | repeated {p : ParsedIssue} {r : WitnessReceipt} (hparse : parseIssue request = .ok p)
      (hack : Acknowledged prim signingKey db p r) :
      IssueEffect prim signingKey db request (.ok (.ofReceipt r) db)
  /-- The head advances. -/
  | advanced {p : ParsedIssue} {r : WitnessReceipt} (hparse : parseIssue request = .ok p)
      (hadv : Advances prim signingKey db p r) :
      IssueEffect prim signingKey db request (.ok (.ofReceipt r) (db.advanced r))
  /-- The head advances, but the file permission step after the commit fails. -/
  | unreported {p : ParsedIssue} {r : WitnessReceipt} (e : VaultError)
      (hparse : parseIssue request = .ok p) (hadv : Advances prim signingKey db p r) :
      IssueEffect prim signingKey db request (.failed e (db.advanced r))

theorem decision_eq_answer {current : Option WitnessReceipt} {p : ParsedIssue}
    {r : WitnessReceipt} :
    decision current p = .answer r ↔ current = some r ∧ r.versionId = p.request.versionId ∧
      r.commitment = p.request.commitment ∧ p.expectedEpoch < r.witnessEpoch := by
  unfold decision
  cases current with
  | none => simp; split <;> simp
  | some r' =>
    simp only [Option.some.injEq]
    split
    · rename_i h
      simp only [Decision.answer.injEq]
      constructor
      · rintro rfl; exact ⟨rfl, h⟩
      · exact fun hr => hr.1
    · rename_i h
      constructor
      · intro hd; split at hd <;> cases hd
      · rintro ⟨rfl, hr⟩; exact absurd hr h

/-- The conditional check lets a head advance only when the request expected its epoch. -/
theorem headEpoch_of_advance {db : WitnessDb} {p : ParsedIssue} {k : Block 32}
    {current : Option WitnessReceipt}
    (hload : loadReceipt prim db p.request.vaultId p.request.objectId k = .ok current)
    (hdec : decision current p = .advance) :
    db.headEpoch p.request.headKey = p.expectedEpoch.toNat := by
  unfold WitnessDb.headEpoch WitnessRequest.headKey
  cases current with
  | none =>
    have hexp : p.expectedEpoch = 0 := by
      simp only [decision] at hdec
      split at hdec
      · cases hdec
      · simp_all
    rw [loadReceipt_eq_ok_none.mp hload, hexp]
    rfl
  | some r =>
    have hexp : r.witnessEpoch = p.expectedEpoch := by
      simp only [decision] at hdec
      split at hdec
      · cases hdec
      · split at hdec
        · cases hdec
        · simp_all
    rw [(loadReceipt_eq_ok_some.mp hload).1, ← hexp]
    rfl

/-- What an issue request does, read off its code once. -/
theorem issueWire_effect (prim : Primitives) (signingKey : Block 32) (env : ServiceEnv)
    (request : IssueWireRequest) (db : WitnessDb) :
    IssueEffect prim signingKey db request (issueWire prim signingKey env request db) := by
  unfold issueWire
  cases hparse : parseIssue request with
  | error e => exact .refused e
  | ok p =>
    rw [Op.ofExcept_ok, Op.pure_bind]
    by_cases hread : env.readFails = false
    · rw [Op.require_pos hread, Op.pure_bind, Op.bind_of_ok (Op.get_apply db)]
      cases hload : loadReceipt prim db p.request.vaultId p.request.objectId
          (prim.verifyingKey signingKey) with
      | error e => exact .refused e
      | ok current =>
        rw [Op.ofExcept_ok, Op.pure_bind]
        cases hdec : decision current p with
        | conflict => exact .refused .witnessConflict
        | answer r =>
          obtain ⟨rfl, hversion, hcommitment, hnewer⟩ := decision_eq_answer.mp hdec
          exact .repeated hparse ⟨hload, hversion, hcommitment, hnewer⟩
        | advance =>
          simp only
          cases hadv : advanceHead prim signingKey db p.request with
          | error e => exact .refused e
          | ok res =>
            obtain ⟨r, db'⟩ := res
            obtain ⟨hepoch, hpos, hfits, hr, rfl⟩ := advanceHead_eq_ok.mp hadv
            have hadvances : Advances prim signingKey db p r :=
              ⟨headEpoch_of_advance hload hdec, hr, hepoch, hpos, hfits⟩
            rw [Op.ofExcept_ok, Op.pure_bind]
            simp only
            by_cases hwrite : env.writeFails = false
            · rw [Op.require_pos hwrite, Op.pure_bind, Op.bind_of_ok (Op.modify_apply _ db)]
              cases enforceOwnerPrivateSqliteState env.files with
              | error e => exact .unreported e hparse hadvances
              | ok _ => exact .advanced hparse hadvances
            · rw [Op.require_neg hwrite]
              exact .refused .storage
    · rw [Op.require_neg hread]
      exact .refused .storage

/-- A request that was answered has loaded the head of its object. -/
theorem issueWire_ok_load {request : IssueWireRequest} {db db' : WitnessDb}
    {response : IssueWireResponse}
    (h : issueWire prim signingKey env request db = .ok response db') :
    ∃ p current, parseIssue request = .ok p ∧
      loadReceipt prim db p.request.vaultId p.request.objectId (prim.verifyingKey signingKey) =
        .ok current := by
  obtain ⟨p, db1, hparse, hrest1⟩ := Op.bind_eq_ok.mp h
  obtain ⟨hparsed, rfl⟩ := Op.ofExcept_eq_ok.mp hparse
  obtain ⟨_, db2, hread, hrest2⟩ := Op.bind_eq_ok.mp hrest1
  obtain ⟨-, rfl⟩ := Op.require_eq_ok.mp hread
  rw [Op.bind_of_ok (Op.get_apply db)] at hrest2
  obtain ⟨current, db3, hload, -⟩ := Op.bind_eq_ok.mp hrest2
  exact ⟨p, current, hparsed, (Op.ofExcept_eq_ok.mp hload).1⟩

/-- On a platform that works, a request that may advance the head does so while the vault's sequence
number can still be stored. -/
theorem issueWire_of_advance {request : IssueWireRequest} {db : WitnessDb} {p : ParsedIssue}
    {current : Option WitnessReceipt} (hparse : parseIssue request = .ok p)
    (hload : loadReceipt prim db p.request.vaultId p.request.objectId
      (prim.verifyingKey signingKey) = .ok current)
    (hdec : decision current p = .advance) (hpos : 0 < db.nextEpoch p.request.vaultId.blob)
    (hroom : db.nextEpoch p.request.vaultId.blob + 1 < sqlIntegerBound) :
    ∃ r, Advances prim signingKey db p r ∧
      issueWire prim signingKey .calm request db = .ok (.ofReceipt r) (db.advanced r) := by
  obtain ⟨n, hn⟩ := Int.eq_ofNat_of_zero_le (Int.le_of_lt hpos)
  have hbound : sqlIntegerBound < 2 ^ 64 := by decide
  have hval : (UInt64.ofNat n).toNat = n := by
    rw [UInt64.toNat_ofNat']
    exact Nat.mod_eq_of_lt (by omega)
  let r := WitnessReceipt.issue prim p.request (UInt64.ofNat n) signingKey
  have hadv : Advances prim signingKey db p r := by
    refine ⟨headEpoch_of_advance hload hdec, rfl, ?_, ?_, ?_⟩
    · rw [hn]
      exact congrArg Int.ofNat hval.symm
    · show 0 < (UInt64.ofNat n).toNat
      omega
    · show (UInt64.ofNat n).toNat + 1 < sqlIntegerBound
      omega
  have hadvance : advanceHead prim signingKey db p.request = .ok (r, db.advanced r) :=
    advanceHead_eq_ok.mpr ⟨hadv.epoch, hadv.pos, hadv.fits, rfl, rfl⟩
  have hread : ServiceEnv.calm.readFails = false := rfl
  refine ⟨r, hadv, ?_⟩
  rw [issueWire, hparse, Op.ofExcept_ok, Op.pure_bind, Op.require_pos hread, Op.pure_bind,
    Op.bind_of_ok (Op.get_apply db), hload, Op.ofExcept_ok, Op.pure_bind, hdec]
  show (Op.ofExcept (advanceHead prim signingKey db p.request) >>= _) db = _
  rw [hadvance]
  rfl

/-- The witness reads back the client's encoding of a request. -/
@[simp] theorem parseIssue_fromRequest (request : WitnessRequest) (e : UInt64) :
    parseIssue (.fromRequest request e) = .ok ⟨request, e⟩ := by
  simp [parseIssue, IssueWireRequest.fromRequest, Identifier.toHex, Identifier.blob, bind,
    Except.bind, pure, Except.pure]

/-- The witness reads back the client's encoding of a head query. -/
@[simp] theorem parseHead_fromQuery (v : VaultId) (o : ObjectId) (c : Block 32) :
    parseHead (.fromQuery v o c) = .ok ⟨v, o, c⟩ := by
  simp [parseHead, HeadWireRequest.fromQuery, Identifier.toHex, Identifier.blob, bind, Except.bind,
    pure, Except.pure]

/-- An answered head request reports the stored head. -/
theorem headWire_ok {env : ServiceEnv} {request : HeadWireRequest} {db db' : WitnessDb}
    {response : HeadWireResponse} (h : headWire prim signingKey env request db = .ok response db') :
    ∃ p receipt, parseHead request = .ok p ∧
      loadReceipt prim db p.vaultId p.objectId (prim.verifyingKey signingKey) = .ok receipt ∧
      response = .ofHead (.issue prim p.vaultId p.objectId receipt p.challenge signingKey) := by
  obtain ⟨p, db1, hparse, hrest1⟩ := Op.bind_eq_ok.mp h
  obtain ⟨hparsed, rfl⟩ := Op.ofExcept_eq_ok.mp hparse
  obtain ⟨_, db2, hread, hrest2⟩ := Op.bind_eq_ok.mp hrest1
  obtain ⟨-, rfl⟩ := Op.require_eq_ok.mp hread
  rw [Op.bind_of_ok (Op.get_apply db)] at hrest2
  obtain ⟨receipt, db3, hload, hreturn⟩ := Op.bind_eq_ok.mp hrest2
  obtain ⟨hloaded, rfl⟩ := Op.ofExcept_eq_ok.mp hload
  cases hreturn
  exact ⟨p, receipt, hparsed, hloaded, rfl⟩

/-- A head request reads the tables and nothing else. -/
theorem headWire_state (prim : Primitives) (signingKey : Block 32) (env : ServiceEnv)
    (request : HeadWireRequest) (db : WitnessDb) :
    (headWire prim signingKey env request db).state = db := by
  have hkeeps : Op.Keeps Eq (headWire prim signingKey env request) := by
    unfold headWire
    refine Op.Keeps.bind (Op.Keeps.ofExcept _) fun p => ?_
    refine Op.Keeps.bind (Op.Keeps.require _ _) fun _ => ?_
    refine Op.Keeps.bind Op.Keeps.get fun db => ?_
    exact Op.Keeps.bind (Op.Keeps.ofExcept _) fun receipt => Op.Keeps.pure _
  exact (hkeeps db).symm

end

end Vlt1

import Vlt1.KeyState
import Vlt1.Library.StagedPublication
import Vlt1.NoLostUpdate

/-!
# A vault and its witness

`putWithWitness` publishes in three steps: it stages a version with the epoch of the receipt it
replaces, asks the witness for a new receipt, and makes the version active together with it. Requests
and replies may be lost or late, and the process may die at any point, so the tables of the vault and
those of the witness are apart most of the time. `StagedPublication` says how far; here the tables
are related to its states.

* `Mirrors` — the tables of a vault and of a witness, read as a state of staged publication.
* `Coherent` — some such state satisfies the agreement of the two stores.
* `triple_acknowledge`, `triple_putWithWitness`, `triple_recover` — the calls of the library keep
  it, wherever they stop.
* `World.Paired` — the same for the vault of one identifier, across all calls of the library.
-/

namespace Vlt1

open Effect StagedPublication

/-! ### Receipts as entries -/

/-- The request a receipt acknowledges. -/
def WitnessReceipt.request (r : WitnessReceipt) : WitnessRequest :=
  ⟨r.vaultId, r.objectId, r.versionId, r.commitment⟩

/-- What a receipt says: the request it acknowledges, and its epoch. -/
def WitnessReceipt.entry (r : WitnessReceipt) : WitnessRequest × ℕ :=
  (r.request, r.witnessEpoch.toNat)

/-- The receipt was made by the witness with this signing key. -/
def WitnessReceipt.IssuedBy (prim : Primitives) (signingKey : Block 32) (r : WitnessReceipt) : Prop :=
  r = .issue prim r.request r.witnessEpoch signingKey

/-- The request for a receipt of a stored version. -/
def StoredVersion.request (prim : Primitives) (vaultId : VaultId) (v : StoredVersion) :
    WitnessRequest :=
  .new prim vaultId v.objectId v.versionId v.manifest

/-- The receipt stored with the active version of an object. -/
def Database.activeReceipt (db : Database) (prim : Primitives) (o : ObjectId) :
    Except VaultError (Option WitnessReceipt) :=
  match db.objects.lookup o.blob with
  | none => .ok none
  | some active => do db.selectReceipt prim (← Identifier.fromSlice active)

/-- A stored receipt can be read and says this. -/
def ReadsAs (prim : Primitives) (signingKey : Block 32)
    (stored : Except VaultError (Option WitnessReceipt)) (entry : Option (WitnessRequest × ℕ)) :
    Prop :=
  ∃ receipt, stored = .ok receipt ∧ (∀ r ∈ receipt, r.IssuedBy prim signingKey) ∧
    entry = receipt.map WitnessReceipt.entry

section

variable {prim : Primitives} {signingKey : Block 32} {r r' : WitnessReceipt}
  {stored stored' : Except VaultError (Option WitnessReceipt)} {entry : Option (WitnessRequest × ℕ)}

/-- The witness gives one receipt for one request and one epoch. -/
theorem WitnessReceipt.IssuedBy.eq_of_entry (h : r.IssuedBy prim signingKey)
    (h' : r'.IssuedBy prim signingKey) (heq : r.entry = r'.entry) : r = r' := by
  obtain ⟨hrequest, hepoch⟩ := Prod.mk.inj heq
  rw [h, h', hrequest, UInt64.toNat_inj.mp hepoch]

/-- A receipt of the witness carries its key. -/
theorem WitnessReceipt.IssuedBy.publicKey (h : r.IssuedBy prim signingKey) :
    r.publicKey = prim.verifyingKey signingKey := by
  rw [h]
  rfl

/-- A receipt of the witness is valid, as its signatures verify. -/
theorem WitnessReceipt.IssuedBy.valid (hsig : prim.SignatureCorrect)
    (h : r.IssuedBy prim signingKey) : r.Valid prim := by
  rw [h]
  exact WitnessReceipt.valid_issue hsig _ _ _

/-- A receipt of the witness passes the client's check for its own request. -/
theorem WitnessReceipt.IssuedBy.verifyRequest (hsig : prim.SignatureCorrect)
    (h : r.IssuedBy prim signingKey) : r.verifyRequest prim r.request = .ok () :=
  WitnessReceipt.verifyRequest_eq_ok.mpr ⟨rfl, rfl, rfl, rfl, h.valid hsig⟩

/-- Two stores that say the same hold the same receipt. -/
theorem ReadsAs.unique (h : ReadsAs prim signingKey stored entry)
    (h' : ReadsAs prim signingKey stored' entry) : stored = stored' := by
  obtain ⟨receipt, rfl, hissued, rfl⟩ := h
  obtain ⟨receipt', rfl, hissued', hentry⟩ := h'
  cases receipt with
  | none =>
    cases receipt' with
    | none => rfl
    | some r' => cases hentry
  | some r =>
    cases receipt' with
    | none => cases hentry
    | some r' =>
      rw [(hissued r rfl).eq_of_entry (hissued' r' rfl) (Option.some.inj hentry)]

/-- The epoch the client asks for is the number of what it has stored. -/
theorem ReadsAs.number_eq {receipt : Option WitnessReceipt}
    (h : ReadsAs prim signingKey (.ok receipt) entry) :
    number entry = (receipt.elim 0 WitnessReceipt.witnessEpoch).toNat := by
  obtain ⟨receipt', hreceipt, -, rfl⟩ := h
  obtain rfl := Except.ok.inj hreceipt
  cases receipt <;> rfl

/-- A stored receipt of the witness reads as its own entry. -/
theorem ReadsAs.present (h : r.IssuedBy prim signingKey) :
    ReadsAs prim signingKey (.ok (some r)) (some r.entry) :=
  ⟨some r, rfl, fun _ hr => Option.some.inj hr ▸ h, rfl⟩

/-- Where no receipt is stored, nothing is known. -/
theorem ReadsAs.absent : ReadsAs prim signingKey (.ok none) none :=
  ⟨none, rfl, fun _ h => (Option.not_mem_none _ h).elim, rfl⟩

/-- The epoch of a head, as the witness compares it. -/
theorem ReadsAs.headEpoch_eq {db : WitnessDb} {V : VaultId} {o : ObjectId}
    (h : ReadsAs prim signingKey (loadReceipt prim db V o (prim.verifyingKey signingKey)) entry) :
    db.headEpoch (V.blob, o.blob) = number entry := by
  obtain ⟨receipt, hload, -, rfl⟩ := h
  unfold WitnessDb.headEpoch
  cases receipt with
  | none =>
    rw [loadReceipt_eq_ok_none.mp hload]
    rfl
  | some r =>
    rw [(loadReceipt_eq_ok_some.mp hload).1]
    rfl

end

/-! ### What the transactions of a staged publication change -/

/-- The receipt of an active version depends on its pointer and its row. -/
theorem Database.activeReceipt_congr {prim : Primitives} {db db' : Database} {o : ObjectId}
    (hobject : db'.objects.lookup o.blob = db.objects.lookup o.blob)
    (hreceipt : ∀ b, db.objects.lookup o.blob = some b → db'.receipts.lookup b = db.receipts.lookup b) :
    db'.activeReceipt prim o = db.activeReceipt prim o := by
  unfold Database.activeReceipt
  rw [hobject]
  cases hactive : db.objects.lookup o.blob with
  | none => rfl
  | some b =>
    cases hid : (Identifier.fromSlice b : Except VaultError VersionId) with
    | error e =>
      simp only
      rw [hid]
      rfl
    | ok u =>
      simp only
      rw [hid]
      show db'.selectReceipt prim u = db.selectReceipt prim u
      unfold Database.selectReceipt
      rw [hreceipt u.blob (by rw [hactive, Identifier.fromSlice_eq_ok.mp hid])]

/-- After a draft is staged, the staged versions are the earlier ones and its own. -/
theorem Draft.staged_iff {ω : Type} {prim : Primitives} {w : World ω} {d : Draft} {e e' : UInt64}
    {v : StoredVersion} (hnew : d.New prim w) (hepoch : e.toNat < sqlIntegerBound) :
    (d.staged e w.db).Staged v e' ↔ (v = d.storedVersion ∧ e' = e) ∨ w.db.Staged v e' := by
  have hself := hnew.staged hepoch
  have hversions : ∀ b, (d.staged e w.db).versions.lookup b =
      if b = d.versionId.blob then some d.storedVersion.toRow else w.db.versions.lookup b :=
    Draft.lookup_version
  have hpending : ∀ b, (d.staged e w.db).pending.lookup b =
      if b = d.versionId.blob then some (e.toNat : ℤ) else w.db.pending.lookup b :=
    fun b => Table.lookup_insert_eq _ _ _ _
  by_cases hid : v.versionId = d.versionId
  · constructor
    · rintro ⟨hversion, hstaged⟩
      have hread := hself.version
      have hepochs := hself.pending
      rw [show d.storedVersion.versionId = v.versionId from hid.symm] at hread hepochs
      rw [hversion] at hread
      rw [hstaged] at hepochs
      exact .inl ⟨Except.ok.inj hread, Except.ok.inj hepochs⟩
    · rintro (⟨rfl, rfl⟩ | hold)
      · exact hself
      · -- the version is not stored before
        have hrow := (Database.selectVersion_eq_ok.mp hold.version).2.2
        rw [hid, hnew.fresh] at hrow
        cases hrow
  · have hne : v.versionId.blob ≠ d.versionId.blob := fun h => hid (Identifier.blob_inj.mp h)
    have hsame : (d.staged e w.db).Staged v e' ↔ w.db.Staged v e' := by
      constructor <;> rintro ⟨hversion, hstaged⟩ <;>
        refine ⟨Database.selectVersion_eq_ok.mpr ?_, Database.selectStaged_eq_ok.mpr ?_⟩
      · have := Database.selectVersion_eq_ok.mp hversion
        rwa [hversions, if_neg hne] at this
      · have := Database.selectStaged_eq_ok.mp hstaged
        rwa [hpending, if_neg hne] at this
      · rw [hversions, if_neg hne]
        exact Database.selectVersion_eq_ok.mp hversion
      · rw [hpending, if_neg hne]
        exact Database.selectStaged_eq_ok.mp hstaged
    rw [hsame]
    constructor
    · exact .inr
    · rintro (⟨rfl, -⟩ | hold)
      · exact absurd rfl hid
      · exact hold

/-! ### The two stores as one state -/

/-- The vault's and the witness's store, for the objects of one vault. -/
abbrev Stores := State ObjectId WitnessRequest

/-- The tables of a vault and of its witness, read as a state of staged publication. -/
structure Mirrors (prim : Primitives) {signingKey : Block 32} (V : VaultId) (db : Database)
    (c : Channel prim signingKey) (s : Stores) : Prop where
  wellFormed : db.WellFormed prim
  honest : c.service.Honest prim signingKey
  active : ∀ o, ReadsAs prim signingKey (db.activeReceipt prim o) (s.active o)
  head : ∀ o, ReadsAs prim signingKey
    (loadReceipt prim c.service V o (prim.verifyingKey signingKey)) (s.head o)
  staged : ∀ o r n, s.staged o = some (r, n) ↔
    ∃ v e, db.Staged v e ∧ v.objectId = o ∧ v.request prim V = r ∧ e.toNat = n
  /-- Every pending row belongs to a version that can be read. -/
  pending : ∀ b, db.pending.lookup b ≠ none → ∃ v e, db.Staged v e ∧ v.versionId.blob = b
  next : c.service.nextEpoch V.blob = s.next
  sent : ∀ q ∈ c.sent, ∃ r e, q = .fromRequest r e ∧ r.vaultId = V ∧
    (r.objectId, r, e.toNat) ∈ s.sent
  recorded : ∀ b row, db.receipts.lookup b = some row → ∃ n ∈ s.recorded, row.witnessEpoch = (n : ℤ)

namespace Mirrors

variable {prim : Primitives} {signingKey : Block 32} {V : VaultId} {db db' : Database}
  {c c' : Channel prim signingKey} {s : Stores}

/-- Nothing was published yet. -/
theorem initial (hempty : db = { Database.empty with vaultMeta := db.vaultMeta }) (hc : c.Unused) :
    Mirrors prim V db c .initial := by
  have hnone : ∀ v e, ¬db.Staged v e := by
    rintro v e ⟨hversion, -⟩
    have hrow := (Database.selectVersion_eq_ok.mp hversion).2.2
    rw [hempty] at hrow
    cases hrow
  refine ⟨hempty ▸ .empty _, hc.service ▸ .empty, fun o => ?_, fun o => ?_, fun o r n => ?_,
    fun b hb => ?_, ?_, fun q hq => ?_, fun b row hb => ?_⟩
  · rw [hempty]
    exact .absent
  · rw [loadReceipt_eq_ok_none.mpr (by rw [hc.service]; rfl)]
    exact .absent
  · refine ⟨fun h => (by cases h), ?_⟩
    rintro ⟨v, e, hve, -⟩
    exact absurd hve (hnone v e)
  · rw [hempty] at hb
    exact absurd rfl hb
  · rw [hc.service]
    rfl
  · rw [hc.sent] at hq
    cases hq
  · rw [hempty] at hb
    cases hb

/-- The script plays no role. -/
theorem congr (h : Mirrors prim V db c s) (hservice : c'.service = c.service)
    (hsent : c'.sent = c.sent) : Mirrors prim V db c' s := by
  refine ⟨h.wellFormed, ?_, h.active, fun o => ?_, h.staged, h.pending, ?_, ?_, h.recorded⟩
  · rw [hservice]
    exact h.honest
  · rw [hservice]
    exact h.head o
  · rw [hservice]
    exact h.next
  · rw [hsent]
    exact h.sent

/-- The envelope plays no role. -/
theorem vaultMeta (h : Mirrors prim V db c s) (row : Option MetaRow) :
    Mirrors prim V { db with vaultMeta := row } c s := by
  have hstaged : ∀ v e, Database.Staged { db with vaultMeta := row } v e ↔ db.Staged v e :=
    fun v e => ⟨fun hve => ⟨hve.version, hve.pending⟩, fun hve => ⟨hve.version, hve.pending⟩⟩
  refine ⟨h.wellFormed.vaultMeta row, h.honest, h.active, h.head, fun o r n => ?_, fun b hb => ?_,
    h.next, h.sent, h.recorded⟩
  · simp only [hstaged]
    exact h.staged o r n
  · simp only [hstaged]
    exact h.pending b hb

/-- A request leaves the vault. -/
theorem send (h : Mirrors prim V db c s) {r : WitnessRequest} (hr : r.vaultId = V) (e : UInt64) :
    Mirrors prim V db (c.send (.fromRequest r e)) (s.send r.objectId r e.toNat) := by
  refine ⟨h.wellFormed, h.honest, h.active, h.head, h.staged, h.pending, h.next, ?_, h.recorded⟩
  intro q hq
  rcases List.mem_append.mp hq with hq | hq
  · obtain ⟨r', e', rfl, hV, hmem⟩ := h.sent q hq
    exact ⟨r', e', rfl, hV, Set.mem_insert_of_mem _ hmem⟩
  · obtain rfl := List.mem_singleton.mp hq
    exact ⟨r, e, rfl, hr, Set.mem_insert _ _⟩

/-- The witness advances a head. -/
theorem advanced (hsig : prim.SignatureCorrect) (h : Mirrors prim V db c s) {request : WitnessRequest}
    {e : UInt64} {r : WitnessReceipt} (hV : request.vaultId = V)
    (hadv : Advances prim signingKey c.service ⟨request, e⟩ r)
    (hservice : c'.service = c.service.advanced r) (hhonest : c'.service.Honest prim signingKey)
    (hsent : c'.sent = c.sent) :
    number (s.head request.objectId) = e.toNat ∧
      Mirrors prim V db c' (s.advance request.objectId request) := by
  have hnumber : number (s.head request.objectId) = e.toNat := by
    have hexpected := hadv.expected
    rw [WitnessRequest.headKey, hV, (h.head request.objectId).headEpoch_eq] at hexpected
    exact_mod_cast hexpected
  have hissued : r.IssuedBy prim signingKey := by
    rw [hadv.receipt]
    rfl
  have hrequest : r.request = request := by
    rw [hadv.receipt]
    rfl
  have hvault : r.vaultId = V := (congrArg WitnessRequest.vaultId hrequest).trans hV
  have hobject : r.objectId = request.objectId := congrArg WitnessRequest.objectId hrequest
  have hnext : s.next = r.witnessEpoch.toNat := by
    have hepoch := hadv.epoch
    rw [hV, h.next] at hepoch
    exact_mod_cast hepoch
  refine ⟨hnumber, h.wellFormed, hhonest, h.active, fun o => ?_, h.staged, h.pending, ?_, ?_,
    h.recorded⟩
  · rw [hservice, State.head_advance]
    by_cases heq : o = request.objectId
    · -- the new head is the receipt issued now
      have hload : loadReceipt prim (c.service.advanced r) V o (prim.verifyingKey signingKey) =
          .ok (some r) := by
        refine loadReceipt_eq_ok_some.mpr ⟨?_, hvault, hobject.trans heq.symm, hissued.publicKey,
          Nat.lt_of_succ_lt hadv.fits, hissued.valid hsig⟩
        rw [WitnessDb.lookup_advanced, if_pos]
        rw [WitnessDb.keyOf, hvault, hobject, heq]
      rw [hload, if_pos heq, hnext, ← hrequest]
      exact .present hissued
    · have hload : loadReceipt prim (c.service.advanced r) V o (prim.verifyingKey signingKey) =
          loadReceipt prim c.service V o (prim.verifyingKey signingKey) := by
        refine loadReceipt_congr ?_
        rw [WitnessDb.lookup_advanced, if_neg]
        rintro hkey
        refine heq (Identifier.blob_inj.mp ?_)
        rw [(Prod.mk.inj hkey).2, hobject]
      rw [if_neg heq, hload]
      exact h.head o
  · rw [hservice, WitnessDb.nextEpoch_advanced, if_pos (by rw [hvault]), ← hnext]
    rfl
  · rw [hsent]
    exact h.sent

/-- A request sent earlier reaches the witness: the head of its object advances, or nothing
happens. -/
theorem deliver (hsig : prim.SignatureCorrect) (h : Mirrors prim V db c s) {q : IssueWireRequest}
    (hq : q ∈ c.sent) {env : ServiceEnv}
    (hservice : c'.service = (issueWire prim signingKey env q c.service).state)
    (hsent : c'.sent = c.sent) :
    Mirrors prim V db c' s ∨ ∃ o r e, (o, r, e) ∈ s.sent ∧ number (s.head o) = e ∧
      Mirrors prim V db c' (s.advance o r) := by
  obtain ⟨r, e, rfl, hV, hmem⟩ := h.sent q hq
  have hhonest : c'.service.Honest prim signingKey := hservice ▸ h.honest.issueWire _ env
  have hadvanced : ∀ {p : ParsedIssue} {receipt : WitnessReceipt},
      parseIssue (.fromRequest r e) = .ok p → Advances prim signingKey c.service p receipt →
      c'.service = c.service.advanced receipt →
      ∃ o r e, (o, r, e) ∈ s.sent ∧ number (s.head o) = e ∧
        Mirrors prim V db c' (s.advance o r) := by
    intro p receipt hparse hadv heq
    rw [parseIssue_fromRequest] at hparse
    obtain rfl := Except.ok.inj hparse
    obtain ⟨hnumber, hmirrors⟩ := h.advanced hsig hV hadv heq hhonest hsent
    exact ⟨_, _, _, hmem, hnumber, hmirrors⟩
  have heffect := issueWire_effect prim signingKey env (.fromRequest r e) c.service
  generalize issueWire prim signingKey env (.fromRequest r e) c.service = outcome at heffect hservice
  cases heffect with
  | refused error => exact .inl (h.congr hservice hsent)
  | repeated hparse hack => exact .inl (h.congr hservice hsent)
  | advanced hparse hadv => exact .inr (hadvanced hparse hadv hservice)
  | unreported error hparse hadv => exact .inr (hadvanced hparse hadv hservice)

/-- A new version is staged, with the epoch of the receipt it replaces. -/
theorem stage {w : World (Channel prim signingKey)} (h : Mirrors prim V w.db c s) {d : Draft}
    {e : UInt64} (hnew : d.New prim w) (hepoch : e.toNat < sqlIntegerBound)
    (hexpected : e.toNat = number (s.active d.objectId)) (hfree : s.staged d.objectId = none) :
    Mirrors prim V (d.staged e w.db) c (s.stage d.objectId (d.storedVersion.request prim V)) := by
  obtain ⟨rootKey, -, hsealed⟩ := hnew.sealedFor
  refine ⟨h.wellFormed.staged hsealed hnew.fresh e, h.honest, h.active, h.head, fun o r n => ?_,
    fun b hb => ?_, h.next, h.sent, h.recorded⟩
  · by_cases heq : o = d.objectId
    · subst heq
      have hset : (s.stage d.objectId (d.storedVersion.request prim V)).staged d.objectId =
          some (d.storedVersion.request prim V, e.toNat) := by
        rw [hexpected]
        exact Function.update_self ..
      rw [hset, Option.some.injEq, Prod.mk.injEq]
      constructor
      · rintro ⟨rfl, rfl⟩
        exact ⟨d.storedVersion, e, hnew.staged hepoch, rfl, rfl, rfl⟩
      · rintro ⟨v, e', hve, hobject, rfl, rfl⟩
        rcases (Draft.staged_iff hnew hepoch).mp hve with ⟨rfl, rfl⟩ | hold
        · exact ⟨rfl, rfl⟩
        · -- an earlier staged version of the object is excluded
          have hstaged := (h.staged d.objectId _ _).mpr ⟨v, e', hold, hobject, rfl, rfl⟩
          rw [hfree] at hstaged
          cases hstaged
    · have hsame : (s.stage d.objectId (d.storedVersion.request prim V)).staged o = s.staged o :=
        Function.update_of_ne heq ..
      rw [hsame, h.staged]
      constructor
      · rintro ⟨v, e', hve, hrest⟩
        exact ⟨v, e', (Draft.staged_iff hnew hepoch).mpr (.inr hve), hrest⟩
      · rintro ⟨v, e', hve, hobject, hrest⟩
        rcases (Draft.staged_iff hnew hepoch).mp hve with ⟨rfl, rfl⟩ | hold
        · exact absurd hobject.symm heq
        · exact ⟨v, e', hold, hobject, hrest⟩
  · by_cases heq : b = d.versionId.blob
    · exact ⟨d.storedVersion, e, hnew.staged hepoch, heq.symm⟩
    · rw [Draft.staged, Table.lookup_insert_eq, if_neg heq] at hb
      obtain ⟨v, e', hve, rfl⟩ := h.pending b hb
      exact ⟨v, e', (Draft.staged_iff hnew hepoch).mpr (.inr hve), rfl⟩

/-- A staged version becomes active with its receipt. -/
theorem finish (hsig : prim.SignatureCorrect) (h : Mirrors prim V db c s) {v : StoredVersion}
    {e : UInt64} {r : WitnessReceipt} (hstaged : db.Staged v e)
    (hissued : r.IssuedBy prim signingKey) (hrequest : r.request = v.request prim V)
    (hbody : db.finalizeBody v r = .ok db') :
    Mirrors prim V db' c (s.finish v.objectId (v.request prim V) r.witnessEpoch.toNat) := by
  have hobject : r.objectId = v.objectId := congrArg WitnessRequest.objectId hrequest
  have hversion : r.versionId = v.versionId := congrArg WitnessRequest.versionId hrequest
  have hwell := h.wellFormed.finalized hstaged hobject hversion hbody
  have hself : s.staged v.objectId = some (v.request prim V, e.toNat) :=
    (h.staged _ _ _).mpr ⟨v, e, hstaged, rfl, rfl, rfl⟩
  have hothers : ∀ v' e', db'.Staged v' e' ↔ db.Staged v' e' ∧ v'.versionId ≠ v.versionId :=
    fun v' e' => Database.staged_finalized_iff hbody
  obtain ⟨-, hlt, -, -, -, rfl⟩ := Database.finalizeBody_eq_ok.mp hbody
  refine ⟨hwell, h.honest, fun o => ?_, h.head, fun o q n => ?_, fun b hb => ?_, h.next, h.sent,
    fun b row hb => ?_⟩
  · by_cases heq : o = v.objectId
    · subst heq
      have hactive : (s.finish v.objectId (v.request prim V) r.witnessEpoch.toNat).active v.objectId =
          some r.entry := by
        rw [WitnessReceipt.entry, hrequest]
        exact Function.update_self ..
      rw [hactive]
      refine Eq.mp (congrArg (ReadsAs prim signingKey · _) ?_) (ReadsAs.present hissued)
      rw [Database.activeReceipt, Table.lookup_insert_eq, if_pos rfl]
      refine (except_bind_eq_ok.mpr ⟨v.versionId, Identifier.fromSlice_blob _, ?_⟩).symm
      refine Database.selectReceipt_eq_ok_some.mpr ⟨hversion, hlt, hissued.valid hsig, ?_⟩
      rw [Table.lookup_insert_eq, hversion, if_pos rfl]
    · have hactive : (s.finish v.objectId (v.request prim V) r.witnessEpoch.toNat).active o =
          s.active o := Function.update_of_ne heq ..
      rw [hactive]
      refine Eq.mp (congrArg (ReadsAs prim signingKey · _) ?_) (h.active o)
      refine (Database.activeReceipt_congr ?_ fun b hb => ?_).symm
      · rw [Table.lookup_insert_eq, if_neg fun hblob => heq (Identifier.blob_inj.mp hblob)]
      · -- the version of another object has kept its receipt, since a staged one is not active
        rw [Table.lookup_insert_eq, if_neg]
        rintro rfl
        exact (h.wellFormed.pending _ hstaged.pending_ne_none).2.2 _ (hversion ▸ hb)
  · by_cases heq : o = v.objectId
    · subst heq
      have hnone : (s.finish v.objectId (v.request prim V) r.witnessEpoch.toNat).staged v.objectId =
          none := Function.update_self ..
      rw [hnone]
      constructor
      · intro hcontra
        cases hcontra
      · rintro ⟨v', e', hve, hobject', rfl, rfl⟩
        obtain ⟨hold, hne⟩ := (hothers v' e').mp hve
        have hsame := (h.staged _ _ _).mpr ⟨v', e', hold, hobject', rfl, rfl⟩
        rw [hself] at hsame
        have hrequests := (Prod.mk.inj (Option.some.inj hsame)).1
        exact absurd (congrArg WitnessRequest.versionId hrequests).symm hne
    · have hsame : (s.finish v.objectId (v.request prim V) r.witnessEpoch.toNat).staged o =
          s.staged o := Function.update_of_ne heq ..
      rw [hsame, h.staged]
      constructor
      · rintro ⟨v', e', hve, rfl, hrest⟩
        refine ⟨v', e', (hothers v' e').mpr ⟨hve, fun hid => heq ?_⟩, rfl, hrest⟩
        have hread := hve.version
        rw [hid, hstaged.version] at hread
        rw [Except.ok.inj hread]
      · rintro ⟨v', e', hve, hrest⟩
        exact ⟨v', e', ((hothers v' e').mp hve).1, hrest⟩
  · rw [Table.lookup_erase_eq] at hb
    split at hb
    · exact absurd rfl hb
    · rename_i hne
      obtain ⟨v', e', hve, rfl⟩ := h.pending b hb
      exact ⟨v', e', (hothers v' e').mpr ⟨hve, fun hid => hne (congrArg Identifier.blob hid)⟩, rfl⟩
  · rw [Table.lookup_insert_eq] at hb
    split at hb
    · obtain rfl := Option.some.inj hb
      exact ⟨r.witnessEpoch.toNat, Set.mem_insert _ _, rfl⟩
    · obtain ⟨n, hn, hrow⟩ := h.recorded b row hb
      exact ⟨n, Set.mem_insert_of_mem _ hn, hrow⟩

/-- Without a staged version in the tables, nothing is staged. -/
theorem unstaged (h : Mirrors prim V db c s) (hnone : ∀ v e, ¬db.Staged v e) : s.Unstaged := by
  intro o
  cases hso : s.staged o with
  | none => rfl
  | some entry =>
    obtain ⟨v, e, hve, -⟩ := (h.staged o entry.1 entry.2).mp hso
    exact absurd hve (hnone v e)

end Mirrors

/-! ### The agreement of the two stores -/

/-- The tables of a vault and of its witness agree, in a state that satisfies `P`. -/
def Coherent (prim : Primitives) {signingKey : Block 32} (V : VaultId) (P : Stores → Prop)
    (db : Database) (c : Channel prim signingKey) : Prop :=
  ∃ s, Agreement s ∧ Mirrors prim V db c s ∧ P s

namespace Coherent

variable {prim : Primitives} {signingKey : Block 32} {V : VaultId} {db : Database}
  {c c' : Channel prim signingKey} {P Q : Stores → Prop}

/-- Coherence with a stronger property is coherence with a weaker one. -/
theorem mono (h : Coherent prim V P db c) (hPQ : ∀ s, P s → Q s) : Coherent prim V Q db c := by
  obtain ⟨s, hs, hmirrors, hP⟩ := h
  exact ⟨s, hs, hmirrors, hPQ s hP⟩

/-- Coherence looks at the witness and at what was sent, and nowhere else. -/
theorem congr (h : Coherent prim V P db c) (hservice : c'.service = c.service)
    (hsent : c'.sent = c.sent) : Coherent prim V P db c' := by
  obtain ⟨s, hs, hmirrors, hP⟩ := h
  exact ⟨s, hs, hmirrors.congr hservice hsent, hP⟩

/-- The request for a staged version leaves the vault. -/
theorem send (h : Coherent prim V P db c) {r : WitnessRequest} {e : UInt64} (hr : r.vaultId = V)
    (hstaged : ∀ s, P s → s.staged r.objectId = some (r, e.toNat))
    (hsend : ∀ s, P s → P (s.send r.objectId r e.toNat)) :
    Coherent prim V P db (c.send (.fromRequest r e)) := by
  obtain ⟨s, hs, hmirrors, hP⟩ := h
  exact ⟨_, hs.send (hstaged s hP), hmirrors.send hr e, hsend s hP⟩

variable (hsig : prim.SignatureCorrect) (hP : Stable P)

include hsig hP

/-- A request sent earlier arrives. -/
theorem deliver (h : Coherent prim V P db c) {q : IssueWireRequest} (hq : q ∈ c.sent)
    {env : ServiceEnv} (hservice : c'.service = (issueWire prim signingKey env q c.service).state)
    (hsent : c'.sent = c.sent) : Coherent prim V P db c' := by
  obtain ⟨s, hs, hmirrors, hstate⟩ := h
  rcases hmirrors.deliver hsig hq hservice hsent with hsame | ⟨o, r, e, hmem, he, hadvanced⟩
  · exact ⟨s, hs, hsame, hstate⟩
  · exact ⟨_, hs.advance hmem he, hadvanced, hP s o r e hs hmem he hstate⟩

/-- Requests that arrive late keep the two sides coherent, each being one that was sent. -/
theorem drift (h : Coherent prim V P db c) (hdrift : Channel.Drifts c c') :
    Coherent prim V P db c' := by
  induction hdrift with
  | refl hservice hsent => exact h.congr hservice hsent
  | deliver request env hmem hservice hsent _ ih => exact ih (h.deliver hsig hP hmem hservice hsent)

/-- The request for a staged version goes out, and may arrive. -/
theorem postIssue (h : Coherent prim V P db c) {r : WitnessRequest} {e : UInt64} (hr : r.vaultId = V)
    (hstaged : ∀ s, P s → s.staged r.objectId = some (r, e.toNat))
    (hsend : ∀ s, P s → P (s.send r.objectId r e.toNat)) :
    Coherent prim V P db (c.send (.fromRequest r e)).next.2 ∧
      Coherent prim V P db (Transport.postIssue (.fromRequest r e) c).2 := by
  have hdrift := Channel.drifts_next (c.send (.fromRequest r e))
  have hnext := (h.send hr hstaged hsend).drift hsig hP hdrift
  refine ⟨hnext, ?_⟩
  rcases Channel.postIssue_snd (.fromRequest r e) c with hsame | ⟨env, hissued⟩
  · rw [hsame]
    exact hnext
  · rw [hissued]
    refine hnext.deliver hsig hP (q := .fromRequest r e) ?_ rfl rfl
    rw [hdrift.sent_eq]
    exact List.mem_append_right _ (List.mem_singleton_self _)

omit hsig hP in
/-- What the witness has acknowledged is its head. -/
theorem acknowledged (h : Coherent prim V P db c) {request : WitnessRequest} {e : UInt64}
    {r : WitnessReceipt} (hV : request.vaultId = V)
    (hack : Acknowledged prim signingKey c.service ⟨request, e⟩ r) :
    r.IssuedBy prim signingKey ∧ r.request = request ∧
      Coherent prim V (fun s => P s ∧
        s.head request.objectId = some (request, r.witnessEpoch.toNat)) db c := by
  obtain ⟨s, hs, hmirrors, hstate⟩ := h
  have hload : loadReceipt prim c.service V request.objectId (prim.verifyingKey signingKey) =
      .ok (some r) := hV ▸ hack.load
  obtain ⟨-, hvault, hobject, -⟩ := loadReceipt_eq_ok_some.mp hload
  have hrequest : r.request = request := by
    unfold WitnessReceipt.request
    rw [hvault, hobject, hack.versionId, hack.commitment, ← hV]
  obtain ⟨receipt, hreceipt, hissued, hentry⟩ := hmirrors.head request.objectId
  rw [hload] at hreceipt
  obtain rfl := Except.ok.inj hreceipt
  refine ⟨hissued r rfl, hrequest, s, hs, hmirrors, hstate, ?_⟩
  rw [hentry, Option.map_some, WitnessReceipt.entry, hrequest]

end Coherent

/-- The vault in memory is the vault `V`, and its tables agree with those of the witness. -/
def World.Agrees {prim : Primitives} {signingKey : Block 32} (V : VaultId) (P : Stores → Prop)
    (w : World (Channel prim signingKey)) : Prop :=
  w.vaultId = V ∧ Coherent prim V P w.db w.outside

section

variable {prim : Primitives} {signingKey : Block 32} {V : VaultId} {P Q R : Stores → Prop}
  {p : HttpsWitnessProvider} {w w' : World (Channel prim signingKey)}

/-- Agreement with a stronger property is agreement with a weaker one. -/
theorem World.Agrees.mono (h : w.Agrees V P) (hPQ : ∀ s, P s → Q s) : w.Agrees V Q :=
  ⟨h.1, h.2.mono hPQ⟩

/-- Locking keeps the agreement. -/
theorem World.Agrees.locked (h : w.Agrees V P) : w.locked.Agrees V P := h

/-- The properties of the two stores that late requests cannot break hold across reading and
sealing. -/
theorem steady_coherent (hsig : prim.SignatureCorrect) (hP : Stable P) :
    Steady fun w : World (Channel prim signingKey) => Coherent prim V P w.db w.outside where
  move _ _ hmove h := h.drift hsig hP (Channel.drifts_of_moves hmove)
  interfere _ h := h
  sink _ _ h := h
  record _ _ _ h := h

/-- Reading and sealing keep the agreement. -/
theorem steady_agrees (hsig : prim.SignatureCorrect) (hP : Stable P) :
    Steady fun w : World (Channel prim signingKey) => w.Agrees V P :=
  (Steady.of_vault fun v => v.envelope.vaultId = V).and (steady_coherent hsig hP)

/-! ### Acknowledging a staged version -/

/-- An honest witness orders the heads of each object. -/
theorem WitnessDb.Honest.headsOrdered {db : WitnessDb} (h : db.Honest prim signingKey) :
    HeadsOrdered db := by
  obtain ⟨calls, rfl⟩ := h
  exact (Run.invariant _ (fun _ call hs => hs.step call) calls HeadsOrdered.empty).1

/-- A receipt that comes back for a staged version is the head of its object. -/
theorem triple_issue (hsig : prim.SignatureCorrect) (hP : Stable P) {request : WitnessRequest}
    {e : UInt64} (hV : request.vaultId = V)
    (hstaged : ∀ s, P s → s.staged request.objectId = some (request, e.toNat))
    (hsend : ∀ s, P s → P (s.send request.objectId request e.toNat)) :
    Op.Triple (fun w : World (Channel prim signingKey) => w.Agrees V P)
      ((p.provider prim).issue request e)
      (fun r w => (r.IssuedBy prim signingKey ∧ r.request = request ∧ e < r.witnessEpoch) ∧
        w.Agrees V fun s => P s ∧
          s.head request.objectId = some (request, r.witnessEpoch.toNat))
      fun _ w => w.Agrees V P := by
  rintro w ⟨hvault, hcoherent⟩
  obtain ⟨hnext, hposted⟩ := hcoherent.postIssue hsig hP hV hstaged hsend
  have hstate : ((p.provider prim).issueReceipt request e w.outside).state = _ :=
    HttpsWitnessProvider.issueReceipt_state request e w.outside
  rw [← hstate] at hposted
  have hout : (p.provider prim).issue request e w =
      ((p.provider prim).issueReceipt request e w.outside).mapState fun c =>
        { w with history := .issueRequested request e :: w.history, outside := c } := rfl
  rw [hout]
  cases hissue : (p.provider prim).issueReceipt request e w.outside with
  | failed error c =>
    rw [hissue] at hposted
    exact ⟨hvault, hposted⟩
  | crashed c =>
    rw [hissue] at hposted
    exact ⟨hvault, hposted⟩
  | ok r c =>
    rw [hissue] at hposted
    obtain ⟨-, -, hnewer⟩ := HttpsWitnessProvider.issueReceipt_ok hissue
    obtain ⟨env, response, hwire, hinto⟩ := Channel.issueReceipt_honest hissue
    obtain ⟨s, -, hmirrors, -⟩ := hnext
    obtain ⟨parsed, r', hparse, rfl, hack⟩ :=
      issueWire_answered hsig hmirrors.honest.headsOrdered hwire
    rw [parseIssue_fromRequest] at hparse
    obtain rfl := Except.ok.inj hparse
    rw [IssueWireResponse.intoReceipt_ofReceipt] at hinto
    obtain ⟨-, rfl⟩ := WitnessReceipt.new_eq_ok.mp hinto
    obtain ⟨hissued, hrequest, hhead⟩ := hposted.acknowledged hV hack
    exact ⟨⟨hissued, hrequest, hnewer⟩, hvault, hhead⟩

/-- A property of the stores that survives the requests for staged values. -/
structure Sendable (P : Stores → Prop) : Prop where
  stable : Stable P
  send : ∀ s o r e, P s → P (s.send o r e)

/-- Two properties that survive requests survive them together. -/
theorem Sendable.and (hP : Sendable P) (hQ : Sendable Q) : Sendable fun s => P s ∧ Q s :=
  ⟨hP.stable.and hQ.stable, fun s o r e h => ⟨hP.send s o r e h.1, hQ.send s o r e h.2⟩⟩

/-- A property of the vault's store alone. -/
theorem Sendable.client
    (A : (ObjectId → Option (WitnessRequest × ℕ)) → (ObjectId → Option (WitnessRequest × ℕ)) → Prop) :
    Sendable fun s => A s.active s.staged :=
  ⟨.client A, fun _ _ _ _ h => h⟩

/-- What an acknowledgement does to the stores, wherever it stops: it finishes the publication, or
leaves the version staged. -/
theorem triple_acknowledge (hsig : prim.SignatureCorrect) (hP : Sendable P) (hR : Stable R)
    {v : StoredVersion} {e : UInt64}
    (hfinish : ∀ s n, Agreement s → P s → s.staged v.objectId = some (v.request prim V, e.toNat) →
      s.head v.objectId = some (v.request prim V, n) → e.toNat < n →
        R (s.finish v.objectId (v.request prim V) n)) :
    Op.Triple (fun w : World (Channel prim signingKey) => w.Agrees V P ∧ w.db.Staged v e)
      (acknowledge prim (p.provider prim) v e) (fun _ w => w.Agrees V R)
      fun _ w => w.Agrees V P ∨ w.Agrees V R := by
  let staged (s : Stores) : Prop :=
    P s ∧ s.staged v.objectId = some (v.request prim V, e.toNat)
  have hstaged : Sendable staged := hP.and (.client fun _ f =>
    f v.objectId = some (v.request prim V, e.toNat))
  refine Op.Triple.bind_get ?_
  rintro w0 ⟨⟨hvault, s, hs, hmirrors, hstate⟩, hve⟩
  rw [hvault]
  -- the version is staged in the abstract state too
  have hself := (hmirrors.staged _ _ _).mpr ⟨v, e, hve, rfl, rfl, rfl⟩
  let acknowledged (n : ℕ) (s : Stores) : Prop :=
    P s ∧ s.staged v.objectId = some (v.request prim V, e.toNat) ∧
      s.head v.objectId = some (v.request prim V, n)
  have hissue := (triple_issue (p := p) hsig hstaged.stable (e := e)
    (rfl : (v.request prim V).vaultId = V) (fun s h => h.2) (fun s h => hstaged.send s _ _ _ h)).and
      (Op.Triple.of_keeps (P := fun w : World (Channel prim signingKey) => w.db.Staged v e)
        fun w h => by rwa [(keeps_issue (p.provider prim) (v.request prim V) e w).db])
  refine Op.Triple.bind (fun r w => (r.IssuedBy prim signingKey ∧ r.request = v.request prim V ∧
    e < r.witnessEpoch) ∧ w.Agrees V (acknowledged r.witnessEpoch.toNat) ∧ w.db.Staged v e)
      (hissue.conseq ?_ ?_ ?_) fun r => Op.Triple.of_imp fun hr => ?_
  · rintro w rfl
    exact ⟨⟨hvault, s, hs, hmirrors, hstate, hself⟩, hve⟩
  · rintro r w ⟨⟨hr, hagrees⟩, hve⟩
    exact ⟨hr, hagrees.mono fun _ h => ⟨h.1.1, h.1.2, h.2⟩, hve⟩
  · rintro stop w ⟨hagrees, -⟩
    exact .inl (hagrees.mono fun _ h => h.1)
  -- the receipt's epoch cannot move any more
  obtain ⟨hissued, hrequest, hnewer⟩ := hr
  have hacknowledged : Stable (acknowledged r.witnessEpoch.toNat) :=
    hP.stable.and (Stable.acknowledged (UInt64.lt_iff_toNat_lt.mp hnewer))
  have hM : Steady fun w : World (Channel prim signingKey) =>
      w.Agrees V (acknowledged r.witnessEpoch.toNat) ∧ w.db.Staged v e :=
    (steady_agrees hsig hacknowledged).and (Steady.of_untouched fun _ db => db.Staged v e)
  have hstop : ∀ w : World (Channel prim signingKey),
      w.Agrees V (acknowledged r.witnessEpoch.toNat) ∧ w.db.Staged v e →
        w.Agrees V P ∨ w.Agrees V R :=
    fun w h => .inl (h.1.mono fun _ h => h.1)
  refine Op.Triple.bind_ofExcept (fun _ _ => ?_) fun _ w _ h => hstop w h
  refine Op.Triple.bind_require (fun _ => ?_) fun w _ h => hstop w h
  refine Op.Triple.bind (fun _ w => w.Agrees V R) (hM.triple_transaction
    (faults_of_steady fun _ w h => hstop w h) ?_ fun w _ h _ => hstop w h) fun _ => ?_
  · rintro w db ⟨⟨hvault, s, hs, hmirrors, hP, hstaged, hhead⟩, hve⟩ hbody
    have hlt := UInt64.lt_iff_toNat_lt.mp hnewer
    exact ⟨hvault, _, hs.finish hstaged hhead hlt, hmirrors.finish hsig hve hissued hrequest hbody,
      hfinish s _ hs hP hstaged hhead hlt⟩
  · exact ((steady_agrees hsig hR).triple fun R hR => keeps_enforceOwnerPrivateStateFiles).mono_stop
      fun _ _ => .inr

/-! ### Publishing and recovering -/

/-- In well-formed tables, the receipt found for an object is the one of its active version. -/
theorem activeReceipt_eq {ω : Type} [Machine ω] [Exclusive ω] {w w' : World ω} {o : ObjectId}
    {receipt : Option WitnessReceipt} (hwell : w.db.WellFormed prim)
    (h : activeReceipt prim o w = .ok receipt w') : w.db.activeReceipt prim o = .ok receipt := by
  unfold Vlt1.activeReceipt at h
  unfold Database.activeReceipt
  cases hversion : activeVersion o w with
  | ok version w1 =>
    rw [hversion] at h
    obtain ⟨hactive, -, hw1⟩ := activeVersion_ok hversion
    obtain ⟨hreceipt, -⟩ := query_ok_of_exclusive h
    rw [hw1.db] at hreceipt
    rw [Database.selectActive_eq_ok.mp hactive]
    exact except_bind_eq_ok.mpr ⟨version.versionId, Identifier.fromSlice_blob _, hreceipt⟩
  | failed error w1 =>
    rw [hversion] at h
    simp only at h
    by_cases hnot : error = .notFound
    · rw [if_pos hnot] at h
      cases h
      rcases activeVersion_failed hversion with hlocks | ⟨-, hmissing⟩
      · rw [hnot] at hlocks
        cases hlocks
      · -- a pointer would name a stored version
        have hnone : w.db.objects.lookup o.blob = none := by
          rcases hmissing with hnone | ⟨u, hactive, hnone⟩
          · exact hnone
          · obtain ⟨row, hrow, -⟩ := hwell.active _ _ (Database.selectActive_eq_ok.mp hactive)
            rw [hnone] at hrow
            cases hrow
        rw [hnone]
    · rw [if_neg hnot] at h
      cases h
  | crashed w1 =>
    rw [hversion] at h
    cases h

/-- What a publication through the witness does to the stores, wherever it stops. -/
theorem triple_putWithWitness (hsig : prim.SignatureCorrect) {o : ObjectId} (hP : Stable P)
    (hfree : ∀ s, P s → s.staged o = none) (hQ : Sendable Q)
    (hstage : ∀ s r, P s → Q (s.stage o r)) (hR : Stable R)
    (hfinish : ∀ s r e n, Agreement s → Q s → s.staged o = some (r, e) → s.head o = some (r, n) →
      R (s.finish o r n)) (plaintext : Bytes) :
    Op.Triple (fun w : World (Channel prim signingKey) => w.Agrees V P)
      (putWithWitness prim o plaintext (p.provider prim)) (fun _ w => w.Agrees V R)
      fun _ w => w.Agrees V P ∨ w.Agrees V Q ∨ w.Agrees V R := by
  refine triple_lockAfterFailure_of_locked ?_ fun _ _ h _ => h
  have hM : Steady fun w : World (Channel prim signingKey) => w.Agrees V P := steady_agrees hsig hP
  refine Op.Triple.bind _ ((triple_prepareVersion hM plaintext _).mono_stop
    fun _ _ => .inl) fun prepared => ?_
  refine Op.Triple.of_exists fun d => Op.Triple.of_imp fun hd => ?_
  obtain ⟨hof, rfl⟩ := hd
  obtain rfl := hof.object
  have hS : Steady fun w : World (Channel prim signingKey) =>
      w.Agrees V P ∧ d.SealedFor prim w.vault := steady_sealedFor hM d
  refine Op.Triple.bind (fun active w => (w.Agrees V P ∧
    w.db.activeReceipt prim d.objectId = .ok active) ∧ d.SealedFor prim w.vault) ?_ fun active => ?_
  · rintro w ⟨hw, hsealed⟩
    have hkept := (hS.triple fun R hR => keeps_activeReceipt prim d.objectId) w ⟨hw, hsealed⟩
    cases hout : activeReceipt prim d.objectId w with
    | ok active w' =>
      rw [hout] at hkept
      obtain ⟨-, s, -, hmirrors, -⟩ := hw
      have huntouched : w.Untouched w' := (keeps_activeReceipt prim d.objectId).of_ok hout
      exact ⟨⟨hkept.1, huntouched.db ▸ activeReceipt_eq hmirrors.wellFormed hout⟩, hkept.2⟩
    | failed error w' => rw [hout] at hkept; exact .inl hkept.1
    | crashed w' => rw [hout] at hkept; exact .inl hkept.1
  -- the version is staged with the epoch of the receipt it replaces
  let e : UInt64 := active.elim 0 WitnessReceipt.witnessEpoch
  have hN : Steady fun w : World (Channel prim signingKey) =>
      w.Agrees V Q ∧ w.db.Staged d.storedVersion e :=
    (steady_agrees hsig hQ.stable).and (Steady.of_untouched fun _ db => db.Staged d.storedVersion e)
  have hread : Steady fun w : World (Channel prim signingKey) =>
      w.Agrees V P ∧ w.db.activeReceipt prim d.objectId = .ok active :=
    hM.and (Steady.of_untouched fun _ db => db.activeReceipt prim d.objectId = .ok active)
  refine Op.Triple.bind _ ((triple_stageWitnessPublication hread hN ?_).mono_stop
    fun _ _ h => h.imp And.left fun h => .inl h.1) fun _ => ?_
  · rintro w ⟨⟨hvault, s, hs, hmirrors, hstate⟩, hactive⟩ hnew hepoch -
    have hexpected : e.toNat = number (s.active d.objectId) :=
      (ReadsAs.number_eq (hactive ▸ hmirrors.active d.objectId)).symm
    exact ⟨⟨hvault, _, hs.stage (hfree s hstate),
      hmirrors.stage hnew hepoch hexpected (hfree s hstate), hstage s _ hstate⟩, hnew.staged hepoch⟩
  · refine Op.Triple.bind _ ((triple_acknowledge (p := p) hsig hQ hR
      fun s n hs hq hstaged hhead _ => hfinish s _ _ n hs hq hstaged hhead).mono_stop
        fun _ _ => .inr) fun _ => Op.Triple.pure fun _ h => h

/-- What a recovery does to the stores, wherever it stops: it finishes publications, all of them
when it returns. -/
theorem triple_recover (hsig : prim.SignatureCorrect) (hP : Sendable P)
    (hfinish : ∀ s o r e n, Agreement s → P s → s.staged o = some (r, e) →
      s.head o = some (r, n) → P (s.finish o r n)) :
    Op.Triple (fun w : World (Channel prim signingKey) => w.Agrees V P)
      (recoverPendingWitnessPublications prim (p.provider prim))
      (fun _ w => w.Agrees V fun s => P s ∧ s.Unstaged) fun _ w => w.Agrees V P := by
  have hM : Steady fun w : World (Channel prim signingKey) => w.Agrees V P :=
    steady_agrees hsig hP.stable
  have hack : ∀ v e, Op.Triple (fun w : World (Channel prim signingKey) =>
      w.Agrees V P ∧ w.db.Staged v e) (acknowledge prim (p.provider prim) v e)
      (fun _ w => w.Agrees V P) fun _ w => w.Agrees V P := fun v e =>
    (triple_acknowledge hsig hP hP.stable fun s n hs hstate hstaged hhead _ =>
      hfinish s _ _ _ n hs hstate hstaged hhead).mono_stop fun _ _ h => h.elim id id
  refine (triple_recover_of_acknowledge (hM.triple fun R hR => keeps_requireRootKey)
    (hM.triple fun R hR => keeps_pendingWitnessPublications) hack (fun _ _ _ _ _ _ _ h => h)
    fun _ _ h _ => h).conseq (fun _ h => h) ?_ fun _ _ h => h
  rintro n w ⟨⟨hvault, s, hs, hmirrors, hstate⟩, hnone⟩
  exact ⟨hvault, s, hs, hmirrors, hstate, hmirrors.unstaged hnone⟩

end

/-! ### One vault throughout -/

/-- The vault in memory and in its file is the vault `V`. -/
def World.Identified {ω : Type} (V : VaultId) (w : World ω) : Prop :=
  w.vaultId = V ∧ ∀ row, w.db.vaultMeta = some row → row.vaultId = V.blob

namespace World.Identified

variable {ω α : Type} {prim : Primitives} {V : VaultId} {call : VaultCall} {w₀ w w' : World ω}

/-- A new envelope for the same vault leaves the identifier alone. -/
theorem replaceEnvelope (h : w.Identified V) {envelope : RootEnvelope} {db : Database} {v : Vault}
    (hid : envelope.vaultId = w.vaultId) (hv : v.envelope.vaultId = w.vaultId)
    (hbody : w.db.replaceEnvelopeBody envelope = .ok db) :
    World.Identified V { w.committed db with vault := v } := by
  obtain ⟨_, -, -, rfl⟩ := Database.replaceEnvelopeBody_eq_ok.mp hbody
  refine ⟨hv.trans h.1, fun row hrow => ?_⟩
  obtain rfl := Option.some.inj hrow
  rw [← h.1, ← hid]
  rfl

/-- No change of a call changes the identifier. -/
theorem change (hchange : Change prim call w₀ w w') (h : w.Identified V) : w'.Identified V := by
  cases hchange with
  | quiet hquiet =>
    refine ⟨(congrArg (fun v => v.envelope.vaultId) hquiet.vault).trans h.1, ?_⟩
    rw [hquiet.db]
    exact h.2
  | locked heq => subst heq; exact h
  | unlocked _ _ _ heq => subst heq; exact h
  | @opened envelope _ henvelope heq =>
    subst heq
    refine ⟨?_, h.2⟩
    -- an envelope can be read only where there is one
    cases hrow : w.db.vaultMeta with
    | none =>
      unfold Database.rootEnvelope at henvelope
      rw [hrow] at henvelope
      cases henvelope
    | some row =>
      have hid := Database.vaultId_of_rootEnvelope henvelope hrow
      exact Identifier.blob_inj.mp (hid.symm.trans (h.2 row hrow))
  | replaced _ _ _ hid _ hbody heq => subst heq; exact h.replaceEnvelope hid rfl hbody
  | rotated _ _ _ hid _ hbody heq => subst heq; exact h.replaceEnvelope hid hid hbody
  | published _ _ _ heq => subst heq; exact h
  | staged _ _ _ _ _ heq => subst heq; exact h
  | finalized _ _ _ hbody hvault _ =>
    obtain ⟨-, -, -, -, -, hdb⟩ := Database.finalizeBody_eq_ok.mp hbody
    refine ⟨(congrArg (fun v => v.envelope.vaultId) hvault).trans h.1, ?_⟩
    rw [hdb]
    exact h.2

/-- A call of the library never turns the vault into another one. -/
theorem triple {x : VaultOp ω α} (hx : ∀ w, Changes prim call w w (x w).state) :
    Op.Triple (World.Identified V) x (fun _ => World.Identified V) fun _ => World.Identified V :=
  Op.Triple.of_keeps fun w h => (hx w).invariant (fun _ _ => change) h

/-- A vault that was created is identified by the identifier in its envelope. -/
theorem of_create [Machine ω] [Exclusive ω] {passphrase : Text} {u : Unit}
    (h : create prim passphrase w = .ok u w') : w'.Identified w'.vaultId := by
  obtain ⟨K, -, hstate⟩ := KeyState.of_create h
  refine ⟨rfl, fun row hrow => ?_⟩
  obtain rfl := Option.some.inj (hstate.row.symm.trans hrow)
  rfl

end World.Identified

/-- The vault is `V`, and its tables agree with those of its witness. -/
def World.Paired {prim : Primitives} {signingKey : Block 32} (V : VaultId) (P : Stores → Prop)
    (w : World (Channel prim signingKey)) : Prop :=
  w.Identified V ∧ Coherent prim V P w.db w.outside

section

variable {prim : Primitives} {signingKey : Block 32} {V : VaultId} {P Q R : Stores → Prop}
  {p : HttpsWitnessProvider} {w w' : World (Channel prim signingKey)}

/-- A paired vault agrees with its witness. -/
theorem World.Paired.agrees (h : w.Paired V P) : w.Agrees V P := ⟨h.1.1, h.2⟩

/-- Pairing with a stronger property is pairing with a weaker one. -/
theorem World.Paired.mono (h : w.Paired V P) (hPQ : ∀ s, P s → Q s) : w.Paired V Q :=
  ⟨h.1, h.2.mono hPQ⟩

/-- Locking keeps the pairing. -/
theorem World.Paired.locked (h : w.Paired V P) : w.locked.Paired V P := h

/-- The tables do not depend on the envelope. -/
theorem World.Paired.replaceEnvelope (h : w.Paired V P) {envelope : RootEnvelope} {db : Database}
    {v : Vault} (hid : envelope.vaultId = w.vaultId) (hv : v.envelope.vaultId = w.vaultId)
    (hbody : w.db.replaceEnvelopeBody envelope = .ok db) :
    World.Paired V P { w.committed db with vault := v } := by
  refine ⟨h.1.replaceEnvelope hid hv hbody, ?_⟩
  obtain ⟨-, s, hs, hmirrors, hstate⟩ := h
  obtain ⟨_, -, -, rfl⟩ := Database.replaceEnvelopeBody_eq_ok.mp hbody
  exact ⟨s, hs, hmirrors.vaultMeta _, hstate⟩

/-- A vault that was just created, in front of a witness that has heard of nothing. -/
theorem World.Paired.of_create {passphrase : Text} {u : Unit} (hunused : w.outside.Unused)
    (h : create prim passphrase w = .ok u w') : w'.Paired w'.vaultId (· = .initial) := by
  have hkept := (keeps_create (R := fun w w' : World (Channel prim signingKey) =>
    w.outside.Unused → w'.outside.Unused) prim passphrase).of_ok h
  exact ⟨.of_create h, .initial, .initial, .initial (create_ok h).2 (hkept hunused), rfl⟩

variable (hsig : prim.SignatureCorrect) (hP : Stable P)

include hsig hP

/-- Reading and sealing keep the pairing. -/
theorem steady_paired : Steady fun w : World (Channel prim signingKey) => w.Paired V P :=
  (Steady.of_untouched fun v db => v.envelope.vaultId = V ∧
    ∀ row, db.vaultMeta = some row → row.vaultId = V.blob).and (steady_coherent hsig hP)

/-- Asking for a head keeps the pairing. -/
theorem keepsHeads_paired : (p.provider prim).KeepsHeads
    fun w w' : World (Channel prim signingKey) => w.Paired V P → w'.Paired V P where
  head v o c w h := by
    refine ⟨h.1, ?_⟩
    show Coherent prim V P w.db ((p.provider prim).objectHead v o c w.outside).state
    rw [HttpsWitnessProvider.objectHead_state, Channel.postHead_snd]
    exact h.2.drift hsig hP (Channel.drifts_next _)

/-! ### Calls that publish nothing -/

/-- Opening the vault keeps the pairing. -/
theorem triple_openVault_paired :
    Op.Triple (fun w : World (Channel prim signingKey) => w.Paired V P) (openVault prim)
      (fun _ w => w.Paired V P) fun _ w => w.Paired V P :=
  (World.Identified.triple changes_openVault).and
    (triple_openVault (steady_coherent hsig hP) fun _ _ h _ => h)

omit hsig hP in
/-- Unlocking keeps the pairing. -/
theorem triple_unlock_paired (passphrase : Text) :
    Op.Triple (fun w : World (Channel prim signingKey) => w.Paired V P) (unlock prim passphrase)
      (fun _ w => w.Paired V P) fun _ w => w.Paired V P := by
  intro w h
  rcases unlock_cases prim passphrase w with ⟨e, hfailed⟩ | ⟨rootKey, -, hok⟩
  · rw [hfailed]
    exact h
  · rw [hok]
    exact h

/-- A rotation keeps the pairing, whether or not it commits. -/
theorem triple_rotatePassphrase_paired (current replacement : Text) :
    Op.Triple (fun w : World (Channel prim signingKey) => w.Paired V P)
      (rotatePassphrase prim current replacement) (fun _ w => w.Paired V P)
      fun _ w => w.Paired V P := by
  have hM : Steady fun w : World (Channel prim signingKey) => w.Paired V P := steady_paired hsig hP
  refine (triple_rotatePassphrase hM hM hM (fun _ h => h.locked) (fun _ h => h.locked) ?_).mono_stop
    fun _ _ h => h.elim id id
  intro w rootKey envelope db hw _ _ hid hbody
  exact ⟨hw.replaceEnvelope hid rfl hbody, hw.replaceEnvelope hid hid hbody⟩

/-! ### Calls that publish -/

/-- A witnessed publication takes the pairing from `P` over `Q`, when it has staged, to `R`, when it
has finished; it may stop in any of the three. -/
theorem triple_putWithWitness_paired {o : ObjectId} (hfree : ∀ s, P s → s.staged o = none)
    (hQ : Sendable Q) (hstage : ∀ s r, P s → Q (s.stage o r)) (hR : Stable R)
    (hfinish : ∀ s r e n, Agreement s → Q s → s.staged o = some (r, e) → s.head o = some (r, n) →
      R (s.finish o r n)) (plaintext : Bytes) :
    Op.Triple (fun w : World (Channel prim signingKey) => w.Paired V P)
      (putWithWitness prim o plaintext (p.provider prim)) (fun _ w => w.Paired V R)
      fun _ w => w.Paired V P ∨ w.Paired V Q ∨ w.Paired V R := by
  refine ((World.Identified.triple (V := V) (changes_putWithWitness o plaintext)).and
    (triple_putWithWitness (V := V) hsig hP hfree hQ hstage hR hfinish plaintext)).conseq ?_ ?_ ?_
  · exact fun w h => ⟨h.1, h.agrees⟩
  · exact fun _ w h => ⟨h.1, h.2.2⟩
  · exact fun _ w h => h.2.imp (⟨h.1, ·.2⟩) (Or.imp (⟨h.1, ·.2⟩) (⟨h.1, ·.2⟩))

omit hP in
/-- Recovery keeps the pairing, and when it returns nothing is staged. -/
theorem triple_recover_paired (hP : Sendable P)
    (hfinish : ∀ s o r e n, Agreement s → P s → s.staged o = some (r, e) →
      s.head o = some (r, n) → P (s.finish o r n)) :
    Op.Triple (fun w : World (Channel prim signingKey) => w.Paired V P)
      (recoverPendingWitnessPublications prim (p.provider prim))
      (fun _ w => w.Paired V fun s => P s ∧ s.Unstaged) fun _ w => w.Paired V P := by
  refine ((World.Identified.triple (V := V) changes_recover).and
    (triple_recover (V := V) hsig hP hfinish)).conseq ?_ ?_ ?_
  · exact fun w h => ⟨h.1, h.agrees⟩
  · exact fun _ w h => ⟨h.1, h.2.2⟩
  · exact fun _ w h => ⟨h.1, h.2.2⟩

end

end Vlt1

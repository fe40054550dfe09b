import Vlt1.Channel
import Vlt1.Vault.Publications
import Vlt1.Vault.Sweep

/-!
# A planned change of the witness's signer

The witness is stopped and reopened with a new signing key `k2`; the clients trust the new key and,
for a while, the old key `k1`. The heads the witness has stored carry signatures of the old key, and
the witness checks a stored signature under its current key whenever it loads a head. So the heads
cannot be loaded any more: an object acknowledged before the change can neither be verified nor
published again (`signer_rollover`). Only objects the witness has never seen are unaffected.
-/

namespace Vlt1

open Effect

/-- The documented behaviour of Ed25519 for two different signers: what the first signs does not
verify under the key of the second. -/
structure Primitives.SignersApart (prim : Primitives) (k1 k2 : Block 32) : Prop where
  rejects : ∀ message, prim.verify (prim.verifyingKey k2) message (prim.sign k1 message) = false

/-! ### Stored heads -/

/-- Every stored head is a receipt the signer has issued for its object. -/
def HeadsIssued (prim : Primitives) (signingKey : Block 32) (db : WitnessDb) : Prop :=
  ∀ key row, db.objectHeads.lookup key = some row → ∃ request epoch,
    row = .ofReceipt (.issue prim request epoch signingKey) ∧ request.headKey = key

section

variable {prim : Primitives} {k1 k2 : Block 32} {db : WitnessDb}

/-- Every call of the service leaves its heads under the key in use. -/
theorem HeadsIssued.step (h : HeadsIssued prim k1 db) (call : ServiceCall) :
    HeadsIssued prim k1 (serviceStep prim k1 db call).2 := by
  rcases serviceStep_cases prim k1 db call with hsame | ⟨_, _, p, r, -, -, hadv, hafter⟩
  · rw [hsame]
    exact h
  · rw [hafter]
    intro key row hrow
    rw [WitnessDb.lookup_advanced] at hrow
    split at hrow
    · rename_i hkey
      obtain rfl := Option.some.inj hrow
      exact ⟨p.request, r.witnessEpoch, by rw [← hadv.receipt], by rw [hkey, hadv.keyOf_eq]⟩
    · exact h key row hrow

/-- The heads of an honest witness are under its key. -/
theorem WitnessDb.Honest.headsIssued (h : db.Honest prim k1) : HeadsIssued prim k1 db := by
  obtain ⟨calls, rfl⟩ := h
  exact (Run.invariant _ (fun _ call hs => hs.step call) calls fun _ _ hrow => by cases hrow).1

/-- A head stored under the old key is not loaded under the new one. -/
theorem HeadsIssued.not_loaded (h : HeadsIssued prim k1 db) (hapart : prim.SignersApart k1 k2)
    {v : VaultId} {o : ObjectId} (hhead : db.objectHeads.lookup (v.blob, o.blob) ≠ none)
    (stored : Option WitnessReceipt) :
    loadReceipt prim db v o (prim.verifyingKey k2) ≠ .ok stored := by
  intro hload
  cases stored with
  | none => exact hhead (loadReceipt_eq_ok_none.mp hload)
  | some r =>
    obtain ⟨hrow, hv, ho, hkey, -, hvalid⟩ := loadReceipt_eq_ok_some.mp hload
    obtain ⟨request, epoch, hissued, hheadKey⟩ := h _ _ hrow
    obtain ⟨hversion, hepoch, hcommitment, hsignature⟩ := HeadRow.mk.inj hissued
    obtain ⟨hvault, hobject⟩ := Prod.mk.inj hheadKey
    -- the row determines what the signature is checked against
    have hbytes : r.signingBytes = receiptSigningBytes request.vaultId request.objectId
        request.versionId epoch request.commitment := by
      rw [WitnessReceipt.signingBytes, hv, ho, Identifier.blob_inj.mp hvault,
        Identifier.blob_inj.mp hobject, Identifier.blob_inj.mp hversion,
        UInt64.toNat_inj.mp (Int.ofNat_inj.mp hepoch), Block.toList_inj.mp hcommitment]
      rfl
    have hverify := (verifySignature_eq_ok.mp hvalid).2
    rw [hkey, hbytes, Block.toList_inj.mp hsignature] at hverify
    exact Bool.false_ne_true ((hapart.rejects _).symm.trans hverify)

end

/-! ### What the clients ask for -/

/-- The clients' trust anchors during the change. -/
def rolloverClient (prim : Primitives) (k1 k2 : Block 32) : HttpsWitnessProvider :=
  ⟨prim.verifyingKey k2, some (prim.verifyingKey k1)⟩

section

variable (prim : Primitives) (k1 k2 : Block 32) (db : WitnessDb)

/-- A client that asks the reopened witness for the head of an object gets the stored one. -/
def AnswersHead (v : VaultId) (o : ObjectId) : Prop :=
  ∀ (c : Channel prim k2) (challenge : Block 32) (row : HeadRow), c.Serves db →
    db.objectHeads.lookup (v.blob, o.blob) = some row →
      ∃ head c', ((rolloverClient prim k1 k2).provider prim).objectHead v o challenge c =
          .ok head c' ∧
        head.present = true ∧ head.versionId.map Identifier.blob = some row.versionId ∧
        (head.witnessEpoch.toNat : ℤ) = row.witnessEpoch ∧
        head.commitment.map Block.toList = some row.commitment

/-- A client that asks the reopened witness to acknowledge a version gets a receipt, and the head
advances to it. -/
def AdvancesHead (request : WitnessRequest) (e : UInt64) : Prop :=
  ∀ c : Channel prim k2, c.Serves db →
    ∃ r c', ((rolloverClient prim k1 k2).provider prim).issueReceipt request e c = .ok r c' ∧
      c'.service = db.advanced r

/-- An unlocked vault whose active versions all have a stored receipt that is the witness's head. -/
structure HoldsHeads {ω : Type} (w : World ω) : Prop where
  unlocked : w.vault.rootKey ≠ none
  matched : ∀ b u, w.db.objects.lookup b = some u → ∃ (o : ObjectId) (r : WitnessReceipt),
    o.blob = b ∧ r.versionId.blob = u ∧ w.db.selectReceipt prim r.versionId = .ok (some r) ∧
      db.objectHeads.lookup (w.vaultId.blob, o.blob) = some (.ofReceipt r)

end

section

variable {prim : Primitives} {k1 k2 : Block 32} {db : WitnessDb}

theorem serves_quiet (db : WitnessDb) : (⟨db, [], []⟩ : Channel prim k2).Serves db :=
  ⟨rfl, fun _ h => (by cases h), fun _ h => (by cases h)⟩

/-- No head comes back for an object acknowledged before the change. -/
theorem objectHead_not_ok (hsig : prim.SignatureCorrect) (hissued : HeadsIssued prim k1 db)
    (hapart : prim.SignersApart k1 k2) {p : HttpsWitnessProvider} {v : VaultId} {o : ObjectId}
    (hhead : db.HasHead v o) {x : Block 32} {head : WitnessHead} {c c' : Channel prim k2}
    (hc : c.Serves db) : (p.provider prim).objectHead v o x c ≠ .ok head c' := by
  intro h
  obtain ⟨stored, hload, -⟩ := Channel.objectHead_honest hsig h
  rw [hc.next.2.service] at hload
  exact hissued.not_loaded hapart hhead stored hload

/-- After the rollover the service answers for exactly the objects without a head. -/
theorem answersHead_iff (hsig : prim.SignatureCorrect) (hissued : HeadsIssued prim k1 db)
    (hapart : prim.SignersApart k1 k2) (v : VaultId) (o : ObjectId) :
    AnswersHead prim k1 k2 db v o ↔ ¬db.HasHead v o := by
  constructor
  · intro h hhead
    obtain ⟨row, hrow⟩ := Option.ne_none_iff_exists'.mp hhead
    obtain ⟨head, c', hobtained, -⟩ := h ⟨db, [], []⟩ (Block.zero 32) row (serves_quiet db) hrow
    exact objectHead_not_ok hsig hissued hapart hhead (serves_quiet db) hobtained
  · intro hnone c challenge row _ hrow
    rw [WitnessDb.HasHead, hrow] at hnone
    exact absurd nofun hnone

/-! ### Acknowledging a version -/

/-- The stored sequence numbers are positive. -/
def EpochsPositive (db : WitnessDb) : Prop := ∀ vault, 0 < db.nextEpoch vault

/-- Every call of the service leaves its epochs positive. -/
theorem EpochsPositive.step (h : EpochsPositive db) (call : ServiceCall) :
    EpochsPositive (serviceStep prim k1 db call).2 := by
  rcases serviceStep_cases prim k1 db call with hsame | ⟨_, _, p, r, -, -, hadv, hafter⟩
  · rw [hsame]
    exact h
  · rw [hafter]
    intro vault
    rw [WitnessDb.nextEpoch_advanced]
    split
    · omega
    · exact h vault

/-- The epochs of an honest witness are positive. -/
theorem WitnessDb.Honest.epochsPositive (h : db.Honest prim k1) : EpochsPositive db := by
  obtain ⟨calls, rfl⟩ := h
  exact (Run.invariant _ (fun _ call hs => hs.step call) calls fun _ => Int.one_pos).1

/-- After the rollover a head advances exactly when there was none. -/
theorem advancesHead_iff (hsig : prim.SignatureCorrect) (hissued : HeadsIssued prim k1 db)
    (hpositive : EpochsPositive db) (hapart : prim.SignersApart k1 k2) {request : WitnessRequest}
    {e : UInt64} (hexpected : db.headEpoch request.headKey = e.toNat)
    (hroom : db.nextEpoch request.vaultId.blob + 1 < sqlIntegerBound) :
    AdvancesHead prim k1 k2 db request e ↔ ¬db.HasHead request.vaultId request.objectId := by
  constructor
  · intro h hhead
    obtain ⟨r, c', hreceipt, -⟩ := h ⟨db, [], []⟩ (serves_quiet db)
    obtain ⟨env, response, hwire, -⟩ := Channel.issueReceipt_honest hreceipt
    -- the witness has loaded the head before it answered
    obtain ⟨p, current, hparse, hload⟩ := issueWire_ok_load hwire
    rw [parseIssue_fromRequest] at hparse
    obtain rfl := Except.ok.inj hparse
    exact hissued.not_loaded hapart hhead current hload
  · intro hnone c hc
    have hlookup : db.objectHeads.lookup request.headKey = none := not_not.mp hnone
    have hzero : e = 0 := by
      rw [WitnessDb.headEpoch, hlookup] at hexpected
      exact UInt64.toNat_inj.mp (Int.ofNat_inj.mp hexpected).symm
    subst hzero
    have hsent : (c.send (.fromRequest request 0)).Serves db :=
      ⟨hc.service, hc.punctual, hc.reachable⟩
    obtain ⟨hreachable, hnext⟩ := hsent.next
    obtain ⟨r, hadv, hwire⟩ := @issueWire_of_advance prim k2 _ db _ _
      (parseIssue_fromRequest request 0) (loadReceipt_eq_ok_none.mpr hlookup) rfl
      (hpositive request.vaultId.blob) hroom
    rw [← hnext.service] at hwire
    refine ⟨r, _, Channel.issueReceipt_of_reachable hreachable hwire ?_ ?_ ?_, ?_⟩
    · rw [hadv.receipt]
      exact .inl rfl
    · rw [hadv.receipt]
      exact WitnessReceipt.verifyRequest_eq_ok.mpr
        ⟨rfl, rfl, rfl, rfl, WitnessReceipt.valid_issue hsig _ _ _⟩
    · exact UInt64.lt_iff_toNat_lt.mpr hadv.pos
    · rw [hnext.service]

/-! ### Verifying a vault -/

/-- While no request is late, the witness stays as it is. -/
def ReopenedUnmoved (w w' : World (Channel prim k2)) : Prop := w.outside.Unmoved w'.outside

instance : ReadRelation fun w w' : World (Channel prim k2) => ReopenedUnmoved w w' where
  refl _ := .refl _
  trans _ _ _ h h' := h.trans h'
  move _ _ hmove := fun h => h.moves hmove
  interfere _ := .refl _
  sink _ _ := .refl _
  observe _ _ _ := .refl _

theorem keepsHeads_reopenedUnmoved {p : HttpsWitnessProvider} : (p.provider prim).KeepsHeads
    fun w w' : World (Channel prim k2) => ReopenedUnmoved w w' where
  head v o c w := by
    rw [HttpsWitnessProvider.objectHead_state]
    exact Channel.unmoved_postHead _ _

/-- After the rollover the vault is verified exactly when none of its objects has a head. -/
theorem verify_iff (hsig : prim.SignatureCorrect) (hissued : HeadsIssued prim k1 db)
    (hapart : prim.SignersApart k1 k2) {w : World (Channel prim k2)} (hserves : w.outside.Serves db)
    (hvault : HoldsHeads prim db w) :
    (∃ n w', verifyActiveObjectsWithWitness prim ((rolloverClient prim k1 k2).provider prim) w =
        .ok n w') ↔ ∀ b, w.db.objects.lookup b = none := by
  constructor
  · rintro ⟨n, w', hverify⟩ b
    by_contra hactive
    obtain ⟨-, -, -, hfresh⟩ := verifyActiveObjectsWithWitness_ok keepsHeads_reopenedUnmoved hverify
    obtain ⟨o, c, head, r, rfl, hhead⟩ := hfresh b hactive
    obtain ⟨x, after, hx, hobtained⟩ := hhead.obtained
    obtain ⟨u, hu⟩ := Option.ne_none_iff_exists'.mp hactive
    obtain ⟨o', r', ho', -, -, hrow⟩ := hvault.matched _ _ hu
    obtain rfl := Identifier.blob_inj.mp ho'
    obtain ⟨hpunctual, hservice⟩ := hx hserves.punctual
    obtain ⟨stored, hload, -⟩ := Channel.objectHead_honest hsig hobtained
    rw [hpunctual.next.2, hservice, hserves.service] at hload
    exact hissued.not_loaded hapart (by rw [hrow]; exact nofun) stored hload
  · intro hnone
    -- there is nothing to compare
    have hkeys : w.db.selectObjectKeys = [] := by
      refine List.eq_nil_iff_forall_not_mem.mpr fun b hb => ?_
      exact Database.mem_selectObjectKeys.mp hb (hnone b)
    obtain ⟨rootKey, hkey⟩ := Option.ne_none_iff_exists'.mp hvault.unlocked
    have hids : activeObjectIds w = .ok [] { w with outside := w.outside.next.2 } := by
      rw [activeObjectIds, Op.bind_apply, Channel.query_of_serves hserves, hkeys]
      rfl
    refine ⟨0, { w with outside := w.outside.next.2 }, lockAfterFailure_eq_ok.mpr ?_⟩
    rw [Op.bind_of_ok (requireRootKey_eq_ok.mpr ⟨hkey, rfl⟩), Op.bind_of_ok hids]
    rfl

/-- **Signer rollover.** After the witness was reopened with another key, a client gets the head of an
object exactly when there is none, it can publish a further version exactly when the witness has
never acknowledged one, and a vault that agrees with the witness verifies exactly when it has no
active object. -/
theorem signer_rollover (hsig : prim.SignatureCorrect) (hapart : prim.SignersApart k1 k2)
    (hhonest : db.Honest prim k1) :
    (∀ v o, AnswersHead prim k1 k2 db v o ↔ ¬db.HasHead v o) ∧
    (∀ request e, db.headEpoch request.headKey = e.toNat →
      db.nextEpoch request.vaultId.blob + 1 < sqlIntegerBound →
        (AdvancesHead prim k1 k2 db request e ↔
          ¬db.HasHead request.vaultId request.objectId)) ∧
    ∀ w : World (Channel prim k2), w.outside.Serves db → HoldsHeads prim db w →
      ((∃ n w', verifyActiveObjectsWithWitness prim ((rolloverClient prim k1 k2).provider prim) w =
        .ok n w') ↔ ∀ b, w.db.objects.lookup b = none) := by
  have hissued := hhonest.headsIssued
  exact ⟨answersHead_iff hsig hissued hapart, fun request e =>
    advancesHead_iff hsig hissued hhonest.epochsPositive hapart, fun w =>
      verify_iff hsig hissued hapart⟩

end

/-! ### A rollover of the sample witness -/

/-- The new signing seed. -/
def sampleNewSeed : Block 32 := ⟨List.replicate 32 1, by decide⟩

theorem signersApart_sample : Primitives.checksum.SignersApart sampleSeed sampleNewSeed where
  rejects message := by
    show decide (checksumSign sampleSeed message = checksumSign sampleNewSeed message) = false
    refine decide_eq_false fun h => ?_
    have hseeds := Bytes.append_block_inj (a := sampleSeed) (congrArg Block.toList h)
    exact absurd hseeds.1 (by decide)

/-- The sample vault after one byte was stored with the witness's acknowledgement. -/
def sampleWitnessed : World (Channel .checksum sampleSeed) :=
  (putWithWitness .checksum (.repeated 2) [97] (sampleTrust.provider .checksum) sampleWorld).state

/-- The same vault in front of the reopened witness. -/
def sampleReopened : World (Channel .checksum sampleNewSeed) where
  vault := sampleWitnessed.vault
  db := sampleWitnessed.db
  sink := sampleWitnessed.sink
  history := sampleWitnessed.history
  outside := ⟨sampleWitnessed.outside.service, [], []⟩

/-- A publication leaves an honest witness honest. -/
theorem honest_putWithWitness {prim : Primitives} {signingKey : Block 32} {p : HttpsWitnessProvider}
    {o : ObjectId} {plaintext : Bytes} {w w' : World (Channel prim signingKey)}
    (h : w.outside.service.Honest prim signingKey)
    (hw' : w' = (putWithWitness prim o plaintext (p.provider prim) w).state) :
    w'.outside.service.Honest prim signingKey := by
  have hissue : ∀ request env (db : WitnessDb), db.Honest prim signingKey →
      (issueWire prim signingKey env request db).state.Honest prim signingKey :=
    fun request env db hdb => hdb.issueWire request env
  rw [hw']
  exact @keeps_putWithWitness _ _ _ (Channel.stepRelation_service hissue) prim _
    (Channel.keeps_service hissue p) o plaintext w h

/-- The sample witness has issued its heads itself. -/
theorem honest_sampleWitnessed : sampleWitnessed.outside.service.Honest .checksum sampleSeed :=
  honest_putWithWitness honest_sampleWorld (by rw [sampleWitnessed])

/-- The first version of an object the witness has never seen. -/
def sampleFirst : WitnessRequest := ⟨sampleWorld.vaultId, .repeated 5, .repeated 6, .zero 32⟩

/-- After the rollover the first version of a new object is acknowledged. -/
theorem signer_rollover_sample :
    AdvancesHead .checksum sampleSeed sampleNewSeed sampleWitnessed.outside.service sampleFirst 0 := by
  have hunseen : ¬sampleWitnessed.outside.service.HasHead sampleFirst.vaultId
      sampleFirst.objectId := by
    unfold WitnessDb.HasHead
    decide +kernel
  have hexpected : sampleWitnessed.outside.service.headEpoch sampleFirst.headKey =
      (0 : UInt64).toNat := by decide +kernel
  have hroom : sampleWitnessed.outside.service.nextEpoch sampleFirst.vaultId.blob + 1 <
      sqlIntegerBound := by decide +kernel
  obtain ⟨-, hadvances, -⟩ := signer_rollover Primitives.signatureCorrect_checksum
    signersApart_sample honest_sampleWitnessed
  exact (hadvances sampleFirst 0 hexpected hroom).mpr hunseen

/-- The next version of the object already stored. -/
def sampleNext : WitnessRequest := ⟨sampleWorld.vaultId, .repeated 2, .repeated 6, .zero 32⟩

/-- The vault verifies against the witness it was acknowledged by. Once the witness is reopened with
the new key, it neither answers for the head it holds nor acknowledges the next version, and the
vault, which trusts both keys, does not verify. -/
theorem reopened_witness_refuses :
    (verifyActiveObjectsWithWitness .checksum (sampleTrust.provider .checksum)
        sampleWitnessed).result = some (.ok 1) ∧
      (headWire .checksum sampleNewSeed .calm
        (.fromQuery sampleWorld.vaultId (.repeated 2) (.zero 32))
          sampleReopened.outside.service).result = some (.error .authentication) ∧
      (issueWire .checksum sampleNewSeed .calm (.fromRequest sampleNext 1)
        sampleReopened.outside.service).result = some (.error .authentication) ∧
      (verifyActiveObjectsWithWitness .checksum
        ((rolloverClient .checksum sampleSeed sampleNewSeed).provider .checksum)
          sampleReopened).result = some (.error .witnessUnavailable) := by
  refine ⟨?_, ?_, ?_, ?_⟩ <;> decide +kernel

end Vlt1

import Vlt1.ReadIntegrity
import Vlt1.StrictReads

/-!
# What a verified vault contains

`verifyActiveObjectsWithWitness` compares, for each object, the stored receipt of the active version with
a head that a trusted witness signed for a fresh challenge. Head and receipt speak about the sealed
Manifest only; neither the wrapped key nor the chunks are signed.

They need not be. A version identifier belongs to one submission, and the associated data bind every
record of a version to its identifier, so the head determines the plaintext: `verified_content` says that
a database that passes, whoever wrote it, holds the plaintexts that were submitted under the versions of
the heads.
-/

namespace Vlt1

open Effect

section

variable {ω : Type} [Machine ω] [Exclusive ω] {prim : Primitives}

section Reads

variable {submissions : List Submission} {history : List Event}
  (haccounts : Accounts submissions history) (hfresh : (drawnVersions history).Nodup)
  {o : ObjectId} {u : VersionId} {w : World ω} (hactive : w.db.selectActive o = .ok u)
  (hunforged : ∀ rootKey, w.vault.rootKey = some rootKey →
    Unforged prim history (w.db.Opens prim rootKey w.vaultId o))

include haccounts hfresh hactive hunforged

/-- The checks of a read lead to the submission of the active version. -/
theorem ReadChecks.active_submission (c : ReadChecks prim o w) :
    ∃ s ∈ submissions, (s.objectId = o ∧ s.versionId = u) ∧
      c.manifest.plaintextLen.toNat = s.plaintext.length ∧
      ∀ w1 : World ω, c.digested.Selects c.version.versionId w1 →
        OpenToPieces prim w.vaultId o c.version.versionId c.dataKey c.manifest s.pieces
          (w1.db.selectChunks c.version.versionId) := by
  obtain ⟨hselect, -⟩ := activeVersion_ok c.active
  obtain rfl := Except.ok.inj (hselect.symm.trans hactive)
  exact c.submission haccounts hfresh (.readOpens hunforged)

/-- What passes the checks of a read was submitted for the object. -/
theorem getToWriterInner_submitted {writer : Writer} {w' : World ω}
    (h : getToWriterInner prim o writer w = .ok () w') :
    ∃ s ∈ submissions, s.objectId = o ∧ s.versionId = u := by
  rcases getToWriterInner_cases prim o writer w with ⟨c, -⟩ | ⟨hnot, -⟩
  · obtain ⟨s, hs, hids, -⟩ := c.active_submission haccounts hfresh hactive hunforged
    exact ⟨s, hs, hids⟩
  · exact absurd h (hnot _ _)

/-- `get` returns what was submitted under the active version. -/
theorem get_active_submission {bytes : Bytes} {w' : World ω} (h : get prim o w = .ok bytes w') :
    ∃ s ∈ submissions, s.versionId = u ∧ bytes = s.plaintext := by
  obtain ⟨hread, rfl⟩ := get_eq_ok h
  rcases getToWriterInner_cases prim o .vector { w with sink := [] } with ⟨c, hc⟩ | ⟨hnot, -⟩
  · obtain ⟨s, hs, ⟨-, rfl⟩, hlength, hopen⟩ :=
      c.active_submission (w := { w with sink := [] }) haccounts hfresh hactive hunforged
    exact ⟨s, hs, rfl, c.pass_ok hopen (hc.symm.trans hread) hlength⟩
  · exact absurd hread (hnot _ _)

end Reads

/-- **A verified database holds the acknowledged content.** Let a program have made its calls on a
vault it created, and let anyone have replaced the database and the surroundings since. What the calls
have submitted is determined by its version identifier. If the verification against the witness returns,
it has counted every object, and for each of them a head under a trusted key was obtained for a challenge
of this call; the version in the head was submitted for the object by one of the calls, and the plaintext
of this submission is what `get` returns from now on. So two databases that pass against heads with the
same version hold the same plaintext.

No version identifier was drawn twice by the calls, and of the records in the replaced database that reads
of its objects try to open, none is forged. -/
theorem verified_content [Transport ω] {p : HttpsWitnessProvider} {passphrase : Text}
    {w₀ w x : World ω} {u : Unit} (hnew : w₀.history = [])
    (hcreate : create prim passphrase w₀ = .ok u w) (calls : List VaultCall)
    (hx : (Run.final (sessionStep prim (p.provider prim)) ⟨w, true⟩ calls).world = x)
    (hfresh : (drawnVersions x.history).Nodup) :
    ∃ submissions, Accounts submissions x.history ∧
      (∀ s ∈ submissions, ∃ call ∈ calls, call.Supplies s.objectId s.plaintext) ∧
      (∀ s ∈ submissions, ∀ s' ∈ submissions, s.versionId = s'.versionId → s = s') ∧
      ∀ (x' : World ω) (n : UInt64) (y : World ω),
        x'.vault = x.vault →
        (∀ o rootKey, x.vault.rootKey = some rootKey →
          Unforged prim x.history (x'.db.Opens prim rootKey x.vaultId o)) →
        verifyActiveObjectsWithWitness prim (p.provider prim) x' = .ok n y →
          n.toNat = x'.db.objects.rows.length ∧ ∀ b, x'.db.objects.lookup b ≠ none →
            ∃ s ∈ submissions, ∃ head receipt, s.objectId.blob = b ∧
              FreshlyConfirmed prim p s.objectId x' y head receipt ∧
              head.versionId = some s.versionId ∧
              ∀ bytes z, get prim s.objectId y = .ok bytes z → bytes = s.plaintext := by
  obtain ⟨submissions, hsupplied, haccounts⟩ :=
    Ledger.of_create (p.provider prim) hnew hcreate calls
  rw [hx] at haccounts
  have hunique : ∀ s ∈ submissions, ∀ s' ∈ submissions, s.versionId = s'.versionId → s = s' :=
    fun s hs s' hs' heq => haccounts.unique hfresh hs hs' heq
  refine ⟨submissions, haccounts, hsupplied, hunique, fun x' n y hvault hunforged hsweep => ?_⟩
  obtain ⟨hy, -, hcount, hheads⟩ := verifyActiveObjectsWithWitness_ok
    (HttpsWitnessProvider.provider prim p).keeps_untouched hsweep
  -- wherever vault and tables are those of `x'`, so are the records that a read opens
  have hkeys : ∀ (o : ObjectId) (z : World ω), x'.Untouched z → ∀ rootKey,
      z.vault.rootKey = some rootKey →
        Unforged prim x.history (z.db.Opens prim rootKey z.vaultId o) := by
    intro o z hz rootKey hkey
    rw [hz.vault, hvault] at hkey
    rw [World.vaultId, hz.vault, hvault, hz.db]
    exact hunforged o rootKey hkey
  refine ⟨hcount, fun b hb => ?_⟩
  obtain ⟨o, c, head, receipt, rfl, hhead⟩ := hheads b hb
  -- the sweep has read the object in a state with the same vault and tables
  obtain ⟨z, z', hz, hread⟩ := hhead.readable
  obtain ⟨s, hs, rfl, hversion⟩ := getToWriterInner_submitted haccounts hfresh
    (hz.db ▸ hhead.active) (hkeys o z hz) hread
  refine ⟨s, hs, head, receipt, rfl, hhead.confirmed, ?_, fun bytes z hget => ?_⟩
  · rw [hversion]
    exact hhead.equal.2.1
  · obtain ⟨s', hs', hversion', rfl⟩ := get_active_submission haccounts hfresh
      (hy.db ▸ hhead.active) (hkeys s.objectId y hy) hget
    rw [hunique s hs s' hs' (hversion.trans hversion'.symm)]

end

/-! ### Samples -/

/-- An object is stored through the witness, and then stored again. -/
def acknowledgedCalls : List VaultCall :=
  [.putWithWitness (.repeated 3) [97], .putWithWitness (.repeated 3) [101]]

/-- The state in which the vault is verified. -/
def acknowledgedState : World SampleChannel :=
  (Run.final mapSession ⟨mapWorld, true⟩ acknowledgedCalls).world

/-- The verification of the sample. -/
def acknowledgedSweep : Outcome VaultError (World SampleChannel) UInt64 :=
  verifyActiveObjectsWithWitness .transparent (sampleTrust.provider .transparent) acknowledgedState

/-- What happens in the sample, in one evaluation. -/
theorem acknowledged_run :
    (drawnVersions acknowledgedState.history).Nodup ∧
    (∀ row ∈ acknowledgedState.db.objects.rows, row.1 = (Identifier.repeated 3 : ObjectId).blob) ∧
    (∀ record ∈ acknowledgedState.db.recordsOf (.repeated 3),
      wasSealed .transparent acknowledgedState.history record = true) ∧
    acknowledgedState.db.objects.lookup (Identifier.repeated 3 : ObjectId).blob ≠ none ∧
    acknowledgedSweep.result = some (.ok 1) ∧
    (get .transparent (.repeated 3) acknowledgedSweep.state).result = some (.ok [101]) := by
  decide +kernel

/-- If the database has one object and its records were sealed, nothing in it is forged. -/
theorem unforged_single {history : List Event} {rootKey : Block 32} {v : VaultId} {o : ObjectId}
    {db : Database} (hrows : ∀ row ∈ db.objects.rows, row.1 = o.blob)
    (hsealed : ∀ record ∈ db.recordsOf o, wasSealed .transparent history record = true)
    (o' : ObjectId) : Unforged .transparent history (db.Opens .transparent rootKey v o') := by
  refine unforged_of_sealed Primitives.idealAead_transparent fun key aad record hopens => ?_
  obtain ⟨u, _, hactive, -⟩ := id hopens
  have hrow := Table.mem_rows.mpr (Database.selectActive_eq_ok.mp hactive)
  obtain rfl : o' = o := Identifier.blob_inj.mp (hrows _ hrow)
  exact hsealed record hopens.mem_recordsOf

/-- The verified sample: the plaintext of the head's version is what is read. -/
theorem verified_content_sample :
    ∃ version : VersionId, ∃ head : WitnessHead, head.versionId = some version ∧
      .headObtained head ∈ acknowledgedSweep.state.history ∧
      (get .transparent (.repeated 3) acknowledgedSweep.state).result = some (.ok [101]) ∧
      ∃ call ∈ acknowledgedCalls, call.Supplies (.repeated 3) [101] := by
  obtain ⟨hnodup, hrows, hsealed, hrow, hsweep, hget⟩ := acknowledged_run
  have hrun : (Run.final mapSession ⟨mapWorld, true⟩ acknowledgedCalls).world = acknowledgedState := rfl
  obtain ⟨submissions, -, hsupplied, -, hcontent⟩ :=
    verified_content rfl create_mapWorld acknowledgedCalls hrun hnodup
  obtain ⟨-, hobjects⟩ := hcontent acknowledgedState 1 acknowledgedSweep.state rfl
    (fun o _ _ => unforged_single hrows hsealed o) (Outcome.eq_ok_of_result hsweep)
  obtain ⟨s, hs, head, receipt, ho, hconfirmed, hversion, hbytes⟩ := hobjects _ hrow
  have hobject : s.objectId = .repeated 3 := Identifier.blob_inj.mp ho
  rw [hobject] at hbytes
  obtain ⟨earlier, later, hrecorded⟩ := hconfirmed.recorded
  refine ⟨s.versionId, head, hversion, ?_, hget, ?_⟩
  · rw [hrecorded]
    simp
  · have hsupplies := hsupplied s hs
    rwa [hobject, ← hbytes _ _ (Outcome.eq_ok_of_result hget)] at hsupplies

end Vlt1

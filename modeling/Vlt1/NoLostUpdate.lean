import Vlt1.StoreInvariant

/-!
# Recovery and later publications

`recoverPendingWitnessPublications` points an object at its staged version whatever it points at by
then. A version published in between is lost, as `recovery_reverts_later_put` shows.

`recovery_keeps_updates` is what holds: if nothing is published for an object while one of its
versions is staged, then a recovery moves the pointer of an object only from the version it had all
the time since the staging. The invariant is `Orderly`.
-/

namespace Vlt1

open Effect

/-- A version of the object is staged. -/
def Database.StagedFor (db : Database) (version object : Bytes) : Prop :=
  db.pending.lookup version ≠ none ∧
    ∃ row, db.versions.lookup version = some row ∧ row.objectId = object

theorem Database.Staged.stagedFor {db : Database} {v : StoredVersion} {e : UInt64}
    (h : db.Staged v e) : db.StagedFor v.versionId.blob v.objectId.blob :=
  ⟨h.pending_ne_none, v.toRow, (selectVersion_eq_ok.mp h.version).2.2, rfl⟩

/-- Staged versions have their rows and belong to different objects, and as long as a version has
been staged the pointer of its object has not moved. -/
structure Orderly (db : Database) (commits : List Database) : Prop where
  known : ∀ b, db.pending.lookup b ≠ none → db.versions.lookup b ≠ none
  single : ∀ b b' k, db.StagedFor b k → db.StagedFor b' k → b = b'
  /-- What was ever staged still has its row. -/
  kept : ∀ earlier ∈ commits, ∀ b, earlier.pending.lookup b ≠ none → db.versions.lookup b ≠ none
  unmoved : ∀ earlier ∈ commits, ∀ b k, earlier.pending.lookup b ≠ none → db.StagedFor b k →
    earlier.objects.lookup k = db.objects.lookup k

namespace Orderly

variable {db db' : Database} {commits : List Database}

/-- A vault that never had a staged version. -/
theorem start (h : ∀ b, db.pending.lookup b = none)
    (hcommits : ∀ earlier ∈ commits, ∀ b, earlier.pending.lookup b = none) :
    Orderly db commits where
  known b hb := absurd (h b) hb
  single b _ _ hb := absurd (h b) hb.1
  kept earlier he b hb := absurd (hcommits earlier he b) hb
  unmoved earlier he b _ hb := absurd (hcommits earlier he b) hb

/-- A new envelope. -/
theorem replaceEnvelope (h : Orderly db commits) {envelope : RootEnvelope}
    (hbody : db.replaceEnvelopeBody envelope = .ok db') : Orderly db' (db' :: commits) := by
  obtain ⟨row, -, -, rfl⟩ := Database.replaceEnvelopeBody_eq_ok.mp hbody
  refine ⟨h.known, h.single, fun earlier he b hb => ?_, fun earlier he b k hb hk => ?_⟩
  · rcases List.mem_cons.mp he with rfl | he
    · exact h.known b hb
    · exact h.kept earlier he b hb
  · rcases List.mem_cons.mp he with rfl | he
    · rfl
    · exact h.unmoved earlier he b k hb hk

theorem publish (h : Orderly db commits) {d : Draft}
    (hfresh : db.versions.lookup d.versionId.blob = none)
    (hnone : ∀ b, ¬db.StagedFor b d.objectId.blob) :
    Orderly (d.published db) (d.published db :: commits) := by
  have hgrow : ∀ b, db.versions.lookup b ≠ none → (d.addTo db).versions.lookup b ≠ none :=
    fun b hb => by rwa [(Draft.lookup_version_of_ne_none hfresh hb).2]
  -- the new version is not staged, so the staged ones are the same
  have hstaged : ∀ b k, (d.published db).StagedFor b k → db.StagedFor b k := by
    rintro b k ⟨hb, row, hrow, hk⟩
    refine ⟨hb, row, ?_, hk⟩
    rwa [show (d.published db).versions.lookup b = _ from
      (Draft.lookup_version_of_ne_none hfresh (h.known b hb)).2] at hrow
  refine ⟨fun b hb => hgrow b (h.known b hb), fun b b' k hb hb' => ?_, fun earlier he b hb => ?_,
    fun earlier he b k hb hk => ?_⟩
  · exact h.single b b' k (hstaged b k hb) (hstaged b' k hb')
  · rcases List.mem_cons.mp he with rfl | he
    · exact hgrow b (h.known b hb)
    · exact hgrow b (h.kept earlier he b hb)
  · rcases List.mem_cons.mp he with rfl | he
    · rfl
    · have hold := hstaged b k hk
      refine (h.unmoved earlier he b k hb hold).trans (.symm ?_)
      refine (Table.lookup_insert_eq _ _ _ _).trans (if_neg ?_)
      rintro rfl
      exact hnone b hold

theorem stage (h : Orderly db commits) {d : Draft} {e : UInt64}
    (hfresh : db.versions.lookup d.versionId.blob = none)
    (hnone : ∀ b, ¬db.StagedFor b d.objectId.blob) :
    Orderly (d.staged e db) (d.staged e db :: commits) := by
  have hpending : ∀ b, (d.staged e db).pending.lookup b =
      if b = d.versionId.blob then some (e.toNat : ℤ) else db.pending.lookup b :=
    fun b => Table.lookup_insert_eq _ _ _ _
  have hversions : ∀ b, (d.staged e db).versions.lookup b =
      if b = d.versionId.blob then some d.storedVersion.toRow else db.versions.lookup b :=
    Draft.lookup_version
  -- what is staged now was staged before, or is the new version
  have hstaged : ∀ b k, (d.staged e db).StagedFor b k →
      db.StagedFor b k ∨ b = d.versionId.blob ∧ k = d.objectId.blob := by
    rintro b k ⟨hb, row, hrow, hk⟩
    rw [hpending] at hb
    rw [hversions] at hrow
    by_cases heq : b = d.versionId.blob
    · rw [if_pos heq] at hrow
      obtain rfl := Option.some.inj hrow
      exact .inr ⟨heq, hk.symm⟩
    · rw [if_neg heq] at hb hrow
      exact .inl ⟨hb, row, hrow, hk⟩
  have hgrow : ∀ b, db.versions.lookup b ≠ none → (d.staged e db).versions.lookup b ≠ none :=
    fun b hb => by rwa [show (d.staged e db).versions.lookup b = _ from
      (Draft.lookup_version_of_ne_none hfresh hb).2]
  have hknown : ∀ b, (d.staged e db).pending.lookup b ≠ none →
      (d.staged e db).versions.lookup b ≠ none := by
    intro b hb
    by_cases heq : b = d.versionId.blob
    · rw [hversions, if_pos heq]
      nofun
    · rw [hpending, if_neg heq] at hb
      exact hgrow b (h.known b hb)
  refine ⟨hknown, fun b b' k hb hb' => ?_, fun earlier he b hb => ?_, fun earlier he b k hb hk => ?_⟩
  · rcases hstaged b k hb with hb | ⟨rfl, rfl⟩
    · rcases hstaged b' k hb' with hb' | ⟨rfl, rfl⟩
      · exact h.single b b' k hb hb'
      · exact absurd hb (hnone b)
    · rcases hstaged b' _ hb' with hb' | ⟨rfl, -⟩
      · exact absurd hb' (hnone b')
      · rfl
  · rcases List.mem_cons.mp he with rfl | he
    · exact hknown b hb
    · exact hgrow b (h.kept earlier he b hb)
  · rcases List.mem_cons.mp he with rfl | he
    · rfl
    · rcases hstaged b k hk with hk | ⟨rfl, -⟩
      · exact h.unmoved earlier he b k hb hk
      · -- the identifier is new, so no earlier version was staged under it
        exact absurd hfresh (h.kept earlier he _ hb)

theorem finalize (h : Orderly db commits) {v : StoredVersion} {r : WitnessReceipt}
    (hversion : db.selectVersion v.versionId = .ok v) (hbody : db.finalizeBody v r = .ok db') :
    Orderly db' (db' :: commits) := by
  obtain ⟨⟨e, hpending⟩, -, -, -, -, rfl⟩ := Database.finalizeBody_eq_ok.mp hbody
  have hself : db.StagedFor v.versionId.blob v.objectId.blob :=
    Database.Staged.stagedFor ⟨hversion, hpending⟩
  have hpending' : ∀ b, (db.pending.erase v.versionId.blob).lookup b ≠ none →
      db.pending.lookup b ≠ none ∧ b ≠ v.versionId.blob := by
    intro b hb
    rw [Table.lookup_erase_eq] at hb
    by_cases heq : b = v.versionId.blob
    · rw [if_pos heq] at hb
      exact absurd rfl hb
    · rw [if_neg heq] at hb
      exact ⟨hb, heq⟩
  refine ⟨fun b hb => h.known b (hpending' b hb).1, ?_, fun earlier he b hb => ?_, ?_⟩
  · rintro b b' k ⟨hb, hrow⟩ ⟨hb', hrow'⟩
    exact h.single b b' k ⟨(hpending' b hb).1, hrow⟩ ⟨(hpending' b' hb').1, hrow'⟩
  · rcases List.mem_cons.mp he with rfl | he
    · exact h.known b (hpending' b hb).1
    · exact h.kept earlier he b hb
  · rintro earlier he b k hb ⟨hk, hrow⟩
    obtain ⟨hk, hne⟩ := hpending' b hk
    rcases List.mem_cons.mp he with rfl | he
    · rfl
    · show earlier.objects.lookup k = (db.objects.insert v.objectId.blob v.versionId.blob).lookup k
      rw [Table.lookup_insert_eq, if_neg]
      · exact h.unmoved earlier he b k hb ⟨hk, hrow⟩
      · rintro rfl
        exact hne (h.single b _ _ ⟨hk, hrow⟩ hself)

end Orderly

/-! ### Runs -/

section

variable {ω : Type} {prim : Primitives} {call : VaultCall} {w₀ w w' : World ω}

/-- The call stores a version for the object. -/
def VaultCall.StoresFor : VaultCall → ObjectId → Prop
  | .put o _ _, o' | .putFromReader o _ _, o' | .putWithWitness o _, o' => o = o'
  | _, _ => False

/-- A call may store a version for an object only while no version of the object is staged. -/
def VaultCall.Waits (call : VaultCall) (db : Database) : Prop :=
  ∀ o, call.StoresFor o → ∀ b, ¬db.StagedFor b o.blob

theorem VaultCall.Publishes.storesFor {d : Draft} (h : call.Publishes d) :
    call.StoresFor d.objectId := by
  cases call <;> first
    | exact (Draft.Of.object h).symm
    | exact (Draft.OfReader.object h).symm
    | exact h.elim

theorem VaultCall.Stages.storesFor {d : Draft} (h : call.Stages d) :
    call.StoresFor d.objectId := by
  cases call <;> first
    | exact (Draft.Of.object h).symm
    | exact h.elim

theorem Orderly.change (hwaits : call.Waits w₀.db) (hchange : Change prim call w₀ w w')
    (h : Orderly w.db w.commits) : Orderly w'.db w'.commits := by
  cases hchange with
  | quiet hquiet =>
    rw [hquiet.db, hquiet.commits]
    exact h
  | locked heq | unlocked _ _ _ heq | opened _ _ heq => subst heq; exact h
  | replaced _ _ _ _ _ hbody heq | rotated _ _ _ _ _ hbody heq =>
    subst heq
    exact h.replaceEnvelope hbody
  | published hcall hfirst hnew heq =>
    subst heq
    exact h.publish hnew.fresh (hfirst.db ▸ hwaits _ hcall.storesFor)
  | staged hcall hfirst hnew _ _ heq =>
    subst heq
    exact h.stage hnew.fresh (hfirst.db ▸ hwaits _ hcall.storesFor)
  | finalized _ hstaged _ hbody _ hcommits =>
    rw [hcommits]
    exact h.finalize hstaged.version hbody

/-- A recovery moves pointers only to versions that were staged when it began. -/
theorem Changes.recovered (h : Changes prim .recover w₀ w w') :
    (∀ b k, w'.db.StagedFor b k → w.db.StagedFor b k) ∧
      ∀ k, w'.db.objects.lookup k ≠ w.db.objects.lookup k →
        ∃ b, w'.db.objects.lookup k = some b ∧ w.db.StagedFor b k := by
  let J (x : World ω) : Prop :=
    (∀ b k, x.db.StagedFor b k → w.db.StagedFor b k) ∧
      ∀ k, x.db.objects.lookup k ≠ w.db.objects.lookup k →
        ∃ b, x.db.objects.lookup k = some b ∧ w.db.StagedFor b k
  refine h.invariant (I := J) (fun x x' hchange hx => ?_) ⟨fun _ _ h => h, fun k hk => absurd rfl hk⟩
  obtain ⟨hstaged, hmoved⟩ := hx
  cases hchange with
  | quiet hquiet =>
    show _ ∧ _
    rw [hquiet.db]
    exact ⟨hstaged, hmoved⟩
  | locked heq => subst heq; exact ⟨hstaged, hmoved⟩
  | unlocked hcall | opened hcall | replaced hcall | rotated hcall => cases hcall
  | published hcall | staged hcall => exact hcall.elim
  | @finalized v e r _ hv _ hbody _ _ =>
    have hself : w.db.StagedFor v.versionId.blob v.objectId.blob := hstaged _ _ hv.stagedFor
    obtain ⟨-, -, -, -, -, hdb⟩ := Database.finalizeBody_eq_ok.mp hbody
    constructor
    · rintro b k ⟨hb, hrow⟩
      rw [hdb] at hb hrow
      simp only [Table.lookup_erase_eq, ne_eq, ite_eq_left_iff, not_forall] at hb
      exact hstaged b k ⟨hb.2, hrow⟩
    · intro k hk
      rw [hdb] at hk ⊢
      simp only [Table.lookup_insert_eq] at hk ⊢
      by_cases heq : k = v.objectId.blob
      · subst heq
        exact ⟨_, if_pos rfl, hself⟩
      · rw [if_neg heq] at hk ⊢
        exact hmoved k hk

variable [Machine ω] [Exclusive ω] {provider : WitnessProvider ω}

/-- **Recovery loses no update.** As long as no call stores a version for an object with a staged
version, a recovery points an object only at a version that was staged, and the pointer it replaces
is the one the object had in every state committed since that version was staged. -/
theorem recovery_keeps_updates {s : SessionState ω} (hcreated : s.world.Created)
    (calls : List VaultCall)
    (hwaits : ∀ t ∈ Run.trace (sessionStep prim provider) s calls,
      t.input.Waits t.before.world.db) :
    ∀ t ∈ Run.trace (sessionStep prim provider) s calls, t.input = .recover → ∀ k,
      t.after.world.db.objects.lookup k ≠ t.before.world.db.objects.lookup k →
      ∃ b, t.after.world.db.objects.lookup k = some b ∧ t.before.world.db.StagedFor b k ∧
        ∀ earlier ∈ t.before.world.commits, earlier.pending.lookup b ≠ none →
          earlier.objects.lookup k = t.before.world.db.objects.lookup k := by
  intro t ht hrecover k hk
  have hempty : ∀ b, s.world.db.pending.lookup b = none := fun b => by
    rw [hcreated.empty]
    rfl
  have hstart : Orderly s.world.db s.world.commits := by
    refine .start hempty fun earlier he b => ?_
    rw [hcreated.commits, List.mem_singleton] at he
    rw [he]
    exact hempty b
  have horderly : Orderly t.before.world.db t.before.world.commits :=
    ((Run.guarded_invariant (sessionStep prim provider)
      (I := fun s => Orderly s.world.db s.world.commits)
      (fun s call => call.Waits s.world.db)
      (fun s call hs hcall => (sessionStep_changes s call).invariant
        (fun _ _ => Orderly.change hcall) hs) hstart hwaits).2 t ht).1
  have hafter := congrArg Run.Transition.after (Run.eq_transition_of_mem _ ht)
  have hchanges : Changes prim .recover t.before.world t.before.world t.after.world := by
    rw [hafter, ← hrecover]
    exact sessionStep_changes _ _
  obtain ⟨b, hb, hstaged⟩ := hchanges.recovered.2 k hk
  exact ⟨b, hb, hstaged, fun earlier he hpending => horderly.unmoved earlier he b k hpending hstaged⟩

end

/-- The sample vault, in front of a witness whose replies are lost at the first eight
interactions. -/
def lossyWorld : World SampleChannel :=
  { sampleWorld with
    outside := { sampleWorld.outside with
      choices := (List.range 24).map fun i =>
        { random := [UInt8.ofNat (i + 1)], returns := decide (8 ≤ i) } } }

theorem created_lossyWorld : lossyWorld.Created :=
  ⟨created_sampleWorld.commits, created_sampleWorld.empty⟩

/-- A call of the sample program. -/
abbrev sampleSession : SessionState SampleChannel → VaultCall →
    Option (Except VaultError CallResult) × SessionState SampleChannel :=
  sessionStep .checksum (sampleTrust.provider .checksum)

/-- The reply to the first call is lost, and its version stays staged. -/
def recoveryCalls : List VaultCall :=
  [.putWithWitness (.repeated 2) [97], .unlock [112], .recover]

/-- In the sample run, the recovery moves a pointer. -/
theorem recovery_keeps_updates_sample :
    (∀ t ∈ Run.trace sampleSession ⟨lossyWorld, true⟩ recoveryCalls,
      t.input.Waits t.before.world.db) ∧
    ∃ t ∈ Run.trace sampleSession ⟨lossyWorld, true⟩ recoveryCalls, t.input = .recover ∧
      ∃ b, t.after.world.db.objects.lookup (List.replicate 16 2) = some b ∧
        t.before.world.db.StagedFor b (List.replicate 16 2) := by
  have hwaits : ∀ t ∈ Run.trace sampleSession ⟨lossyWorld, true⟩ recoveryCalls,
      t.input.Waits t.before.world.db := by
    intro t ht o ho b hb
    rcases List.mem_cons.mp ht with rfl | ht
    · -- the first call finds an empty vault
      refine hb.1 ?_
      rw [show (Run.transition sampleSession ⟨lossyWorld, true⟩ _).before.world.db = _ from
        created_lossyWorld.empty]
      rfl
    · -- the others store nothing
      rcases List.mem_cons.mp ht with rfl | ht
      · exact ho
      · rcases List.mem_cons.mp ht with rfl | ht
        · exact ho
        · cases ht
  let t := Run.transition sampleSession
    (Run.final sampleSession ⟨lossyWorld, true⟩ (recoveryCalls.take 2)) .recover
  have ht : t ∈ Run.trace sampleSession ⟨lossyWorld, true⟩ recoveryCalls := by
    rw [show recoveryCalls = recoveryCalls.take 2 ++ [.recover] from rfl, Run.trace_append]
    exact List.mem_append_right _ List.mem_cons_self
  have hmoved : t.after.world.db.objects.lookup (List.replicate 16 2) ≠
      t.before.world.db.objects.lookup (List.replicate 16 2) := by
    decide +kernel
  have hcreated : World.Created (SessionState.world ⟨lossyWorld, true⟩) := created_lossyWorld
  obtain ⟨b, hb, hstaged, -⟩ :=
    recovery_keeps_updates hcreated recoveryCalls hwaits t ht rfl _ hmoved
  exact ⟨hwaits, t, ht, rfl, b, hb, hstaged⟩

/-- The version of the first call stays staged while the object is stored again. -/
def revertingCalls : List VaultCall :=
  [.putWithWitness (.repeated 2) [97], .unlock [112], .put (.repeated 2) [98] 1, .recover]

/-- A version stored after the staging is lost in a recovery: the object reads `[98]` before it and
`[97]` after it. -/
theorem recovery_reverts_later_put :
    ∃ t ∈ Run.trace sampleSession ⟨lossyWorld, true⟩ revertingCalls, t.input = .recover ∧
      (∃ earlier ∈ t.before.world.commits,
        earlier.pending.lookup (Channel.randomOf 16 [1]).toList ≠ none ∧
        earlier.objects.lookup (List.replicate 16 2) = none) ∧
      t.before.world.db.objects.lookup (List.replicate 16 2) = some (Channel.randomOf 16 [9]).toList ∧
      t.after.world.db.objects.lookup (List.replicate 16 2) = some (Channel.randomOf 16 [1]).toList ∧
      (get .checksum (.repeated 2) t.before.world).result = some (.ok [98]) ∧
      (get .checksum (.repeated 2) t.after.world).result = some (.ok [97]) := by
  refine ⟨Run.transition sampleSession
    (Run.final sampleSession ⟨lossyWorld, true⟩ (revertingCalls.take 3)) .recover, ?_, rfl, ?_, ?_⟩
  · rw [show revertingCalls = revertingCalls.take 3 ++ [.recover] from rfl, Run.trace_append]
    exact List.mem_append_right _ List.mem_cons_self
  · decide +kernel
  · decide +kernel

end Vlt1

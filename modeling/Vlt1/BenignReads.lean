import Vlt1.FailClosed
import Vlt1.UnlockGate

/-!
# Absence is the only benign read failure

A read that fails because the object does not exist leaves the vault unlocked; every other failed
read, and every failed sweep over the active objects, should lock it. The tables may hold anything:
they can have been changed by another program after the vault was opened.

`selectVersion` reports `notFound` for a missing row like `selectActive` does, so an active pointer to
a version without a row looks like an absent object. `benign_reads_iff` says that this is the only
exception: reads fail as they should exactly when every active pointer names a version that has a row.
-/

namespace Vlt1

open Effect

/-- Every active pointer names a version that has a row. -/
def Database.PointersResolve (db : Database) : Prop :=
  ∀ o u, db.selectActive o = .ok u → db.versions.lookup u.blob ≠ none

/-- How reads of an unlocked vault should fail. -/
structure BenignReads {ω : Type} [Machine ω] (prim : Primitives) (w : World ω) : Prop where
  /-- An object is reported as absent only if it has no pointer. -/
  absent : ∀ o w', get prim o w = .failed .notFound w' → w.db.objects.lookup o.blob = none
  /-- Every other failed read locks the vault. -/
  locks : ∀ o e w', get prim o w = .failed e w' → e ≠ .notFound → w'.vault.status = .locked
  /-- Every failed sweep locks the vault. -/
  sweep : ∀ e w', verifyActiveObjects prim w = .failed e w' → w'.vault.status = .locked

section

variable {ω : Type} [Machine ω] [Exclusive ω] {prim : Primitives} {w w' : World ω} {e : VaultError}

theorem Database.PointersResolve.lookup_eq_none {db : Database} {o : ObjectId}
    (h : db.PointersResolve) (ho : db.Missing o) : db.objects.lookup o.blob = none :=
  ho.resolve_right fun ⟨u, hactive, hnone⟩ => h o u hactive hnone

/-- How `get` fails on an unlocked vault. -/
theorem get_failed {o : ObjectId} (hkey : w.vault.rootKey ≠ none)
    (h : get prim o w = .failed e w') :
    e.Locks ∧ w'.vault.status = .locked ∨ e = .notFound ∧ w.db.Missing o := by
  obtain ⟨w1, hinner, rfl⟩ := lockAfterFailure_eq_failed.mp h
  rw [getInner, Op.bind_of_ok (Op.modify_apply _ _)] at hinner
  rcases Op.bind_eq_failed.mp hinner with hread | ⟨_, w2, -, hsink⟩
  · rcases getToWriterInner_failed (by exact hkey) hread with hlocks | hmissing
    · rw [if_pos (show e.requiresLock = true from hlocks)]
      exact .inl ⟨hlocks, status_locked rfl⟩
    · exact .inr hmissing
  · rw [Op.bind_of_ok (Op.get_apply _)] at hsink
    cases hsink

/-- How a sweep fails on an unlocked vault: some listed object is missing, or the vault locks. -/
theorem verifyActiveObjects_failed (hkey : w.vault.rootKey ≠ none)
    (h : verifyActiveObjects prim w = .failed e w') :
    w'.vault.status = .locked ∨
      ∃ o : ObjectId, o.blob ∈ w.db.selectObjectKeys ∧ w.db.Missing o := by
  obtain ⟨w1, hinner, rfl⟩ := lockAfterFailure_eq_failed.mp h
  have hcases : e.Locks ∨ ∃ o : ObjectId, o.blob ∈ w.db.selectObjectKeys ∧ w.db.Missing o := by
    obtain ⟨rootKey, hlist⟩ := bind_requireRootKey_failed hkey hinner
    rcases Op.bind_eq_failed.mp hlist with hids | ⟨ids, w3, hids, hloop⟩
    · exact .inl (Op.Fails.bind (fails_query fun _ => Throws.ok _)
        (fun _ => Op.Fails.ofExcept (throws_mapM_fromSlice _)) _ _ _ hids)
    rcases Op.bind_eq_failed.mp hloop with hsweep | ⟨_, w4, -, hcount⟩
    · -- the object at which the sweep stopped is one of those listed before
      obtain ⟨hkeys, hw3⟩ := activeObjectIds_ok hids
      obtain ⟨o, ho, _, w4, hw4, hread⟩ := Op.Keeps.failed_of_fold (R := World.Untouched)
        (fun _ o => keeps_getToWriterInner prim o .discard) hsweep
      rcases getToWriterInner_failed (by rwa [hw4.vault, hw3.vault]) hread with hlocks | hmissing
      · exact .inl hlocks
      · rw [hw4.db, hw3.db] at hmissing
        exact .inr ⟨o, hkeys ▸ List.mem_map_of_mem ho, hmissing.2⟩
    · exact .inl (fails_countOf _ _ _ _ _ hcount)
  refine hcases.imp_left fun hlocks => ?_
  rw [if_pos (show e.requiresLock = true from hlocks)]
  exact status_locked rfl

/-- With resolving pointers, reads fail as they should in any surroundings. -/
theorem benignReads_of_pointersResolve (hkey : w.vault.rootKey ≠ none)
    (h : w.db.PointersResolve) : BenignReads prim w where
  absent o w' hget := by
    rcases get_failed hkey hget with ⟨hlocks, -⟩ | ⟨-, hmissing⟩
    · cases hlocks
    · exact h.lookup_eq_none hmissing
  locks o e w' hget hne := by
    rcases get_failed hkey hget with ⟨-, hlocked⟩ | ⟨hnotFound, -⟩
    · exact hlocked
    · exact absurd hnotFound hne
  sweep e w' hsweep := by
    rcases verifyActiveObjects_failed hkey hsweep with hlocked | ⟨o, ho, hmissing⟩
    · exact hlocked
    · exact absurd (h.lookup_eq_none hmissing) (Database.mem_selectObjectKeys.mp ho)

/-- Where storage works, an object without a readable version is reported as absent and the vault
stays as it is. -/
theorem get_of_missing {v : Vault} {db : Database} {sink : Bytes} {o : ObjectId}
    {rootKey : Block 32} (hkey : v.rootKey = some rootKey) (ho : db.Missing o)
    (hw : w.Shows v db sink) : ∃ w', get prim o w = .failed .notFound w' ∧ w'.vault = v := by
  have hinner : Op.Triple (World.Shows (ω := ω) v db sink) (getInner prim o) (fun _ _ => False)
      fun stop w => stop = some .notFound ∧ w.Shows v db [] := by
    refine Op.Triple.bind (fun _ => World.Shows v db [])
      (fun w hw => ⟨hw.vault, hw.db, rfl, hw.reliable⟩) fun _ => ?_
    exact Op.Triple.bind _ (triple_getToWriterInner_notFound hkey ho .vector) fun _ _ h => h.elim
  have hread := hinner w hw
  cases hrun : getInner prim o w with
  | ok a w1 => rw [hrun] at hread; exact hread.elim
  | crashed w1 => rw [hrun] at hread; cases hread.1
  | failed e w1 =>
    rw [hrun] at hread
    obtain rfl := Option.some.inj hread.1
    exact ⟨w1, lockAfterFailure_eq_failed.mpr ⟨w1, hrun, rfl⟩, hread.2.vault⟩

end

/-- For an unlocked vault and tables of any content, reads fail as they should in all surroundings
exactly when every active pointer names a version that has a row. -/
theorem benign_reads_iff {prim : Primitives} {v : Vault} {db : Database}
    (hopen : v.status = .unlocked) :
    (∀ (ω : Type) [Machine ω] [Exclusive ω] (w : World ω), w.vault = v → w.db = db →
      BenignReads prim w) ↔ db.PointersResolve := by
  obtain ⟨rootKey, hkey⟩ : ∃ k, v.rootKey = some k := by
    unfold Vault.status at hopen
    cases hk : v.rootKey with
    | none => rw [hk] at hopen; cases hopen
    | some k => exact ⟨k, rfl⟩
  constructor
  · -- a dangling pointer shows in surroundings where everything works
    intro h o u hactive hnone
    let w : World (Calm .ownerPrivate .unavailable) := ⟨v, db, [], [], ⟨⟩⟩
    obtain ⟨w', hget, -⟩ : ∃ w', get prim o w = .failed .notFound w' ∧ w'.vault = v :=
      get_of_missing hkey (.inr ⟨u, hactive, hnone⟩) ⟨rfl, rfl, rfl, Calm.reliable _⟩
    have habsent := (h _ w rfl rfl).absent o w' hget
    change db.objects.lookup o.blob = none at habsent
    rw [Database.selectActive, habsent] at hactive
    cases hactive
  · rintro h ω _ _ w rfl rfl
    exact benignReads_of_pointersResolve (by rw [hkey]; exact Option.some_ne_none _) h

/-- An unlocked vault. -/
def openSample : Vault :=
  ⟨⟨.repeated 1, .zero 16, .interactive, ⟨.zero 12, []⟩⟩, some (.zero 32)⟩

/-- Tables whose only pointer names a version without a row. -/
def danglingSample : Database := Database.empty.upsertActive (.repeated 2) (.repeated 3)

/-- The tables of the sample vault after one byte was stored and its ciphertext was cut off. -/
def tamperedSample : Database :=
  let db := (put .checksum (.repeated 2) [97] sampleWorld).state.db
  { db with chunks := db.chunks.rows.foldl (fun t row => t.insert row.1 { row.2 with ciphertext := [] }) ∅ }

/-- Reads of these tables fail as they should in all surroundings: that of the stored object locks the vault,
and that of another reports absence. -/
theorem benign_reads_tampered :
    (∀ (ω : Type) [Machine ω] [Exclusive ω] (w : World ω), w.vault = sampleWorld.vault →
        w.db = tamperedSample → BenignReads .checksum w) ∧
      let w : World (Calm .ownerPrivate .unavailable) := ⟨sampleWorld.vault, tamperedSample, [], [], ⟨⟩⟩
      ((get .checksum (.repeated 2) w).result = some (.error .authentication) ∧
        (get .checksum (.repeated 2) w).state.vault.status = .locked) ∧
      (get .checksum (.repeated 4) w).result = some (.error .notFound) ∧
        (get .checksum (.repeated 4) w).state.vault.status = .unlocked := by
  have hrows : sampleWorld.vault.status = .unlocked ∧
      ∀ row ∈ tamperedSample.objects.rows, tamperedSample.versions.lookup row.2 ≠ none := by
    decide +kernel
  refine ⟨(benign_reads_iff hrows.1).mpr fun o u hactive => ?_, by decide +kernel⟩
  exact hrows.2 (o.blob, u.blob) (Table.mem_rows.mpr (Database.selectActive_eq_ok.mp hactive))

/-- A pointer to a version without a row: the object is reported as absent although it has a pointer,
and neither the read nor the sweep locks the vault. -/
theorem dangling_pointer_keeps_open :
    let w : World (Calm .ownerPrivate .unavailable) := ⟨openSample, danglingSample, [], [], ⟨⟩⟩
    let o : ObjectId := .repeated 2
    w.vault.status = .unlocked ∧ w.db.objects.lookup o.blob ≠ none ∧
      (get .checksum o w).result = some (.error .notFound) ∧
      (get .checksum o w).state.vault.status = .unlocked ∧
      (verifyActiveObjects .checksum w).result = some (.error .notFound) ∧
      (verifyActiveObjects .checksum w).state.vault.status = .unlocked := by
  decide +kernel

end Vlt1

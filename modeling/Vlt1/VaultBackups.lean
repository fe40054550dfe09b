import Vlt1.Backup
import Vlt1.FailClosed
import Vlt1.ResponseFrames

/-!
# Backups of a vault

The vault asks its surroundings for a backup and gets an answer (`Machine.backup`). On a `Volume` that answer is
what `create_snapshot` returns on a file system.

`backup_to` does not lock the vault, so after a backup that fails with an error that calls for it the vault
stays open. `staysOpen_backupTo_iff` says when that is, in terms of the file system and the calls that fail:
the backup is not completed, and not because a path was refused.
-/

namespace Vlt1.Backup

open Effect Files Protocol

/-! ### Refused paths -/

/-- The computation fails with `InvalidInput`. -/
def Refuses {α : Type} (x : DiskOp α) (t : FileSystem) : Prop :=
  ∃ input t', x t = .failed (.invalidInput input) t'

section

variable {α β : Type} {t : FileSystem} {x : DiskOp α}

/-- A sequence refuses its input in its first part, or in the second after the first returned. -/
theorem refuses_bind_iff {f : α → DiskOp β} :
    Refuses (x >>= f) t ↔ Refuses x t ∨ ∃ a t', x t = .ok a t' ∧ Refuses (f a) t' := by
  constructor
  · rintro ⟨input, t', h⟩
    rcases Op.bind_eq_failed.mp h with hx | ⟨a, t1, hx, hf⟩
    · exact .inl ⟨input, t', hx⟩
    · exact .inr ⟨a, t1, hx, input, t', hf⟩
  · rintro (⟨input, t', hx⟩ | ⟨a, t1, hx, input, t', hf⟩)
    · exact ⟨input, t', Op.bind_eq_failed.mpr (.inl hx)⟩
    · exact ⟨input, t', Op.bind_eq_failed.mpr (.inr ⟨a, t1, hx, hf⟩)⟩

/-- What fails only with errors that call for a lock refuses nothing. -/
theorem not_refuses_of_fails (h : Op.Fails VaultError.Locks x) : ¬Refuses x t := by
  rintro ⟨input, t', hx⟩
  exact absurd (h t _ t' hx) nofun

/-- Behind a step that is not about its input, only what follows it can refuse. -/
theorem refuses_bind_of_decides {p : Prop} {a : α} {t' : FileSystem} {R : FileSystem → Prop}
    {f : α → DiskOp β} (hx : Op.Decides t p x (.ok a t') R) (hfails : Op.Fails VaultError.Locks x) :
    Refuses (x >>= f) t ↔ p ∧ Refuses (f a) t' := by
  rw [refuses_bind_iff, or_iff_right (not_refuses_of_fails hfails)]
  constructor
  · rintro ⟨b, t1, hok, href⟩
    have hp := hx.accepts_iff.mp ⟨b, t1, hok⟩
    obtain ⟨rfl, rfl⟩ := Outcome.ok.inj (hok.symm.trans (hx.pass hp))
    exact ⟨hp, href⟩
  · rintro ⟨hp, href⟩
    exact ⟨a, t', hx.pass hp, href⟩

/-- A clean-up does not change what is refused. -/
theorem refuses_ensuring_iff {f : FileSystem → FileSystem} : Refuses (Op.ensuring f x) t ↔ Refuses x t := by
  constructor
  · rintro ⟨input, t', h⟩
    obtain ⟨t1, hx, -⟩ := Op.ensuring_eq_failed.mp h
    exact ⟨input, t1, hx⟩
  · rintro ⟨input, t', h⟩
    exact ⟨input, f t', Op.ensuring_eq_failed.mpr ⟨t', h, rfl⟩⟩

end

/-! ### Errors that call for a lock -/

section

variable {α : Type} {path : Path} {sqlite : Sqlite}

theorem fails_attempt (fails : Bool) : Op.Fails VaultError.Locks (attempt fails .storage) := .require rfl

/-- A file that cannot be created is a storage error. -/
theorem fails_createFile (fails : Bool) (content : Bytes) :
    Op.Fails VaultError.Locks (createFile fails content path) := by
  refine .bind (fails_attempt _) fun _ => .bind .get fun t => ?_
  split
  · exact .fail rfl
  · exact .modify _

/-- A file that cannot be read is a storage error. -/
theorem fails_contentOf : Op.Fails VaultError.Locks (contentOf path) := by
  refine .bind .get fun t => ?_
  split
  · exact .pure _
  · exact .fail rfl

/-- A file SQLite cannot open is a storage error. -/
theorem fails_openBeside (fails : Bool) (opened : FileSystem → FileSystem) :
    Op.Fails VaultError.Locks (openBeside fails path opened) :=
  .bind (fails_attempt _) fun _ => .bind .get fun _ => .bind (.require rfl) fun _ => .modify _

/-- What SQLite cannot make beside its database is a storage error. -/
theorem fails_openCompanions (fails : ConnectCall → Bool) (content : Bytes) (found : Companions) :
    Op.Fails VaultError.Locks (openCompanions sqlite fails path content found) := by
  unfold openCompanions
  split
  · exact .bind (fails_openBeside _ _) fun _ => fails_openBeside _ _
  · exact .pure _

/-- A content SQLite cannot read is a storage error. -/
theorem throws_reading (content : Bytes) (found : Companions) :
    Throws VaultError.Locks (reading sqlite content found) := by
  unfold reading
  split
  · exact Throws.error rfl
  · exact Throws.ok _

/-- A vault identifier that is missing or malformed calls for a lock. -/
theorem throws_selectVaultId (db : Database) : Throws VaultError.Locks (selectVaultId db) := by
  unfold selectVaultId
  split
  · exact Throws.error rfl
  · exact throws_fromSlice _

/-- However the snapshot's check fails, it calls for a lock. -/
theorem fails_verifySnapshotDatabase (fails : DatabaseCall → Bool) :
    Op.Fails VaultError.Locks (verifySnapshotDatabase sqlite fails path) := by
  have hconnect : Op.Fails VaultError.Locks (connect sqlite (fun c => fails (.connect c)) path) :=
    .bind (fails_attempt _) fun _ => .bind fails_contentOf fun _ => .bind .get fun _ =>
      .bind (fails_openCompanions _ _ _) fun _ => .ofExcept (throws_reading _ _)
  exact .bind hconnect fun _ => .bind (fails_attempt _) fun _ => .bind (.require rfl) fun _ =>
    .bind (fails_attempt _) fun _ => .bind (.require rfl) fun _ => .bind (fails_attempt _) fun _ =>
    .ofExcept (throws_selectVaultId _)

/-- Behind the checks of its paths, linking the snapshot fails with errors that call for a lock. -/
theorem fails_linkSnapshot {fails : SnapshotCall → Bool} {db : Database} {vaultId : VaultId}
    {destination temporary : Path} :
    Op.Fails VaultError.Locks (linkSnapshot sqlite fails db vaultId destination temporary) :=
  .bind (.bind (fails_attempt _) fun _ => .modify _) fun _ =>
    .bind (.bind (fails_attempt _) fun _ => fails_attempt _) fun _ =>
    .bind (fails_verifySnapshotDatabase _) fun _ => .bind (.require rfl) fun _ =>
    .bind (fails_attempt _) fun _ => .bind fails_contentOf fun _ => fails_createFile _ _

/-- A snapshot that cannot be read back is a storage error. -/
theorem fails_checksumFile (prim : Primitives) (fails : ReadCall → Bool) :
    Op.Fails VaultError.Locks (checksumFile prim fails path) := by
  have hpiece (state : Bytes × ℕ × ℕ) (piece : Bytes) :
      Op.Fails VaultError.Locks (checksumPiece fails state piece) :=
    .bind (fails_attempt _) fun _ => .bind (.require rfl) fun _ => .pure _
  exact .bind (fails_attempt _) fun _ => .bind fails_contentOf fun _ => .bind (.fold hpiece _ _)
    fun _ => .bind (fails_attempt _) fun _ => .pure _

/-- A path that has a parent is no reason for `InvalidInput` here. -/
theorem fails_syncParent (fails : ParentCall → Bool) (hparent : path.parent ≠ none) :
    Op.Fails VaultError.Locks (syncParent fails path) := by
  unfold syncParent
  split
  · contradiction
  · exact .bind (fails_attempt _) fun _ => .bind .get fun _ => .bind (.require rfl) fun _ =>
      fails_attempt _

/-- Writing the manifest fails with errors that call for a lock, or as the directory's sync does. -/
theorem fails_writeTo {P : VaultError → Prop} {manifests : Codec BackupManifest} {fails : WriteCall → Bool}
    {written : ℕ} {manifest : BackupManifest} (hlocks : ∀ e : VaultError, e.Locks → P e)
    (hsync : Op.Fails P (syncParent (fun c => fails (.parent c)) path)) :
    Op.Fails P (writeTo manifests fails written manifest path) := by
  have hwrite (bytes : Bytes) : Op.Fails P (writeAll (fails .write) written path bytes) := by
    unfold writeAll
    split
    · exact .bind (.modify _) fun _ => .fail (hlocks _ rfl)
    · exact .modify _
  unfold writeTo
  split
  · exact .fail (hlocks _ rfl)
  · exact .bind ((fails_createFile _ _).mono hlocks) fun _ => .bind (hwrite _) fun _ =>
      .bind ((fails_attempt _).mono hlocks) fun _ => hsync

end

/-! ### When a path is refused -/

/-- The check of a new path says `InvalidInput`. -/
def RefusesPath (fails : PathCall → Bool) (path : Path) (t : FileSystem) : Prop :=
  ¬(Below path t ∧ ∀ a ∈ path.above, fails (.ancestor a) = false) ∨ fails .self = false ∧ t.node path ≠ none

section

variable {fails : PathCall → Bool} {path : Path} {input : String} {t t' : FileSystem}

/-- Whether a path is refused does not depend on what was written elsewhere. -/
theorem RefusesPath.congr {paths : List Path} (h : t.Touches paths t') (hpath : path ∉ paths) :
    RefusesPath fails path t' ↔ RefusesPath fails path t := by
  unfold RefusesPath
  rw [below_congr h, h.only path hpath]

/-- A path that is accepted is not refused. -/
theorem not_refusesPath (hnew : NewPath path t) (hcalls : Inspects fails path) : ¬RefusesPath fails path t := by
  rintro (h | ⟨-, h⟩)
  · exact h ⟨hnew.1, hcalls.1⟩
  · exact h hnew.2

/-- A parent that is no real directory is an error of the input, and so is every failure of its
check. -/
theorem fails_validateParentDirectory :
    Op.Fails (· = .invalidInput input) (validateParentDirectory fails path input) := by
  have hcheck (t : FileSystem) (a : Path) : Op.Fails (· = .invalidInput input) (do
      attempt (fails (.ancestor a)) (.invalidInput input)
      Op.require (t.node a = some .directory) (.invalidInput input)) :=
    .bind (.require rfl) fun _ => .require rfl
  unfold validateParentDirectory
  split
  · exact .fail rfl
  · exact .bind .get fun t => .fold (fun _ => hcheck t) _ _

/-- The check of a new path refuses it for its parent or for what it finds there. -/
theorem refuses_validateNewRegularFile_iff :
    Refuses (validateNewRegularFile fails path input) t ↔ RefusesPath fails path t := by
  have hparent : Op.Decides t (Below path t ∧ ∀ a ∈ path.above, fails (.ancestor a) = false)
      (validateParentDirectory fails path input) (.ok () t) (fun _ => True) :=
    decides_validateParentDirectory fails trivial
  have hrest : Refuses (do
      attempt (fails .self) .storage
      let t ← Op.get
      Op.require (t.node path = none) (.invalidInput input)) t ↔ fails .self = false ∧ t.node path ≠ none := by
    refine (refuses_bind_of_decides (decides_attempt _ _ (R := fun _ => True) trivial)
      (fails_attempt _)).trans (and_congr_right fun _ => ?_)
    show Refuses (Op.require (t.node path = none) (.invalidInput input)) t ↔ _
    by_cases hnode : t.node path = none
    · rw [Op.require_pos hnode]
      exact ⟨fun ⟨_, _, h⟩ => (by cases h), fun h => absurd hnode h⟩
    · rw [Op.require_neg hnode]
      exact ⟨fun _ => hnode, fun _ => ⟨_, _, rfl⟩⟩
  unfold validateNewRegularFile RefusesPath
  by_cases hp : Below path t ∧ ∀ a ∈ path.above, fails (.ancestor a) = false
  · rw [or_iff_right (not_not.mpr hp), ← hrest]
    unfold Refuses
    rw [Op.bind_of_ok (hparent.pass hp)]
  · obtain ⟨e, t', hfailed, -⟩ := hparent.block hp
    obtain rfl := fails_validateParentDirectory t e t' hfailed
    exact ⟨fun _ => .inl hp, fun _ => ⟨input, t', Op.bind_of_failed hfailed⟩⟩

end

section

variable {prim : Primitives} {sqlite : Sqlite} {manifests : Codec BackupManifest}
  {fails : SnapshotCall → Bool} {written : ℕ} {name : Bytes} {db : Database} {vaultId : VaultId}
  {destination : Path} {kept : List Path} {t t' : FileSystem}

/-- Up to the link, the two checks of the destination are what can refuse. -/
theorem refuses_createThen_iff {α : Type} (rest : DiskOp α) (hcopies : sqlite.Copies db)
    (hfresh : Fresh (destination.beside name) kept t) (hkept : destination ∈ kept) :
    Refuses (createThen sqlite fails db vaultId destination name rest) t ↔
      RefusesPath (fun c => fails (.destination false c)) destination t ∨
      (NewPath destination t ∧ Inspects (fun c => fails (.destination false c)) destination) ∧
        RefusesPath (fun c => fails (.destination true c)) destination t ∨
      Publishable sqlite fails db vaultId destination t ∧
        Refuses rest (linked sqlite (destination.beside name) (sqlite.image db) destination t) := by
  have hfirst : Op.Decides t
      (NewPath destination t ∧ Inspects (fun c => fails (.destination false c)) destination)
      (validateNewRegularFile (fun c => fails (.destination false c)) destination "backup destination path")
      (.ok () t) (fun _ => True) := decides_validateNewRegularFile _ trivial
  have hdecides {β : Type} (after : DiskOp β) : Op.Decides t
      (Publishable sqlite fails db vaultId destination t)
      (createThen sqlite fails db vaultId destination name after) _ _ :=
    decides_createThen after hcopies hfresh hkept
  by_cases hp : Publishable sqlite fails db vaultId destination t
  · have hinspects (again : Bool) : Inspects (fun c => fails (.destination again c)) destination :=
      ⟨fun a ha => hp.calls (.destination again (.ancestor a)) ha,
        hp.calls (.destination again .self) trivial⟩
    rw [or_iff_right (not_refusesPath hp.path (hinspects false)),
      or_iff_right fun h => not_refusesPath hp.path (hinspects true) h.2, and_iff_right hp]
    refine Iff.trans ?_ (refuses_ensuring_iff (f := (·.remove (destination.beside name))))
    unfold Refuses
    rw [(hdecides rest).pass hp]
    rfl
  · rw [or_congr_right (or_iff_left fun h => hp h.1)]
    unfold createThen ensureNewDestination
    rw [refuses_bind_iff, refuses_validateNewRegularFile_iff]
    refine or_congr_right ⟨?_, ?_⟩
    · rintro ⟨_, t1, hok, hrest⟩
      have hnew := hfirst.accepts_iff.mp ⟨_, _, hok⟩
      obtain ⟨-, rfl⟩ := Outcome.ok.inj (hok.symm.trans (hfirst.pass hnew))
      refine ⟨hnew, ?_⟩
      rcases refuses_bind_iff.mp hrest with htemporary | ⟨temporary, t2, htemporary, hlink⟩
      · rcases refuses_bind_iff.mp htemporary with hrefuses | ⟨_, t2, -, hcreate⟩
        · exact refuses_validateNewRegularFile_iff.mp hrefuses
        · rw [Op.require_pos hnew.1.1.1, Op.pure_bind] at hcreate
          exact absurd hcreate (not_refuses_of_fails (.bind (fails_createFile _ _) fun _ => .pure _))
      · rw [refuses_ensuring_iff, refuses_bind_iff, or_iff_right (not_refuses_of_fails fails_linkSnapshot)]
          at hlink
        obtain ⟨_, t3, hlink, -⟩ := hlink
        -- then the link would be reached
        obtain ⟨e, t4, hfailed, -⟩ := (hdecides (pure ())).block hp
        rw [createThen, ensureNewDestination, Op.bind_of_ok hok, Op.bind_of_ok htemporary, Op.ensuring,
          Op.bind_of_ok hlink] at hfailed
        cases hfailed
    · rintro ⟨hnew, hrefuses⟩
      refine ⟨_, _, hfirst.pass hnew, refuses_bind_iff.mpr (.inl ?_)⟩
      exact refuses_bind_iff.mpr (.inl (refuses_validateNewRegularFile_iff.mpr hrefuses))

/-- A name that is free beside the backup's files is free beside the destination too. -/
theorem Fresh.append_self {temporary : Path} (h : Fresh temporary (backupPaths destination) t) :
    Fresh temporary (backupPaths destination ++ [destination]) t := by
  refine ⟨h.free, fun q hq => h.apart q ?_⟩
  rcases List.mem_append.mp hq with hq | hq
  · exact hq
  · rw [List.mem_singleton.mp hq]
    exact List.mem_cons_self

/-- One of the checks refuses a path: one of the two of the destination or, once the snapshot is linked and
hashed, that of the manifest. -/
inductive Refused (sqlite : Sqlite) (fails : SnapshotCall → Bool) (db : Database) (vaultId : VaultId)
    (destination : Path) (t : FileSystem) : Prop
  | first (h : RefusesPath (fun c => fails (.destination false c)) destination t)
  | second (hnew : NewPath destination t)
      (hcalls : Inspects (fun c => fails (.destination false c)) destination)
      (h : RefusesPath (fun c => fails (.destination true c)) destination t)
  | manifest (hlinked : Publishable sqlite fails db vaultId destination t)
      (hsync : ∀ c, fails (.publish (.parent c)) = false)
      (hread : (sqlite.image db).length < 2 ^ 64 ∧ Reads (fun c => fails (.checksum c)) (sqlite.image db))
      (h : RefusesPath (fun c => fails (.manifest c)) (manifestPath destination) t)

/-- Behind the link, the check of the manifest is what can refuse. -/
theorem refuses_finishSnapshot_iff (hbelow : Below destination t')
    (hfile : t'.node destination = some (.file (sqlite.image db))) :
    Refuses (finishSnapshot prim manifests fails written vaultId destination) t' ↔
      (∀ c, fails (.publish (.parent c)) = false) ∧
      ((sqlite.image db).length < 2 ^ 64 ∧ Reads (fun c => fails (.checksum c)) (sqlite.image db)) ∧
      RefusesPath (fun c => fails (.manifest c)) (manifestPath destination) t' := by
  unfold finishSnapshot fromSnapshot
  rw [refuses_bind_of_decides (decides_syncParent _ hbelow (R := fun _ => True) trivial)
    (fails_syncParent _ hbelow.1)]
  refine and_congr_right fun _ => ?_
  rw [Op.bind_assoc, refuses_bind_of_decides
    (decides_checksumFile prim _ hfile (R := fun _ => True) trivial) (fails_checksumFile _ _)]
  refine and_congr_right fun _ => ?_
  rw [Op.pure_bind, refuses_bind_iff, ensureNewDestination, refuses_validateNewRegularFile_iff]
  refine or_iff_left ?_
  rintro ⟨_, t1, hok, hwrite⟩
  have hnew := (decides_validateNewRegularFile (R := fun _ => True) _ trivial).accepts_iff.mp ⟨_, _, hok⟩
  exact not_refuses_of_fails
    (.bind (fails_writeTo (fun _ h => h) (fails_syncParent _ hnew.1.1.1)) fun _ => .pure _) hwrite

/-- A backup is refused for its path, checked at its beginning and before its link, or for the path
of its manifest. -/
theorem refuses_createSnapshot_iff (hcopies : sqlite.Copies db)
    (hfresh : Fresh (destination.beside name) (backupPaths destination) t) :
    Refuses (createSnapshot prim sqlite manifests fails written name db vaultId destination) t ↔
      Refused sqlite fails db vaultId destination t := by
  have hfresh' := hfresh.append_self
  rw [createSnapshot_eq, refuses_createThen_iff _ hcopies hfresh List.mem_cons_self]
  have hlast (hp : Publishable sqlite fails db vaultId destination t) :
      Refuses (finishSnapshot prim manifests fails written vaultId destination)
          (linked sqlite (destination.beside name) (sqlite.image db) destination t) ↔
        (∀ c, fails (.publish (.parent c)) = false) ∧
        ((sqlite.image db).length < 2 ^ 64 ∧ Reads (fun c => fails (.checksum c)) (sqlite.image db)) ∧
        RefusesPath (fun c => fails (.manifest c)) (manifestPath destination) t := by
    have htouches := touches_linked sqlite (sqlite.image db) hfresh' hp.path
    rw [refuses_finishSnapshot_iff ((below_congr htouches).mpr hp.path.1)
      (FileSystem.node_put_self hp.path.1.ne_empty), RefusesPath.congr htouches (manifestPath_notMem hfresh')]
  constructor
  · rintro (h | ⟨⟨hnew, hcalls⟩, h⟩ | ⟨hp, h⟩)
    · exact .first h
    · exact .second hnew hcalls h
    · obtain ⟨hsync, hread, h⟩ := (hlast hp).mp h
      exact .manifest hp hsync hread h
  · rintro (h | ⟨hnew, hcalls, h⟩ | ⟨hp, hsync, hread, h⟩)
    · exact .inl h
    · exact .inr (.inl ⟨⟨hnew, hcalls⟩, h⟩)
    · exact .inr (.inr ⟨hp, (hlast hp).mpr ⟨hsync, hread, h⟩⟩)

/-- A backup returns exactly if it gets to its end. -/
theorem decides_wholeSnapshot (hcopies : sqlite.Copies db)
    (hencodes : ∀ m, ∃ json, manifests.toVec m = some json)
    (hfresh : Fresh (destination.beside name) (backupPaths destination) t) :
    ∃ t', Op.Decides t
      (Publishable sqlite fails db vaultId destination t ∧ Completable sqlite fails db destination t)
      (createSnapshot prim sqlite manifests fails written name db vaultId destination)
      (.ok (snapshotManifest prim sqlite db vaultId) t') (fun _ => True) := by
  have hfirst : Op.Decides t (Publishable sqlite fails db vaultId destination t)
      (createSnapshot prim sqlite manifests fails written name db vaultId destination) _ _ :=
    decides_createSnapshot hcopies hfresh List.mem_cons_self
  obtain ⟨json, hjson⟩ := hencodes (snapshotManifest prim sqlite db vaultId)
  have hlast (hp : Publishable sqlite fails db vaultId destination t) :
      Op.Decides (linked sqlite (destination.beside name) (sqlite.image db) destination t)
        (Completable sqlite fails db destination t)
        (finishSnapshot prim manifests fails written vaultId destination) _ _ :=
    decides_finishSnapshot hp.path.1 (touches_linked sqlite (sqlite.image db) hfresh.append_self hp.path)
      (FileSystem.node_put_self hp.path.1.ne_empty) (manifestPath_notMem hfresh.append_self) hjson
  refine ⟨completed sqlite (destination.beside name) (sqlite.image db) json destination t,
    fun h => ?_, fun h => ?_⟩
  · rw [hfirst.pass h.1, (hlast h.1).pass h.2]
    rfl
  · by_cases hp : Publishable sqlite fails db vaultId destination t
    · obtain ⟨e, t', hfailed, -⟩ := (hlast hp).block fun hc => h ⟨hp, hc⟩
      exact ⟨e, _, by rw [hfirst.pass hp, hfailed]; rfl, trivial⟩
    · obtain ⟨e, t', hfailed, -⟩ := hfirst.block hp
      exact ⟨e, t', hfailed, trivial⟩

/-- What `create_snapshot` reports calls for a lock, or is about a path. -/
theorem fails_createSnapshot : Op.Fails (fun e => e.Locks ∨ ∃ input, e = .invalidInput input)
    (createSnapshot prim sqlite manifests fails written name db vaultId destination) := by
  have hlocks {α : Type} {x : DiskOp α} (hx : Op.Fails VaultError.Locks x) :
      Op.Fails (fun e => e.Locks ∨ ∃ input, e = .invalidInput input) x := hx.mono fun _ => .inl
  have hpath (calls : PathCall → Bool) (path : Path) (input : String) :
      Op.Fails (fun e => e.Locks ∨ ∃ input, e = .invalidInput input)
        (validateNewRegularFile calls path input) :=
    .bind (fails_validateParentDirectory.mono fun _ he => .inr ⟨input, he⟩) fun _ =>
      .bind (hlocks (fails_attempt _)) fun _ => .bind .get fun _ => .require (.inr ⟨input, rfl⟩)
  have hsync (calls : ParentCall → Bool) (path : Path) :
      Op.Fails (fun e => e.Locks ∨ ∃ input, e = .invalidInput input) (syncParent calls path) := by
    by_cases hparent : path.parent = none
    · rw [syncParent, hparent]
      exact .fail (.inr ⟨_, rfl⟩)
    · exact hlocks (fails_syncParent calls hparent)
  have htemporary : Op.Fails (fun e => e.Locks ∨ ∃ input, e = .invalidInput input)
      (createTemporaryFile (fun c => fails (.destination true c)) (fails .createTemporary)
        destination name) :=
    .bind (hpath _ _ _) fun _ => .bind (.require (.inr ⟨_, rfl⟩)) fun _ =>
      .bind (hlocks (fails_createFile _ _)) fun _ => .pure _
  have hfinish : Op.Fails (fun e => e.Locks ∨ ∃ input, e = .invalidInput input)
      (finishSnapshot prim manifests fails written vaultId destination) :=
    .bind (hsync _ _) fun _ => .bind (.bind (hlocks (fails_checksumFile _ _)) fun _ => .pure _) fun _ =>
      .bind (hpath _ _ _) fun _ => .bind (fails_writeTo (fun _ => .inl) (hsync _ _)) fun _ => .pure _
  rw [createSnapshot_eq]
  exact .bind (hpath _ _ _) fun _ => .bind htemporary fun _ =>
    .ensuring (.bind (hlocks fails_linkSnapshot) fun _ => hfinish) _

end

section

variable {prim : Primitives} {sqlite : Sqlite} {manifests : Codec BackupManifest}
  {fails : SnapshotCall → Bool} {written : ℕ} {name : Bytes} {db : Database} {vaultId : VaultId}
  {destination : Path}

/-- A checksum is written with 64 digits. -/
theorem returns_checksumFile (reads : ReadCall → Bool) (path : Path) :
    Op.Returns (fun p : Text × UInt64 => p.1.length = 64) (checksumFile prim reads path) := by
  refine .bind _ fun _ => .bind _ fun _ => .bind _ fun hashed => .bind _ fun _ => .pure ?_
  rw [length_hexEncode, Block.length_toList]

/-- The manifest has the format and a digest of 64 digits. -/
theorem returns_createSnapshot :
    Op.Returns (fun m : BackupManifest => m.format = backupFormat ∧ m.databaseSha256.length = 64)
      (createSnapshot prim sqlite manifests fails written name db vaultId destination) := by
  have hfinish : Op.Returns (fun m : BackupManifest => m.format = backupFormat ∧ m.databaseSha256.length = 64)
      (finishSnapshot prim manifests fails written vaultId destination) := by
    refine .bind _ fun _ t m t' hm => ?_
    obtain ⟨manifest, _, hfrom, hrest⟩ := Op.bind_eq_ok.mp hm
    obtain ⟨digest, _, hdigest, hreturn⟩ := Op.bind_eq_ok.mp hfrom
    cases hreturn
    obtain ⟨_, _, -, hrest⟩ := Op.bind_eq_ok.mp hrest
    obtain ⟨_, _, -, hreturn⟩ := Op.bind_eq_ok.mp hrest
    cases hreturn
    exact ⟨rfl, returns_checksumFile _ _ _ _ _ hdigest⟩
  rw [createSnapshot_eq]
  exact .bind _ fun _ => .bind _ fun _ => .ensuring (.bind _ fun _ => hfinish) _

end

/-! ### The volume of a vault -/

/-- What happens in one backup: the calls that fail, what a failed write leaves, and the name that is drawn for
the temporary file. -/
structure Attempt where
  fails : SnapshotCall → Bool
  written : ℕ
  name : Bytes

/-- Surroundings with a file system for the backups of a vault. -/
structure Volume (prim : Primitives) (sqlite : Sqlite) (manifests : Codec BackupManifest) (ω : Type) where
  inner : ω
  vaultId : VaultId
  /-- The path that a text names. -/
  pathOf : Text → Path
  files : FileSystem
  /-- What happens in this backup and in the later ones. -/
  attempts : ℕ → Attempt

namespace Volume

variable {prim : Primitives} {sqlite : Sqlite} {manifests : Codec BackupManifest} {ω : Type}

/-- `create_snapshot` on the volume. -/
def createSnapshot (v : Volume prim sqlite manifests ω) (destination : Text) (db : Database) :
    Outcome VaultError FileSystem BackupManifest :=
  Backup.createSnapshot prim sqlite manifests (v.attempts 0).fails (v.attempts 0).written
    (v.attempts 0).name db v.vaultId (v.pathOf destination) v.files

variable [Machine ω]

instance : Machine (Volume prim sqlite manifests ω) where
  fault v := ((Machine.fault v.inner).1, { v with inner := (Machine.fault v.inner).2 })
  interfere db v :=
    ((Machine.interfere db v.inner).1, { v with inner := (Machine.interfere db v.inner).2 })
  files v := ((Machine.files v.inner).1, { v with inner := (Machine.files v.inner).2 })
  random n v := ((Machine.random n v.inner).1, { v with inner := (Machine.random n v.inner).2 })
  write b v := ((Machine.write b v.inner).1, { v with inner := (Machine.write b v.inner).2 })
  backup destination db v :=
    -- there is always a result: `create_snapshot` returns or fails
    ((v.createSnapshot destination db).result.getD (.error .storage),
      { v with
        files := (v.createSnapshot destination db).state
        attempts := fun n => v.attempts (n + 1) })
  elapse v := { v with inner := Machine.elapse v.inner }

/-- **Backups and the lock.** After a backup that fails with an error that calls for it, an unlocked vault stays
open. This happens exactly if the backup does not get to its end and none of its checks refuses a path. -/
theorem staysOpen_backupTo_iff {w : World (Volume prim sqlite manifests ω)} {destination : Text}
    (hcopies : sqlite.Copies w.db) (hencodes : ∀ m, ∃ json, manifests.toVec m = some json)
    (hfresh : Fresh ((w.outside.pathOf destination).beside (w.outside.attempts 0).name)
      (backupPaths (w.outside.pathOf destination)) w.outside.files) :
    VaultCall.StaysOpen prim w (.backupTo destination) ↔
      ¬(Publishable sqlite (w.outside.attempts 0).fails w.db w.outside.vaultId
          (w.outside.pathOf destination) w.outside.files ∧
        Completable sqlite (w.outside.attempts 0).fails w.db (w.outside.pathOf destination)
          w.outside.files) ∧
      ¬Refused sqlite (w.outside.attempts 0).fails w.db w.outside.vaultId (w.outside.pathOf destination)
        w.outside.files := by
  obtain ⟨t', hwhole⟩ := decides_wholeSnapshot hcopies hencodes hfresh
  have hanswer : (Machine.backup destination w.db w.outside).1 =
      (w.outside.createSnapshot destination w.db).result.getD (.error .storage) := rfl
  show (∃ e : VaultError, e.MustLock ∧ (Machine.backup destination w.db w.outside).1 = .error e) ↔ _
  rw [hanswer, createSnapshot, ← refuses_createSnapshot_iff hcopies hfresh]
  by_cases hdone : Publishable sqlite (w.outside.attempts 0).fails w.db w.outside.vaultId
      (w.outside.pathOf destination) w.outside.files ∧
    Completable sqlite (w.outside.attempts 0).fails w.db (w.outside.pathOf destination) w.outside.files
  · rw [hwhole.pass hdone]
    exact ⟨fun ⟨_, _, h⟩ => (by cases h), fun h => absurd hdone h.1⟩
  · obtain ⟨e, t'', hfailed, -⟩ := hwhole.block hdone
    rw [hfailed, and_iff_right hdone]
    unfold Refuses
    rw [hfailed]
    constructor
    · rintro ⟨_, hmust, heq⟩ ⟨input, t1, h⟩
      cases heq
      cases h
      rcases hmust with h | h <;> cases h
    · intro hnot
      rcases fails_createSnapshot _ _ _ hfailed with hlocks | ⟨input, rfl⟩
      · exact ⟨e, .inl hlocks, rfl⟩
      · exact absurd ⟨input, t'', rfl⟩ hnot

/-- The manifest of a backup has the format and a digest of 64 digits. -/
theorem namesBackups : Machine.NamesBackups (Volume prim sqlite manifests ω) := by
  intro destination db v m hm
  have hok : (v.createSnapshot destination db).result.getD (.error .storage) = .ok m := hm
  have hresult : (v.createSnapshot destination db).result = some (.ok m) := by
    cases h : (v.createSnapshot destination db).result with
    | none => rw [h] at hok; cases hok
    | some r => rw [h] at hok; exact congrArg some hok
  have hsnapshot := Outcome.eq_ok_of_result hresult
  rw [createSnapshot] at hsnapshot
  obtain ⟨hformat, hdigest⟩ := returns_createSnapshot _ _ _ hsnapshot
  rw [hformat]
  exact ⟨by decide +kernel, hdigest⟩

end Volume

end Vlt1.Backup

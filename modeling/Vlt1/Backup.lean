import Vlt1.Backup.Snapshots
import Vlt1.Channel

/-!
# Backups

Two things stand between `create_snapshot` and a backup that is all or nothing. The destination is linked before
anything is done about the manifest, and nothing takes the link back. And a snapshot is read together with the
files `-wal` and `-shm` beside it, which the first connection makes: what already stood there may change what is
read, and the snapshot cannot be restored to one of these paths (`Paired.not_restored_beside`).
`snapshot_all_or_nothing_iff` says when a backup keeps its promise, and `orphaned_snapshot` is one that leaves a
snapshot without its manifest because there already was a file in the manifest's place.
-/

namespace Vlt1.Backup

open Effect Files Protocol

section

variable {prim : Primitives} {sqlite : Sqlite} {manifests : Codec BackupManifest}
  {fails : SnapshotCall → Bool} {written : ℕ} {name : Bytes} {db : Database} {vaultId : VaultId}
  {destination : Path} {t : FileSystem}

/-! ### What a backup is good for -/

/-- A snapshot and its manifest. -/
structure Paired (prim : Primitives) (sqlite : Sqlite) (manifests : Codec BackupManifest)
    (db : Database) (vaultId : VaultId) (destination : Path) (t : FileSystem) : Prop where
  below : Below destination t
  snapshot : t.node destination = some (.file (sqlite.image db))
  belowManifest : Below (manifestPath destination) t
  manifest : ∃ json, t.node (manifestPath destination) = some (.file json) ∧
    manifests.toVec (snapshotManifest prim sqlite db vaultId) = some json
  size : (sqlite.image db).length < 2 ^ 64

/-- A connection to the snapshot finds these tables of the vault, and nothing wrong with them. -/
structure Verifies (sqlite : Sqlite) (content : Bytes) (c : Companions) (vaultId : VaultId)
    (db : Database) : Prop where
  openable : Openable sqlite content c
  tables : sqlite.tables content c = some db
  integrity : sqlite.integrityCheck content c = "ok"
  foreignKeys : db.ForeignKeysHold
  vaultId : selectVaultId db = .ok vaultId

/-- The manifest a backup writes is a valid one. -/
theorem validate_snapshotManifest :
    validate (snapshotManifest prim sqlite db vaultId) = .ok () :=
  ensure_pos ⟨rfl, isLowerHex_hexEncode _, isLowerHex_hexEncode _⟩

/-- Where no call fails, every path can be looked at. -/
theorem inspects_calm (path : Path) : Inspects (fun _ => false) path := ⟨fun _ _ => rfl, rfl⟩

theorem decides_validate {R : FileSystem → Prop} :
    Op.Decides t True (Op.ofExcept (validate (snapshotManifest prim sqlite db vaultId)))
      (.ok () t) R :=
  .of_eq (by rw [validate_snapshotManifest]; rfl)

/-- The manifest is read back. -/
theorem Paired.readFrom (h : Paired prim sqlite manifests db vaultId destination t)
    (hinverts : manifests.Inverts) :
    readFrom manifests (fun _ => false) (manifestPath destination) t =
      .ok (snapshotManifest prim sqlite db vaultId) t := by
  obtain ⟨json, hfile, hjson⟩ := h.manifest
  have hR : t.Extends t := fun _ _ hq => hq
  refine Op.Decides.pass (Op.Decides.bind (decides_validateExistingRegularFile _ hfile hR) fun _ =>
    (decides_attempt _ _ hR).bind fun _ => (Op.Decides.of_eq (contentOf_file hfile)).bind fun _ =>
    (?_ : Op.Decides t (True ∧ True) _ _ _))
    ⟨⟨h.belowManifest, inspects_calm _⟩, rfl, trivial, trivial, trivial⟩
  rw [hinverts.fromSlice_toVec hjson]
  exact decides_validate.bind fun _ => .of_eq rfl

/-- No call of a checksum fails. -/
theorem reads_calm (content : Bytes) : Reads (fun _ => false) content := ⟨rfl, fun _ _ => rfl⟩

/-- Where no call fails, a database passes when it can be opened and both of its checks do. -/
theorem passes_calm {content : Bytes} {c : Companions} :
    Passes sqlite (fun _ => false) content c db ↔
      Openable sqlite content c ∧ sqlite.integrityCheck content c = "ok" ∧ db.ForeignKeysHold := by
  unfold Passes Connects
  tauto

/-- The pair verifies exactly if a connection finds nothing wrong with the snapshot. -/
theorem Paired.decides_verifyBackup (h : Paired prim sqlite manifests db vaultId destination t) :
    Op.Decides t (∃ db', Verifies sqlite (sqlite.image db) (companionsOf destination t) vaultId db')
      (verifyBackup prim sqlite (fun _ => false) (snapshotManifest prim sqlite db vaultId) destination)
      (.ok () (connected sqlite destination (sqlite.image db) t)) (fun _ => True) := by
  have hlast : Op.Decides t
      (∃ db', Verifies sqlite (sqlite.image db) (companionsOf destination t) vaultId db')
      (verifySnapshotDatabase sqlite (fun _ => false) destination >>= fun snapshotVaultId =>
        Op.require (snapshotVaultId.toHex = vaultId.toHex) (.invariant "backup manifest vault binding"))
      (.ok () (connected sqlite destination (sqlite.image db) t)) (fun _ => True) := by
    cases htables : sqlite.tables (sqlite.image db) (companionsOf destination t) with
    | none =>
      simp only [verifySnapshotDatabase, Op.bind_assoc]
      refine (connect_refuses _ h.snapshot htables _ _).congr ⟨False.elim, fun hverifies => ?_⟩
      obtain ⟨db', hdb'⟩ := hverifies
      rw [hdb'.tables] at htables
      cases htables
    | some db' =>
      refine Op.Decides.congr (decides_verifySnapshotDatabase _ h.snapshot htables (fun _ _ => trivial)
        fun _ v => .require _ trivial) ?_
      rw [passes_calm]
      constructor
      · rintro ⟨⟨hopen, hintegrity, hkeys⟩, v, hid, hv⟩
        obtain rfl := Identifier.toHex_injective hv
        exact ⟨db', hopen, htables, hintegrity, hkeys, hid⟩
      · rintro ⟨db'', hopen, htables', hintegrity, hkeys, hid⟩
        obtain rfl := Option.some.inj (htables.symm.trans htables')
        exact ⟨⟨hopen, hintegrity, hkeys⟩, vaultId, hid, rfl⟩
  refine Op.Decides.congr (decides_validate.bind fun _ =>
    (decides_validateExistingRegularFile _ h.snapshot trivial).bind fun _ =>
    (decides_checksumFile prim _ h.snapshot trivial).bind fun _ => (Op.Decides.require _ trivial).bind
    fun _ => hlast) ?_
  exact ⟨fun h' => h'.2.2.2.2, fun hdb' => ⟨trivial, ⟨h.below, inspects_calm _⟩,
    ⟨h.size, reads_calm _⟩, ⟨rfl, rfl⟩, hdb'⟩⟩

/-! ### Restoring -/

/-- What a connection leaves beside a database. -/
theorem companionsOf_connected (sqlite : Sqlite) (path : Path) (content : Bytes) (t : FileSystem) :
    companionsOf path (connected sqlite path content t) =
      sqlite.leaves content (companionsOf path t) := by
  have hjournal := journalPath_notMem_companionPaths path
  simp only [companionPaths, List.mem_cons, List.not_mem_nil, or_false, not_or] at hjournal
  have hwal : walPath path ≠ .empty := Path.extend_ne_empty _ _
  have hshm : shmPath path ≠ .empty := Path.extend_ne_empty _ _
  unfold connected Sqlite.leaves
  split
  · simp only [companionsOf, node_indexed hshm, node_logged hwal, hjournal, walPath_ne_shmPath path,
      (walPath_ne_shmPath path).symm, if_true, if_false]
  · rfl

/-- What SQLite leaves behind can be opened again. -/
theorem Openable.leaves {content : Bytes} {c : Companions} (h : Openable sqlite content c) :
    Openable sqlite content (sqlite.leaves content c) := by
  intro hopens
  by_cases hlog : sqlite.opensLog content c = true
  · obtain ⟨hwal, hshm⟩ := h hlog
    rw [Sqlite.leaves, if_pos hlog]
    refine ⟨?_, ?_⟩
    · cases hnode : c.wal with
      | none => exact nofun
      | some n => rwa [hnode] at hwal
    · dsimp only
      unfold indexNode
      split <;> simp_all
  · rw [Sqlite.leaves, if_neg hlog] at hopens
    exact absurd hopens hlog

/-- After a connection in WAL mode, both companions are there. -/
theorem newPath_connected {path target : Path} {content : Bytes} (hwal : sqlite.usesWal content = true)
    (hopen : Openable sqlite content (companionsOf path t)) :
    NewPath target (connected sqlite path content t) ↔
      NewPath target t ∧ target ∉ companionPaths path := by
  have htouches := touches_connected hopen
  by_cases hmem : target ∈ companionPaths path
  · refine ⟨fun h => ?_, fun h => absurd hmem h.2⟩
    have hopens : sqlite.opensLog content (companionsOf path t) = true := by
      rw [Sqlite.opensLog, hwal, Bool.true_or]
    have hfound := companionsOf_connected sqlite path content t
    rw [Sqlite.leaves, if_pos hopens] at hfound
    obtain ⟨-, hwalNode, hshmNode⟩ := Companions.mk.inj hfound
    have hnone := h.2
    simp only [companionPaths, List.mem_cons, List.not_mem_nil, or_false] at hmem
    rcases hmem with rfl | rfl
    · rw [hwalNode] at hnone
      cases hnone
    · rw [hshmNode] at hnone
      unfold indexNode at hnone
      split at hnone <;> cases hnone
  · rw [newPath_congr htouches hmem]
    exact (and_iff_left hmem).symm

/-- The paths of a backup: the snapshot, its manifest, and what stands beside the snapshot. -/
def backupPaths (destination : Path) : List Path :=
  [destination, manifestPath destination, journalPath destination, walPath destination,
    shmPath destination]

theorem companionPaths_subset_backupPaths (destination : Path) :
    companionPaths destination ⊆ backupPaths destination := by
  simp [companionPaths, backupPaths]

/-- The copy of a snapshot with this content, by way of a temporary file. -/
def restored (sqlite : Sqlite) (temporary destination target : Path) (content copy : Bytes)
    (t : FileSystem) : FileSystem :=
  let opened := connected sqlite destination content
    ((connected sqlite destination content t).put temporary [])
  ((connected sqlite temporary copy (opened.put temporary copy)).put target copy).remove temporary

variable {target : Path}

/-- A snapshot that verifies restores to a new path, unless that is one of its companions. -/
theorem Paired.decides_restoreSnapshot (h : Paired prim sqlite manifests db vaultId destination t)
    (hcopies : sqlite.Copies db) (hreads : sqlite.ReadsOnly) {db' : Database}
    (hdb' : Verifies sqlite (sqlite.image db) (companionsOf destination t) vaultId db')
    (hfresh : Fresh (target.beside name) (backupPaths destination ++ [target]) t) :
    Op.Decides t ((NewPath target t ∧ target ∉ companionPaths destination) ∧
        sqlite.integrityCheck (sqlite.image db') .absent = "ok")
      (restoreSnapshot prim sqlite (fun _ => false) name destination
        (snapshotManifest prim sqlite db vaultId) target)
      (.ok () (restored sqlite (target.beside name) destination target (sqlite.image db)
        (sqlite.image db') t)) (fun _ => True) := by
  have hname : target.beside name ≠ .empty := Path.beside_ne_empty _ _
  have hkept : companionPaths destination ⊆ backupPaths destination ++ [target] := fun q hq =>
    List.mem_append_left _ (companionPaths_subset_backupPaths _ hq)
  -- the states up to the copy differ from `t` in the temporary file and beside the snapshot
  let touched := target.beside name :: companionPaths destination
  have hfirst : t.Touches touched (connected sqlite destination (sqlite.image db) t) :=
    (touches_connected hdb'.openable).mono (List.subset_cons_self _ _)
  have hcreated := hfresh.touches_put hfirst []
  set created := (connected sqlite destination (sqlite.image db) t).put (target.beside name) [] with hdef
  have hbackup : ∀ q ∈ backupPaths destination, q ≠ target.beside name := fun q hq heq =>
    hfresh.apart q (List.mem_append_left _ hq) (heq ▸ List.mem_cons_self)
  -- the second connection finds what the first has left
  have hfound : companionsOf destination created =
      sqlite.leaves (sqlite.image db) (companionsOf destination t) := by
    rw [← companionsOf_connected, hdef, companionsOf, companionsOf,
      FileSystem.node_put_of_ne (hbackup _ (by simp [backupPaths])),
      FileSystem.node_put_of_ne (hbackup _ (by simp [backupPaths])),
      FileSystem.node_put_of_ne (hbackup _ (by simp [backupPaths]))]
  have hsource : created.node destination = some (.file (sqlite.image db)) := by
    rw [hcreated.only, h.snapshot]
    rw [List.mem_cons, not_or]
    exact ⟨hbackup destination List.mem_cons_self, fun hmem => ne_of_mem_companionPaths hmem rfl⟩
  have htables : sqlite.tables (sqlite.image db) (companionsOf destination created) = some db' := by
    rw [hfound, hreads.tables_leaves, hdb'.tables]
  have hopen : Openable sqlite (sqlite.image db) (companionsOf destination created) := by
    rw [hfound]
    exact hdb'.openable.leaves
  have hopened : t.Touches touched (connected sqlite destination (sqlite.image db) created) :=
    hcreated.trans ((touches_connected hopen).mono (List.subset_cons_self _ _))
  have hcopied := hfresh.touches_put hopened (sqlite.image db')
  set copy := (connected sqlite destination (sqlite.image db) created).put (target.beside name)
    (sqlite.image db') with hcopy
  have habsent : companionsOf (target.beside name) copy = .absent := hfresh.companionsOf_eq hcopied hkept
  have hfile : copy.node (target.beside name) = some (.file (sqlite.image db')) :=
    FileSystem.node_put_self hname
  have hchecked : copy.Touches (companionPaths (target.beside name))
      (connected sqlite (target.beside name) (sqlite.image db') copy) :=
    touches_connected (habsent ▸ openable_absent _ _)
  set checked := connected sqlite (target.beside name) (sqlite.image db') copy with hcheckedDef
  -- the target was not touched before the link
  have htarget : NewPath target (connected sqlite destination (sqlite.image db) t) →
      NewPath target checked := by
    intro hnew
    have hne := ((newPath_connected hcopies.usesWal hdb'.openable).mp hnew).2
    have hscratch : target ∉ scratch (target.beside name) := hfresh.apart target (by simp)
    have hnot : target ∉ companionPaths (target.beside name) := fun hmem =>
      hscratch (companionPaths_subset _ hmem)
    have htouched : target ∉ touched := by
      rw [List.mem_cons, not_or]
      exact ⟨fun heq => hscratch (heq ▸ List.mem_cons_self), hne⟩
    rw [newPath_congr hchecked hnot, newPath_congr hcopied htouched]
    rwa [newPath_congr hfirst htouched] at hnew
  have hlink : NewPath target checked → Op.Decides checked True (hardLink false (target.beside name) target)
      (.ok () (checked.put target (sqlite.image db'))) (fun _ => True) := by
    intro hnew
    refine Op.Decides.congr ((Op.Decides.of_eq (contentOf_file ?_)).bind fun _ =>
      decides_createFile false (sqlite.image db') trivial) ?_
    · rw [hchecked.only _ fun hmem => ne_of_mem_companionPaths hmem rfl, hfile]
    · exact ⟨fun _ => trivial, fun _ => ⟨trivial, rfl, hnew.1.ne_empty, hnew.2⟩⟩
  have hsync : NewPath target checked → Op.Decides (checked.put target (sqlite.image db')) True
      (syncParent (fun _ => false) target) (.ok () (checked.put target (sqlite.image db')))
      (fun _ => True) := by
    intro hnew
    have hput : checked.Touches [target] (checked.put target (sqlite.image db')) :=
      (FileSystem.Touches.refl _ _).put List.mem_cons_self (by rw [hnew.2]; nofun) _
    exact (decides_syncParent _ ((below_congr hput).mpr hnew.1) trivial).congr
      ⟨fun _ => trivial, fun _ _ => rfl⟩
  simp only [restoreSnapshot, publishNewFile, createTemporaryFile, syncFile, Op.bind_assoc, Op.pure_bind]
  refine Op.Decides.congr (h.decides_verifyBackup.bind fun _ =>
    (decides_validateNewRegularFile _ trivial).bind fun hnew =>
    (decides_validateNewRegularFile _ trivial).bind fun _ => (Op.Decides.require _ trivial).bind fun _ =>
    (decides_createFile _ _ trivial).bind fun _ => Op.Decides.ensuring_ok
    ((decides_connect _ hsource htables fun _ _ => trivial).bind fun _ =>
    (decides_backupInto _ trivial).bind fun _ => (decides_attempt _ _ trivial).bind fun _ =>
    (decides_attempt _ _ trivial).bind fun _ =>
    decides_verifySnapshotDatabase _ hfile (habsent ▸ hcopies.again _ _ hdb'.tables) (fun _ _ => trivial)
      fun _ v => (decides_attempt _ _ trivial).bind fun _ => (hlink (htarget hnew.1)).bind fun _ =>
      hsync (htarget hnew.1)) fun _ _ => trivial) ?_
  rw [habsent, passes_calm, newPath_connected hcopies.usesWal hdb'.openable]
  constructor
  · rintro ⟨-, ⟨hnew, -⟩, -, -, -, -, -, -, -, ⟨-, hintegrity, -⟩, -⟩
    exact ⟨hnew, hintegrity⟩
  · rintro ⟨hnew, hintegrity⟩
    have hfree : (connected sqlite destination (sqlite.image db) t).node (target.beside name) = none := by
      rw [(touches_connected hdb'.openable).only, hfresh.free _ List.mem_cons_self]
      exact fun hmem => hfresh.apart _ (hkept hmem) List.mem_cons_self
    exact ⟨⟨db', hdb'⟩, ⟨hnew, inspects_calm _⟩, ⟨hnew, inspects_calm _⟩, hnew.1.1.1, ⟨rfl, hname, hfree⟩,
      ⟨hopen, rfl, fun _ => ⟨rfl, rfl⟩⟩, rfl, rfl, rfl,
      ⟨openable_absent _ _, hintegrity, hdb'.foreignKeys⟩, vaultId, hdb'.vaultId, rfl, trivial, trivial⟩

/-- A restored file stands at its target. -/
theorem node_restored {temporary : Path} {content copy : Bytes} (htarget : target ≠ .empty)
    (htemporary : target ≠ temporary) :
    (restored sqlite temporary destination target content copy t).node target = some (.file copy) := by
  unfold restored
  rw [FileSystem.node_remove_of_ne htemporary, FileSystem.node_put_self htarget]

/-- A snapshot is never restored to one of the paths beside it: the check that comes first makes these files. -/
theorem Paired.not_restored_beside (h : Paired prim sqlite manifests db vaultId destination t)
    (hcopies : sqlite.Copies db) (hreads : sqlite.ReadsOnly) {db' : Database}
    (hdb' : Verifies sqlite (sqlite.image db) (companionsOf destination t) vaultId db')
    (hfresh : Fresh (target.beside name) (backupPaths destination ++ [target]) t)
    (htarget : target ∈ companionPaths destination) :
    ¬(restoreSnapshot prim sqlite (fun _ => false) name destination
      (snapshotManifest prim sqlite db vaultId) target).Accepts t := by
  rw [(h.decides_restoreSnapshot hcopies hreads hdb' hfresh).accepts_iff]
  exact fun hpass => hpass.1.2 htarget

/-! ### All or nothing -/

/-- The files of a backup that was completed. -/
def completed (sqlite : Sqlite) (temporary : Path) (content json : Bytes) (destination : Path)
    (t : FileSystem) : FileSystem :=
  (((linked sqlite temporary content destination t).put (manifestPath destination) []).put
    (manifestPath destination) json).remove temporary

section

variable (sqlite) (content json : Bytes) {temporary : Path}
  (hfresh : Fresh temporary (backupPaths destination ++ [target]) t)

include hfresh

/-- The manifest is written to a path of its own. -/
theorem manifestPath_notMem : manifestPath destination ∉ destination :: scratch temporary := by
  rw [List.mem_cons, not_or]
  exact ⟨manifestPath_ne destination, hfresh.apart _ (by simp [backupPaths])⟩

variable (hnew : NewPath destination t)

include hnew

/-- Linking the snapshot touches the destination and the temporary files. -/
theorem touches_linked :
    t.Touches (destination :: scratch temporary) (linked sqlite temporary content destination t) := by
  have hchecked := (hfresh.touches_checked sqlite content).mono (List.subset_cons_self destination _)
  refine hchecked.put List.mem_cons_self ?_ content
  rw [Ne, hchecked.directories, hnew.2]
  nofun

variable (hmanifest : NewPath (manifestPath destination) t)

include hmanifest

/-- A completed backup has touched its two files and the paths of the temporary one. -/
theorem touches_completed :
    t.Touches (manifestPath destination :: destination :: scratch temporary)
      (completed sqlite temporary content json destination t) := by
  have hlinked : t.Touches (manifestPath destination :: destination :: scratch temporary)
      (linked sqlite temporary content destination t) :=
    (touches_linked sqlite content hfresh hnew).mono (List.subset_cons_self _ _)
  have hput : ∀ {t' : FileSystem} (bytes : Bytes),
      t.Touches (manifestPath destination :: destination :: scratch temporary) t' →
      t.Touches (manifestPath destination :: destination :: scratch temporary)
        (t'.put (manifestPath destination) bytes) := by
    intro t' bytes ht'
    refine ht'.put List.mem_cons_self ?_ bytes
    rw [Ne, ht'.directories, hmanifest.2]
    nofun
  have hwritten := hput json (hput [] hlinked)
  refine hwritten.remove ?_ (hfresh.not_directory hwritten)
  exact List.mem_cons_of_mem _ (List.mem_cons_of_mem _ List.mem_cons_self)

/-- A backup only adds files. -/
theorem extends_completed : t.Extends (completed sqlite temporary content json destination t) := by
  refine (touches_completed sqlite content json hfresh hnew hmanifest).extended fun q hq => ?_
  rcases List.mem_cons.mp hq with rfl | hq
  · exact hmanifest.2
  · rcases List.mem_cons.mp hq with rfl | hq
    · exact hnew.2
    · exact hfresh.free q hq

/-- Both files of a completed backup are there. -/
theorem node_completed :
    (completed sqlite temporary content json destination t).node destination = some (.file content) ∧
      (completed sqlite temporary content json destination t).node (manifestPath destination) =
        some (.file json) := by
  have htemporary : ∀ q ∈ backupPaths destination, q ≠ temporary := fun q hq heq =>
    hfresh.apart q (List.mem_append_left _ hq) (heq ▸ List.mem_cons_self)
  have hne : destination ≠ manifestPath destination := (manifestPath_ne destination).symm
  constructor
  · rw [completed, FileSystem.node_remove_of_ne (htemporary _ List.mem_cons_self),
      FileSystem.node_put_of_ne hne, FileSystem.node_put_of_ne hne, linked,
      FileSystem.node_put_self hnew.1.ne_empty]
  · rw [completed, FileSystem.node_remove_of_ne (htemporary _ (by simp [backupPaths])),
      FileSystem.node_put_self hmanifest.1.ne_empty]

/-- What stands beside the snapshot is as before. -/
theorem companionsOf_completed :
    companionsOf destination (completed sqlite temporary content json destination t) =
      companionsOf destination t := by
  have htouches := touches_completed sqlite content json hfresh hnew hmanifest
  have hbeside : ∀ text : Bytes, text ≠ [] → text.length ≤ 8 →
      destination.extend text ∈ backupPaths destination →
      destination.extend text ∉ manifestPath destination :: destination :: scratch temporary := by
    intro text htext hlength hmem
    rw [List.mem_cons, List.mem_cons, not_or, not_or]
    exact ⟨(manifestPath_ne_extend hlength destination).symm, Path.extend_ne htext destination,
      hfresh.apart _ (List.mem_append_left _ hmem)⟩
  unfold companionsOf
  rw [journalPath, walPath, shmPath,
    htouches.only _ (hbeside _ (by decide +kernel) (by decide +kernel) (by simp [backupPaths, journalPath])),
    htouches.only _ (hbeside _ (by decide +kernel) (by decide +kernel) (by simp [backupPaths, walPath])),
    htouches.only _ (hbeside _ (by decide +kernel) (by decide +kernel) (by simp [backupPaths, shmPath]))]

/-- The target is a new path behind a completed backup if it was one before and is none of its files. -/
theorem newPath_completed :
    NewPath target (completed sqlite temporary content json destination t) ↔
      NewPath target t ∧ target ≠ destination ∧ target ≠ manifestPath destination := by
  have htouches := touches_completed sqlite content json hfresh hnew hmanifest
  obtain ⟨hsnapshot, hsidecar⟩ := node_completed sqlite content json hfresh hnew hmanifest
  have hapart (hne : target ≠ destination) (hne' : target ≠ manifestPath destination) :
      target ∉ manifestPath destination :: destination :: scratch temporary := by
    simpa [hne, hne'] using hfresh.apart target (by simp)
  constructor
  · intro htarget
    have hne : target ≠ destination := by
      rintro rfl
      exact absurd (htarget.2.symm.trans hsnapshot) nofun
    have hne' : target ≠ manifestPath destination := by
      rintro rfl
      exact absurd (htarget.2.symm.trans hsidecar) nofun
    exact ⟨(newPath_congr htouches (hapart hne hne')).mp htarget, hne, hne'⟩
  · rintro ⟨htarget, hne, hne'⟩
    exact (newPath_congr htouches (hapart hne hne')).mpr htarget

end

/-- What a backup promises: it changes no path that was there; without success neither file has come into
existence; and with success both are there, the manifest is read back, the pair verifies, and if the target is a
new path, restoring to it gives a database with the same tables. The restoring draws its own temporary name. -/
structure AllOrNothing (prim : Primitives) (sqlite : Sqlite) (manifests : Codec BackupManifest)
    (db : Database) (destination target : Path) (restoring : Bytes) (t : FileSystem)
    (o : Outcome VaultError FileSystem BackupManifest) : Prop where
  extend : t.Extends o.state
  absent : (∀ m t', o ≠ .ok m t') → ∀ p, p = destination ∨ p = manifestPath destination →
    t.node p = none → o.state.node p = none
  complete : ∀ m t', o = .ok m t' →
    t'.node destination ≠ none ∧ t'.node (manifestPath destination) ≠ none ∧
    readFrom manifests (fun _ => false) (manifestPath destination) t' = .ok m t' ∧
    (∃ t'', verifyBackup prim sqlite (fun _ => false) m destination t' = .ok () t'') ∧
    (NewPath target t' → ∃ t'' content,
      restoreSnapshot prim sqlite (fun _ => false) restoring destination m target t' = .ok () t'' ∧
      t''.node target = some (.file content) ∧ sqlite.tables content .absent = some db)

/-- A connection finds nothing wrong with the snapshot beside what stands there; and if the target is a new
path, it finds the tables as they are, and the target is not one of the files it makes. -/
def Restorable (sqlite : Sqlite) (db : Database) (vaultId : VaultId) (destination target : Path)
    (t : FileSystem) : Prop :=
  ∃ db', Verifies sqlite (sqlite.image db) (companionsOf destination t) vaultId db' ∧
    (NewPath target t → target ≠ destination → target ≠ manifestPath destination →
      db' = db ∧ target ∉ companionPaths destination)

end

/-! ### A snapshot without its manifest -/

open Json in
/-- A manifest as JSON. -/
def manifestJson (m : BackupManifest) : Bytes :=
  object (field "format" (string m.format)) [field "vault_id" (string m.vaultId),
    field "database_sha256" (string m.databaseSha256),
    field "database_bytes" (number m.databaseBytes.toNat)]

open Json in
/-- The sample encoding of manifests loses nothing. -/
theorem manifestJson_injective : Function.Injective manifestJson := by
  rintro ⟨format, vaultId, sha, bytes⟩ ⟨format', vaultId', sha', bytes'⟩ h
  simp only [manifestJson, object, List.flatMap_cons, List.flatMap_nil, List.cons_append,
    List.append_assoc, List.append_nil, List.cons.injEq, true_and] at h
  obtain ⟨rfl, hid⟩ := field_string_inj h
  obtain ⟨rfl, hsha⟩ := field_string_inj (List.cons.inj hid).2
  obtain ⟨rfl, hbytes⟩ := field_string_inj (List.cons.inj hsha).2
  have hnumber := field_append_inj (List.cons.inj hbytes).2
  rw [UInt64.toNat_inj.mp (number_append_inj (by decide) hnumber).1]

/-- The tables of a new vault. -/
def sampleTables : Database := sampleWorld.db

/-- An SQLite that knows these tables only, and reads no journal and no log with anything in it. -/
def sampleSqlite : Sqlite where
  image _ := [83]
  usesWal content := content = [83]
  tables content c :=
    if content = [83] ∧ c.journal = none ∧ c.wal.getD (.file []) = .file [] then some sampleTables else none
  integrityCheck _ _ := "ok"
  walIndex _ _ := []

/-- The sample SQLite reads one content, when no journal and no log change it. -/
theorem tables_sample (content : Bytes) (c : Companions) :
    sampleSqlite.tables content c =
      if content = [83] ∧ c.journal = none ∧ c.wal.getD (.file []) = .file [] then some sampleTables
      else none := rfl

/-- The sample SQLite copies. -/
theorem copies_sample : sampleSqlite.Copies sampleTables where
  usesWal := by decide
  tables := by
    rw [tables_sample, if_pos (by decide)]
  again c db' h := by
    obtain ⟨-, heq⟩ := Option.ite_none_right_eq_some.mp h
    rw [tables_sample, if_pos ⟨rfl, rfl, rfl⟩, heq]

/-- The sample SQLite leaves what it reads. -/
theorem readsOnly_sample : sampleSqlite.ReadsOnly where
  tables_leaves content c := by
    unfold Sqlite.leaves
    split
    · rfl
    · rfl
  integrityCheck_leaves _ _ := rfl

/-- A directory with these files. -/
def directoryWith (files : List Path) : FileSystem where
  node p := if p = ⟨true, []⟩ then some .directory
    else if p ∈ files ∧ p ≠ .empty then some (.file []) else none
  node_empty := by simp [Path.empty]

/-- A destination in it, and a path to restore to. -/
def sampleDestination : Path := ⟨true, [[98]]⟩

@[inherit_doc sampleDestination]
def sampleTarget : Path := ⟨true, [[114]]⟩

/-- A backup of the sample tables in which no call fails. -/
noncomputable def sampleSnapshot (files : List Path) : Outcome VaultError FileSystem BackupManifest :=
  createSnapshot .checksum sampleSqlite (Codec.ofInjective manifestJson) (fun _ => false) 0 [115]
    sampleTables sampleWorld.vaultId sampleDestination (directoryWith files)

end Vlt1.Backup

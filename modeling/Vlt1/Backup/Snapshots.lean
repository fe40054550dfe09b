import Vlt1.Backup.Connections

/-!
# Backups: making a snapshot

`create_snapshot` has two parts. Up to the hard link (`createThen`) a failure leaves nothing but what SQLite has
put beside the temporary file (`decides_createThen`); behind it (`finishSnapshot`) the snapshot stays where it
is, whatever becomes of the manifest (`decides_finishSnapshot`).
-/

namespace Vlt1.Backup

open Effect Files Protocol

/-! ### Temporary files -/

/-- A temporary file, and what SQLite may put beside it. -/
def scratch (temporary : Path) : List Path :=
  [temporary, journalPath temporary, walPath temporary, shmPath temporary]

/-- Nothing is at these paths yet, and none of them is to be kept. -/
structure Fresh (temporary : Path) (kept : List Path) (t : FileSystem) : Prop where
  free : ∀ q ∈ scratch temporary, t.node q = none
  apart : ∀ q ∈ kept, q ∉ scratch temporary

/-- The temporary file was made and the database was copied into it. -/
def copied (temporary : Path) (content : Bytes) (t : FileSystem) : FileSystem :=
  (t.put temporary []).put temporary content

section

variable {temporary : Path} {kept : List Path} {t : FileSystem}

theorem companionPaths_subset (temporary : Path) : companionPaths temporary ⊆ scratch temporary := by
  simp [companionPaths, scratch]

namespace Fresh

theorem not_directory (h : Fresh temporary kept t) {paths : List Path} {t' : FileSystem}
    (htouches : t.Touches paths t') : t'.node temporary ≠ some .directory := by
  rw [Ne, htouches.directories, h.free temporary List.mem_cons_self]
  nofun

/-- The temporary file is written. -/
theorem touches_put (h : Fresh temporary kept t) {paths : List Path} {t' : FileSystem}
    (htouches : t.Touches (temporary :: paths) t') (content : Bytes) :
    t.Touches (temporary :: paths) (t'.put temporary content) :=
  htouches.put List.mem_cons_self (h.not_directory htouches) content

theorem touches_copied (h : Fresh temporary kept t) (content : Bytes) :
    t.Touches [temporary] (copied temporary content t) :=
  h.touches_put (h.touches_put (.refl _ t) []) content

/-- Beside a fresh temporary file there is nothing, whatever was done to the paths that are kept. -/
theorem companionsOf_eq (h : Fresh temporary kept t) {paths : List Path} {t' : FileSystem}
    (htouches : t.Touches (temporary :: paths) t') (hpaths : paths ⊆ kept) :
    companionsOf temporary t' = .absent := by
  have hbeside : ∀ text : Bytes, text ≠ [] → temporary.extend text ∈ scratch temporary →
      t'.node (temporary.extend text) = none := by
    intro text htext hmem
    rw [htouches.only, h.free _ hmem]
    rw [List.mem_cons, not_or]
    exact ⟨Path.extend_ne htext temporary, fun hq => h.apart _ (hpaths hq) hmem⟩
  unfold companionsOf Companions.absent
  rw [journalPath, walPath, shmPath, hbeside _ (by decide +kernel) (by simp [scratch, journalPath]),
    hbeside _ (by decide +kernel) (by simp [scratch, walPath]),
    hbeside _ (by decide +kernel) (by simp [scratch, shmPath])]

/-- Removing the temporary file leaves nothing else touched. -/
theorem remove (h : Fresh temporary kept t) {t' : FileSystem} (htouches : t.Touches (scratch temporary) t') :
    t.Touches (scratch temporary) (t'.remove temporary) :=
  htouches.remove List.mem_cons_self (h.not_directory htouches)

end Fresh

theorem node_copied (htemporary : temporary ≠ .empty) (content : Bytes) :
    (copied temporary content t).node temporary = some (.file content) :=
  FileSystem.node_put_self htemporary

/-- A database without companions can be opened. -/
theorem openable_absent (sqlite : Sqlite) (content : Bytes) : Openable sqlite content .absent :=
  fun _ => ⟨nofun, nofun⟩

/-- A copy in a fresh temporary file is opened. -/
theorem Fresh.touches_connected (h : Fresh temporary kept t) (sqlite : Sqlite) (content : Bytes) :
    (copied temporary content t).Touches (companionPaths temporary)
      (connected sqlite temporary content (copied temporary content t)) := by
  refine Backup.touches_connected ?_
  rw [h.companionsOf_eq (h.touches_copied content) (List.nil_subset _)]
  exact openable_absent _ _

/-- All of this happens at the paths of the temporary file. -/
theorem Fresh.touches_checked (h : Fresh temporary kept t) (sqlite : Sqlite) (content : Bytes) :
    t.Touches (scratch temporary) (connected sqlite temporary content (copied temporary content t)) :=
  ((h.touches_copied content).mono (by simp [scratch])).trans
    ((h.touches_connected sqlite content).mono (companionPaths_subset temporary))

end

/-! ### When a backup succeeds -/

section

variable (prim : Primitives) (sqlite : Sqlite) (manifests : Codec BackupManifest)
  (fails : SnapshotCall → Bool) (written : ℕ) (db : Database) (vaultId : VaultId)
  (destination : Path) (t : FileSystem)

/-- The calls up to the link. -/
def BeforeLink : SnapshotCall → Prop
  | .destination _ (.ancestor a) => a ∈ destination.above
  | .destination _ .self | .createTemporary | .copy | .openCopy | .syncCopy | .database _
  | .setPermissions | .publish .link => True
  | _ => False

/-- The calls behind the link. -/
def AfterLink : SnapshotCall → Prop
  | .checksum (.read n) => n ≤ (pieces (sqlite.image db)).length
  | .manifest (.ancestor a) => a ∈ (manifestPath destination).above
  | .publish (.parent _) | .checksum .openFile | .manifest .self | .write _ => True
  | _ => False

/-- A snapshot that gets as far as the link. -/
structure Publishable : Prop where
  path : NewPath destination t
  integrity : sqlite.integrityCheck (sqlite.image db) .absent = "ok"
  foreignKeys : db.ForeignKeysHold
  vaultId : selectVaultId db = .ok vaultId
  calls : ∀ c, BeforeLink destination c → fails c = false

/-- Nothing is in the way of the manifest, and no call behind the link fails. -/
structure Completable : Prop where
  manifest : NewPath (manifestPath destination) t
  size : (sqlite.image db).length < 2 ^ 64
  calls : ∀ c, AfterLink sqlite db destination c → fails c = false

/-- The manifest of a snapshot. -/
def snapshotManifest : BackupManifest where
  format := backupFormat
  vaultId := vaultId.toHex
  databaseSha256 := hexEncode (prim.sha256 (sqlite.image db)).toList
  databaseBytes := UInt64.ofNat (sqlite.image db).length

/-- `create_snapshot` from the copy to the link. -/
def linkSnapshot (temporary : Path) : DiskOp Unit := do
  backupInto sqlite (fails .copy) db temporary
  syncFile (fails .openCopy) (fails .syncCopy)
  let snapshotVaultId ← verifySnapshotDatabase sqlite (fun c => fails (.database c)) temporary
  Op.require (snapshotVaultId = vaultId) (.invariant "backup vault ID binding")
  attempt (fails .setPermissions) .storage
  hardLink (fails (.publish .link)) temporary destination

/-- `create_snapshot` up to the link, and what follows. -/
def createThen {α : Type} (name : Bytes) (rest : DiskOp α) : DiskOp α := do
  ensureNewDestination (fun c => fails (.destination false c)) destination
  let temporary ← createTemporaryFile (fun c => fails (.destination true c)) (fails .createTemporary)
    destination name
  Op.ensuring (·.remove temporary) do
    linkSnapshot sqlite fails db vaultId destination temporary
    rest

/-- `create_snapshot` behind the link. -/
def finishSnapshot : DiskOp BackupManifest := do
  syncParent (fun c => fails (.publish (.parent c))) destination
  let manifest ← fromSnapshot prim (fun c => fails (.checksum c)) vaultId destination
  ensureNewDestination (fun c => fails (.manifest c)) (manifestPath destination)
  writeTo manifests (fun c => fails (.write c)) written manifest (manifestPath destination)
  return manifest

end

section

variable {prim : Primitives} {sqlite : Sqlite} {manifests : Codec BackupManifest}
  {fails : SnapshotCall → Bool} {written : ℕ} {name : Bytes} {db : Database} {vaultId : VaultId}
  {destination : Path} {kept : List Path} {t : FileSystem}

/-- The snapshot was linked to its destination. -/
def linked (sqlite : Sqlite) (temporary : Path) (content : Bytes) (destination : Path) (t : FileSystem) :
    FileSystem :=
  (connected sqlite temporary content (copied temporary content t)).put destination content

theorem createSnapshot_eq :
    createSnapshot prim sqlite manifests fails written name db vaultId destination =
      createThen sqlite fails db vaultId destination name
        (finishSnapshot prim manifests fails written vaultId destination) := by
  simp only [createSnapshot, createThen, linkSnapshot, finishSnapshot, publishNewFile, Op.bind_assoc]

theorem decides_backupInto {temporary : Path} (fails : Bool) {R : FileSystem → Prop} (hR : R t) :
    Op.Decides t (fails = false) (backupInto sqlite fails db temporary)
      (.ok () (t.put temporary (sqlite.image db))) R :=
  ((decides_attempt fails .storage hR).bind fun _ => .of_eq rfl).congr (and_iff_left trivial)

/-- Up to the link, `create_snapshot` leaves no trace but what SQLite leaves beside the temporary file. -/
theorem decides_createThen {α : Type} (rest : DiskOp α) (hcopies : sqlite.Copies db)
    (hfresh : Fresh (destination.beside name) kept t) (hkept : destination ∈ kept) :
    Op.Decides t (Publishable sqlite fails db vaultId destination t)
      (createThen sqlite fails db vaultId destination name rest)
      ((rest (linked sqlite (destination.beside name) (sqlite.image db) destination t)).cleanUp
        (·.remove (destination.beside name)))
      (t.Touches (scratch (destination.beside name))) := by
  have hR := FileSystem.Touches.refl (scratch (destination.beside name)) t
  have hname : destination.beside name ≠ .empty := Path.beside_ne_empty _ _
  have hcreated : t.Touches (scratch (destination.beside name)) (t.put (destination.beside name) []) :=
    hfresh.touches_put hR []
  have habsent := hfresh.companionsOf_eq (hfresh.touches_copied (sqlite.image db)) (List.nil_subset _)
  have hcopied : t.Touches (scratch (destination.beside name))
      (copied (destination.beside name) (sqlite.image db) t) := hfresh.touches_put hcreated _
  have hfile : (copied (destination.beside name) (sqlite.image db) t).node (destination.beside name) =
      some (.file (sqlite.image db)) := node_copied hname _
  have hconnected := hfresh.touches_connected sqlite (sqlite.image db)
  have hleft := hfresh.touches_checked sqlite (sqlite.image db)
  -- the link
  have hlink : Op.Decides (connected sqlite (destination.beside name) (sqlite.image db)
        (copied (destination.beside name) (sqlite.image db) t))
      (True ∧ fails (.publish .link) = false ∧ destination ≠ .empty ∧ t.node destination = none)
      (hardLink (fails (.publish .link)) (destination.beside name) destination)
      (.ok () (linked sqlite (destination.beside name) (sqlite.image db) destination t))
      (t.Touches (scratch (destination.beside name))) := by
    rw [← hleft.only destination (hfresh.apart destination hkept)]
    refine (Op.Decides.of_eq (contentOf_file ?_)).bind fun _ => decides_createFile _ _ hleft
    rw [hconnected.only _ fun hmem => ne_of_mem_companionPaths hmem rfl, hfile]
  simp only [createThen, linkSnapshot, ensureNewDestination, createTemporaryFile, syncFile, Op.bind_assoc,
    Op.pure_bind]
  refine Op.Decides.congr ((decides_validateNewRegularFile _ hR).bind fun _ =>
    (decides_validateNewRegularFile _ hR).bind fun _ => (Op.Decides.require _ hR).bind fun _ =>
    (decides_createFile _ _ hR).bind fun _ => Op.Decides.ensuring
    ((decides_backupInto _ hcreated).bind fun _ => (decides_attempt _ _ hcopied).bind fun _ =>
    (decides_attempt _ _ hcopied).bind fun _ =>
    decides_verifySnapshotDatabase _ hfile (habsent ▸ hcopies.tables)
      (fun t' ht' => hcopied.trans (ht'.mono (companionPaths_subset _))) fun _ v =>
      (Op.Decides.require _ hleft).bind fun _ => (decides_attempt _ _ hleft).bind fun _ =>
      hlink.bind fun _ => .of_eq rfl) fun _ => hfresh.remove) ?_
  rw [habsent]
  have hopens : sqlite.opensLog (sqlite.image db) .absent = true := by
    rw [Sqlite.opensLog, hcopies.usesWal, Bool.true_or]
  constructor
  · rintro ⟨⟨hnew, habove, hself⟩, ⟨-, habove', hself'⟩, -, ⟨htemporary, -⟩, hcopy, hopen, hsync,
      ⟨⟨-, hdatabase, hlog⟩, ⟨hcheck, hforeign, hselect⟩, hintegrity, hkeys⟩, v, hid, rfl, hpermissions,
      ⟨-, hlinked, -⟩, -⟩
    refine ⟨hnew, hintegrity, hkeys, hid, fun c hc => ?_⟩
    -- only the calls up to the link are asked for
    cases c with
    | destination again c =>
      cases c with
      | ancestor a => cases again with
        | false => exact habove a hc
        | true => exact habove' a hc
      | self => cases again with
        | false => exact hself
        | true => exact hself'
    | createTemporary => exact htemporary
    | copy => exact hcopy
    | openCopy => exact hopen
    | syncCopy => exact hsync
    | database c =>
      cases c with
      | connect c =>
        cases c with
        | openDatabase => exact hdatabase
        | openLog => exact (hlog hopens).1
        | openIndex => exact (hlog hopens).2
      | integrityCheck => exact hcheck
      | foreignKeyCheck => exact hforeign
      | selectVaultId => exact hselect
    | setPermissions => exact hpermissions
    | publish c => cases c with
      | link => exact hlinked
      | _ => exact hc.elim
    | checksum | manifest | write => exact hc.elim
  · rintro ⟨hnew, hintegrity, hkeys, hid, hcalls⟩
    have hinspects : ∀ again, Inspects (fun c => fails (.destination again c)) destination :=
      fun again => ⟨fun a ha => hcalls (.destination again (.ancestor a)) ha,
        hcalls (.destination again .self) trivial⟩
    have hdatabase : ∀ c, fails (.database c) = false := fun c => hcalls (.database c) trivial
    exact ⟨⟨hnew, hinspects false⟩, ⟨hnew, hinspects true⟩, hnew.1.1,
      ⟨hcalls .createTemporary trivial, hname, hfresh.free _ List.mem_cons_self⟩,
      hcalls .copy trivial, hcalls .openCopy trivial, hcalls .syncCopy trivial,
      ⟨⟨openable_absent _ _, hdatabase _, fun _ => ⟨hdatabase _, hdatabase _⟩⟩,
        ⟨hdatabase _, hdatabase _, hdatabase _⟩, hintegrity, hkeys⟩, vaultId, hid, rfl,
      hcalls .setPermissions trivial,
      ⟨trivial, hcalls (.publish .link) trivial, hnew.1.ne_empty, hnew.2⟩, trivial⟩

theorem decides_createSnapshot (hcopies : sqlite.Copies db)
    (hfresh : Fresh (destination.beside name) kept t) (hkept : destination ∈ kept) :
    Op.Decides t (Publishable sqlite fails db vaultId destination t)
      (createSnapshot prim sqlite manifests fails written name db vaultId destination)
      ((finishSnapshot prim manifests fails written vaultId destination
        (linked sqlite (destination.beside name) (sqlite.image db) destination t)).cleanUp
          (·.remove (destination.beside name)))
      (t.Touches (scratch (destination.beside name))) := by
  rw [createSnapshot_eq]
  exact decides_createThen _ hcopies hfresh hkept

/-- `write_new_file` to a new path. -/
theorem decides_writeNewFile {fails : WriteCall → Bool} {path : Path} {bytes : Bytes}
    {R : FileSystem → Prop} (hpath : NewPath path t) (hR : ∀ t', t.Touches [path] t' → R t') :
    Op.Decides t (∀ c, fails c = false) (writeNewFile fails written path bytes)
      (.ok () ((t.put path []).put path bytes)) R := by
  have hput : ∀ {t' : FileSystem}, t.Touches [path] t' → ∀ content,
      t.Touches [path] (t'.put path content) := by
    intro t' ht' content
    refine ht'.put List.mem_cons_self ?_ content
    rw [Ne, ht'.directories, hpath.2]
    nofun
  have hstart := FileSystem.Touches.refl [path] t
  have hempty := hput hstart []
  have hfull := hput hempty bytes
  have hwrite : Op.Decides (t.put path []) (fails .write = false)
      (writeAll (fails .write) written path bytes) (.ok () ((t.put path []).put path bytes)) R := by
    unfold writeAll
    split
    · rename_i hfails
      refine ⟨fun h => ?_, fun _ => ⟨.storage, _, rfl, hR _ (hput hempty (bytes.take written))⟩⟩
      rw [h] at hfails
      cases hfails
    · rename_i hfails
      exact (Op.Decides.of_eq rfl).congr ⟨fun _ => by simpa using hfails, fun _ => trivial⟩
  refine Op.Decides.congr ((decides_createFile (fails .create) [] (hR t hstart)).bind
    fun _ => hwrite.bind fun _ => (decides_attempt _ _ (hR _ hfull)).bind fun _ =>
    decides_syncParent _ ((below_congr hfull).mpr hpath.1) (hR _ hfull)) ⟨?_, ?_⟩
  · rintro ⟨⟨hcreate, -⟩, hwritten, hsync, hparent⟩ (_ | _ | _ | c)
    exacts [hcreate, hwritten, hsync, hparent c]
  · exact fun h => ⟨⟨h _, hpath.1.ne_empty, hpath.2⟩, h _, h _, fun c => h _⟩

/-- The name of the manifest is longer than that of the snapshot by more than any ending of SQLite. -/
theorem manifestPath_ne_extend {text : Bytes} (htext : text.length ≤ 8) (path : Path) :
    manifestPath path ≠ path.extend text := by
  intro heq
  have hlength := congrArg Path.nameLength heq
  rw [manifestPath, Path.nameLength_extend, Path.nameLength_extend,
    show (Json.utf8 ".vlt1-backup.json").length = 17 by decide +kernel] at hlength
  have hdisplay := path.nameLength_le_display
  omega

theorem manifestPath_ne (path : Path) : manifestPath path ≠ path := by
  intro heq
  have hlength := congrArg Path.nameLength heq
  rw [manifestPath, Path.nameLength_extend,
    show (Json.utf8 ".vlt1-backup.json").length = 17 by decide +kernel] at hlength
  have hdisplay := path.nameLength_le_display
  omega

/-- Behind the link, `create_snapshot` adds the manifest, and leaves the snapshot in any case. -/
theorem decides_finishSnapshot {json : Bytes} {paths : List Path} {t' : FileSystem}
    (hpath : Below destination t) (htouches : t.Touches paths t')
    (hfile : t'.node destination = some (.file (sqlite.image db)))
    (hmanifest : manifestPath destination ∉ paths)
    (hjson : manifests.toVec (snapshotManifest prim sqlite db vaultId) = some json) :
    Op.Decides t' (Completable sqlite fails db destination t)
      (finishSnapshot prim manifests fails written vaultId destination)
      (.ok (snapshotManifest prim sqlite db vaultId)
        ((t'.put (manifestPath destination) []).put (manifestPath destination) json))
      (fun t'' => t''.node destination = some (.file (sqlite.image db))) := by
  have hR : ∀ t'', t'.Touches [manifestPath destination] t'' →
      t''.node destination = some (.file (sqlite.image db)) := by
    intro t'' ht''
    rw [ht''.only destination, hfile]
    rw [List.mem_singleton]
    exact (manifestPath_ne destination).symm
  have hwrite : NewPath (manifestPath destination) t' →
      Op.Decides t' (∀ c, fails (.write c) = false)
        (writeTo manifests (fun c => fails (.write c)) written
          (snapshotManifest prim sqlite db vaultId) (manifestPath destination))
        (.ok () ((t'.put (manifestPath destination) []).put (manifestPath destination) json))
        (fun t'' => t''.node destination = some (.file (sqlite.image db))) := by
    intro hnew
    unfold writeTo
    rw [hjson]
    exact decides_writeNewFile hnew hR
  simp only [finishSnapshot, fromSnapshot, Op.bind_assoc]
  refine Op.Decides.congr ((decides_syncParent _ ((below_congr htouches).mpr hpath) hfile).bind fun _ =>
    (decides_checksumFile prim _ hfile hfile).bind fun _ =>
    (decides_validateNewRegularFile _ hfile).bind fun h =>
    (hwrite h.1).bind fun _ => .of_eq rfl) ?_
  rw [newPath_congr htouches hmanifest]
  constructor
  · rintro ⟨hparent, ⟨hsize, hopen, hreads⟩, ⟨hnew, habove, hself⟩, hcalls, -⟩
    refine ⟨hnew, hsize, fun c hc => ?_⟩
    cases c with
    | publish c => cases c with
      | parent c => exact hparent c
      | link => exact hc.elim
    | checksum c => cases c with
      | openFile => exact hopen
      | read n => exact hreads n hc
    | manifest c => cases c with
      | ancestor a => exact habove a hc
      | self => exact hself
    | write c => exact hcalls c
    | _ => exact hc.elim
  · rintro ⟨hnew, hsize, hcalls⟩
    exact ⟨fun c => hcalls (.publish (.parent c)) trivial,
      ⟨hsize, hcalls (.checksum .openFile) trivial, fun n hn => hcalls (.checksum (.read n)) hn⟩,
      ⟨hnew, fun a ha => hcalls (.manifest (.ancestor a)) ha, hcalls (.manifest .self) trivial⟩,
      fun c => hcalls (.write c) trivial, trivial⟩

end

end Vlt1.Backup

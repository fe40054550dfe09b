import Vlt1.Backup.Basic

/-!
# Backups: paths and connections

When the checks of paths, the checksums and the connections to a database succeed, and what they leave in the
file system (`Op.Decides`).
-/

namespace Vlt1.Backup

open Effect Files Protocol

/-! ### Paths and files -/

section

variable {t : FileSystem} {R : FileSystem → Prop} {path : Path} {input : String}

/-- A call of the system goes through exactly when it does not fail. -/
theorem decides_attempt (fails : Bool) (e : VaultError) (hR : R t) :
    Op.Decides t (fails = false) (attempt fails e) (.ok () t) R := .require e hR

/-- The path has a parent, and everything above it is a directory. -/
def Below (path : Path) (t : FileSystem) : Prop :=
  path.parent ≠ none ∧ ∀ a ∈ path.above, t.node a = some .directory

/-- No call of a path check fails. -/
def Inspects (fails : PathCall → Bool) (path : Path) : Prop :=
  (∀ a ∈ path.above, fails (.ancestor a) = false) ∧ fails .self = false

/-- A path for a new file. -/
def NewPath (path : Path) (t : FileSystem) : Prop := Below path t ∧ t.node path = none

/-- The parent is accepted exactly when what stands above the path are real directories that can be
looked at. -/
theorem decides_validateParentDirectory (fails : PathCall → Bool) (hR : R t) :
    Op.Decides t (Below path t ∧ ∀ a ∈ path.above, fails (.ancestor a) = false)
      (validateParentDirectory fails path input) (.ok () t) R := by
  unfold validateParentDirectory
  cases hparent : path.parent with
  | none => exact (Op.Decides.fail _ _ hR).congr ⟨False.elim, fun h => h.1.1 hparent⟩
  | some parent =>
    have habove : path.above = parent.orHere.ancestors := by rw [Path.above, hparent]; rfl
    have hcheck : ∀ a, Op.Decides t (fails (.ancestor a) = false ∧ t.node a = some .directory)
        (do attempt (fails (.ancestor a)) (.invalidInput input)
            Op.require (t.node a = some .directory) (.invalidInput input)) (.ok () t) R :=
      fun a => (decides_attempt _ _ hR).bind fun _ => .require _ hR
    refine (Op.Decides.get_bind (Op.Decides.fold hcheck _)).congr ?_
    rw [Below, hparent, habove]
    constructor
    · exact fun h => ⟨⟨Option.some_ne_none _, fun a ha => (h a ha).2⟩, fun a ha => (h a ha).1⟩
    · exact fun h a ha => ⟨h.2 a ha, h.1.2 a ha⟩

/-- A new path is accepted exactly when nothing stands there, below real directories. -/
theorem decides_validateNewRegularFile (fails : PathCall → Bool) (hR : R t) :
    Op.Decides t (NewPath path t ∧ Inspects fails path) (validateNewRegularFile fails path input)
      (.ok () t) R := by
  have hlast : Op.Decides t (t.node path = none) (do
      let t ← Op.get
      Op.require (t.node path = none) (.invalidInput input) : DiskOp Unit) (.ok () t) R :=
    .get_bind (.require _ hR)
  refine ((decides_validateParentDirectory fails hR).bind fun _ => (decides_attempt _ _ hR).bind
    fun _ => hlast).congr ?_
  rw [NewPath, Inspects]
  tauto

/-- A file that is there is accepted exactly when it stands below real directories. -/
theorem decides_validateExistingRegularFile (fails : PathCall → Bool) {content : Bytes}
    (hfile : t.node path = some (.file content)) (hR : R t) :
    Op.Decides t (Below path t ∧ Inspects fails path)
      (validateExistingRegularFile fails path input) (.ok () t) R := by
  unfold validateExistingRegularFile
  refine ((decides_validateParentDirectory fails hR).bind fun _ => (decides_attempt _ _ hR).bind
    fun _ => .of_eq ?_).congr ?_
  · rw [Op.bind_of_ok (Op.get_apply t), hfile]
    rfl
  · rw [Inspects]
    tauto

/-- Everything above a path includes its parent. -/
theorem Below.parent (h : Below path t) : ∃ d, path.parent = some d ∧ t.node d = some .directory := by
  obtain ⟨hparent, habove⟩ := h
  obtain ⟨d, hd⟩ := Option.ne_none_iff_exists'.mp hparent
  rw [Path.above, hd] at habove
  refine ⟨d, hd, ?_⟩
  by_cases hempty : d = .empty
  · -- the path of the working directory goes on to the empty path, which names nothing
    have hnode := habove .empty (by rw [hempty]; exact Path.empty_mem_ancestors rfl)
    rw [t.node_empty] at hnode
    cases hnode
  · have hnode := habove d.orHere (Path.mem_ancestors_self _)
    rwa [Path.orHere, if_neg hempty] at hnode

/-- Files make no difference to the directories above a path. -/
theorem below_congr {paths : List Path} {t' : FileSystem} (h : t.Touches paths t') :
    Below path t' ↔ Below path t :=
  and_congr_right fun _ => forall₂_congr fun a _ => h.directories a

/-- A path is as new as before when only other paths were touched. -/
theorem newPath_congr {paths : List Path} {t' : FileSystem} (h : t.Touches paths t')
    (hpath : path ∉ paths) : NewPath path t' ↔ NewPath path t := by
  rw [NewPath, NewPath, below_congr h, h.only path hpath]

/-- The empty path stands below nothing. -/
theorem Below.ne_empty (h : Below path t) : path ≠ .empty := by
  rintro rfl
  exact h.1 rfl

/-- The parent of a path below real directories is synced exactly when no call fails. -/
theorem decides_syncParent (fails : ParentCall → Bool) (hbelow : Below path t) (hR : R t) :
    Op.Decides t (∀ c, fails c = false) (syncParent fails path) (.ok () t) R := by
  obtain ⟨d, hparent, hd⟩ := hbelow.parent
  unfold syncParent
  rw [hparent]
  have hopen : Op.Decides t (t.node d ≠ none ∧ fails .syncParent = false) (do
      let t ← Op.get
      Op.require (t.node d ≠ none) .storage
      attempt (fails .syncParent) .storage) (.ok () t) R :=
    .get_bind ((Op.Decides.require _ hR).bind fun _ => decides_attempt _ _ hR)
  refine ((decides_attempt _ _ hR).bind fun _ => hopen).congr ⟨?_, ?_⟩
  · rintro ⟨hopen, -, hsync⟩ (_ | _)
    · exact hopen
    · exact hsync
  · exact fun h => ⟨h _, by rw [hd]; nofun, h _⟩

/-- A file is created exactly where nothing stands. -/
theorem decides_createFile (fails : Bool) (content : Bytes) (hR : R t) :
    Op.Decides t (fails = false ∧ path ≠ .empty ∧ t.node path = none) (createFile fails content path)
      (.ok () (t.put path content)) R := by
  refine (decides_attempt _ _ hR).bind fun _ => Op.Decides.get_bind ?_
  cases hcreate : t.create path content with
  | none =>
    refine (Op.Decides.fail _ _ hR).congr ⟨False.elim, fun h => ?_⟩
    rw [FileSystem.create_eq_some.mpr ⟨h, rfl⟩] at hcreate
    cases hcreate
  | some t' =>
    obtain ⟨hfree, rfl⟩ := FileSystem.create_eq_some.mp hcreate
    exact (Op.Decides.of_eq rfl).congr ⟨fun _ => hfree, fun _ => trivial⟩

/-! ### Checksums -/

/-- The loop hashes and counts what it reads. -/
theorem decides_checksumPieces (fails : ReadCall → Bool) (hR : R t) (l : List Bytes) (hashed : Bytes)
    {bytes : ℕ} (n : ℕ) (hbytes : bytes < 2 ^ 64) :
    Op.Decides t (bytes + l.flatten.length < 2 ^ 64 ∧ ∀ k < l.length, fails (.read (n + k)) = false)
      (Op.fold (checksumPiece fails) (hashed, bytes, n) l)
      (.ok (hashed ++ l.flatten, bytes + l.flatten.length, n + l.length) t) R := by
  induction l generalizing hashed bytes n with
  | nil =>
    refine (Op.Decides.of_eq ?_).congr ⟨fun _ => ⟨by simpa using hbytes, by simp⟩, fun _ => trivial⟩
    rw [List.flatten_nil, List.append_nil]
    rfl
  | cons piece l ih =>
    have hstep : Op.Decides t (fails (.read n) = false ∧ bytes + piece.length < 2 ^ 64)
        (checksumPiece fails (hashed, bytes, n) piece)
        (.ok (hashed ++ piece, bytes + piece.length, n + 1) t) R := by
      refine ((decides_attempt _ _ hR).bind fun _ => (Op.Decides.require _ hR).bind
        fun _ => .of_eq rfl).congr ?_
      tauto
    have hall := hstep.bind (f := fun state => Op.fold (checksumPiece fails) state l)
      fun h => ih (hashed ++ piece) (n + 1) h.2
    rw [List.flatten_cons, List.length_append, List.length_cons]
    rw [List.append_assoc, Nat.add_assoc bytes, Nat.add_assoc n, Nat.add_comm 1] at hall
    refine hall.congr ⟨fun h => ⟨h.2.1, fun k hk => ?_⟩, fun h => ⟨⟨h.2 0 (by omega), by omega⟩,
      h.1, fun k hk => ?_⟩⟩
    · cases k with
      | zero => exact h.1.1
      | succ k =>
        rw [Nat.add_comm k, ← Nat.add_assoc]
        exact h.2.2 k (by omega)
    · rw [Nat.add_assoc, Nat.add_comm 1]
      exact h.2 (k + 1) (by omega)

/-- No call of `checksum_file` fails for this content. -/
def Reads (fails : ReadCall → Bool) (content : Bytes) : Prop :=
  fails .openFile = false ∧ ∀ n ≤ (pieces content).length, fails (.read n) = false

/-- A file is read whole. -/
theorem contentOf_file {content : Bytes} (h : t.node path = some (.file content)) :
    contentOf path t = .ok content t := by
  rw [contentOf, Op.bind_of_ok (Op.get_apply t), h]
  rfl

/-- `checksum_file` returns the hash and the length of the file. -/
theorem decides_checksumFile (prim : Primitives) (fails : ReadCall → Bool) {content : Bytes}
    (hfile : t.node path = some (.file content)) (hR : R t) :
    Op.Decides t (content.length < 2 ^ 64 ∧ Reads fails content) (checksumFile prim fails path)
      (.ok (hexEncode (prim.sha256 content).toList, UInt64.ofNat content.length) t) R := by
  have hflatten : (pieces content).flatten = content := Chunks.flatten_chunks (by decide)
  have hloop := decides_checksumPieces fails hR (pieces content) [] 0 (show 0 < 2 ^ 64 by decide)
  simp only [hflatten, List.nil_append, Nat.zero_add] at hloop
  refine ((decides_attempt _ _ hR).bind fun _ => (Op.Decides.of_eq (contentOf_file hfile)).bind
    fun _ => hloop.bind fun _ => (decides_attempt _ _ hR).bind fun _ => .of_eq rfl).congr ?_
  rw [Reads]
  constructor
  · rintro ⟨hopen, -, ⟨hlength, hreads⟩, hlast, -⟩
    refine ⟨hlength, hopen, fun n hn => ?_⟩
    rcases hn.lt_or_eq with hlt | rfl
    · exact hreads n hlt
    · exact hlast
  · rintro ⟨hlength, hopen, hreads⟩
    exact ⟨hopen, trivial, ⟨hlength, fun n hn => hreads n hn.le⟩, hreads _ le_rfl, trivial⟩

/-! ### Databases -/

/-- The two files that a connection makes beside a database. -/
def companionPaths (path : Path) : List Path := [walPath path, shmPath path]

theorem walPath_ne_shmPath (path : Path) : walPath path ≠ shmPath path :=
  fun h => absurd (path.extend_injective h) (by decide +kernel)

/-- What stands beside a database is not the database. -/
theorem ne_of_mem_companionPaths {q : Path} (h : q ∈ companionPaths path) : path ≠ q := by
  simp only [companionPaths, List.mem_cons, List.not_mem_nil, or_false] at h
  rcases h with rfl | rfl <;> exact (Path.extend_ne (by decide +kernel) path).symm

/-- A rollback journal is no file of the write-ahead log. -/
theorem journalPath_notMem_companionPaths (path : Path) : journalPath path ∉ companionPaths path := by
  simp only [companionPaths, List.mem_cons, List.not_mem_nil, or_false]
  rintro (h | h) <;> exact absurd (path.extend_injective h) (by decide +kernel)

/-- Opening the log creates it when it is missing. -/
theorem node_logged (hpath : path ≠ .empty) (q : Path) :
    (logged path t).node q = if q = path then some ((t.node path).getD (.file [])) else t.node q := by
  unfold logged
  by_cases hq : q = path
  · rw [if_pos hq, hq]
    cases hnode : t.node path with
    | none => rw [if_pos rfl, FileSystem.node_put_self hpath]; rfl
    | some n => rw [if_neg nofun, hnode]; rfl
  · rw [if_neg hq]
    split
    · exact FileSystem.node_put_of_ne hq
    · rfl

/-- Opening the index creates it when it is missing, and writes it. -/
theorem node_indexed (hpath : path ≠ .empty) (index : Bytes) (q : Path) :
    (indexed path index t).node q = if q = path then indexNode index (t.node path) else t.node q := by
  unfold indexed indexNode
  by_cases hq : q = path
  · rw [if_pos hq, hq]
    split
    · exact FileSystem.node_put_self hpath
    · exact FileSystem.node_put_self hpath
    · assumption
  · rw [if_neg hq]
    split
    · exact FileSystem.node_put_of_ne hq
    · exact FileSystem.node_put_of_ne hq
    · rfl

/-- Opening the log touches the log only. -/
theorem touches_logged (h : t.node path ≠ some .directory) : t.Touches [path] (logged path t) := by
  unfold logged
  split
  · exact (FileSystem.Touches.refl _ t).put List.mem_cons_self h []
  · exact FileSystem.Touches.refl _ t

/-- Opening the index touches the index only. -/
theorem touches_indexed (index : Bytes) (h : t.node path ≠ some .directory) :
    t.Touches [path] (indexed path index t) := by
  unfold indexed
  split
  · exact (FileSystem.Touches.refl _ t).put List.mem_cons_self h index
  · exact (FileSystem.Touches.refl _ t).put List.mem_cons_self h index
  · exact FileSystem.Touches.refl _ t

/-- A file beside the database is opened exactly when it is no directory. -/
theorem decides_openBeside (fails : Bool) (opened : FileSystem → FileSystem) (hR : R t) :
    Op.Decides t (fails = false ∧ t.node path ≠ some .directory) (openBeside fails path opened)
      (.ok () (opened t)) R := by
  refine Op.Decides.congr ((decides_attempt _ _ hR).bind fun _ => Op.Decides.get_bind
    ((Op.Decides.require _ hR).bind fun _ => .of_eq rfl)) ?_
  rw [and_true]

variable {sqlite : Sqlite} {content : Bytes} {db : Database}

/-- Nothing keeps a connection from the files beside the database. -/
def Openable (sqlite : Sqlite) (content : Bytes) (c : Companions) : Prop :=
  sqlite.opensLog content c = true → c.wal ≠ some .directory ∧ c.shm ≠ some .directory

/-- No call of a connection fails. -/
def Connects (sqlite : Sqlite) (fails : ConnectCall → Bool) (content : Bytes) (c : Companions) : Prop :=
  Openable sqlite content c ∧ fails .openDatabase = false ∧
    (sqlite.opensLog content c = true → fails .openLog = false ∧ fails .openIndex = false)

/-- A connection makes the files beside the database and nothing else. -/
theorem touches_connected (h : Openable sqlite content (companionsOf path t)) :
    t.Touches (companionPaths path) (connected sqlite path content t) := by
  unfold connected
  split
  · rename_i hopens
    obtain ⟨hwal, hshm⟩ := h hopens
    have hlogged := touches_logged hwal
    have hshm' : (logged (walPath path) t).node (shmPath path) ≠ some .directory := by
      rwa [Ne, hlogged.directories]
    exact (hlogged.mono (by simp [companionPaths])).trans
      ((touches_indexed _ hshm').mono (by simp [companionPaths]))
  · exact FileSystem.Touches.refl _ t

/-- The files beside the database are opened exactly when neither is a directory, where the log is
used. -/
theorem decides_openCompanions (fails : ConnectCall → Bool)
    (hR : ∀ t', t.Touches (companionPaths path) t' → R t') :
    Op.Decides t (sqlite.opensLog content (companionsOf path t) = true →
        (fails .openLog = false ∧ t.node (walPath path) ≠ some .directory) ∧
          fails .openIndex = false ∧ t.node (shmPath path) ≠ some .directory)
      (openCompanions sqlite fails path content (companionsOf path t))
      (.ok () (connected sqlite path content t)) R := by
  unfold openCompanions connected
  split
  · rename_i hopens
    have hstart : R t := hR t (FileSystem.Touches.refl _ t)
    refine Op.Decides.congr ((decides_openBeside _ _ hstart).bind fun hwal =>
      decides_openBeside _ _ (hR _ ((touches_logged hwal.2).mono (by simp [companionPaths])))) ?_
    -- the index is another file than the log
    have hwal : walPath path ≠ .empty := Path.extend_ne_empty _ _
    rw [node_logged hwal, if_neg (walPath_ne_shmPath path).symm]
    exact ⟨fun h _ => h, fun h => h hopens⟩
  · rename_i hopens
    exact (Op.Decides.of_eq rfl).congr ⟨fun _ h => absurd h hopens, fun _ => trivial⟩

/-- What a connection to a database finds. -/
theorem decides_connect (fails : ConnectCall → Bool) (hfile : t.node path = some (.file content))
    (htables : sqlite.tables content (companionsOf path t) = some db)
    (hR : ∀ t', t.Touches (companionPaths path) t' → R t') :
    Op.Decides t (Connects sqlite fails content (companionsOf path t)) (connect sqlite fails path)
      (.ok (db, sqlite.integrityCheck content (companionsOf path t)) (connected sqlite path content t))
      R := by
  have hlast : Op.Decides (connected sqlite path content t) True
      (Op.ofExcept (reading sqlite content (companionsOf path t)))
      (.ok (db, sqlite.integrityCheck content (companionsOf path t)) (connected sqlite path content t))
      R := by
    unfold reading
    rw [htables]
    exact .of_eq rfl
  refine Op.Decides.congr ((decides_attempt _ _ (hR t (FileSystem.Touches.refl _ t))).bind fun _ =>
    (Op.Decides.of_eq (contentOf_file hfile)).bind fun _ => Op.Decides.get_bind
    ((decides_openCompanions fails hR).bind fun _ => hlast)) ?_
  show _ ∧ True ∧ _ ∧ True ↔ (_ → t.node (walPath path) ≠ _ ∧ t.node (shmPath path) ≠ _) ∧ _
  tauto

/-- A file that is no database is refused. -/
theorem connect_refuses {α : Type} (fails : ConnectCall → Bool)
    (hfile : t.node path = some (.file content))
    (htables : sqlite.tables content (companionsOf path t) = none) (f : Database × String → DiskOp α)
    (o : Outcome VaultError FileSystem α) :
    Op.Decides t False (connect sqlite fails path >>= f) o fun _ => True := by
  have hlast : Op.Decides (connected sqlite path content t) False
      (Op.ofExcept (reading sqlite content (companionsOf path t)) >>= f) o fun _ => True := by
    unfold reading
    rw [htables]
    exact .fail _ _ trivial
  simp only [connect, Op.bind_assoc]
  refine Op.Decides.congr ((decides_attempt _ _ trivial).bind fun _ =>
    (Op.Decides.of_eq (contentOf_file hfile)).bind fun _ => Op.Decides.get_bind
    ((decides_openCompanions fails fun _ _ => trivial).bind fun _ => hlast)) ?_
  tauto

/-- SQLite finds nothing wrong with the file, and none of the calls fails. -/
def Passes (sqlite : Sqlite) (fails : DatabaseCall → Bool) (content : Bytes) (c : Companions)
    (db : Database) : Prop :=
  Connects sqlite (fun c => fails (.connect c)) content c ∧
    (fails .integrityCheck = false ∧ fails .foreignKeyCheck = false ∧ fails .selectVaultId = false) ∧
    sqlite.integrityCheck content c = "ok" ∧ db.ForeignKeysHold

/-- What follows a check of a database gets the identifier in it. -/
theorem decides_verifySnapshotDatabase {α : Type} (fails : DatabaseCall → Bool)
    (hfile : t.node path = some (.file content))
    (htables : sqlite.tables content (companionsOf path t) = some db) {f : VaultId → DiskOp α}
    {o : Outcome VaultError FileSystem α} {q : VaultId → Prop}
    (hR : ∀ t', t.Touches (companionPaths path) t' → R t')
    (hf : Openable sqlite content (companionsOf path t) →
      ∀ v, Op.Decides (connected sqlite path content t) (q v) (f v) o R) :
    Op.Decides t (Passes sqlite fails content (companionsOf path t) db ∧ ∃ v, selectVaultId db = .ok v ∧ q v)
      (verifySnapshotDatabase sqlite fails path >>= f) o R := by
  have hlast (hopen : Openable sqlite content (companionsOf path t)) :
      Op.Decides (connected sqlite path content t) (∃ v, selectVaultId db = .ok v ∧ q v)
        (Op.ofExcept (selectVaultId db) >>= f) o R := by
    cases selectVaultId db with
    | error e => exact (Op.Decides.fail e o (hR _ (touches_connected hopen))).congr (by simp)
    | ok v => exact (hf hopen v).congr (by simp)
  simp only [verifySnapshotDatabase, Op.bind_assoc]
  refine Op.Decides.congr ((decides_connect _ hfile htables hR).bind fun hconnects => ?_)
    (p := _ ∧ fails .integrityCheck = false ∧ sqlite.integrityCheck content (companionsOf path t) = "ok" ∧
      fails .foreignKeyCheck = false ∧ db.ForeignKeysHold ∧ fails .selectVaultId = false ∧
      ∃ v, selectVaultId db = .ok v ∧ q v) ?_
  · have hend := hR _ (touches_connected hconnects.1)
    exact (decides_attempt _ _ hend).bind fun _ => (Op.Decides.require _ hend).bind fun _ =>
      (decides_attempt _ _ hend).bind fun _ => (Op.Decides.require _ hend).bind fun _ =>
      (decides_attempt _ _ hend).bind fun _ => hlast hconnects.1
  · unfold Passes
    tauto

end

end Vlt1.Backup

import Vlt1.Backup
import Vlt1.Client

/-!
# The guards of parent directories

Before a file is opened or created, each part of the system checks that all directories above it are there and
that none of them is a symbolic link: the core for its databases and backups, the daemon for its socket, the
witness for its state and the client for a plaintext output. The check is written four times.

They differ in the directories they look at. A relative path ends in the empty path, which names nothing. The
witness and the client leave it out. The core and the daemon do not, and so they refuse every relative path.
The four agree exactly on the absolute paths and on those that all of them refuse (`parent_guards_agree_iff`).
-/

namespace Vlt1

open Effect Files

/-! ### One guard with its differences as parameters -/

/-- Look at the directories `listed` for the parent of a path, in this order. An inspection may be `denied`. -/
def parentGuard {ε σ : Type} (t : FileSystem) (listed : Path → List Path) (denied : Path → Bool)
    (noParent : ε) (missing indirect : Path → ε) (path : Path) : Op ε σ Path :=
  match path.parent with
  | none => Op.fail noParent
  | some parent => do
    Op.fold (fun _ ancestor => do
      Op.require (denied ancestor = false) (missing ancestor)
      Op.require (t.node ancestor ≠ none) (missing ancestor)
      Op.require (t.node ancestor = some .directory) (indirect ancestor)) ()
      (listed parent.orHere)
    return parent.orHere

/-- Why the daemon does not bind its socket. -/
inductive SocketError where
  | invalidInput (message : String)
  /-- The error of an inspection. -/
  | inspect (path : Path)
deriving DecidableEq

/-- `validate_socket_parent`. -/
def validateSocketParent (denied : Path → Bool) (path : Path) : Op SocketError FileSystem Unit := do
  let t ← Op.get
  let _ ← parentGuard t Path.ancestors denied
    (.invalidInput "socket path has no parent directory") .inspect
    (fun _ => .invalidInput "socket parent must be a direct directory path") path

/-- The checks of `validate_state_path` above the path. -/
def validateStateParent (denied : Path → Bool) (path : Path) : Backup.DiskOp Unit := do
  let t ← Op.get
  let _ ← parentGuard t Path.namedAncestors denied (.invalidInput "witness state path")
    (fun _ => .invalidInput "witness state path") (fun _ => .invalidInput "witness state path") path

/-- `validate_state_path`. -/
def validateStatePath (denied : Path → Bool) (path : Path) : Backup.DiskOp Unit := do
  validateStateParent denied path
  Op.require (denied path = false) .storage
  match (← Op.get).node path with
  | some (.file _) => return
  | some _ => Op.fail (.invalidInput "witness state path")
  | none => return

/-- The checks of `validate_new_plaintext_output` above the path. -/
def validateOutputParent (denied : Path → Bool) (t : FileSystem) (output : Path) : Cli.CliOp Path :=
  parentGuard t Path.namedAncestors denied (.text "plaintext output path has no parent directory")
    (.path "plaintext output parent directory does not exist: ")
    (.path "plaintext output parent must be a direct directory path: ") output

/-- What the client does before it looks at the output itself. -/
theorem validateNewPlaintextOutput_eq (fails : Cli.GetStep → Bool) (again : Bool) (output : Path) :
    Cli.validateNewPlaintextOutput fails again output = (do
      let s ← Op.get
      let parent ← validateOutputParent (fun a => fails (.inspectParent again a)) s.files output
      Cli.attempt fails (.inspectOutput again)
        (.path "could not inspect plaintext output path: " output)
      Op.require (s.files.node output = none)
        (.path "refusing to overwrite plaintext output: " output)
      return parent) := by
  unfold Cli.validateNewPlaintextOutput validateOutputParent parentGuard
  cases output.parent with
  | none => rfl
  | some parent => simp only [Op.bind_assoc, Op.pure_bind, Cli.validateAncestor, Cli.attempt,
      Path.namedAncestors]

/-! ### What the guards accept -/

section

variable {ε σ : Type} {t : FileSystem} {listed : Path → List Path} {denied : Path → Bool}
  {noParent : ε} {missing indirect : Path → ε} {path : Path}

/-- An inspection finds a directory. -/
def Inspected (denied : Path → Bool) (t : FileSystem) (a : Path) : Prop :=
  denied a = false ∧ t.node a = some .directory

/-- The path has a parent, and all that is above it, but for the empty path, is a directory and not a link. -/
def DirectPath (denied : Path → Bool) (t : FileSystem) (path : Path) : Prop :=
  ∃ parent, path.parent = some parent ∧
    ∀ a ∈ parent.orHere.ancestors, a ≠ .empty → Inspected denied t a

/-- A guard passes exactly if the path has a parent and everything listed for it is a directory. -/
theorem decides_parentGuard {R : σ → Prop} {s : σ} (hR : R s) :
    Op.Decides s
      (∃ parent, path.parent = some parent ∧ ∀ a ∈ listed parent.orHere, Inspected denied t a)
      (parentGuard t listed denied noParent missing indirect path : Op ε σ Path)
      (.ok (path.parent.getD .empty).orHere s) R := by
  have hcheck : ∀ a, Op.Decides s (Inspected denied t a) (do
      Op.require (denied a = false) (missing a)
      Op.require (t.node a ≠ none) (missing a)
      Op.require (t.node a = some .directory) (indirect a) : Op ε σ Unit) (.ok () s) R := by
    intro a
    refine Op.Decides.congr ((Op.Decides.require _ hR).bind fun _ =>
      (Op.Decides.require _ hR).bind fun _ => Op.Decides.require _ hR) ?_
    constructor
    · exact fun h => ⟨h.1, h.2.2⟩
    · exact fun h => ⟨h.1, by rw [h.2]; nofun, h.2⟩
  unfold parentGuard
  cases path.parent with
  | none => exact (Op.Decides.fail _ _ hR).congr (by simp)
  | some parent =>
    refine Op.Decides.congr ((Op.Decides.fold hcheck _).bind fun _ => Op.Decides.of_eq rfl) ?_
    simp

theorem accepts_parentGuard (s : σ) :
    (parentGuard t listed denied noParent missing indirect path : Op ε σ Path).Accepts s ↔
      ∃ parent, path.parent = some parent ∧ ∀ a ∈ listed parent.orHere, Inspected denied t a :=
  (decides_parentGuard (R := fun _ => True) trivial).accepts_iff

/-- The guards that leave the empty path out look for the direct paths. -/
theorem inspected_named_iff :
    (∃ parent, path.parent = some parent ∧ ∀ a ∈ parent.orHere.namedAncestors, Inspected denied t a) ↔
      DirectPath denied t path := by
  simp only [Path.mem_namedAncestors, and_imp, DirectPath]

/-- A relative path has the empty path above it, which names nothing. -/
theorem not_inspected_above (hpath : path.absolute = false) :
    ¬∃ parent, path.parent = some parent ∧ ∀ a ∈ parent.orHere.ancestors, Inspected denied t a := by
  rintro ⟨parent, hparent, habove⟩
  have hrelative : parent.orHere.absolute = false := by
    rw [Path.absolute_orHere, Path.absolute_parent hparent, hpath]
  have hnode := (habove _ (Path.empty_mem_ancestors hrelative)).2
  rw [t.node_empty] at hnode
  cases hnode

/-- Above an absolute path there is no empty path. -/
theorem inspected_above_iff (hpath : path.absolute = true) :
    (∃ parent, path.parent = some parent ∧ ∀ a ∈ parent.orHere.ancestors, Inspected denied t a) ↔
      DirectPath denied t path := by
  refine exists_congr fun parent => and_congr_right fun hparent => ?_
  refine forall₂_congr fun a ha => ?_
  have hne : a ≠ .empty := by
    rintro rfl
    have habsolute := Path.absolute_above hparent ha
    rw [hpath] at habsolute
    cases habsolute
  exact ⟨fun h _ => h, fun h => h hne⟩

/-- A guard that lists every ancestor accepts the absolute direct paths, and no relative one. -/
theorem inspected_above_iff_direct :
    (∃ parent, path.parent = some parent ∧ ∀ a ∈ parent.orHere.ancestors, Inspected denied t a) ↔
      path.absolute = true ∧ DirectPath denied t path := by
  cases hpath : path.absolute with
  | false => simp [not_inspected_above hpath]
  | true => simp [inspected_above_iff hpath]

end

/-! ### The four guards -/

section

variable {t : FileSystem} {denied : Path → Bool} {path : Path}

/-- The inspections of the core that are denied. -/
def pathCalls (denied : Path → Bool) (path : Path) : Backup.PathCall → Bool
  | .ancestor a => denied a
  | .self => denied path

/-- The core refuses every relative path. -/
theorem accepts_validateParentDirectory (input : String) :
    (Backup.validateParentDirectory (pathCalls denied path) path input).Accepts t ↔
      path.absolute = true ∧ DirectPath denied t path := by
  have hdecides : Op.Decides t _ (Backup.validateParentDirectory (pathCalls denied path) path input)
      (.ok () t) fun _ => True := Backup.decides_validateParentDirectory _ trivial
  refine hdecides.accepts_iff.trans (Iff.trans ?_ inspected_above_iff_direct)
  unfold Backup.Below Path.above
  cases path.parent with
  | none => simp
  | some parent =>
    constructor
    · exact fun h => ⟨parent, rfl, fun a ha => ⟨h.2 a ha, h.1.2 a ha⟩⟩
    · rintro ⟨_, heq, h⟩
      cases heq
      exact ⟨⟨nofun, fun a ha => (h a ha).2⟩, fun a ha => (h a ha).1⟩

/-- The daemon refuses every relative path. -/
theorem accepts_validateSocketParent :
    (validateSocketParent denied path).Accepts t ↔
      path.absolute = true ∧ DirectPath denied t path := by
  have hdecides : Op.Decides t (path.absolute = true ∧ DirectPath denied t path)
      (validateSocketParent denied path) (.ok () t) fun _ => True := by
    refine Op.Decides.get_bind (Op.Decides.congr ((decides_parentGuard trivial).bind fun _ =>
      Op.Decides.of_eq rfl) ?_)
    rw [and_true, inspected_above_iff_direct]
  exact hdecides.accepts_iff

theorem decides_validateStateParent {R : FileSystem → Prop} (hR : R t) :
    Op.Decides t (DirectPath denied t path) (validateStateParent denied path) (.ok () t) R := by
  refine Op.Decides.get_bind (Op.Decides.congr ((decides_parentGuard hR).bind fun _ =>
    Op.Decides.of_eq rfl) ?_)
  rw [and_true, inspected_named_iff]

/-- The witness accepts the direct paths. -/
theorem accepts_validateStateParent :
    (validateStateParent denied path).Accepts t ↔ DirectPath denied t path :=
  (decides_validateStateParent (R := fun _ => True) trivial).accepts_iff

/-- A state path is a direct path of a regular file, or of none. -/
theorem accepts_validateStatePath :
    (validateStatePath denied path).Accepts t ↔ DirectPath denied t path ∧ denied path = false ∧
      (t.node path = none ∨ ∃ content, t.node path = some (.file content)) := by
  have hR : (fun _ : FileSystem => True) t := trivial
  have hlast : Op.Decides t (t.node path = none ∨ ∃ content, t.node path = some (.file content)) (do
      match (← Op.get).node path with
      | some (.file _) => return
      | some _ => Op.fail (.invalidInput "witness state path")
      | none => return : Backup.DiskOp Unit) (.ok () t) fun _ => True := by
    refine Op.Decides.get_bind ?_
    cases t.node path with
    | none => exact (Op.Decides.of_eq rfl).congr (by simp)
    | some node =>
      cases node with
      | file content => exact (Op.Decides.of_eq rfl).congr (by simp)
      | directory => exact (Op.Decides.fail _ _ hR).congr (by simp)
      | symlink => exact (Op.Decides.fail _ _ hR).congr (by simp)
      | special => exact (Op.Decides.fail _ _ hR).congr (by simp)
  exact ((decides_validateStateParent hR).bind fun _ => (Op.Decides.require _ hR).bind
    fun _ => hlast).accepts_iff

/-- The client accepts the direct paths. -/
theorem accepts_validateOutputParent (s : Cli.Client) :
    (validateOutputParent denied t path).Accepts s ↔ DirectPath denied t path :=
  (accepts_parentGuard s).trans inspected_named_iff

/-- All four guards accept a path exactly if it is direct. -/
structure GuardsAgree (denied : Path → Bool) (t : FileSystem) (path : Path) : Prop where
  core : ∀ input, (Backup.validateParentDirectory (pathCalls denied path) path input).Accepts t ↔
    DirectPath denied t path
  daemon : (validateSocketParent denied path).Accepts t ↔ DirectPath denied t path
  witness : (validateStateParent denied path).Accepts t ↔ DirectPath denied t path
  client : ∀ s, (validateOutputParent denied t path).Accepts s ↔ DirectPath denied t path

/-- The four guards agree exactly on the absolute paths and on the paths that are not direct. -/
theorem parent_guards_agree_iff :
    GuardsAgree denied t path ↔ path.absolute = true ∨ ¬DirectPath denied t path := by
  constructor
  · intro h
    by_cases hdirect : DirectPath denied t path
    · exact .inl (accepts_validateSocketParent.mp (h.daemon.mpr hdirect)).1
    · exact .inr hdirect
  · intro h
    have hiff : (path.absolute = true ∧ DirectPath denied t path) ↔ DirectPath denied t path := by
      rcases h with h | h
      · simp [h]
      · simp [h]
    exact ⟨fun input => (accepts_validateParentDirectory input).trans hiff,
      accepts_validateSocketParent.trans hiff, accepts_validateStateParent,
      accepts_validateOutputParent⟩

end

/-- The working directory and nothing else. -/
def workingDirectory : FileSystem where
  node p := if p = .here then some .directory else none
  node_empty := rfl

/-- `./vault.sqlite`. -/
def vaultBesideUs : Path := ⟨false, [[46], Json.utf8 "vault.sqlite"]⟩

/-- The core and the daemon refuse a path in the working directory that the witness and the client accept. -/
theorem relative_path_refused :
    ¬(Backup.validateParentDirectory (pathCalls (fun _ => false) vaultBesideUs) vaultBesideUs
        "vault database path").Accepts workingDirectory ∧
      ¬(validateSocketParent (fun _ => false) vaultBesideUs).Accepts workingDirectory ∧
      (validateStateParent (fun _ => false) vaultBesideUs).Accepts workingDirectory ∧
      (∀ s, (validateOutputParent (fun _ => false) workingDirectory vaultBesideUs).Accepts s) ∧
      ¬GuardsAgree (fun _ => false) workingDirectory vaultBesideUs := by
  have hdirect : DirectPath (fun _ => false) workingDirectory vaultBesideUs := by
    refine ⟨.here, rfl, fun a ha hne => ⟨rfl, ?_⟩⟩
    -- what is above is the working directory and the empty path
    have ha : a = .here ∨ a = .empty := by
      simpa [Path.ancestors, Path.orHere, Path.here, Path.empty] using ha
    rcases ha with rfl | rfl
    · rfl
    · exact absurd rfl hne
  have hdaemon : ¬(validateSocketParent (fun _ => false) vaultBesideUs).Accepts workingDirectory := by
    rw [accepts_validateSocketParent]
    exact fun h => absurd h.1 (by decide)
  refine ⟨?_, hdaemon, accepts_validateStateParent.mpr hdirect,
    fun s => (accepts_validateOutputParent s).mpr hdirect,
    fun h => hdaemon (h.daemon.mpr hdirect)⟩
  rw [accepts_validateParentDirectory]
  exact fun h => absurd h.1 (by decide)

end Vlt1

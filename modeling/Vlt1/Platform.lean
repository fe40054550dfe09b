import Mathlib.Algebra.Group.Int.Defs
import Mathlib.Algebra.Group.Nat.Defs
import Mathlib.Data.Int.Init
import Vlt1.Error

/-!
# The platform below the databases

Two things both databases rely on. SQLite stores integers as signed 64-bit values, so an unsigned
value above that range is refused when it is written and a negative one when it is read. After a
commit the code restricts the database file and its two companions to their owner, and that step
can fail although the commit stands.
-/

namespace Vlt1

/-! ### SQLite integers -/

/-- The bound of SQLite's signed 64-bit integers. -/
def sqlIntegerBound : ℕ := 2 ^ 63

/-- Bind an unsigned 64-bit value as a SQLite integer. -/
def sqlOfUInt64 (n : UInt64) : Except VaultError ℤ :=
  if n.toNat < sqlIntegerBound then .ok n.toNat else .error .storage

/-- Bind an unsigned 32-bit value as a SQLite integer. -/
def sqlOfUInt32 (n : UInt32) : ℤ := n.toNat

/-- Read a column as an unsigned 64-bit value. -/
def sqlToUInt64 (i : ℤ) : Except VaultError UInt64 :=
  if 0 ≤ i ∧ i < sqlIntegerBound then .ok (UInt64.ofNat i.toNat) else .error .storage

/-- Read a column as an unsigned 32-bit value. -/
def sqlToUInt32 (i : ℤ) : Except VaultError UInt32 :=
  if 0 ≤ i ∧ i < 2 ^ 32 then .ok (UInt32.ofNat i.toNat) else .error .storage

theorem sqlOfUInt64_eq_ok {n : UInt64} {i : ℤ} :
    sqlOfUInt64 n = .ok i ↔ n.toNat < sqlIntegerBound ∧ i = n.toNat := by
  unfold sqlOfUInt64
  split
  · simp_all [eq_comm]
  · rename_i h
    exact ⟨fun hok => (by cases hok), fun hok => absurd hok.1 h⟩

theorem sqlToUInt64_eq_ok {i : ℤ} {n : UInt64} :
    sqlToUInt64 i = .ok n ↔ n.toNat < sqlIntegerBound ∧ i = n.toNat := by
  unfold sqlToUInt64
  split
  · rename_i h
    have hval : (UInt64.ofNat i.toNat).toNat = i.toNat := by
      rw [UInt64.toNat_ofNat']
      have : i.toNat < sqlIntegerBound := by omega
      exact Nat.mod_eq_of_lt (Nat.lt_trans this (by decide))
    constructor
    · intro hn
      obtain rfl := Except.ok.inj hn
      rw [hval]
      omega
    · rintro ⟨-, rfl⟩
      simp
  · rename_i h
    constructor
    · intro hn; cases hn
    · rintro ⟨hlt, rfl⟩
      omega

theorem sqlOfUInt32_inj {m n : UInt32} (h : sqlOfUInt32 m = sqlOfUInt32 n) : m = n :=
  UInt32.toNat_inj.mp (Int.ofNat_inj.mp h)

theorem sqlToUInt32_eq_ok {i : ℤ} {n : UInt32} : sqlToUInt32 i = .ok n ↔ i = sqlOfUInt32 n := by
  have hlt : n.toNat < 2 ^ 32 := n.toNat_lt
  unfold sqlToUInt32 sqlOfUInt32
  split
  · rename_i h
    have hval : (UInt32.ofNat i.toNat).toNat = i.toNat := by
      rw [UInt32.toNat_ofNat']
      exact Nat.mod_eq_of_lt (by omega)
    constructor
    · intro hn
      obtain rfl := Except.ok.inj hn
      rw [hval]
      omega
    · rintro rfl
      simp
  · constructor
    · intro hn; cases hn
    · intro hn; omega

/-! ### Owner-private files -/

/-- What `symlink_metadata` reports about a path. -/
inductive FileStatus where
  | missing
  | inaccessible
  /-- A symlink, a directory, a socket or another special file. -/
  | notRegular
  | regular (mode : UInt32)
deriving DecidableEq

/-- A state file, and whether its permissions can be changed. -/
structure StateFile where
  status : FileStatus
  chmodSucceeds : Bool
deriving DecidableEq

/-- The database file and its companions. -/
structure StateFiles where
  main : StateFile
  wal : StateFile
  shm : StateFile
deriving DecidableEq

/-- Restrict a regular file to its owner. -/
def enforceOwnerPrivateFile (f : StateFile) : Except VaultError Unit :=
  match f.status with
  | .missing | .inaccessible => .error .storage
  | .notRegular => .error (.invalidInput "VLT/1 state file type")
  | .regular mode =>
    if mode &&& 0o077 ≠ 0 ∨ mode &&& 0o600 ≠ 0o600 then
      if f.chmodSucceeds then .ok () else .error .storage
    else .ok ()

/-- Restrict an optional companion file when it is present. -/
def enforceOwnerPrivateOptionalFile (f : StateFile) : Except VaultError Unit :=
  match f.status with
  | .missing => .ok ()
  | .inaccessible => .error .storage
  | _ => enforceOwnerPrivateFile f

/-- Restrict the main database and its present companions to their owner. -/
def enforceOwnerPrivateSqliteState (s : StateFiles) : Except VaultError Unit := do
  enforceOwnerPrivateFile s.main
  enforceOwnerPrivateOptionalFile s.wal
  enforceOwnerPrivateOptionalFile s.shm

/-- State files that are already private to their owner. -/
def StateFiles.ownerPrivate : StateFiles where
  main := { status := .regular 0o600, chmodSucceeds := true }
  wal := { status := .regular 0o600, chmodSucceeds := true }
  shm := { status := .regular 0o600, chmodSucceeds := true }

end Vlt1

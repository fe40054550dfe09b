import Mathlib.Data.List.Infix
import Mathlib.Logic.Function.Basic
import Vlt1.Library.Bytes

/-!
# Paths and files

A path is a list of components, from the root or from the working directory, and a file system says what each
path names. Nothing follows symbolic links here: a path names the link itself. `Touches` says at which paths a
program has put or removed regular files; the directories stay as they are, and so do all other paths.

The names in a path are bytes. Shown as text they go through `lossy`, which puts the replacement character in
the place of what is not UTF-8, so that two paths may be shown alike.
-/

namespace Files

/-! ### Bytes shown as text -/

/-- A byte that continues a character. -/
def isContinuation (b : UInt8) : Bool := 0x80 ≤ b && b < 0xC0

/-- How many bytes a character has that starts with this byte; none does if it is zero. -/
def charWidth (a : UInt8) : ℕ :=
  if a < 0x80 then 1 else if a < 0xC2 then 0 else if a < 0xE0 then 2 else if a < 0xF0 then 3
  else if a < 0xF5 then 4 else 0

/-- Whether a character may go on with this second byte. -/
def isSecond (a b : UInt8) : Bool :=
  isContinuation b && !(a = 0xE0 && b < 0xA0) && !(a = 0xED && 0xA0 ≤ b) && !(a = 0xF0 && b < 0x90) &&
    !(a = 0xF4 && 0x90 ≤ b)

/-- How many of the bytes that follow `a` belong to its character, or to the beginning of one. -/
def following (a : UInt8) : Bytes → ℕ
  | [] => 0
  | b :: l =>
    if 2 ≤ charWidth a ∧ isSecond a b then
      1 + ((l.take (charWidth a - 2)).takeWhile isContinuation).length
    else 0

/-- The replacement character, in UTF-8. -/
def replacement : Bytes := [0xEF, 0xBF, 0xBD]

/-- The text of at most so many characters, with every part that is none replaced. -/
def lossyUpTo : ℕ → Bytes → Bytes
  | 0, _ | _, [] => []
  | n + 1, a :: l =>
    (if following a l + 1 = charWidth a then a :: l.take (following a l) else replacement) ++
      lossyUpTo n (l.drop (following a l))

/-- Bytes as text: what is not UTF-8 becomes the replacement character, once for each part that could have
been the beginning of a character. -/
def lossy (l : Bytes) : Bytes := lossyUpTo l.length l

/-- A character of UTF-8 takes at most four bytes. -/
theorem charWidth_le (a : UInt8) : charWidth a ≤ 4 := by
  unfold charWidth
  split_ifs <;> omega

/-- What follows a byte is there, and no longer than a character that starts with it. -/
theorem following_le (a : UInt8) (l : Bytes) :
    following a l ≤ l.length ∧ (following a l = 0 ∨ following a l + 1 ≤ charWidth a) := by
  cases l with
  | nil => exact ⟨le_rfl, .inl rfl⟩
  | cons b l =>
    have hmatched := (List.takeWhile_prefix isContinuation (l := l.take (charWidth a - 2))).length_le
    rw [List.length_take] at hmatched
    rw [following, List.length_cons]
    split <;> omega

/-- What stops short of four bytes is not longer than the replacement character. -/
theorem length_le_lossyUpTo {n : ℕ} {l : Bytes} (h : l.length ≤ n) : l.length ≤ (lossyUpTo n l).length := by
  induction n generalizing l with
  | zero => omega
  | succ n ih =>
    cases l with
    | nil => exact Nat.zero_le _
    | cons a l =>
      have hwidth := charWidth_le a
      obtain ⟨hle, hpart⟩ := following_le a l
      have hrest := ih (l := l.drop (following a l)) (by
        rw [List.length_drop]
        rw [List.length_cons] at h
        omega)
      rw [List.length_drop] at hrest
      unfold lossyUpTo
      rw [List.length_append, List.length_cons]
      split
      · rw [List.length_cons, List.length_take]
        omega
      · rw [show replacement.length = 3 from rfl]
        omega

/-- Replacing what is malformed never makes a name shorter. -/
theorem length_le_lossy (l : Bytes) : l.length ≤ (lossy l).length := length_le_lossyUpTo le_rfl

/-! ### Paths -/

/-- A path: its components, from the root or from the working directory. -/
structure Path where
  absolute : Bool
  components : List Bytes
deriving DecidableEq

namespace Path

/-- The path without any text. -/
def empty : Path := ⟨false, []⟩

/-- The working directory. -/
def here : Path := ⟨false, [[46]]⟩

/-- The path without its last component. -/
def parent (p : Path) : Option Path :=
  if p.components = [] then none else some { p with components := p.components.dropLast }

/-- The path, its parent and so on, to the root or the empty path. -/
def ancestors (p : Path) : List Path :=
  p.components.inits.reverse.map fun components => { p with components }

/-- The ancestors with a text. -/
def namedAncestors (p : Path) : List Path := p.ancestors.filter (· ≠ empty)

/-- The working directory in place of the empty path. -/
def orHere (p : Path) : Path := if p = empty then here else p

/-- The directories above a path. -/
def above (p : Path) : List Path := (p.parent.map fun d => d.orHere.ancestors).getD []

/-- Text behind the last component. -/
def extend (text : Bytes) (p : Path) : Path :=
  match p.components.getLast? with
  | none => { p with components := [text] }
  | some name => { p with components := p.components.dropLast ++ [name ++ text] }

/-- A path is among its ancestors, as in Rust. -/
theorem mem_ancestors_self (p : Path) : p ∈ p.ancestors :=
  List.mem_map.mpr ⟨p.components, by simp, rfl⟩

/-- A relative path ends in the empty path. -/
theorem empty_mem_ancestors {p : Path} (h : p.absolute = false) : empty ∈ p.ancestors :=
  List.mem_map.mpr ⟨[], by simp, by rw [h]; rfl⟩

/-- The ancestors that have a name are all but the empty path. -/
theorem mem_namedAncestors {p a : Path} : a ∈ p.namedAncestors ↔ a ∈ p.ancestors ∧ a ≠ empty := by
  simp [namedAncestors]

/-- The ancestors of an absolute path are absolute. -/
theorem absolute_of_mem_ancestors {p a : Path} (h : a ∈ p.ancestors) : a.absolute = p.absolute := by
  obtain ⟨components, -, rfl⟩ := List.mem_map.mp h
  rfl

/-- A parent is absolute when the path is. -/
theorem absolute_parent {p d : Path} (h : p.parent = some d) : d.absolute = p.absolute := by
  unfold parent at h
  split at h
  · cases h
  · obtain rfl := Option.some.inj h
    rfl

/-- Naming the current directory keeps a path relative. -/
theorem absolute_orHere (p : Path) : p.orHere.absolute = p.absolute := by
  unfold orHere
  split
  · rename_i h
    rw [h]
    rfl
  · rfl

/-- What a path has above it starts where it does: at the root, or at the working directory. -/
theorem absolute_above {p d a : Path} (h : p.parent = some d) (ha : a ∈ d.orHere.ancestors) :
    a.absolute = p.absolute := by
  rw [absolute_of_mem_ancestors ha, absolute_orHere, absolute_parent h]

/-- The length of the last component. -/
def nameLength (p : Path) : ℕ := (p.components.getLast?.getD []).length

/-- An ending makes the last name longer by its own length. -/
theorem nameLength_extend (text : Bytes) (p : Path) :
    (p.extend text).nameLength = p.nameLength + text.length := by
  unfold extend nameLength
  cases p.components.getLast? with
  | none => simp
  | some name => simp

/-- Longer names are other paths. -/
theorem extend_ne {text : Bytes} (htext : text ≠ []) (p : Path) : p.extend text ≠ p := by
  intro heq
  have hlength := nameLength_extend text p
  rw [heq] at hlength
  exact htext (List.eq_nil_of_length_eq_zero (by omega))

/-- Different endings give different paths. -/
theorem extend_injective (p : Path) : Function.Injective fun text => p.extend text := by
  intro text text' heq
  unfold extend at heq
  cases hlast : p.components.getLast? with
  | none => simpa [hlast] using heq
  | some name => simpa [hlast] using heq

/-- A path with an ending has a name. -/
theorem extend_ne_empty (text : Bytes) (p : Path) : p.extend text ≠ empty := by
  unfold extend empty
  cases p.components.getLast? <;> simp

/-- The path as it is shown. -/
def display (p : Path) : Path := { p with components := p.components.map lossy }

/-- Displaying a path never makes its last name shorter. -/
theorem nameLength_le_display (p : Path) : p.nameLength ≤ p.display.nameLength := by
  unfold nameLength display
  rw [List.getLast?_map]
  cases p.components.getLast? with
  | none => exact le_rfl
  | some name => exact length_le_lossy name

/-- Another name in the directory of a path. -/
def beside (name : Bytes) (p : Path) : Path := { p with components := p.components.dropLast ++ [name] }

/-- A path beside another has a name. -/
theorem beside_ne_empty (name : Bytes) (p : Path) : p.beside name ≠ empty := by
  unfold beside empty
  simp

end Path

/-- What a path names. -/
inductive Node where
  | file (content : Bytes)
  | directory
  | symlink
  | special
deriving DecidableEq

/-- What each path names. The empty path names nothing. -/
structure FileSystem where
  node : Path → Option Node
  node_empty : node .empty = none

namespace FileSystem

variable {t t' t'' : FileSystem} {p q : Path} {content : Bytes}

/-- Put a regular file at a path. -/
def put (t : FileSystem) (p : Path) (content : Bytes) : FileSystem where
  node q := if q = p ∧ q ≠ .empty then some (.file content) else t.node q
  node_empty := by rw [if_neg fun h => h.2 rfl, t.node_empty]

/-- Create a regular file at a path that names nothing. -/
def create (t : FileSystem) (p : Path) (content : Bytes) : Option FileSystem :=
  if p ≠ .empty ∧ t.node p = none then some (t.put p content) else none

theorem node_put_self (hp : p ≠ .empty) : (t.put p content).node p = some (.file content) :=
  if_pos ⟨rfl, hp⟩

/-- Writing a file leaves every other path. -/
theorem node_put_of_ne (hq : q ≠ p) : (t.put p content).node q = t.node q :=
  if_neg fun h => hq h.1

/-- A file is created where nothing stands. -/
theorem create_eq_some :
    t.create p content = some t' ↔
      (p ≠ .empty ∧ t.node p = none) ∧ t.put p content = t' := by
  unfold create
  split
  · rename_i h
    exact ⟨fun heq => ⟨h, Option.some.inj heq⟩, fun heq => by rw [heq.2]⟩
  · rename_i h
    exact ⟨nofun, fun heq => absurd heq.1 h⟩

/-- Remove what a path names. -/
def remove (t : FileSystem) (p : Path) : FileSystem where
  node q := if q = p then none else t.node q
  node_empty := by rw [t.node_empty, ite_self]

/-- Removing a file leaves every other path. -/
theorem node_remove_of_ne (hq : q ≠ p) : (t.remove p).node q = t.node q := if_neg hq

/-- What was there still is. -/
def Extends (t t' : FileSystem) : Prop := ∀ q n, t.node q = some n → t'.node q = some n

/-- Between `t` and `t'` regular files were put or removed at these paths only. -/
structure Touches (paths : List Path) (t t' : FileSystem) : Prop where
  only : ∀ q, q ∉ paths → t'.node q = t.node q
  directories : ∀ q, t'.node q = some .directory ↔ t.node q = some .directory

namespace Touches

variable {paths paths' : List Path}

/-- Doing nothing touches nothing. -/
theorem refl (paths : List Path) (t : FileSystem) : Touches paths t t := ⟨fun _ _ => rfl, fun _ => .rfl⟩

/-- What two steps touch, both together touch. -/
theorem trans (h : Touches paths t t') (h' : Touches paths t' t'') : Touches paths t t'' :=
  ⟨fun q hq => (h'.only q hq).trans (h.only q hq), fun q => (h'.directories q).trans (h.directories q)⟩

/-- Touching fewer paths is touching some of more. -/
theorem mono (h : Touches paths t t') (hsub : paths ⊆ paths') : Touches paths' t t' :=
  ⟨fun q hq => h.only q fun hmem => hq (hsub hmem), h.directories⟩

/-- Writing a file of the list touches no other path and no directory. -/
theorem put (h : Touches paths t t') (hp : p ∈ paths) (hfile : t'.node p ≠ some .directory)
    (content : Bytes) : Touches paths t (t'.put p content) := by
  refine ⟨fun q hq => ?_, fun q => ?_⟩
  · have hne : q ≠ p := fun heq => hq (heq ▸ hp)
    rw [node_put_of_ne hne, h.only q hq]
  · rw [← h.directories q]
    by_cases hq : q = p ∧ q ≠ .empty
    · rw [show (t'.put p content).node q = some (.file content) from if_pos hq, hq.1]
      exact ⟨nofun, fun hdirectory => absurd hdirectory hfile⟩
    · rw [show (t'.put p content).node q = t'.node q from if_neg hq]

/-- Removing a file of the list touches no other path and no directory. -/
theorem remove (h : Touches paths t t') (hp : p ∈ paths) (hfile : t'.node p ≠ some .directory) :
    Touches paths t (t'.remove p) := by
  refine ⟨fun q hq => ?_, fun q => ?_⟩
  · have hne : q ≠ p := fun heq => hq (heq ▸ hp)
    rw [node_remove_of_ne hne, h.only q hq]
  · rw [← h.directories q]
    by_cases hq : q = p
    · rw [show (t'.remove p).node q = none from if_pos hq, hq]
      exact ⟨nofun, fun hdirectory => absurd hdirectory hfile⟩
    · rw [node_remove_of_ne hq]

/-- If the paths named nothing, all that was there still is. -/
theorem extended (h : Touches paths t t') (hfree : ∀ p ∈ paths, t.node p = none) : t.Extends t' := by
  intro q n hq
  rw [h.only q fun hmem => ?_, hq]
  rw [hfree q hmem] at hq
  cases hq

end Touches

end FileSystem

end Files

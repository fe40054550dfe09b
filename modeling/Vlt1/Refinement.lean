import Mathlib.Data.Set.List
import Vlt1.KeyState
import Vlt1.Vault.Readers
import Vlt1.Vault.Reading

/-!
# The vault as a map from objects to plaintexts

`ObjectMap` is what a vault is for: a plaintext for each object, and the plaintexts that are staged.
It knows four transactions and nothing of rows, keys, chunks and failures. `Represents` relates it to
the tables, and `Simulation` follows a call through its changes: every commit is a transaction of the
map, a call that succeeds commits all of its transactions and any other call a prefix of them. What a
recovery has to commit is read off the map: it activates whatever is staged there, and nothing else.

The result is `vault_refines_map`: after any run, what is read from an unlocked vault is what the
transactions committed so far have left in the map. It needs that no reader delivers bytes after it
has reported end of file: the streaming path would cut them into chunks that cannot be read again
(`put_after_end_of_file_unreadable`).
-/

namespace Vlt1

open Effect

/-! ### The map -/

/-- A committed transaction, by what it does to the objects. -/
inductive Transaction where
  /-- A version is stored as the active one of its object. -/
  | publish (versionId : VersionId) (objectId : ObjectId) (plaintext : Bytes)
  /-- A version is stored, to become active later. -/
  | stage (versionId : VersionId) (objectId : ObjectId) (plaintext : Bytes)
  /-- A staged version becomes the active one of its object. -/
  | activate (versionId : VersionId)
  /-- The Root Key is wrapped anew. -/
  | rewrap
deriving DecidableEq

/-- The version is stored by the transaction. -/
def Transaction.Adds (u : VersionId) : Transaction → Prop
  | .publish u' _ _ | .stage u' _ _ => u' = u
  | _ => False

/-- The plaintexts of the objects, and those staged. -/
structure ObjectMap where
  active : Table ObjectId Bytes
  staged : Table VersionId (ObjectId × Bytes)

namespace ObjectMap

/-- No objects. -/
def empty : ObjectMap := ⟨∅, ∅⟩

/-- One transaction. -/
def apply (m : ObjectMap) : Transaction → ObjectMap
  | .publish _ o plaintext => { m with active := m.active.insert o plaintext }
  | .stage u o plaintext => { m with staged := m.staged.insert u (o, plaintext) }
  | .activate u =>
    match m.staged.lookup u with
    | some (o, plaintext) => ⟨m.active.insert o plaintext, m.staged.erase u⟩
    | none => m
  | .rewrap => m

/-- Reading an object. -/
def get (m : ObjectMap) (o : ObjectId) : Except VaultError Bytes :=
  match m.active.lookup o with
  | some plaintext => .ok plaintext
  | none => .error .notFound

/-- The number of objects, as the vault reports it. -/
def count (m : ObjectMap) : Except VaultError UInt64 :=
  if m.active.keys.length < 2 ^ 64 then .ok (UInt64.ofNat m.active.keys.length)
  else .error (.invariant "active object count exceeds u64")

/-- The staged versions in the byte order of their identifiers, in which a recovery activates them. -/
def recovers (m : ObjectMap) : List VersionId :=
  m.staged.keys.insertionSort fun u u' => u.blob ≤ u'.blob

/-- The staged versions, listed in order, are the ones to activate. -/
theorem eq_recovers {m : ObjectMap} {us : List VersionId} (hnodup : us.Nodup)
    (hmem : ∀ u, u ∈ us ↔ m.staged.lookup u ≠ none)
    (hsorted : (us.map Identifier.blob).Pairwise (· ≤ ·)) : us = m.recovers := by
  let le (u u' : VersionId) : Prop := u.blob ≤ u'.blob
  have htotal : Std.Total le := ⟨fun u u' => List.le_total u.blob u'.blob⟩
  have htrans : IsTrans VersionId le := ⟨fun _ _ _ h h' => List.le_trans h h'⟩
  have hantisymm : Std.Antisymm le :=
    ⟨fun _ _ h h' => Identifier.blob_inj.mp (List.le_antisymm h h')⟩
  have hperm : us.Perm m.staged.keys := by
    refine (List.perm_ext_iff_of_nodup hnodup m.staged.keys_nodup).mpr fun u => ?_
    rw [hmem, ← AList.mem_keys, ← AList.lookup_isSome, Option.isSome_iff_ne_none]
  exact List.Perm.eq_of_pairwise' (List.pairwise_map.mp hsorted) (List.pairwise_insertionSort le _)
    (hperm.trans (List.perm_insertionSort le _).symm)

/-- A version is not staged once it is active. -/
theorem lookup_staged_activate (m : ObjectMap) (u : VersionId) :
    (m.apply (.activate u)).staged.lookup u = none := by
  rw [apply]
  cases hu : m.staged.lookup u with
  | none => exact hu
  | some p => exact AList.lookup_erase _ _

end ObjectMap

/-! ### The map in the tables -/

namespace Draft

variable {prim : Primitives} {v : VaultId} {k : Block 32} {db db' : Database} {d : Draft}

/-- A draft stays readable while its rows and the pointer to it stay. -/
theorem Readable.mono (h : d.Readable prim v k db) (hext : db.Extends db')
    (hactive : db'.objects.lookup d.objectId.blob = db.objects.lookup d.objectId.blob)
    (hreceipt : db'.receipts.lookup d.versionId.blob = db.receipts.lookup d.versionId.blob) :
    d.Readable prim v k db' := by
  have hselect : db'.selectReceipt prim d.versionId = db.selectReceipt prim d.versionId := by
    unfold Database.selectReceipt
    rw [hreceipt]
  refine { h.toStored.mono hext with active := hactive.trans h.active, acknowledged := ?_ }
  rw [hselect]
  exact h.acknowledged

/-- A draft is stored once its rows are added. -/
theorem Sealed.stored_addTo (hd : d.Sealed prim v k) (heven : d.Even)
    (hfits : d.plaintext.length < sqlIntegerBound) : d.Stored prim v k (d.addTo db) := by
  refine ⟨hd, heven, hfits, ?_, fun c hc => hd.lookup_chunk hc⟩
  rw [lookup_version, if_pos rfl]

end Draft

/-- The tables hold what the map holds, sealed under the keys of the vault. -/
structure Represents (prim : Primitives) (vaultId : VaultId) (rootKey : Block 32) (db : Database)
    (m : ObjectMap) : Prop where
  wellFormed : db.WellFormed prim
  active : ∀ o plaintext, m.active.lookup o = some plaintext →
    ∃ d : Draft, d.Readable prim vaultId rootKey db ∧ d.objectId = o ∧ d.plaintext = plaintext
  inactive : ∀ o, m.active.lookup o = none → db.objects.lookup o.blob = none
  staged : ∀ u : VersionId, db.pending.lookup u.blob ≠ none →
    ∃ d : Draft, d.Stored prim vaultId rootKey db ∧ d.versionId = u ∧
      m.staged.lookup u = some (d.objectId, d.plaintext)
  unstaged : ∀ u : VersionId, db.pending.lookup u.blob = none → m.staged.lookup u = none

namespace Represents

variable {prim : Primitives} {V : VaultId} {K : Block 32} {db db' : Database} {m : ObjectMap}
  {d : Draft}

/-- The tables of a new vault stand for the empty map. -/
theorem empty (row : Option MetaRow) :
    Represents prim V K { Database.empty with vaultMeta := row } .empty where
  wellFormed := .empty row
  active _ _ h := by cases h
  inactive _ _ := rfl
  staged _ h := absurd rfl h
  unstaged _ _ := rfl

/-- The map does not look at the envelope. -/
theorem vaultMeta (h : Represents prim V K db m) (row : Option MetaRow) :
    Represents prim V K { db with vaultMeta := row } m := by
  have hext : db.Extends { db with vaultMeta := row } :=
    ⟨fun _ _ h => h, fun _ _ h => h, fun _ _ h => h⟩
  refine ⟨h.wellFormed.vaultMeta row, fun o plaintext ho => ?_, h.inactive, fun u hu => ?_,
    h.unstaged⟩
  · obtain ⟨d, hd, hof⟩ := h.active o plaintext ho
    exact ⟨d, hd.mono hext rfl rfl, hof⟩
  · obtain ⟨d, hd, hof⟩ := h.staged u hu
    exact ⟨d, hd.mono hext, hof⟩

/-- A version that is not stored has no receipt. -/
theorem receipt_eq_none (h : Represents prim V K db m) {b : Bytes}
    (hfresh : db.versions.lookup b = none) : db.receipts.lookup b = none := by
  by_contra hreceipt
  obtain ⟨r, hr⟩ := Option.ne_none_iff_exists'.mp hreceipt
  obtain ⟨row, hrow, -⟩ := h.wellFormed.receipts _ r hr
  rw [hfresh] at hrow
  cases hrow

/-- A publication in the tables is one in the map. -/
theorem published (h : Represents prim V K db m) (hd : d.Sealed prim V K) (heven : d.Even)
    (hfits : d.plaintext.length < sqlIntegerBound)
    (hfresh : db.versions.lookup d.versionId.blob = none) :
    Represents prim V K (d.published db)
      (m.apply (.publish d.versionId d.objectId d.plaintext)) := by
  have hadd := Draft.extends_addTo h.wellFormed hfresh
  have hext : db.Extends (d.published db) := ⟨hadd.versions, hadd.chunks, hadd.receipts⟩
  have hstored : d.Stored prim V K (d.addTo db) := hd.stored_addTo heven hfits
  have hactive : ∀ o : ObjectId, (d.published db).objects.lookup o.blob =
      if o = d.objectId then some d.versionId.blob else db.objects.lookup o.blob := by
    intro o
    rw [Draft.published, Database.upsertActive, Table.lookup_insert_eq]
    exact if_congr Identifier.blob_inj rfl rfl
  refine ⟨h.wellFormed.published hd hfresh, fun o plaintext ho => ?_, fun o ho => ?_,
    fun u hu => ?_, h.unstaged⟩
  · rw [ObjectMap.apply, Table.lookup_insert_eq] at ho
    by_cases heq : o = d.objectId
    · -- the new version has no receipt yet
      rw [if_pos heq] at ho
      refine ⟨d, ⟨⟨hd, heven, hfits, hstored.version, hstored.chunks⟩, ?_, .inl ?_⟩, heq.symm,
        Option.some.inj ho⟩
      · rw [hactive, if_pos rfl]
      · exact Database.selectReceipt_eq_ok_none.mpr (h.receipt_eq_none hfresh)
    · rw [if_neg heq] at ho
      obtain ⟨d', hd', rfl, hplaintext⟩ := h.active o plaintext ho
      exact ⟨d', hd'.mono hext (by rw [hactive, if_neg heq]) rfl, rfl, hplaintext⟩
  · rw [ObjectMap.apply, Table.lookup_insert_eq] at ho
    split at ho
    · cases ho
    · rename_i hne
      rw [hactive, if_neg hne]
      exact h.inactive o ho
  · obtain ⟨d', hd', hof⟩ := h.staged u hu
    exact ⟨d', hd'.mono hext, hof⟩

/-- Staging in the tables is staging in the map. -/
theorem stagedAt (h : Represents prim V K db m) (hd : d.Sealed prim V K) (heven : d.Even)
    (hfits : d.plaintext.length < sqlIntegerBound)
    (hfresh : db.versions.lookup d.versionId.blob = none) (e : UInt64) :
    Represents prim V K (d.staged e db)
      (m.apply (.stage d.versionId d.objectId d.plaintext)) := by
  have hadd := Draft.extends_addTo h.wellFormed hfresh
  have hext : db.Extends (d.staged e db) := ⟨hadd.versions, hadd.chunks, hadd.receipts⟩
  have hstored : d.Stored prim V K (d.addTo db) := hd.stored_addTo heven hfits
  refine ⟨h.wellFormed.staged hd hfresh e, fun o plaintext ho => ?_, h.inactive, fun u hu => ?_,
    fun u hu => ?_⟩
  · obtain ⟨d', hd', hof⟩ := h.active o plaintext ho
    exact ⟨d', hd'.mono hext rfl rfl, hof⟩
  · rw [ObjectMap.apply, Table.lookup_insert_eq]
    by_cases heq : u = d.versionId
    · rw [if_pos heq]
      exact ⟨d, ⟨hd, heven, hfits, hstored.version, hstored.chunks⟩, heq.symm, rfl⟩
    · rw [Draft.staged, Table.lookup_insert_eq, if_neg fun h => heq (Identifier.blob_inj.mp h)] at hu
      obtain ⟨d', hd', hof⟩ := h.staged u hu
      rw [if_neg heq]
      exact ⟨d', hd'.mono hext, hof⟩
  · rw [Draft.staged, Table.lookup_insert_eq] at hu
    split at hu
    · cases hu
    · rename_i hne
      rw [ObjectMap.apply, Table.lookup_insert_eq, if_neg fun h => hne (congrArg Identifier.blob h)]
      exact h.unstaged u hu

/-- Finalising in the tables is an activation in the map. -/
theorem finalized (h : Represents prim V K db m) {v : StoredVersion} {e : UInt64}
    {r : WitnessReceipt} (hstaged : db.Staged v e) (hack : r.Acknowledges prim V v)
    (hbody : db.finalizeBody v r = .ok db') :
    Represents prim V K db' (m.apply (.activate v.versionId)) := by
  obtain ⟨-, hobject, hversion, -, hvalid⟩ := WitnessReceipt.verifyRequest_eq_ok.mp hack.verified
  have hwell := h.wellFormed.finalized hstaged hobject hversion hbody
  obtain ⟨-, hepoch, hnone, -, -, rfl⟩ := Database.finalizeBody_eq_ok.mp hbody
  obtain ⟨d, hd, hid, hmap⟩ := h.staged v.versionId hstaged.pending_ne_none
  -- the staged version is the draft
  obtain rfl : v = d.storedVersion := by
    have hselect := hd.selectVersion
    rw [hid] at hselect
    exact Except.ok.inj (hstaged.version.symm.trans hselect)
  have hreceipt : r.versionId = d.versionId := hversion
  rw [hreceipt] at hnone hwell ⊢
  have happly : m.apply (.activate d.storedVersion.versionId) =
      ⟨m.active.insert d.objectId d.plaintext, m.staged.erase d.versionId⟩ := by
    show m.apply (.activate d.versionId) = _
    rw [ObjectMap.apply, show m.staged.lookup d.versionId = _ from hmap]
  rw [happly]
  have hlookup : ∀ b, (db.receipts.insert d.versionId.blob (.ofReceipt r)).lookup b =
      if b = d.versionId.blob then some (.ofReceipt r) else db.receipts.lookup b :=
    fun b => Table.lookup_insert_eq _ _ _ _
  have hext : db.Extends { db with
      receipts := db.receipts.insert d.versionId.blob (.ofReceipt r)
      objects := db.objects.insert d.objectId.blob d.versionId.blob
      pending := db.pending.erase d.versionId.blob } := by
    refine ⟨fun _ _ h => h, fun _ _ h => h, fun b row hb => ?_⟩
    rw [hlookup, if_neg]
    · exact hb
    · rintro rfl
      rw [hnone] at hb
      cases hb
  have hactive : ∀ o : ObjectId, (db.objects.insert d.objectId.blob d.versionId.blob).lookup o.blob =
      if o = d.objectId then some d.versionId.blob else db.objects.lookup o.blob := by
    intro o
    rw [Table.lookup_insert_eq]
    exact if_congr Identifier.blob_inj rfl rfl
  refine ⟨hwell, fun o plaintext ho => ?_, fun o ho => ?_, fun u hu => ?_, fun u hu => ?_⟩
  · rw [Table.lookup_insert_eq] at ho
    by_cases heq : o = d.objectId
    · -- the receipt stored with the version acknowledges it
      rw [if_pos heq] at ho
      refine ⟨d, ⟨hd.mono hext, ?_, .inr ⟨r, ?_, hack.verified⟩⟩, heq.symm, Option.some.inj ho⟩
      · exact (hactive d.objectId).trans (if_pos rfl)
      · exact Database.selectReceipt_eq_ok_some.mpr ⟨hreceipt, hepoch, hvalid,
          (hlookup _).trans (if_pos rfl)⟩
    · rw [if_neg heq] at ho
      obtain ⟨d', hd', rfl, hplaintext⟩ := h.active o plaintext ho
      -- an active version is not staged
      have hother : d'.versionId.blob ≠ d.versionId.blob := fun hsame =>
        (h.wellFormed.pending _ hstaged.pending_ne_none).2.2 _ (hd'.active.trans (congrArg some hsame))
      refine ⟨d', hd'.mono hext ?_ ?_, rfl, hplaintext⟩
      · exact (hactive d'.objectId).trans (if_neg heq)
      · exact (hlookup _).trans (if_neg hother)
  · rw [Table.lookup_insert_eq] at ho
    split at ho
    · cases ho
    · rename_i hne
      exact ((hactive o).trans (if_neg hne)).trans (h.inactive o ho)
  · simp only [Table.lookup_erase_eq, ne_eq, ite_eq_left_iff, not_forall] at hu
    obtain ⟨hne, hu⟩ := hu
    obtain ⟨d', hd', hid', hmap'⟩ := h.staged u hu
    have hother : u ≠ d.versionId := fun heq => hne (congrArg Identifier.blob heq)
    refine ⟨d', hd'.mono hext, hid', ?_⟩
    rw [Table.lookup_erase_eq, if_neg hother]
    exact hmap'
  · rw [Table.lookup_erase_eq] at hu ⊢
    split
    · rfl
    · rename_i hne
      have hother : ¬u.blob = d.storedVersion.versionId.blob :=
        fun heq => hne (Identifier.blob_inj.mp heq)
      rw [if_neg hother] at hu
      exact h.unstaged u hu

/-- What a recovery finds pending is what the map has staged. -/
theorem eq_recovers (h : Represents prim V K db m) {pending : List (StoredVersion × UInt64)}
    (hrows : pending.map (fun q => (q.1.versionId.blob, (q.2.toNat : ℤ))) = db.selectPending) :
    pending.map (fun q => q.1.versionId) = m.recovers := by
  have hkeys : (pending.map fun q => q.1.versionId).map Identifier.blob =
      db.selectPending.map Prod.fst := by
    rw [← hrows, List.map_map, List.map_map]
    rfl
  refine ObjectMap.eq_recovers (List.Nodup.of_map Identifier.blob ?_) (fun u => ?_) ?_
  · rw [hkeys]
    exact Table.nodup_keys_select _ _
  · have hlisted : u ∈ pending.map (fun q => q.1.versionId) ↔ db.pending.lookup u.blob ≠ none := by
      rw [← List.mem_map_of_injective fun _ _ => Identifier.blob_inj.mp, hkeys]
      simp only [List.mem_map, Prod.exists, exists_and_right, exists_eq_right,
        Option.ne_none_iff_exists', Database.selectPending, Table.mem_select]
    rw [hlisted]
    constructor
    · intro hu
      obtain ⟨d, -, -, hmap⟩ := h.staged u hu
      rw [hmap]
      exact Option.some_ne_none _
    · exact fun hu hnone => hu (h.unstaged u hnone)
  · rw [hkeys]
    exact Table.pairwise_select _ _

end Represents

/-! ### What a call commits -/

namespace VaultCall

/-- Everything a call commits when it succeeds and the map was `m` before it. -/
def Commits (m : ObjectMap) : VaultCall → List Transaction → Prop
  | .put o plaintext _, ts => ∃ u, ts = [.publish u o plaintext]
  | .putFromReader o reader _, ts => ∃ u, ts = [.publish u o reader.contents]
  | .putWithWitness o plaintext, ts => ∃ u, ts = [.stage u o plaintext, .activate u]
  | .recover, ts => ts = m.recovers.map .activate
  | .rotatePassphrase _ _, ts => ts = [.rewrap]
  | _, ts => ts = []

/-- What a call commits: all of its transactions when it succeeds, the first of them when it fails or
the process dies. -/
def Performs (m : ObjectMap) (call : VaultCall) (output : Option (Except VaultError CallResult))
    (ts : List Transaction) : Prop :=
  match output with
  | some (.ok _) => call.Commits m ts
  | _ => ∃ all, call.Commits m all ∧ ts <+: all

/-- The reader of a call delivers no bytes after it has reported end of file. -/
def EndsOnce : VaultCall → Prop
  | .putFromReader _ reader _ => reader.EndsOnce
  | _ => True

/-- The passphrase of a call opens the envelope in memory to the given Root Key, if it opens it. -/
def OpensOnly {ω : Type} (prim : Primitives) (rootKey : Option (Block 32)) (w : World ω) :
    VaultCall → Prop
  | .unlock passphrase | .rotatePassphrase passphrase _ =>
    ∀ k, openRootKey prim passphrase w.vault.envelope = .ok k → rootKey = some k
  | _ => True

/-- Every call has a list of transactions it may commit. -/
theorem exists_commits (m : ObjectMap) (call : VaultCall) : ∃ ts, call.Commits m ts := by
  cases call <;> first
    | exact ⟨_, rfl⟩
    | exact ⟨_, ⟨Block.zero 16⟩, rfl⟩

end VaultCall

/-- What a reader that ends once delivers is a draft of its bytes. -/
theorem Draft.OfReader.of {d : Draft} {o : ObjectId} {reader : Reader} {size : ℕ}
    (h : d.OfReader o reader size) (hsize : d.chunkSize ≠ 0) (hreader : reader.EndsOnce) :
    d.Of o reader.contents := by
  have hpos : 0 < size := by
    rw [← h.size]
    exact Nat.pos_of_ne_zero fun hzero => hsize (UInt32.toNat_inj.mp hzero)
  have hpieces := Reader.chunks_eq hpos hreader h.pieces
  have hplaintext : d.plaintext = reader.contents := by
    rw [Draft.plaintext, hpieces, Chunks.flatten_chunks hpos]
  exact ⟨h.object, hplaintext, by rw [Draft.Even, h.size, hplaintext, hpieces]⟩

/-- A call publishes the plaintext it was given. -/
theorem VaultCall.Publishes.commits {call : VaultCall} {d : Draft} (h : call.Publishes d)
    (hsize : d.chunkSize ≠ 0) (hends : call.EndsOnce) (m : ObjectMap) :
    d.Even ∧ call.Commits m [.publish d.versionId d.objectId d.plaintext] := by
  cases call with
  | put o plaintext _ =>
    obtain ⟨rfl, rfl, heven⟩ := h
    exact ⟨heven, _, rfl⟩
  | putFromReader o reader size =>
    obtain ⟨rfl, hplaintext, heven⟩ := Draft.OfReader.of h hsize hends
    exact ⟨heven, d.versionId, by rw [hplaintext]⟩
  | _ => exact h.elim

/-- A call stages the plaintext it was given. -/
theorem VaultCall.Stages.commits {call : VaultCall} {d : Draft} (h : call.Stages d) (m : ObjectMap) :
    d.Even ∧ call.Commits m
      [.stage d.versionId d.objectId d.plaintext, .activate d.versionId] := by
  cases call with
  | putWithWitness o plaintext =>
    obtain ⟨rfl, rfl, heven⟩ := h
    exact ⟨heven, _, rfl⟩
  | _ => exact h.elim

/-! ### Simulation -/

section

variable {ω : Type} {prim : Primitives} {V : VaultId} {K : Block 32} {m : ObjectMap}
  {call : VaultCall} {w₀ w w' : World ω} {ts : List Transaction}

/-- The vault in memory and the stored envelope belong to one vault, and the key in memory is its
Root Key. -/
structure RootHeld (vaultId : VaultId) (rootKey : Block 32) (w : World ω) : Prop where
  loaded : w.vaultId = vaultId
  held : ∀ k, w.vault.rootKey = some k → k = rootKey
  stored : ∃ row, w.db.vaultMeta = some row ∧ row.vaultId = vaultId.blob

/-- A call that began in `w₀`, where the tables held the map `m`, has committed `ts`. -/
structure Simulation (prim : Primitives) (V : VaultId) (K : Block 32) (m : ObjectMap)
    (call : VaultCall) (w₀ w : World ω) (ts : List Transaction) : Prop where
  root : RootHeld V K w
  represents : Represents prim V K w.db (ts.foldl ObjectMap.apply m)
  commits : w.commits.length = w₀.commits.length + ts.length
  shape : ∃ all, call.Commits m all ∧ ts <+: all
  added : ∀ u : VersionId, w.db.versions.lookup u.blob ≠ none →
    w₀.db.versions.lookup u.blob ≠ none ∨ ∃ t ∈ ts, t.Adds u

namespace Simulation

/-- A call begins with no transaction. -/
theorem start (hroot : RootHeld V K w₀) (hmap : Represents prim V K w₀.db m) :
    Simulation prim V K m call w₀ w₀ [] := by
  obtain ⟨all, hall⟩ := call.exists_commits m
  exact ⟨hroot, hmap, rfl, ⟨all, hall, List.nil_prefix⟩, fun _ => .inl⟩

/-- Whatever leaves the tables alone adds no transaction. -/
theorem same (h : Simulation prim V K m call w₀ w ts) (hroot : RootHeld V K w')
    (hdb : w'.db = w.db) (hcommits : w'.commits = w.commits) :
    Simulation prim V K m call w₀ w' ts := by
  refine ⟨hroot, ?_, ?_, h.shape, ?_⟩
  · rw [hdb]
    exact h.represents
  · rw [hcommits]
    exact h.commits
  · rw [hdb]
    exact h.added

/-- A quiet step adds no transaction. -/
theorem quiet (h : Simulation prim V K m call w₀ w ts) (hquiet : w.Quiet w') :
    Simulation prim V K m call w₀ w' ts := by
  refine h.same ⟨?_, ?_, ?_⟩ hquiet.db hquiet.commits
  · rw [World.vaultId, hquiet.vault]
    exact h.root.loaded
  · rw [hquiet.vault]
    exact h.root.held
  · rw [hquiet.db]
    exact h.root.stored

/-- Locking adds no transaction. -/
theorem lock (h : Simulation prim V K m call w₀ w ts) : Simulation prim V K m call w₀ w.locked ts :=
  h.same ⟨h.root.loaded, fun _ hkey => (by cases hkey), h.root.stored⟩ rfl rfl

/-- One more transaction. -/
theorem commit (h : Simulation prim V K m call w₀ w ts) {t : Transaction}
    (hcommits : w'.commits = w'.db :: w.commits) (hroot : RootHeld V K w')
    (hmap : Represents prim V K w'.db ((ts.foldl ObjectMap.apply m).apply t))
    (hshape : ∃ all, call.Commits m all ∧ ts ++ [t] <+: all)
    (hadded : ∀ u : VersionId, w'.db.versions.lookup u.blob ≠ none →
      w.db.versions.lookup u.blob ≠ none ∨ t.Adds u) :
    Simulation prim V K m call w₀ w' (ts ++ [t]) := by
  refine ⟨hroot, ?_, ?_, hshape, fun u hu => ?_⟩
  · rw [List.foldl_append]
    exact hmap
  · rw [hcommits, List.length_cons, h.commits, List.length_append, List.length_singleton,
      Nat.add_assoc]
  · rcases hadded u hu with hold | hnew
    · refine (h.added u hold).imp id fun ⟨t', ht', hu'⟩ => ?_
      exact ⟨t', List.mem_append_left _ ht', hu'⟩
    · exact .inr ⟨t, List.mem_append_right _ List.mem_cons_self, hnew⟩

/-- Before its first transaction a call has committed nothing. -/
theorem eq_nil (h : Simulation prim V K m call w₀ w ts) (hfirst : w₀.Pristine w) : ts = [] := by
  have hlength := h.commits
  rw [hfirst.commits] at hlength
  exact List.eq_nil_of_length_eq_zero (by omega)

/-- A new envelope of the same vault. -/
theorem envelope (h : Simulation prim V K m call w₀ w ts) {e : RootEnvelope}
    (hfirst : w₀.Pristine w) (hcall : call.Commits m [.rewrap]) (hid : e.vaultId = w.vaultId)
    (hbody : w.db.replaceEnvelopeBody e = .ok w'.db) (hcommits : w'.commits = w'.db :: w.commits)
    (hloaded : w'.vaultId = w.vaultId) (hheld : ∀ k, w'.vault.rootKey = some k → k = K) :
    Simulation prim V K m call w₀ w' (ts ++ [.rewrap]) := by
  obtain ⟨row, -, -, hdb⟩ := Database.replaceEnvelopeBody_eq_ok.mp hbody
  have hroot : RootHeld V K w' := by
    refine ⟨hloaded.trans h.root.loaded, hheld, _, by rw [hdb], ?_⟩
    show e.vaultId.blob = V.blob
    rw [hid, h.root.loaded]
  have hmap : Represents prim V K w'.db (ts.foldl ObjectMap.apply m) := by
    rw [hdb]
    exact h.represents.vaultMeta _
  refine h.commit hcommits hroot hmap ?_ fun u hu => .inl ?_
  · rw [h.eq_nil hfirst]
    exact ⟨_, hcall, List.prefix_rfl⟩
  · rw [hdb] at hu
    exact hu

/-- A staged version becomes active. -/
theorem activate (h : Simulation prim V K m call w₀ w ts) {v : StoredVersion} {e : UInt64}
    {r : WitnessReceipt} (hstaged : w.db.Staged v e) (hack : r.Acknowledges prim V v)
    (hbody : w.db.finalizeBody v r = .ok w'.db) (hvault : w'.vault = w.vault)
    (hcommits : w'.commits = w'.db :: w.commits)
    (hshape : ∃ all, call.Commits m all ∧ ts ++ [.activate v.versionId] <+: all) :
    Simulation prim V K m call w₀ w' (ts ++ [.activate v.versionId]) := by
  have hmap := h.represents.finalized hstaged hack hbody
  obtain ⟨-, -, -, -, -, hdb⟩ := Database.finalizeBody_eq_ok.mp hbody
  refine h.commit hcommits ⟨?_, ?_, ?_⟩ hmap hshape fun u hu => .inl ?_
  · rw [World.vaultId, hvault]
    exact h.root.loaded
  · rw [hvault]
    exact h.root.held
  · rw [hdb]
    exact h.root.stored
  · rw [hdb] at hu
    exact hu

/-- What a call that publishes finds staged and new, it has staged itself, and not activated. -/
theorem eq_stage (h : Simulation prim V K m call w₀ w ts) {o : ObjectId} {plaintext : Bytes}
    (hcall : call = .putWithWitness o plaintext) {u : VersionId}
    (hfresh : w₀.db.versions.lookup u.blob = none) (hpending : w.db.pending.lookup u.blob ≠ none) :
    ts = [.stage u o plaintext] := by
  obtain ⟨all, hall, hts⟩ := h.shape
  rw [hcall] at hall
  obtain ⟨u', rfl⟩ := hall
  have hversion := (h.represents.wellFormed.pending _ hpending).1
  obtain ⟨t, ht, hadds⟩ := (h.added u hversion).resolve_left fun hold => hold hfresh
  -- the only version it adds is the one it stages
  obtain rfl : u' = u := by
    rcases List.mem_cons.mp (hts.subset ht) with rfl | ht'
    · exact hadds
    · rw [List.mem_singleton.mp ht'] at hadds
      exact hadds.elim
  rcases List.prefix_cons_iff.mp hts with rfl | ⟨ts', rfl, hts'⟩
  · cases ht
  rcases List.prefix_cons_iff.mp hts' with rfl | ⟨ts'', rfl, hts''⟩
  · rfl
  · obtain rfl := List.prefix_nil.mp hts''
    obtain ⟨d, -, -, hmap⟩ := h.represents.staged u' hpending
    rw [show ∀ a b : Transaction, [a, b].foldl ObjectMap.apply m = (m.apply a).apply b from
      fun _ _ => rfl, ObjectMap.lookup_staged_activate] at hmap
    cases hmap

/-- Every change of a call other than a recovery is followed by the map. -/
theorem change (hrecover : call ≠ .recover) (hends : call.EndsOnce)
    (hopens : call.OpensOnly prim (some K) w₀)
    (hchange : Change prim call w₀ w w') (h : Simulation prim V K m call w₀ w ts) :
    ∃ ts', Simulation prim V K m call w₀ w' ts' := by
  have hroot := h.root
  cases hchange with
  | quiet hquiet => exact ⟨ts, h.quiet hquiet⟩
  | locked heq =>
    subst heq
    exact ⟨ts, h.lock⟩
  | unlocked hcall hfirst hopen heq =>
    subst heq hcall
    rw [hfirst.envelope] at hopen
    refine ⟨ts, h.same ⟨hroot.loaded, fun k hk => ?_, hroot.stored⟩ rfl rfl⟩
    exact (Option.some.inj ((hopens _ hopen).trans hk)).symm
  | @opened e _ henvelope heq =>
    subst heq
    obtain ⟨row, hrow, hid⟩ := hroot.stored
    have hloaded : e.vaultId = V :=
      Identifier.blob_inj.mp ((Database.vaultId_of_rootEnvelope henvelope hrow).symm.trans hid)
    exact ⟨ts, h.same ⟨hloaded, fun _ hk => (by cases hk), hroot.stored⟩ rfl rfl⟩
  | replaced hcall _ _ hid hfirst hbody heq =>
    subst heq hcall
    exact ⟨_, h.envelope hfirst rfl hid hbody rfl rfl hroot.held⟩
  | rotated hcall _ _ hid hfirst hbody heq =>
    subst heq hcall
    exact ⟨_, h.envelope hfirst rfl hid hbody rfl hid fun _ hk => by cases hk⟩
  | @published d hcall hfirst hnew heq =>
    subst heq
    obtain ⟨rootKey, hkey, hd⟩ := hnew.sealedFor
    obtain rfl := hroot.held rootKey hkey
    rw [show w.vault.envelope.vaultId = V from hroot.loaded] at hd
    obtain ⟨heven, hall⟩ := hcall.commits hd.size hends m
    refine ⟨_, h.commit rfl ⟨hroot.loaded, hroot.held, hroot.stored⟩
      (h.represents.published hd heven hnew.fits hnew.fresh) ?_ fun u hu => ?_⟩
    · rw [h.eq_nil hfirst]
      exact ⟨_, hall, List.prefix_rfl⟩
    · rw [show (w.committed (d.published w.db)).db.versions = (d.addTo w.db).versions from rfl,
        Draft.lookup_version] at hu
      split at hu
      · exact .inr (Identifier.blob_inj.mp ‹_›).symm
      · exact .inl hu
  | @staged d e hcall hfirst hnew _ _ heq =>
    subst heq
    obtain ⟨rootKey, hkey, hd⟩ := hnew.sealedFor
    obtain rfl := hroot.held rootKey hkey
    rw [show w.vault.envelope.vaultId = V from hroot.loaded] at hd
    obtain ⟨heven, hall⟩ := hcall.commits m
    refine ⟨_, h.commit rfl ⟨hroot.loaded, hroot.held, hroot.stored⟩
      (h.represents.stagedAt hd heven hnew.fits hnew.fresh e) ?_ fun u hu => ?_⟩
    · rw [h.eq_nil hfirst]
      exact ⟨_, hall, [.activate d.versionId], rfl⟩
    · rw [show (w.committed (d.staged e w.db)).db.versions = (d.addTo w.db).versions from rfl,
        Draft.lookup_version] at hu
      split at hu
      · exact .inr (Identifier.blob_inj.mp ‹_›).symm
      · exact .inl hu
  | @finalized v e r hcall hstaged hack hbody hvault hcommits =>
    -- a publication activates its own version
    cases call with
    | recover => exact absurd rfl hrecover
    | putWithWitness o plaintext =>
      refine ⟨_, h.activate hstaged (hroot.loaded ▸ hack) hbody hvault hcommits ?_⟩
      rw [h.eq_stage rfl hcall.2 hstaged.pending_ne_none]
      exact ⟨_, ⟨v.versionId, rfl⟩, List.prefix_rfl⟩
    | _ => exact hcall.elim

end Simulation

/-- The calls of a run take the map from `m` to the last one: each commits its transactions, given the
map it finds, and the database has committed as many. -/
inductive MapCalls : ObjectMap →
    List (Run.Transition (SessionState ω) VaultCall (Option (Except VaultError CallResult))) →
    ObjectMap → Prop
  | nil (m : ObjectMap) : MapCalls m [] m
  | cons {m m' : ObjectMap}
      {t : Run.Transition (SessionState ω) VaultCall (Option (Except VaultError CallResult))}
      {trace : List (Run.Transition (SessionState ω) VaultCall (Option (Except VaultError CallResult)))}
      {ts : List Transaction} (hperforms : t.input.Performs m t.output ts)
      (hcommits : t.after.world.commits.length = t.before.world.commits.length + ts.length)
      (hrest : MapCalls (ts.foldl ObjectMap.apply m) trace m') : MapCalls m (t :: trace) m'

/-! ### Calls that succeed -/

variable [Machine ω] [Exclusive ω] {provider : WitnessProvider ω}

/-- Reading and sealing commit nothing. -/
theorem steady_commits (n : ℕ) : Steady fun w : World ω => w.commits.length = n :=
  Steady.of_quiet fun _ _ commits => commits.length = n

/-- A put that returned has committed once. -/
theorem commits_putWithChunkSize {o : ObjectId} {plaintext : Bytes} {size : ℕ} {u : VersionId}
    (h : putWithChunkSize prim o plaintext size w = .ok u w') :
    w'.commits.length = w.commits.length + 1 :=
  (triple_putWithChunkSize (steady_commits w.commits.length) (steady_commits _) (fun _ h => h)
    (fun _ h => h) size fun _ _ hx _ _ => congrArg (· + 1) hx).ok_of rfl h

/-- An upload that returned has committed once. -/
theorem commits_putFromReaderWithChunkSize {o : ObjectId} {reader : Reader} {size : ℕ}
    {u : VersionId} (h : putFromReaderWithChunkSize prim o reader size w = .ok u w') :
    w'.commits.length = w.commits.length + 1 :=
  (triple_putFromReaderWithChunkSize (steady_commits w.commits.length) (steady_commits _)
    (fun _ h => h) (fun _ h => h) fun _ _ hx _ _ => congrArg (· + 1) hx).ok_of rfl h

/-- A rotation that returned has committed once. -/
theorem commits_rotatePassphrase {current replacement : Text} {u : Unit}
    (h : rotatePassphrase prim current replacement w = .ok u w') :
    w'.commits.length = w.commits.length + 1 :=
  (triple_rotatePassphrase (steady_commits w.commits.length)
    (steady_commits (w.commits.length + 1)) (steady_commits (w.commits.length + 1))
    (fun _ h => h) (fun _ h => h) fun _ _ _ _ hx _ _ _ _ =>
      ⟨congrArg (· + 1) hx, congrArg (· + 1) hx⟩).ok_of rfl h

/-- An acknowledgement that returned has committed once. -/
theorem commits_acknowledge {v : StoredVersion} {e : UInt64} {u : Unit}
    (h : acknowledge prim provider v e w = .ok u w') :
    w'.commits.length = w.commits.length + 1 := by
  have hstate := @acknowledge_state _ _ _ prim provider v e w
  rw [h] at hstate
  rcases hstate with hquiet | ⟨-, hcommits, -⟩
  · -- the pending row is gone
    obtain ⟨-, r, -, hbody⟩ := acknowledge_ok h
    obtain ⟨⟨e', hstaged⟩, -, -, -, -, hdb⟩ := Database.finalizeBody_eq_ok.mp hbody
    have hsome := (Database.selectStaged_eq_ok.mp hstaged).2
    rw [← show w'.db = w.db from hquiet.db, hdb, AList.lookup_erase] at hsome
    cases hsome
  · exact congrArg List.length hcommits

/-- A witnessed put that returned has committed twice, staging and finalising. -/
theorem commits_putWithWitness {o : ObjectId} {plaintext : Bytes} {u : VersionId}
    (h : putWithWitness prim o plaintext provider w = .ok u w') :
    w'.commits.length = w.commits.length + 2 := by
  obtain ⟨prepared, w1, hprepare, hrest1⟩ := Op.bind_eq_ok.mp (lockAfterFailure_eq_ok.mp h)
  obtain ⟨active, w2, hactive, hrest2⟩ := Op.bind_eq_ok.mp hrest1
  obtain ⟨_, w3, hstage, hrest3⟩ := Op.bind_eq_ok.mp hrest2
  obtain ⟨_, w4, hack, hreturn⟩ := Op.bind_eq_ok.mp hrest3
  cases hreturn
  have hread : w.Quiet w2 := IsTrans.trans _ _ _
    ((keeps_prepareVersion prim o plaintext _).of_ok hprepare)
    ((keeps_activeReceipt prim o).of_ok hactive)
  obtain ⟨_, w5, hrequire, hrest4⟩ := Op.bind_eq_ok.mp hstage
  obtain ⟨-, rfl⟩ := Op.require_eq_ok.mp hrequire
  obtain ⟨_, w6, hcommit, hfiles⟩ := Op.bind_eq_ok.mp hrest4
  obtain ⟨x, db, hx, -, rfl⟩ := transaction_ok (R := World.Quiet) hcommit
  have hafter : (x.committed db).Quiet w3 := keeps_enforceOwnerPrivateStateFiles.of_ok hfiles
  rw [commits_acknowledge hack, hafter.commits, World.commits_committed, List.length_cons,
    hx.commits, hread.commits]

/-- A call that succeeds has committed all of its transactions. -/
theorem Simulation.complete {result : CallResult} (hrecover : call ≠ .recover)
    (h : Simulation prim V K m call w w' ts) (hrun : call.run prim provider w = .ok result w') :
    call.Commits m ts := by
  obtain ⟨all, hall, hts⟩ := h.shape
  have hcomplete : w'.commits.length = w.commits.length + all.length → call.Commits m ts := by
    intro hlength
    rw [h.commits] at hlength
    rw [hts.eq_of_length (by omega)]
    exact hall
  have hnone : all = [] → call.Commits m ts := by
    rintro rfl
    rw [List.prefix_nil.mp hts]
    exact hall
  cases call with
  | put o plaintext size =>
    obtain ⟨u, w1, hput, hreturn⟩ := Op.bind_eq_ok.mp hrun
    cases hreturn
    obtain ⟨_, rfl⟩ := hall
    exact hcomplete (commits_putWithChunkSize hput)
  | putFromReader o reader size =>
    obtain ⟨u, w1, hput, hreturn⟩ := Op.bind_eq_ok.mp hrun
    cases hreturn
    obtain ⟨_, rfl⟩ := hall
    exact hcomplete (commits_putFromReaderWithChunkSize hput)
  | putWithWitness o plaintext =>
    obtain ⟨u, w1, hput, hreturn⟩ := Op.bind_eq_ok.mp hrun
    cases hreturn
    obtain ⟨_, rfl⟩ := hall
    exact hcomplete (commits_putWithWitness hput)
  | recover => exact absurd rfl hrecover
  | rotatePassphrase current replacement =>
    obtain ⟨u, w1, hrotate, hreturn⟩ := Op.bind_eq_ok.mp hrun
    cases hreturn
    obtain rfl := hall
    exact hcomplete (commits_rotatePassphrase hrotate)
  | _ => exact hnone hall

omit [Exclusive ω] in
/-- A call that returned was run, unless it opened the vault. -/
theorem run_of_sessionStep_ok {s : SessionState ω} {result : CallResult}
    (h : (sessionStep prim provider s call).1 = some (.ok result)) :
    call = .reopen ∨
      call.run prim provider s.world = .ok result (sessionStep prim provider s call).2.world := by
  have hrun : (if s.opened then SessionState.after true (call.run prim provider s.world)
      else (none, s)).1 = some (.ok result) →
        call.run prim provider s.world = .ok result (if s.opened then
          SessionState.after true (call.run prim provider s.world) else (none, s)).2.world := by
    split
    · cases call.run prim provider s.world with
      | ok a w => intro h; cases h; rfl
      | failed e w => nofun
      | crashed w => nofun
    · nofun
  cases call with
  | reopen => exact .inl rfl
  | drop => cases h
  | elapse => cases h
  | _ => exact .inr (hrun h)

/-- Reading and sealing keep a simulation. -/
theorem Simulation.steady (ts : List Transaction) :
    Steady fun x : World ω => Simulation prim V K m call w x ts where
  move _ _ _ h := h.same ⟨h.root.loaded, h.root.held, h.root.stored⟩ rfl rfl
  interfere x h := by
    have hdb : (Machine.interfere x.db x.outside).1 = x.db := Exclusive.interfere_fst _ _
    exact h.same ⟨h.root.loaded, h.root.held, by rw [hdb]; exact h.root.stored⟩ hdb rfl
  sink _ _ h := h.same ⟨h.root.loaded, h.root.held, h.root.stored⟩ rfl rfl
  record x e he h := by
    have hcommits : World.commits { x with history := e :: x.history } = x.commits := by
      rcases he with he | he <;> cases e <;> first | rfl | exact he.elim
    exact h.same ⟨h.root.loaded, h.root.held, h.root.stored⟩ rfl hcommits

/-- A recovery activates what is staged, in its order; one that stops has activated the first of
it. -/
theorem Simulation.triple_recover (provider : WitnessProvider ω) (hroot : RootHeld V K w)
    (hmap : Represents prim V K w.db m) :
    Op.Triple (· = w) (recoverPendingWitnessPublications prim provider)
      (fun _ x => Simulation prim V K m .recover w x (m.recovers.map .activate))
      fun _ x => ∃ ts, Simulation prim V K m .recover w x ts := by
  let M (ts : List Transaction) (x : World ω) : Prop := Simulation prim V K m .recover w x ts
  have hM : ∀ ts, Steady (M ts) := Simulation.steady
  have hlock : ∀ x, (∃ ts, M ts x) → ∃ ts, M ts x.locked := by
    rintro x ⟨ts, hts⟩
    exact ⟨ts, hts.lock⟩
  refine triple_lockAfterFailure_of_locked ?_ fun _ x hx _ => hlock x hx
  refine Op.Triple.bind (fun _ => M []) (((hM []).triple fun R hR => keeps_requireRootKey).conseq
    (fun x hx => hx ▸ .start hroot hmap) (fun _ _ h => h) fun _ _ h => ⟨_, h⟩) fun _ => ?_
  -- what is done and what is to do are together what the map has staged
  let inv (done rest : List (StoredVersion × UInt64)) (_ : Unit) (x : World ω) : Prop :=
    M (done.map fun q => .activate q.1.versionId) x ∧ (∀ q ∈ rest, x.db.Staged q.1 q.2) ∧
      (done ++ rest).map (fun q => q.1.versionId) = m.recovers ∧
        (rest.map fun q => q.1.versionId).Nodup
  refine Op.Triple.bind (fun pending => inv [] pending ()) ?_ fun pending => ?_
  · intro x hx
    have hkept := (hM []).triple (fun R hR => keeps_pendingWitnessPublications) x hx
    cases hout : pendingWitnessPublications x with
    | ok pending y =>
      rw [hout] at hkept
      obtain ⟨hquiet, hstaged, hrows⟩ := pendingWitnessPublications_ok hout
      have hlist := hx.represents.eq_recovers hrows
      refine ⟨hkept, fun q hq => hquiet.db ▸ hstaged q hq, hlist, ?_⟩
      have hnodup := Table.nodup_keys_select (· ≤ ·) x.db.pending
      rw [show x.db.pending.select (· ≤ ·) = _ from hrows.symm, List.map_map] at hnodup
      exact List.Nodup.of_map Identifier.blob (by rwa [List.map_map])
    | failed e y => rw [hout] at hkept; exact ⟨_, hkept⟩
    | crashed y => rw [hout] at hkept; exact ⟨_, hkept⟩
  have hstep : ∀ done q rest u, Op.Triple (inv done (q :: rest) u)
      (acknowledge prim provider q.1 q.2) (inv (done ++ [q]) rest)
      fun _ x => ∃ ts, M ts x := by
    rintro done ⟨v, e⟩ rest _ x ⟨hx, hstaged, hlist, hnodup⟩
    obtain ⟨hnot, hnodup⟩ := List.nodup_cons.mp hnodup
    have hv := hstaged (v, e) List.mem_cons_self
    have hfirst : (done.map fun q => Transaction.activate q.1.versionId) ++
        [.activate v.versionId] <+: m.recovers.map .activate := by
      rw [← hlist, List.map_map]
      refine ⟨rest.map fun q => .activate q.1.versionId, ?_⟩
      simp [Function.comp_def]
    -- the version was completed, or nothing has happened
    have hstate : M (done.map fun q => .activate q.1.versionId)
          (acknowledge prim provider v e x).state ∨
        M ((done ++ [(v, e)]).map fun q => .activate q.1.versionId)
          (acknowledge prim provider v e x).state := by
      rcases acknowledge_state v e x with hquiet | ⟨hvault, hcommits, r, hack, hbody⟩
      · exact .inl (Simulation.quiet hx hquiet)
      · refine .inr ?_
        rw [List.map_append]
        exact hx.activate hv (hx.root.loaded ▸ hack) hbody hvault hcommits ⟨_, rfl, hfirst⟩
    cases hout : acknowledge prim provider v e x with
    | ok _ y =>
      rw [hout] at hstate
      obtain ⟨-, r, -, hbody⟩ := acknowledge_ok hout
      have hcommits := commits_acknowledge hout
      refine ⟨hstate.resolve_left fun hsame => ?_, fun q hq => ?_, ?_, hnodup⟩
      · -- one more transaction was committed
        have hlength := hsame.commits
        rw [Outcome.state_ok, hcommits, hx.commits] at hlength
        omega
      · refine (Database.staged_finalized_iff hbody).mpr ⟨hstaged q (List.mem_cons_of_mem _ hq), ?_⟩
        exact fun heq => hnot (List.mem_map.mpr ⟨q, hq, heq⟩)
      · rw [List.append_assoc]
        exact hlist
    | failed _ y => rw [hout] at hstate; exact hstate.elim (⟨_, ·⟩) (⟨_, ·⟩)
    | crashed y => rw [hout] at hstate; exact hstate.elim (⟨_, ·⟩) (⟨_, ·⟩)
  refine Op.Triple.bind _ (Op.Triple.fold hstep [] pending ()) fun _ => ?_
  refine Op.Triple.bind_require (fun _ => Op.Triple.pure ?_) fun x _ hx => ⟨_, hx.1⟩
  rintro x ⟨hx, -, hlist, -⟩
  rw [List.append_nil] at hlist
  rw [← hlist, List.map_map]
  exact hx

/-- One call. -/
theorem Simulation.step (provider : WitnessProvider ω) {s : SessionState ω} (hends : call.EndsOnce)
    (hopens : call.OpensOnly prim (some K) s.world) (hroot : RootHeld V K s.world)
    (hmap : Represents prim V K s.world.db m) :
    ∃ ts, call.Performs m (sessionStep prim provider s call).1 ts ∧
      Simulation prim V K m call s.world (sessionStep prim provider s call).2.world ts := by
  by_cases hrecover : call = .recover
  · subst hrecover
    have hrun := Simulation.triple_recover provider hroot hmap s.world rfl
    unfold sessionStep
    dsimp only
    by_cases hopened : s.opened = true
    · rw [if_pos hopened, VaultCall.run, Op.bind_apply]
      cases hout : recoverPendingWitnessPublications prim provider s.world with
      | ok n w =>
        rw [hout] at hrun
        exact ⟨_, rfl, hrun⟩
      | failed e w =>
        rw [hout] at hrun
        obtain ⟨ts, hts⟩ := hrun
        exact ⟨ts, hts.shape, hts⟩
      | crashed w =>
        rw [hout] at hrun
        obtain ⟨ts, hts⟩ := hrun
        exact ⟨ts, hts.shape, hts.lock⟩
    · rw [if_neg hopened]
      have hstart : Simulation prim V K m .recover s.world s.world [] := .start hroot hmap
      exact ⟨[], hstart.shape, hstart⟩
  have hchanges : Changes prim call s.world s.world (sessionStep prim provider s call).2.world :=
    sessionStep_changes s call
  have hstep : ∀ x x', Change prim call s.world x x' →
      (∃ ts, Simulation prim V K m call s.world x ts) →
        ∃ ts, Simulation prim V K m call s.world x' ts := by
    rintro x x' hchange ⟨ts, hts⟩
    exact hts.change hrecover hends hopens hchange
  obtain ⟨ts, hts⟩ := hchanges.invariant hstep ⟨[], .start hroot hmap⟩
  refine ⟨ts, ?_, hts⟩
  unfold VaultCall.Performs
  split
  · rename_i result houtput
    rcases run_of_sessionStep_ok houtput with rfl | hrun
    · obtain ⟨_, rfl, hnil⟩ := hts.shape
      exact List.prefix_nil.mp hnil
    · exact hts.complete hrecover hrun
  · exact hts.shape

/-- A run. -/
theorem Simulation.run {s : SessionState ω} {calls : List VaultCall}
    (hends : ∀ call ∈ calls, call.EndsOnce)
    (hopens : ∀ t ∈ Run.trace (sessionStep prim provider) s calls,
      t.input.OpensOnly prim (some K) t.before.world)
    (hroot : RootHeld V K s.world) (hmap : Represents prim V K s.world.db m) :
    ∃ m', MapCalls m (Run.trace (sessionStep prim provider) s calls) m' ∧
      RootHeld V K (Run.final (sessionStep prim provider) s calls).world ∧
      Represents prim V K (Run.final (sessionStep prim provider) s calls).world.db m' := by
  induction calls generalizing s m with
  | nil => exact ⟨m, .nil m, hroot, hmap⟩
  | cons call calls ih =>
    obtain ⟨ts, hperforms, hts⟩ := Simulation.step provider (hends call List.mem_cons_self)
      (hopens _ List.mem_cons_self) hroot hmap
    obtain ⟨m', hrest, hlast⟩ := ih (fun c hc => hends c (List.mem_cons_of_mem _ hc))
      (fun t ht => hopens t (List.mem_cons_of_mem _ ht)) hts.root hts.represents
    exact ⟨m', .cons hperforms hts.commits hrest, hlast⟩

/-! ### Reading the map -/

namespace Represents

variable {db : Database} {v : Vault} {sink : Bytes}

/-- An object is read as the map has it. -/
theorem triple_getToWriterInner (h : Represents prim V K db m) (hprim : prim.OpensSealed)
    (hkey : v.rootKey = some K) (hid : v.envelope.vaultId = V) (o : ObjectId) (writer : Writer) :
    Op.Triple (World.Shows (ω := ω) v db sink) (getToWriterInner prim o writer)
      (fun _ w => ∃ plaintext, m.active.lookup o = some plaintext ∧
        w.Shows v db (writer.received sink plaintext))
      fun e w => e = some .notFound ∧ m.active.lookup o = none ∧ w.Shows v db sink := by
  cases ho : m.active.lookup o with
  | some plaintext =>
    obtain ⟨d, hd, rfl, rfl⟩ := h.active o plaintext ho
    refine (total_getToWriterInner hprim h.wellFormed hd hkey hid writer).conseq (fun _ h => h)
      (fun _ w hw => ⟨_, rfl, hw⟩) fun _ _ h => h.elim
  | none =>
    refine (triple_getToWriterInner_notFound hkey (.inl (h.inactive o ho)) writer).conseq (fun _ h => h)
      (fun _ _ h => h.elim) fun e w hw => ⟨hw.1, rfl, hw.2⟩

/-- `get_to_writer` writes exactly what the map has. -/
theorem triple_getToWriter (h : Represents prim V K db m) (hprim : prim.OpensSealed)
    (hkey : v.rootKey = some K) (hid : v.envelope.vaultId = V) (o : ObjectId) (writer : Writer) :
    Op.Triple (World.Shows (ω := ω) v db sink) (getToWriter prim o writer)
      (fun _ w => ∃ plaintext, m.active.lookup o = some plaintext ∧
        w.sink = writer.received sink plaintext)
      fun e w => e = some .notFound ∧ m.active.lookup o = none ∧ w.sink = sink := by
  refine triple_lockAfterFailure ((h.triple_getToWriterInner hprim hkey hid o writer).mono_post
    fun _ w ⟨plaintext, ho, hw⟩ => ⟨plaintext, ho, hw.sink⟩)
    (fun e w ⟨he, ho, hw⟩ => ⟨he, ho, ?_⟩) ?_
  · split <;> exact hw.sink
  · rintro w ⟨he, -⟩
    cases he

/-- `get` returns what the map has. -/
theorem triple_get (h : Represents prim V K db m) (hprim : prim.OpensSealed)
    (hkey : v.rootKey = some K) (hid : v.envelope.vaultId = V) (o : ObjectId) :
    Op.Triple (World.Shows (ω := ω) v db sink) (get prim o) (fun bytes _ => m.get o = .ok bytes)
      fun e _ => ∃ e', e = some e' ∧ m.get o = .error e' := by
  refine @triple_lockAfterFailure _ _ _ _ _ (fun e _ => ∃ e', e = some e' ∧ m.get o = .error e') _
    ?_ (fun _ _ h => h) fun _ h => h
  refine Op.Triple.bind (fun _ => World.Shows v db []) (fun w hw => ?_) fun _ => ?_
  · exact ⟨hw.vault, hw.db, rfl, hw.reliable⟩
  refine Op.Triple.bind (fun (_ : Unit) (w : World ω) => m.get o = .ok w.sink)
    ((h.triple_getToWriterInner hprim hkey hid o .vector).conseq (fun _ h => h) ?_ ?_) fun _ w hw => hw
  · rintro _ w ⟨plaintext, ho, hw⟩
    rw [ObjectMap.get, ho, hw.sink]
    rfl
  · rintro e w ⟨he, ho, -⟩
    exact ⟨_, he, by rw [ObjectMap.get, ho]⟩

omit [Machine ω] [Exclusive ω] in
/-- The rows of active objects are those of the map. -/
theorem exists_ids (h : Represents prim V K db m) :
    ∃ ids : List ObjectId, db.selectObjectKeys = ids.map Identifier.blob ∧
      ids.length = m.active.keys.length ∧ ∀ o ∈ ids, m.active.lookup o ≠ none := by
  have hkeys : db.selectObjectKeys ∈ Set.range (List.map (fun o : ObjectId => o.blob)) := by
    rw [Set.range_list_map]
    intro b hb
    -- the key of a pointer is the identifier of a sealed version
    obtain ⟨active, hactive⟩ := Option.ne_none_iff_exists'.mp (Database.mem_selectObjectKeys.mp hb)
    obtain ⟨row, hrow, hobject⟩ := h.wellFormed.active b active hactive
    obtain ⟨d, _, _, -, -, rfl, -⟩ := h.wellFormed.complete active row hrow
    exact ⟨d.objectId, hobject⟩
  obtain ⟨ids, hids⟩ := hkeys
  have hmem : ∀ o, o ∈ ids ↔ m.active.lookup o ≠ none := by
    intro o
    have hlisted : o ∈ ids ↔ o.blob ∈ db.selectObjectKeys := by
      rw [← hids, List.mem_map]
      exact ⟨fun ho => ⟨o, ho, rfl⟩, fun ⟨o', ho', heq⟩ => Identifier.blob_inj.mp heq ▸ ho'⟩
    rw [hlisted, Database.mem_selectObjectKeys]
    constructor
    · exact fun hactive hnone => hactive (h.inactive o hnone)
    · intro hsome
      obtain ⟨plaintext, ho⟩ := Option.ne_none_iff_exists'.mp hsome
      obtain ⟨d, hd, rfl, -⟩ := h.active o plaintext ho
      rw [hd.active]
      nofun
  refine ⟨ids, hids.symm, List.Perm.length_eq ?_, fun o ho => (hmem o).mp ho⟩
  have hnodup : ids.Nodup := by
    refine List.Nodup.of_map Identifier.blob ?_
    rw [hids]
    exact Table.nodup_keys_select _ _
  refine (List.perm_ext_iff_of_nodup hnodup m.active.keys_nodup).mpr fun o => ?_
  rw [hmem, ← AList.mem_keys, ← AList.lookup_isSome, Option.isSome_iff_ne_none]

/-- `verify_active_objects` counts the objects of the map. -/
theorem triple_verifyActiveObjects (h : Represents prim V K db m) (hprim : prim.OpensSealed)
    (hkey : v.rootKey = some K) (hid : v.envelope.vaultId = V) :
    Op.Triple (World.Shows (ω := ω) v db sink) (verifyActiveObjects prim)
      (fun n _ => m.count = .ok n) fun e _ => ∃ e', e = some e' ∧ m.count = .error e' := by
  obtain ⟨ids, hids, hlength, hactive⟩ := h.exists_ids
  refine @triple_lockAfterFailure _ _ _ _ _ (fun e _ => ∃ e', e = some e' ∧ m.count = .error e') _
    ?_ (fun _ _ h => h) fun _ h => h
  refine Op.Triple.bind _ ((total_requireRootKey hkey).triple _) fun _ => ?_
  refine Op.Triple.of_imp fun _ => ?_
  refine Op.Triple.bind _ ((total_activeObjectIds hids).triple _) fun listed => ?_
  refine Op.Triple.of_imp fun hlisted => ?_
  subst hlisted
  let I (_ rest : List ObjectId) (_ : Unit) (w : World ω) : Prop :=
    (∀ o ∈ rest, m.active.lookup o ≠ none) ∧ w.Shows v db sink
  refine Op.Triple.bind (I listed []) ((Op.Triple.fold (I := I) ?_ [] listed ()).mono_pre
    fun w hw => ⟨hactive, hw⟩) fun _ => ?_
  · intro done o rest _
    refine Op.Triple.of_imp fun hrest => ?_
    refine (h.triple_getToWriterInner hprim hkey hid o .discard).conseq (fun _ h => h) ?_ ?_
    · rintro _ w ⟨_, -, hw⟩
      exact ⟨fun o' ho' => hrest o' (List.mem_cons_of_mem _ ho'), hw⟩
    · rintro e w ⟨-, ho, -⟩
      exact absurd ho (hrest o List.mem_cons_self)
  · unfold countOf ObjectMap.count
    rw [← hlength]
    refine Op.Triple.bind_require (fun hfits => Op.Triple.pure fun w _ => ?_) fun w hlarge _ => ?_
    · rw [if_pos hfits]
    · exact ⟨_, rfl, by rw [if_neg hlarge]⟩

end Represents

/-! ### Runs -/

/-- **Refinement.** In every run of a program on a vault it created, in which no reader delivers
bytes after it has reported end of file and no passphrase opens an envelope to a wrong key, every call
commits its transactions of the map, or the first of them if it does not succeed; those of a recovery
activate everything that is staged. And as long as the storage works, an unlocked vault reads as the
map that all of them have left. -/
theorem vault_refines_map (hprim : prim.OpensSealed) {p : Text} {u : Unit}
    (hcreate : create prim p w = .ok u w') (calls : List VaultCall)
    (hends : ∀ call ∈ calls, call.EndsOnce)
    (hopens : ∀ t ∈ Run.trace (sessionStep prim provider) ⟨w', true⟩ calls,
      t.input.OpensOnly prim w'.vault.rootKey t.before.world) :
    let x := (Run.final (sessionStep prim provider) ⟨w', true⟩ calls).world
    ∃ m, MapCalls .empty (Run.trace (sessionStep prim provider) ⟨w', true⟩ calls) m ∧
      (x.vault.status = .unlocked → Machine.Reliable x.outside →
        (∀ o, (get prim o x).result = some (m.get o)) ∧
        (∀ o writer,
          (getToWriter prim o writer x).result = some ((m.get o).map fun _ => ()) ∧
          (getToWriter prim o writer x).state.sink =
            writer.received x.sink ((m.active.lookup o).getD [])) ∧
        (verifyActiveObjects prim x).result = some m.count) := by
  intro x
  obtain ⟨K, hK, hstart⟩ := KeyState.of_create hcreate
  have hroot : RootHeld w'.vaultId K w' := ⟨rfl, hstart.held, _, hstart.row, rfl⟩
  have hempty : Represents prim w'.vaultId K w'.db .empty := by
    rw [(create_ok hcreate).2]
    exact .empty _
  rw [hK] at hopens
  obtain ⟨m, hcalls, hroot', hmap⟩ := Simulation.run (s := ⟨w', true⟩) hends hopens hroot hempty
  refine ⟨m, hcalls, fun hunlocked hreliable => ?_⟩
  -- the key in memory is the Root Key
  have hkey : x.vault.rootKey = some K := by
    cases hx : x.vault.rootKey with
    | none =>
      rw [Vault.status, hx] at hunlocked
      cases hunlocked
    | some k => rw [hroot'.held k hx]
  have hshows : x.Shows x.vault x.db x.sink := ⟨rfl, rfl, rfl, hreliable⟩
  refine ⟨fun o => ?_, fun o writer => ?_, ?_⟩
  · exact (hmap.triple_get hprim hkey hroot'.loaded o).result_eq hshows
  · have hread := hmap.triple_getToWriter hprim hkey hroot'.loaded o writer x hshows
    rw [ObjectMap.get]
    cases hout : getToWriter prim o writer x with
    | ok _ y =>
      rw [hout] at hread
      obtain ⟨plaintext, ho, hsink⟩ := hread
      rw [ho]
      exact ⟨rfl, hsink⟩
    | failed e y =>
      rw [hout] at hread
      obtain ⟨he, ho, hsink⟩ := hread
      obtain rfl := Option.some.inj he
      rw [ho]
      refine ⟨rfl, hsink.trans ?_⟩
      cases writer <;> simp [Writer.received]
    | crashed y =>
      rw [hout] at hread
      cases hread.1
  · exact (hmap.triple_verifyActiveObjects hprim hkey hroot'.loaded).result_eq hshows

end

/-! ### Samples -/

/-- A script without failures is reliable. -/
theorem Channel.reliable {prim : Primitives} {signingKey : Block 32} {c : Channel prim signingKey}
    (h : ∀ choice ∈ c.choices, choice.fault = .none ∧ choice.written = none) :
    Machine.Reliable c := by
  have hcalm : Choice.calm.fault = .none ∧ Choice.calm.written = none := ⟨rfl, rfl⟩
  refine ⟨{c | ∀ choice ∈ c.choices, choice.fault = .none ∧ choice.written = none}, h, fun c hc => ?_⟩
  have hnext := (next_of_forall hcalm hc).1
  exact ⟨hnext.1, fun _ => hnext.2, fun c' hmove => moves_of_forall hcalm hc hmove, fun _ => hc⟩

/-- A vault with primitives that open what they seal, just created. -/
def mapWorld : World SampleChannel :=
  (create .transparent [112] (.blank ⟨.empty, [], Choice.script 80⟩)).state

theorem create_mapWorld :
    create .transparent [112] (.blank ⟨.empty, [], Choice.script 80⟩) = .ok () mapWorld :=
  Outcome.eq_ok_of_result (by decide +kernel)

/-- A call of the sample program. -/
abbrev mapSession : SessionState SampleChannel → VaultCall →
    Option (Except VaultError CallResult) × SessionState SampleChannel :=
  sessionStep .transparent (sampleTrust.provider .transparent)

/-- An object is stored twice, the second time from a reader, another one through the witness, and
the vault is opened anew. -/
def mapCalls : List VaultCall :=
  [.put (.repeated 2) [97] 1, .putFromReader (.repeated 2) [.interrupted, .data [98, 99, 100]] 2,
    .putWithWitness (.repeated 3) [101], .drop, .reopen]

/-- The refinement over a run of the sample vault: every object is read as the map has it. -/
theorem vault_refines_map_sample :
    let x := (Run.final mapSession ⟨mapWorld, true⟩ (mapCalls ++ [.unlock [112]])).world
    ∃ m : ObjectMap, m.get (.repeated 2) = .ok [98, 99, 100] ∧ m.get (.repeated 3) = .ok [101] ∧
      m.count = .ok 2 ∧ ∀ o, (get .transparent o x).result = some (m.get o) := by
  have hends : ∀ call ∈ mapCalls ++ [.unlock [112]], call.EndsOnce := by
    simp only [mapCalls, List.cons_append, List.nil_append, List.mem_cons, List.not_mem_nil, or_false]
    rintro call (rfl | rfl | rfl | rfl | rfl | rfl)
    · trivial
    · exact ⟨nofun, nofun, trivial⟩
    · trivial
    · trivial
    · trivial
    · trivial
  have hopens : ∀ t ∈ Run.trace mapSession ⟨mapWorld, true⟩ (mapCalls ++ [.unlock [112]]),
      t.input.OpensOnly .transparent mapWorld.vault.rootKey t.before.world := by
    intro t ht
    rw [Run.trace_append] at ht
    rcases List.mem_append.mp ht with ht | ht
    · have hmem := Run.input_mem _ ht
      simp only [mapCalls, List.mem_cons, List.not_mem_nil, or_false] at hmem
      rcases hmem with h | h | h | h | h <;> rw [h] <;> trivial
    · -- the vault is unlocked with its own passphrase
      have hkey : (openRootKey .transparent [112]
          (Run.final mapSession ⟨mapWorld, true⟩ mapCalls).world.vault.envelope).toOption =
            mapWorld.vault.rootKey := by decide +kernel
      obtain rfl := List.mem_singleton.mp ht
      intro k hk
      rw [Run.transition] at hk
      rw [← hkey, hk]
      rfl
  have hx : (Run.final mapSession ⟨mapWorld, true⟩ (mapCalls ++ [.unlock [112]])).world.vault.status =
      .unlocked := by decide +kernel
  have hreliable : Machine.Reliable
      (Run.final mapSession ⟨mapWorld, true⟩ (mapCalls ++ [.unlock [112]])).world.outside :=
    Channel.reliable (by decide +kernel)
  have hfirst : (get .transparent (.repeated 2) (Run.final mapSession ⟨mapWorld, true⟩
      (mapCalls ++ [.unlock [112]])).world).result = some (.ok [98, 99, 100]) := by decide +kernel
  have hsecond : (get .transparent (.repeated 3) (Run.final mapSession ⟨mapWorld, true⟩
      (mapCalls ++ [.unlock [112]])).world).result = some (.ok [101]) := by decide +kernel
  have hcount : (verifyActiveObjects .transparent (Run.final mapSession ⟨mapWorld, true⟩
      (mapCalls ++ [.unlock [112]])).world).result = some (.ok 2) := by decide +kernel
  unfold mapSession at hopens hx hreliable hfirst hsecond hcount ⊢
  obtain ⟨m, -, hmap⟩ := vault_refines_map Primitives.idealAead_transparent.toOpensSealed create_mapWorld
    _ hends hopens
  obtain ⟨hget, -, hverify⟩ := hmap hx hreliable
  refine ⟨m, ?_, ?_, ?_, hget⟩
  · rw [hget] at hfirst
    exact Option.some.inj hfirst
  · rw [hget] at hsecond
    exact Option.some.inj hsecond
  · rw [hverify] at hcount
    exact Option.some.inj hcount

/-- A reader that goes on after it has reported end of file: the vault reports success, and neither
what the reader delivered nor what was there before can be read again. -/
theorem put_after_end_of_file_unreadable :
    let s : SessionState SampleChannel :=
      Run.final mapSession ⟨mapWorld, true⟩ [.put (.repeated 2) [97] 1]
    let t := Run.transition mapSession s
      (.putFromReader (.repeated 2) [.data [97], .data [], .data [98]] 2)
    Primitives.transparent.OpensSealed ∧
      (get .transparent (.repeated 2) s.world).result = some (.ok [97]) ∧
      (t.output.bind Except.toOption).isSome ∧
      (get .transparent (.repeated 2) t.after.world).result = some (.error .authentication) := by
  refine ⟨Primitives.idealAead_transparent.toOpensSealed, ?_⟩
  decide +kernel

end Vlt1

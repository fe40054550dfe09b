import Vlt1.Agreement
import Vlt1.CrashWindow
import Vlt1.DaemonIntegrity
import Vlt1.UnlockGate
import Vlt1.Vault.Sweep

/-!
# Which writes of a strict daemon are witnessed

A version becomes active in three ways: published at once, published from a stream, or finalized with
the receipt of the witness. A daemon with a witness finalizes what a `put` request stores, and publishes
what a `put_stream` request stores without asking the witness.

`writes_witnessed` is about the runs without streamed uploads: every active version keeps a valid receipt
in the table. `unwitnessed_pointer_locks_out` is about what one streamed upload can leave behind: with an
active version that has no receipt and nothing pending, a locked vault stays locked for good, whatever the
daemon is asked and whatever the witness answers.
-/

namespace Vlt1

open Effect

section

variable {ω : Type} {prim : Primitives} {config : DaemonConfig}

/-! ### Writes through the witness -/

/-- Every active version is stored with a valid receipt for it. -/
def Database.AllWitnessed (prim : Primitives) (V : VaultId) (db : Database) : Prop :=
  ∀ k b, db.objects.lookup k = some b → ∃ v r, v.objectId.blob = k ∧ v.versionId.blob = b ∧
    db.selectVersion v.versionId = .ok v ∧ db.selectReceipt prim v.versionId = .ok (some r) ∧
      r.Acknowledges prim V v

namespace Database.AllWitnessed

variable {V : VaultId} {db db' : Database}

theorem empty (row : Option MetaRow) : { Database.empty with vaultMeta := row }.AllWitnessed prim V :=
  fun _ _ h => by cases h

/-- It does not depend on other tables, and new versions do not matter. -/
theorem of_kept (h : db.AllWitnessed prim V) (hobjects : db'.objects = db.objects)
    (hreceipts : db'.receipts = db.receipts)
    (hversions : ∀ b row, db.versions.lookup b = some row → db'.versions.lookup b = some row) :
    db'.AllWitnessed prim V := by
  intro k b hb
  rw [hobjects] at hb
  obtain ⟨v, r, hk, hv, hversion, hreceipt, hack⟩ := h k b hb
  refine ⟨v, r, hk, hv, ?_, ?_, hack⟩
  · rw [Database.selectVersion_eq_ok] at hversion ⊢
    exact ⟨hversion.1, hversion.2.1, hversions _ _ hversion.2.2⟩
  · rw [Database.selectReceipt_eq_ok_some] at hreceipt ⊢
    rwa [hreceipts]

/-- Finalizing moves one pointer, to a version whose receipt it stores. -/
theorem finalized (h : db.AllWitnessed prim V) {v : StoredVersion} {e : UInt64} {r : WitnessReceipt}
    (hstaged : db.Staged v e) (hack : r.Acknowledges prim V v)
    (hbody : db.finalizeBody v r = .ok db') : db'.AllWitnessed prim V := by
  obtain ⟨-, hbound, hnone, -, -, rfl⟩ := Database.finalizeBody_eq_ok.mp hbody
  obtain ⟨-, -, hversion, -, hvalid⟩ := WitnessReceipt.verifyRequest_eq_ok.mp hack.verified
  have hsame : r.versionId = v.versionId := hversion
  rw [hsame] at hnone
  intro k b hb
  simp only [Table.lookup_insert_eq] at hb
  by_cases hk : k = v.objectId.blob
  · -- the pointer that moved
    rw [if_pos hk] at hb
    refine ⟨v, r, hk.symm, Option.some.inj hb, hstaged.version, ?_, hack⟩
    refine Database.selectReceipt_eq_ok_some.mpr ⟨hsame, hbound, hvalid, ?_⟩
    rw [← hsame, Table.lookup_insert_eq, if_pos rfl]
  · rw [if_neg hk] at hb
    obtain ⟨v', r', hk', hv', hversion', hreceipt', hack'⟩ := h k b hb
    refine ⟨v', r', hk', hv', hversion', ?_, hack'⟩
    -- the new receipt replaces none
    rw [Database.selectReceipt_eq_ok_some] at hreceipt' ⊢
    refine ⟨hreceipt'.1, hreceipt'.2.1, hreceipt'.2.2.1, ?_⟩
    have hne : v'.versionId.blob ≠ v.versionId.blob := by
      intro heq
      rw [heq, hnone] at hreceipt'
      cases hreceipt'.2.2.2
    rw [hsame, Table.lookup_insert_eq, if_neg hne]
    exact hreceipt'.2.2.2

end Database.AllWitnessed

/-- A call that publishes nothing keeps every active version witnessed. -/
theorem Change.allWitnessed {V : VaultId} {call : VaultCall} {w₀ w w' : World ω}
    (hcall : ∀ d, ¬call.Publishes d) (hchange : Change prim call w₀ w w')
    (h : w.Identified V ∧ w.db.AllWitnessed prim V) :
    w'.Identified V ∧ w'.db.AllWitnessed prim V := by
  refine ⟨h.1.change hchange, ?_⟩
  cases hchange with
  | quiet hquiet => rw [hquiet.db]; exact h.2
  | locked heq | unlocked _ _ _ heq | opened _ _ heq => subst heq; exact h.2
  | replaced _ _ _ _ _ hbody heq | rotated _ _ _ _ _ hbody heq =>
    obtain ⟨_, -, -, rfl⟩ := Database.replaceEnvelopeBody_eq_ok.mp hbody
    subst heq
    exact h.2
  | published hpublishes => exact absurd hpublishes (hcall _)
  | staged _ _ hnew _ _ heq =>
    subst heq
    refine h.2.of_kept rfl rfl fun b row hb => ?_
    exact (Draft.lookup_version_of_ne_none hnew.fresh (by rw [hb]; exact Option.some_ne_none _)).2.trans hb
  | finalized _ hstaged hack hbody _ _ =>
    rw [h.1.1] at hack
    exact h.2.finalized hstaged hack hbody

/-- The calls of a strict daemon that is sent no stream publish nothing without the witness. -/
theorem DaemonInput.Witnessed.not_publishes {input : DaemonInput} {call : VaultCall}
    (hstrict : config.witness.isSome) (hinput : input.Witnessed)
    (hcalls : DaemonInput.Calls prim config input call) (d : Draft) : ¬call.Publishes d := by
  intro hpublishes
  cases hcalls with
  | put _ hnone _ _ =>
    rw [hnone] at hstrict
    cases hstrict
  | putStream => exact hinput
  | _ => exact hpublishes

/-- An input that stores nothing past the witness leaves the database file to the daemon. -/
theorem DaemonInput.Witnessed.not_replaces {input : DaemonInput} (h : input.Witnessed) :
    ¬input.Replaces := by
  intro hreplaces
  cases input with
  | replaceDatabase db => exact h
  | _ => exact hreplaces

variable [Machine ω] [Exclusive ω]

/-- A vault that was just created has no active versions. -/
theorem Database.AllWitnessed.of_create {w w' : World ω} {passphrase : Text} {u : Unit}
    (h : create prim passphrase w = .ok u w') (V : VaultId) : w'.locked.db.AllWitnessed prim V := by
  have hempty := (create_ok h).2
  rw [show w'.locked.db = w'.db from rfl, hempty]
  exact .empty _

variable [Transport ω]

/-- In a run of a strict daemon without streamed uploads every active version stays witnessed. -/
theorem Database.AllWitnessed.daemon_run (hstrict : config.witness.isSome) {s : DaemonState ω}
    (hs : s.Settled) {V : VaultId} (hid : s.world.Identified V) (hall : s.world.db.AllWitnessed prim V)
    {inputs : List DaemonInput} (hinputs : ∀ i ∈ inputs, i.Witnessed) :
    (Run.final (daemonStep prim config) s inputs).world.Identified V ∧
      (Run.final (daemonStep prim config) s inputs).world.db.AllWitnessed prim V := by
  have hreplaces : ∀ i ∈ inputs, ¬i.Replaces := fun i hi => (hinputs i hi).not_replaces
  refine daemon_run_changes (I := fun w => w.Identified V ∧ w.db.AllWitnessed prim V) hs hreplaces
    (fun input hinput call hcalls w₀ w w' hchange => ?_) ⟨hid, hall⟩
  exact hchange.allWitnessed ((hinputs input hinput).not_publishes hstrict hcalls)

/-- **Writes are witnessed.** A strict daemon serves any requests but streamed uploads, dies and is
started again, before a witness that answers anything. If every active version had a valid receipt for it
in the table, every active version has one after them. -/
theorem writes_witnessed (hstrict : config.witness.isSome) {s : DaemonState ω} (hs : s.Settled)
    {V : VaultId} (hid : s.world.Identified V) (hall : s.world.db.AllWitnessed prim V)
    (inputs : List DaemonInput) (hinputs : ∀ i ∈ inputs, i.Witnessed) :
    (Run.final (daemonStep prim config) s inputs).world.db.AllWitnessed prim V :=
  (hall.daemon_run hstrict hs hid hinputs).2

end

/-! ### A pointer without a receipt -/

section

variable {ω : Type} {prim : Primitives} {config : DaemonConfig} {p : HttpsWitnessProvider} {k b : Bytes}

/-- Nothing is pending, and the pointers and receipts are these. -/
structure Database.Strands (objects : Table Bytes Bytes) (receipts : Table Bytes ReceiptRow)
    (db : Database) : Prop where
  pending : db.pending.rows = []
  objects : db.objects = objects
  receipts : db.receipts = receipts

variable {objects : Table Bytes Bytes} {receipts : Table Bytes ReceiptRow}

theorem Database.Strands.not_staged {db : Database} (h : db.Strands objects receipts)
    (v : StoredVersion) (e : UInt64) : ¬db.Staged v e := by
  intro hstaged
  have hmem := Table.mem_rows.mpr (Database.selectStaged_eq_ok.mp hstaged.pending).2
  rw [h.pending] at hmem
  exact absurd hmem List.not_mem_nil

/-- Without pending rows, only a call that stores a draft in an unlocked vault changes a pointer. -/
theorem Change.strands {call : VaultCall} {w₀ w w' : World ω}
    (hidle : w.vault.rootKey = none ∨ ∀ d, ¬call.Publishes d ∧ ¬call.Stages d)
    (hchange : Change prim call w₀ w w') (h : w.db.Strands objects receipts) :
    w'.db.Strands objects receipts := by
  -- a draft is sealed under the root key
  have hnew : ∀ {d : Draft}, d.New prim w → call.Publishes d ∨ call.Stages d → False := by
    intro d hnew hcall
    rcases hidle with hlocked | hidle
    · obtain ⟨rootKey, hkey, -⟩ := hnew.sealedFor
      cases hlocked.symm.trans hkey
    · exact hcall.elim (hidle d).1 (hidle d).2
  cases hchange with
  | quiet hquiet => rw [hquiet.db]; exact h
  | locked heq | unlocked _ _ _ heq | opened _ _ heq => subst heq; exact h
  | replaced _ _ _ _ _ hbody heq | rotated _ _ _ _ _ hbody heq =>
    obtain ⟨_, -, -, rfl⟩ := Database.replaceEnvelopeBody_eq_ok.mp hbody
    subst heq
    exact ⟨h.pending, h.objects, h.receipts⟩
  | published hcall _ hdraft _ => exact (hnew hdraft (.inl hcall)).elim
  | staged hcall _ hdraft _ _ _ => exact (hnew hdraft (.inr hcall)).elim
  | finalized _ hstaged _ _ _ _ => exact absurd hstaged (h.not_staged _ _)

/-- A recovery has nothing to stop at. -/
theorem Database.Strands.not_slipsThrough {db : Database} (h : db.Strands objects receipts)
    (V : VaultId) (found : Set StateFiles) : ¬db.SlipsThrough prim p V found := by
  have hnone : db.selectPending = [] := by
    apply List.length_eq_zero_iff.mp
    rw [Database.selectPending, Table.length_select, h.pending, List.length_nil]
  rintro (⟨done, rest, _, _, hrows, -⟩ | ⟨⟨-, _, _, _, hhead, -⟩, -⟩)
  · rw [hnone] at hrows
    exact absurd hrows.symm (List.append_ne_nil_of_right_ne_nil _ (List.cons_ne_nil _ _))
  · rw [hnone] at hhead
    cases hhead

variable [Machine ω] [Exclusive ω] [Transport ω]

/-- The strict unlock finds the pointer without a receipt, if nothing else stops it. -/
theorem strictUnlock_ne_ok {w w' : World ω} {passphrase : Text} {result : Success}
    (h : w.db.Strands objects receipts) (hpointer : objects.lookup k = some b)
    (hreceipt : receipts.lookup b = none) :
    strictUnlock prim passphrase (p.provider prim) w ≠ .ok result w' := by
  intro hok
  obtain ⟨-, w₁, w₂, _, _, hunlock, hrecover, hsweep⟩ := strictUnlock_eq_ok hok
  have hdb : w₁.db = w.db := by
    obtain ⟨_, -, rfl⟩ := unlock_ok hunlock
    rfl
  have hafter : w₂.db.Strands objects receipts := by
    have hchanges : Changes prim .recover w₁ w₁
        (recoverPendingWitnessPublications prim (p.provider prim) w₁).state := changes_recover w₁
    rw [hrecover] at hchanges
    exact hchanges.invariant (I := fun x => x.db.Strands objects receipts)
      (fun x x' hchange => hchange.strands (.inr fun _ => ⟨id, id⟩)) (hdb ▸ h)
  -- the sweep compares the stored receipt of every object
  obtain ⟨-, -, -, hheads⟩ := verifyActiveObjectsWithWitness_ok
    (HttpsWitnessProvider.provider prim p).keeps_untouched hsweep
  have hlisted : w₂.db.objects.lookup k ≠ none := by
    rw [hafter.objects, hpointer]
    exact Option.some_ne_none _
  obtain ⟨o, _, _, r, rfl, hfresh⟩ := hheads k hlisted
  have hactive := (Database.selectActive_eq_ok.mp hfresh.active)
  rw [hafter.objects, hpointer] at hactive
  have hstored := (Database.selectReceipt_eq_ok_some.mp hfresh.stored).2.2.2
  rw [hafter.receipts, ← Option.some.inj hactive, hreceipt] at hstored
  cases hstored

/-- An unlock request to such a vault is answered with an error, if at all, and leaves it locked. -/
theorem Database.Strands.unlock_refused (hconfig : config.witness = some p)
    (hpointer : objects.lookup k = some b) (hreceipt : receipts.lookup b = none) {s : DaemonState ω}
    (hlocked : s.world.vault.rootKey = none) (h : s.world.db.Strands objects receipts) (a : Arrival)
    (passphrase : Text) :
    let step := Vlt1.daemonStep prim config s (.request a (some (.unlock passphrase)))
    (∀ frame ∈ step.1, ∃ code message, frame = .response (.error code message)) ∧
      step.2.world.vault.rootKey = none := by
  intro step
  have hnone : ∀ frame ∈ ([] : List Frame), ∃ code message,
      frame = .response (.error code message) := fun _ h => absurd h List.not_mem_nil
  by_cases hrunning : s.running = true
  · rcases serveStream_unlock hconfig a passphrase s with ⟨code, message, hrefused⟩ | hrun
    · -- turned away before the vault is touched
      have hstep : step = ([.response (.error code message)], s) := daemonStep_of_ok hrunning hrefused
      rw [hstep]
      exact ⟨by simp, hlocked⟩
    · simp only [runVault, Op.bind_apply] at hrun
      cases hout : strictUnlock prim passphrase (p.provider prim) s.world with
      | ok result w => exact absurd hout (strictUnlock_ne_ok h hpointer hreceipt)
      | failed e w =>
        rw [hout] at hrun
        have hstep : step = ([.response (mapVaultError e)], { s with world := w }) :=
          daemonStep_of_ok hrunning hrun
        obtain ⟨code, message, herror⟩ := mapVaultError_eq_error e
        rw [hstep, herror]
        refine ⟨?_, ?_⟩
        · intro frame hframe
          exact ⟨code, message, List.mem_singleton.mp hframe⟩
        · by_contra hopen
          exact h.not_slipsThrough _ Set.univ
            (slipsThrough_of_strictUnlock (fun _ => Set.mem_univ _) hlocked hout hopen).2
      | crashed w =>
        rw [hout] at hrun
        have hstep : step = ([], DaemonState.down { s with world := w }) :=
          daemonStep_of_crashed hrunning hrun
        rw [hstep]
        exact ⟨hnone, rfl⟩
  · have hstep : step = ([], s) := daemonStep_of_down hrunning _ _
    rw [hstep]
    exact ⟨hnone, hlocked⟩

/-- No input of the daemon unlocks such a vault or moves its pointers. -/
theorem Database.Strands.daemonStep (hconfig : config.witness = some p)
    (hpointer : objects.lookup k = some b) (hreceipt : receipts.lookup b = none) {s : DaemonState ω}
    (hlocked : s.world.vault.rootKey = none) (h : s.world.db.Strands objects receipts)
    {input : DaemonInput} (hinput : ¬input.Replaces) :
    (daemonStep prim config s input).2.world.vault.rootKey = none ∧
      (daemonStep prim config s input).2.world.db.Strands objects receipts := by
  have hs : s.Settled := fun _ => hlocked
  by_cases hunlock : ∃ a passphrase, input = .request a (some (.unlock passphrase))
  · obtain ⟨a, passphrase, rfl⟩ := hunlock
    refine ⟨?_, daemonStep_changes (I := fun w => w.db.Strands objects receipts) hs hinput
      (fun call hcalls w₀ w w' hchange => hchange.strands ?_) h⟩
    · exact (h.unlock_refused hconfig hpointer hreceipt hlocked a passphrase).2
    · -- an unlock request stores nothing
      right
      intro d
      cases hcalls with
      | unlock | recover | verifyUnlocked => exact ⟨id, id⟩
  · refine daemonStep_changes (I := fun w => w.vault.rootKey = none ∧ w.db.Strands objects receipts) hs
      hinput (fun call hcalls w₀ w w' hchange hw => ⟨?_, hchange.strands (.inl hw.1) hw.2⟩)
      ⟨hlocked, h⟩
    -- only an unlock request unlocks
    refine Changes.staysLocked (fun passphrase heq => hunlock ?_) (.single hchange) hw.1
    subst heq
    cases hcalls with
    | unlock a => exact ⟨a, passphrase, rfl⟩

/-- **An unwitnessed pointer locks out.** If a locked vault has an active version without a receipt, and
nothing pending, a strict daemon never unlocks it again: after any requests, kills and starts, and whatever
the witness and the storage do, it is locked, its pointers and receipts are what they were, and an unlock
request is answered with an error, whatever its passphrase. -/
theorem unwitnessed_pointer_locks_out (hconfig : config.witness = some p) {s : DaemonState ω}
    (hlocked : s.world.vault.rootKey = none) (hpending : s.world.db.pending.rows = [])
    (hpointer : s.world.db.objects.lookup k = some b) (hreceipt : s.world.db.receipts.lookup b = none)
    (inputs : List DaemonInput) (hinputs : ∀ i ∈ inputs, ¬i.Replaces) :
    let s' := Run.final (daemonStep prim config) s inputs
    s'.world.vault.rootKey = none ∧ s'.world.db.objects = s.world.db.objects ∧
      s'.world.db.receipts = s.world.db.receipts ∧
      ∀ a passphrase, ∀ frame ∈
        (daemonStep prim config s' (.request a (some (.unlock passphrase)))).1,
          ∃ code message, frame = .response (.error code message) := by
  obtain ⟨⟨hlocked', h⟩, -⟩ := Run.guarded_invariant (daemonStep prim config)
    (I := fun t => t.world.vault.rootKey = none ∧
      t.world.db.Strands s.world.db.objects s.world.db.receipts) (fun _ input => ¬input.Replaces)
    (fun t input h hinput => h.2.daemonStep hconfig hpointer hreceipt h.1 hinput)
    ⟨hlocked, hpending, rfl, rfl⟩ fun t ht => hinputs t.input (Run.input_mem _ ht)
  refine ⟨hlocked', h.objects, h.receipts, fun a passphrase => ?_⟩
  exact (h.unlock_refused hconfig hpointer hreceipt hlocked' a passphrase).1

end

/-! ### A streamed upload -/

section

variable {ω : Type} [Machine ω] [Exclusive ω] {prim : Primitives} {config : DaemonConfig}
  {p : HttpsWitnessProvider}

/-- A streamed upload that returns has made a version active that has no receipt. -/
theorem putFromReader_unwitnessed {o : ObjectId} {reader : Reader} {version : VersionId}
    {w w' : World ω} (hwell : w.db.WellFormed prim)
    (h : putFromReader prim o reader w = .ok version w') :
    w'.db.pending = w.db.pending ∧ ∃ k b, w'.db.objects.lookup k = some b ∧
      w'.db.receipts.lookup b = none := by
  have hbefore : Steady fun x : World ω => x.db = w.db := .of_quiet fun _ db _ => db = w.db
  have hafter : Steady fun x : World ω => x.db.pending = w.db.pending ∧
      ∃ k b, x.db.objects.lookup k = some b ∧ x.db.receipts.lookup b = none :=
    .of_quiet fun _ db _ => db.pending = w.db.pending ∧
      ∃ k b, db.objects.lookup k = some b ∧ db.receipts.lookup b = none
  refine (triple_putFromReaderWithChunkSize hbefore hafter (fun _ hx => hx) (fun _ hx => hx)
    fun x d hx _ hnew => ?_).ok_of rfl h
  have hfresh := hnew.fresh
  rw [hx] at hfresh
  rw [hx]
  refine ⟨rfl, d.objectId.blob, d.versionId.blob, ?_, ?_⟩
  · exact (Table.lookup_insert_eq _ _ _ _).trans (if_pos rfl)
  · -- a receipt would be the receipt of a stored version
    by_contra hreceipt
    obtain ⟨r, hr⟩ := Option.ne_none_iff_exists'.mp hreceipt
    obtain ⟨row, hrow, -⟩ := hwell.receipts _ r hr
    cases hfresh.symm.trans hrow

variable [Transport ω]

/-- **A streamed upload locks a strict daemon out.** If a strict daemon publishes a streamed upload while
nothing is pending, then once the vault is locked, by a kill or a request, with the tables still as the upload
left them, no sequence of requests, kills and starts unlocks it again, whatever the witness and the storage do:
every unlock request is answered with an error, whatever its passphrase. -/
theorem streamed_upload_locks_out (hconfig : config.witness = some p) {s₀ s s' x : DaemonState ω}
    (hcreated : s₀.world.Created) (hs₀ : s₀.world.vault.rootKey = none) {earlier : List DaemonInput}
    (hearlier : ∀ i ∈ earlier, ¬i.Replaces) (hs : Run.final (daemonStep prim config) s₀ earlier = s)
    (hpending : s.world.db.pending.rows = []) {a : Arrival} {objectId text : Text}
    {items : List StreamItem} {frames : List Frame}
    (hupload : serveStream prim config a (some (.putStream objectId items)) s = .ok frames s')
    (hpublished : .response (.ok (.published text)) ∈ frames)
    (hlocked : x.world.vault.rootKey = none) (hdb : x.world.db = s'.world.db)
    (later : List DaemonInput) (hlater : ∀ i ∈ later, ¬i.Replaces) :
    let y := Run.final (daemonStep prim config) x later
    y.world.vault.rootKey = none ∧ ∀ a passphrase, ∀ frame ∈
      (daemonStep prim config y (.request a (some (.unlock passphrase)))).1,
        ∃ code message, frame = .response (.error code message) := by
  have hwell : s.world.db.WellFormed prim := by
    rw [← hs]
    exact (daemon_run_changes (I := Settled prim) (fun _ => hs₀) hearlier
      (fun _ _ _ _ _ _ _ hchange h => h.change hchange) (.created hcreated)).db_wellFormed
  -- only an authorized upload reaches the vault
  have hput : putStream prim a objectId items s = .ok frames s' := by
    unfold serveStream at hupload
    split at hupload
    · exact hupload
    · cases hupload
      simp at hpublished
  rcases putStream_cases hput with hnone | ⟨o, version, -, hreturned, -⟩
  · exact (hnone _ hpublished).elim
  obtain ⟨hsame, k, b, hpointer, hreceipt⟩ := putFromReader_unwitnessed hwell hreturned
  rw [← hdb] at hsame hpointer hreceipt
  obtain ⟨hafter, -, -, hrefused⟩ := unwitnessed_pointer_locks_out hconfig hlocked
    (by rw [hsame]; exact hpending) hpointer hreceipt later hlater
  exact ⟨hafter, hrefused⟩

end

/-! ### Samples -/

theorem World.Identified.locked {ω : Type} {V : VaultId} {w : World ω} (h : w.Identified V) :
    w.locked.Identified V := ⟨h.1, h.2⟩

theorem World.Created.locked {ω : Type} {w : World ω} (h : w.Created) : w.locked.Created :=
  ⟨h.commits, h.empty⟩

theorem DaemonState.rootKey_down {ω : Type} (s : DaemonState ω) :
    s.down.world.vault.rootKey = none := rfl

theorem DaemonState.db_down {ω : Type} (s : DaemonState ω) : s.down.world.db = s.world.db := rfl

/-- The sample daemon after it was started, unlocked and asked to store one byte. -/
def storedDaemon : DaemonState SampleChannel := Run.final sampleStep sampleDaemon sampleInputs

theorem writes_witnessed_sample : storedDaemon.world.db.objects.rows.length = 1 ∧
    storedDaemon.world.db.AllWitnessed .checksum sampleWorld.vaultId := by
  have hstored : storedDaemon.world.db.objects.rows.length = 1 := by decide +kernel
  have hstrict : sampleConfig.witness.isSome := rfl
  have hdown : sampleDaemon.Settled := fun _ => rfl
  have hid : sampleDaemon.world.Identified sampleWorld.vaultId :=
    (World.Identified.of_create create_sampleWorld).locked
  have hnone : sampleDaemon.world.db.AllWitnessed .checksum sampleWorld.vaultId :=
    Database.AllWitnessed.of_create create_sampleWorld _
  have hall := writes_witnessed hstrict hdown hid hnone sampleInputs witnessed_sampleInputs
  have hrun : Run.final (daemonStep .checksum sampleConfig) sampleDaemon sampleInputs =
      storedDaemon := rfl
  rw [hrun] at hall
  exact ⟨hstored, hall⟩

/-- The sample daemon after it was started and unlocked. -/
def unlockedDaemon : DaemonState SampleChannel :=
  Run.final sampleStep sampleDaemon [.start, .ask (.unlock [112])]

/-- One byte is sent to it in a stream. -/
def streamedByte : Request := .putStream sampleObject [.data [97], .finish]

/-- The daemon after the upload. -/
def uploadedDaemon : DaemonState SampleChannel :=
  (serveStream .checksum sampleConfig {} (some streamedByte) unlockedDaemon).state

/-- What happens in the sample, in one evaluation. -/
theorem uploaded_run : unlockedDaemon.world.db.pending.rows = [] ∧
    (serveStream .checksum sampleConfig {} (some streamedByte) unlockedDaemon).result =
      some (.ok [.response (.ok .streamReady), .response (.ok (.published
        (⟨⟨9 :: List.replicate 15 0, rfl⟩⟩ : VersionId).toHex))]) := by
  decide +kernel

theorem streamed_upload_locks_out_sample :
    (serveStream .checksum sampleConfig {} (some streamedByte) unlockedDaemon).result =
      some (.ok [.response (.ok .streamReady), .response (.ok (.published
        (⟨⟨9 :: List.replicate 15 0, rfl⟩⟩ : VersionId).toHex))]) ∧
    ∀ frame ∈ (sampleStep (Run.final sampleStep uploadedDaemon.down [.start])
      (.ask (.unlock [112]))).1, ∃ code message, frame = .response (.error code message) := by
  obtain ⟨hpending, hresult⟩ := uploaded_run
  refine ⟨hresult, ?_⟩
  have hstrict : sampleConfig.witness = some sampleTrust := rfl
  have hcreated : sampleDaemon.world.Created := created_sampleWorld.locked
  have hearlier : ∀ i ∈ [DaemonInput.start, .ask (.unlock [112])], ¬i.Replaces := by
    simp [DaemonInput.ask, DaemonInput.Replaces]
  have hearlierRun : Run.final (daemonStep .checksum sampleConfig) sampleDaemon
      [.start, .ask (.unlock [112])] = unlockedDaemon := rfl
  have hupload : serveStream .checksum sampleConfig {} (some streamedByte) unlockedDaemon =
      .ok _ uploadedDaemon := Outcome.eq_ok_of_result hresult
  obtain ⟨-, hrefused⟩ := streamed_upload_locks_out hstrict hcreated rfl hearlier hearlierRun hpending
    hupload (List.mem_cons_of_mem _ List.mem_cons_self) uploadedDaemon.rootKey_down
    uploadedDaemon.db_down [.start]
    (by simp [DaemonInput.Replaces])
  exact hrefused {} [112]

end Vlt1

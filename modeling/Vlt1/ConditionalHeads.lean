import Vlt1.Checksum
import Vlt1.Library.Run
import Vlt1.WitnessService

/-!
# Conditional heads over whole runs of the witness

A run of the witness is any finite list of issue and head requests, each with its own platform
failures. Every property here follows from `issueWire_effect`: a request leaves the tables alone
or makes one advance.

`conditional_heads` collects what the heads keep: epochs are positive, below the vault's next epoch
and pairwise different, a head only ever moves to a larger epoch, and only for a request that
expected the epoch it replaces. `retry_iff` settles when a repeated request is answered with its
original receipt.
-/

namespace Vlt1

open Effect

/-- A request to the witness with the platform's treatment of it. -/
inductive ServiceCall where
  | issue (request : IssueWireRequest) (env : ServiceEnv)
  | head (request : HeadWireRequest) (env : ServiceEnv)
deriving DecidableEq

/-- The answer to a request. -/
inductive ServiceReply where
  | issue (result : Option (Except VaultError IssueWireResponse))
  | head (result : Option (Except VaultError HeadWireResponse))

/-- One request. -/
def serviceStep (prim : Primitives) (signingKey : Block 32) (db : WitnessDb) :
    ServiceCall → ServiceReply × WitnessDb
  | .issue request env =>
    let outcome := issueWire prim signingKey env request db
    (.issue outcome.result, outcome.state)
  | .head request env =>
    let outcome := headWire prim signingKey env request db
    (.head outcome.result, outcome.state)

/-- The call asks to advance the head at `key` and expects epoch `epoch` there. -/
def ServiceCall.Expects (call : ServiceCall) (key : Bytes × Bytes) (epoch : UInt64) : Prop :=
  ∃ request env p, call = .issue request env ∧ parseIssue request = .ok p ∧
    p.request.headKey = key ∧ p.expectedEpoch = epoch

/-- A transition of the witness. -/
abbrev ServiceTransition := Run.Transition WitnessDb ServiceCall ServiceReply

/-- The transition changes the head at `key`. -/
def ServiceTransition.ChangesHead (t : ServiceTransition) (key : Bytes × Bytes) : Prop :=
  t.after.objectHeads.lookup key ≠ t.before.objectHeads.lookup key

/-! ### The tables after an advance -/

namespace WitnessDb

variable (db : WitnessDb) (r : WitnessReceipt)

/-- The witness holds a head for the object. -/
def HasHead (db : WitnessDb) (v : VaultId) (o : ObjectId) : Prop :=
  db.objectHeads.lookup (v.blob, o.blob) ≠ none

/-- The head a receipt is stored under. -/
def keyOf (r : WitnessReceipt) : Bytes × Bytes := (r.vaultId.blob, r.objectId.blob)

/-- An advance sets the head of its own key. -/
theorem lookup_advanced (key : Bytes × Bytes) :
    (db.advanced r).objectHeads.lookup key =
      if key = keyOf r then some (.ofReceipt r) else db.objectHeads.lookup key :=
  Table.lookup_insert_eq _ _ _ _

/-- An advance raises the epoch of its own key. -/
theorem headEpoch_advanced (key : Bytes × Bytes) :
    (db.advanced r).headEpoch key =
      if key = keyOf r then (r.witnessEpoch.toNat : ℤ) else db.headEpoch key := by
  unfold headEpoch
  rw [lookup_advanced]
  split <;> rfl

/-- An advance uses up the next epoch of its own vault. -/
theorem nextEpoch_advanced (vault : Bytes) :
    (db.advanced r).nextEpoch vault =
      if vault = r.vaultId.blob then (r.witnessEpoch.toNat + 1 : ℤ) else db.nextEpoch vault := by
  unfold nextEpoch advanced
  rw [Table.lookup_insert_eq]
  split <;> rfl

end WitnessDb

section

variable {prim : Primitives} {signingKey : Block 32}

/-- The receipt of an advance is for the object that was asked for. -/
theorem Advances.keyOf_eq {db : WitnessDb} {p : ParsedIssue} {r : WitnessReceipt}
    (h : Advances prim signingKey db p r) : WitnessDb.keyOf r = p.request.headKey := by
  rw [h.receipt]; rfl

/-- The receipt of an advance has the vault's next epoch. -/
theorem Advances.epoch_eq {db : WitnessDb} {p : ParsedIssue} {r : WitnessReceipt}
    (h : Advances prim signingKey db p r) :
    db.nextEpoch (WitnessDb.keyOf r).1 = r.witnessEpoch.toNat := by
  rw [h.keyOf_eq]; exact h.epoch

/-- What one request does to the tables. -/
theorem serviceStep_cases (prim : Primitives) (signingKey : Block 32) (db : WitnessDb)
    (call : ServiceCall) :
    (serviceStep prim signingKey db call).2 = db ∨
      ∃ request env p r, call = .issue request env ∧ parseIssue request = .ok p ∧
        Advances prim signingKey db p r ∧ (serviceStep prim signingKey db call).2 = db.advanced r := by
  cases call with
  | head request env => exact .inl (headWire_state prim signingKey env request db)
  | issue request env =>
    have heffect := issueWire_effect prim signingKey env request db
    simp only [serviceStep]
    generalize issueWire prim signingKey env request db = outcome at heffect ⊢
    cases heffect with
    | refused e => exact .inl rfl
    | repeated hparse hack => exact .inl rfl
    | advanced hparse hadv => exact .inr ⟨request, env, _, _, rfl, hparse, hadv, rfl⟩
    | unreported e hparse hadv => exact .inr ⟨request, env, _, _, rfl, hparse, hadv, rfl⟩

end

/-! ### What the heads keep -/

/-- Heads have positive epochs below their vault's stored next epoch, and two objects of one vault
never share one. -/
structure HeadsOrdered (db : WitnessDb) : Prop where
  positive : ∀ key row, db.objectHeads.lookup key = some row → 1 ≤ row.witnessEpoch
  below : ∀ key row, db.objectHeads.lookup key = some row →
    ∃ next, db.vaultEpochs.lookup key.1 = some next ∧ row.witnessEpoch < next
  distinct : ∀ vault object object' row row', db.objectHeads.lookup (vault, object) = some row →
    db.objectHeads.lookup (vault, object') = some row' → row.witnessEpoch = row'.witnessEpoch →
    object = object'

namespace HeadsOrdered

/-- A witness that has issued nothing has nothing out of order. -/
theorem empty : HeadsOrdered .empty where
  positive _ _ h := by cases h
  below _ _ h := by cases h
  distinct _ _ _ _ _ h := by cases h

/-- Every head is older than the vault's next epoch. -/
theorem lt_nextEpoch {db : WitnessDb} (h : HeadsOrdered db) {key : Bytes × Bytes} {row : HeadRow}
    (hrow : db.objectHeads.lookup key = some row) : row.witnessEpoch < db.nextEpoch key.1 := by
  obtain ⟨next, hnext, hlt⟩ := h.below key row hrow
  rw [WitnessDb.nextEpoch, hnext]
  exact hlt

/-- The next epoch of a vault is above the epoch of each of its heads, also of an absent one. -/
theorem headEpoch_lt {db : WitnessDb} (h : HeadsOrdered db) (key : Bytes × Bytes)
    (hpos : 0 < db.nextEpoch key.1) : db.headEpoch key < db.nextEpoch key.1 := by
  unfold WitnessDb.headEpoch
  cases hrow : db.objectHeads.lookup key with
  | none => exact hpos
  | some row => exact h.lt_nextEpoch hrow

variable {prim : Primitives} {signingKey : Block 32}

/-- An advance keeps the heads in order, as its epoch is new. -/
theorem advanced {db : WitnessDb} {p : ParsedIssue} {r : WitnessReceipt} (h : HeadsOrdered db)
    (hadv : Advances prim signingKey db p r) : HeadsOrdered (db.advanced r) := by
  have hepoch := hadv.epoch_eq
  have hold : ∀ key row, key.1 = r.vaultId.blob → db.objectHeads.lookup key = some row →
      row.witnessEpoch < r.witnessEpoch.toNat := by
    intro key row hkey hrow
    rw [← hepoch]
    show _ < db.nextEpoch r.vaultId.blob
    rw [← hkey]
    exact h.lt_nextEpoch hrow
  refine ⟨fun key row hrow => ?_, fun key row hrow => ?_, ?_⟩
  · rw [WitnessDb.lookup_advanced] at hrow
    split at hrow
    · obtain rfl := Option.some.inj hrow
      have := hadv.pos
      show (1 : ℤ) ≤ r.witnessEpoch.toNat
      omega
    · exact h.positive key row hrow
  · rw [WitnessDb.lookup_advanced] at hrow
    rw [WitnessDb.advanced, Table.lookup_insert_eq]
    split at hrow
    · rename_i hkey
      obtain rfl := Option.some.inj hrow
      rw [if_pos (by rw [hkey]; rfl)]
      refine ⟨_, rfl, ?_⟩
      show (r.witnessEpoch.toNat : ℤ) < r.witnessEpoch.toNat + 1
      omega
    · split
      · rename_i hvault
        have := hold key row hvault hrow
        exact ⟨_, rfl, by omega⟩
      · exact h.below key row hrow
  · intro vault object object' row row' hrow hrow' heq
    rw [WitnessDb.lookup_advanced] at hrow hrow'
    split at hrow <;> split at hrow'
    · rename_i hkey hkey'
      rw [← hkey'] at hkey
      exact (Prod.mk.inj hkey).2
    · rename_i hkey _
      obtain rfl := Option.some.inj hrow
      have hlt := hold _ _ (Prod.mk.inj hkey).1 hrow'
      rw [← heq] at hlt
      exact absurd hlt (lt_irrefl _)
    · rename_i _ hkey'
      obtain rfl := Option.some.inj hrow'
      have hlt := hold _ _ (Prod.mk.inj hkey').1 hrow
      rw [heq] at hlt
      exact absurd hlt (lt_irrefl _)
    · exact h.distinct vault object object' row row' hrow hrow' heq

/-- Every call of the service keeps the heads in order. -/
theorem step {db : WitnessDb} (h : HeadsOrdered db) (call : ServiceCall) :
    HeadsOrdered (serviceStep prim signingKey db call).2 := by
  rcases serviceStep_cases prim signingKey db call with heq | ⟨_, _, p, r, -, -, hadv, heq⟩
  · rw [heq]; exact h
  · rw [heq]; exact h.advanced hadv

end HeadsOrdered

/-- From ordered heads, the heads stay ordered and no epoch goes back. -/
def Grows (db db' : WitnessDb) : Prop :=
  HeadsOrdered db → HeadsOrdered db' ∧ (∀ key, db.headEpoch key ≤ db'.headEpoch key) ∧
    ∀ vault, db.nextEpoch vault ≤ db'.nextEpoch vault

instance : Std.Refl Grows where
  refl _ h := ⟨h, fun _ => le_rfl, fun _ => le_rfl⟩

instance : IsTrans WitnessDb Grows where
  trans _ _ _ h h' hdb :=
    let ⟨hdb', hhead, hnext⟩ := h hdb
    let ⟨hdb'', hhead', hnext'⟩ := h' hdb'
    ⟨hdb'', fun key => (hhead key).trans (hhead' key), fun vault => (hnext vault).trans (hnext' vault)⟩

section

variable {prim : Primitives} {signingKey : Block 32}

/-- An advance moves its head strictly up. -/
theorem Advances.headEpoch_lt {db : WitnessDb} {p : ParsedIssue} {r : WitnessReceipt}
    (hadv : Advances prim signingKey db p r) (h : HeadsOrdered db) :
    db.headEpoch (WitnessDb.keyOf r) < r.witnessEpoch.toNat := by
  have hpos := hadv.pos
  rw [← hadv.epoch_eq]
  refine h.headEpoch_lt _ ?_
  rw [hadv.epoch_eq]
  omega

/-- An advance lowers no epoch. -/
theorem Advances.grows {db : WitnessDb} {p : ParsedIssue} {r : WitnessReceipt}
    (hadv : Advances prim signingKey db p r) : Grows db (db.advanced r) := by
  intro h
  refine ⟨h.advanced hadv, fun key => ?_, fun vault => ?_⟩
  · rw [WitnessDb.headEpoch_advanced]
    split
    · rename_i hkey
      rw [hkey]
      exact (hadv.headEpoch_lt h).le
    · exact le_rfl
  · rw [WitnessDb.nextEpoch_advanced]
    split
    · rename_i hvault
      have hepoch := hadv.epoch_eq
      rw [hvault]
      show db.nextEpoch r.vaultId.blob ≤ _
      rw [show db.nextEpoch r.vaultId.blob = _ from hepoch]
      omega
    · exact le_rfl

/-- No call of the service lowers an epoch. -/
theorem serviceStep_grows (db : WitnessDb) (call : ServiceCall) :
    Grows db (serviceStep prim signingKey db call).2 := by
  rcases serviceStep_cases prim signingKey db call with heq | ⟨_, _, p, r, -, -, hadv, heq⟩
  · rw [heq]; exact Std.Refl.refl db
  · rw [heq]; exact hadv.grows

/-- A head changes only by an advance of exactly that head. -/
theorem ServiceTransition.ChangesHead.advances {t : ServiceTransition} {key : Bytes × Bytes}
    (hchange : t.ChangesHead key)
    (ht : t = Run.transition (serviceStep prim signingKey) t.before t.input) :
    ∃ request env p r, t.input = .issue request env ∧ parseIssue request = .ok p ∧
      Advances prim signingKey t.before p r ∧ t.after = t.before.advanced r ∧
      key = p.request.headKey := by
  have hafter : t.after = (serviceStep prim signingKey t.before t.input).2 :=
    congrArg Run.Transition.after ht
  unfold ServiceTransition.ChangesHead at hchange
  rcases serviceStep_cases prim signingKey t.before t.input with
    heq | ⟨request, env, p, r, hcall, hparse, hadv, heq⟩
  · rw [hafter, heq] at hchange
    exact absurd rfl hchange
  · refine ⟨request, env, p, r, hcall, hparse, hadv, hafter.trans heq, ?_⟩
    rw [hafter, heq, WitnessDb.lookup_advanced] at hchange
    split at hchange
    · rename_i hkey
      rw [hkey, hadv.keyOf_eq]
    · exact absurd rfl hchange

/-- The new epoch of a changed head is the vault's next epoch before the change, and one below it
after the change. -/
theorem ServiceTransition.ChangesHead.epoch {t : ServiceTransition} {key : Bytes × Bytes}
    (hchange : t.ChangesHead key)
    (ht : t = Run.transition (serviceStep prim signingKey) t.before t.input) :
    t.after.headEpoch key = t.before.nextEpoch key.1 ∧
      t.after.nextEpoch key.1 = t.after.headEpoch key + 1 := by
  obtain ⟨_, _, p, r, -, -, hadv, hafter, hkey⟩ := hchange.advances ht
  rw [← hadv.keyOf_eq] at hkey
  subst hkey
  rw [hafter, WitnessDb.headEpoch_advanced, if_pos rfl, WitnessDb.nextEpoch_advanced]
  exact ⟨hadv.epoch_eq.symm, if_pos rfl⟩

/-- A head changes only for a request that expected its epoch, and only to a larger epoch. -/
theorem ServiceTransition.ChangesHead.expects {t : ServiceTransition} {key : Bytes × Bytes}
    (hchange : t.ChangesHead key) (hordered : HeadsOrdered t.before)
    (ht : t = Run.transition (serviceStep prim signingKey) t.before t.input) :
    ∃ epoch, t.input.Expects key epoch ∧ t.before.headEpoch key = epoch.toNat ∧
      t.before.headEpoch key < t.after.headEpoch key := by
  obtain ⟨request, env, p, r, hcall, hparse, hadv, hafter, hkey⟩ := hchange.advances ht
  refine ⟨p.expectedEpoch, ⟨request, env, p, hcall, hparse, hkey.symm, rfl⟩, ?_, ?_⟩
  · rw [hkey]; exact hadv.expected
  · rw [hafter, WitnessDb.headEpoch_advanced, hkey, if_pos hadv.keyOf_eq.symm, ← hadv.keyOf_eq]
    exact hadv.headEpoch_lt hordered

/-- A call expects one epoch of one head. -/
theorem ServiceCall.Expects.epoch_eq {call : ServiceCall} {key : Bytes × Bytes}
    {epoch epoch' : UInt64} (h : call.Expects key epoch) (h' : call.Expects key epoch') :
    epoch = epoch' := by
  obtain ⟨request, env, p, rfl, hparse, -, rfl⟩ := h
  obtain ⟨request', env', p', hcall, hparse', -, rfl⟩ := h'
  obtain ⟨rfl, -⟩ := ServiceCall.issue.inj hcall
  rw [Except.ok.inj (hparse.symm.trans hparse')]

/-- When the next epoch has no storable successor, an issue request changes nothing: it fails or
repeats the receipt of the stored head. -/
theorem issueWire_exhausted {env : ServiceEnv} {request : IssueWireRequest} {db : WitnessDb}
    {p : ParsedIssue} (hparse : parseIssue request = .ok p)
    (hlimit : (sqlIntegerBound : ℤ) ≤ db.nextEpoch p.request.vaultId.blob + 1) :
    (∃ e, issueWire prim signingKey env request db = .failed e db) ∨
      ∃ r, Acknowledged prim signingKey db p r ∧
        issueWire prim signingKey env request db = .ok (.ofReceipt r) db := by
  have heffect := issueWire_effect prim signingKey env request db
  generalize issueWire prim signingKey env request db = outcome at heffect ⊢
  have hno : ∀ {q r}, parseIssue request = .ok q → ¬Advances prim signingKey db q r := by
    intro q r hq hadv
    obtain rfl := Except.ok.inj (hparse.symm.trans hq)
    have hepoch := hadv.epoch
    have hfits := hadv.fits
    omega
  cases heffect with
  | refused e => exact .inl ⟨e, rfl⟩
  | repeated hq hack =>
    obtain rfl := Except.ok.inj (hparse.symm.trans hq)
    exact .inr ⟨_, hack, rfl⟩
  | advanced hq hadv => exact absurd hadv (hno hq)
  | unreported e hq hadv => exact absurd hadv (hno hq)

end

/-- Over every run of the witness: the heads are ordered in every state; a head never goes back,
and changes only to a larger epoch and for a request that expected the epoch it replaces; for each
object and expected epoch at most one request changes the head; all head changes of one vault get
different epochs; and once the next epoch has no storable successor a request changes nothing and
creates no receipt. -/
theorem conditional_heads (prim : Primitives) (signingKey : Block 32) (calls : List ServiceCall) :
    let ts := Run.trace (serviceStep prim signingKey) .empty calls
    HeadsOrdered (Run.final (serviceStep prim signingKey) .empty calls) ∧
    (∀ t ∈ ts, HeadsOrdered t.before ∧ HeadsOrdered t.after) ∧
    (∀ t ∈ ts, ∀ key, t.before.headEpoch key ≤ t.after.headEpoch key) ∧
    (∀ t ∈ ts, ∀ key, ServiceTransition.ChangesHead t key →
      t.before.headEpoch key < t.after.headEpoch key) ∧
    (∀ t ∈ ts, ∀ key, ServiceTransition.ChangesHead t key →
      ∃ epoch, t.input.Expects key epoch ∧ t.before.headEpoch key = epoch.toNat) ∧
    ts.Pairwise (fun t u => ∀ key epoch, ServiceTransition.ChangesHead t key →
      ServiceTransition.ChangesHead u key → t.input.Expects key epoch →
      ¬u.input.Expects key epoch) ∧
    ts.Pairwise (fun t u => ∀ vault object object',
      ServiceTransition.ChangesHead t (vault, object) →
      ServiceTransition.ChangesHead u (vault, object') →
      t.after.headEpoch (vault, object) ≠ u.after.headEpoch (vault, object')) ∧
    ∀ t ∈ ts, ∀ request env p, t.input = .issue request env → parseIssue request = .ok p →
      (sqlIntegerBound : ℤ) ≤ t.before.nextEpoch p.request.vaultId.blob + 1 →
      t.after = t.before ∧ ((∃ e, t.output = .issue (some (.error e))) ∨
        ∃ r, Acknowledged prim signingKey t.before p r ∧
          t.output = .issue (some (.ok (.ofReceipt r)))) := by
  intro ts
  have hstep : ∀ t ∈ ts, t = Run.transition (serviceStep prim signingKey) t.before t.input :=
    fun t ht => Run.eq_transition_of_mem _ ht
  obtain ⟨hfinal, hordered⟩ := Run.invariant (serviceStep prim signingKey)
    (fun _ call h => h.step call) calls HeadsOrdered.empty
  have hgrows : ∀ t ∈ ts, Grows t.before t.after := by
    intro t ht
    rw [show t.after = _ from congrArg Run.Transition.after (hstep t ht)]
    exact serviceStep_grows t.before t.input
  have horder := Run.pairwise_trace (serviceStep prim signingKey) (R := Grows)
    serviceStep_grows .empty calls
  refine ⟨hfinal, hordered, fun t ht => (hgrows t ht (hordered t ht).1).2.1, ?_, ?_, ?_, ?_, ?_⟩
  · intro t ht key hchange
    obtain ⟨_, -, -, hlt⟩ := hchange.expects (hordered t ht).1 (hstep t ht)
    exact hlt
  · intro t ht key hchange
    obtain ⟨epoch, hexpects, heq, -⟩ := hchange.expects (hordered t ht).1 (hstep t ht)
    exact ⟨epoch, hexpects, heq⟩
  · refine horder.imp_of_mem fun {t u} ht hu htu key epoch hchange hchange' hexp hexp' => ?_
    -- the earlier change moved the head above the epoch both requests expect
    obtain ⟨_, hexpt, heqt, hlt⟩ := hchange.expects (hordered t ht).1 (hstep t ht)
    obtain ⟨_, hexpu, hequ, -⟩ := hchange'.expects (hordered u hu).1 (hstep u hu)
    have hle := (htu (hordered t ht).2).2.1 key
    rw [hexpt.epoch_eq hexp] at heqt
    rw [hexpu.epoch_eq hexp'] at hequ
    omega
  · refine horder.imp_of_mem fun {t u} ht hu htu vault object object' hchange hchange' heq => ?_
    have hnext := (htu (hordered t ht).2).2.2 vault
    obtain ⟨-, hafter⟩ := hchange.epoch (hstep t ht)
    obtain ⟨hepoch, -⟩ := hchange'.epoch (hstep u hu)
    simp only at hafter hepoch
    omega
  · intro t ht request env p hcall hparse hlimit
    have ht' := hstep t ht
    have hafter := congrArg Run.Transition.after ht'
    have hout := congrArg Run.Transition.output ht'
    rw [hcall] at hafter hout
    simp only [Run.transition, serviceStep] at hafter hout
    rcases issueWire_exhausted hparse hlimit with ⟨e, hissue⟩ | ⟨r, hack, hissue⟩
    · rw [hissue] at hafter hout
      exact ⟨hafter, .inl ⟨e, hout⟩⟩
    · rw [hissue] at hafter hout
      exact ⟨hafter, .inr ⟨r, hack, hout⟩⟩

/-! ### Repeated requests -/

/-- Every stored head is a receipt the witness signed for that object. -/
def HeadsSigned (prim : Primitives) (signingKey : Block 32) (db : WitnessDb) : Prop :=
  ∀ key row, db.objectHeads.lookup key = some row →
    ∃ r : WitnessReceipt, row = .ofReceipt r ∧ WitnessDb.keyOf r = key ∧
      r.publicKey = prim.verifyingKey signingKey ∧ r.witnessEpoch.toNat < sqlIntegerBound ∧
      r.Valid prim

section

variable {prim : Primitives} {signingKey : Block 32}

/-- A witness that has issued nothing has signed nothing wrongly. -/
theorem HeadsSigned.empty : HeadsSigned prim signingKey .empty := fun _ _ h => by cases h

/-- The head of an advance is signed. -/
theorem HeadsSigned.advanced (hsig : prim.SignatureCorrect) {db : WitnessDb} {p : ParsedIssue}
    {r : WitnessReceipt} (h : HeadsSigned prim signingKey db)
    (hadv : Advances prim signingKey db p r) : HeadsSigned prim signingKey (db.advanced r) := by
  intro key row hrow
  rw [WitnessDb.lookup_advanced] at hrow
  split at hrow
  · rename_i hkey
    obtain rfl := Option.some.inj hrow
    have hfits := hadv.fits
    refine ⟨r, rfl, hkey.symm, ?_, by omega, ?_⟩
    · rw [hadv.receipt]; rfl
    · rw [hadv.receipt]; exact WitnessReceipt.valid_issue hsig _ _ _
  · exact h key row hrow

/-- Every call of the service leaves its heads signed. -/
theorem HeadsSigned.step (hsig : prim.SignatureCorrect) {db : WitnessDb}
    (h : HeadsSigned prim signingKey db) (call : ServiceCall) :
    HeadsSigned prim signingKey (serviceStep prim signingKey db call).2 := by
  rcases serviceStep_cases prim signingKey db call with heq | ⟨_, _, p, r, -, -, hadv, heq⟩
  · rw [heq]; exact h
  · rw [heq]; exact h.advanced hsig hadv

/-- The tables of an honest witness: requests led to them from empty tables. -/
def WitnessDb.Honest (prim : Primitives) (signingKey : Block 32) (db : WitnessDb) : Prop :=
  ∃ calls, db = Run.final (serviceStep prim signingKey) .empty calls

/-- A witness that has issued nothing is honest. -/
theorem WitnessDb.Honest.empty : WitnessDb.Honest prim signingKey .empty := ⟨[], rfl⟩

/-- A further request leaves the tables of an honest witness. -/
theorem WitnessDb.Honest.issueWire {db : WitnessDb} (h : db.Honest prim signingKey)
    (request : IssueWireRequest) (env : ServiceEnv) :
    (issueWire prim signingKey env request db).state.Honest prim signingKey := by
  obtain ⟨calls, rfl⟩ := h
  exact ⟨calls ++ [.issue request env], by rw [Run.final_append]; rfl⟩

/-- The heads of an honest witness are signed. -/
theorem WitnessDb.Honest.headsSigned (hsig : prim.SignatureCorrect) {db : WitnessDb}
    (h : db.Honest prim signingKey) : HeadsSigned prim signingKey db := by
  obtain ⟨calls, rfl⟩ := h
  exact (Run.invariant _ (fun _ call hs => hs.step hsig call) calls HeadsSigned.empty).1

/-- A signed head is loaded as the receipt it stores. -/
theorem HeadsSigned.load {db : WitnessDb} (h : HeadsSigned prim signingKey db) {v : VaultId}
    {o : ObjectId} {row : HeadRow} (hrow : db.objectHeads.lookup (v.blob, o.blob) = some row) :
    ∃ r : WitnessReceipt, row = .ofReceipt r ∧
      loadReceipt prim db v o (prim.verifyingKey signingKey) = .ok (some r) := by
  obtain ⟨r, rfl, hkey, hpublic, hlt, hvalid⟩ := h _ _ hrow
  obtain ⟨hv, ho⟩ := Prod.mk.inj hkey
  exact ⟨r, rfl, loadReceipt_eq_ok_some.mpr
    ⟨hrow, Identifier.blob_inj.mp hv, Identifier.blob_inj.mp ho, hpublic, hlt, hvalid⟩⟩

/-- A request whose object has a head newer than it expects is answered from that head when the
head acknowledges the same version and commitment, and refused otherwise. -/
theorem issueWire_of_newer {env : ServiceEnv} {request : IssueWireRequest} {db : WitnessDb}
    {p : ParsedIssue} {r : WitnessReceipt} (hparse : parseIssue request = .ok p)
    (hread : env.readFails = false)
    (hload : loadReceipt prim db p.request.vaultId p.request.objectId
      (prim.verifyingKey signingKey) = .ok (some r))
    (hnewer : p.expectedEpoch < r.witnessEpoch) :
    issueWire prim signingKey env request db =
      if r.versionId = p.request.versionId ∧ r.commitment = p.request.commitment then
        .ok (.ofReceipt r) db
      else .failed .witnessConflict db := by
  unfold issueWire
  rw [hparse, Op.ofExcept_ok, Op.pure_bind, Op.require_pos hread, Op.pure_bind,
    Op.bind_of_ok (Op.get_apply db), hload, Op.ofExcept_ok, Op.pure_bind]
  by_cases hsame : r.versionId = p.request.versionId ∧ r.commitment = p.request.commitment
  · rw [if_pos hsame, decision_eq_answer.mpr ⟨rfl, hsame.1, hsame.2, hnewer⟩]
    rfl
  · have hne : r.witnessEpoch ≠ p.expectedEpoch := fun h => by
      rw [h] at hnewer; exact absurd hnewer (UInt64.lt_irrefl _)
    rw [if_neg hsame]
    simp only [decision]
    rw [if_neg fun h => hsame ⟨h.1, h.2.1⟩, if_pos hne]
    rfl

/-- An answered request leaves the receipt it was answered with as the head. -/
theorem issueWire_answered (hsig : prim.SignatureCorrect) {env : ServiceEnv}
    {request : IssueWireRequest} {db db' : WitnessDb} {response : IssueWireResponse}
    (hordered : HeadsOrdered db) (h : issueWire prim signingKey env request db = .ok response db') :
    ∃ p r, parseIssue request = .ok p ∧ response = .ofReceipt r ∧
      Acknowledged prim signingKey db' p r := by
  have heffect := issueWire_effect prim signingKey env request db
  rw [h] at heffect
  cases heffect with
  | @repeated p r hparse hack => exact ⟨p, r, hparse, rfl, hack⟩
  | @advanced p r hparse hadv =>
    have hlt := hadv.headEpoch_lt hordered
    have hfits := hadv.fits
    have hkey := hadv.keyOf_eq
    rw [hkey, hadv.expected] at hlt
    refine ⟨p, r, hparse, rfl, loadReceipt_eq_ok_some.mpr ⟨?_, ?_, ?_, ?_, by omega, ?_⟩, ?_, ?_, ?_⟩
    · exact (WitnessDb.lookup_advanced db r _).trans (if_pos hkey.symm)
    · rw [hadv.receipt]; rfl
    · rw [hadv.receipt]; rfl
    · rw [hadv.receipt]; rfl
    · rw [hadv.receipt]; exact WitnessReceipt.valid_issue hsig _ _ _
    · rw [hadv.receipt]; rfl
    · rw [hadv.receipt]; rfl
    · rw [UInt64.lt_iff_toNat_lt]; exact_mod_cast hlt

/-- What is loaded depends only on the stored row. -/
theorem loadReceipt_congr {db db' : WitnessDb} {v : VaultId} {o : ObjectId} {k : Block 32}
    (h : db'.objectHeads.lookup (v.blob, o.blob) = db.objectHeads.lookup (v.blob, o.blob)) :
    loadReceipt prim db' v o k = loadReceipt prim db v o k := by
  unfold loadReceipt
  rw [h]

/-- A head that no transition changes is the head at the end. -/
theorem lookup_final_of_unchanged {db : WitnessDb} {calls : List ServiceCall} {key : Bytes × Bytes}
    (h : ∀ t ∈ Run.trace (serviceStep prim signingKey) db calls,
      ¬ServiceTransition.ChangesHead t key) :
    (Run.final (serviceStep prim signingKey) db calls).objectHeads.lookup key =
      db.objectHeads.lookup key := by
  refine (Run.guarded_invariant (serviceStep prim signingKey)
    (I := fun s => s.objectHeads.lookup key = db.objectHeads.lookup key)
    (fun s call => (serviceStep prim signingKey s call).2.objectHeads.lookup key =
      s.objectHeads.lookup key)
    (fun s call hs hguard => hguard.trans hs) rfl fun t ht => ?_).1
  have hafter := congrArg Run.Transition.after (Run.eq_transition_of_mem _ ht)
  have hsame := h t ht
  unfold ServiceTransition.ChangesHead at hsame
  rw [not_not, hafter] at hsame
  exact hsame

/-- A head after a run is at least as new as before, and still loads. -/
theorem load_final (hsig : prim.SignatureCorrect) {db : WitnessDb} {v : VaultId} {o : ObjectId}
    {r : WitnessReceipt} (hordered : HeadsOrdered db) (hsigned : HeadsSigned prim signingKey db)
    (hrow : db.objectHeads.lookup (v.blob, o.blob) = some (.ofReceipt r))
    (calls : List ServiceCall) :
    ∃ r' : WitnessReceipt, r.witnessEpoch ≤ r'.witnessEpoch ∧
      loadReceipt prim (Run.final (serviceStep prim signingKey) db calls) v o
        (prim.verifyingKey signingKey) = .ok (some r') := by
  have hgrows := Run.final_rel (serviceStep prim signingKey) (R := Grows)
    serviceStep_grows db calls
  have hsigned' := (Run.invariant (serviceStep prim signingKey)
    (fun _ call h => h.step hsig call) calls hsigned).1
  generalize Run.final (serviceStep prim signingKey) db calls = db' at hgrows hsigned' ⊢
  have hle := (hgrows hordered).2.1 (v.blob, o.blob)
  have hone : (1 : ℤ) ≤ r.witnessEpoch.toNat := hordered.positive _ _ hrow
  unfold WitnessDb.headEpoch at hle
  rw [hrow] at hle
  cases hrow' : db'.objectHeads.lookup (v.blob, o.blob) with
  | none =>
    rw [hrow'] at hle
    have : (r.witnessEpoch.toNat : ℤ) ≤ 0 := hle
    omega
  | some row =>
    obtain ⟨r', rfl, hload⟩ := hsigned'.load hrow'
    rw [hrow'] at hle
    refine ⟨r', ?_, hload⟩
    rw [UInt64.le_iff_toNat_le]
    exact_mod_cast (show (r.witnessEpoch.toNat : ℤ) ≤ r'.witnessEpoch.toNat from hle)

/-- What is sent of a valid receipt determines it. -/
theorem IssueWireResponse.ofReceipt_inj {r r' : WitnessReceipt} (hr : r.Valid prim)
    (hr' : r'.Valid prim) (h : IssueWireResponse.ofReceipt r = .ofReceipt r') : r = r' := by
  have hread := @IssueWireResponse.intoReceipt_ofReceipt prim r
  rw [h, IssueWireResponse.intoReceipt_ofReceipt, WitnessReceipt.new_of_valid hr,
    WitnessReceipt.new_of_valid hr'] at hread
  exact (Except.ok.inj hread).symm

/-- A request that was answered once and is repeated after any other requests leaves the tables
alone. The answer is the original one or a conflict exactly when the head at that point is the
original receipt, or acknowledges another version or commitment; and it is the original one when no
request in between changed the head of the object. -/
theorem retry_iff (hsig : prim.SignatureCorrect) (earlier between : List ServiceCall)
    (request : IssueWireRequest) (env env' : ServiceEnv) (response : IssueWireResponse)
    (answered : WitnessDb) (hread : env'.readFails = false)
    (hfirst : issueWire prim signingKey env request
      (Run.final (serviceStep prim signingKey) .empty earlier) = .ok response answered) :
    let db := Run.final (serviceStep prim signingKey) answered between
    let again := issueWire prim signingKey env' request db
    ∃ p r, parseIssue request = .ok p ∧ response = .ofReceipt r ∧ again.state = db ∧
      ((again.result = some (.ok response) ∨ again.result = some (.error .witnessConflict)) ↔
        (db.objectHeads.lookup p.request.headKey = some (.ofReceipt r) ∨
          ∀ row, db.objectHeads.lookup p.request.headKey = some row →
            row.versionId ≠ p.request.versionId.blob ∨
              row.commitment ≠ p.request.commitment.toList)) ∧
      ((∀ t ∈ Run.trace (serviceStep prim signingKey) answered between,
          ¬ServiceTransition.ChangesHead t p.request.headKey) →
        again.result = some (.ok response)) := by
  intro db again
  obtain ⟨hordered, -⟩ := Run.invariant (serviceStep prim signingKey)
    (fun _ call h => h.step call) earlier HeadsOrdered.empty
  obtain ⟨hsigned, -⟩ := Run.invariant (serviceStep prim signingKey)
    (fun _ call h => h.step hsig call) earlier (@HeadsSigned.empty prim _)
  obtain ⟨p, r, hparse, rfl, hack⟩ := issueWire_answered hsig hordered hfirst
  obtain ⟨hrow, -, -, -, -, hvalid⟩ := loadReceipt_eq_ok_some.mp hack.load
  -- the state after the first answer is the state after one more call
  have hstep : answered = (serviceStep prim signingKey
      (Run.final (serviceStep prim signingKey) .empty earlier) (.issue request env)).2 := by
    simp only [serviceStep, hfirst, Outcome.state_ok]
  have hordered' : HeadsOrdered answered := hstep ▸ hordered.step _
  have hsigned' : HeadsSigned prim signingKey answered := hstep ▸ hsigned.step hsig _
  obtain ⟨h, hle, hload⟩ := load_final hsig hordered' hsigned' hrow between
  obtain ⟨hrow', -, -, -, -, hvalid'⟩ := loadReceipt_eq_ok_some.mp hload
  have hagain : again = _ := issueWire_of_newer hparse hread hload
    (UInt64.lt_of_lt_of_le hack.newer hle)
  -- the head is the original receipt as soon as its row is the same
  have hsameRow : db.objectHeads.lookup p.request.headKey = some (.ofReceipt r) → h = r := by
    intro hr
    have := hload.symm.trans ((loadReceipt_congr (hr.trans hrow.symm)).trans hack.load)
    exact Option.some.inj (Except.ok.inj this)
  have horiginal : h = r → again.result = some (.ok (.ofReceipt r)) := by
    rintro rfl
    rw [hagain, if_pos ⟨hack.versionId, hack.commitment⟩]
    rfl
  refine ⟨p, r, hparse, rfl, ?_, ?_, fun hunchanged => horiginal (hsameRow ?_)⟩
  · rw [hagain]
    split <;> rfl
  · by_cases hsame : h.versionId = p.request.versionId ∧ h.commitment = p.request.commitment
    · constructor
      · intro hresult
        rw [hagain, if_pos hsame] at hresult
        simp only [Outcome.result, Option.some.injEq, Except.ok.injEq, reduceCtorEq,
          or_false] at hresult
        rw [← IssueWireResponse.ofReceipt_inj hvalid' hvalid hresult]
        exact .inl hrow'
      · rintro (hr | hother)
        · exact .inl (horiginal (hsameRow hr))
        · rcases hother _ hrow' with hne | hne
          · exact absurd (congrArg Identifier.blob hsame.1) hne
          · exact absurd (congrArg Block.toList hsame.2) hne
    · rw [hagain, if_neg hsame]
      refine iff_of_true (.inr rfl) (.inr fun row hr => ?_)
      rw [Option.some.inj (hr.symm.trans hrow')]
      by_contra hboth
      simp only [not_or, ne_eq, not_not] at hboth
      exact hsame ⟨Identifier.blob_inj.mp hboth.1, Block.toList_inj.mp hboth.2⟩
  · exact (lookup_final_of_unchanged hunchanged).trans hrow

end

/-! ### A concrete repetition -/

/-- One version of one object. -/
def sampleRequest : WitnessRequest where
  vaultId := .repeated 1
  objectId := .repeated 2
  versionId := .repeated 3
  commitment := Block.zero 32

/-- The signing seed of the sample runs. -/
def sampleSeed : Block 32 := Block.zero 32

/-- The sample request, expecting `epoch`, in a witness with the tables `db`. -/
def sampleIssue (epoch : UInt64) (db : WitnessDb) :
    Outcome VaultError WitnessDb IssueWireResponse :=
  issueWire .checksum sampleSeed .calm (.fromRequest sampleRequest epoch) db

/-- The same version of another object. -/
def otherRequest : WitnessRequest := { sampleRequest with objectId := .repeated 4 }

/-- That object is acknowledged before the first request and again before it is repeated. The answer is the
original receipt. -/
theorem retry_iff_sample :
    let earlier := [ServiceCall.issue (.fromRequest otherRequest 0) .calm]
    let between := [ServiceCall.issue (.fromRequest otherRequest 1) .calm]
    let first := sampleIssue 0 (Run.final (serviceStep .checksum sampleSeed) .empty earlier)
    let again := sampleIssue 0 (Run.final (serviceStep .checksum sampleSeed) first.state between)
    first.result = some (.ok (.ofReceipt (.issue .checksum sampleRequest 2 sampleSeed))) ∧
      again.state.vaultEpochs.lookup sampleRequest.vaultId.blob = some 4 ∧
      again.result = first.result := by
  intro earlier between first again
  have hfirst : first.result = some (.ok (.ofReceipt (.issue .checksum sampleRequest 2 sampleSeed))) := by
    decide +kernel
  obtain ⟨p, r, hparse, -, -, -, hunchanged⟩ := retry_iff Primitives.signatureCorrect_checksum earlier
    between (.fromRequest sampleRequest 0) .calm .calm _ first.state rfl (Outcome.eq_ok_of_result hfirst)
  rw [parseIssue_fromRequest] at hparse
  obtain rfl := Except.ok.inj hparse
  have hkept : ∀ t ∈ Run.trace (serviceStep .checksum sampleSeed) first.state between,
      t.after.objectHeads.lookup sampleRequest.headKey = t.before.objectHeads.lookup sampleRequest.headKey := by
    decide +kernel
  exact ⟨hfirst, by decide +kernel, (hunchanged fun t ht hne => hne (hkept t ht)).trans hfirst.symm⟩

/-- The same version acknowledged once more under the epoch of its own receipt: repeating the first
request then returns the second receipt. -/
theorem retry_returns_later_receipt :
    let first := sampleIssue 0 .empty
    let second := sampleIssue 1 first.state
    let again := sampleIssue 0 second.state
    first.result = some (.ok (.ofReceipt (.issue .checksum sampleRequest 1 sampleSeed))) ∧
      second.result = some (.ok (.ofReceipt (.issue .checksum sampleRequest 2 sampleSeed))) ∧
      again.result = second.result ∧ again.result ≠ first.result := by
  decide +kernel

end Vlt1

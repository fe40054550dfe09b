import Vlt1.Agreement

/-!
# Recovery with a witness that answers

`Agreement` says what a recovery leaves when it stops. Here the witness can be reached and the
storage works, so the question is whether the recovery returns. The request for a staged version is
answered: its receipt was issued before, or the head still has the epoch the request expects. The
only obstacle left is a counter without a storable successor.

`recovery_possible` is about every run of a program that publishes through the witness and waits with
a new version of an object while one is staged. Without the waiting it fails, as
`recovery_blocked_by_later_put` shows.
-/

namespace Vlt1

open Effect StagedPublication

/-! ### The answer to the request for a staged version -/

section

variable {prim : Primitives} {signingKey : Block 32} {V : VaultId} {db : Database}
  {c : Channel prim signingKey} {P Q R : Stores → Prop} {p : HttpsWitnessProvider}

/-- Allocating an epoch never fails with a conflict. -/
theorem throws_advanceHead (db : WitnessDb) (request : WitnessRequest) :
    Throws (· ≠ .witnessConflict) (advanceHead prim signingKey db request) := by
  have hread : ∀ i, Throws (· ≠ .witnessConflict) (sqlToUInt64 i) := fun i => by
    unfold sqlToUInt64
    exact Throws.ite (Throws.ok _) (Throws.error (by decide))
  have hbind : ∀ n, Throws (· ≠ .witnessConflict) (sqlOfUInt64 n) := fun n => by
    unfold sqlOfUInt64
    exact Throws.ite (Throws.ok _) (Throws.error (by decide))
  have hstored : Throws (· ≠ .witnessConflict) (readNextEpoch db request.vaultId) := by
    unfold readNextEpoch
    cases db.vaultEpochs.lookup request.vaultId.blob with
    | none => exact Throws.ok _
    | some next => exact hread next
  refine Throws.bind ?_ fun allocated => Throws.bind ?_ fun _ => Throws.ok _
  · exact Throws.bind hstored fun _ => Throws.bind (Throws.ensure (by decide)) fun _ =>
      Throws.bind (hbind _) fun _ => Throws.ok _
  · exact Throws.bind (hbind _) fun _ => Throws.bind (Throws.ensure (by decide)) fun _ => Throws.ok _

/-- A request that may advance the head is not refused with a conflict, even when it fails. -/
theorem issueWire_of_exhausted {request : IssueWireRequest} {db : WitnessDb} {q : ParsedIssue}
    {current : Option WitnessReceipt} (hparse : parseIssue request = .ok q)
    (hload : loadReceipt prim db q.request.vaultId q.request.objectId
      (prim.verifyingKey signingKey) = .ok current)
    (hdec : decision current q = .advance)
    (hlimit : (sqlIntegerBound : ℤ) ≤ db.nextEpoch q.request.vaultId.blob + 1) :
    ∃ e, e ≠ .witnessConflict ∧ issueWire prim signingKey .calm request db = .failed e db := by
  have hread : ServiceEnv.calm.readFails = false := rfl
  cases hadvance : advanceHead prim signingKey db q.request with
  | ok result =>
    obtain ⟨r, db'⟩ := result
    obtain ⟨hepoch, -, hfits, -⟩ := advanceHead_eq_ok.mp hadvance
    omega
  | error e =>
    refine ⟨e, throws_advanceHead db q.request e hadvance, ?_⟩
    rw [issueWire, hparse, Op.ofExcept_ok, Op.pure_bind, Op.require_pos hread, Op.pure_bind,
      Op.bind_of_ok (Op.get_apply db), hload, Op.ofExcept_ok, Op.pure_bind, hdec]
    show (Op.ofExcept (advanceHead prim signingKey db q.request) >>= _) db = _
    rw [hadvance]
    rfl

/-- A request that expects the number of the head may advance it. -/
theorem ReadsAs.decision_eq {receipt : Option WitnessReceipt} {entry : Option (WitnessRequest × ℕ)}
    (h : ReadsAs prim signingKey (.ok receipt) entry) {request : WitnessRequest} {e : UInt64}
    (he : number entry = e.toNat) : decision receipt ⟨request, e⟩ = .advance := by
  have hepoch : receipt.elim 0 WitnessReceipt.witnessEpoch = e :=
    UInt64.toNat_inj.mp (h.number_eq.symm.trans he)
  cases receipt with
  | none =>
    have hzero : e = 0 := hepoch.symm
    simp [decision, hzero]
  | some r =>
    have hsame : r.witnessEpoch = e := hepoch
    simp [decision, hsame]

/-- A reachable witness answers the request for a staged version, unless its counter is used up. -/
theorem Coherent.issueReceipt_of_reachable (hsig : prim.SignatureCorrect)
    (htrust : p.Trusts (prim.verifyingKey signingKey)) (hP : Stable P)
    (h : Coherent prim V P db c) {request : WitnessRequest} {e : UInt64} (hV : request.vaultId = V)
    (hstaged : ∀ s, P s → s.staged request.objectId = some (request, e.toNat))
    (hsend : ∀ s, P s → P (s.send request.objectId request e.toNat))
    (hreachable : (c.send (.fromRequest request e)).next.1.Reachable) :
    (∃ r c', (p.provider prim).issueReceipt request e c = .ok r c') ∨
      ∃ c', (p.provider prim).issueReceipt request e c = .failed .witnessUnavailable c' ∧
        Coherent prim V (fun s => P s ∧ ¬s.Acknowledged request.objectId request e.toNat ∧
          sqlIntegerBound ≤ s.next + 1) db c' := by
  have hnext := (h.postIssue hsig hP hV hstaged hsend).1
  obtain ⟨s, hs, hmirrors, hstate⟩ := hnext
  have hself := hstaged s hstate
  obtain ⟨receipt, hload, hissued, hentry⟩ := hmirrors.head request.objectId
  have hload' : loadReceipt prim (c.send (.fromRequest request e)).next.2.service request.vaultId
      request.objectId (prim.verifyingKey signingKey) = .ok receipt := hV ▸ hload
  by_cases hack : s.Acknowledged request.objectId request e.toNat
  · -- the receipt was issued before
    obtain ⟨n, hhead, hlt, -⟩ := hack
    rw [hentry] at hhead
    obtain ⟨r, rfl, hr⟩ := Option.map_eq_some_iff.mp hhead
    obtain ⟨hrequest, rfl⟩ := Prod.mk.inj hr
    have hnewer : e < r.witnessEpoch := UInt64.lt_iff_toNat_lt.mpr hlt
    have hcalm : ServiceEnv.calm.readFails = false := rfl
    have hwire := issueWire_of_newer (parseIssue_fromRequest request e) hcalm hload' hnewer
    have hsame : r.versionId = request.versionId ∧ r.commitment = request.commitment := by
      rw [← hrequest]
      exact ⟨rfl, rfl⟩
    rw [if_pos hsame] at hwire
    refine .inl ⟨r, _, Channel.issueReceipt_of_reachable hreachable hwire ?_ ?_ hnewer⟩
    · rw [(hissued r rfl).publicKey]
      exact htrust
    · exact hrequest ▸ (hissued r rfl).verifyRequest hsig
  · -- the head still has the epoch the request expects
    have hnumber := (hs.processed hself).resolve_left hack
    have hreads : ReadsAs prim signingKey (.ok receipt) (s.head request.objectId) :=
      hload ▸ hmirrors.head request.objectId
    have hdec : decision receipt ⟨request, e⟩ = .advance := hreads.decision_eq hnumber
    have hpos : 0 < (c.send (.fromRequest request e)).next.2.service.nextEpoch request.vaultId.blob := by
      rw [hV, hmirrors.next]
      exact_mod_cast hs.next_pos
    by_cases hroom : s.next + 1 < sqlIntegerBound
    · have hroom' : (c.send (.fromRequest request e)).next.2.service.nextEpoch
          request.vaultId.blob + 1 < sqlIntegerBound := by
        rw [hV, hmirrors.next]
        exact_mod_cast hroom
      obtain ⟨r, hadv, hwire⟩ := issueWire_of_advance (parseIssue_fromRequest request e) hload' hdec
        hpos hroom'
      have hr : r.IssuedBy prim signingKey ∧ r.request = request := by
        rw [hadv.receipt]
        exact ⟨rfl, rfl⟩
      refine .inl ⟨r, _, Channel.issueReceipt_of_reachable hreachable hwire ?_ ?_ ?_⟩
      · rw [hr.1.publicKey]
        exact htrust
      · exact hr.2 ▸ hr.1.verifyRequest hsig
      · have hexpected := hadv.headEpoch_lt hmirrors.honest.headsOrdered
        rw [hadv.keyOf_eq, hadv.expected] at hexpected
        exact UInt64.lt_iff_toNat_lt.mpr (by exact_mod_cast hexpected)
    · have hlimit : (sqlIntegerBound : ℤ) ≤
          (c.send (.fromRequest request e)).next.2.service.nextEpoch request.vaultId.blob + 1 := by
        rw [hV, hmirrors.next]
        exact_mod_cast Nat.le_of_not_lt hroom
      obtain ⟨error, hconflict, hwire⟩ :=
        issueWire_of_exhausted (parseIssue_fromRequest request e) hload' hdec hlimit
      refine .inr ⟨_, Channel.issueReceipt_unavailable hreachable hwire hconflict, s, hs, hmirrors,
        hstate, hack, Nat.le_of_not_lt hroom⟩

/-! ### Finalizing -/

/-- The receipt of a staged version can be stored: its epoch is recorded nowhere yet. -/
theorem Mirrors.finalizeBody_ok {s : Stores} (h : Mirrors prim V db c s) (hs : Agreement s)
    {v : StoredVersion} {e : UInt64} {r : WitnessReceipt} (hstaged : db.Staged v e)
    (hrequest : r.request = v.request prim V)
    (hhead : s.head v.objectId = some (v.request prim V, r.witnessEpoch.toNat))
    (hnewer : e.toNat < r.witnessEpoch.toNat) : ∃ db', db.finalizeBody v r = .ok db' := by
  have hversion : r.versionId = v.versionId := congrArg WitnessRequest.versionId hrequest
  have hself := (h.staged _ _ _).mpr ⟨v, e, hstaged, rfl, rfl, rfl⟩
  obtain ⟨n, hn, -, hunrecorded⟩ := hs.acknowledged hself hhead hnewer
  obtain rfl : r.witnessEpoch.toNat = n := by
    rw [hhead] at hn
    exact (Prod.mk.inj (Option.some.inj hn)).2
  have hfits : r.witnessEpoch.toNat < sqlIntegerBound := by
    obtain ⟨receipt, hload, -, hentry⟩ := h.head v.objectId
    rw [hhead] at hentry
    obtain ⟨r', rfl, hr'⟩ := Option.map_eq_some_iff.mp hentry.symm
    have hepoch : r'.witnessEpoch.toNat = r.witnessEpoch.toNat := (Prod.mk.inj hr').2
    have hlt := (loadReceipt_eq_ok_some.mp hload).2.2.2.2.1
    omega
  obtain ⟨hrow, hnone, -⟩ := h.wellFormed.pending _ hstaged.pending_ne_none
  refine ⟨_, Database.finalizeBody_eq_ok.mpr
    ⟨⟨e, hstaged.pending⟩, hfits, hversion ▸ hnone, ?_, hversion ▸ hrow, rfl⟩⟩
  rintro ⟨b, row⟩ hmem ⟨-, hepoch⟩
  obtain ⟨n, hn, hrecorded⟩ := h.recorded b row (Table.mem_rows.mp hmem)
  have hsame : n = r.witnessEpoch.toNat := by
    rw [hrecorded] at hepoch
    exact_mod_cast hepoch
  exact hunrecorded (hsame ▸ hn)

/-- A staged version waits for a number, and there is none left. -/
def Stuck (s : Stores) : Prop :=
  sqlIntegerBound ≤ s.next + 1 ∧ ∃ o r e, s.staged o = some (r, e) ∧ ¬s.Acknowledged o r e

theorem steady_responsive :
    Steady fun w : World (Channel prim signingKey) => w.outside.Responsive where
  move _ _ hmove h := h.moves hmove
  interfere _ h := h
  sink _ _ h := h
  record _ _ _ h := h

theorem faults_of_responsive {M : World (Channel prim signingKey) → Prop}
    {stop : Option VaultError → World (Channel prim signingKey) → Prop}
    (hM : ∀ w, M w → w.outside.Responsive) : Steady.Faults M stop := by
  intro w hw _ _
  have hfault : (Machine.fault w.outside).1 = .none := (hM w hw).next.1.fault
  constructor
  · intro hstorage
    cases hfault.symm.trans hstorage
  · intro hcrash
    cases hfault.symm.trans hcrash

/-- With a witness that answers, the request for a staged version comes back with a receipt, unless
the witness has no number left. -/
theorem triple_issue_of_responsive (hsig : prim.SignatureCorrect)
    (htrust : p.Trusts (prim.verifyingKey signingKey)) (hP : Stable P) {request : WitnessRequest}
    {e : UInt64} (hV : request.vaultId = V)
    (hstaged : ∀ s, P s → s.staged request.objectId = some (request, e.toNat))
    (hsend : ∀ s, P s → P (s.send request.objectId request e.toNat)) :
    Op.Triple (fun w : World (Channel prim signingKey) => w.Agrees V P ∧ w.outside.Responsive)
      ((p.provider prim).issue request e) (fun _ w => w.outside.Responsive)
      fun stop w => stop = some .witnessUnavailable ∧ w.Agrees V fun s => P s ∧ Stuck s := by
  rintro w ⟨⟨hvault, hcoherent⟩, hresponsive⟩
  have hreachable := Channel.Responsive.next
    (c := w.outside.send (.fromRequest request e)) hresponsive
  have hafter : (Transport.postIssue (.fromRequest request e) w.outside).2.Responsive := by
    rcases Channel.postIssue_snd (.fromRequest request e) w.outside with hsame | ⟨env, hsame⟩
    · rw [hsame]
      exact hreachable.2
    · rw [hsame]
      exact hreachable.2
  have hstate : ((p.provider prim).issueReceipt request e w.outside).state = _ :=
    HttpsWitnessProvider.issueReceipt_state request e w.outside
  rw [← hstate] at hafter
  have hout : (p.provider prim).issue request e w =
      ((p.provider prim).issueReceipt request e w.outside).mapState fun c =>
        { w with history := .issueRequested request e :: w.history, outside := c } := rfl
  rw [hout]
  rcases hcoherent.issueReceipt_of_reachable (p := p) hsig htrust hP hV hstaged hsend
    hreachable.1 with ⟨r, c', hissue⟩ | ⟨c', hissue, hstuck⟩
  · rw [hissue] at hafter ⊢
    exact hafter
  · rw [hissue]
    exact ⟨rfl, hvault, hstuck.mono fun s h => ⟨h.1, h.2.2, _, _, _, hstaged s h.1, h.2.1⟩⟩

/-- With a witness that answers, the acknowledgement of a staged version returns, unless the witness
has no number left. -/
theorem triple_acknowledge_of_responsive (hsig : prim.SignatureCorrect)
    (htrust : p.Trusts (prim.verifyingKey signingKey)) (hP : Sendable P) (v : StoredVersion)
    (e : UInt64) :
    Op.Triple (fun w : World (Channel prim signingKey) =>
        (w.Agrees V P ∧ w.db.Staged v e) ∧ w.outside.Responsive)
      (acknowledge prim (p.provider prim) v e) (fun _ w => w.outside.Responsive)
      fun stop w => stop = some .witnessUnavailable ∧ w.Agrees V fun s => P s ∧ Stuck s := by
  let staged (s : Stores) : Prop :=
    P s ∧ s.staged v.objectId = some (v.request prim V, e.toNat)
  have hstaged : Sendable staged := hP.and (.client fun _ f =>
    f v.objectId = some (v.request prim V, e.toNat))
  refine Op.Triple.bind_get ?_
  rintro w0 ⟨⟨⟨hvault, s, hs, hmirrors, hstate⟩, hve⟩, hresponsive⟩
  rw [hvault]
  have hself := (hmirrors.staged _ _ _).mpr ⟨v, e, hve, rfl, rfl, rfl⟩
  -- the answer comes back
  have hissue := ((triple_issue (p := p) hsig hstaged.stable (e := e)
    (rfl : (v.request prim V).vaultId = V) (fun s h => h.2)
    (fun s h => hstaged.send s _ _ _ h)).and
      (triple_issue_of_responsive (p := p) hsig htrust hstaged.stable rfl
        (fun s h => h.2) (fun s h => hstaged.send s _ _ _ h))).and
      (Op.Triple.of_keeps (P := fun w : World (Channel prim signingKey) => w.db.Staged v e)
        fun w h => by rwa [(keeps_issue (p.provider prim) (v.request prim V) e w).db])
  refine Op.Triple.bind (fun r w => (r.IssuedBy prim signingKey ∧ r.request = v.request prim V ∧
    e < r.witnessEpoch) ∧ (w.Agrees V fun s => P s ∧
      s.staged v.objectId = some (v.request prim V, e.toNat) ∧
      s.head v.objectId = some (v.request prim V, r.witnessEpoch.toNat)) ∧
    w.db.Staged v e ∧ w.outside.Responsive) (hissue.conseq ?_ ?_ ?_) fun r =>
      Op.Triple.of_imp fun hr => ?_
  · rintro w rfl
    have hagrees : w.Agrees V staged := ⟨hvault, s, hs, hmirrors, hstate, hself⟩
    exact ⟨⟨hagrees, hagrees, hresponsive⟩, hve⟩
  · rintro r w ⟨⟨⟨hr, hagrees⟩, hresponsive⟩, hve⟩
    exact ⟨hr, hagrees.mono fun _ h => ⟨h.1.1, h.1.2, h.2⟩, hve, hresponsive⟩
  · rintro stop w ⟨⟨-, hstop, hstuck⟩, -⟩
    exact ⟨hstop, hstuck.mono fun _ h => ⟨h.1.1, h.2⟩⟩
  -- and everything after it works
  obtain ⟨hissued, hrequest, hnewer⟩ := hr
  have hlt := UInt64.lt_iff_toNat_lt.mp hnewer
  have hresponsive : Steady fun w : World (Channel prim signingKey) => w.outside.Responsive :=
    steady_responsive
  have hM := (steady_agrees hsig (V := V) (hP.stable.and (Stable.acknowledged (k := v.objectId)
    (v := v.request prim V) hlt))).and ((Steady.of_untouched fun _ db => db.Staged v e).and
      hresponsive)
  have hverify : r.verifyRequest prim (v.request prim V) = .ok () :=
    hrequest ▸ hissued.verifyRequest hsig
  have hbound : r.objectId = v.objectId ∧ r.versionId = v.versionId :=
    ⟨congrArg WitnessRequest.objectId hrequest, congrArg WitnessRequest.versionId hrequest⟩
  refine Op.Triple.bind_ofExcept (fun _ _ => ?_) fun error w herror _ => by
    cases hverify.symm.trans herror
  refine Op.Triple.bind_require (fun _ => ?_) fun w hnot _ => absurd hbound hnot
  refine Op.Triple.bind (fun _ w => w.outside.Responsive) (hM.triple_transaction
    (faults_of_responsive fun w h => h.2.2) (fun _ _ h _ => h.2.2) ?_) fun _ => ?_
  · rintro w error ⟨⟨-, s, hs, hmirrors, -, -, hhead⟩, hve, -⟩ herror
    obtain ⟨db', hbody⟩ := hmirrors.finalizeBody_ok hs hve hrequest hhead hlt
    cases hbody.symm.trans herror
  · intro w hw
    rw [Channel.enforceOwnerPrivateStateFiles_eq]
    exact hw

/-! ### The list of staged versions -/

/-- With working storage, staged versions that can be read are listed. -/
theorem triple_pending_of_readable {ω : Type} [Machine ω] [Exclusive ω] {M : World ω → Prop}
    {stop : Option VaultError → World ω → Prop} (hM : Steady M) (hfault : Steady.Faults M stop)
    (hrows : ∀ w, M w → ∀ row ∈ w.db.selectPending,
      ∃ v e, w.db.Staged v e ∧ row = (v.versionId.blob, (e.toNat : ℤ))) :
    Op.Triple M pendingWitnessPublications (fun _ => M) stop := by
  let readable (rows : List (Bytes × ℤ)) (w : World ω) : Prop :=
    M w ∧ ∀ row ∈ rows, ∃ v e, w.db.Staged v e ∧ row = (v.versionId.blob, (e.toNat : ℤ))
  have hreadable : ∀ rows, Steady (readable rows) := fun rows =>
    hM.and (Steady.of_untouched fun _ db =>
      ∀ row ∈ rows, ∃ v e, db.Staged v e ∧ row = (v.versionId.blob, (e.toNat : ℤ)))
  have hfaults : ∀ rows, Steady.Faults (readable rows) stop :=
    fun rows w hw w' hw' => hfault w hw.1 w' hw'.1
  refine Op.Triple.bind readable (hM.triple_query hfault ?_ ?_) fun rows => ?_
  · rintro w rows hw heq
    obtain rfl := Except.ok.inj heq
    exact ⟨hw, hrows w hw⟩
  · rintro w e - herror
    cases herror
  refine (Op.Triple.fold (I := fun _ rest _ => readable rest) ?_ [] rows []).mono_post
    fun _ _ h => h.1
  intro _ row rest _
  -- one row: its version and its epoch are there
  refine Op.Triple.bind _ ((hreadable (row :: rest)).triple_storageFault (hfaults _)) fun _ => ?_
  refine Op.Triple.bind_ofExcept (fun e he => ?_) fun error w herror hw => ?_
  · refine Op.Triple.bind_ofExcept (fun u hu => ?_) fun error w herror hw => ?_
    · refine Op.Triple.bind (fun _ => readable rest)
        ((hreadable (row :: rest)).triple_query (hfaults _) ?_ ?_) fun _ =>
          Op.Triple.pure fun _ h => h
      · exact fun w _ hw _ => ⟨hw.1, fun row hrow => hw.2 row (List.mem_cons_of_mem _ hrow)⟩
      · rintro w error hw herror
        obtain ⟨v, e', hve, rfl⟩ := hw.2 row List.mem_cons_self
        obtain rfl : v.versionId = u := Identifier.blob_inj.mp (Identifier.fromSlice_eq_ok.mp hu)
        cases hve.version.symm.trans herror
    · obtain ⟨v, e', -, rfl⟩ := hw.2 row List.mem_cons_self
      cases (Identifier.fromSlice_blob v.versionId).symm.trans herror
  · obtain ⟨v, e', hve, rfl⟩ := hw.2 row List.mem_cons_self
    have hepoch : sqlToUInt64 (e'.toNat : ℤ) = .ok e' :=
      sqlToUInt64_eq_ok.mpr ⟨(Database.selectStaged_eq_ok.mp hve.pending).1, rfl⟩
    cases hepoch.symm.trans herror

theorem Mirrors.readable {s : Stores} (h : Mirrors prim V db c s) {row : Bytes × ℤ}
    (hrow : row ∈ db.selectPending) :
    ∃ v e, db.Staged v e ∧ row = (v.versionId.blob, (e.toNat : ℤ)) := by
  have hlookup := (Table.mem_select (· ≤ ·)).mp hrow
  obtain ⟨v, e, hve, hid⟩ := h.pending row.1 (by rw [hlookup]; exact Option.some_ne_none _)
  refine ⟨v, e, hve, Prod.ext hid.symm ?_⟩
  have hepoch := (Database.selectStaged_eq_ok.mp hve.pending).2
  rw [hid, hlookup] at hepoch
  exact Option.some.inj hepoch

/-! ### The recovery -/

/-- Not more versions are staged than can be counted. -/
def StagesFew (P : Stores → Prop) : Prop :=
  ∀ s, Agreement s → P s → ∀ l : List ObjectId, l.Nodup → (∀ o ∈ l, s.staged o ≠ none) →
    l.length < 2 ^ 64

/-- With a witness that answers, a recovery completes every staged version, unless the witness has no
number left. -/
theorem triple_recover_of_responsive (hsig : prim.SignatureCorrect)
    (htrust : p.Trusts (prim.verifyingKey signingKey)) (hP : Sendable P)
    (hfinish : ∀ s o r e n, Agreement s → P s → s.staged o = some (r, e) →
      s.head o = some (r, n) → P (s.finish o r n)) (hcount : StagesFew P) :
    Op.Triple (fun w : World (Channel prim signingKey) =>
        w.Agrees V P ∧ w.outside.Responsive ∧ w.vault.rootKey ≠ none)
      (recoverPendingWitnessPublications prim (p.provider prim))
      (fun _ w => w.Agrees V fun s => P s ∧ s.Unstaged)
      fun stop w => stop = some .witnessUnavailable ∧ w.Agrees V fun s => P s ∧ Stuck s := by
  let M (w : World (Channel prim signingKey)) : Prop :=
    w.Agrees V P ∧ w.outside.Responsive ∧ w.vault.rootKey ≠ none
  have hM : Steady M := (steady_agrees hsig hP.stable).and
    (steady_responsive.and (Steady.of_vault fun v => v.rootKey ≠ none))
  let stops (stop : Option VaultError) (w : World (Channel prim signingKey)) : Prop :=
    stop = some .witnessUnavailable ∧ w.Agrees V fun s => P s ∧ Stuck s
  have hkey : Op.Triple M requireRootKey (fun _ => M) stops := by
    intro w hw
    obtain ⟨rootKey, hrootKey⟩ := Option.ne_none_iff_exists'.mp hw.2.2
    rw [requireRootKey_eq_ok.mpr ⟨hrootKey, rfl⟩]
    exact hw
  have hlist : Op.Triple M pendingWitnessPublications (fun _ => M) stops := by
    refine triple_pending_of_readable hM (faults_of_responsive fun w hw => hw.2.1) ?_
    rintro w ⟨⟨-, s, -, hmirrors, -⟩, -⟩ row hrow
    exact hmirrors.readable hrow
  have hack : ∀ v e, Op.Triple (fun w => M w ∧ w.db.Staged v e)
      (acknowledge prim (p.provider prim) v e) (fun _ => M) stops := by
    intro v e
    have hagrees : Op.Triple
        (fun w : World (Channel prim signingKey) => w.Agrees V P ∧ w.db.Staged v e)
        (acknowledge prim (p.provider prim) v e) (fun _ w => w.Agrees V P)
        fun _ w => w.Agrees V P ∨ w.Agrees V P :=
      triple_acknowledge hsig hP hP.stable fun s n hs hstate hstaged hhead _ =>
        hfinish s _ _ _ n hs hstate hstaged hhead
    have hvault : Op.Triple (fun w : World (Channel prim signingKey) => w.vault.rootKey ≠ none)
        (acknowledge prim (p.provider prim) v e) (fun _ w => w.vault.rootKey ≠ none)
        fun _ w => w.vault.rootKey ≠ none := by
      refine Op.Triple.of_keeps fun w hw => ?_
      rcases acknowledge_state v e w with hquiet | ⟨hvault, -⟩
      · rwa [hquiet.vault]
      · rwa [hvault]
    refine ((hagrees.and (triple_acknowledge_of_responsive (V := V) hsig htrust hP v e)).and
      hvault).conseq ?_ ?_ ?_
    · rintro w ⟨⟨hw, hresponsive, hkey⟩, hve⟩
      exact ⟨⟨⟨hw, hve⟩, ⟨hw, hve⟩, hresponsive⟩, hkey⟩
    · rintro _ w ⟨⟨hw, hresponsive⟩, hkey⟩
      exact ⟨hw, hresponsive, hkey⟩
    · rintro stop w ⟨⟨-, hstop⟩, -⟩
      exact hstop
  refine (triple_recover_of_acknowledge hkey hlist hack ?_
    fun e w hw _ => ⟨hw.1, hw.2.locked⟩).conseq (fun _ h => h) ?_ fun _ _ h => h
  · -- staged versions belong to different objects
    rintro w pending ⟨⟨-, s, hs, hmirrors, hstate⟩, -⟩ hstaged hnodup hfits
    have hself : ∀ q ∈ pending, s.staged q.1.objectId = some (q.1.request prim V, q.2.toNat) :=
      fun q hq => (hmirrors.staged _ _ _).mpr ⟨q.1, q.2, hstaged q hq, rfl, rfl, rfl⟩
    have hobjects : (pending.map fun q => q.1.objectId).Nodup := by
      refine List.Nodup.map_on (fun q hq q' hq' heq => ?_) (List.Nodup.of_map _ hnodup)
      have hsame := (hself q hq).symm.trans (heq ▸ hself q' hq')
      have hrequest := (Prod.mk.inj (Option.some.inj hsame)).1
      exact List.inj_on_of_nodup_map hnodup hq hq' (congrArg WitnessRequest.versionId hrequest)
    have hlength := hcount s hs hstate _ hobjects fun o ho => by
      obtain ⟨q, hq, rfl⟩ := List.mem_map.mp ho
      rw [hself q hq]
      exact Option.some_ne_none _
    rw [List.length_map] at hlength
    exact absurd hlength hfits
  · rintro n w ⟨⟨⟨hvault, s, hs, hmirrors, hstate⟩, -⟩, hnone⟩
    exact ⟨hvault, s, hs, hmirrors, hstate, hmirrors.unstaged hnone⟩

end

/-! ### Programs that publish through the witness -/

section

variable {prim : Primitives} {signingKey : Block 32} {V : VaultId} {p : HttpsWitnessProvider}
  {bound : ℕ}

/-- The call publishes nothing past the witness. -/
def VaultCall.Witnessed : VaultCall → Prop
  | .put .. | .putFromReader .. => False
  | _ => True

theorem sendable_hasRoom (bound : ℕ) : Sendable (HasRoom bound) :=
  ⟨HasRoom.advance, fun _ _ _ _ h => h.send⟩

/-- A call that publishes through the witness and waits takes one number. -/
theorem World.Paired.step_put (hsig : prim.SignatureCorrect)
    {s : SessionState (Channel prim signingKey)} {o : ObjectId} {plaintext : Bytes}
    (hwaits : (VaultCall.putWithWitness o plaintext).Waits s.world.db)
    (h : s.world.Paired V (HasRoom bound)) :
    (sessionStep prim (p.provider prim) s (.putWithWitness o plaintext)).2.world.Paired V
      (HasRoom (bound + 1)) := by
  -- no version of the object is staged
  have hfree : s.world.Paired V fun x => HasRoom bound x ∧ x.staged o = none := by
    obtain ⟨hid, x, hx, hmirrors, hroom⟩ := h
    refine ⟨hid, x, hx, hmirrors, hroom, ?_⟩
    cases hstaged : x.staged o with
    | none => rfl
    | some entry =>
      obtain ⟨v, e, hve, rfl, -⟩ := (hmirrors.staged o entry.1 entry.2).mp hstaged
      exact absurd hve.stagedFor (hwaits _ rfl _)
  refine SessionState.after_of_triple (J := fun w => w.Paired V (HasRoom (bound + 1)))
    (fun _ h => h.locked) ?_ (h.mono fun _ h => h.mono (Nat.le_succ _))
  refine Op.Triple.bind (fun _ w => w.Paired V (HasRoom (bound + 1)))
    ((triple_putWithWitness_paired hsig (HasRoom.advance.and (Stable.client fun _ f => f o = none))
      (fun _ h => h.2) (sendable_hasRoom (bound + 1)) (fun _ _ h => h.1.stage) HasRoom.advance
      (fun _ _ _ _ hs h hstaged hhead => h.finish hs hstaged hhead) plaintext).conseq ?_
        (fun _ _ h => h) ?_) fun _ => Op.Triple.pure fun _ h => h
  · rintro w rfl
    exact hfree
  · intro stop w h
    have hpaired : w.Paired V (HasRoom (bound + 1)) := by
      rcases h with h | h | h
      · exact h.mono fun _ h => h.1.mono (Nat.le_succ _)
      · exact h
      · exact h
    cases stop <;> exact hpaired

/-- Every other call takes none. -/
theorem World.Paired.step_other (hsig : prim.SignatureCorrect)
    {s : SessionState (Channel prim signingKey)} {call : VaultCall} (hcall : call.Witnessed)
    (hput : ∀ o plaintext, call ≠ .putWithWitness o plaintext)
    (h : s.world.Paired V (HasRoom bound)) :
    (sessionStep prim (p.provider prim) s call).2.world.Paired V (HasRoom bound) := by
  have hP := sendable_hasRoom bound
  have hsteady : Steady fun w : World (Channel prim signingKey) => w.Paired V (HasRoom bound) :=
    steady_paired hsig hP.stable
  have hlock := hsteady.lockRelation fun _ h => h.locked
  refine VaultCall.Survives.step (J := fun w => w.Paired V (HasRoom bound))
    (keepsHeads_paired hsig hP.stable) (fun _ h => h) (fun _ h => h.locked)
    ⟨?_, ?_, ?_, ?_, ?_, ?_, ?_⟩ h
  · exact fun _ => .of_triple (triple_openVault_paired hsig hP.stable) fun _ h => h
  · exact fun passphrase _ => .of_triple (triple_unlock_paired passphrase) fun _ h => h
  · rintro o plaintext size rfl
    exact hcall.elim
  · rintro o reader size rfl
    exact hcall.elim
  · exact fun o plaintext heq => absurd heq (hput o plaintext)
  · rintro rfl
    exact .of_triple ((triple_recover_paired hsig hP fun _ _ _ _ _ hs h hstaged hhead =>
      h.finish hs hstaged hhead).mono_post fun _ _ h => h.mono fun _ h => h.1) fun _ h => h
  · exact fun current replacement _ =>
      .of_triple (triple_rotatePassphrase_paired hsig hP.stable current replacement) fun _ h => h

theorem World.Paired.step (hsig : prim.SignatureCorrect)
    {s : SessionState (Channel prim signingKey)} {call : VaultCall} (hcall : call.Witnessed)
    (hwaits : call.Waits s.world.db) (h : s.world.Paired V (HasRoom bound)) :
    (sessionStep prim (p.provider prim) s call).2.world.Paired V (HasRoom (bound + 1)) := by
  by_cases hput : ∃ o plaintext, call = .putWithWitness o plaintext
  · obtain ⟨o, plaintext, rfl⟩ := hput
    exact h.step_put hsig hwaits
  · refine (h.step_other hsig hcall fun o plaintext heq => hput ⟨o, plaintext, heq⟩).mono ?_
    exact fun _ h => h.mono (Nat.le_succ _)

/-- A run takes one number for each of its calls at most. -/
theorem World.Paired.run (hsig : prim.SignatureCorrect)
    {s : SessionState (Channel prim signingKey)} {calls : List VaultCall}
    (hcalls : ∀ call ∈ calls, call.Witnessed)
    (hwaits : ∀ t ∈ Run.trace (sessionStep prim (p.provider prim)) s calls,
      t.input.Waits t.before.world.db) (h : s.world.Paired V (HasRoom bound)) :
    (Run.final (sessionStep prim (p.provider prim)) s calls).world.Paired V
      (HasRoom (bound + calls.length)) := by
  induction calls generalizing s bound with
  | nil => exact h
  | cons call calls ih =>
    rw [Run.final_cons, List.length_cons, Nat.add_comm calls.length, ← Nat.add_assoc]
    have hfirst := hwaits _ (List.mem_cons_self (a := Run.transition _ s call))
    exact ih (fun c hc => hcalls c (List.mem_cons_of_mem _ hc))
      (fun t ht => hwaits t (List.mem_cons_of_mem _ ht))
      (h.step hsig (hcalls call List.mem_cons_self) hfirst)

/-- **Recovery is possible.** A program creates a vault and publishes through the witness only, any
request or reply may be lost or late and the program may die anywhere. As long as it waits with a new
version of an object while one is staged, a recovery of the unlocked vault returns once the witness
answers. -/
theorem recovery_possible (hsig : prim.SignatureCorrect)
    (htrust : p.Trusts (prim.verifyingKey signingKey)) {w₀ w : World (Channel prim signingKey)}
    (hunused : w₀.outside.Unused) {passphrase : Text} {u : Unit}
    (hcreate : create prim passphrase w₀ = .ok u w) (calls : List VaultCall)
    (hcalls : ∀ call ∈ calls, call.Witnessed) (hlength : calls.length + 2 ≤ sqlIntegerBound)
    (hwaits : ∀ t ∈ Run.trace (sessionStep prim (p.provider prim)) ⟨w, true⟩ calls,
      t.input.Waits t.before.world.db) {s : SessionState (Channel prim signingKey)}
    (hs : s = Run.final (sessionStep prim (p.provider prim)) ⟨w, true⟩ calls)
    (hopened : s.opened = true) (hunlocked : s.world.vault.rootKey ≠ none)
    (hreachable : s.world.outside.Responsive) :
    ∃ n, (sessionStep prim (p.provider prim) s .recover).1 = some (.ok (.count n)) := by
  have hstart : w.Paired w.vaultId (HasRoom 2) := by
    refine (World.Paired.of_create hunused hcreate).mono ?_
    rintro _ rfl
    exact ⟨[], fun _ _ _ h => (by cases h), Nat.lt_succ_self 1⟩
  have hrun : s.world.Paired w.vaultId (HasRoom (2 + calls.length)) := by
    rw [hs]
    exact World.Paired.run hsig hcalls hwaits hstart
  have hbound : 2 + calls.length ≤ sqlIntegerBound := by omega
  have hfew : StagesFew (HasRoom (2 + calls.length)) := by
    intro x hx hroom l hl hstaged
    exact (hroom.length_lt hx hl hstaged).trans_le (hbound.trans (by decide))
  have hrecover := triple_recover_of_responsive hsig htrust (sendable_hasRoom (2 + calls.length))
    (fun _ _ _ _ _ hs h hstaged hhead => h.finish hs hstaged hhead) hfew s.world
    ⟨hrun.agrees, hreachable, hunlocked⟩
  show ∃ n, (if s.opened = true then SessionState.after true _ else _).1 = _
  rw [if_pos hopened]
  cases hout : recoverPendingWitnessPublications prim (p.provider prim) s.world with
  | ok n w' =>
    refine ⟨n, ?_⟩
    rw [VaultCall.run, Op.bind_of_ok hout]
    rfl
  | failed e w' =>
    -- every staged version has a number left
    rw [hout] at hrecover
    obtain ⟨-, -, x, -, -, hroom, hlimit, o, r, n, hstaged, hnot⟩ := hrecover
    have := hroom.next_lt hstaged hnot
    omega
  | crashed w' =>
    rw [hout] at hrecover
    cases hrecover.1

end

/-- A script in which the first request to the witness is lost. -/
def lossyScript : List Choice :=
  (List.range 60).map fun i => { random := [UInt8.ofNat (i + 1)], arrives := decide (13 ≤ i) }

/-- A vault created in front of a fresh witness whose first request will be lost. -/
def lossyVault : World SampleChannel :=
  (create .checksum [112] (.blank ⟨.empty, [], lossyScript⟩)).state

theorem create_lossyVault :
    create .checksum [112] (.blank ⟨.empty, [], lossyScript⟩ : World SampleChannel) =
      .ok () lossyVault :=
  Outcome.eq_ok_of_result (by decide +kernel)

/-- Once the lost request is behind, the client meets no failure. -/
theorem responsive_of_drop {c : SampleChannel} {n : ℕ} (hn : 13 ≤ n)
    (h : c.choices = lossyScript.drop n) : c.Responsive := by
  intro choice hmem
  rw [h, lossyScript, ← List.map_drop, List.mem_map] at hmem
  obtain ⟨i, hi, rfl⟩ := hmem
  have hle : 13 ≤ i := by
    rw [List.range_eq_range', List.drop_range', List.mem_range'_1] at hi
    omega
  exact ⟨rfl, rfl, decide_eq_true hle, rfl, rfl⟩

/-- The request for the version of the first call is lost. -/
def interruptedCalls : List VaultCall := [.putWithWitness (.repeated 2) [97], .unlock [112]]

/-- The program after these calls. -/
def interrupted : SessionState SampleChannel :=
  Run.final sampleSession ⟨lossyVault, true⟩ interruptedCalls

/-- In the sample run a version stays staged, and the recovery completes it. -/
theorem recovery_possible_sample :
    interrupted.world.db.pending.lookup (Channel.randomOf 16 [6]).toList = some 0 ∧
      interrupted.world.outside.Responsive ∧
      ∃ n, (sampleSession interrupted .recover).1 = some (.ok (.count n)) := by
  have hcalls : ∀ call ∈ interruptedCalls, call.Witnessed := by
    intro call hcall
    rcases List.mem_cons.mp hcall with rfl | hcall
    · trivial
    · obtain rfl := List.mem_singleton.mp hcall
      trivial
  have hwaits : ∀ t ∈ Run.trace sampleSession ⟨lossyVault, true⟩ interruptedCalls,
      t.input.Waits t.before.world.db := by
    intro t ht o ho b hb
    rcases List.mem_cons.mp ht with rfl | ht
    · -- the first call finds an empty vault
      refine hb.1 ?_
      rw [show (Run.transition sampleSession ⟨lossyVault, true⟩ _).before.world.db = _ from
        (create_ok create_lossyVault).2]
      rfl
    · -- the other one stores nothing
      obtain rfl := List.mem_singleton.mp ht
      exact ho
  exact ⟨by decide +kernel, responsive_of_drop (n := 13) (Nat.le_refl _) (by decide +kernel),
    recovery_possible (p := sampleTrust) (s := interrupted) Primitives.signatureCorrect_checksum
      (by decide +kernel) ⟨rfl, rfl⟩ create_lossyVault interruptedCalls hcalls (by decide) hwaits rfl
      (by decide +kernel) (by decide +kernel)
      (responsive_of_drop (n := 13) (Nat.le_refl _) (by decide +kernel))⟩

/-- The version of the first call stays staged while the object is published again, and two recoveries
follow. -/
def blockedCalls : List VaultCall :=
  [.putWithWitness (.repeated 2) [97], .unlock [112], .putWithWitness (.repeated 2) [98], .recover,
    .unlock [112], .recover]

/-- The program after the first `n` of these calls. -/
def blocked (n : ℕ) : SessionState SampleChannel :=
  Run.final sampleSession ⟨lossyVault, true⟩ (blockedCalls.take n)

/-- A version published while another one of the object is staged blocks the recovery: the witness
answers, and refuses the staged version each time. -/
theorem recovery_blocked_by_later_put :
    ((blocked 3).opened = true ∧ (blocked 3).world.vault.rootKey ≠ none ∧
      (blocked 3).world.outside.Responsive ∧
      (sampleSession (blocked 3) .recover).1 = some (.error .witnessConflict)) ∧
    ((blocked 5).opened = true ∧ (blocked 5).world.vault.rootKey ≠ none ∧
      (blocked 5).world.outside.Responsive ∧
      (sampleSession (blocked 5) .recover).1 = some (.error .witnessConflict)) := by
  refine ⟨⟨by decide +kernel, by decide +kernel, ?_, by decide +kernel⟩,
    by decide +kernel, by decide +kernel, ?_, by decide +kernel⟩
  · exact responsive_of_drop (n := 22) (by decide) (by decide +kernel)
  · exact responsive_of_drop (n := 26) (by decide) (by decide +kernel)

end Vlt1

import Vlt1.Vault.Failures

/-!
# Assertions about the world

An assertion is steady when no reading or sealing step can invalidate it. Around such steps it is
carried unchanged, so the pre- and postconditions of an operation come down to what its transactions
do. The rules here are for a vault that no other program writes to.
-/

namespace Vlt1

open Effect

section

variable {ω α : Type} [Machine ω]

/-- Reading and sealing steps keep the assertion. -/
structure Steady (M : World ω → Prop) : Prop where
  move : ∀ (w : World ω) (o : ω), Machine.Moves w.outside o → M w → M { w with outside := o }
  interfere : ∀ w : World ω, M w → M { w with
    db := (Machine.interfere w.db w.outside).1, outside := (Machine.interfere w.db w.outside).2 }
  sink : ∀ (w : World ω) (b : Bytes), M w → M { w with sink := b }
  record : ∀ (w : World ω) (e : Event), e.IsObservation ∨ e.IsSealing → M w →
    M { w with history := e :: w.history }

namespace Steady

variable {M N : World ω → Prop} {post : α → World ω → Prop}
  {stop : Option VaultError → World ω → Prop}

theorem sealRelation (hM : Steady M) : SealRelation fun w w' => M w → M w' where
  refl _ h := h
  trans _ _ _ h h' hw := h' (h hw)
  move w o hmove := hM.move w o hmove
  interfere := hM.interfere
  sink := hM.sink
  observe w e he := hM.record w e (.inl he)
  sealing w e he := hM.record w e (.inr he)

theorem lockRelation (hM : Steady M) (hlock : ∀ w, M w → M w.locked) :
    LockRelation fun w w' => M w → M w' :=
  { hM.sealRelation with locked := hlock }

theorem and (hM : Steady M) (hN : Steady N) : Steady fun w => M w ∧ N w where
  move w o hmove h := ⟨hM.move w o hmove h.1, hN.move w o hmove h.2⟩
  interfere w h := ⟨hM.interfere w h.1, hN.interfere w h.2⟩
  sink w b h := ⟨hM.sink w b h.1, hN.sink w b h.2⟩
  record w e he h := ⟨hM.record w e he h.1, hN.record w e he h.2⟩

/-- Without interference, an assertion about the vault in memory and the tables. -/
theorem of_untouched [Exclusive ω] (P : Vault → Database → Prop) :
    Steady fun w : World ω => P w.vault w.db where
  move _ _ _ h := h
  interfere w h := by rw [Exclusive.interfere_fst]; exact h
  sink _ _ h := h
  record _ _ _ h := h

omit M N in
/-- An assertion about the vault in memory. -/
theorem of_vault (P : Vault → Prop) : Steady fun w : World ω => P w.vault where
  move _ _ _ h := h
  interfere _ h := h
  sink _ _ h := h
  record _ _ _ h := h

/-- An assertion that depends on the vault in memory. -/
theorem of_vault_imp (P : Vault → Prop) (hN : Steady N) :
    Steady fun w : World ω => P w.vault → N w where
  move w o hmove h hP := hN.move w o hmove (h hP)
  interfere w h hP := hN.interfere w (h hP)
  sink w b h hP := hN.sink w b (h hP)
  record w e he h hP := hN.record w e he (h hP)

/-- What the assertion would be with another vault in memory. -/
theorem of_setVault (hM : Steady M) (v : Vault) :
    Steady fun w : World ω => M { w with vault := v } where
  move w o hmove h := hM.move { w with vault := v } o hmove h
  interfere w h := hM.interfere { w with vault := v } h
  sink w b h := hM.sink { w with vault := v } b h
  record w e he h := hM.record { w with vault := v } e he h

/-- An operation of reading and sealing steps carries the assertion. -/
theorem triple (hM : Steady M) {x : VaultOp ω α}
    (hx : ∀ R : World ω → World ω → Prop, SealRelation R → Op.Keeps R x) :
    Op.Triple M x (fun _ => M) fun _ => M :=
  Op.Triple.of_keeps (hx _ hM.sealRelation)

/-- What a step that may fail at the storage layer leaves behind when it does. -/
def Faults (M : World ω → Prop) (stop : Option VaultError → World ω → Prop) : Prop :=
  ∀ w, M w → ∀ w', M w' →
    ((Machine.fault w.outside).1 = .storage → stop (some .storage) w') ∧
      ((Machine.fault w.outside).1 = .crash → stop none w')

theorem triple_storageFault (hM : Steady M) (hfault : Faults M stop) :
    Op.Triple M storageFault (fun _ => M) stop := by
  intro w hw
  have hw' : M { w with outside := (Machine.fault w.outside).2 } :=
    hM.move w _ (Machine.Moves.fault _) hw
  have hstop := hfault w hw _ hw'
  cases hf : (Machine.fault w.outside).1 with
  | none =>
    rw [storageFault_of_none hf]
    exact hw'
  | storage =>
    rw [storageFault_of_storage hf]
    exact hstop.1 hf
  | crash =>
    rw [storageFault_of_crash hf]
    exact hstop.2 hf

/-- The tables a statement reads are those of the assertion. -/
theorem triple_tables (hM : Steady M) :
    Op.Triple M tables (fun db w => M w ∧ w.db = db) stop :=
  fun w hw => ⟨hM.interfere w hw, rfl⟩

theorem triple_query (hM : Steady M) (hfault : Faults M stop)
    {body : Database → Except VaultError α} (hok : ∀ w a, M w → body w.db = .ok a → post a w)
    (herror : ∀ w e, M w → body w.db = .error e → stop (some e) w) :
    Op.Triple M (query body) post stop := by
  refine Op.Triple.bind _ (hM.triple_storageFault hfault) fun _ => ?_
  refine Op.Triple.bind _ hM.triple_tables fun db => ?_
  refine Op.Triple.ofExcept ?_ ?_
  · rintro a ha w ⟨hw, rfl⟩
    exact hok w a hw ha
  · rintro e he w ⟨hw, rfl⟩
    exact herror w e hw he

theorem triple_transaction (hM : Steady M) (hfault : Faults M stop)
    {body : Database → Except VaultError Database} {post : Unit → World ω → Prop}
    (hok : ∀ w db, M w → body w.db = .ok db → post () (w.committed db))
    (herror : ∀ w e, M w → body w.db = .error e → stop (some e) w) :
    Op.Triple M (transaction body) post stop := by
  refine Op.Triple.bind _ (hM.triple_storageFault hfault) fun _ => ?_
  refine Op.Triple.bind _ hM.triple_tables fun db => ?_
  have hbody : Op.Triple (fun w => M w ∧ w.db = db) (Op.ofExcept (body db))
      (fun db' w => M w ∧ body w.db = .ok db') stop := by
    refine Op.Triple.ofExcept ?_ ?_
    · rintro db' hdb' w ⟨hw, rfl⟩
      exact ⟨hw, hdb'⟩
    · rintro e he w ⟨hw, rfl⟩
      exact herror w e hw he
  exact Op.Triple.bind _ hbody fun db' w hw => hok w db' hw.1 hw.2

end Steady

omit [Machine ω] in
/-- A failed operation has locked the vault if its error requires it. -/
theorem triple_lockAfterFailure {pre : World ω → Prop} {x : VaultOp ω α}
    {post : α → World ω → Prop} {stop stop' : Option VaultError → World ω → Prop}
    (hx : Op.Triple pre x post stop)
    (hfailed : ∀ e w, stop (some e) w → stop' (some e) (if e.requiresLock then w.locked else w))
    (hcrashed : ∀ w, stop none w → stop' none w) :
    Op.Triple pre (lockAfterFailure x) post stop' := by
  intro w hw
  have h := hx w hw
  unfold lockAfterFailure
  cases hxw : x w with
  | ok a w' => rw [hxw] at h; exact h
  | failed e w' => rw [hxw] at h; exact hfailed e w' h
  | crashed w' => rw [hxw] at h; exact hcrashed w' h

omit [Machine ω] in
/-- What returns is not locked. -/
theorem total_lockAfterFailure {pre : World ω → Prop} {x : VaultOp ω α} {post : α → World ω → Prop}
    (hx : Op.Total pre x post) : Op.Total pre (lockAfterFailure x) post :=
  triple_lockAfterFailure hx (fun _ _ h => h) fun _ h => h

omit [Machine ω] in
/-- What an operation leaves when it stops survives the lock, if the errors that lock the vault leave
something that locking keeps. -/
theorem triple_lockAfterFailure_of_locked {pre : World ω → Prop} {x : VaultOp ω α}
    {post : α → World ω → Prop} {stop : Option VaultError → World ω → Prop}
    (hx : Op.Triple pre x post stop)
    (hlock : ∀ e w, stop (some e) w → e.requiresLock = true → stop (some e) w.locked) :
    Op.Triple pre (lockAfterFailure x) post stop := by
  refine triple_lockAfterFailure hx (fun e w hw => ?_) fun _ hw => hw
  split
  · rename_i hrequires
    exact hlock e w hw hrequires
  · exact hw

/-! ### Calls that publish nothing -/

/-- The envelope holds the Root Key under the passphrase. -/
structure RootEnvelope.Seals (prim : Primitives) (envelope : RootEnvelope) (passphrase : Text)
    (rootKey : Block 32) : Prop where
  exists_key : ∃ key, derivePassphraseKey prim passphrase envelope.salt envelope.params = .ok key ∧
    prim.encrypt key.toList envelope.record.nonce (rootAad envelope.vaultId) rootKey.toList =
      some envelope.record.ciphertext

variable {prim : Primitives} {M N P : World ω → Prop}

/-- Opening reads the envelope and takes it over in memory. -/
theorem triple_openVault (hM : Steady M)
    (hopened : ∀ w envelope, M w → w.db.rootEnvelope prim = .ok envelope →
      N { w with vault := ⟨envelope, none⟩ }) :
    Op.Triple M (openVault prim) (fun _ => N) fun _ => M := by
  let post (envelope : RootEnvelope) (w : World ω) : Prop :=
    M w ∧ w.db.rootEnvelope prim = .ok envelope
  refine Op.Triple.bind _ (hM.triple fun R hR => keeps_enforceOwnerPrivateStateFiles) fun _ => ?_
  refine Op.Triple.bind _ (hM.triple fun R hR => keeps_query _) fun _ => ?_
  refine Op.Triple.bind post (hM.triple_query (fun _ _ w hw => ⟨fun _ => hw, fun _ => hw⟩)
    (fun _ _ hw henvelope => ⟨hw, henvelope⟩) fun _ _ hw _ => hw) fun envelope => ?_
  exact fun w hw => hopened w envelope hw.1 hw.2

/-- What a new envelope holds. -/
theorem returns_sealRootKey (passphrase : Text) (v : VaultId) (rootKey : Block 32)
    (params : KdfParams) :
    Op.Returns (fun envelope => envelope.vaultId = v ∧ envelope.Seals prim passphrase rootKey)
      (sealRootKey (ω := ω) prim passphrase v rootKey params) := by
  intro w envelope w' h
  obtain ⟨_, w1, -, hsalt⟩ := Op.bind_eq_ok.mp h
  obtain ⟨salt, w2, -, hderive⟩ := Op.bind_eq_ok.mp hsalt
  obtain ⟨key, w3, hkey, hseal⟩ := Op.bind_eq_ok.mp hderive
  obtain ⟨record, w4, hrecord, hreturn⟩ := Op.bind_eq_ok.mp hseal
  cases hreturn
  refine ⟨rfl, ⟨key, (Op.ofExcept_eq_ok.mp hkey).1, ?_⟩⟩
  exact (sealRecord_ok hrecord).2.1

/-- Rotating stores a new envelope first and takes it over in memory after it. In between, the
permission step may fail. -/
theorem triple_rotatePassphrase (hM : Steady M) (hN : Steady N) (hP : Steady P)
    (hMlock : ∀ w, M w → M w.locked) (hPlock : ∀ w, P w → P w.locked) {current replacement : Text}
    (hrotated : ∀ w rootKey envelope db, M w →
      openRootKey prim current w.vault.envelope = .ok rootKey →
        envelope.Seals prim replacement rootKey → envelope.vaultId = w.vaultId →
          w.db.replaceEnvelopeBody envelope = .ok db →
            P (w.committed db) ∧ N { w.committed db with vault := ⟨envelope, none⟩ }) :
    Op.Triple M (rotatePassphrase prim current replacement) (fun _ => N)
      fun _ w => M w ∨ P w := by
  refine Op.Triple.bind_ofExcept (fun _ _ => ?_) fun _ _ _ => .inl
  refine @triple_lockAfterFailure _ _ _ _ _ (fun _ w => M w ∨ P w) _ ?_ (fun e w hw => ?_)
    fun _ hw => hw
  · refine Op.Triple.bind_get fun w0 hw0 => ?_
    refine Op.Triple.bind_ofExcept (fun rootKey hopen => ?_) fun _ _ _ hw => .inl (hw ▸ hw0)
    -- nothing touches the vault in memory before its envelope is replaced
    have hsame := hM.and (Steady.of_vault (· = w0.vault))
    refine Op.Triple.bind (fun envelope w => (envelope.vaultId = w0.vault.envelope.vaultId ∧
      envelope.Seals prim replacement rootKey) ∧ M w ∧ w.vault = w0.vault) ?_ fun envelope => ?_
    · refine ((hsame.triple fun R hR => keeps_sealRootKey prim _ _ _ _).returns
        (returns_sealRootKey _ _ _ _)).conseq ?_ (fun _ _ h => h) fun _ _ hw => .inl hw.1
      rintro w rfl
      exact ⟨hw0, rfl⟩
    · let stored (w : World ω) : Prop := P w ∧ N { w with vault := ⟨envelope, none⟩ }
      have hstored : Steady stored := hP.and (hN.of_setVault _)
      refine Op.Triple.bind (fun _ => stored) ?_ fun _ => Op.Triple.bind (fun _ => stored)
        ((hstored.triple fun R hR => keeps_enforceOwnerPrivateStateFiles).mono_stop
          fun _ _ hw => .inr hw.1) fun _ w hw => hw.2
      refine Op.Triple.of_imp fun hseals => ?_
      refine hsame.triple_transaction (fun _ _ w hw => ⟨fun _ => .inl hw.1, fun _ => .inl hw.1⟩) ?_
        fun _ _ hw _ => .inl hw.1
      rintro w db ⟨hw, hvault⟩ hbody
      refine hrotated w rootKey envelope db hw ?_ hseals.2 ?_ hbody
      · rw [hvault]
        exact hopen
      · rw [World.vaultId, hvault]
        exact hseals.1
  · split
    · exact hw.imp (hMlock w) (hPlock w)
    · exact hw

end

end Vlt1

import Vlt1.AllOrNothing
import Vlt1.Changes
import Vlt1.IdealCrypto

/-!
# Passphrases and the Root Key

The Root Key is drawn once, when a vault is created, and never changes; what changes is the envelope
that holds it, in the database and in memory. `KeyState` ties the two copies together: they are
equal, they hold the Root Key under one passphrase, and the key in memory, if any, is the Root Key.

A rotation stores the new envelope before it takes it over in memory, and a permission step that
fails in between separates the two (`rotation_splits_envelopes`). As long as that step succeeds
whenever a rotation gets to it, `KeyState` holds throughout and its passphrase is the replacement of
the last rotation that succeeded (`passphrase_and_key_state`).
-/

namespace Vlt1

open Effect

/-! ### Envelopes -/

theorem derivePassphraseKey_eq_ok {prim : Primitives} {passphrase : Text} {salt : Block 16}
    {params : KdfParams} {key : Block 32} :
    derivePassphraseKey prim passphrase salt params = .ok key ↔
      params.validatePersisted prim = .ok () ∧ prim.argon2id params passphrase salt = some key := by
  have hsupported : params.validatePersisted prim = .ok () → prim.argon2Params params = true := by
    unfold KdfParams.validatePersisted KdfParams.validateWith
    split
    · nofun
    · split
      · nofun
      · rename_i h
        exact fun _ => by simpa using h
  unfold derivePassphraseKey
  rw [except_bind_eq_ok]
  constructor
  · rintro ⟨_, hvalid, h⟩
    refine ⟨hvalid, ?_⟩
    rw [hsupported hvalid] at h
    cases hkey : prim.argon2id params passphrase salt with
    | none => rw [hkey] at h; cases h
    | some key' => rw [hkey] at h; cases h; rfl
  · rintro ⟨hvalid, hkey⟩
    refine ⟨(), hvalid, ?_⟩
    rw [hsupported hvalid, hkey]
    rfl

theorem openRootKey_eq_ok {prim : Primitives} {passphrase : Text} {e : RootEnvelope}
    {rootKey : Block 32} :
    openRootKey prim passphrase e = .ok rootKey ↔
      ∃ key, derivePassphraseKey prim passphrase e.salt e.params = .ok key ∧
        prim.decrypt key.toList e.record.nonce (rootAad e.vaultId) e.record.ciphertext =
          some rootKey.toList := by
  unfold openRootKey
  rw [except_bind_eq_ok]
  refine exists_congr fun key => and_congr_right fun _ => ?_
  have hlength : ¬key.toList.length ≠ 32 := by simp
  rw [openRecord, if_neg hlength]
  cases prim.decrypt key.toList e.record.nonce (rootAad e.vaultId) e.record.ciphertext with
  | none => exact ⟨nofun, nofun⟩
  | some plaintext =>
    rw [Option.some.injEq, ← Block.ofBytes?_eq_some]
    dsimp only
    cases Block.ofBytes? 32 plaintext with
    | none => exact ⟨nofun, nofun⟩
    | some k => exact ⟨fun h => by cases h; rfl, fun h => by cases h; rfl⟩

/-- The envelope is bound to its key, as far as the passphrase `q` can tell: if it was sealed under
one of the passphrases `Q` and `q` opens it, both derive the same key. -/
def RootEnvelope.BoundFor (prim : Primitives) (Q : Set Text) (e : RootEnvelope) (q : Text) : Prop :=
  ∀ p ∈ Q, ∀ K k, e.Seals prim p K → openRootKey prim q e = .ok k →
    derivePassphraseKey prim q e.salt e.params = derivePassphraseKey prim p e.salt e.params

/-- An ideal AEAD binds every envelope. -/
theorem Primitives.IdealAead.boundFor {prim : Primitives} (hprim : prim.IdealAead) (Q : Set Text)
    (e : RootEnvelope) (q : Text) : e.BoundFor prim Q q := by
  intro p _ K k hseals hopen
  obtain ⟨key, hkey, hseal⟩ := hseals.exists_key
  obtain ⟨key', hkey', hdecrypt⟩ := openRootKey_eq_ok.mp hopen
  rw [hkey, hkey', Block.toList_inj.mp (hprim.binding hseal hdecrypt).1]

namespace RootEnvelope.Seals

variable {prim : Primitives} {e : RootEnvelope} {p q : Text} {K k : Block 32}

/-- The passphrase of an envelope opens it. -/
theorem openRootKey (hprim : prim.OpensSealed) (h : e.Seals prim p K) :
    Vlt1.openRootKey prim p e = .ok K := by
  obtain ⟨key, hkey, hseal⟩ := h.exists_key
  exact openRootKey_eq_ok.mpr ⟨key, hkey, hprim.decrypt_encrypt hseal⟩

/-- Whatever opens an envelope finds the key it holds. -/
theorem eq_of_openRootKey (hprim : prim.OpensSealed) {Q : Set Text} (hbound : e.BoundFor prim Q q)
    (hp : p ∈ Q) (h : e.Seals prim p K) (hopen : Vlt1.openRootKey prim q e = .ok k) : k = K := by
  obtain ⟨key, hkey, hseal⟩ := h.exists_key
  obtain ⟨key', hkey', hdecrypt⟩ := openRootKey_eq_ok.mp hopen
  have hsame := hbound p hp K k h hopen
  obtain rfl := Except.ok.inj (hkey'.symm.trans (hsame.trans hkey))
  exact Block.toList_inj.mp (Option.some.inj (hdecrypt.symm.trans (hprim.decrypt_encrypt hseal)))

/-- Of passphrases that derive different keys, no other opens an envelope. -/
theorem passphrase_eq {Q : Set Text} (hbound : e.BoundFor prim Q q) (hkdf : prim.KdfInjectiveOn Q)
    (hp : p ∈ Q) (hq : q ∈ Q) (h : e.Seals prim p K) (hopen : Vlt1.openRootKey prim q e = .ok k) :
    q = p := by
  obtain ⟨key, hkey, -⟩ := h.exists_key
  have hkey' := (hbound p hp K k h hopen).trans hkey
  exact hkdf _ _ _ q hq p hp (derivePassphraseKey_eq_ok.mp hkey').2
    (derivePassphraseKey_eq_ok.mp hkey).2

/-- A stored envelope is read back. -/
theorem rootEnvelope (h : e.Seals prim p K) {db : Database}
    (hrow : db.vaultMeta = some (.ofEnvelope e)) : db.rootEnvelope prim = .ok e := by
  obtain ⟨key, hkey, -⟩ := h.exists_key
  have hparams := (derivePassphraseKey_eq_ok.mp hkey).1
  unfold Database.rootEnvelope
  rw [hrow]
  simp only [MetaRow.ofEnvelope, except_bind_eq_ok, sqlToUInt32_eq_ok, Identifier.fromSlice_eq_ok,
    bytes16, bytes12, fixedBytes_eq_ok, ensure_eq_ok]
  exact ⟨_, rfl, _, rfl, _, rfl, _, rfl, (), rfl, (), hparams, _, rfl, _, rfl, _, rfl, rfl⟩

end RootEnvelope.Seals

/-! ### The invariant -/

namespace VaultCall

/-- The call tries the passphrase on the envelope in memory. -/
def Tries : VaultCall → Text → Prop
  | .unlock passphrase, q | .rotatePassphrase passphrase _, q => q = passphrase
  | _, _ => False

/-- The call may seal an envelope under the passphrase. -/
def Sets : VaultCall → Text → Prop
  | .rotatePassphrase _ replacement, q => q = replacement
  | _, _ => False

end VaultCall

section

variable {ω : Type} {prim : Primitives} {Q : Set Text} {K : Block 32} {p : Text} {call : VaultCall}
  {w₀ w w' : World ω}

/-- The stored and the loaded envelope are the same, hold the Root Key under the passphrase, and the
key in memory is the Root Key. -/
structure KeyState (prim : Primitives) (K : Block 32) (p : Text) (w : World ω) : Prop where
  row : w.db.vaultMeta = some (.ofEnvelope w.vault.envelope)
  seals : w.vault.envelope.Seals prim p K
  passphrase : validatePassphrase p = .ok ()
  held : ∀ k, w.vault.rootKey = some k → k = K

namespace KeyState

/-- The invariant depends on the envelopes and the key in memory. -/
theorem congr (h : KeyState prim K p w) (hrow : w'.db.vaultMeta = w.db.vaultMeta)
    (henvelope : w'.vault.envelope = w.vault.envelope)
    (hheld : ∀ k, w'.vault.rootKey = some k → k = K) : KeyState prim K p w' := by
  refine ⟨?_, ?_, h.passphrase, hheld⟩
  · rw [hrow, henvelope]
    exact h.row
  · rw [henvelope]
    exact h.seals

theorem rootEnvelope (h : KeyState prim K p w) :
    w.db.rootEnvelope prim = .ok w.vault.envelope :=
  h.seals.rootEnvelope h.row

theorem locked (h : KeyState prim K p w) : KeyState prim K p w.locked := h.congr rfl rfl nofun

/-- Unlocking works with the passphrase, and of passphrases that derive different keys with no
other. -/
theorem unlock_iff (h : KeyState prim K p w) (hprim : prim.OpensSealed)
    (hkdf : prim.KdfInjectiveOn Q) (hp : p ∈ Q) {q : Text} (hq : q ∈ Q)
    (hbound : w.vault.envelope.BoundFor prim Q q) :
    (unlock prim q w).result = some (.ok ()) ↔ q = p := by
  constructor
  · intro hunlock
    rcases unlock_cases prim q w with ⟨e, hfailed⟩ | ⟨k, hopen, -⟩
    · rw [hfailed] at hunlock
      cases hunlock
    · exact h.seals.passphrase_eq hbound hkdf hp hq hopen
  · rintro rfl
    unfold unlock
    rw [h.passphrase, Op.ofExcept_ok, Op.pure_bind, Op.bind_of_ok (Op.get_apply w),
      h.seals.openRootKey hprim]
    rfl

/-- Every change but a new envelope keeps the invariant. -/
theorem change (hprim : prim.OpensSealed) (hp : p ∈ Q)
    (hbound : ∀ q, call.Tries q → w₀.vault.envelope.BoundFor prim Q q)
    (hcall : ∀ current replacement, call ≠ .rotatePassphrase current replacement)
    (hchange : Change prim call w₀ w w') (h : KeyState prim K p w) : KeyState prim K p w' := by
  cases hchange with
  | quiet hquiet =>
    refine h.congr ?_ ?_ ?_
    · rw [hquiet.db]
    · rw [hquiet.vault]
    · rw [hquiet.vault]
      exact h.held
  | locked heq => subst heq; exact h.locked
  | unlocked hunlock hfirst hopen heq =>
    subst heq hunlock
    refine h.congr rfl rfl fun k hk => ?_
    obtain rfl := Option.some.inj hk
    exact h.seals.eq_of_openRootKey hprim (hfirst.envelope ▸ hbound _ rfl) hp hopen
  | opened _ henvelope heq =>
    subst heq
    refine h.congr rfl ?_ nofun
    exact (Except.ok.inj (h.rootEnvelope.symm.trans henvelope)).symm
  | replaced hrotate | rotated hrotate => exact absurd hrotate (hcall _ _)
  | published _ _ _ heq | staged _ _ _ _ _ heq => subst heq; exact h.congr rfl rfl h.held
  | finalized _ _ _ hbody hvault _ =>
    obtain ⟨-, -, -, -, -, hdb⟩ := Database.finalizeBody_eq_ok.mp hbody
    refine h.congr ?_ ?_ ?_
    · rw [hdb]
    · rw [hvault]
    · rw [hvault]
      exact h.held

end KeyState

/-! ### Rotations -/

variable [Machine ω]

/-- The surroundings when a rotation stores its new envelope: a salt and a nonce were drawn. -/
def World.sealing (w : World ω) : ω := (Machine.random 12 (Machine.random 16 w.outside).2).2

/-- If a rotation in this state gets to its permission step, the state files pass. -/
def World.RotationPermitted (w : World ω) : Prop :=
  enforceOwnerPrivateSqliteState
    (Machine.files (Machine.interfere w.db (Machine.fault w.sealing).2).2).1 = .ok ()

theorem sealRootKey_ok {passphrase : Text} {v : VaultId} {rootKey : Block 32} {params : KdfParams}
    {e : RootEnvelope} (h : sealRootKey prim passphrase v rootKey params w = .ok e w') :
    w'.outside = w.sealing ∧ w'.db = w.db := by
  obtain ⟨_, w1, hvalid, hrest1⟩ := Op.bind_eq_ok.mp h
  obtain ⟨-, rfl⟩ := Op.ofExcept_eq_ok.mp hvalid
  obtain ⟨salt, w2, hsalt, hrest2⟩ := Op.bind_eq_ok.mp hrest1
  obtain ⟨key, w3, hkey, hrest3⟩ := Op.bind_eq_ok.mp hrest2
  obtain ⟨-, rfl⟩ := Op.ofExcept_eq_ok.mp hkey
  obtain ⟨r, w4, hrecord, hreturn⟩ := Op.bind_eq_ok.mp hrest3
  obtain ⟨_, w5, hlength, hrest4⟩ := Op.bind_eq_ok.mp hrecord
  obtain ⟨-, rfl⟩ := Op.require_eq_ok.mp hlength
  obtain ⟨nonce, w6, hnonce, hencrypt⟩ := Op.bind_eq_ok.mp hrest4
  cases hreturn
  cases hsalt
  cases hnonce
  revert hencrypt
  cases prim.encrypt _ _ _ _ with
  | none => nofun
  | some ciphertext => intro hencrypt; cases hencrypt; exact ⟨rfl, rfl⟩

variable [Exclusive ω]

/-- A permitted rotation that does not succeed stores nothing. -/
theorem triple_rotatePassphrase_stops (prim : Primitives) (hpermitted : w.RotationPermitted)
    (current replacement : Text) :
    Op.Triple (· = w) (rotatePassphrase prim current replacement) (fun _ _ => True)
      fun _ x => x.db = w.db := by
  rw [rotatePassphrase_eq]
  refine Op.Triple.bind_ofExcept (fun _ _ => ?_) fun _ _ _ hx => congrArg World.db hx
  refine @triple_lockAfterFailure _ _ _ _ _ (fun _ x => x.db = w.db) _ ?_ (fun e x hx => ?_)
    fun _ hx => hx
  · refine Op.Triple.bind_get fun w1 hw1 => ?_
    subst hw1
    refine Op.Triple.bind_ofExcept (fun rootKey _ => ?_) fun _ _ _ hx => congrArg World.db hx
    refine Op.Triple.bind (fun _ x => x.outside = w1.sealing ∧ x.db = w1.db) ?_ fun e => ?_
    · rintro x rfl
      have hkept := keeps_sealRootKey (R := World.Quiet) prim replacement x.vault.envelope.vaultId
        rootKey .interactive x
      cases hout : sealRootKey prim replacement x.vault.envelope.vaultId rootKey .interactive x with
      | ok e x' => exact sealRootKey_ok hout
      | failed e x' => rw [hout] at hkept; exact hkept.db
      | crashed x' => rw [hout] at hkept; exact hkept.db
    · refine Op.Triple.bind (fun _ _ => True) ?_ fun _ _ _ => trivial
      rintro x ⟨houtside, hdb⟩
      have heffect : (StorageCall.replaceRootEnvelope e).Effect x (replaceRootEnvelope e x) :=
        StorageCall.run_effect (.replaceRootEnvelope e) x
      -- the permission step is the one of the assumption
      have hstep : (StorageCall.replaceRootEnvelope e).permissionStep x = .ok () := by
        show enforceOwnerPrivateSqliteState
          (Machine.files (Machine.interfere x.db (Machine.fault x.outside).2).2).1 = .ok ()
        rw [houtside, hdb]
        exact hpermitted
      cases hout : replaceRootEnvelope e x with
      | ok _ x' => trivial
      | failed error x' =>
        rw [hout] at heffect
        cases heffect with
        | refused _ _ hstore => exact hstore.trans hdb
        | unreported _ _ hlast => cases hlast.symm.trans hstep
      | crashed x' =>
        rw [hout] at heffect
        cases heffect with
        | died _ hstore => exact hstore.trans hdb
  · split <;> exact hx

theorem KeyState.steady (p : Text) : Steady (KeyState (ω := ω) prim K p) where
  move _ _ _ h := h.congr rfl rfl h.held
  interfere x h := h.congr (by rw [Exclusive.interfere_fst]) rfl h.held
  sink _ _ h := h.congr rfl rfl h.held
  record _ _ _ h := h.congr rfl rfl h.held

/-- A vault opened anew has the same envelope. -/
theorem KeyState.triple_openVault (h : KeyState prim K p w) :
    Op.Triple (· = w) (openVault prim)
      (fun _ x => KeyState prim K p x ∧ x.vault.envelope = w.vault.envelope)
      fun _ x => KeyState prim K p x ∧ x.vault.envelope = w.vault.envelope := by
  have hsteady : Steady fun x : World ω => KeyState prim K p x ∧
      x.vault.envelope = w.vault.envelope :=
    (KeyState.steady p).and (Steady.of_vault fun v => v.envelope = w.vault.envelope)
  refine (Vlt1.triple_openVault hsteady ?_).mono_pre fun x hx => ?_
  · rintro x e ⟨hx, hsame⟩ henvelope
    have he : e = x.vault.envelope := (Except.ok.inj (hx.rootEnvelope.symm.trans henvelope)).symm
    exact ⟨hx.congr rfl he nofun, he.trans hsame⟩
  · rw [hx]
    exact ⟨h, rfl⟩

/-- A permitted rotation either succeeds, and the replacement is the passphrase, or changes
nothing. -/
theorem KeyState.triple_rotatePassphrase (hprim : prim.OpensSealed) (hp : p ∈ Q)
    (h : KeyState prim K p w) (hpermitted : w.RotationPermitted) {current : Text}
    (hbound : w.vault.envelope.BoundFor prim Q current) (replacement : Text) :
    Op.Triple (· = w) (rotatePassphrase prim current replacement)
      (fun _ => KeyState prim K replacement) fun _ => KeyState prim K p := by
  -- until it has succeeded, the vault in memory stays as it is
  let same (v : Vault) : Prop := v.envelope = w.vault.envelope ∧ ∀ k, v.rootKey = some k → k = K
  have hsame : Steady fun x : World ω => same x.vault := Steady.of_vault same
  intro x hx
  subst hx
  cases hvalid : validatePassphrase replacement with
  | error e =>
    unfold rotatePassphrase
    rw [hvalid]
    exact h
  | ok _ =>
    have htriple : Op.Triple (fun y : World ω => KeyState prim K p y ∧ same y.vault)
        (rotatePassphrase prim current replacement) (fun _ => KeyState prim K replacement)
        fun _ y => (KeyState prim K p y ∧ same y.vault) ∨ same y.vault := by
      refine Vlt1.triple_rotatePassphrase ((KeyState.steady p).and hsame) (KeyState.steady replacement) hsame
        (fun _ hy => ⟨hy.1.locked, hy.2.1, nofun⟩) (fun _ hy => ⟨hy.1, nofun⟩) ?_
      rintro y rootKey e db ⟨hy, hvault⟩ hopen hseals hid hbody
      obtain rfl := hy.seals.eq_of_openRootKey hprim (hvault.1 ▸ hbound) hp hopen
      obtain ⟨row, hrow, -, rfl⟩ := Database.replaceEnvelopeBody_eq_ok.mp hbody
      refine ⟨hvault, ?_, hseals, hvalid, nofun⟩
      rw [hy.row] at hrow
      obtain rfl := Option.some.inj hrow
      rfl
    have hstop := triple_rotatePassphrase_stops prim hpermitted current replacement x rfl
    have hrotated := htriple x ⟨h, rfl, h.held⟩
    -- a rotation that stopped left the tables, and so the stored envelope
    have hkept : ∀ y : World ω, y.db = x.db →
        (KeyState prim K p y ∧ same y.vault) ∨ same y.vault → KeyState prim K p y := by
      rintro y hdb (hy | hy)
      · exact hy.1
      · exact h.congr (congrArg Database.vaultMeta hdb) hy.1 hy.2
    cases hout : rotatePassphrase prim current replacement x with
    | ok _ y => rw [hout] at hrotated; exact hrotated
    | failed e y => rw [hout] at hrotated hstop; exact hkept y hstop hrotated
    | crashed y => rw [hout] at hrotated hstop; exact hkept y hstop hrotated

/-! ### Runs -/

/-- The passphrase after a call: the replacement, if the call was a rotation that succeeded. -/
def passphraseAfter (p : Text)
    (t : Run.Transition (SessionState ω) VaultCall (Option (Except VaultError CallResult))) : Text :=
  match t.input, t.output with
  | .rotatePassphrase _ replacement, some (.ok _) => replacement
  | _, _ => p

variable (provider : WitnessProvider ω)

/-- One call. -/
theorem KeyState.step (hprim : prim.OpensSealed) (hp : p ∈ Q) {s : SessionState ω}
    (h : KeyState prim K p s.world) (call : VaultCall)
    (hbound : ∀ q, call.Tries q → s.world.vault.envelope.BoundFor prim Q q)
    (hpermitted : ∀ current replacement,
      call = .rotatePassphrase current replacement → s.world.RotationPermitted) :
    KeyState prim K (passphraseAfter p (Run.transition (sessionStep prim provider) s call))
      (sessionStep prim provider s call).2.world := by
  by_cases hrotate : ∃ current replacement, call = .rotatePassphrase current replacement
  · obtain ⟨current, replacement, rfl⟩ := hrotate
    have htriple := h.triple_rotatePassphrase hprim hp (hpermitted _ _ rfl) (hbound current rfl)
      replacement _ rfl
    unfold passphraseAfter Run.transition sessionStep
    dsimp only
    by_cases hopened : s.opened = true
    · rw [if_pos hopened]
      cases hout : rotatePassphrase prim current replacement s.world with
      | ok _ w =>
        rw [hout] at htriple
        rw [VaultCall.run, Op.bind_of_ok hout]
        exact htriple
      | failed e w =>
        rw [hout] at htriple
        rw [VaultCall.run, Op.bind_of_failed hout]
        exact htriple
      | crashed w =>
        rw [hout] at htriple
        rw [VaultCall.run, Op.bind_apply, hout]
        exact htriple.locked
    · rw [if_neg hopened]
      exact h
  · have hother : ∀ current replacement, call ≠ .rotatePassphrase current replacement :=
      fun current replacement heq => hrotate ⟨current, replacement, heq⟩
    have hsame : passphraseAfter p (Run.transition (sessionStep prim provider) s call) = p := by
      cases call with
      | rotatePassphrase current replacement => exact absurd rfl (hother current replacement)
      | _ => rfl
    rw [hsame]
    exact (sessionStep_changes s call).invariant
      (fun _ _ => KeyState.change hprim hp hbound hother) h

omit [Machine ω] [Exclusive ω] in
/-- The passphrase is always one of those that were set. -/
theorem passphraseAfter_mem
    {t : Run.Transition (SessionState ω) VaultCall (Option (Except VaultError CallResult))}
    (hp : p ∈ Q) (hQ : ∀ q, t.input.Sets q → q ∈ Q) : passphraseAfter p t ∈ Q := by
  unfold passphraseAfter
  split
  · rename_i replacement _ hinput _
    exact hQ replacement (by rw [hinput]; rfl)
  · exact hp

/-- A run. -/
theorem KeyState.run (hprim : prim.OpensSealed) (hp : p ∈ Q) {s : SessionState ω}
    (h : KeyState prim K p s.world) {calls : List VaultCall}
    (hQ : ∀ call ∈ calls, ∀ q, call.Sets q → q ∈ Q)
    (hbound : ∀ t ∈ Run.trace (sessionStep prim provider) s calls, ∀ q, t.input.Tries q →
      t.before.world.vault.envelope.BoundFor prim Q q)
    (hpermitted : ∀ t ∈ Run.trace (sessionStep prim provider) s calls,
      ∀ current replacement, t.input = .rotatePassphrase current replacement →
        t.before.world.RotationPermitted) :
    (Run.trace (sessionStep prim provider) s calls).foldl passphraseAfter p ∈ Q ∧
    KeyState prim K ((Run.trace (sessionStep prim provider) s calls).foldl passphraseAfter p)
      (Run.final (sessionStep prim provider) s calls).world := by
  induction calls generalizing s p with
  | nil => exact ⟨hp, h⟩
  | cons call calls ih =>
    have hfirst := h.step provider hprim hp call (hbound _ List.mem_cons_self)
      (hpermitted _ List.mem_cons_self)
    have hset : passphraseAfter p (Run.transition (sessionStep prim provider) s call) ∈ Q :=
      passphraseAfter_mem hp (hQ call List.mem_cons_self)
    exact ih hset hfirst (fun c hc => hQ c (List.mem_cons_of_mem _ hc))
      (fun t ht => hbound t (List.mem_cons_of_mem _ ht))
      fun t ht => hpermitted t (List.mem_cons_of_mem _ ht)

/-- Creating a vault draws its Root Key. -/
theorem KeyState.of_create {u : Unit} (h : create prim p w = .ok u w') :
    ∃ K, w'.vault.rootKey = some K ∧ KeyState prim K p w' := by
  obtain ⟨rootKey, envelope, x, w₁, hvalid, hseals, -, hafter, rfl⟩ := create_eq_ok h
  refine ⟨rootKey, rfl, ?_, hseals, hvalid, fun k hk => (Option.some.inj hk).symm⟩
  show w₁.db.vaultMeta = some (.ofEnvelope envelope)
  rw [hafter.db]
  rfl

variable {provider}

/-- **Passphrases and the Root Key.** In every run of a program on a vault it created, as long as the
permission step succeeds whenever a rotation gets to it: the stored and the loaded envelope are the
same; the passphrase that opens them is the replacement of the last rotation that succeeded, or the
one of the creation; of passphrases that derive different keys, exactly this one unlocks the vault,
also after it is opened anew; and the key in memory is the Root Key drawn at the creation. The AEAD
need bind only the envelopes of the run, for the passphrases tried on them. -/
theorem passphrase_and_key_state (hprim : prim.OpensSealed) {Q : Set Text}
    (hkdf : prim.KdfInjectiveOn Q) {u : Unit} (hcreate : create prim p w = .ok u w')
    (calls : List VaultCall) (hp : p ∈ Q)
    (hQ : ∀ current replacement, .rotatePassphrase current replacement ∈ calls → replacement ∈ Q)
    (hpermitted : ∀ t ∈ Run.trace (sessionStep prim provider) ⟨w', true⟩ calls,
      ∀ current replacement, t.input = .rotatePassphrase current replacement →
        t.before.world.RotationPermitted)
    (hbound : ∀ t ∈ Run.trace (sessionStep prim provider) ⟨w', true⟩ calls, ∀ q, t.input.Tries q →
      t.before.world.vault.envelope.BoundFor prim Q q)
    (hlast : ∀ q ∈ Q, (Run.final (sessionStep prim provider) ⟨w', true⟩
      calls).world.vault.envelope.BoundFor prim Q q) :
    let x := (Run.final (sessionStep prim provider) ⟨w', true⟩ calls).world
    let q := (Run.trace (sessionStep prim provider) ⟨w', true⟩ calls).foldl passphraseAfter p
    ∃ K, w'.vault.rootKey = some K ∧
      x.db.rootEnvelope prim = .ok x.vault.envelope ∧
      openRootKey prim q x.vault.envelope = .ok K ∧
      (∀ q' ∈ Q, (unlock prim q' x).result = some (.ok ()) ↔ q' = q) ∧
      (∀ y, openVault prim x = .ok () y →
        ∀ q' ∈ Q, (unlock prim q' y).result = some (.ok ()) ↔ q' = q) ∧
      ∀ k, x.vault.rootKey = some k → k = K := by
  intro x q
  obtain ⟨K, hK, hstart⟩ := KeyState.of_create hcreate
  have hsets : ∀ call ∈ calls, ∀ q, call.Sets q → q ∈ Q := by
    intro call hcall q hset
    cases call with
    | rotatePassphrase current replacement =>
      obtain rfl := hset
      exact hQ current _ hcall
    | _ => exact hset.elim
  obtain ⟨hq, hx⟩ := KeyState.run (s := ⟨w', true⟩) provider hprim hp hstart hsets hbound hpermitted
  refine ⟨K, hK, hx.rootEnvelope, hx.seals.openRootKey hprim, fun q' hq' =>
    hx.unlock_iff hprim hkdf hq hq' (hlast q' hq'), fun y hy q' hq' => ?_, hx.held⟩
  obtain ⟨hy', hsame⟩ := hx.triple_openVault.ok_of rfl hy
  exact hy'.unlock_iff hprim hkdf hq hq' (hsame ▸ hlast q' hq')

end

/-! ### Samples -/

/-- The passphrases of the samples. -/
def samplePassphrases : Set Text := {p | p = [112] ∨ p = [113]}

theorem kdfInjectiveOn_samplePassphrases :
    Primitives.transparent.KdfInjectiveOn samplePassphrases := by
  rintro params salt key p (rfl | rfl) q (rfl | rfl) hp hq
  · rfl
  · cases hp.trans hq.symm
  · cases hp.trans hq.symm
  · rfl

/-- A vault on a disk whose state files are as listed at the first permission steps, just
created. -/
def createdOnDisk (files : List StateFiles) : World (OnDisk SampleChannel) :=
  (create .transparent [112] (.blank ⟨⟨.empty, [], Choice.script 24⟩, files⟩)).state

/-- A call of the sample program. -/
abbrev keySession : SessionState (OnDisk SampleChannel) → VaultCall →
    Option (Except VaultError CallResult) × SessionState (OnDisk SampleChannel) :=
  sessionStep .transparent (sampleTrust.provider .transparent)

/-- The passphrase is changed, and the vault opened and unlocked again. -/
def rotationCalls : List VaultCall :=
  [.rotatePassphrase [112] [113], .drop, .reopen, .unlock [113]]

theorem passphrase_and_key_state_sample :
    let x := (Run.final keySession ⟨createdOnDisk [], true⟩ rotationCalls).world
    ∃ K, (createdOnDisk []).vault.rootKey = some K ∧ x.vault.rootKey = some K ∧
      (unlock .transparent [113] x).result = some (.ok ()) ∧
      ¬(unlock .transparent [112] x).result = some (.ok ()) := by
  have hcreate : (create .transparent [112]
      (.blank ⟨⟨.empty, [], Choice.script 24⟩, []⟩ : World (OnDisk SampleChannel))).result =
        some (.ok ()) := by decide +kernel
  have hpermitted : ∀ t ∈ Run.trace keySession ⟨createdOnDisk [], true⟩ rotationCalls,
      ∀ current replacement, t.input = .rotatePassphrase current replacement →
        t.before.world.RotationPermitted := by
    intro t ht current replacement heq
    rcases List.mem_cons.mp ht with rfl | ht
    · unfold World.RotationPermitted
      decide +kernel
    · -- the other calls are no rotations
      have hmem := Run.input_mem _ ht
      rw [heq] at hmem
      simp at hmem
  have hQ : ∀ current replacement, .rotatePassphrase current replacement ∈ rotationCalls →
      replacement ∈ samplePassphrases := by
    intro current replacement hmem
    simp only [rotationCalls, List.mem_cons, VaultCall.rotatePassphrase.injEq, reduceCtorEq,
      List.not_mem_nil, or_false] at hmem
    exact .inr hmem.2
  have hcreated : create .transparent [112] (.blank ⟨⟨.empty, [], Choice.script 24⟩, []⟩) =
      .ok () (createdOnDisk []) := Outcome.eq_ok_of_result hcreate
  obtain ⟨K, hK, -, -, hunlock, -, hheld⟩ := passphrase_and_key_state
    Primitives.idealAead_transparent.toOpensSealed kdfInjectiveOn_samplePassphrases hcreated
    rotationCalls (.inl rfl) hQ hpermitted
    (fun _ _ _ _ => Primitives.idealAead_transparent.boundFor _ _ _)
    fun _ _ => Primitives.idealAead_transparent.boundFor _ _ _
  have hq : (Run.trace keySession ⟨createdOnDisk [], true⟩ rotationCalls).foldl
      passphraseAfter [112] = [113] := by decide +kernel
  have hunlocked : (Run.final keySession ⟨createdOnDisk [], true⟩
      rotationCalls).world.vault.rootKey ≠ none := by decide +kernel
  obtain ⟨k, hk⟩ := Option.ne_none_iff_exists'.mp hunlocked
  unfold keySession at hq hk ⊢
  refine ⟨K, hK, ?_, (hunlock _ (.inr rfl)).mpr hq.symm, fun h => ?_⟩
  · rw [← hheld k hk]
    exact hk
  · cases ((hunlock _ (.inl rfl)).mp h).trans hq

/-- A rotation whose permission step fails reports an error, and the stored envelope is no longer the
one in memory: the vault unlocks with the old passphrase here and with the new one when it is opened
anew. -/
theorem rotation_splits_envelopes :
    let s : SessionState (OnDisk SampleChannel) :=
      ⟨createdOnDisk [.ownerPrivate, .strangeWal], true⟩
    let t := Run.transition keySession s (.rotatePassphrase [112] [113])
    let y := (Run.final keySession s [.rotatePassphrase [112] [113], .drop, .reopen]).world
    t.output = some (.error (.invalidInput "VLT/1 state file type")) ∧
      t.after.world.db.rootEnvelope .transparent ≠ .ok t.after.world.vault.envelope ∧
      (unlock .transparent [112] t.after.world).result = some (.ok ()) ∧
      (unlock .transparent [112] y).result = some (.error .unlockFailed) ∧
      (unlock .transparent [113] y).result = some (.ok ()) := by
  decide +kernel

end Vlt1

import Vlt1.Vault.Frame

/-!
# The strict sweep

A sweep over all active objects that compares the stored receipt of each with a fresh head and
reads the object. `verifyActiveObjectsWithWitness_ok` says what a sweep that returned has seen.
-/

namespace Vlt1

open Effect

section

variable {ω : Type} [Machine ω] {prim : Primitives} {R : World ω → World ω → Prop}

/-- Between `w` and `w'` a challenge was drawn, a head for `o` was obtained for it in a world that
`R` relates to `w`, the head is that of the stored receipt of the active version, and the version
was read. -/
structure FreshHead (R : World ω → World ω → Prop) (prim : Primitives)
    (provider : WitnessProvider ω) (o : ObjectId) (w w' : World ω) (challenge : Block 32)
    (head : WitnessHead) (receipt : WitnessReceipt) : Prop where
  obtained : ∃ (x : World ω) (after : ω), R w x ∧
    provider.objectHead w.vaultId o challenge x.outside = .ok head after
  recorded : ∃ earlier later, w'.history =
    later ++ .headObtained head :: .challengeDrawn challenge :: (earlier ++ w.history)
  active : w.db.selectActive o = .ok receipt.versionId
  stored : w.db.selectReceipt prim receipt.versionId = .ok (some receipt)
  equal : head.Matches receipt
  readable : ∃ x y : World ω, w.Untouched x ∧ getToWriterInner prim o .discard x = .ok () y

/-- A head obtained within a stretch of a run was obtained within the whole. -/
theorem FreshHead.widen [IsTrans (World ω) R] {provider : WitnessProvider ω} {o : ObjectId}
    {w w1 w2 w' : World ω} {c : Block 32} {head : WitnessHead} {r : WitnessReceipt}
    (h : FreshHead R prim provider o w1 w2 c head r) (hR : R w w1) (hbefore : w.Untouched w1)
    (hobserved : w.Observed w1) (hafter : w2.Observed w') :
    FreshHead R prim provider o w w' c head r where
  obtained := by
    obtain ⟨x, a, hx, hhead⟩ := h.obtained
    refine ⟨x, a, IsTrans.trans _ _ _ hR hx, ?_⟩
    rwa [World.vaultId, hbefore.vault] at hhead
  recorded := by
    obtain ⟨earlier, later, hw2⟩ := h.recorded
    obtain ⟨-, seg, hseg, -⟩ := hobserved
    obtain ⟨-, seg', hseg', -⟩ := hafter
    exact ⟨earlier ++ seg, seg' ++ later, by rw [hseg', hw2, hseg]; simp⟩
  active := hbefore.db ▸ h.active
  stored := hbefore.db ▸ h.stored
  equal := h.equal
  readable := by
    obtain ⟨x, y, hx, hread⟩ := h.readable
    exact ⟨x, y, ⟨hx.vault.trans hbefore.vault, hx.db.trans hbefore.db⟩, hread⟩

variable [ReadRelation R] [Exclusive ω] {w w' : World ω} {provider : WitnessProvider ω}

theorem verifyWithWitness_ok {o : ObjectId} {u : Unit}
    (h : verifyWithWitness prim provider o w = .ok u w') :
    ∃ c head r, FreshHead R prim provider o w w' c head r := by
  obtain ⟨stored, w1, hreceipt, h⟩ := Op.bind_eq_ok.mp h
  obtain ⟨-, seg, hseg, -⟩ := (keeps_activeReceipt (R := World.Observed) prim o).of_ok hreceipt
  have hR1 := (keeps_activeReceipt (R := R) prim o).of_ok hreceipt
  cases stored with
  | none => cases h
  | some r =>
    obtain ⟨hactive, -, hstored, hw1⟩ := activeReceipt_ok_some hreceipt
    -- the challenge is drawn and recorded, then the head is obtained and recorded
    obtain ⟨c, w2, hchallenge, h⟩ := Op.bind_eq_ok.mp h
    have hR2 := (keeps_randomWitnessChallenge (R := R)).of_ok hchallenge
    obtain ⟨s, rfl⟩ := randomWitnessChallenge_ok hchallenge
    rw [Op.bind_of_ok (Op.get_apply _)] at h
    obtain ⟨head, w3, hhead, h⟩ := Op.bind_eq_ok.mp h
    obtain ⟨s', hobtained, rfl⟩ := head_ok hhead
    obtain ⟨_, w4, hrequire, hread⟩ := Op.bind_eq_ok.mp h
    obtain ⟨hmatches, rfl⟩ := Op.require_eq_ok.mp hrequire
    obtain ⟨-, seg', hseg', -⟩ :=
      (keeps_getToWriterInner (R := World.Observed) prim o _).of_ok hread
    refine ⟨c, head, r, ⟨_, s', IsTrans.trans _ _ _ hR1 hR2, ?_⟩, ⟨seg, seg', ?_⟩, hactive, hstored,
      hmatches, _, w', ?_, hread⟩
    · rw [World.vaultId, ← hw1.vault]
      exact hobtained
    · rw [hseg', hseg]
    · exact ⟨hw1.vault, hw1.db⟩

/-- A strict sweep that returned has compared every active object with a fresh head, and returned
their number. -/
theorem verifyActiveObjectsWithWitness_ok (hprovider : provider.KeepsHeads R) {n : UInt64}
    (h : verifyActiveObjectsWithWitness prim provider w = .ok n w') :
    w.Untouched w' ∧ R w w' ∧ n.toNat = w.db.objects.rows.length ∧
      ∀ b, w.db.objects.lookup b ≠ none →
        ∃ o c head r, o.blob = b ∧ FreshHead R prim provider o w w' c head r := by
  obtain ⟨_, w1, hkey, hlist⟩ := Op.bind_eq_ok.mp (lockAfterFailure_eq_ok.mp h)
  obtain ⟨-, rfl⟩ := requireRootKey_eq_ok.mp hkey
  obtain ⟨ids, w2, hids, hloop⟩ := Op.bind_eq_ok.mp hlist
  obtain ⟨_, w3, hsweep, hcount⟩ := Op.bind_eq_ok.mp hloop
  obtain ⟨hkeys, -⟩ := activeObjectIds_ok hids
  -- the three relations a reading step keeps, as one
  let S (x y : World ω) : Prop := x.Untouched y ∧ x.Observed y ∧ R x y
  have hrefl : Std.Refl S := ⟨fun x => ⟨Std.Refl.refl x, Std.Refl.refl x, Std.Refl.refl x⟩⟩
  have htrans : IsTrans (World ω) S :=
    ⟨fun x y z h h' => ⟨IsTrans.trans _ _ _ h.1 h'.1, IsTrans.trans _ _ _ h.2.1 h'.2.1,
      IsTrans.trans _ _ _ h.2.2 h'.2.2⟩⟩
  have hverify (u : Unit) (o : ObjectId) : Op.Keeps S (verifyWithWitness prim provider o) :=
    fun x => ⟨keeps_verifyWithWitness prim provider.keeps_untouched o x,
      keeps_verifyWithWitness prim provider.keeps_observed o x,
      keeps_verifyWithWitness prim hprovider o x⟩
  have hlisted : S w w2 := ⟨keeps_activeObjectIds.of_ok hids, keeps_activeObjectIds.of_ok hids,
    keeps_activeObjectIds.of_ok hids⟩
  have hcounted : S w3 w' := ⟨(keeps_countOf ids _).of_ok hcount, (keeps_countOf ids _).of_ok hcount,
    (keeps_countOf ids _).of_ok hcount⟩
  have hall : S w w' := IsTrans.trans _ _ _ hlisted
    (IsTrans.trans _ _ _ ((Op.Keeps.fold hverify () ids).of_ok hsweep) hcounted)
  refine ⟨hall.1, hall.2.2, ?_, fun b hb => ?_⟩
  · obtain ⟨_, w4, hrequire, hreturn⟩ := Op.bind_eq_ok.mp hcount
    have hlt := (Op.require_eq_ok.mp hrequire).1
    cases hreturn
    have hlength := congrArg List.length hkeys
    rw [Database.selectObjectKeys, List.length_map, Table.length_select, List.length_map] at hlength
    rw [UInt64.toNat_ofNat', Nat.mod_eq_of_lt hlt, hlength]
  · -- an object with an active version is one of those listed
    have hkey := Database.mem_selectObjectKeys.mpr hb
    rw [hkeys, List.mem_map] at hkey
    obtain ⟨o, hmem, rfl⟩ := hkey
    obtain ⟨_, _, x, y, hx, hstep, hy⟩ := Op.Keeps.ok_of_mem (R := S) hverify hsweep hmem
    obtain ⟨c, head, r, hfresh⟩ := verifyWithWitness_ok (R := R) hstep
    have hbefore : S w x := IsTrans.trans _ _ _ hlisted hx
    have hafter : S y w' := IsTrans.trans _ _ _ hy hcounted
    exact ⟨o, c, head, r, rfl, hfresh.widen hbefore.2.2 hbefore.1 hbefore.2.1 hafter.2.1⟩

end

end Vlt1

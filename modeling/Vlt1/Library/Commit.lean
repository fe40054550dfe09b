import Mathlib.Tactic.ByContra
import Vlt1.Library.Effect

/-!
# Updates that commit before they are done

An operation on a store makes an update durable and runs a last step after it. When the last step
fails, the operation reports an error although the update stands.

`AllOrNothing` is what a caller would like to conclude from a result: an error means that the store
is as before, a success that the whole update is there. `CommitEffect` lists what an operation of
this kind can do, and `allOrNothing_iff` is the price of its order of steps: the conclusion is right
exactly when the last step succeeds on every update that changes the store.
-/

namespace Effect

variable {ε σ τ α : Type}

/-- From the result of `x` the caller may conclude what became of the store: after an error it is as
before, after a success the whole update is there. -/
structure AllOrNothing (store : σ → τ) (update : τ → Except ε τ) (x : Op ε σ α) (s : σ) : Prop where
  nothing : ∀ e s', x s = .failed e s' → store s' = store s
  all : ∀ a s', x s = .ok a s' → update (store s) = .ok (store s')

/-- Everything an operation can do that commits at most one update, `commits t` saying that it gets
as far as making `t` durable, and then depends on the result of a last step. -/
inductive CommitEffect (store : σ → τ) (update : τ → Except ε τ) (s : σ) (commits : τ → Prop)
    (last : Except ε Unit) : Outcome ε σ α → Prop
  /-- It is refused and the store stays. -/
  | refused {s' : σ} (e : ε) (hnot : ∀ t, ¬commits t) (hstore : store s' = store s) :
      CommitEffect store update s commits last (.failed e s')
  /-- It is cut short before anything is durable. -/
  | died {s' : σ} (hnot : ∀ t, ¬commits t) (hstore : store s' = store s) :
      CommitEffect store update s commits last (.crashed s')
  /-- There was nothing to do. -/
  | idle {s' : σ} (a : α) (hupdate : update (store s) = .ok (store s))
      (hstore : store s' = store s) : CommitEffect store update s commits last (.ok a s')
  /-- The update is durable and the last step succeeds. -/
  | committed {s' : σ} (a : α) (hcommits : commits (store s')) (hlast : last = .ok ()) :
      CommitEffect store update s commits last (.ok a s')
  /-- The update is durable, but the last step fails. -/
  | unreported {s' : σ} (e : ε) (hcommits : commits (store s')) (hlast : last = .error e) :
      CommitEffect store update s commits last (.failed e s')

/-- The result tells what became of the store exactly when the last step succeeds on every update
that changes it. -/
theorem allOrNothing_iff {store : σ → τ} {update : τ → Except ε τ} {s : σ} {commits : τ → Prop}
    {last : Except ε Unit} {x : Op ε σ α} (h : CommitEffect store update s commits last (x s))
    (hupdate : ∀ t, commits t → update (store s) = .ok t) :
    AllOrNothing store update x s ↔ ((∃ t, commits t ∧ t ≠ store s) → last = .ok ()) := by
  generalize houtcome : x s = outcome at h
  constructor
  · rintro hall ⟨t, ht, hne⟩
    cases h with
    | refused e hnot hstore => exact absurd ht (hnot t)
    | died hnot hstore => exact absurd ht (hnot t)
    | idle a hidle hstore => exact absurd (Except.ok.inj ((hupdate t ht).symm.trans hidle)) hne
    | committed a hcommits hlast => exact hlast
    | unreported e hcommits hlast =>
      have hsame := Except.ok.inj ((hupdate t ht).symm.trans (hupdate _ hcommits))
      exact absurd (hsame.trans (hall.nothing e _ houtcome)) hne
  · intro hprivate
    refine ⟨fun e s' hfailed => ?_, fun a s' hok => ?_⟩
    · rw [houtcome] at hfailed
      subst hfailed
      cases h with
      | refused e hnot hstore => exact hstore
      | unreported e hcommits hlast =>
        by_contra hne
        cases hlast.symm.trans (hprivate ⟨_, hcommits, hne⟩)
    · rw [houtcome] at hok
      subst hok
      cases h with
      | idle a hidle hstore => rw [hstore, hidle]
      | committed a hcommits hlast => exact hupdate _ hcommits

end Effect

import Mathlib.Data.List.Infix
import Vlt1.Library.Effect

/-!
# Readers of self-delimiting messages

A reader takes symbols from the front of an input that ends, or breaks, at some point. `Reads x a out`
says that the reader `x` takes exactly the symbols `out` for the value `a`: with anything after them
it returns `a` and leaves what follows, and with less than all of them it reports that the input was
cut off. Such readers compose (`Reads.bind`), and reading a sequence of messages, each with its own
reader, returns the sequence (`Reads.all`).
-/

namespace Framing

open Effect

variable {ε β α γ : Type}

/-- The symbols still to come, and whether the input breaks after them instead of ending. -/
@[ext]
structure Input (β : Type) where
  rest : List β
  broken : Bool

/-- Take `n` symbols; `cut` is reported when the input ends before that and `io` when it breaks. -/
def readExact (cut io : ε) (n : ℕ) : Op ε (Input β) (List β) :=
  fun s =>
    if n ≤ s.rest.length then .ok (s.rest.take n) ⟨s.rest.drop n, s.broken⟩
    else .failed (if s.broken then io else cut) ⟨[], s.broken⟩

/-- The reader takes exactly `out` for `a`. -/
structure Reads (cut : ε) (x : Op ε (Input β) α) (a : α) (out : List β) : Prop where
  whole : ∀ rest broken, x ⟨out ++ rest, broken⟩ = .ok a ⟨rest, broken⟩
  cut_off : ∀ p, p <+: out → p ≠ out → ∃ s, x ⟨p, false⟩ = .failed cut s

namespace Reads

variable {cut io : ε}

theorem pure (a : α) : Reads cut (pure a : Op ε (Input β) α) a [] where
  whole _ _ := rfl
  cut_off _ hp hne := absurd (List.prefix_nil.mp hp) hne

theorem readExact {n : ℕ} (out : List β) (h : out.length = n) :
    Reads cut (Framing.readExact cut io n) out out where
  whole rest broken := by
    subst h
    simp [Framing.readExact]
  cut_off p hp hne := by
    subst h
    have hlt : p.length < out.length := by
      refine lt_of_le_of_ne hp.length_le fun hlen => hne (hp.eq_of_length hlen)
    exact ⟨⟨[], false⟩, by simp [Framing.readExact, hlt]⟩

/-- Two readers in sequence. -/
theorem bind {x : Op ε (Input β) α} {f : α → Op ε (Input β) γ} {a : α} {c : γ} {u v : List β}
    (hx : Reads cut x a u) (hf : Reads cut (f a) c v) : Reads cut (x >>= f) c (u ++ v) where
  whole rest broken := by
    rw [List.append_assoc, Op.bind_of_ok (hx.whole _ broken)]
    exact hf.whole rest broken
  cut_off p hp hne := by
    -- the cut is inside the first part, or behind it and inside the second
    rcases List.prefix_or_prefix_of_prefix hp (List.prefix_append u v) with hpu | hup
    · by_cases heq : p = u
      · subst heq
        have hv : [] ≠ v := fun h => hne (by rw [← h, List.append_nil])
        obtain ⟨s, hs⟩ := hf.cut_off [] List.nil_prefix hv
        refine ⟨s, ?_⟩
        have hwhole := hx.whole [] false
        rw [List.append_nil] at hwhole
        rw [Op.bind_of_ok hwhole, hs]
      · obtain ⟨s, hs⟩ := hx.cut_off p hpu heq
        exact ⟨s, Op.bind_of_failed hs⟩
    · obtain ⟨q, rfl⟩ := hup
      have hqv : q <+: v := (List.prefix_append_right_inj u).mp hp
      obtain ⟨s, hs⟩ := hf.cut_off q hqv fun h => hne (by rw [h])
      exact ⟨s, by rw [Op.bind_of_ok (hx.whole q false), hs]⟩

/-- A check that passes takes nothing. -/
theorem require_bind {p : Prop} [Decidable p] {e : ε} {f : Unit → Op ε (Input β) α} {a : α}
    {out : List β} (h : p) (hf : Reads cut (f ()) a out) :
    Reads cut (Op.require p e >>= f) a out := by
  rw [Op.require_pos h]
  exact hf

/-- A last step that succeeds takes nothing. -/
theorem bind_ofExcept {x : Op ε (Input β) α} {f : α → Except ε γ} {a : α} {c : γ} {out : List β}
    (hx : Reads cut x a out) (hf : f a = .ok c) : Reads cut (x >>= fun a => Op.ofExcept (f a)) c out := by
  have hlast : Reads cut (Op.ofExcept (f a) : Op ε (Input β) γ) c [] := by
    rw [hf]
    exact pure c
  have hboth : Reads cut (x >>= fun a => Op.ofExcept (f a)) c (out ++ []) := hx.bind hlast
  rwa [List.append_nil] at hboth

/-- Give the value a reader returns another form. -/
theorem map {x : Op ε (Input β) α} {a : α} {out : List β} (h : Reads cut x a out) (f : α → γ) :
    Reads cut (do return f (← x)) (f a) out :=
  h.bind_ofExcept (f := fun a => .ok (f a)) rfl

end Reads

/-! ### Readers that look no further -/

/-- What the reader takes does not depend on what follows it. -/
def Local (x : Op ε (Input β) α) : Prop :=
  ∀ {u v : List β} {broken broken' : Bool} {a : α}, x ⟨u, broken⟩ = .ok a ⟨v, broken'⟩ →
    ∀ more, x ⟨u ++ more, broken⟩ = .ok a ⟨v ++ more, broken'⟩

namespace Local

theorem readExact {cut io : ε} {n : ℕ} : Local (Framing.readExact (β := β) cut io n) := by
  intro u v broken broken' a h more
  unfold Framing.readExact at h ⊢
  split at h
  · rename_i hle
    obtain ⟨rfl, hrest⟩ := Outcome.ok.inj h
    obtain ⟨rfl, rfl⟩ := Input.mk.inj hrest
    have hlong : n ≤ (u ++ more).length := by
      rw [List.length_append]
      exact Nat.le_add_right_of_le hle
    rw [if_pos hlong, List.take_append_of_le_length hle, List.drop_append_of_le_length hle]
  · cases h

theorem bind {x : Op ε (Input β) α} {f : α → Op ε (Input β) γ} (hx : Local x)
    (hf : ∀ a, Local (f a)) : Local (x >>= f) := by
  intro u v broken broken' c h more
  obtain ⟨a, ⟨w, broken''⟩, hxa, hfa⟩ := Op.bind_eq_ok.mp h
  rw [Op.bind_of_ok (hx hxa more)]
  exact hf a hfa more

theorem require (p : Prop) [Decidable p] (e : ε) : Local (Op.require p e : Op ε (Input β) Unit) := by
  intro u v broken broken' _ h more
  obtain ⟨hp, hrest⟩ := Op.require_eq_ok.mp h
  obtain ⟨rfl, rfl⟩ := Input.mk.inj hrest
  exact Op.require_eq_ok.mpr ⟨hp, rfl⟩

theorem ofExcept (r : Except ε α) : Local (Op.ofExcept r : Op ε (Input β) α) := by
  intro u v broken broken' _ h more
  obtain ⟨hr, hrest⟩ := Op.ofExcept_eq_ok.mp h
  obtain ⟨rfl, rfl⟩ := Input.mk.inj hrest
  exact Op.ofExcept_eq_ok.mpr ⟨hr, rfl⟩

end Local

/-! ### Sequences of messages -/

variable {κ μ : Type}

/-- Read one message of each kind in a list, in order. -/
def readAll (read : κ → Op ε (Input β) μ) : List κ → Op ε (Input β) (List μ)
  | [] => pure []
  | k :: ks => do
    let m ← read k
    return m :: (← readAll read ks)

/-- Reading messages that were written one after another returns them. -/
theorem Reads.all {cut : ε} {read : κ → Op ε (Input β) μ} {kind : μ → κ} {ms : List (μ × List β)}
    (h : ∀ m ∈ ms, Reads cut (read (kind m.1)) m.1 m.2) :
    Reads cut (readAll read (ms.map fun m => kind m.1)) (ms.map Prod.fst)
      (ms.map Prod.snd).flatten := by
  induction ms with
  | nil => exact Reads.pure []
  | cons m ms ih =>
    have hrest := ih fun m hm => h m (List.mem_cons_of_mem _ hm)
    exact (h m List.mem_cons_self).bind (hrest.map (m.1 :: ·))

end Framing

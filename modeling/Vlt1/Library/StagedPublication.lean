import Mathlib.Data.List.Nodup
import Mathlib.Data.List.Perm.Subperm
import Mathlib.Data.Set.Insert
import Mathlib.Logic.Function.Basic

/-!
# Staged publication against a conditional register

A client keeps an active value for each key and publishes a new one in three steps. It stages the
value durably, together with the number of the value it replaces. It asks a remote register to
acknowledge the staged value. When the register has done so it makes the value active and records
the number under which it was acknowledged.

The register keeps, for each key, the value it acknowledged last and the number it gave to it, drawn
from one counter. It acknowledges a value only for a request that expects the number of the current
head. A request that was sent can reach the register at any later time, any number of times, or
never; `advance` is what the register does when a request arrives whose expectation is met.

`Agreement` relates the two stores. Every step keeps it: `Agreement.stage`, `Agreement.send`,
`Agreement.advance` and `Agreement.finish`. It implies that a staged value is never refused
(`Agreement.processed`) and that its number is recorded once (`Agreement.acknowledged`).
-/

namespace StagedPublication

variable {κ ν : Type}

/-- The number of an entry, zero for an absent one. -/
def number (entry : Option (ν × ℕ)) : ℕ := entry.elim 0 Prod.snd

@[simp] theorem number_none : number (none : Option (ν × ℕ)) = 0 := rfl

@[simp] theorem number_some (v : ν) (n : ℕ) : number (some (v, n)) = n := rfl

/-- The client's and the register's store, and the requests sent. -/
structure State (κ ν : Type) where
  /-- The client's active value of a key, with its number. -/
  active : κ → Option (ν × ℕ)
  /-- The value the client has staged for a key, with the number it expects to replace. -/
  staged : κ → Option (ν × ℕ)
  /-- The value the register acknowledged last, with its number. -/
  head : κ → Option (ν × ℕ)
  /-- The register's counter. -/
  next : ℕ
  /-- The requests sent: a key, a value and the number expected. -/
  sent : Set (κ × ν × ℕ)
  /-- The numbers the client has recorded. -/
  recorded : Set ℕ

namespace State

/-- Nothing was published yet. -/
def initial : State κ ν := ⟨fun _ => none, fun _ => none, fun _ => none, 1, ∅, ∅⟩

/-- The register acknowledged the staged value under a number not yet recorded. -/
def Acknowledged (s : State κ ν) (k : κ) (v : ν) (e : ℕ) : Prop :=
  ∃ n, s.head k = some (v, n) ∧ e < n ∧ n ∉ s.recorded

/-- A request leaves the client. -/
def send (s : State κ ν) (k : κ) (v : ν) (e : ℕ) : State κ ν :=
  { s with sent := insert (k, v, e) s.sent }

variable [DecidableEq κ]

/-- The client stages a value. -/
def stage (s : State κ ν) (k : κ) (v : ν) : State κ ν :=
  { s with staged := Function.update s.staged k (some (v, number (s.active k))) }

/-- The register acknowledges a value. -/
def advance (s : State κ ν) (k : κ) (v : ν) : State κ ν :=
  { s with head := Function.update s.head k (some (v, s.next)), next := s.next + 1 }

/-- An advance sets the head of its own key. -/
theorem head_advance (s : State κ ν) (k k' : κ) (v : ν) :
    (s.advance k v).head k' = if k' = k then some (v, s.next) else s.head k' :=
  Function.update_apply ..

/-- The client makes a staged value active. -/
def finish (s : State κ ν) (k : κ) (v : ν) (n : ℕ) : State κ ν :=
  { s with
    active := Function.update s.active k (some (v, n))
    staged := Function.update s.staged k none
    recorded := insert n s.recorded }

end State

/-- How the client's store and the register's belong together. -/
structure Agreement (s : State κ ν) : Prop where
  /-- Without a staged value, the head is the active value. -/
  settled : ∀ k, s.staged k = none → s.head k = s.active k
  /-- A staged value replaces the active one. -/
  expected : ∀ k v e, s.staged k = some (v, e) → e = number (s.active k)
  /-- With a staged value, the head is the active or the staged one. -/
  unsettled : ∀ k v e, s.staged k = some (v, e) → s.head k = s.active k ∨ s.Acknowledged k v e
  /-- A request is outdated, or it is for the staged value. -/
  sent : ∀ k v e, (k, v, e) ∈ s.sent → e < number (s.head k) ∨ s.staged k = some (v, e)
  positive : ∀ k v n, s.head k = some (v, n) → 0 < n
  below : ∀ k v n, s.head k = some (v, n) → n < s.next
  /-- Two keys never have the same number. -/
  distinct : ∀ k k' v v' n, s.head k = some (v, n) → s.head k' = some (v', n) → k = k'
  recorded : ∀ n ∈ s.recorded, n < s.next
  next_pos : 0 < s.next

namespace Agreement

variable {s : State κ ν} {k : κ} {v : ν} {e n : ℕ}

/-- In the beginning the two sides agree. -/
theorem initial : Agreement (State.initial : State κ ν) where
  settled _ _ := rfl
  expected _ _ _ h := by cases h
  unsettled _ _ _ h := by cases h
  sent _ _ _ h := h.elim
  positive _ _ _ h := by cases h
  below _ _ _ h := by cases h
  distinct _ _ _ _ _ h := by cases h
  recorded _ h := h.elim
  next_pos := Nat.one_pos

/-- When the request for a staged value is processed, it was acknowledged already or its expectation
is met: it is never refused. -/
theorem processed (h : Agreement s) (hk : s.staged k = some (v, e)) :
    s.Acknowledged k v e ∨ number (s.head k) = e := by
  rcases h.unsettled k v e hk with hhead | hack
  · exact .inr (by rw [hhead, h.expected k v e hk])
  · exact .inl hack

/-- There are fewer keys with a number below a bound than the bound says: zero is not given out. -/
theorem length_lt (h : Agreement s) {l : List κ} (hl : l.Nodup) {bound : ℕ} (hbound : 0 < bound)
    (hheads : ∀ k ∈ l, ∃ v n, s.head k = some (v, n) ∧ n < bound) : l.length < bound := by
  have hnodup : (0 :: l.map fun k => number (s.head k)).Nodup := by
    refine List.nodup_cons.mpr ⟨fun hzero => ?_, List.Nodup.map_on (fun k hk k' hk' heq => ?_) hl⟩
    · obtain ⟨k, hk, hn⟩ := List.mem_map.mp hzero
      obtain ⟨v, n, hhead, -⟩ := hheads k hk
      rw [hhead, number_some] at hn
      exact (h.positive k v n hhead).ne' hn
    · obtain ⟨v, n, hhead, -⟩ := hheads k hk
      obtain ⟨v', n', hhead', -⟩ := hheads k' hk'
      rw [hhead, hhead', number_some, number_some] at heq
      exact h.distinct k k' v v' n hhead (heq ▸ hhead')
  have hbelow : (0 :: l.map fun k => number (s.head k)) ⊆ List.range bound := by
    refine List.cons_subset.mpr ⟨List.mem_range.mpr hbound, fun n hn => ?_⟩
    obtain ⟨k, hk, rfl⟩ := List.mem_map.mp hn
    obtain ⟨v, n, hhead, hlt⟩ := hheads k hk
    rwa [List.mem_range, hhead, number_some]
  have hle := hnodup.length_le_of_subset hbelow
  rwa [List.length_cons, List.length_map, List.length_range] at hle

/-- The number of an active value is below the counter. -/
theorem number_active_lt (h : Agreement s) (k : κ) : number (s.active k) < s.next := by
  have hhead : number (s.head k) < s.next := by
    cases hs : s.head k with
    | none => exact h.next_pos
    | some entry => exact h.below k entry.1 entry.2 hs
  cases hk : s.staged k with
  | none => rw [← h.settled k hk]; exact hhead
  | some entry =>
    rcases h.unsettled k entry.1 entry.2 hk with hsame | ⟨n, hn, hlt, -⟩
    · rw [← hsame]; exact hhead
    · rw [← h.expected k entry.1 entry.2 hk]
      exact hlt.trans (h.below k _ n hn)

/-- A value the register acknowledged under a number above the expected one, while it is staged, is
not yet recorded. -/
theorem acknowledged (h : Agreement s) (hk : s.staged k = some (v, e)) (hhead : s.head k = some (v, n))
    (hn : e < n) : s.Acknowledged k v e := by
  rcases h.processed hk with hack | hnumber
  · exact hack
  · rw [hhead, number_some] at hnumber
    omega

/-- A request that meets the head's number is the one for the staged value. -/
theorem staged_of_sent (h : Agreement s) (hsent : (k, v, e) ∈ s.sent)
    (he : number (s.head k) = e) : s.staged k = some (v, e) := by
  rcases h.sent k v e hsent with hlt | hk
  · omega
  · exact hk

/-- A request for what is staged keeps the agreement. -/
theorem send (h : Agreement s) (hk : s.staged k = some (v, e)) : Agreement (s.send k v e) where
  settled := h.settled
  expected := h.expected
  unsettled := h.unsettled
  sent k' v' e' hmem := by
    rcases Set.mem_insert_iff.mp hmem with heq | hmem
    · obtain ⟨rfl, rfl, rfl⟩ : k' = k ∧ v' = v ∧ e' = e := by simpa using heq
      exact .inr hk
    · exact h.sent k' v' e' hmem
  positive := h.positive
  below := h.below
  distinct := h.distinct
  recorded := h.recorded
  next_pos := h.next_pos

variable [DecidableEq κ]

/-- Where nothing is staged a value may be staged. -/
theorem stage (h : Agreement s) (hk : s.staged k = none) : Agreement (s.stage k v) where
  settled k' hk' := by
    by_cases heq : k' = k
    · subst heq
      simp [State.stage] at hk'
    · exact h.settled k' (by simpa [State.stage, heq] using hk')
  expected k' v' e' hk' := by
    by_cases heq : k' = k
    · subst heq
      simp only [State.stage, Function.update_self, Option.some.injEq, Prod.mk.injEq] at hk'
      exact hk'.2.symm
    · exact h.expected k' v' e' (by simpa [State.stage, heq] using hk')
  unsettled k' v' e' hk' := by
    by_cases heq : k' = k
    · -- nothing was staged, so the head is still the active value
      subst heq
      exact .inl (h.settled k' hk)
    · exact h.unsettled k' v' e' (by simpa [State.stage, heq] using hk')
  sent k' v' e' hmem := by
    rcases h.sent k' v' e' hmem with hlt | hk'
    · exact .inl hlt
    · by_cases heq : k' = k
      · subst heq
        rw [hk] at hk'
        cases hk'
      · exact .inr (by simpa [State.stage, heq] using hk')
  positive := h.positive
  below := h.below
  distinct := h.distinct
  recorded := h.recorded
  next_pos := h.next_pos

/-- A request that was sent and names the number of the head may advance it: it is the staged one.
-/
theorem advance (h : Agreement s) (hsent : (k, v, e) ∈ s.sent) (he : number (s.head k) = e) :
    Agreement (s.advance k v) := by
  have hk := h.staged_of_sent hsent he
  -- the new number is the counter's, above every number there is
  have hnew : ∀ n, n ∈ s.recorded ∨ (∃ k' v', s.head k' = some (v', n)) → n < s.next := by
    rintro n (hn | ⟨k', v', hn⟩)
    · exact h.recorded n hn
    · exact h.below k' v' n hn
  have hlt : e < s.next := by
    rw [h.expected k v e hk]
    exact h.number_active_lt k
  refine { settled := ?_, expected := h.expected, unsettled := ?_, sent := ?_, positive := ?_,
           below := ?_, distinct := ?_, recorded := ?_, next_pos := Nat.succ_pos _ }
  · intro k' hk'
    have hne : k' ≠ k := by
      rintro rfl
      rw [show s.staged k' = none from hk'] at hk
      cases hk
    rw [State.head_advance, if_neg hne]
    exact h.settled k' hk'
  · intro k' v' e' hk'
    by_cases heq : k' = k
    · subst heq
      obtain ⟨rfl, rfl⟩ : v' = v ∧ e' = e := by simpa using hk'.symm.trans hk
      refine .inr ⟨s.next, by rw [State.head_advance, if_pos rfl], hlt, fun hmem => ?_⟩
      exact absurd (hnew _ (.inl hmem)) (Nat.lt_irrefl _)
    · rcases h.unsettled k' v' e' hk' with hhead | ⟨n, hn, hrest⟩
      · exact .inl (by rw [State.head_advance, if_neg heq]; exact hhead)
      · exact .inr ⟨n, by rw [State.head_advance, if_neg heq]; exact hn, hrest⟩
  · intro k' v' e' hmem
    rw [State.head_advance]
    by_cases heq : k' = k
    · subst heq
      rw [if_pos rfl, number_some]
      rcases h.sent k' v' e' hmem with hlt' | hk'
      · exact .inl (by omega)
      · exact .inr hk'
    · rw [if_neg heq]
      exact h.sent k' v' e' hmem
  · intro k' v' n hn
    rw [State.head_advance] at hn
    split at hn
    · obtain ⟨-, rfl⟩ : v = v' ∧ s.next = n := by simpa using hn
      exact h.next_pos
    · exact h.positive k' v' n hn
  · intro k' v' n hn
    rw [State.head_advance] at hn
    show n < s.next + 1
    split at hn
    · obtain ⟨-, rfl⟩ : v = v' ∧ s.next = n := by simpa using hn
      exact Nat.lt_succ_self _
    · exact (h.below k' v' n hn).trans (Nat.lt_succ_self _)
  · intro k1 k2 v1 v2 n h1 h2
    rw [State.head_advance] at h1 h2
    split at h1
    · rename_i heq1
      split at h2
      · rename_i heq2
        rw [heq1, heq2]
      · obtain ⟨-, rfl⟩ : v = v1 ∧ s.next = n := by simpa using h1
        exact absurd (hnew _ (.inr ⟨k2, v2, h2⟩)) (Nat.lt_irrefl _)
    · split at h2
      · obtain ⟨-, rfl⟩ : v = v2 ∧ s.next = n := by simpa using h2
        exact absurd (hnew _ (.inr ⟨k1, v1, h1⟩)) (Nat.lt_irrefl _)
      · exact h.distinct k1 k2 v1 v2 n h1 h2
  · intro n hn
    exact (h.recorded n hn).trans (Nat.lt_succ_self _)

/-- What is staged may become active when the head says so. -/
theorem finish (h : Agreement s) (hk : s.staged k = some (v, e)) (hhead : s.head k = some (v, n))
    (hn : e < n) : Agreement (s.finish k v n) := by
  have hactive : ∀ k', k' ≠ k → (s.finish k v n).active k' = s.active k' := fun k' hne =>
    Function.update_of_ne hne ..
  have hstaged : ∀ k' v' e', (s.finish k v n).staged k' = some (v', e') →
      k' ≠ k ∧ s.staged k' = some (v', e') := by
    intro k' v' e' hk'
    by_cases heq : k' = k
    · subst heq
      simp [State.finish] at hk'
    · exact ⟨heq, by simpa [State.finish, heq] using hk'⟩
  refine { settled := ?_, expected := ?_, unsettled := ?_, sent := ?_, positive := h.positive,
           below := h.below, distinct := h.distinct, recorded := ?_, next_pos := h.next_pos }
  · intro k' hk'
    by_cases heq : k' = k
    · subst heq
      simpa [State.finish] using hhead
    · rw [hactive k' heq]
      exact h.settled k' (by simpa [State.finish, heq] using hk')
  · intro k' v' e' hk'
    obtain ⟨hne, hk'⟩ := hstaged k' v' e' hk'
    rw [hactive k' hne]
    exact h.expected k' v' e' hk'
  · intro k' v' e' hk'
    obtain ⟨hne, hk'⟩ := hstaged k' v' e' hk'
    rw [hactive k' hne]
    refine (h.unsettled k' v' e' hk').imp id ?_
    rintro ⟨n', hn', hlt, hnot⟩
    refine ⟨n', hn', hlt, fun hmem => ?_⟩
    -- the number recorded now belongs to another key
    rcases Set.mem_insert_iff.mp hmem with rfl | hmem
    · exact hne (h.distinct k' k v' v n' hn' hhead)
    · exact hnot hmem
  · intro k' v' e' hmem
    rcases h.sent k' v' e' hmem with hlt | hk'
    · exact .inl hlt
    · by_cases heq : k' = k
      · subst heq
        obtain ⟨rfl, rfl⟩ : v = v' ∧ e = e' := by simpa using hk.symm.trans hk'
        exact .inl (by rw [show (s.finish k' v n).head k' = _ from hhead]; exact hn)
      · exact .inr (by simpa [State.finish, heq] using hk')
  · intro m hm
    rcases Set.mem_insert_iff.mp hm with rfl | hm
    · exact h.below k v m hhead
    · exact h.recorded m hm

end Agreement

/-! ### What requests on their way leave alone -/

variable [DecidableEq κ]

/-- A property of the two stores that the arrival of requests does not change. -/
def Stable (P : State κ ν → Prop) : Prop :=
  ∀ s k v e, Agreement s → (k, v, e) ∈ s.sent → number (s.head k) = e → P s → P (s.advance k v)

namespace Stable

/-- Two stable properties are stable together. -/
theorem and {P Q : State κ ν → Prop} (hP : Stable P) (hQ : Stable Q) :
    Stable fun s => P s ∧ Q s :=
  fun s k v e h hsent he hs => ⟨hP s k v e h hsent he hs.1, hQ s k v e h hsent he hs.2⟩

/-- Requests do not touch the client's store. -/
theorem client (P : (κ → Option (ν × ℕ)) → (κ → Option (ν × ℕ)) → Prop) :
    Stable fun s => P s.active s.staged :=
  fun _ _ _ _ _ _ _ h => h

/-- Once a staged value is acknowledged, its key's head stays. -/
theorem acknowledged {k : κ} {v : ν} {e n : ℕ} (hn : e < n) :
    Stable fun s : State κ ν => s.staged k = some (v, e) ∧ s.head k = some (v, n) := by
  rintro s k' v' e' h hsent he ⟨hk, hhead⟩
  refine ⟨hk, ?_⟩
  rw [State.head_advance, if_neg]
  · exact hhead
  · rintro rfl
    have hk' := h.staged_of_sent hsent he
    obtain ⟨-, rfl⟩ : v = v' ∧ e = e' := by simpa using hk.symm.trans hk'
    rw [hhead, number_some] at he
    omega

end Stable

/-! ### Room for the numbers still to come -/

/-- The counter stays below `bound` even after every staged value is acknowledged. -/
def HasRoom (bound : ℕ) (s : State κ ν) : Prop :=
  ∃ keys : List κ, (∀ k v e, s.staged k = some (v, e) → ¬s.Acknowledged k v e → k ∈ keys) ∧
    s.next + keys.length < bound

namespace HasRoom

variable {bound : ℕ} {s : State κ ν} {k : κ} {v : ν} {e n : ℕ}

omit [DecidableEq κ] in
/-- A staged value that is not acknowledged can still be. -/
theorem next_lt (h : HasRoom bound s) (hk : s.staged k = some (v, e))
    (hnot : ¬s.Acknowledged k v e) : s.next + 1 < bound := by
  obtain ⟨keys, hkeys, hlt⟩ := h
  have hpos := List.length_pos_of_mem (hkeys k v e hk hnot)
  omega

omit [DecidableEq κ] in
/-- Room below a bound is room below a larger one. -/
theorem mono {bound' : ℕ} (h : HasRoom bound s) (hle : bound ≤ bound') : HasRoom bound' s := by
  obtain ⟨keys, hkeys, hlt⟩ := h
  exact ⟨keys, hkeys, hlt.trans_le hle⟩

omit [DecidableEq κ] in
theorem send (h : HasRoom bound s) : HasRoom bound (s.send k v e) := h

/-- An advance that is possible has been allowed for. -/
theorem advance : Stable fun s : State κ ν => HasRoom bound s := by
  rintro s k v e hs hsent he ⟨keys, hkeys, hlt⟩
  have hk := hs.staged_of_sent hsent he
  have hnot : ¬s.Acknowledged k v e := by
    rintro ⟨n, hn, hlt', -⟩
    rw [hn, number_some] at he
    omega
  have hmem := hkeys k v e hk hnot
  refine ⟨keys.erase k, fun k' v' e' hk' hnot' => ?_, ?_⟩
  · -- the key acknowledged now needs no further number
    have hne : k' ≠ k := by
      rintro rfl
      obtain ⟨rfl, rfl⟩ : v' = v ∧ e' = e := by simpa using hk'.symm.trans hk
      refine hnot' ((hs.advance hsent he).acknowledged (n := s.next) hk' ?_ ?_)
      · rw [State.head_advance, if_pos rfl]
      · rw [hs.expected k' v' e' hk]
        exact hs.number_active_lt k'
    refine (List.mem_erase_of_ne hne).mpr (hkeys k' v' e' hk' fun hack => hnot' ?_)
    obtain ⟨n, hn, hrest⟩ := hack
    exact ⟨n, by rw [State.head_advance, if_neg hne]; exact hn, hrest⟩
  · have hlength := List.length_erase_of_mem hmem
    have hpos := List.length_pos_of_mem hmem
    show s.next + 1 + (keys.erase k).length < bound
    omega

/-- A value staged now needs one number more. -/
theorem stage (h : HasRoom bound s) : HasRoom (bound + 1) (s.stage k v) := by
  obtain ⟨keys, hkeys, hlt⟩ := h
  refine ⟨k :: keys, fun k' v' e' hk' hnot => ?_, ?_⟩
  · by_cases hne : k' = k
    · exact hne ▸ List.mem_cons_self
    · refine List.mem_cons_of_mem _ (hkeys k' v' e' ?_ hnot)
      simpa [State.stage, hne] using hk'
  · rw [List.length_cons]
    show s.next + (keys.length + 1) < bound + 1
    omega

/-- Finishing uses up the room that staging has set aside. -/
theorem finish (h : HasRoom bound s) (hs : Agreement s) (hk : s.staged k = some (v, e))
    (hhead : s.head k = some (v, n)) : HasRoom bound (s.finish k v n) := by
  obtain ⟨keys, hkeys, hlt⟩ := h
  refine ⟨keys, fun k' v' e' hk' hnot => ?_, hlt⟩
  by_cases hne : k' = k
  · subst hne
    simp [State.finish] at hk'
  · refine hkeys k' v' e' (by simpa [State.finish, hne] using hk') ?_
    rintro ⟨n', hn', hlt', hrec⟩
    refine hnot ⟨n', hn', hlt', fun hmem => ?_⟩
    rcases Set.mem_insert_iff.mp hmem with rfl | hmem
    · exact hne (hs.distinct k' k v' v n' hn' hhead)
    · exact hrec hmem

omit [DecidableEq κ] in
/-- Fewer values are staged than there are numbers: those acknowledged have one each, and the others
have one reserved. -/
theorem length_lt (h : HasRoom bound s) (hs : Agreement s) {l : List κ} (hl : l.Nodup)
    (hstaged : ∀ k ∈ l, s.staged k ≠ none) : l.length < bound := by
  classical
  obtain ⟨keys, hkeys, hlt⟩ := h
  let answered (k : κ) : Prop := ∃ v e, s.staged k = some (v, e) ∧ s.Acknowledged k v e
  have hanswered : (l.filter fun k => decide (answered k)).length < s.next := by
    refine hs.length_lt (hl.filter _) hs.next_pos fun k hk => ?_
    obtain ⟨v, e, -, n, hn, -⟩ := of_decide_eq_true (List.mem_filter.mp hk).2
    exact ⟨v, n, hn, hs.below k v n hn⟩
  have hwaiting : (l.filter fun k => !decide (answered k)).length ≤ keys.length := by
    refine (hl.filter _).length_le_of_subset fun k hk => ?_
    obtain ⟨hmem, hnot⟩ := List.mem_filter.mp hk
    obtain ⟨entry, hentry⟩ := Option.ne_none_iff_exists'.mp (hstaged k hmem)
    refine hkeys k entry.1 entry.2 hentry fun hack => ?_
    simp only [Bool.not_eq_eq_eq_not, Bool.not_true, decide_eq_false_iff_not] at hnot
    exact hnot ⟨entry.1, entry.2, hentry, hack⟩
  have hsum := List.length_eq_length_filter_add (l := l) fun k => decide (answered k)
  omega

end HasRoom

/-! ### How much is staged -/

section

variable {s : State κ ν} {k : κ} {v : ν} {n : ℕ}

omit [DecidableEq κ]

/-- Nothing is staged. -/
def State.Unstaged (s : State κ ν) : Prop := ∀ k, s.staged k = none

/-- At most one key has a staged value. -/
def State.OneStaged (s : State κ ν) : Prop :=
  ∀ k k', s.staged k ≠ none → s.staged k' ≠ none → k = k'

/-- Where nothing is staged, at most one value is. -/
theorem State.Unstaged.oneStaged (h : s.Unstaged) : s.OneStaged := fun k _ hk _ => absurd (h k) hk

/-- A list without repetitions whose members are all the same. -/
theorem length_le_one {α : Type} {l : List α} (hl : l.Nodup) (hsame : ∀ a ∈ l, ∀ b ∈ l, a = b) :
    l.length ≤ 1 := by
  cases l with
  | nil => exact Nat.zero_le 1
  | cons a rest =>
    have heq := List.eq_replicate_of_mem fun b hb => hsame b hb a List.mem_cons_self
    rw [heq] at hl
    exact List.nodup_replicate.mp hl

/-- Of different keys at most one is staged. -/
theorem State.OneStaged.length_le (h : s.OneStaged) {l : List κ} (hl : l.Nodup)
    (hstaged : ∀ k ∈ l, s.staged k ≠ none) : l.length ≤ 1 :=
  length_le_one hl fun k hk k' hk' => h k k' (hstaged k hk) (hstaged k' hk')

variable [DecidableEq κ]

/-- Staging after nothing was staged leaves one. -/
theorem State.Unstaged.stage (h : s.Unstaged) : (s.stage k v).OneStaged := by
  have hkey : ∀ k', (s.stage k v).staged k' ≠ none → k' = k := by
    intro k' hk'
    by_contra hne
    exact hk' (by simpa [State.stage, hne] using h k')
  intro k1 k2 h1 h2
  rw [hkey k1 h1, hkey k2 h2]

/-- Finishing the only one leaves none. -/
theorem State.OneStaged.finish (h : s.OneStaged) (hk : s.staged k ≠ none) :
    (s.finish k v n).Unstaged := by
  intro k'
  by_cases hne : k' = k
  · simp [State.finish, hne]
  · have hnone : s.staged k' = none := by
      by_contra hk'
      exact hne (h k' k hk' hk)
    simpa [State.finish, hne] using hnone

end

end StagedPublication

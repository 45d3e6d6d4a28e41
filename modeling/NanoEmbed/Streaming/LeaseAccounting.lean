/-
  File:      NanoEmbed/Streaming/LeaseAccounting.lean
  Subject:   THE LEASE COUNTERS OF THE COORDINATOR, OVER WHOLE RUNS.

  * `Accounts` -- what the counters, the table of active leases and the history say of each other;
  * `SameAccounts` -- what advice calls, the recorded peak and a refused acquisition leave alone;
  * `release_cases` -- everything `release` can do, once;
  * `Unique` -- no two `Lease` objects own one lease: moves hand it on, they never copy it;
  * `lease_accounting` -- the result, for every sequence of operations and every answer of the
    mapping.

  Owning objects have distinct ids, so each id is handed to `release` by one object; and the
  object gives up its owner before the coordinator is called, so it does so once.
-/
import NanoEmbed.Streaming.ResidencyRuns
import Mathlib.Algebra.BigOperators.Group.Finset.Basic

namespace NanoEmbed.Streaming

open Fallible Transition

/-- How often a lease was given back. -/
def returns (id : Nat) (es : List Event) : Nat :=
  es.countP fun
    | .returned i _ => i = id
    | _ => false

theorem returns_returned (id i : Nat) (key : String) (es : List Event) :
    returns id (.returned i key :: es) = returns id es + if i = id then 1 else 0 := by
  unfold returns
  rw [List.countP_cons]
  congr 1
  by_cases h : i = id <;> simp [h]

namespace Coordinator

/-! ## 1. The counters -/

/-- **The counters agree with the table**, and no lease was given back twice. -/
structure Accounts (c : Coordinator) : Prop where
  active : c.diag.activeLeases = c.active.length
  acquired : c.diag.leasesAcquired = c.diag.leasesReleased + c.diag.activeLeases
  completions : c.diag.computeCompletions = c.diag.leasesReleased
  once : ∀ id, returns id c.events ≤ 1
  out : ∀ e ∈ c.active, returns e.1 c.events = 0
  unused : ∀ id, c.nextId ≤ id → returns id c.events = 0

/-- `c'` has the lease table and the lease counters of `c`, and is poisoned where `c` was. -/
structure SameAccounts (c c' : Coordinator) : Prop where
  nextId : c'.nextId = c.nextId
  active : c'.active = c.active
  acquired : c'.diag.leasesAcquired = c.diag.leasesAcquired
  released : c'.diag.leasesReleased = c.diag.leasesReleased
  activeLeases : c'.diag.activeLeases = c.diag.activeLeases
  completions : c'.diag.computeCompletions = c.diag.computeCompletions
  returns : ∀ id, returns id c'.events = returns id c.events
  poisoned : c.diag.poisoned = true → c'.diag.poisoned = true

theorem SameAccounts.refl (c : Coordinator) : SameAccounts c c :=
  ⟨rfl, rfl, rfl, rfl, rfl, rfl, fun _ => rfl, id⟩

theorem SameAccounts.trans {c c' c'' : Coordinator} (h : SameAccounts c c')
    (h' : SameAccounts c' c'') : SameAccounts c c'' :=
  ⟨h'.nextId.trans h.nextId, h'.active.trans h.active, h'.acquired.trans h.acquired,
    h'.released.trans h.released, h'.activeLeases.trans h.activeLeases,
    h'.completions.trans h.completions, fun id => (h'.returns id).trans (h.returns id),
    h'.poisoned ∘ h.poisoned⟩

theorem Accounts.congr {c c' : Coordinator} (h : c.Accounts) (same : SameAccounts c c') :
    c'.Accounts where
  active := by rw [same.activeLeases, same.active]; exact h.active
  acquired := by rw [same.acquired, same.released, same.activeLeases]; exact h.acquired
  completions := by rw [same.completions, same.released]; exact h.completions
  once := fun id => by rw [same.returns]; exact h.once id
  out := fun e he => by rw [same.returns]; exact h.out e (same.active ▸ he)
  unused := fun id hid => by rw [same.returns]; exact h.unused id (same.nextId ▸ hid)

theorem called_sameAccounts (c : Coordinator) (kind : AdviceKind) (range : StreamingByteRange)
    (ok : Bool) : SameAccounts c (c.called kind range ok) := by
  cases kind <;> exact ⟨rfl, rfl, rfl, rfl, rfl, rfl, fun _ => rfl, id⟩

theorem calledAll_sameAccounts (c : Coordinator) (kind : AdviceKind)
    (ranges : List StreamingByteRange) : SameAccounts c (c.calledAll kind ranges) := by
  induction ranges generalizing c with
  | nil => exact SameAccounts.refl c
  | cons range ranges ih => exact (called_sameAccounts c kind range true).trans (ih _)

theorem adviseAll_sameAccounts (advice : Advice) (kind : AdviceKind)
    (ranges : List StreamingByteRange) (c : Coordinator) :
    SameAccounts c (adviseAll advice kind ranges c).2 := by
  rcases adviseAll_cases advice kind ranges c with ⟨_, h⟩ | ⟨pre, r, _, _, _, _, h⟩ <;> rw [h]
  · exact calledAll_sameAccounts c kind ranges
  · exact (calledAll_sameAccounts c kind pre).trans (called_sameAccounts _ kind r false)

theorem poison_sameAccounts (c : Coordinator) : SameAccounts c c.poison :=
  ⟨rfl, rfl, rfl, rfl, rfl, rfl, fun _ => rfl, fun _ => rfl⟩

theorem noteAdvisedPeak_sameAccounts {c c' : Coordinator} (h : c.noteAdvisedPeak = .ok c') :
    SameAccounts c c' := by
  obtain ⟨current, _, hok⟩ := bind_eq_ok.mp h
  rw [← Except.ok.inj hok]
  exact ⟨rfl, rfl, rfl, rfl, rfl, rfl, fun _ => rfl, id⟩

theorem noteTokenRows_sameAccounts (c : Coordinator) (ranges : List StreamingByteRange) :
    SameAccounts c (c.noteTokenRows ranges).2 := by
  unfold noteTokenRows
  split
  · exact SameAccounts.refl c
  · dsimp only
    split
    · exact ⟨rfl, rfl, rfl, rfl, rfl, rfl, fun _ => rfl, id⟩
    · exact ⟨rfl, rfl, rfl, rfl, rfl, rfl, fun _ => rfl, id⟩

theorem retainCommon_sameAccounts (advice : Advice) (ranges : List StreamingByteRange)
    (c : Coordinator) : SameAccounts c (c.retainCommon advice ranges).2 := by
  unfold retainCommon
  split
  · exact SameAccounts.refl c
  · have hsame := adviseAll_sameAccounts advice .willNeed ranges c
    split
    · rename_i hrun
      rw [hrun] at hsame
      exact hsame
    · rename_i c1 hrun
      rw [hrun] at hsame
      have hretain : SameAccounts c1 (c1.retain ranges) :=
        ⟨rfl, rfl, rfl, rfl, rfl, rfl, fun _ => rfl, id⟩
      have hbytes : ∀ n, SameAccounts c1 { c1.retain ranges with commonBytes := n } :=
        fun _ => ⟨rfl, rfl, rfl, rfl, rfl, rfl, fun _ => rfl, id⟩
      dsimp only
      split
      · exact hsame.trans hretain
      · split
        · exact hsame.trans (hbytes _)
        · rename_i hpeak
          exact (hsame.trans (hbytes _)).trans (noteAdvisedPeak_sameAccounts hpeak)

/-! ## 2. Acquire and release -/

/-- **`acquire` registers one lease or none**: after a refused call the accounts are as before, and
    past the advice they are those of the registered lease, whatever a later step throws. -/
theorem acquire_accounts (advice : Advice) (key : String) (ranges : List StreamingByteRange)
    (tokenRows : Bool) (c : Coordinator) :
    (∃ e, (c.acquire advice key ranges tokenRows).1 = .error e ∧
        SameAccounts c (c.acquire advice key ranges tokenRows).2) ∨
      SameAccounts (c.registered key ranges) (c.acquire advice key ranges tokenRows).2 ∧
        ∀ l, (c.acquire advice key ranges tokenRows).1 = .ok l →
          l = ⟨true, c.nextId, key, tokenRows, false⟩ := by
  unfold acquire
  split
  · exact Or.inl ⟨_, rfl, SameAccounts.refl c⟩
  · split
    · exact Or.inl ⟨_, rfl, SameAccounts.refl c⟩
    · have hsame := adviseAll_sameAccounts advice .willNeed ranges c
      rcases adviseAll_cases advice .willNeed ranges c with
        ⟨_, hrun⟩ | ⟨pre, range, post, error, _, _, hrun⟩ <;> rw [hrun] at hsame ⊢
      · refine Or.inr ?_
        have hid : (c.calledAll .willNeed ranges).nextId = c.nextId := hsame.nextId
        dsimp only
        rw [show (c.calledAll .willNeed ranges).register key ranges = c.registered key ranges
          from rfl, hid]
        cases hpeak : (c.registered key ranges).noteAdvisedPeak with
        | error e => exact ⟨SameAccounts.refl _, fun l hl => by cases hl⟩
        | ok c1 =>
            have h1 := noteAdvisedPeak_sameAccounts hpeak
            dsimp only
            split
            · have h2 := noteTokenRows_sameAccounts c1 ranges
              split <;> rename_i hrows <;> rw [hrows] at h2
              · exact ⟨h1.trans h2, fun l hl => by cases hl⟩
              · exact ⟨h1.trans h2, fun l hl => by cases hl; rfl⟩
            · exact ⟨h1, fun l hl => by cases hl; rfl⟩
      · exact Or.inl ⟨_, rfl, hsame⟩

theorem Accounts.register {c : Coordinator} (h : c.Accounts) (key : String)
    (ranges : List StreamingByteRange) : (c.register key ranges).Accounts where
  active := by
    show c.diag.activeLeases + 1 = (c.active ++ [(c.nextId, _)]).length
    rw [h.active, List.length_append]
    rfl
  acquired := by
    show c.diag.leasesAcquired + 1 = c.diag.leasesReleased + (c.diag.activeLeases + 1)
    rw [h.acquired]
    omega
  completions := h.completions
  once := h.once
  out := fun e he => by
    rcases List.mem_append.mp he with he | he
    · exact h.out e he
    · rw [List.mem_singleton.mp he]
      exact h.unused c.nextId (le_refl _)
  unused := fun id hid => h.unused id (Nat.le_of_succ_le hid)

/-- **Everything `release` can do**: the lease is not on the books; its compute is not complete; the
    region has no holder; or the lease is taken off the books, whatever the drop then throws. -/
theorem release_cases (advice : Advice) (id : Nat) (key : String) (computeComplete : Bool)
    (c : Coordinator) :
    ((∀ e ∈ c.active, e.1 ≠ id) ∧ c.release advice id key computeComplete = (.ok (), c)) ∨
      (∃ e ∈ c.active, e.1 = id) ∧
        ((computeComplete = false ∧ c.release advice id key computeComplete =
            (.error (.runtimeError "streaming lease released before synchronous compute completed"),
              { c with diag := { c.diag with
                prematureReleaseAttempts := c.diag.prematureReleaseAttempts + 1
                poisoned := true } })) ∨
          computeComplete = true ∧
            let c1 := { c with diag := { c.diag with
              computeCompletions := c.diag.computeCompletions + 1 } }
            ((c.regions key).count = 0 ∧ c.release advice id key computeComplete =
                (.error (.runtimeError "streaming lease accounting underflow"), c1.poison)) ∨
              ((c.regions key).count ≠ 0 ∧ c.release advice id key computeComplete =
                if ((c1.unregister id key).regions key).count ≠ 0 then
                  (.ok (), c1.unregister id key)
                else (c1.unregister id key).dropPending advice key)) := by
  unfold release
  by_cases hall : c.active.all (·.1 ≠ id) = true
  · refine Or.inl ⟨?_, by rw [if_pos hall]⟩
    simpa only [List.all_eq_true, decide_eq_true_iff] using hall
  · refine Or.inr ⟨?_, ?_⟩
    · simpa only [List.all_eq_true, not_forall, decide_eq_true_iff, not_not, exists_prop] using hall
    · rw [if_neg hall]
      cases computeComplete with
      | false => exact Or.inl ⟨rfl, rfl⟩
      | true =>
          refine Or.inr ⟨rfl, ?_⟩
          dsimp only
          by_cases hzero : (c.regions key).count = 0
          · exact Or.inl ⟨hzero, by rw [if_neg (by simp), if_pos hzero]⟩
          · exact Or.inr ⟨hzero, by rw [if_neg (by simp), if_neg hzero]⟩

theorem dropPending_sameAccounts (advice : Advice) (key : String) (c : Coordinator) :
    SameAccounts c (c.dropPending advice key).2 := by
  have hclear : SameAccounts c (c.clearPending key) :=
    ⟨rfl, rfl, rfl, rfl, rfl, rfl, fun _ => rfl, id⟩
  unfold dropPending
  split
  · exact SameAccounts.refl c
  · dsimp only
    split
    · exact hclear
    · unfold dropReleasable
      rename_i releasable _
      have hsame := adviseAll_sameAccounts advice .dontNeed releasable (c.clearPending key)
      split <;> rename_i hrun <;> rw [hrun] at hsame
      · exact (hclear.trans hsame).trans (poison_sameAccounts _)
      · exact hclear.trans hsame

/-- Taking a lease off the books after its completion was counted. -/
theorem Accounts.unregister {c : Coordinator} (h : c.Accounts)
    (distinct : (c.active.map Prod.fst).Nodup) {e : Nat × ActiveLease} (he : e ∈ c.active)
    (fresh : e.1 < c.nextId) (key : String) :
    ({ c with diag := { c.diag with
      computeCompletions := c.diag.computeCompletions + 1 } }.unregister e.1 key).Accounts where
  active := by
    have hlen := countP_remove distinct he fun _ => true
    simp only [List.countP_true, if_true] at hlen
    show c.diag.activeLeases - 1 = (c.active.filter (·.1 ≠ e.1)).length
    rw [h.active]
    omega
  acquired := by
    have hpos : 0 < c.active.length := List.length_pos_of_mem he
    have hacquired := h.acquired
    have hactive := h.active
    show c.diag.leasesAcquired = c.diag.leasesReleased + 1 + (c.diag.activeLeases - 1)
    omega
  completions := by
    show c.diag.computeCompletions + 1 = c.diag.leasesReleased + 1
    rw [h.completions]
  once := fun id => by
    show returns id (.returned e.1 key :: c.events) ≤ 1
    rw [returns_returned]
    by_cases hid : e.1 = id
    · rw [if_pos hid, ← hid, h.out e he]
    · rw [if_neg hid]
      exact h.once id
  out := fun a ha => by
    obtain ⟨ha, hne⟩ := List.mem_filter.mp ha
    have hne : ¬e.1 = a.1 := fun heq => (of_decide_eq_true hne) heq.symm
    show returns a.1 (.returned e.1 key :: c.events) = 0
    rw [returns_returned, if_neg hne, h.out a ha]
  unused := fun id hid => by
    have hle : c.nextId ≤ id := hid
    have hne : ¬e.1 = id := by omega
    show returns id (.returned e.1 key :: c.events) = 0
    rw [returns_returned, if_neg hne, h.unused id hid]

end Coordinator

open Coordinator

/-! ## 3. Who owns a lease -/

/-- The `k`th object owns the lease. -/
def OwnsAt (leases : List Lease) (k id : Nat) : Prop :=
  ∃ l, leases[k]? = some l ∧ l.owner = true ∧ l.id = id

/-- **No two objects own one lease.** -/
def Unique (leases : List Lease) : Prop :=
  ∀ k k' id, OwnsAt leases k id → OwnsAt leases k' id → k = k'

/-- Objects that own what other objects owned before, each from its own origin, stay unique. -/
theorem Unique.of_origin {leases leases' : List Lease} (h : Unique leases) (origin : Nat → Nat)
    (hown : ∀ k id, OwnsAt leases' k id → OwnsAt leases (origin k) id)
    (hinj : ∀ k k' id id', OwnsAt leases' k id → OwnsAt leases' k' id' → origin k = origin k' →
      k = k') : Unique leases' :=
  fun k k' id hk hk' => hinj k k' id id hk hk' (h _ _ id (hown k id hk) (hown k' id hk'))

theorem ownsAt_set {leases : List Lease} {i k id : Nat} {l : Lease}
    (h : OwnsAt (leases.set i l) k id) :
    (k = i ∧ l.owner = true ∧ l.id = id) ∨ (k ≠ i ∧ OwnsAt leases k id) := by
  obtain ⟨l', hl, ho, hid⟩ := h
  rw [List.getElem?_set] at hl
  by_cases hk : i = k
  · rw [if_pos hk] at hl
    split at hl
    · cases hl
      exact Or.inl ⟨hk.symm, ho, hid⟩
    · cases hl
  · rw [if_neg hk] at hl
    exact Or.inr ⟨fun heq => hk heq.symm, l', hl, ho, hid⟩

/-- An object that is left without a lease. -/
theorem ownsAt_cleared {leases : List Lease} {i : Nat} {l : Lease} (hl : l.owner = false)
    (k id : Nat) (h : OwnsAt (leases.set i l) k id) : k ≠ i ∧ OwnsAt leases k id := by
  rcases ownsAt_set h with ⟨_, ho, _⟩ | h
  · rw [hl] at ho
    exact absurd ho Bool.false_ne_true
  · exact h

theorem ownsAt_disown {leases : List Lease} {i k id : Nat}
    (h : OwnsAt (leases.modify i System.disown) k id) : k ≠ i ∧ OwnsAt leases k id := by
  obtain ⟨l, hl, ho, hid⟩ := h
  rw [List.getElem?_modify] at hl
  cases hk : leases[k]? with
  | none => rw [hk] at hl; cases hl
  | some l' =>
      rw [hk] at hl
      have hval : (if i = k then System.disown l' else l') = l := Option.some.inj hl
      by_cases heq : i = k
      · rw [if_pos heq] at hval
        rw [← hval] at ho
        exact absurd ho Bool.false_ne_true
      · rw [if_neg heq] at hval
        exact ⟨fun hki => heq hki.symm, l', hk, hval ▸ ho, hval ▸ hid⟩

theorem ownsAt_append {leases : List Lease} {l : Lease} {k id : Nat}
    (h : OwnsAt (leases ++ [l]) k id) :
    (k < leases.length ∧ OwnsAt leases k id) ∨
      (k = leases.length ∧ l.owner = true ∧ l.id = id) := by
  obtain ⟨l', hl, ho, hid⟩ := h
  rcases Nat.lt_or_ge k leases.length with hk | hk
  · rw [List.getElem?_append_left hk] at hl
    exact Or.inl ⟨hk, l', hl, ho, hid⟩
  · rw [List.getElem?_append_right hk] at hl
    have hzero : k - leases.length = 0 := by
      have hlt := (List.getElem?_eq_some_iff.mp hl).1
      rw [List.length_singleton] at hlt
      omega
    rw [hzero, List.getElem?_cons_zero] at hl
    cases hl
    exact Or.inr ⟨by omega, ho, hid⟩

/-- **The accounts of the whole system.** -/
structure System.Accounts (s : System) : Prop where
  coord : s.coord.Accounts
  unique : Unique s.leases

namespace System

variable {ms ps : Nat} {advice : Advice} {s : System}

theorem accounts_init (ms ps : Nat) : (System.init ms ps).Accounts where
  coord := ⟨rfl, rfl, rfl, fun _ => Nat.zero_le _, fun _ h => absurd h List.not_mem_nil,
    fun _ _ => rfl⟩
  unique := fun _ _ _ ⟨_, hl, _⟩ => by cases hl

/-- Objects of the system change hands or lose their lease, the coordinator stays. -/
theorem Accounts.acquire (h : s.Accounts) (hinv : s.Inv ms ps) (key : String)
    (ranges : List StreamingByteRange) (tokenRows : Bool) :
    (s.after advice (.acquire key ranges tokenRows)).Accounts := by
  have hregistered : (s.coord.registered key ranges).Accounts :=
    (h.coord.congr (calledAll_sameAccounts s.coord .willNeed ranges)).register key ranges
  unfold after step
  dsimp only
  rcases acquire_accounts advice key ranges tokenRows s.coord with ⟨e, herr, hsame⟩ | ⟨hsame, hl⟩
  · rcases hrun : s.coord.acquire advice key ranges tokenRows with ⟨out, c'⟩
    rw [hrun] at herr hsame
    subst herr
    exact ⟨h.coord.congr hsame, h.unique⟩
  · rcases hrun : s.coord.acquire advice key ranges tokenRows with ⟨out, c'⟩
    rw [hrun] at hsame hl
    cases out with
    | error e => exact ⟨hregistered.congr hsame, h.unique⟩
    | ok l =>
        refine ⟨hregistered.congr hsame, fun k k' id hk hk' => ?_⟩
        have hlid : l.id = s.coord.nextId := by rw [hl l rfl]
        -- the new id is above every id an object owns
        have hold : ∀ k, OwnsAt s.leases k s.coord.nextId → False := by
          intro k ⟨l', hl', ho', hid'⟩
          have := (hinv.owned l' (List.mem_of_getElem? hl') ho').1
          omega
        rcases ownsAt_append hk with ⟨_, ho⟩ | ⟨hk, _, hid⟩ <;>
          rcases ownsAt_append hk' with ⟨_, ho'⟩ | ⟨hk', _, hid'⟩
        · exact h.unique k k' id ho ho'
        · exact (hold k (by rw [← hlid, hid']; exact ho)).elim
        · exact (hold k' (by rw [← hlid, hid]; exact ho')).elim
        · omega

theorem Accounts.release_coord (h : s.Accounts) (hinv : s.Inv ms ps) {l : Lease}
    (hl : l ∈ s.leases) (ho : l.owner = true) :
    (s.coord.release advice l.id l.key l.computeComplete).2.Accounts := by
  rcases release_cases advice l.id l.key l.computeComplete s.coord with
    ⟨_, hrun⟩ | ⟨⟨e, he, hid⟩, ⟨_, hrun⟩ | ⟨_, ⟨hzero, _⟩ | ⟨_, hrun⟩⟩⟩
  · rw [hrun]
    exact h.coord
  · rw [hrun]
    exact h.coord.congr ⟨rfl, rfl, rfl, rfl, rfl, rfl, fun _ => rfl, fun _ => rfl⟩
  · have hkey := (hinv.owned l hl ho).2 e he hid
    have hpos := (hinv.coord.books.held_iff l.key).mp
      ⟨e, hinv.coord.books.activeHistory ▸ he, hkey⟩
    omega
  · have hout := h.coord.unregister hinv.coord.books.distinct he (hinv.coord.books.fresh e he) l.key
    rw [hid] at hout
    rw [hrun]
    split
    · exact hout
    · exact hout.congr (dropPending_sameAccounts advice l.key _)

theorem Accounts.releaseAt (h : s.Accounts) (hinv : s.Inv ms ps) (i : Nat) :
    ((s.releaseAt advice i).2).Accounts ∧
      (∀ id, ¬OwnsAt (s.releaseAt advice i).2.leases i id) ∧
      (∀ k id, OwnsAt (s.releaseAt advice i).2.leases k id → OwnsAt s.leases k id) := by
  unfold System.releaseAt
  cases hi : s.leases[i]? with
  | none =>
      refine ⟨h, fun id ⟨l, hl, _⟩ => ?_, fun _ _ hk => hk⟩
      rw [hi] at hl
      cases hl
  | some l =>
      dsimp only
      cases ho : l.owner with
      | false =>
          have hsame : l.release advice s.coord = (.ok (), l, s.coord) := by
            unfold Lease.release
            rw [ho]
            rfl
          rw [hsame]
          have hown := @ownsAt_cleared s.leases i l ho
          refine ⟨⟨h.coord, ?_⟩, ?_, ?_⟩
          · exact h.unique.of_origin id (fun k id hk => (hown k id hk).2) fun _ _ _ _ _ _ heq => heq
          · exact fun id hk => (hown i id hk).1 rfl
          · exact fun k id hk => (hown k id hk).2
      | true =>
          have hrun : l.release advice s.coord =
              ((s.coord.release advice l.id l.key l.computeComplete).1, { l with owner := false },
                (s.coord.release advice l.id l.key l.computeComplete).2) := by
            unfold Lease.release
            rw [ho]
            rfl
          rw [hrun]
          have hown := @ownsAt_cleared s.leases i { l with owner := false } rfl
          refine ⟨⟨h.release_coord hinv (List.mem_of_getElem? hi) ho, ?_⟩, ?_, ?_⟩
          · exact h.unique.of_origin id (fun k id hk => (hown k id hk).2) fun _ _ _ _ _ _ heq => heq
          · exact fun id hk => (hown i id hk).1 rfl
          · exact fun k id hk => (hown k id hk).2

/-- **Every operation keeps the accounts.** -/
theorem Accounts.after (h : s.Accounts) (hinv : s.Inv ms ps) (op : Op) :
    (s.after advice op).Accounts := by
  cases op with
  | retainCommon ranges =>
      exact ⟨h.coord.congr (retainCommon_sameAccounts advice ranges s.coord), h.unique⟩
  | acquire key ranges tokenRows => exact h.acquire hinv key ranges tokenRows
  | markComputeComplete i =>
      refine ⟨h.coord, h.unique.of_origin id (fun k id ⟨l, hl, ho, hid⟩ => ?_)
        fun _ _ _ _ _ _ heq => heq⟩
      have hl : (s.leases.modify i fun l => { l with computeComplete := true })[k]? = some l := hl
      rw [List.getElem?_modify] at hl
      cases hk : s.leases[k]? with
      | none => rw [hk] at hl; cases hl
      | some l' =>
          rw [hk] at hl
          have hval := Option.some.inj hl
          refine ⟨l', hk, ?_, ?_⟩
          · rw [← hval] at ho
            split at ho <;> exact ho
          · rw [← hval] at hid
            split at hid <;> exact hid
  | release i => exact (h.releaseAt hinv i).1
  | moveConstruct i =>
      unfold System.after step
      dsimp only
      cases hi : s.leases[i]? with
      | none => exact h
      | some l =>
          refine ⟨h.coord, ?_⟩
          -- the new object comes from `i`, which owns nothing any more
          have hcases : ∀ k id, OwnsAt (s.leases.modify i disown ++ [l]) k id →
              (k < s.leases.length ∧ k ≠ i ∧ OwnsAt s.leases k id) ∨
                (k = s.leases.length ∧ OwnsAt s.leases i id) := by
            intro k id hk
            rcases ownsAt_append hk with ⟨hlt, hk⟩ | ⟨heq, ho, hid⟩
            · rw [List.length_modify] at hlt
              exact Or.inl ⟨hlt, ownsAt_disown hk⟩
            · rw [List.length_modify] at heq
              exact Or.inr ⟨heq, l, hi, ho, hid⟩
          refine h.unique.of_origin (fun k => if k = s.leases.length then i else k) ?_ ?_
          · intro k id hk
            rcases hcases k id hk with ⟨hlt, _, ho⟩ | ⟨heq, ho⟩
            · rw [if_neg (by omega)]
              exact ho
            · rw [if_pos heq]
              exact ho
          · intro k k' id id' hk hk' heq
            rcases hcases k id hk with ⟨hlt, hne, _⟩ | ⟨hlen, _⟩ <;>
              rcases hcases k' id' hk' with ⟨hlt', hne', _⟩ | ⟨hlen', _⟩
            · rwa [if_neg (by omega), if_neg (by omega)] at heq
            · rw [if_neg (by omega), if_pos hlen'] at heq
              exact absurd heq hne
            · rw [if_pos hlen, if_neg (by omega)] at heq
              exact absurd heq.symm hne'
            · omega
  | moveAssign i j =>
      obtain ⟨h', hfree, _⟩ := @Accounts.releaseAt ms ps advice s h hinv i
      unfold System.after step
      dsimp only
      split
      · exact h
      · rename_i hij
        cases hj : (s.releaseAt advice i).2.leases[j]? with
        | none => exact h'
        | some l =>
            refine ⟨h'.coord, ?_⟩
            -- the object at `i` takes over from `j`
            have hcases : ∀ k id,
                OwnsAt (((s.releaseAt advice i).2.leases.set i l).modify j disown) k id →
                k ≠ j ∧ ((k = i ∧ OwnsAt (s.releaseAt advice i).2.leases j id) ∨
                  (k ≠ i ∧ OwnsAt (s.releaseAt advice i).2.leases k id)) := by
              intro k id hk
              obtain ⟨hne, hk⟩ := ownsAt_disown hk
              refine ⟨hne, ?_⟩
              rcases ownsAt_set hk with ⟨heq, ho, hid⟩ | hk
              · exact Or.inl ⟨heq, l, hj, ho, hid⟩
              · exact Or.inr hk
            refine h'.unique.of_origin (fun k => if k = i then j else k) ?_ ?_
            · intro k id hk
              rcases (hcases k id hk).2 with ⟨heq, ho⟩ | ⟨hne, ho⟩
              · rw [if_pos heq]
                exact ho
              · rw [if_neg hne]
                exact ho
            · intro k k' id id' hk hk' heq
              obtain ⟨hkj, hk⟩ := hcases k id hk
              obtain ⟨hkj', hk'⟩ := hcases k' id' hk'
              split at heq <;> split at heq
              · omega
              · exact absurd heq.symm hkj'
              · exact absurd heq hkj
              · exact heq
  | destroy i => exact (h.releaseAt hinv i).1

theorem accounts_reachable (g : Geometry ms ps) (h : Reachable advice ms ps s) : s.Accounts :=
  (invariant (I := fun s => s.Inv ms ps ∧ s.Accounts) ⟨inv_init ms ps, accounts_init ms ps⟩
    (fun _ op ⟨hinv, hacc⟩ hop => ⟨hinv.after g hop, hacc.after hinv op⟩) h).2

/-! ## 4. Poison -/

/-- **A poisoned coordinator stays poisoned.** -/
theorem poisoned_releaseAt (i : Nat) (h : s.coord.diag.poisoned = true) :
    (s.releaseAt advice i).2.coord.diag.poisoned = true := by
  unfold System.releaseAt
  cases s.leases[i]? with
  | none => exact h
  | some l =>
      dsimp only
      unfold Lease.release
      cases l.owner with
      | false => exact h
      | true =>
          show (s.coord.release advice l.id l.key l.computeComplete).2.diag.poisoned = true
          rcases release_cases advice l.id l.key l.computeComplete s.coord with
            ⟨_, hrun⟩ | ⟨_, ⟨_, hrun⟩ | ⟨_, ⟨_, hrun⟩ | ⟨_, hrun⟩⟩⟩ <;> rw [hrun]
          · exact h
          · rfl
          · split
            · exact h
            · exact (dropPending_sameAccounts advice l.key _).poisoned h

/-- A poisoned coordinator turns every `acquire` away before the first call. -/
theorem acquire_poisoned {c : Coordinator} (h : c.diag.poisoned = true) (advice : Advice)
    (key : String) (ranges : List StreamingByteRange) (tokenRows : Bool) :
    ∃ e, c.acquire advice key ranges tokenRows = (.error e, c) := by
  unfold acquire
  by_cases hnil : ranges = []
  · exact ⟨_, by rw [if_pos hnil]⟩
  · exact ⟨_, by rw [if_neg hnil, if_pos h]⟩

theorem poisoned_after (op : Op) (h : s.coord.diag.poisoned = true) :
    (s.after advice op).coord.diag.poisoned = true := by
  cases op with
  | retainCommon ranges => exact (retainCommon_sameAccounts advice ranges s.coord).poisoned h
  | acquire key ranges tokenRows =>
      obtain ⟨e, hrun⟩ := acquire_poisoned h advice key ranges tokenRows
      unfold System.after step
      dsimp only
      rw [hrun]
      exact h
  | markComputeComplete i => exact h
  | release i => exact poisoned_releaseAt i h
  | moveConstruct i =>
      unfold System.after step
      dsimp only
      cases s.leases[i]? <;> exact h
  | moveAssign i j =>
      have h' := @poisoned_releaseAt advice s i h
      unfold System.after step
      dsimp only
      split
      · exact h
      · cases (s.releaseAt advice i).2.leases[j]? <;> exact h'
  | destroy i => exact poisoned_releaseAt i h

end System

/-! ## 5. The result -/

section Results

variable {ms ps : Nat} {advice : Advice} {s : System}

/-- The region counts add up to the active leases. -/
theorem sum_counts {c : Coordinator} (h : c.Books ms ps) :
    ∃ keys : Finset String, (∀ key, key ∈ keys ↔ 0 < (c.regions key).count) ∧
      ∑ key ∈ keys, (c.regions key).count = c.active.length := by
  have hcount : ∀ key, (c.regions key).count = (c.active.map (·.2.key)).count key := by
    intro key
    rw [h.count key, holders, List.count_eq_countP, List.countP_map]
    congr 1
  refine ⟨(c.active.map (·.2.key)).toFinset, fun key => ?_, ?_⟩
  · rw [hcount, List.mem_toFinset, List.count_pos_iff]
  · rw [Finset.sum_congr rfl fun key _ => hcount key, List.sum_toFinset_count_eq_length,
      List.length_map]

/-- **Lease accounting.** In every state that any sequence of acquisitions, moves, releases and
    destructions reaches, whichever advice calls fail: the active leases are those on the books and
    the sum of the region counts; every acquired lease is active or released; every release counted
    its completion; no lease was given back twice, and none has two owning objects; a region with
    something pending has a holder; a lease object that reaches the count test of `release` finds a
    positive count; and a poisoned coordinator stays poisoned and turns every acquisition away
    without a call. -/
theorem lease_accounting (g : Geometry ms ps) (h : Reachable advice ms ps s) :
    s.coord.diag.activeLeases = s.coord.active.length ∧
      (∃ keys : Finset String, (∀ key, key ∈ keys ↔ 0 < (s.coord.regions key).count) ∧
        ∑ key ∈ keys, (s.coord.regions key).count = s.coord.diag.activeLeases) ∧
      s.coord.diag.leasesAcquired = s.coord.diag.leasesReleased + s.coord.diag.activeLeases ∧
      s.coord.diag.computeCompletions = s.coord.diag.leasesReleased ∧
      (∀ id, returns id s.coord.events ≤ 1) ∧
      Unique s.leases ∧
      (∀ key, (s.coord.regions key).pending ≠ [] → 0 < (s.coord.regions key).count) ∧
      (∀ l ∈ s.leases, l.owner = true → (∃ e ∈ s.coord.active, e.1 = l.id) →
        0 < (s.coord.regions l.key).count) ∧
      (s.coord.diag.poisoned = true → ∀ s', Reaches (Legal ms ps) (System.after advice) s s' →
        s'.coord.diag.poisoned = true ∧ ∀ key ranges tokenRows,
          ∃ e, s'.coord.acquire advice key ranges tokenRows = (.error e, s'.coord)) := by
  have hinv := System.inv_reachable g h
  obtain ⟨hacc, hunique⟩ := System.accounts_reachable g h
  have hbooks := hinv.coord.books
  refine ⟨hacc.active, ?_, hacc.acquired, hacc.completions, hacc.once, hunique, ?_, ?_, ?_⟩
  · rw [hacc.active]
    exact sum_counts hbooks
  · intro key hpending
    exact Nat.pos_of_ne_zero fun hzero =>
      hpending (hinv.coord.idle key (Set.notMem_empty key) hzero)
  · intro l hl ho ⟨e, he, hid⟩
    exact (hbooks.held_iff l.key).mp
      ⟨e, hbooks.activeHistory ▸ he, (hinv.owned l hl ho).2 e he hid⟩
  · intro hpois s' hreach
    have hpois' : s'.coord.diag.poisoned = true :=
      invariant (I := fun s => s.coord.diag.poisoned = true) hpois
        (fun _ op hp _ => System.poisoned_after op hp) hreach
    exact ⟨hpois', fun key ranges tokenRows =>
      System.acquire_poisoned hpois' advice key ranges tokenRows⟩

/-- A lease moved twice and released once, another given up before its compute is complete. -/
def movedRun : List Op :=
  [.acquire "layer:0" [⟨0, 4096⟩] false, .acquire "layer:1" [⟨4096, 4096⟩] false,
    .moveConstruct 0, .markComputeComplete 2, .moveAssign 1 2, .release 1, .destroy 2, .destroy 0]

theorem movedRun_legal : ∀ op ∈ movedRun, ∀ s, Legal 65536 4096 s op := by
  intro op hop s
  simp only [movedRun, List.mem_cons, List.not_mem_nil, or_false] at hop
  rcases hop with rfl | rfl | rfl | rfl | rfl | rfl | rfl | rfl
  · exact ⟨fun _ heq => (by cases heq), fun _ _ _ heq => by cases heq; decide⟩
  · exact ⟨fun _ heq => (by cases heq), fun _ _ _ heq => by cases heq; decide⟩
  all_goals exact ⟨fun _ heq => (by cases heq), fun _ _ _ heq => by cases heq⟩

theorem lease_accounting_moved :
    (afterRun movedRun).coord.diag.leasesAcquired = 2 ∧
      (afterRun movedRun).coord.diag.leasesReleased = 1 ∧
      (afterRun movedRun).coord.diag.poisoned = true ∧
      (afterRun movedRun).coord.diag.leasesAcquired =
        (afterRun movedRun).coord.diag.leasesReleased +
          (afterRun movedRun).coord.diag.activeLeases ∧
      (∀ id, returns id (afterRun movedRun).coord.events ≤ 1) ∧
      ∀ key ranges tokenRows, ∃ e,
        (afterRun movedRun).coord.acquire (fun _ _ _ => none) key ranges tokenRows =
          (.error e, (afterRun movedRun).coord) := by
  have h := lease_accounting geometry_4096
    (reaches_foldl movedRun_legal .start : Reachable _ 65536 4096 (afterRun movedRun))
  exact ⟨rfl, rfl, rfl, h.2.2.1, h.2.2.2.2.1, (h.2.2.2.2.2.2.2.2 rfl _ .start).2⟩

end Results

end NanoEmbed.Streaming

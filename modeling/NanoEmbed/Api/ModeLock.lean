/-
  File:      NanoEmbed/Api/ModeLock.lean
  Subject:   THE MODE OF A MODEL HANDLE UNDER RACING CREATORS.

  Whoever holds `mode_mutex` finds the handle as it left it (`stable_held`), so what stands under the
  lock is executed on one handle value. `Guar` is what each call promises the others, `Committed` what
  a call still does once it has published an engine: it returns a context.

  * `newContext_safe` -- one call, whatever the others do;
  * `mode_locks_once` -- all of them.
-/
import NanoEmbed.Api.NewContext

namespace NanoEmbed.Api

open Concurrent Relation Batch

section ModeLock

variable {ι : Type} {i : ι} {s s' : Handle ι}

/-! ## 1. The handle -/

/-- The mode and the engines agree. -/
def Consistent (s : Handle ι) : Prop :=
  match s.mode with
  | .unlocked => s.eager = none ∧ s.streaming = none
  | .eager => s.eager ≠ none ∧ s.streaming = none
  | .streaming => s.eager = none ∧ s.streaming ≠ none

/-- The engines say the mode. -/
theorem Consistent.mode_iff (h : Consistent s) :
    (s.mode = .eager ↔ s.eager ≠ none ∧ s.streaming = none) ∧
      (s.mode = .streaming ↔ s.streaming ≠ none ∧ s.eager = none) := by
  unfold Consistent at h
  cases hmode : s.mode with
  | unlocked =>
      rw [hmode] at h
      simp [h.1, h.2]
  | eager =>
      rw [hmode] at h
      simp [h.1, h.2]
  | streaming =>
      rw [hmode] at h
      simp [h.1, h.2]

/-- A context fits a mode: it has that mode and what a context of it computes with. -/
inductive Fits (ctx : Context) : ExecutionMode → Prop where
  | eager (hmode : ctx.mode = .eager) (hscratch : ctx.scratch ≠ none)
      (hstreaming : ctx.streamingContext = false) : Fits ctx .eager
  | streaming (hmode : ctx.mode = .streaming) (hscratch : ctx.scratch = none)
      (hstreaming : ctx.streamingContext = true) : Fits ctx .streaming

/-- Whenever nobody holds the mutex, the handle is consistent. -/
def Inv (s : Handle ι) : Prop := s.modeMutex = none → Consistent s

/-- **What a step of call `i` guarantees**: it changes nothing while another call holds the mutex, and
    no mode but `unlocked`. -/
structure Guar (i : ι) (s s' : Handle ι) : Prop where
  inv : Inv s'
  excluded : ∀ j, j ≠ i → s.modeMutex = some j → s' = s
  fixed : s.mode ≠ .unlocked → s'.mode = s.mode

/-- What call `i` relies on. -/
def Rely (i : ι) (s s' : Handle ι) : Prop := ∃ j, j ≠ i ∧ Guar j s s'

/-- The handle is read and written under the mutex only. -/
def OpReady (i : ι) (s : Handle ι) : ModelOp → Prop
  | .readEager => s.modeMutex = some i ∧ s.eager ≠ none
  | .unlock | .readMode | .storeEager _ | .storeStreaming _ | .storeMode _ => s.modeMutex = some i
  | _ => True

/-- What a call ends with. -/
def Ended (out : NewContextResult) (s : Handle ι) : Prop :=
  Inv s ∧ ∀ ctx, out = .returned ctx → Fits ctx s.mode

theorem fits_locked {ctx : Context} {mode : ExecutionMode} (h : Fits ctx mode) : mode ≠ .unlocked := by
  cases h <;> simp

theorem fits_mode {ctx : Context} {mode : ExecutionMode} (h : Fits ctx mode) : ctx.mode = mode := by
  cases h <;> assumption

theorem stable_inv : Stable (Rely i) (Inv (ι := ι)) := fun _ _ _ ⟨_, _, hg⟩ => hg.inv

theorem stable_ended (out : NewContextResult) : Stable (Rely i) (Ended (ι := ι) out) := by
  rintro s s' ⟨_, hfits⟩ ⟨j, _, hg⟩
  refine ⟨hg.inv, fun ctx hctx => ?_⟩
  have h := hfits ctx hctx
  rw [hg.fixed (fits_locked h)]
  exact h

/-- **Whoever holds the mutex finds the handle as it left it.** -/
theorem stable_held (h : s.modeMutex = some i) : Stable (Rely i) (· = s) := by
  rintro _ s' rfl ⟨j, hj, hg⟩
  exact hg.excluded i hj.symm h

/-- A step that leaves the handle as it is. -/
theorem guar_refl (h : Inv s) : Guar i s s := ⟨h, fun _ _ _ => rfl, fun _ => rfl⟩

/-- A step under the mutex. -/
theorem guar_held (h : s.modeMutex = some i) (hinv : Inv s')
    (hfixed : s.mode ≠ .unlocked → s'.mode = s.mode) : Guar i s s' := by
  refine ⟨hinv, fun j hj hheld => ?_, hfixed⟩
  exact absurd (Option.some.inj (hheld.symm.trans h)) hj

/-- The invariant holds of a handle whose mutex is taken. -/
theorem inv_held (h : s.modeMutex = some i) : Inv s := fun hnone => by
  rw [h] at hnone
  cases hnone

/-! ## 2. Under the lock -/

/-- **The rule for an operation under the mutex.** -/
theorem held_call {α : Type} {post : α → Handle ι → Prop} (h : s.modeMutex = some i) {op : ModelOp}
    {next : op.Reply → ModelProg α} (hready : OpReady i s op)
    (step : ∀ r s', Exec i s op r s' →
      Guar i s s' ∧ Safe (Exec i) (OpReady i) (Rely i) (Guar i) post (next r) s') :
    Safe (Exec i) (OpReady i) (Rely i) (Guar i) post (.call op next) s := by
  refine Safe.call (stable_held h) rfl (fun _ hs => hs ▸ hready) fun s₁ r s' hs he => ?_
  subst hs
  exact step r s' he

/-- Under the mutex the mode read is the handle's. -/
theorem readMode_safe {α : Type} {post : α → Handle ι → Prop} (h : s.modeMutex = some i)
    {f : ExecutionMode → ModelProg α}
    (hf : Safe (Exec i) (OpReady i) (Rely i) (Guar i) post (f s.mode) s) :
    Safe (Exec i) (OpReady i) (Rely i) (Guar i) post (perform .readMode >>= f) s := by
  refine held_call h h fun r s' he => ?_
  cases he
  exact ⟨guar_refl (inv_held h), hf⟩

/-- What stands under the lock ends with the mutex held and a handle that agrees with the context. -/
def UnderLock (i : ι) (out : Except String Context) (s : Handle ι) : Prop :=
  s.modeMutex = some i ∧ Consistent s ∧ ∀ ctx, out = .ok ctx → Fits ctx s.mode

theorem stable_underLock (out : Except String Context) : Stable (Rely i) (UnderLock (ι := ι) i out) := by
  rintro s s' h ⟨j, hj, hg⟩
  rw [hg.excluded i hj.symm h.1]
  exact h

/-- The end of the section, where it fails. -/
theorem underLock_fails (h : s.modeMutex = some i) (hc : Consistent s) (error : String) :
    Safe (Exec i) (OpReady i) (Rely i) (Guar i) (UnderLock i)
      (pure (.error error) : ModelProg (Except String Context)) s :=
  Safe.done (stable_underLock _) ⟨h, hc, fun _ heq => nomatch heq⟩

/-- The end of the section, where it gives a context. -/
theorem underLock_returns (h : s.modeMutex = some i) (hc : Consistent s) {ctx : Context}
    (hfits : Fits ctx s.mode) :
    Safe (Exec i) (OpReady i) (Rely i) (Guar i) (UnderLock i)
      (pure (.ok ctx) : ModelProg (Except String Context)) s :=
  Safe.done (stable_underLock _) ⟨h, hc, fun _ heq => by
    obtain rfl := Except.ok.inj heq
    exact hfits⟩

variable (descriptor : Engine) (params : ContextParams) (cfg : EmbedderConfig)

/-- The graph is reserved for the engine's own scratch, and the context is complete. -/
theorem reserve_safe (h : s.modeMutex = some i) (hc : Consistent s) (engine : Engine)
    {next : ComputeScratch → ModelProg (Except String Context)}
    (hnext : ∀ scratch, Safe (Exec i) (OpReady i) (Rely i) (Guar i) (UnderLock i) (next scratch) s) :
    Safe (Exec i) (OpReady i) (Rely i) (Guar i) (UnderLock i)
      ((perform (.reserve engine params.maxSeqLen)).andThen next) s := by
  refine held_call h trivial fun r s' he => ?_
  cases he with
  | reserve _ _ => exact ⟨guar_refl (inv_held h), hnext _⟩
  | reserveFails _ _ error => exact ⟨guar_refl (inv_held h), underLock_fails h hc error⟩

/-- A candidate that does not match the descriptor is not published. -/
theorem match_safe (h : s.modeMutex = some i) (hc : Consistent s) (out : Except String Unit)
    {next : ModelProg (Except String Context)}
    (hnext : Safe (Exec i) (OpReady i) (Rely i) (Guar i) (UnderLock i) next s) :
    Safe (Exec i) (OpReady i) (Rely i) (Guar i) (UnderLock i)
      (match out with
        | .error error => pure (.error error)
        | .ok _ => next) s := by
  cases out with
  | error error => exact underLock_fails h hc error
  | ok _ => exact hnext

/-- **The eager branch** publishes a whole engine or nothing. -/
theorem eagerContext_safe (h : s.modeMutex = some i) (hc : Consistent s)
    (hmode : s.mode = .unlocked ∨ s.mode = .eager) :
    Safe (Exec i) (OpReady i) (Rely i) (Guar i) (UnderLock i) (eagerContext descriptor params cfg) s := by
  have hinv : ∀ {s : Handle ι}, s.modeMutex = some i → Inv s := inv_held
  refine held_call h trivial fun (r : Except String Unit) s' he => ?_
  cases he
  refine ⟨guar_refl (hinv h), ?_⟩
  cases r with
  | error error => exact underLock_fails h hc error
  | ok _ =>
      refine readMode_safe h ?_
      by_cases hunlocked : s.mode = .unlocked
      · have hnone : s.eager = none ∧ s.streaming = none := by simpa [Consistent, hunlocked] using hc
        rw [if_pos hunlocked]
        refine held_call h trivial fun (r : Except String Engine) s' he => ?_
        cases he
        refine ⟨guar_refl (hinv h), ?_⟩
        cases r with
        | error error => exact underLock_fails h hc error
        | ok candidate =>
            refine match_safe h hc (requireDescriptorMatch descriptor candidate) ?_
            refine reserve_safe params h hc candidate fun scratch => ?_
            show Safe _ _ _ _ _ (.call (ModelOp.storeEager candidate) _) _
            refine held_call h h fun r s₁ he => ?_
            cases he
            refine ⟨guar_held h (hinv h) fun _ => rfl, ?_⟩
            have h₁ : ({ s with eager := some candidate } : Handle ι).modeMutex = some i := h
            show Safe _ _ _ _ _ (.call (ModelOp.storeMode .eager) _) _
            refine held_call h₁ h₁ fun r s₂ he => ?_
            cases he
            refine ⟨guar_held h₁ (hinv h) fun hlocked => absurd hunlocked hlocked, ?_⟩
            let s₂ : Handle ι := { s with mode := .eager, eager := some candidate }
            have h₂ : s₂.modeMutex = some i := h
            have hc₂ : Consistent s₂ := ⟨Option.some_ne_none _, hnone.2⟩
            exact underLock_returns h₂ hc₂ (.eager rfl (Option.some_ne_none scratch) rfl)
      · have heager : s.mode = .eager := hmode.resolve_left hunlocked
        have hsome : s.eager ≠ none ∧ s.streaming = none := by simpa [Consistent, heager] using hc
        rw [if_neg hunlocked]
        refine held_call h ⟨h, hsome.1⟩ fun engine s' he => ?_
        cases he with
        | readEager engine _ =>
            refine ⟨guar_refl (hinv h), reserve_safe params h hc engine fun scratch => ?_⟩
            refine underLock_returns h hc ?_
            rw [heager]
            exact .eager rfl (by simp) rfl

/-- **The streaming branch.** -/
theorem streamingContext_safe (h : s.modeMutex = some i) (hc : Consistent s)
    (hmode : s.mode = .unlocked ∨ s.mode = .streaming) :
    Safe (Exec i) (OpReady i) (Rely i) (Guar i) (UnderLock i) (streamingContext descriptor cfg) s := by
  have hinv : ∀ {s : Handle ι}, s.modeMutex = some i → Inv s := inv_held
  refine held_call h trivial fun (r : Except String Unit) s' he => ?_
  cases he
  refine ⟨guar_refl (hinv h), ?_⟩
  cases r with
  | error error => exact underLock_fails h hc error
  | ok _ =>
      refine readMode_safe h ?_
      by_cases hunlocked : s.mode = .unlocked
      · have hnone : s.eager = none ∧ s.streaming = none := by simpa [Consistent, hunlocked] using hc
        rw [if_pos hunlocked]
        refine held_call h trivial fun (r : Except String Engine) s' he => ?_
        cases he
        refine ⟨guar_refl (hinv h), ?_⟩
        cases r with
        | error error => exact underLock_fails h hc error
        | ok candidate =>
            refine match_safe h hc (requireDescriptorMatch descriptor candidate) ?_
            show Safe _ _ _ _ _ (.call (ModelOp.storeStreaming candidate) _) _
            refine held_call h h fun r s₁ he => ?_
            cases he
            refine ⟨guar_held h (hinv h) fun _ => rfl, ?_⟩
            have h₁ : ({ s with streaming := some candidate } : Handle ι).modeMutex = some i := h
            show Safe _ _ _ _ _ (.call (ModelOp.storeMode .streaming) _) _
            refine held_call h₁ h₁ fun r s₂ he => ?_
            cases he
            refine ⟨guar_held h₁ (hinv h) fun hlocked => absurd hunlocked hlocked, ?_⟩
            let s₂ : Handle ι := { s with mode := .streaming, streaming := some candidate }
            have h₂ : s₂.modeMutex = some i := h
            have hc₂ : Consistent s₂ := ⟨hnone.1, Option.some_ne_none _⟩
            exact underLock_returns h₂ hc₂ (.streaming rfl rfl rfl)
      · rw [if_neg hunlocked]
        refine underLock_returns h hc ?_
        rw [hmode.resolve_left hunlocked]
        exact .streaming rfl rfl rfl

/-- **What stands under the lock.** -/
theorem underLock_safe {requested : ExecutionMode} (hrequested : requested ≠ .unlocked)
    (h : s.modeMutex = some i) (hc : Consistent s) :
    Safe (Exec i) (OpReady i) (Rely i) (Guar i) (UnderLock i)
      (underLock descriptor params requested cfg) s := by
  refine readMode_safe h ?_
  by_cases hother : s.mode ≠ .unlocked ∧ s.mode ≠ requested
  · rw [if_pos hother]
    exact underLock_fails h hc _
  · rw [if_neg hother]
    have hmode : s.mode = .unlocked ∨ s.mode = requested := by
      by_contra hno
      exact hother (not_or.mp hno)
    by_cases heager : requested = .eager
    · rw [if_pos heager]
      exact eagerContext_safe descriptor params cfg h hc (heager ▸ hmode)
    · rw [if_neg heager]
      have hstreaming : requested = .streaming := by
        cases requested with
        | unlocked => exact absurd rfl hrequested
        | eager => exact absurd rfl heager
        | streaming => rfl
      exact streamingContext_safe descriptor cfg h hc (hstreaming ▸ hmode)

/-! ## 3. A call -/

/-- A call that fails before it has the mutex, or without it. -/
theorem ended_null (hinv : Inv s) (error : String) :
    Safe (Exec i) (OpReady i) (Rely i) (Guar i) Ended
      (pure (.null error) : ModelProg NewContextResult) s :=
  Safe.done (stable_ended _) ⟨hinv, fun _ heq => nomatch heq⟩

/-- **The `try` block**: the mutex is released on every way out. -/
theorem createContext_safe {requested : ExecutionMode} (hrequested : requested ≠ .unlocked)
    (hinv : Inv s) :
    Safe (Exec i) (OpReady i) (Rely i) (Guar i) Ended
      (createContext descriptor params requested cfg) s := by
  refine Safe.call stable_inv hinv (fun _ _ => trivial) fun s (r : Except String Unit) s' hinv he => ?_
  cases he
  refine ⟨guar_refl hinv, ?_⟩
  cases r with
  | error error => exact ended_null hinv error
  | ok _ =>
      refine Safe.call stable_inv hinv (fun _ _ => trivial) fun s r s' hinv he => ?_
      cases he with
      | lockFails error => exact ⟨guar_refl hinv, ended_null hinv error⟩
      | lock hfree =>
          have hheld : ({ s with modeMutex := some i } : Handle ι).modeMutex = some i := rfl
          have hc : Consistent { s with modeMutex := some i } := hinv hfree
          refine ⟨⟨inv_held hheld, fun j _ hj => ?_, fun _ => rfl⟩, ?_⟩
          · rw [hfree] at hj
            cases hj
          · have hsection : Safe (Exec i) (OpReady i) (Rely i) (Guar i)
                (fun out s => Ended (NewContextResult.ofExcept out) s)
                (underLock descriptor params requested cfg >>= fun out =>
                  perform .unlock >>= fun _ => pure out) { s with modeMutex := some i } := by
              refine (underLock_safe descriptor params cfg hrequested hheld hc).bind
                fun out s hout => ?_
              obtain ⟨hheld, hc, hfits⟩ := hout
              refine held_call hheld (by exact hheld) fun r s' he => ?_
              cases he
              have hc' : Consistent ({ s with modeMutex := none } : Handle ι) := hc
              refine ⟨guar_held hheld (fun _ => hc') fun _ => rfl, ?_⟩
              have hended : Ended (NewContextResult.ofExcept out)
                  ({ s with modeMutex := none } : Handle ι) := by
                refine ⟨fun _ => hc', fun ctx hctx => ?_⟩
                cases out with
                | ok ctx' =>
                    obtain rfl := NewContextResult.returned.inj hctx
                    exact hfits _ rfl
                | error _ => cases hctx
              exact fun s' hs => (stable_ended (NewContextResult.ofExcept out)).star hended hs
            exact hsection.bind fun out s hout => Safe.done (stable_ended _) hout

/-- **`nanoembed_new_context`.** -/
theorem newContext_safe (linux : Bool) (hinv : Inv s) :
    Safe (Exec i) (OpReady i) (Rely i) (Guar i) Ended (newContext descriptor params linux) s := by
  unfold newContext
  split
  · exact ended_null hinv _
  split
  · exact ended_null hinv _
  split
  · exact ended_null hinv _
  split
  · exact ended_null hinv _
  · refine createContext_safe descriptor params _ ?_ hinv
    split <;> simp

/-! ## 4. What a call still does once it has published -/

/-- The operations that change what other calls find. -/
def Publishes : ModelOp → Prop
  | .storeEager _ | .storeStreaming _ | .storeMode _ => True
  | _ => False

/-- The operations under the mutex. -/
def NeedsMutex : ModelOp → Prop
  | .unlock | .readMode | .readEager | .storeEager _ | .storeStreaming _ | .storeMode _ => True
  | _ => False

theorem OpReady.holds {op : ModelOp} (h : OpReady i s op) (hop : NeedsMutex op) :
    s.modeMutex = some i := by
  cases op with
  | readEager => exact h.1
  | unlock | readMode | storeEager | storeStreaming | storeMode => exact h
  | _ => exact hop.elim

variable {α β : Type} {P : α → Prop} {P' : β → Prop}

/-- A program that ends in `P` and holds the mutex until then. -/
def WillEnd (P : α → Prop) : ModelProg α → Prop
  | .done a => P a
  | .call op _ => NeedsMutex op

/-- A program that, once it has published, ends in `P`. -/
def Committed (P : α → Prop) : ModelProg α → Prop
  | .done _ => True
  | .call op next => Publishes op → ∀ r, (next r).Always (WillEnd P)

theorem willEnd_bind {p : ModelProg α} {f : α → ModelProg β} (h : p.Always (WillEnd P))
    (hf : ∀ a, P a → (f a).Always (WillEnd P')) : (p >>= f).Always (WillEnd P') := by
  induction p with
  | done a => exact hf a h
  | call op next ih => exact .call h.1 fun r => ih r (h.2 r)

theorem committed_bind {p : ModelProg α} {f : α → ModelProg β} (h : p.Always (Committed P))
    (hf : ∀ a, P a → (f a).Always (WillEnd P')) (hf' : ∀ a, (f a).Always (Committed P')) :
    (p >>= f).Always (Committed P') := by
  induction p with
  | done a => exact hf' a
  | call op next ih =>
      exact .call (fun hop r => willEnd_bind (h.1 hop r) hf) fun r => ih r (h.2 r)

/-- The section gives a context. -/
def GivesContext (out : Except String Context) : Prop := ∃ ctx, out = .ok ctx

/-- The call returns a context. -/
def Returns (out : NewContextResult) : Prop := ∃ ctx, out = .returned ctx

/-- An operation that publishes nothing. -/
theorem committed_quiet {o : ModelOp} (h : ¬Publishes o) :
    (perform o).Always (Committed fun _ => False) := ⟨fun hop => absurd hop h, fun _ => trivial⟩

theorem committed_andThen {γ : Type} {p : ModelProg (Except String γ)}
    {f : γ → ModelProg (Except String α)} {P : Except String α → Prop}
    (h : p.Always (Committed fun _ => False)) (hf : ∀ a, (f a).Always (Committed P)) :
    (p.andThen f).Always (Committed P) :=
  committed_bind h (fun _ hfalse => hfalse.elim) fun out => match out with
    | .ok a => hf a
    | .error _ => trivial

theorem eagerContext_committed :
    (eagerContext descriptor params cfg).Always (Committed GivesContext) := by
  refine committed_andThen (committed_quiet id) fun _ => ?_
  refine committed_bind (committed_quiet id) (fun _ h => h.elim) fun mode => ?_
  split
  · refine committed_andThen (committed_quiet id) fun candidate => ?_
    split
    · trivial
    · refine committed_andThen (committed_quiet id) fun scratch => ?_
      -- once the engine is stored, the mode follows
      exact .call (fun _ _ => .call trivial fun _ => ⟨_, rfl⟩) fun _ =>
        .call (fun _ _ => ⟨_, rfl⟩) fun _ => trivial
  · refine committed_bind (committed_quiet id) (fun _ h => h.elim) fun engine => ?_
    exact committed_andThen (committed_quiet id) fun _ => trivial

theorem streamingContext_committed :
    (streamingContext descriptor cfg).Always (Committed GivesContext) := by
  refine committed_andThen (committed_quiet id) fun _ => ?_
  refine committed_bind (committed_quiet id) (fun _ h => h.elim) fun mode => ?_
  split
  · refine committed_andThen (committed_quiet id) fun candidate => ?_
    split
    · trivial
    · exact .call (fun _ _ => .call trivial fun _ => ⟨_, rfl⟩) fun _ =>
        .call (fun _ _ => ⟨_, rfl⟩) fun _ => trivial
  · trivial

theorem underLock_committed (requested : ExecutionMode) :
    (underLock descriptor params requested cfg).Always (Committed GivesContext) := by
  refine committed_bind (committed_quiet id) (fun _ h => h.elim) fun mode => ?_
  split
  · trivial
  split
  · exact eagerContext_committed descriptor params cfg
  · exact streamingContext_committed descriptor cfg

/-- **A call that publishes returns a context.** -/
theorem newContext_committed (linux : Bool) :
    (newContext descriptor params linux).Always (Committed Returns) := by
  unfold newContext
  split
  · trivial
  split
  · trivial
  split
  · trivial
  split
  · trivial
  · refine committed_bind (P := GivesContext) ?_ ?_ fun _ => trivial
    · refine committed_andThen (committed_quiet id) fun _ => ?_
      refine committed_andThen (committed_quiet id) fun _ => ?_
      refine committed_bind (underLock_committed descriptor params _ _) (fun out hout => ?_) fun out => ?_
      · exact .call trivial fun _ => hout
      · exact .call (fun h => h.elim) fun _ => trivial
    · rintro _ ⟨ctx, rfl⟩
      exact ⟨ctx, rfl⟩

end ModeLock

/-! ## 5. All of them -/

section Calls

variable {ι : Type} [DecidableEq ι] {descriptor : Engine} {linux : Bool} {params : ι → ContextParams}
  {t t' : System (Handle ι) ι ModelOp ModelOp.Reply NewContextResult}

/-- Steps of the calls; none of them stops on its way. -/
abbrev CallStep (i : ι) (t t' : System (Handle ι) ι ModelOp ModelOp.Reply NewContextResult) : Prop :=
  StepOf Exec (fun _ _ _ _ => False) i t t'

/-- The states the calls can reach. -/
abbrev Reaches (t t' : System (Handle ι) ι ModelOp ModelOp.Reply NewContextResult) : Prop :=
  ReflTransGen (Step Exec fun _ _ _ _ => False) t t'

/-- **Every call keeps to its part in every state reached.** -/
theorem calls_safe (hreach : Reaches (start descriptor linux params) t) :
    AllSafe Exec OpReady Rely Guar (fun _ => Ended) Inv t := by
  have hinv : Inv ({} : Handle ι) := fun _ => ⟨rfl, rfl⟩
  exact safe_reaches (fun i _ _ _ hij hg => ⟨i, hij, hg⟩) (fun _ _ _ hg => hg.inv)
    (fun _ _ _ _ _ h => h.elim)
    ⟨hinv, fun i => newContext_safe descriptor (params i) linux hinv⟩ hreach

/-- A step of a call does what it guarantees. -/
theorem guar_step (hreach : Reaches (start descriptor linux params) t) {i : ι}
    (hstep : CallStep i t t') : Guar i t.shared t'.shared :=
  (safe_step (fun i _ _ _ hij hg => ⟨i, hij, hg⟩) (fun _ _ _ hg => hg.inv)
    (fun _ _ _ _ _ h => h.elim) (calls_safe hreach) hstep).1

/-- A locked mode stays. -/
theorem mode_fixed (hreach : Reaches (start descriptor linux params) t) (h : Reaches t t')
    (hlocked : t.shared.mode ≠ .unlocked) : t'.shared.mode = t.shared.mode := by
  induction h with
  | refl => rfl
  | tail h hstep ih =>
      obtain ⟨i, hstep⟩ := hstep
      have hg := guar_step (hreach.trans h) hstep
      exact (hg.fixed (ih ▸ hlocked)).trans ih

/-- **Who changes the mode or an engine will return a context.** -/
theorem publisher_willReturn (hreach : Reaches (start descriptor linux params) t) {i : ι}
    (hstep : CallStep i t t') (hchange : t'.shared.mode ≠ t.shared.mode ∨
      t'.shared.eager ≠ t.shared.eager ∨ t'.shared.streaming ≠ t.shared.streaming) :
    (t'.prog i).Always (WillEnd Returns) := by
  have hcommitted : (t.prog i).Always (Committed Returns) :=
    Prog.Always.reaches hreach (newContext_committed descriptor (params i) linux)
  cases hstep with
  | stop _ hs => exact hs.elim
  | @call op next r s' hprog he =>
      rw [hprog] at hcommitted
      have hpublishes : Publishes op := by
        cases he with
        | storeEager | storeStreaming | storeMode => trivial
        | _ => simp at hchange
      show (Function.update t.prog i (next r) i).Always _
      rw [Function.update_self]
      exact hcommitted.1 hpublishes r

/-- Once the mode is locked, some call has returned a context or will. -/
theorem locked_willReturn (hreach : Reaches (start descriptor linux params) t)
    (hlocked : t.shared.mode ≠ .unlocked) : ∃ i, (t.prog i).Always (WillEnd Returns) := by
  induction hreach with
  | refl => exact absurd rfl hlocked
  | @tail t t' hreach hstep ih =>
      by_cases hbefore : t.shared.mode = .unlocked
      · obtain ⟨i, hstep'⟩ := hstep
        have hchange : t'.shared.mode ≠ t.shared.mode := fun heq => hlocked (heq.trans hbefore)
        exact ⟨i, publisher_willReturn hreach hstep' (Or.inl hchange)⟩
      · obtain ⟨i, hi⟩ := ih hbefore
        exact ⟨i, hi.step hstep⟩

/-- **The mode is locked once, by the first call that succeeds.** However the calls interleave and fail:
    wherever the mutex is free, the mode and the engines agree and the mode is locked exactly if a call
    has returned a context; every returned context has the mode and what that mode computes with; a
    locked mode stays, so that no later context has another; and a call that changes the mode or an
    engine returns a context, so that a call that fails has changed nothing. -/
theorem mode_locks_once (hreach : Reaches (start descriptor linux params) t) :
    (t.shared.modeMutex = none →
      (t.shared.mode = .eager ↔ t.shared.eager ≠ none ∧ t.shared.streaming = none) ∧
      (t.shared.mode = .streaming ↔ t.shared.streaming ≠ none ∧ t.shared.eager = none) ∧
      (t.shared.mode ≠ .unlocked ↔ ∃ i ctx, t.prog i = .done (.returned ctx))) ∧
    (∀ i ctx, t.prog i = .done (.returned ctx) → Fits ctx t.shared.mode) ∧
    (t.shared.mode ≠ .unlocked → ∀ t', Reaches t t' → t'.shared.mode = t.shared.mode ∧
      ∀ i ctx, t'.prog i = .done (.returned ctx) → ctx.mode = t.shared.mode) ∧
    ∀ i t', CallStep i t t' →
      (t'.shared.mode ≠ t.shared.mode ∨ t'.shared.eager ≠ t.shared.eager ∨
        t'.shared.streaming ≠ t.shared.streaming) →
      ∀ t'', Reaches t' t'' → ∀ error, t''.prog i ≠ .done (.null error) := by
  have hsafe := calls_safe hreach
  have hfits : ∀ {t : System (Handle ι) ι ModelOp ModelOp.Reply NewContextResult},
      Reaches (start descriptor linux params) t → ∀ i ctx, t.prog i = .done (.returned ctx) →
        Fits ctx t.shared.mode :=
    fun hreach i ctx hdone => ((calls_safe hreach).post_of_done hdone).2 ctx rfl
  refine ⟨fun hfree => ?_, hfits hreach, fun hlocked t' h => ?_, ?_⟩
  · obtain ⟨heager, hstreaming⟩ := (hsafe.inv hfree).mode_iff
    refine ⟨heager, hstreaming, fun hlocked => ?_, ?_⟩
    · -- whoever is still to return a context holds the mutex
      obtain ⟨i, hi⟩ := locked_willReturn hreach hlocked
      cases hprog : t.prog i with
      | done out =>
          rw [hprog] at hi
          obtain ⟨ctx, rfl⟩ := hi
          exact ⟨i, ctx, hprog⟩
      | call op next =>
          rw [hprog] at hi
          have hheld := (hsafe.ready_of_call hprog).holds hi.now
          rw [hfree] at hheld
          cases hheld
    · rintro ⟨i, ctx, hdone⟩
      exact fits_locked (hfits hreach i ctx hdone)
  · have hmode := mode_fixed hreach h hlocked
    refine ⟨hmode, fun i ctx hdone => ?_⟩
    rw [← hmode]
    exact fits_mode (hfits (hreach.trans h) i ctx hdone)
  · intro i t' hstep hchange t'' h error hdone
    have hwill := Prog.Always.reaches h (publisher_willReturn hreach hstep hchange)
    rw [hdone] at hwill
    obtain ⟨ctx, hctx⟩ := hwill
    cases hctx

/-- What a model of the BERT family says of itself. -/
def tinyModel : Engine where
  nEmbed := 8
  nLayer := 2
  maxSeqLen := 64
  defaultPooling := .mean
  architecture := "bert"

/-- `nanoembed_context_default_params`. -/
def defaultParams : ContextParams where
  nThreads := 0
  maxBatch := 64
  maxSeqLen := 512
  useStreaming := 0
  pooling := -1
  normalize := 1

/-- Call 0 asks for an eager context, all others for a streaming one. -/
def contending (i : Nat) : ContextParams :=
  if i = 0 then defaultParams else { defaultParams with useStreaming := 1 }

/-- Call 1, which asks for streaming, is about to lock when call 0 locks the mode to eager: it is turned
    away, and so is every later one. -/
theorem mode_locks_once_contended :
    ∃ (t : System (Handle Nat) Nat ModelOp ModelOp.Reply NewContextResult) (ctx : Context),
      Reaches (start tinyModel true contending) t ∧ t.prog 0 = .done (.returned ctx) ∧
        t.prog 1 = .done (.null (lockedMessage .streaming)) ∧ t.shared.mode = .eager ∧
        ∀ t', Reaches t t' → ∀ i ctx, t'.prog i = .done (.returned ctx) → ctx.mode = .eager := by
  let s : Handle Nat := { mode := .eager, eager := some tinyModel }
  let ctx : Context := ⟨.eager, fromParams defaultParams .mean, some (tinyModel.reserved 512), false⟩
  obtain ⟨p, hallocate, hlock⟩ : ∃ p, Advances (Exec 1) (newContext tinyModel (contending 1) true)
      ({} : Handle Nat) p {} ∧
      Advances (Exec 1) p s (pure (.null (lockedMessage .streaming))) s :=
    ⟨_, .call (.newContext (.ok ())) (.refl _ _),
      .call (.lock rfl) (.call .readMode (.call .unlock (.refl _ _)))⟩
  have hrun : Advances (Exec 0) (newContext tinyModel (contending 0) true) ({} : Handle Nat)
      (pure (.returned ctx)) s := by
    refine .call (.newContext (.ok ())) (.call (.lock rfl) (.call .readMode ?_))
    refine .call (.newScratch (.ok ())) (.call .readMode (.call (.newEmbedder (.ok tinyModel)) ?_))
    refine .call (.reserve tinyModel 512) (.call (.storeEager tinyModel) ?_)
    exact .call (.storeMode .eager) (.call .unlock (.refl _ _))
  have hreach : Reaches (start tinyModel true contending) _ :=
    ((hallocate.reaches _ _ rfl).trans (hrun.reaches _ _ rfl)).trans (hlock.reaches _ _ rfl)
  obtain ⟨_, _, hfixed, _⟩ := mode_locks_once hreach
  refine ⟨_, ctx, hreach, rfl, rfl, rfl, fun t' h i ctx hdone => ?_⟩
  exact (hfixed (by simp [s]) t' h).2 i ctx hdone

end Calls

end NanoEmbed.Api

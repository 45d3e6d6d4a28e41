/-
  File:      NanoEmbed/Api/EmbedBatch.lean
  Subject:   `nanoembed_embed_batch` (api/c_api.cpp; nanoembed.h: the status codes).

  The call checks its arguments, copies the texts, hands them to the engine of its mode, and turns
  what the engine throws into a status. An exception is dispatched to the first handler whose class
  it has; one that has none would escape.

  * `HostMemory` are the allocations the call itself makes. The planner and `materialize_batch` turn
    theirs into `AllocationError` and write nothing before: such a failure is one of the tokenizer, or
    of the run that would follow.
  * `engine_contract` -- what either engine leaves of the output;
  * `embed_batch_contract` -- what the caller finds.

  Left out: the cut of an error text to its buffer.
-/
import NanoEmbed.Api.NewContext

namespace NanoEmbed.Api

open Scatter Batch

/-! ## 1. Statuses and handlers -/

/-- The statuses the call returns. -/
inductive Status where
  | ok
  | errInvalidArg
  | errTokenize
  | errOom
  | errInternal
deriving DecidableEq, Repr

def Status.code : Status → Int
  | ok => 0
  | errInvalidArg => -1
  | errTokenize => -6
  | errOom => -7
  | errInternal => -99

/-- What a `catch` clause names. -/
inductive CatchClause where
  | tokenizerError
  | allocationError
  | badAlloc
  | lengthError
  | exception
  | any
deriving DecidableEq, Repr

/-- The classes a clause takes: the one it names and what derives from it. -/
def CatchClause.takes : CatchClause → Exc → Bool
  | tokenizerError, .tokenizerError _ => true
  | allocationError, .allocationError _ => true
  | badAlloc, .badAlloc => true
  | lengthError, .lengthError _ => true
  | exception, .foreign => false
  | exception, _ => true
  | any, _ => true
  | _, _ => false

/-- A handler of `nanoembed_embed_batch`: they differ in the clause and the status. -/
structure Handler where
  clause : CatchClause
  status : Status
deriving DecidableEq, Repr

/-- The handlers, in the order of the source. -/
def handlers : List Handler :=
  [⟨.tokenizerError, .errTokenize⟩, ⟨.allocationError, .errOom⟩, ⟨.badAlloc, .errOom⟩,
    ⟨.lengthError, .errOom⟩, ⟨.exception, .errInternal⟩, ⟨.any, .errInternal⟩]

/-- The text a handler leaves for `nanoembed_last_error`. -/
def Handler.message (h : Handler) (e : Exc) : String :=
  if h.clause = .any then "unknown internal error" else e.what

/-- What a call returns, with the text it leaves; `""` where the text was cleared. -/
structure Reply where
  status : Status
  lastError : String
deriving DecidableEq, Repr

/-! ## 2. The call -/

variable {F σ Text : Type}

/-- What the handle holds once its mode is locked. Descriptor and engine agree on the sizes
    (`require_descriptor_match`). -/
structure LoadedModel (F σ Text : Type) where
  nEmbed : Int
  maxSeqLen : Int
  tokenizer : Tokenizer Text
  nan : F
  prepare : σ → σ
  runEager : RunBatch F σ nEmbed.toNat
  runStreaming : RunBatch F σ nEmbed.toNat

/-- The allocations outside the engines' own handlers that can fail: the copies of the texts, and the
    slots of a streaming context. -/
structure HostMemory where
  texts : Option Exc := none
  slots : Option Exc := none

/-- `std::fill(out, out + n, NaN)`. -/
def fillNaN (nan : F) (n : Nat) (output : List F) : List F := List.replicate n nan ++ output.drop n

namespace LoadedModel

variable (m : LoadedModel F σ Text) (host : HostMemory)

/-- The number of floats of an output row. -/
abbrev width : Nat := m.nEmbed.toNat

/-- The runs of the engine a context uses. -/
def run (mode : ExecutionMode) : RunBatch F σ m.width :=
  if mode = .streaming then m.runStreaming else m.runEager

/-- `model->streaming->embed_batch`: the slots are resized between the plan and the `try` block. -/
def streamingCall (cfg : EmbedderConfig) (texts : List Text) (s : σ) (output : List F) :
    Except Exc Unit × σ × Option (List F) :=
  match host.slots with
  | none =>
      InternalStreamingModel.embedBatch m.tokenizer m.width m.maxSeqLen m.nan m.prepare
        m.runStreaming cfg texts s (some output)
  | some e =>
      match makeBatchPlan m.tokenizer texts (cfg.limit m.maxSeqLen) cfg.maxBatch with
      | .error planning => (.error planning, s, some output)
      | .ok _ => (.error e, s, some output)

/-- The `try` block. -/
def tryBlock (ctx : Context) (texts : List Text) (s : σ) (output : List F) :
    Except Exc Unit × σ × Option (List F) :=
  match host.texts with
  | some e => (.error e, s, some output)
  | none =>
      match ctx.mode with
      | .eager =>
          Embedder.embedBatch m.tokenizer m.width m.maxSeqLen m.runEager ctx.cfg texts s
            (some output)
      | .streaming => m.streamingCall host ctx.cfg texts s output
      | .unlocked =>
          (.error (.runtimeError "context has no resolved execution mode"), s, some output)

/-- `nanoembed_embed_batch`; an error is an exception that escapes. `none` is a null pointer, and
    `texts i` is the pointer at `texts[i]`. -/
def embedBatch (ctx : Option Context) (texts : Option (Nat → Option Text)) (nTexts : Int) (s : σ)
    (out : Option (List F)) : Except Exc Reply × σ × Option (List F) :=
  match ctx, texts, out with
  | some ctx, some texts, some output =>
      if nTexts < 0 then (.ok ⟨.errInvalidArg, "n_texts must be non-negative"⟩, s, some output)
      else if m.nEmbed ≤ 0 ∨ sizeMax / m.width < nTexts.toNat then
        (.ok ⟨.errInvalidArg, "batch output size overflows size_t"⟩, s, some output)
      else
        match (List.range nTexts.toNat).mapM texts with
        | none => (.ok ⟨.errInvalidArg, "null pointer in texts[]"⟩, s, some output)
        | some owned =>
            if nTexts = 0 then (.ok ⟨.ok, ""⟩, s, some output)
            else
              match m.tryBlock host ctx owned s output with
              | (.ok (), s, out) => (.ok ⟨.ok, ""⟩, s, out)
              | (.error e, s, out) =>
                  match handlers.find? fun h => h.clause.takes e with
                  | some h => (.ok ⟨h.status, h.message e⟩, s,
                      out.map (fillNaN m.nan (nTexts.toNat * m.width)))
                  | none => (.error e, s, out)
  | _, _, _ => (.ok ⟨.errInvalidArg, "ctx / texts / out must be non-null"⟩, s, out)

end LoadedModel

/-! ## 3. The handlers -/

/-- **No exception escapes**, and every handler reports a failure. -/
theorem handled (e : Exc) : ∃ h, handlers.find? (fun h => h.clause.takes e) = some h ∧
    h.status.code < 0 ∧ h.status ≠ .errInvalidArg := by
  cases e <;> exact ⟨_, rfl, by decide, by decide⟩

/-! ## 4. The engines -/

section Engines

variable {tokenizer : Tokenizer Text} {nEmbed : Nat} {run : RunBatch F σ nEmbed} {limit : Int}
  {texts : List Text} {output : List F}

/-- **What an engine leaves**: nothing past the rows of the texts is written, and where it returns, each
    row holds its text, out of a run that returned. -/
def Leaves (tokenizer : Tokenizer Text) (nEmbed : Nat) (run : RunBatch F σ nEmbed) (limit : Int)
    (texts : List Text) (output : List F) (res : Except Exc Unit × σ × Option (List F)) : Prop :=
  ∃ result, res.2.2 = some result ∧ result.length = output.length ∧
    result.drop (texts.length * nEmbed) = output.drop (texts.length * nEmbed) ∧
    (res.1 = .ok () → ∃ plan, ∀ i, i < texts.length →
      RowOfText tokenizer nEmbed run limit texts plan i (row nEmbed result i))

/-- An engine that throws before it writes. -/
theorem leaves_error (e : Exc) (s : σ) :
    Leaves tokenizer nEmbed run limit texts output (.error e, s, some output) :=
  ⟨output, rfl, rfl, rfl, fun h => nomatch h⟩

/-- The loop over the sub-batches. -/
theorem leaves_subbatches {plan : BatchPlan} {maxBatch : Int}
    (hplan : makeBatchPlan tokenizer texts limit maxBatch = .ok plan)
    (hout : texts.length * nEmbed ≤ output.length) (s : σ) :
    let out := subbatches tokenizer nEmbed run plan (List.range plan.subbatchCount) s output
    Leaves tokenizer nEmbed run limit texts output (out.1, out.2.1, some out.2.2) := by
  have hp := (makeBatchPlan_planned hplan).1
  obtain ⟨front, back, rfl, hfront⟩ : ∃ front back, output = front ++ back ∧
      RowsOf texts.length nEmbed front :=
    ⟨_, _, (List.take_append_drop _ output).symm, List.length_take_of_le hout⟩
  obtain ⟨hrows, happend⟩ := @subbatches_append F σ Text tokenizer nEmbed run limit texts plan hp
    (List.range plan.subbatchCount) s front hfront back
  have hall := fun s' front' => @subbatches_all F σ Text tokenizer nEmbed run limit texts plan hp s
    s' front front' hfront
  rw [happend]
  generalize subbatches tokenizer nEmbed run plan (List.range plan.subbatchCount) s front = out
    at hrows hall ⊢
  obtain ⟨ending, s', front'⟩ := out
  have hdrop : ∀ l : List F, RowsOf texts.length nEmbed l →
      (l ++ back).drop (texts.length * nEmbed) = back := fun l hl => List.drop_left' hl
  refine ⟨_, rfl, ?_, ?_, fun hok => ⟨plan, fun i hi => ?_⟩⟩
  · rw [List.length_append, List.length_append, hrows, hfront]
  · rw [hdrop _ hrows, hdrop _ hfront]
  · rw [row_append hrows hi]
    have hok : ending = .ok () := hok
    exact (hall s' front' (by rw [hok])).2 i hi

theorem leaves_eager {maxSeqLen : Int} {cfg : EmbedderConfig} (hne : texts ≠ [])
    (hout : texts.length * nEmbed ≤ output.length) (s : σ) :
    Leaves tokenizer nEmbed run (cfg.limit maxSeqLen) texts output
      (Embedder.embedBatch tokenizer nEmbed maxSeqLen run cfg texts s (some output)) := by
  unfold Embedder.embedBatch
  dsimp only
  rw [if_neg hne]
  cases hplan : makeBatchPlan tokenizer texts (cfg.limit maxSeqLen) cfg.maxBatch with
  | error e => exact leaves_error e s
  | ok plan => exact leaves_subbatches hplan hout s

theorem leaves_streaming {maxSeqLen : Int} {cfg : EmbedderConfig} (hne : texts ≠ [])
    (hout : texts.length * nEmbed ≤ output.length) (nan : F) (prepare : σ → σ) (s : σ) :
    Leaves tokenizer nEmbed run (cfg.limit maxSeqLen) texts output
      (InternalStreamingModel.embedBatch tokenizer nEmbed maxSeqLen nan prepare run cfg texts s
        (some output)) := by
  unfold InternalStreamingModel.embedBatch
  dsimp only
  rw [if_neg hne]
  cases hplan : makeBatchPlan tokenizer texts (cfg.limit maxSeqLen) cfg.maxBatch with
  | error e => exact leaves_error e s
  | ok plan =>
      obtain ⟨result, hresult, hlen, hrest, hrows⟩ :=
        @leaves_subbatches F σ Text tokenizer nEmbed run _ texts output plan _ hplan hout (prepare s)
      dsimp only
      rcases hloop : subbatches tokenizer nEmbed run plan (List.range plan.subbatchCount) (prepare s)
        output with ⟨e | _, s', output'⟩ <;> rw [hloop] at hresult hrows <;>
        obtain rfl := Option.some.inj hresult
      · -- every row is poisoned
        refine ⟨_, rfl, ?_, ?_, fun h => nomatch h⟩
        · have hlen : output'.length = output.length := hlen
          unfold poisonOutput
          rw [List.length_append, List.length_replicate, List.length_drop]
          omega
        · unfold poisonOutput
          rw [List.drop_left' List.length_replicate, hrest]
      · exact ⟨_, rfl, hlen, hrest, hrows⟩

end Engines

/-! ## 5. The result -/

section Result

variable (m : LoadedModel F σ Text)

/-- **The output contract** of a call that finds `out` and leaves `out'`. -/
inductive Contract (ctx : Option Context) (texts : Option (Nat → Option Text)) (nTexts : Int)
    (out : Option (List F)) : Reply → Option (List F) → Prop where
  | refused (what : String) : Contract ctx texts nTexts out ⟨.errInvalidArg, what⟩ out
  | completed (c : Context) (pointers : Nat → Option Text) (owned : List Text)
      (output result : List F) (plan : BatchPlan) (hctx : ctx = some c) (htexts : texts = some pointers)
      (howned : (List.range nTexts.toNat).mapM pointers = some owned) (hout : out = some output)
      (hlength : result.length = output.length)
      (hrest : result.drop (nTexts.toNat * m.width) = output.drop (nTexts.toNat * m.width))
      (hrows : ∀ i, i < nTexts.toNat → RowOfText m.tokenizer m.width (m.run c.mode)
        (c.cfg.limit m.maxSeqLen) owned plan i (row m.width result i)) :
      Contract ctx texts nTexts out ⟨.ok, ""⟩ (some result)
  | poisoned (status : Status) (what : String) (output : List F) (hout : out = some output)
      (hnegative : status.code < 0) (hother : status ≠ .errInvalidArg) :
      Contract ctx texts nTexts out ⟨status, what⟩
        (some (fillNaN m.nan (nTexts.toNat * m.width) output))

theorem mapM_length {α β : Type} {f : α → Option β} {l : List α} {l' : List β}
    (h : l.mapM f = some l') : l'.length = l.length := by
  induction l generalizing l' with
  | nil =>
      obtain rfl := Option.some.inj h
      rfl
  | cons a l ih =>
      rw [List.mapM_cons] at h
      obtain ⟨b, _, h⟩ := Option.bind_eq_some_iff.mp h
      obtain ⟨tail, htail, h⟩ := Option.bind_eq_some_iff.mp h
      obtain rfl := Option.some.inj h
      rw [List.length_cons, List.length_cons, ih htail]

/-- The `try` block leaves what the engine of the context leaves. -/
theorem leaves_tryBlock (host : HostMemory) (ctx : Context) {texts : List Text} (hne : texts ≠ [])
    {output : List F} (hout : texts.length * m.width ≤ output.length) (s : σ) :
    Leaves m.tokenizer m.width (m.run ctx.mode) (ctx.cfg.limit m.maxSeqLen) texts output
      (m.tryBlock host ctx texts s output) := by
  unfold LoadedModel.tryBlock
  cases host.texts with
  | some e => exact leaves_error e s
  | none =>
      dsimp only
      unfold LoadedModel.run
      cases ctx.mode with
      | unlocked => exact leaves_error _ s
      | eager => exact leaves_eager hne hout s
      | streaming =>
          unfold LoadedModel.streamingCall
          cases host.slots with
          | none => exact leaves_streaming hne hout m.nan m.prepare s
          | some e =>
              dsimp only
              cases makeBatchPlan m.tokenizer texts (ctx.cfg.limit m.maxSeqLen) ctx.cfg.maxBatch with
              | error planning => exact leaves_error planning s
              | ok plan => exact leaves_error e s

/-- **The output contract of `nanoembed_embed_batch`.** For every context, array of texts and count, and
    whatever fails with whatever exception: the call returns. It refuses its arguments and leaves the
    output untouched; or it succeeds, and each of the `n_texts` rows is a lane of a sub-batch that
    completed; or it fails, and all `n_texts * n_embed` floats are NaN. What follows them stays as it
    is. -/
theorem embed_batch_contract (host : HostMemory) (ctx : Option Context)
    (texts : Option (Nat → Option Text)) (nTexts : Int) (s : σ) (out : Option (List F))
    (hout : ∀ output, out = some output → nTexts.toNat * m.width ≤ output.length) :
    ∃ reply s' out', m.embedBatch host ctx texts nTexts s out = (.ok reply, s', out') ∧
      Contract m ctx texts nTexts out reply out' := by
  unfold LoadedModel.embedBatch
  rcases ctx with _ | ctx
  · exact ⟨_, _, _, rfl, .refused _⟩
  rcases texts with _ | pointers
  · exact ⟨_, _, _, rfl, .refused _⟩
  rcases out with _ | output
  · exact ⟨_, _, _, rfl, .refused _⟩
  dsimp only
  split
  · exact ⟨_, _, _, rfl, .refused _⟩
  split
  · exact ⟨_, _, _, rfl, .refused _⟩
  cases howned : (List.range nTexts.toNat).mapM pointers with
  | none => exact ⟨_, _, _, rfl, .refused _⟩
  | some owned =>
      have hlen := mapM_length howned
      rw [List.length_range] at hlen
      dsimp only
      split
      · rename_i hzero
        subst hzero
        exact ⟨_, _, _, rfl, .completed ctx pointers owned output output {} rfl rfl howned rfl rfl rfl
          fun i hi => absurd hi (Nat.not_lt_zero i)⟩
      · have hne : owned ≠ [] := List.ne_nil_of_length_pos (by omega)
        obtain ⟨result, hresult, hlength, hrest, hrows⟩ :=
          leaves_tryBlock m host ctx hne (hlen.symm ▸ hout output rfl) s
        rw [hlen] at hrest hrows
        rcases hcall : m.tryBlock host ctx owned s output with ⟨e | _, s', out'⟩ <;>
          rw [hcall] at hresult hrows <;> obtain rfl := hresult
        · obtain ⟨h, hfind, hnegative, hother⟩ := handled e
          have hpoisoned : fillNaN m.nan (nTexts.toNat * m.width) result =
              fillNaN m.nan (nTexts.toNat * m.width) output := by
            unfold fillNaN
            rw [hrest]
          dsimp only
          rw [hfind, Option.map_some, hpoisoned]
          exact ⟨_, _, _, rfl, .poisoned _ _ output rfl hnegative hother⟩
        · obtain ⟨plan, hplan⟩ := hrows rfl
          exact ⟨_, _, _, rfl, .completed ctx pointers owned output result plan rfl rfl howned rfl
            hlength hrest hplan⟩

end Result

/-- A model whose runs count tokens, and throw for a text of three. -/
def threeFails : LoadedModel Int Unit String where
  nEmbed := 1
  maxSeqLen := 64
  tokenizer := lengthTokenizer
  nan := -1
  prepare := id
  runEager := fun batch s =>
    if batch.seqLen = 3 then (.error .badAlloc, s) else countRun batch s
  runStreaming := fun batch s =>
    if batch.seqLen = 3 then (.error .foreign, s) else countRun batch s

/-- The second sub-batch runs out of memory, after the first has written its row. -/
theorem embed_batch_contract_oom :
    threeFails.embedBatch {} (some ⟨.eager, {}, none, false⟩)
        (some fun i => ["ccc", "a"][i]?) 2 () (some [0, 0, 7]) =
      (.ok ⟨.errOom, "std::bad_alloc"⟩, (), some [-1, -1, 7]) ∧
    Contract threeFails (some ⟨.eager, {}, none, false⟩) (some fun i => ["ccc", "a"][i]?) 2
      (some [0, 0, 7]) ⟨.errOom, "std::bad_alloc"⟩ (some [-1, -1, 7]) := by
  have hcall : threeFails.embedBatch {} (some ⟨.eager, {}, none, false⟩)
      (some fun i => ["ccc", "a"][i]?) 2 () (some [0, 0, 7]) =
      (.ok ⟨.errOom, "std::bad_alloc"⟩, (), some [-1, -1, 7]) := by rfl
  obtain ⟨reply, s', out', hrun, hcontract⟩ := embed_batch_contract threeFails {}
    (some ⟨.eager, {}, none, false⟩) (some fun i => ["ccc", "a"][i]?) 2 () (some [0, 0, 7])
    (fun output h => by obtain rfl := Option.some.inj h; decide)
  obtain ⟨hreply, _, hout⟩ : Except.ok reply = Except.ok _ ∧ s' = () ∧ out' = _ := by
    have h := hrun.symm.trans hcall
    exact ⟨congrArg Prod.fst h, rfl, congrArg (fun r => r.2.2) h⟩
  obtain rfl := Except.ok.inj hreply
  obtain rfl := hout
  exact ⟨hcall, hcontract⟩

end NanoEmbed.Api

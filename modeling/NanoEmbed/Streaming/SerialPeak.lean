/-
  File:      NanoEmbed/Streaming/SerialPeak.lean
  Subject:   ONE CONTEXT HOLDS ONE LEASE AT A TIME, AND HOW MUCH THAT LETS IT ADVISE.

  * `Serial` -- at no moment so far was more than one lease out, and the recorded peak is the common
    bytes and at most so much above; every step keeps it, an acquisition where no lease is out and the
    ranges are no longer than that;
  * `call_serial` -- a call keeps it, however it ends;
  * `group_bytes` -- the pages of a group are the bytes of its weights with less than a page more at
    each end;
  * `serial_residency_peak` -- so it is for every constructed model and every sequence of calls.
-/
import NanoEmbed.Streaming.BatchLeases
import NanoEmbed.Streaming.Classification
import NanoEmbed.Streaming.Constructed
import NanoEmbed.Streaming.PageCover

namespace NanoEmbed.Streaming

open Fallible Interval Transition Effects Batch Arch

/-! ## 1. The books of one context -/

namespace Coordinator

/-- **At no moment so far was more than one lease out**, and the peak is at most `above` bytes above the
    common ones. -/
structure Serial (commonBytes above : Nat) (c : Coordinator) : Prop where
  alone : ∀ past, past <:+ c.events → (activeOf past).length ≤ 1
  highWater : c.diag.leaseHighWater ≤ 1
  common : c.commonBytes = commonBytes
  peak : c.diag.advisedBytesHighWater ≤ commonBytes + above

variable {ms ps cb above : Nat} {c : Coordinator}

theorem alone_cons {e : Event} {es : List Event}
    (h : ∀ past, past <:+ es → (activeOf past).length ≤ 1) (he : (activeOf (e :: es)).length ≤ 1) :
    ∀ past, past <:+ e :: es → (activeOf past).length ≤ 1 := by
  intro past hpast
  rcases List.suffix_cons_iff.mp hpast with rfl | hpast
  · exact he
  · exact h past hpast

theorem Serial.called (h : c.Serial cb above) (kind : AdviceKind) (range : StreamingByteRange)
    (ok : Bool) : (c.called kind range ok).Serial cb above := by
  have halone := alone_cons (e := .advice kind range ok) h.alone (h.alone c.events List.suffix_rfl)
  cases kind <;> exact ⟨halone, h.highWater, h.common, h.peak⟩

theorem Serial.calledAll (h : c.Serial cb above) (kind : AdviceKind)
    (ranges : List StreamingByteRange) : (c.calledAll kind ranges).Serial cb above := by
  induction ranges generalizing c with
  | nil => exact h
  | cons range ranges ih => exact ih (h.called kind range true)

theorem Serial.adviseAll (h : c.Serial cb above) (advice : Advice) (kind : AdviceKind)
    (ranges : List StreamingByteRange) :
    (Coordinator.adviseAll advice kind ranges c).2.Serial cb above := by
  rcases adviseAll_cases advice kind ranges c with ⟨_, hrun⟩ | ⟨pre, range, _, _, _, _, hrun⟩ <;>
    rw [hrun]
  · exact h.calledAll kind ranges
  · exact (h.calledAll kind pre).called kind range false

/-- The first lease that is out. -/
theorem Serial.register (h : c.Serial cb above) (hnone : activeOf c.events = [])
    (hzero : c.diag.activeLeases = 0) (key : String) (ranges : List StreamingByteRange) :
    (c.register key ranges).Serial cb above where
  alone := by
    refine alone_cons h.alone ?_
    show (activeOf c.events ++ [_]).length ≤ 1
    rw [hnone]
    exact Nat.le_refl 1
  highWater := by
    show max c.diag.leaseHighWater (c.diag.activeLeases + 1) ≤ 1
    rw [hzero]
    exact max_le h.highWater (Nat.le_refl 1)
  common := h.common
  peak := h.peak

theorem Serial.noteAdvisedPeak {c' : Coordinator} (h : c.Serial cb above)
    (hcurrent : ∀ n, c.currentAdvisedBytes = .ok n → n ≤ above)
    (hrun : c.noteAdvisedPeak = .ok c') : c'.Serial cb above := by
  obtain ⟨current, hcur, hok⟩ := bind_eq_ok.mp hrun
  obtain rfl := Except.ok.inj hok
  refine ⟨h.alone, h.highWater, h.common, max_le h.peak ?_⟩
  have hmod := Nat.mod_le (current + c.commonBytes) (2 ^ 64)
  have hle := hcurrent current hcur
  have hcommon := h.common
  omega

theorem Serial.noteTokenRows (h : c.Serial cb above) (ranges : List StreamingByteRange) :
    (c.noteTokenRows ranges).2.Serial cb above := by
  unfold Coordinator.noteTokenRows
  split
  · exact h
  · dsimp only
    split <;> exact ⟨h.alone, h.highWater, h.common, h.peak⟩

/-- **One lease of planned ranges advises at most their bytes.** -/
theorem currentAdvisedBytes_le (g : Geometry ms ps) {raw ranges : List StreamingByteRange}
    (hplan : pageAlignAndCoalesce raw ms ps = .ok ranges) (hmapping : c.mappingSize = ms)
    (hpage : c.pageSize = ps) (hcommon : ∀ r ∈ c.common, Fits r) (hactive : c.activeRanges = ranges)
    {n : Nat} (h : c.currentAdvisedBytes = .ok n) : n ≤ (ranges.map (·.length)).sum := by
  unfold currentAdvisedBytes at h
  rw [hactive, hmapping, hpage] at h
  dsimp only at h
  split at h
  · rw [(planned_again g.fits hplan).1, ok_bind] at h
    obtain ⟨rest, hrest, hbytes⟩ := bind_eq_ok.mp h
    rw [byteCount_eq hbytes]
    exact subtractRanges_sum_le (planned_fits g.fits hplan) hcommon hrest
  · rw [byteCount_eq h]
    exact Nat.zero_le _

/-- **Acquiring planned ranges while no lease is out**, whether or not it throws. -/
theorem Serial.acquire (h : c.Serial cb above) (g : Geometry ms ps) (hbooks : c.Books ms ps)
    (hidle : c.active = []) (hzero : c.diag.activeLeases = 0) {raw ranges : List StreamingByteRange}
    (hplan : pageAlignAndCoalesce raw ms ps = .ok ranges)
    (hbytes : (ranges.map (·.length)).sum ≤ above) (advice : Advice) (key : String)
    (tokenRows : Bool) : (c.acquire advice key ranges tokenRows).2.Serial cb above := by
  unfold Coordinator.acquire
  split
  · exact h
  split
  · exact h
  have hadvised := h.adviseAll advice .willNeed ranges
  have hsame := adviseAll_sameAccounts advice .willNeed ranges c
  have hbook := adviseAll_sameBooks advice .willNeed ranges c
  rcases hrun : Coordinator.adviseAll advice .willNeed ranges c with ⟨e | _, c₁⟩ <;>
    rw [hrun] at hadvised hsame hbook <;> dsimp only at hadvised hsame hbook ⊢
  · exact hadvised
  have hregister : (c₁.register key ranges).Serial cb above := by
    refine hadvised.register ?_ (hsame.activeLeases.trans hzero) key ranges
    rw [hbook.activeHistory, hbooks.activeHistory, hidle]
  have hactive : (c₁.register key ranges).activeRanges = ranges := by
    show (c₁.active ++ [(c₁.nextId, (⟨key, ranges⟩ : ActiveLease))]).flatMap (·.2.ranges) = ranges
    rw [hbook.active, hidle, List.nil_append, List.flatMap_singleton]
  have hcurrent : ∀ n, (c₁.register key ranges).currentAdvisedBytes = .ok n → n ≤ above := by
    intro n hn
    refine (currentAdvisedBytes_le (c := c₁.register key ranges) g hplan (hbook.mappingSize.trans hbooks.mapping)
      (hbook.pageSize.trans hbooks.page) ?_ hactive hn).trans hbytes
    intro r hr
    have hr : r ∈ c.common := hbook.common ▸ hr
    exact (hbooks.common r hr).2.trans g.fits
  cases hpeak : (c₁.register key ranges).noteAdvisedPeak with
  | error e => exact hregister
  | ok c₂ =>
      have hnoted := hregister.noteAdvisedPeak hcurrent hpeak
      dsimp only
      split
      · have hrows := hnoted.noteTokenRows ranges
        split <;> rename_i hrun <;> rw [hrun] at hrows <;> exact hrows
      · exact hnoted

/-- Dropping pages takes nothing on. -/
theorem Serial.dropPending (h : c.Serial cb above) (advice : Advice) (key : String) :
    (c.dropPending advice key).2.Serial cb above := by
  have hclear : (c.clearPending key).Serial cb above := ⟨h.alone, h.highWater, h.common, h.peak⟩
  unfold Coordinator.dropPending
  split
  · exact h
  · dsimp only
    split
    · exact hclear
    · rename_i releasable _
      have hdropped := hclear.adviseAll advice .dontNeed releasable
      unfold dropReleasable
      split <;> rename_i hrun <;> rw [hrun] at hdropped
      · exact ⟨hdropped.alone, hdropped.highWater, hdropped.common, hdropped.peak⟩
      · exact hdropped

/-- **A release takes nothing on**, whatever it is called with. -/
theorem Serial.release (h : c.Serial cb above) (advice : Advice) (id : Nat) (key : String)
    (computeComplete : Bool) : (c.release advice id key computeComplete).2.Serial cb above := by
  rcases release_cases advice id key computeComplete c with
    ⟨_, hrun⟩ | ⟨_, ⟨_, hrun⟩ | ⟨_, ⟨_, hrun⟩ | ⟨_, hrun⟩⟩⟩ <;> rw [hrun]
  · exact h
  · exact ⟨h.alone, h.highWater, h.common, h.peak⟩
  · exact ⟨h.alone, h.highWater, h.common, h.peak⟩
  · have hout : ({ c with diag := { c.diag with
        computeCompletions := c.diag.computeCompletions + 1 } }.unregister id key).Serial cb above := by
      refine ⟨alone_cons h.alone ?_, h.highWater, h.common, h.peak⟩
      exact (List.length_filter_le _ _).trans (h.alone _ List.suffix_rfl)
    split
    · exact hout
    · exact hout.dropPending advice key

/-- **The common ranges alone**: nothing else is advised yet. -/
theorem serial_retained {advice : Advice} {ranges : List StreamingByteRange}
    (h : (Coordinator.retainCommon advice ranges { mappingSize := ms, pageSize := ps }).1 = .ok ()) :
    (Coordinator.retainCommon advice ranges { mappingSize := ms, pageSize := ps }).2.Serial
      (ranges.map (·.length)).sum above := by
  have hstart : Serial 0 0 { mappingSize := ms, pageSize := ps } :=
    { alone := fun past hpast => by
        rw [List.suffix_nil.mp hpast]
        exact Nat.zero_le 1
      highWater := Nat.zero_le 1
      common := rfl
      peak := Nat.le_refl 0 }
  have hadvised := hstart.adviseAll advice .willNeed ranges
  have hbook := adviseAll_sameBooks advice .willNeed ranges { mappingSize := ms, pageSize := ps }
  unfold Coordinator.retainCommon at h ⊢
  rw [if_neg (by simp)] at h ⊢
  rcases hrun : Coordinator.adviseAll advice .willNeed ranges { mappingSize := ms, pageSize := ps }
    with ⟨e | _, c₁⟩ <;> rw [hrun] at h hadvised hbook
  · cases h
  dsimp only at h hadvised hbook ⊢
  cases hbytes : byteCount ranges with
  | error e => rw [hbytes] at h; cases h
  | ok bytes =>
      rw [hbytes] at h
      dsimp only at h ⊢
      have hretained : Serial bytes above { c₁.retain ranges with commonBytes := bytes } :=
        { alone := alone_cons hadvised.alone (hadvised.alone c₁.events List.suffix_rfl)
          highWater := hadvised.highWater
          common := rfl
          peak := hadvised.peak.trans (Nat.zero_le _) }
      have hnone : ∀ n, Coordinator.currentAdvisedBytes
          { c₁.retain ranges with commonBytes := bytes } = .ok n → n ≤ above := by
        intro n hn
        have hactive : Coordinator.activeRanges { c₁.retain ranges with commonBytes := bytes } = [] := by
          show c₁.active.flatMap (·.2.ranges) = []
          rw [hbook.active]
          rfl
        unfold Coordinator.currentAdvisedBytes at hn
        rw [hactive] at hn
        rw [byteCount_eq hn]
        exact Nat.zero_le _
      cases hpeak : Coordinator.noteAdvisedPeak { c₁.retain ranges with commonBytes := bytes } with
      | error e => rw [hpeak] at h; cases h
      | ok c₂ =>
          rw [← byteCount_eq hbytes]
          exact hretained.noteAdvisedPeak hnone hpeak

end Coordinator

open Coordinator

/-! ## 2. Calls -/

section Calls

variable {V F Text : Type} {host : Host} {base : System} {ms ps cb above : Nat}

theorem serial_acquired {s : System} (h : s.coord.Serial cb above) (g : Geometry ms ps)
    (hbooks : s.coord.Books ms ps) (hidle : s.coord.active = []) (hzero : s.coord.diag.activeLeases = 0)
    {raw ranges : List StreamingByteRange} (hplan : pageAlignAndCoalesce raw ms ps = .ok ranges)
    (hbytes : (ranges.map (·.length)).sum ≤ above) (advice : Advice) (key : String)
    (tokenRows : Bool) :
    (s.after advice (.acquire key ranges tokenRows)).coord.Serial cb above := by
  have hout := h.acquire g hbooks hidle hzero hplan hbytes advice key tokenRows
  unfold System.after System.step
  dsimp only
  rcases hrun : s.coord.acquire advice key ranges tokenRows with ⟨e | l, c⟩ <;> rw [hrun] at hout <;>
    exact hout

theorem serial_releaseAt {s : System} (h : s.coord.Serial cb above) (advice : Advice) (i : Nat) :
    (s.releaseAt advice i).2.coord.Serial cb above := by
  unfold System.releaseAt
  split
  · exact h
  · rename_i l _
    unfold Lease.release
    split
    · exact h
    · exact h.release advice l.id l.key l.computeComplete

/-- Every lease acquired so far is returned. -/
def Balanced (s : System) : Prop :=
  s.coord.diag.leasesAcquired = s.coord.diag.leasesReleased

/-- **Between two lease scopes of a call no lease is out.** -/
theorem CallSettled.idle {s : System} (h : CallSettled host.advice ms ps base s)
    (g : Geometry ms ps) (hbase : Balanced base) :
    Balanced s ∧ s.coord.active = [] ∧ s.coord.diag.activeLeases = 0 := by
  obtain ⟨hreach, own, hset⟩ := h
  have hacc := (System.accounts_reachable g hreach).coord
  have hbalanced : Balanced s := by
    unfold Balanced at hbase ⊢
    rw [hset.acquired, hset.released, hbase]
  have hzero : s.coord.diag.activeLeases = 0 := by
    have htotal := hacc.acquired
    unfold Balanced at hbalanced
    omega
  exact ⟨hbalanced, List.length_eq_zero_iff.mp (hacc.active.symm.trans hzero), hzero⟩

/-- The invariant of a call that starts in `base`. -/
def CallSerial (host : Host) (ms ps cb above : Nat) (base s : System) : Prop :=
  CallSettled host.advice ms ps base s ∧ s.coord.Serial cb above

/-- **A lease scope of planned ranges**, whatever its phase does and however the scope is left. -/
theorem serial_withLease (g : Geometry ms ps) (hbase : Balanced base) (key : String)
    {raw ranges : List StreamingByteRange} (hplan : pageAlignAndCoalesce raw ms ps = .ok ranges)
    (hbytes : (ranges.map (·.length)).sum ≤ above) (tokenRows : Bool) {phase : StreamM V Unit}
    (hphase : ∀ P, Keeps (OfSystem P) phase) :
    Keeps (OfSystem (CallSerial host ms ps cb above base))
      (withLease host key ranges tokenRows phase) := by
  have hserial : Triple (OfSystem (V := V) (CallSerial host ms ps cb above base))
      (withLease host key ranges tokenRows phase) (fun _ => OfSystem fun s => s.coord.Serial cb above)
      (OfSystem fun s => s.coord.Serial cb above) := by
    intro s ⟨hset, hs⟩
    obtain ⟨-, hidle, hzero⟩ := hset.idle g hbase
    have hbooks := (System.inv_reachable g hset.1).coord.books
    have hnext := serial_acquired hs g hbooks hidle hzero hplan hbytes host.advice key tokenRows
    have hscope : LeaseScope host key ranges tokenRows s.system
        (fun _ t => t.coord.Serial cb above) (fun t => t.coord.Serial cb above)
        (fun t => t.coord.Serial cb above) :=
      { refused := fun _ _ => hnext
        granted := fun _ => hnext
        marked := fun _ _ ht => ht
        released := fun _ ht => serial_releaseAt ht host.advice _
        again := fun _ ht => ht
        destroyed := fun _ ht => serial_releaseAt (ht.elim id id) host.advice _
        done := fun _ ht => ht }
    exact hscope.triple hphase s rfl
  exact ((keeps_withLease g key hplan tokenRows hphase).and hserial).conseq
    (fun _ hs => ⟨hs.1, hs⟩) (fun _ _ hs => hs) fun _ hs => hs

/-- The page-rounded bytes of the token rows of a sub-batch. -/
def StreamingModel.rowBytes (model : StreamingModel V F) (batch : MaterializedBatch) : Nat :=
  match tokenRowRanges model.token.absoluteOffset model.token.nbytes model.token.rowStride
      model.token.rowCount batch.tokenIds model.mappedSize model.pageSize with
  | .ok rows => (rows.map (·.length)).sum
  | .error _ => 0

/-- A call of a context. -/
structure BatchCall (Text F : Type) where
  cfg : EmbedderConfig
  texts : List Text
  output : Option (List F)

/-- The sub-batches of a call. -/
def BatchCall.subBatches (call : BatchCall Text F) (tokenizer : Tokenizer Text) (maxSeqLen : Int) :
    List MaterializedBatch :=
  match makeBatchPlan tokenizer call.texts (call.cfg.limit maxSeqLen) call.cfg.maxBatch with
  | .ok plan => (List.range plan.subbatchCount).filterMap fun k =>
      (materializeBatch plan k tokenizer.paddingId tokenizer.vocabSize).toOption
  | .error _ => []

theorem IsSubBatch.mem {tokenizer : Tokenizer Text} {maxSeqLen : Int} {call : BatchCall Text F}
    {batch : MaterializedBatch} (h : IsSubBatch tokenizer maxSeqLen call.cfg call.texts batch) :
    batch ∈ call.subBatches tokenizer maxSeqLen := by
  obtain ⟨plan, k, hplan, hk, hbatch⟩ := h
  unfold BatchCall.subBatches
  rw [hplan]
  exact List.mem_filterMap.mpr ⟨k, List.mem_range.mpr hk, by rw [hbatch]; rfl⟩

variable {model : StreamingModel V F} {tokenizer : Tokenizer Text} {nan : F} {empty : V}

/-- The calls of one context, one after the other, whether or not they throw. -/
def StreamingModel.embedBatches (model : StreamingModel V F) (host : Host)
    (tokenizer : Tokenizer Text) (nan : F) (empty : V) (s : StreamState V)
    (calls : List (BatchCall Text F)) : StreamState V :=
  calls.foldl (fun s call =>
    (model.embedBatch host tokenizer nan empty call.cfg call.texts s call.output).2.1) s

/-- **One call**, however it ends. -/
theorem call_serial (g : Geometry model.mappedSize model.pageSize) {s : StreamState V}
    (hreach : Reachable host.advice model.mappedSize model.pageSize s.system)
    (hbalanced : Balanced s.system) (hserial : s.system.coord.Serial cb above)
    (hgroups : ∀ layer ∈ model.layers, ∀ group ∈ layer.groups,
      (group.ranges.map (·.length)).sum ≤ above)
    (call : BatchCall Text F)
    (hrows : ∀ batch ∈ call.subBatches tokenizer model.maxSeqLen, model.rowBytes batch ≤ above) :
    CallSerial host model.mappedSize model.pageSize cb above s.system
      (model.embedBatch host tokenizer nan empty call.cfg call.texts s call.output).2.1.system := by
  have hstart : CallSerial host model.mappedSize model.pageSize cb above s.system s.system :=
    ⟨⟨hreach, [], Settled.refl _⟩, hserial⟩
  refine embedBatch_invariant (I := OfSystem
    (CallSerial host model.mappedSize model.pageSize cb above s.system)) hstart hstart
    (fun batch hbatch => subBatch_keeps ⟨fun rows phase hranges hphase => ?_,
      fun layer hlayer group hgroup phase hphase => ?_⟩ call.cfg) call.output
  · obtain ⟨raw, hplan⟩ := tokenRowRanges_planned hranges
    refine serial_withLease g hbalanced "token" hplan ?_ true hphase
    have hle := hrows batch hbatch.mem
    unfold StreamingModel.rowBytes at hle
    rw [hranges] at hle
    exact hle
  · obtain ⟨raw, hplan⟩ := model.planned layer hlayer group hgroup
    exact serial_withLease g hbalanced group.key hplan (hgroups layer hlayer group hgroup) false hphase

/-- **Any sequence of calls.** -/
theorem calls_serial (g : Geometry model.mappedSize model.pageSize)
    (hgroups : ∀ layer ∈ model.layers, ∀ group ∈ layer.groups,
      (group.ranges.map (·.length)).sum ≤ above)
    {calls : List (BatchCall Text F)}
    (hrows : ∀ call ∈ calls, ∀ batch ∈ call.subBatches tokenizer model.maxSeqLen,
      model.rowBytes batch ≤ above)
    {s : StreamState V} (hreach : Reachable host.advice model.mappedSize model.pageSize s.system)
    (hbalanced : Balanced s.system) (hserial : s.system.coord.Serial cb above) :
    (model.embedBatches host tokenizer nan empty s calls).system.coord.Serial cb above := by
  induction calls generalizing s with
  | nil => exact hserial
  | cons call calls ih =>
      obtain ⟨hset, hnext⟩ := @call_serial V F Text host cb above model tokenizer nan empty g s hreach
        hbalanced hserial hgroups call (hrows call List.mem_cons_self)
      exact ih (fun call' hcall => hrows call' (List.mem_cons_of_mem _ hcall)) hset.1
        (hset.idle g hbalanced).1 hnext

end Calls

/-! ## 3. The groups of a constructed model -/

/-- `nbytes` of the tensor of that name. -/
def MappedWeightStore.nbytes (store : MappedWeightStore) (name : String) : Nat :=
  ((store.tensorInfos.find? fun info => info.name = name).map MappedTensorInfo.nbytes).getD 0

section Groups

variable {V : Type} {store : MappedWeightStore} {pageSize : Nat} {preset : String}

/-- The weight bytes of a unit, as the constructor adds them up. -/
def unitBytes (store : MappedWeightStore) (unit : StreamingUnit V GraphInputs) : Nat :=
  (unit.weights.map store.nbytes).foldl (fun sum n => (sum + n) % 2 ^ 64) 0

/-- The groups a preset cuts the units of a layer into. -/
def layerGroups (store : MappedWeightStore) (preset : String)
    (units : List (StreamingUnit V GraphInputs)) : List (List (StreamingUnit V GraphInputs)) :=
  match partitionRuns (units.map (unitBytes store)) (units.map StreamingUnit.stage) preset with
  | .ok runs => runs.splitLengths units
  | .error _ => []

/-- The groups of all layers. -/
def modelGroups (arch : ModelArch) (build : Nat → String → Builder V GraphInputs)
    (store : MappedWeightStore) (preset : String) : List (List (StreamingUnit V GraphInputs)) :=
  (List.range arch.params.nLayer).flatMap fun layer =>
    match arch.streamingUnits (build layer) layer with
    | .ok plan => layerGroups store preset plan.units
    | .error _ => []

/-- The bytes of a group's weights, with less than a page more at each end of each. -/
def groupBytes (store : MappedWeightStore) (pageSize : Nat)
    (group : List (StreamingUnit V GraphInputs)) : Nat :=
  ((group.flatMap StreamingUnit.weights).map fun name =>
    store.nbytes name + 2 * (pageSize - 1)).sum

/-- **What the constructor keeps of a unit's weights.** -/
structure Resolves (store : MappedWeightStore) (unit : StreamingUnit V GraphInputs)
    (planned : PlannedUnit V) : Prop where
  stage : planned.stage = unit.stage
  bytes : planned.weightBytes = unitBytes store unit
  lengths : planned.rawRanges.map (·.length) = unit.weights.map store.nbytes

theorem giveOut_take_nbytes {claimant : String} {names : List String} {s s' : Construction}
    {infos : List MappedTensorInfo} (h : giveOut (take store claimant) s names = .ok (infos, s')) :
    infos.map MappedTensorInfo.nbytes = names.map store.nbytes := by
  induction names generalizing s infos with
  | nil =>
      obtain ⟨rfl, _⟩ := Prod.mk.inj (Except.ok.inj h)
      rfl
  | cons name names ih =>
      obtain ⟨info, s₁, rest, hinfo, hrest, rfl⟩ := giveOut_cons h
      unfold take at hinfo
      cases hfind : store.tensorInfos.find? fun info => info.name = name with
      | none => rw [hfind] at hinfo; cases hinfo
      | some found =>
          rw [hfind] at hinfo
          dsimp only at hinfo
          split at hinfo
          · cases hinfo
          · obtain ⟨rfl, _⟩ := Prod.mk.inj (Except.ok.inj hinfo)
            rw [List.map_cons, List.map_cons, ih hrest]
            unfold MappedWeightStore.nbytes
            rw [hfind]
            rfl

theorem resolveUnit_resolves {layerKey : String} {unit : StreamingUnit V GraphInputs}
    {s s' : Construction} {planned : PlannedUnit V}
    (h : resolveUnit store layerKey s unit = .ok (planned, s')) : Resolves store unit planned := by
  obtain ⟨⟨inputs, s₁⟩, _, h⟩ := bind_eq_ok.mp h
  obtain ⟨⟨outputs, s₂⟩, _, h⟩ := bind_eq_ok.mp h
  dsimp only at h
  split at h
  · cases h
  · obtain ⟨⟨infos, s₃⟩, hinfos, h⟩ := bind_eq_ok.mp h
    obtain ⟨rfl, _⟩ := Prod.mk.inj (Except.ok.inj h)
    have hbytes := giveOut_take_nbytes hinfos
    refine ⟨rfl, ?_, ?_⟩
    · show (infos.map MappedTensorInfo.nbytes).foldl _ 0 = _
      rw [hbytes]
      rfl
    · show (infos.map MappedTensorInfo.range).map (·.length) = _
      rw [← hbytes, List.map_map]
      rfl

theorem giveOut_resolves {layerKey : String} {units : List (StreamingUnit V GraphInputs)}
    {s s' : Construction} {planned : List (PlannedUnit V)}
    (h : giveOut (resolveUnit store layerKey) s units = .ok (planned, s')) :
    List.Forall₂ (Resolves store) units planned := by
  induction units generalizing s planned with
  | nil =>
      obtain ⟨rfl, _⟩ := Prod.mk.inj (Except.ok.inj h)
      exact .nil
  | cons unit units ih =>
      obtain ⟨first, s₁, rest, hfirst, hrest, rfl⟩ := giveOut_cons h
      exact .cons (resolveUnit_resolves hfirst) (ih hrest)

/-- What the partition asks of the units. -/
theorem resolves_partition {units : List (StreamingUnit V GraphInputs)}
    {planned : List (PlannedUnit V)} (h : List.Forall₂ (Resolves store) units planned) :
    planned.map PlannedUnit.weightBytes = units.map (unitBytes store) ∧
      planned.map PlannedUnit.stage = units.map StreamingUnit.stage := by
  induction h with
  | nil => exact ⟨rfl, rfl⟩
  | cons hone _ ih =>
      rw [List.map_cons, List.map_cons, List.map_cons, List.map_cons, ih.1, ih.2, hone.bytes,
        hone.stage]
      exact ⟨rfl, rfl⟩

/-- The ranges of a group are planned from the weights of its units. -/
theorem leaseGroups_runs {units : List (StreamingUnit V GraphInputs)} {planned : List (PlannedUnit V)}
    (hunits : List.Forall₂ (Resolves store) units planned) {lengths : List Nat}
    {groups : List (ResolvedGroup V GraphInputs)} {leased : List (LeasedGroup V)}
    (h : leaseGroups store pageSize planned lengths groups = .ok leased) :
    ∀ group ∈ leased, ∃ run ∈ lengths.splitLengths units, ∃ members,
      List.Forall₂ (Resolves store) run members ∧
      pageAlignAndCoalesce (members.flatMap PlannedUnit.rawRanges) store.mappedSize pageSize =
        .ok group.ranges := by
  induction lengths generalizing units planned groups leased with
  | nil =>
      obtain rfl := Except.ok.inj h
      exact fun group hgroup => absurd hgroup List.not_mem_nil
  | cons length lengths ih =>
      cases groups with
      | nil =>
          obtain rfl := Except.ok.inj h
          exact fun group hgroup => absurd hgroup List.not_mem_nil
      | cons group groups =>
          obtain ⟨ranges, hranges, h⟩ := bind_eq_ok.mp h
          obtain ⟨rest, hrest, h⟩ := bind_eq_ok.mp h
          obtain rfl := Except.ok.inj h
          have hsplit : (length :: lengths).splitLengths units =
              units.take length :: lengths.splitLengths (units.drop length) := by
            rw [List.splitLengths, List.splitAt_eq]
          intro other hother
          rw [hsplit]
          rcases List.mem_cons.mp hother with rfl | hother
          · exact ⟨_, List.mem_cons_self, _, List.forall₂_take length hunits, hranges⟩
          · obtain ⟨run, hrun, members, hmembers⟩ :=
              ih (List.forall₂_drop length hunits) hrest other hother
            exact ⟨run, List.mem_cons_of_mem _ hrun, members, hmembers⟩

/-- **The pages of a group** are no more than its weights with less than a page more at each end. -/
theorem group_bytes (hfit : store.mappedSize ≤ sizeMax) {run : List (StreamingUnit V GraphInputs)}
    {members : List (PlannedUnit V)} (hrun : List.Forall₂ (Resolves store) run members)
    {ranges : List StreamingByteRange}
    (hplan : pageAlignAndCoalesce (members.flatMap PlannedUnit.rawRanges) store.mappedSize pageSize =
      .ok ranges) : (ranges.map (·.length)).sum ≤ groupBytes store pageSize run := by
  have hlengths : (members.flatMap PlannedUnit.rawRanges).map (·.length) =
      (run.flatMap StreamingUnit.weights).map store.nbytes := by
    clear hplan
    induction hrun with
    | nil => rfl
    | cons hone _ ih =>
        rw [List.flatMap_cons, List.flatMap_cons, List.map_append, List.map_append, ih, hone.lengths]
  have hslack : ((members.flatMap PlannedUnit.rawRanges).map fun r =>
      r.length + 2 * (pageSize - 1)) =
      (run.flatMap StreamingUnit.weights).map fun name => store.nbytes name + 2 * (pageSize - 1) := by
    have hmap := congrArg (List.map (· + 2 * (pageSize - 1))) hlengths
    rw [List.map_map, List.map_map] at hmap
    exact hmap
  refine (planned_again hfit hplan).2.trans (Nat.le_of_eq ?_)
  unfold groupBytes
  rw [hslack]

/-- A planned group of the model, and a bound of its pages. -/
def GroupOf (arch : ModelArch) (build : Nat → String → Builder V GraphInputs)
    (store : MappedWeightStore) (pageSize : Nat) (preset : String) (group : LeasedGroup V) : Prop :=
  (∃ raw, pageAlignAndCoalesce raw store.mappedSize pageSize = .ok group.ranges) ∧
    ∃ units ∈ modelGroups arch build store preset,
      (group.ranges.map (·.length)).sum ≤ groupBytes store pageSize units

theorem passOn_ok {α : Type} {x : Except Exc α} {a : α} (h : passOn x = .ok a) : x = .ok a := by
  cases x with
  | error e => cases h
  | ok b => exact congrArg Except.ok (Except.ok.inj h)

theorem cutLayer_groups (hfit : store.mappedSize ≤ sizeMax) {layerKey : String}
    {inputSlot outputSlot : SlotId} {units : List (StreamingUnit V GraphInputs)}
    {planned : List (PlannedUnit V)} (hunits : List.Forall₂ (Resolves store) units planned)
    {made : PlannedLayer V}
    (h : cutLayer store pageSize preset layerKey inputSlot outputSlot planned = .ok made) :
    ∀ group ∈ made.layer.groups,
      (∃ raw, pageAlignAndCoalesce raw store.mappedSize pageSize = .ok group.ranges) ∧
      ∃ run ∈ layerGroups store preset units,
        (group.ranges.map (·.length)).sum ≤ groupBytes store pageSize run := by
  obtain ⟨layerRanges, _, h⟩ := bind_eq_ok.mp h
  obtain ⟨runs, hruns, h⟩ := bind_eq_ok.mp h
  obtain ⟨groups, _, h⟩ := bind_eq_ok.mp h
  obtain ⟨leased, hleased, h⟩ := bind_eq_ok.mp h
  obtain rfl := Except.ok.inj h
  obtain ⟨hweights, hstages⟩ := resolves_partition hunits
  rw [hweights, hstages] at hruns
  intro group hgroup
  obtain ⟨run, hrun, members, hmembers, hplan⟩ := leaseGroups_runs hunits hleased group hgroup
  refine ⟨⟨_, hplan⟩, run, ?_, group_bytes hfit hmembers hplan⟩
  unfold layerGroups
  rw [hruns]
  exact hrun

theorem resolveLayers_groups (hfit : store.mappedSize ≤ sizeMax) {arch : ModelArch}
    {build : Nat → String → Builder V GraphInputs} {layers : List Nat}
    (hlayers : ∀ layer ∈ layers, layer < arch.params.nLayer) {previous : Option String}
    {s s' : Construction} {planned : List (PlannedLayer V)}
    (h : resolveLayers arch build store pageSize preset layers previous s = .ok (planned, s')) :
    planned.length = layers.length ∧ ∀ l ∈ planned, ∀ group ∈ l.layer.groups,
      GroupOf arch build store pageSize preset group := by
  induction layers generalizing previous s planned with
  | nil =>
      obtain ⟨rfl, _⟩ := Prod.mk.inj (Except.ok.inj h)
      exact ⟨rfl, fun l hl => absurd hl List.not_mem_nil⟩
  | cons layer layers ih =>
      obtain ⟨plan, hplan, h⟩ := bind_eq_ok.mp h
      obtain ⟨⟨first, s₁⟩, hfirst, h⟩ := bind_eq_ok.mp h
      obtain ⟨⟨rest, s₂⟩, hrest, h⟩ := bind_eq_ok.mp h
      obtain ⟨rfl, rfl⟩ := Prod.mk.inj (Except.ok.inj h)
      obtain ⟨hlength, hall⟩ := ih (fun l hl => hlayers l (List.mem_cons_of_mem _ hl)) hrest
      refine ⟨congrArg (· + 1) hlength, List.forall_mem_cons.mpr ⟨fun group hgroup => ?_, hall⟩⟩
      unfold resolveLayer at hfirst
      split at hfirst
      · cases hfirst
      split at hfirst
      · cases hfirst
      split at hfirst
      · cases hfirst
      obtain ⟨⟨inputSlot, s₃⟩, _, hfirst⟩ := bind_eq_ok.mp hfirst
      obtain ⟨⟨outputSlot, s₄⟩, _, hfirst⟩ := bind_eq_ok.mp hfirst
      obtain ⟨⟨units, s₅⟩, hunits, hfirst⟩ := bind_eq_ok.mp hfirst
      obtain ⟨made, hmade, hfirst⟩ := bind_eq_ok.mp hfirst
      obtain ⟨rfl, _⟩ := Prod.mk.inj (Except.ok.inj hfirst)
      obtain ⟨hraw, run, hrun, hbytes⟩ :=
        cutLayer_groups hfit (giveOut_resolves hunits) (passOn_ok hmade) group hgroup
      refine ⟨hraw, run, List.mem_flatMap.mpr ⟨layer, ?_, ?_⟩, hbytes⟩
      · exact List.mem_range.mpr (hlayers layer List.mem_cons_self)
      · rw [passOn_ok hplan]
        exact hrun

/-- **The groups of a constructed model.** -/
theorem construct_groups (hfit : store.mappedSize ≤ sizeMax) {arch : ModelArch}
    {build : Nat → String → Builder V GraphInputs} {c : Constructed V}
    (h : construct arch build store pageSize preset = .ok c) :
    (∃ raw, pageAlignAndCoalesce raw store.mappedSize pageSize = .ok c.commonRanges) ∧
      c.layers.length = arch.params.nLayer ∧ ∀ l ∈ c.layers, ∀ group ∈ l.layer.groups,
        GroupOf arch build store pageSize preset group := by
  unfold construct at h
  split at h
  · cases h
  obtain ⟨⟨token, s₁⟩, _, h⟩ := bind_eq_ok.mp h
  obtain ⟨⟨common, s₂⟩, _, h⟩ := bind_eq_ok.mp h
  obtain ⟨commonRanges, hcommon, h⟩ := bind_eq_ok.mp h
  obtain ⟨⟨layers, s₃⟩, hrun, h⟩ := bind_eq_ok.mp h
  obtain ⟨_, _, h⟩ := bind_eq_ok.mp h
  obtain rfl := Except.ok.inj h
  obtain ⟨hlength, hgroups⟩ := resolveLayers_groups hfit (fun l hl => List.mem_range.mp hl) hrun
  rw [List.length_range] at hlength
  exact ⟨⟨_, passOn_ok hcommon⟩, hlength, hgroups⟩

end Groups

/-! ## 4. The peak -/

/-- The largest of some numbers. -/
def most (l : List Nat) : Nat := l.foldr max 0

theorem le_most {l : List Nat} {n : Nat} (h : n ∈ l) : n ≤ most l := by
  induction l with
  | nil => exact absurd h List.not_mem_nil
  | cons m l ih =>
      rcases List.mem_cons.mp h with rfl | h
      · exact le_max_left _ _
      · exact (ih h).trans (le_max_right _ _)

section Peak

variable {V F Text : Type}

/-- **The model of a constructor call**: its groups and its token table over the mapped file. -/
structure Constructed.Opens (c : Constructed V) (store : MappedWeightStore) (pageSize : Nat)
    (model : StreamingModel V F) : Prop where
  layers : model.layers = c.layers.map PlannedLayer.layer
  token : model.token =
    ⟨c.token.absoluteOffset, c.token.nbytes, c.token.rowStride, c.token.rowCount⟩
  slots : model.slotCount = c.slotCount
  mapped : model.mappedSize = store.mappedSize
  page : model.pageSize = pageSize

/-- The coordinator the constructor leaves, with the common ranges retained. -/
def retained (advice : Advice) (store : MappedWeightStore) (pageSize : Nat) (c : Constructed V) :
    Except Exc Unit × System :=
  (System.init store.mappedSize pageSize).step advice (.retainCommon c.commonRanges)

/-- The most bytes the groups of the model, or the token rows of one sub-batch of the calls, may pin. -/
def serialBytes (arch : ModelArch) (build : Nat → String → Builder V GraphInputs)
    (store : MappedWeightStore) (pageSize : Nat) (preset : String) (model : StreamingModel V F)
    (tokenizer : Tokenizer Text) (calls : List (BatchCall Text F)) : Nat :=
  max (most ((modelGroups arch build store preset).map (groupBytes store pageSize)))
    (most ((calls.flatMap fun call => call.subBatches tokenizer model.maxSeqLen).map model.rowBytes))

/-- **One context holds one lease at a time and never advises more** than the common bytes and the larger
    of a group and the token rows of a sub-batch, for every model, preset and placement of the weights and
    every sequence of calls, whether or not they throw. -/
theorem serial_residency_peak {arch : ModelArch} {build : Nat → String → Builder V GraphInputs}
    {store : MappedWeightStore} {pageSize : Nat} {preset : String} {c : Constructed V}
    (hfit : store.mappedSize ≤ sizeMax)
    (h : construct arch build store pageSize preset = .ok c) (host : Host)
    (hretain : (retained host.advice store pageSize c).1 = .ok ()) {model : StreamingModel V F}
    (hmodel : c.Opens store pageSize model) (tokenizer : Tokenizer Text) (nan : F) (empty : V)
    {start : StreamState V} (hstart : start.system = (retained host.advice store pageSize c).2)
    (calls : List (BatchCall Text F)) :
    let coord := (model.embedBatches host tokenizer nan empty start calls).system.coord
    (∀ past, past <:+ coord.events → (activeOf past).length ≤ 1) ∧
      coord.diag.leaseHighWater ≤ 1 ∧
      coord.diag.advisedBytesHighWater ≤ (c.commonRanges.map (·.length)).sum +
        serialBytes arch build store pageSize preset model tokenizer calls := by
  obtain ⟨⟨raw, hcommon⟩, -, hgroups⟩ := construct_groups hfit h
  obtain ⟨hms, hpow, -⟩ := (pageAlignAndCoalesce_ok_iff hfit).mp ⟨_, hcommon⟩
  have g : Geometry model.mappedSize model.pageSize := by
    rw [hmodel.mapped, hmodel.page]
    exact ⟨hms, hfit, hpow⟩
  have hreach : Reachable host.advice model.mappedSize model.pageSize start.system := by
    rw [hmodel.mapped, hmodel.page, hstart]
    refine Reaches.start.next _ ⟨fun ranges hop => ?_, fun _ _ _ hop => by cases hop⟩
    cases hop
    exact ⟨raw, hcommon⟩
  have hbalanced : Balanced start.system := by
    have hsame := retainCommon_sameAccounts host.advice c.commonRanges
      { mappingSize := store.mappedSize, pageSize := pageSize }
    rw [hstart]
    exact hsame.acquired.trans hsame.released.symm
  have hserial : start.system.coord.Serial (c.commonRanges.map (·.length)).sum
      (serialBytes arch build store pageSize preset model tokenizer calls) := by
    rw [hstart]
    exact serial_retained hretain
  have hleases : ∀ layer ∈ model.layers, ∀ group ∈ layer.groups, (group.ranges.map (·.length)).sum ≤
      serialBytes arch build store pageSize preset model tokenizer calls := by
    rw [hmodel.layers]
    intro layer hlayer group hgroup
    obtain ⟨l, hl, rfl⟩ := List.mem_map.mp hlayer
    obtain ⟨-, units, hunits, hbytes⟩ := hgroups l hl group hgroup
    exact hbytes.trans ((le_most (List.mem_map_of_mem hunits)).trans (le_max_left _ _))
  have hrows : ∀ call ∈ calls, ∀ batch ∈ call.subBatches tokenizer model.maxSeqLen,
      model.rowBytes batch ≤ serialBytes arch build store pageSize preset model tokenizer calls := by
    intro call hcall batch hbatch
    have hmem : batch ∈ calls.flatMap fun call => call.subBatches tokenizer model.maxSeqLen :=
      List.mem_flatMap.mpr ⟨call, hcall, hbatch⟩
    exact (le_most (List.mem_map_of_mem hmem)).trans (le_max_right _ _)
  have hend := @calls_serial V F Text host _ _ model tokenizer nan empty g hleases calls hrows start
    hreach hbalanced hserial
  exact ⟨hend.alone, hend.highWater, hend.peak⟩

/-- A BERT of one layer, cut into its units, and two calls of which the second is refused a library
    call. -/
theorem serial_residency_peak_small : ∃ (c : Constructed Int) (model : StreamingModel Int Int)
    (start : StreamState Int),
    construct (smallArch false) (fun _ _ _ _ => .ok []) (smallStore false) 64 "unit" = .ok c ∧
      c.Opens (smallStore false) 64 model ∧
      let tokenizer := { lengthTokenizer with encode := fun _ _ => .ok [0] }
      let calls := [⟨{}, ["a", "bb"], some [0, 0]⟩, ⟨{}, ["c"], some [0]⟩]
      let coord := (model.embedBatches (failingCall 60) tokenizer (-1) 0 start calls).system.coord
      coord.diag.leaseHighWater ≤ 1 ∧
        coord.diag.advisedBytesHighWater ≤ (c.commonRanges.map (·.length)).sum +
          serialBytes (smallArch false) (fun _ _ _ _ => .ok []) (smallStore false) 64 "unit" model
            tokenizer calls := by
  have hfit : (smallStore false).mappedSize ≤ sizeMax := by decide
  have hretained : (construct (smallArch false) (fun _ _ _ _ => .ok ([] : List (Option Int)))
      (smallStore false) 64 "unit").toOption.map (fun c =>
        (retained (failingCall 60).advice (smallStore false) 64 c).1.toOption) =
      some (some ()) := by decide +kernel
  cases h : construct (smallArch false) (fun _ _ _ _ => .ok ([] : List (Option Int)))
      (smallStore false) 64 "unit" with
  | error e => rw [h] at hretained; cases hretained
  | ok c =>
      rw [h] at hretained
      have hretain := toOption_eq_some (Option.some.inj hretained)
      obtain ⟨-, hlength, hgroups⟩ := construct_groups hfit h
      have hlayers : (c.layers.map PlannedLayer.layer).length = 1 := by
        rw [List.length_map, hlength]
        rfl
      let model : StreamingModel Int Int :=
        { addOneModel with
          slotCount := c.slotCount
          token := ⟨c.token.absoluteOffset, c.token.nbytes, c.token.rowStride, c.token.rowCount⟩
          mappedSize := 4096
          pageSize := 64
          layers := c.layers.map PlannedLayer.layer
          nonempty := List.ne_nil_of_length_eq_add_one hlayers
          planned := fun layer hlayer group hgroup => by
            obtain ⟨l, hl, rfl⟩ := List.mem_map.mp hlayer
            exact (hgroups l hl group hgroup).1 }
      have hmodel : c.Opens (smallStore false) 64 model := ⟨rfl, rfl, rfl, rfl, rfl⟩
      let start : StreamState Int :=
        ⟨(retained (failingCall 60).advice (smallStore false) 64 c).2, {}, 0, 0, []⟩
      have hstart : start.system = (retained (failingCall 60).advice (smallStore false) 64 c).2 := rfl
      have hpeak := serial_residency_peak hfit h (failingCall 60) hretain hmodel
        { lengthTokenizer with encode := fun _ _ => .ok [0] } (-1) 0
        hstart [⟨{}, ["a", "bb"], some [0, 0]⟩, ⟨{}, ["c"], some [0]⟩]
      exact ⟨c, model, start, rfl, hmodel, hpeak.2⟩

end Peak

end NanoEmbed.Streaming

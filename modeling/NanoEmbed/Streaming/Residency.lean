/-
  File:      NanoEmbed/Streaming/Residency.lean
  Subject:   THE RESIDENCY COORDINATOR (streaming_execution.cpp: `ResidencyCoordinator`,
             `ResidencyCoordinator::Lease`).

  One mutex guards every operation, so an interleaving of contexts is a sequence of whole
  operations. An exception leaves the changes made before it in place: every operation returns
  its result AND the coordinator it leaves behind.

  * The advice function is the environment: it may answer each call by its whole history
    (`Advice`). The coordinator keeps that history in `events`, newest first; the source does
    not, and no operation reads it back.
  * `regions` is the source's `std::map`; a key nobody used reads as the empty region, which is
    what `regions[key]` creates and what the `find`/`count == 0` test of `release` treats alike.
  * `System` adds the `Lease` objects the contexts hold, with their moves and destructors.

  Left out: `set_classification` and the class totals it records (no operation reads them), the
  mutex, and `resolved_mode`.
-/
import NanoEmbed.Streaming.Ranges
import Mathlib.Logic.Function.Basic

namespace NanoEmbed.Streaming

open Fallible

/-! ## 1. State -/

inductive AdviceKind where
  | willNeed
  | dontNeed
deriving DecidableEq, Repr

/-- What happened to the mapping, the common ranges and the leases, for the statements about
    runs. -/
inductive Event where
  | retained (ranges : List StreamingByteRange)
  | advice (kind : AdviceKind) (range : StreamingByteRange) (ok : Bool)
  | leased (id : Nat) (key : String) (ranges : List StreamingByteRange)
  | returned (id : Nat) (key : String)
deriving DecidableEq, Repr

/-- The advice function: the error text of a failed call, from everything that happened before. -/
abbrev Advice := List Event → AdviceKind → StreamingByteRange → Option String

structure ActiveLease where
  key : String
  ranges : List StreamingByteRange
deriving DecidableEq, Repr

structure Region where
  count : Nat := 0
  pending : List StreamingByteRange := []
deriving DecidableEq, Repr

structure ResidencyDiagnostics where
  tokenAdvisedBytes : Nat := 0
  tokenAdvisedPages : Nat := 0
  advisedBytesHighWater : Nat := 0
  willneedCalls : Nat := 0
  willneedFailures : Nat := 0
  dontneedCalls : Nat := 0
  dontneedFailures : Nat := 0
  leasesAcquired : Nat := 0
  leasesReleased : Nat := 0
  activeLeases : Nat := 0
  leaseHighWater : Nat := 0
  computeCompletions : Nat := 0
  prematureReleaseAttempts : Nat := 0
  poisoned : Bool := false
deriving DecidableEq, Repr

/-- `ResidencyCoordinator::Impl`. `active` is in ascending id, as the map iterates. -/
structure Coordinator where
  mappingSize : Nat
  pageSize : Nat
  nextId : Nat := 1
  active : List (Nat × ActiveLease) := []
  regions : String → Region := fun _ => {}
  common : List StreamingByteRange := []
  commonBytes : Nat := 0
  diag : ResidencyDiagnostics := {}
  events : List Event := []

namespace Coordinator

/-- The ranges of all active leases, in id order. -/
def activeRanges (c : Coordinator) : List StreamingByteRange := c.active.flatMap (·.2.ranges)

/-! ## 2. Advice -/

/-- One answered advice call. -/
def called (c : Coordinator) (kind : AdviceKind) (range : StreamingByteRange) (ok : Bool) :
    Coordinator :=
  let fail := if ok then 0 else 1
  let diag := match kind with
    | .willNeed => { c.diag with
        willneedCalls := c.diag.willneedCalls + 1
        willneedFailures := c.diag.willneedFailures + fail }
    | .dontNeed => { c.diag with
        dontneedCalls := c.diag.dontneedCalls + 1
        dontneedFailures := c.diag.dontneedFailures + fail }
  { c with diag := diag, events := .advice kind range ok :: c.events }

def adviceFailed (kind : AdviceKind) (error : String) : Exc :=
  let action := match kind with
    | .willNeed => "MADV_WILLNEED"
    | .dontNeed => "MADV_DONTNEED"
  .runtimeError (action ++ " failed: " ++ error)

/-- `call_advice`. -/
def callAdvice (advice : Advice) (kind : AdviceKind) (range : StreamingByteRange)
    (c : Coordinator) : Except Exc Unit × Coordinator :=
  match advice c.events kind range with
  | none => (.ok (), c.called kind range true)
  | some error => (.error (adviceFailed kind error), c.called kind range false)

/-- The loop `for (range : ranges) call_advice(range, kind)`. -/
def adviseAll (advice : Advice) (kind : AdviceKind) :
    List StreamingByteRange → Coordinator → Except Exc Unit × Coordinator
  | [], c => (.ok (), c)
  | range :: ranges, c =>
      match callAdvice advice kind range c with
      | (.error e, c) => (.error e, c)
      | (.ok (), c) => adviseAll advice kind ranges c

/-- `current_advised_bytes`. -/
def currentAdvisedBytes (c : Coordinator) : Except Exc Nat := do
  let ranges ←
    if c.activeRanges ≠ [] then do
      let ranges ← pageAlignAndCoalesce c.activeRanges c.mappingSize c.pageSize
      subtractRanges ranges c.common
    else .ok []
  byteCount ranges

/-- `note_advised_peak`. -/
def noteAdvisedPeak (c : Coordinator) : Except Exc Coordinator := do
  let current ← c.currentAdvisedBytes
  .ok { c with diag := { c.diag with
    advisedBytesHighWater :=
      max c.diag.advisedBytesHighWater ((current + c.commonBytes) % 2 ^ 64) } }

/-! ## 3. Operations -/

/-- `common = ranges`. -/
def retain (c : Coordinator) (ranges : List StreamingByteRange) : Coordinator :=
  { c with common := ranges, events := .retained ranges :: c.events }

/-- `retain_common`. -/
def retainCommon (advice : Advice) (ranges : List StreamingByteRange) (c : Coordinator) :
    Except Exc Unit × Coordinator :=
  if c.common ≠ [] then (.error (.runtimeError "common ranges already retained"), c)
  else match adviseAll advice .willNeed ranges c with
    | (.error e, c) => (.error e, c)
    | (.ok (), c) =>
        let c := c.retain ranges
        match byteCount ranges with
        | .error e => (.error e, c)
        | .ok bytes =>
            let c := { c with commonBytes := bytes }
            match c.noteAdvisedPeak with
            | .error e => (.error e, c)
            | .ok c => (.ok (), c)

end Coordinator

/-- `ResidencyCoordinator::Lease`; `owner` is whether `owner_` is set. -/
structure Lease where
  owner : Bool := false
  id : Nat := 0
  key : String := ""
  tokenRows : Bool := false
  computeComplete : Bool := false
deriving DecidableEq, Repr

namespace Coordinator

/-- The part of `acquire` between the advice and the peak: the lease is registered. -/
def register (c : Coordinator) (key : String) (ranges : List StreamingByteRange) : Coordinator :=
  let region := c.regions key
  { c with
    nextId := c.nextId + 1
    active := c.active ++ [(c.nextId, ⟨key, ranges⟩)]
    regions := Function.update c.regions key ⟨region.count + 1, region.pending ++ ranges⟩
    diag := { c.diag with
      leasesAcquired := c.diag.leasesAcquired + 1
      activeLeases := c.diag.activeLeases + 1
      leaseHighWater := max c.diag.leaseHighWater (c.diag.activeLeases + 1) }
    events := .leased c.nextId key ranges :: c.events }

/-- The token counters at the end of `acquire`. -/
def noteTokenRows (c : Coordinator) (ranges : List StreamingByteRange) :
    Except Exc Unit × Coordinator :=
  match byteCount ranges with
  | .error e => (.error e, c)
  | .ok bytes =>
      let c := { c with diag := { c.diag with
        tokenAdvisedBytes := c.diag.tokenAdvisedBytes + bytes } }
      match pageCount ranges c.pageSize with
      | .error e => (.error e, c)
      | .ok pages => (.ok (), { c with diag := { c.diag with
          tokenAdvisedPages := c.diag.tokenAdvisedPages + pages } })

/-- `acquire`. Nothing after the advice loop undoes what was done before it. -/
def acquire (advice : Advice) (key : String) (ranges : List StreamingByteRange) (tokenRows : Bool)
    (c : Coordinator) : Except Exc Lease × Coordinator :=
  if ranges = [] then (.error (.runtimeError "cannot lease an empty streaming range"), c)
  else if c.diag.poisoned then
    (.error (.runtimeError "streaming residency coordinator is poisoned"), c)
  else match adviseAll advice .willNeed ranges c with
    | (.error e, c) => (.error e, c)
    | (.ok (), c) =>
        let id := c.nextId
        let c := c.register key ranges
        match c.noteAdvisedPeak with
        | .error e => (.error e, c)
        | .ok c =>
            let lease : Lease := ⟨true, id, key, tokenRows, false⟩
            if tokenRows then
              match c.noteTokenRows ranges with
              | (.error e, c) => (.error e, c)
              | (.ok (), c) => (.ok lease, c)
            else (.ok lease, c)

/-- `diag.poisoned = true`. -/
def poison (c : Coordinator) : Coordinator := { c with diag := { c.diag with poisoned := true } }

/-- The part of `release` that takes the lease off the books. -/
def unregister (c : Coordinator) (id : Nat) (key : String) : Coordinator :=
  let region := c.regions key
  { c with
    active := c.active.filter (·.1 ≠ id)
    regions := Function.update c.regions key { region with count := region.count - 1 }
    diag := { c.diag with
      activeLeases := c.diag.activeLeases - 1
      leasesReleased := c.diag.leasesReleased + 1 }
    events := .returned id key :: c.events }

/-- `region.pending.clear()`. -/
def clearPending (c : Coordinator) (key : String) : Coordinator :=
  { c with regions := Function.update c.regions key { c.regions key with pending := [] } }

/-- What no releaser may drop: the common ranges and every active lease, page-aligned. -/
def protectedRanges (c : Coordinator) : Except Exc (List StreamingByteRange) :=
  let ranges := c.common ++ c.activeRanges
  if ranges ≠ [] then pageAlignAndCoalesce ranges c.mappingSize c.pageSize else .ok ranges

/-- The `try` block of `release`: a refused DONTNEED poisons the coordinator. -/
def dropReleasable (advice : Advice) (releasable : List StreamingByteRange) (c : Coordinator) :
    Except Exc Unit × Coordinator :=
  match adviseAll advice .dontNeed releasable c with
  | (.error e, c) => (.error e, c.poison)
  | (.ok (), c) => (.ok (), c)

/-- The tail of `release`, run by the last holder of a key: drop what was pending and is not
    protected. -/
def dropPending (advice : Advice) (key : String) (c : Coordinator) :
    Except Exc Unit × Coordinator :=
  match pageAlignAndCoalesce (c.regions key).pending c.mappingSize c.pageSize with
  | .error e => (.error e, c)
  | .ok pending =>
      let c := c.clearPending key
      match (do subtractRanges pending (← c.protectedRanges)) with
      | .error e => (.error e, c)
      | .ok releasable => c.dropReleasable advice releasable

/-- `ResidencyCoordinator::release`. -/
def release (advice : Advice) (id : Nat) (key : String) (computeComplete : Bool)
    (c : Coordinator) : Except Exc Unit × Coordinator :=
  if c.active.all (·.1 ≠ id) then (.ok (), c)
  else if !computeComplete then
    (.error (.runtimeError "streaming lease released before synchronous compute completed"),
      { c with diag := { c.diag with
        prematureReleaseAttempts := c.diag.prematureReleaseAttempts + 1, poisoned := true } })
  else
    let c := { c with diag := { c.diag with
      computeCompletions := c.diag.computeCompletions + 1 } }
    if (c.regions key).count = 0 then
      (.error (.runtimeError "streaming lease accounting underflow"), c.poison)
    else
      let c := c.unregister id key
      if (c.regions key).count ≠ 0 then (.ok (), c) else c.dropPending advice key

end Coordinator

/-- `Lease::release`: the object gives up its owner before the coordinator is called, so a
    release that throws is not retried. -/
def Lease.release (advice : Advice) (l : Lease) (c : Coordinator) :
    Except Exc Unit × Lease × Coordinator :=
  if !l.owner then (.ok (), l, c)
  else
    let out := c.release advice l.id l.key l.computeComplete
    (out.1, { l with owner := false }, out.2)

/-! ## 4. The contexts and their leases -/

/-- A coordinator and every `Lease` object created so far, by creation order. -/
structure System where
  coord : Coordinator
  leases : List Lease := []

/-- One operation of one context. -/
inductive Op where
  | retainCommon (ranges : List StreamingByteRange)
  | acquire (key : String) (ranges : List StreamingByteRange) (tokenRows : Bool)
  | markComputeComplete (i : Nat)
  | release (i : Nat)
  | moveConstruct (i : Nat)
  | moveAssign (i j : Nat)
  | destroy (i : Nat)
deriving DecidableEq, Repr

namespace System

/-- `Lease::release` on the `i`th object. -/
def releaseAt (advice : Advice) (i : Nat) (s : System) : Except Exc Unit × System :=
  match s.leases[i]? with
  | none => (.ok (), s)
  | some l =>
      let out := l.release advice s.coord
      (out.1, ⟨out.2.2, s.leases.set i out.2.1⟩)

/-- `other.owner_ = nullptr`. -/
def disown (l : Lease) : Lease := { l with owner := false }

/-- One operation: what the caller sees, and the state after it. Destructors and the release
    inside a move assignment swallow the exception. -/
def step (advice : Advice) (s : System) : Op → Except Exc Unit × System
  | .retainCommon ranges =>
      let out := s.coord.retainCommon advice ranges
      (out.1, { s with coord := out.2 })
  | .acquire key ranges tokenRows =>
      match s.coord.acquire advice key ranges tokenRows with
      | (.error e, c) => (.error e, { s with coord := c })
      | (.ok lease, c) => (.ok (), ⟨c, s.leases ++ [lease]⟩)
  | .markComputeComplete i =>
      (.ok (), { s with leases := s.leases.modify i fun l => { l with computeComplete := true } })
  | .release i => s.releaseAt advice i
  | .moveConstruct i =>
      match s.leases[i]? with
      | none => (.ok (), s)
      | some l => (.ok (), { s with leases := s.leases.modify i disown ++ [l] })
  | .moveAssign i j =>
      if i = j then (.ok (), s)
      else
        let s := (s.releaseAt advice i).2
        match s.leases[j]? with
        | none => (.ok (), s)
        | some l => (.ok (), { s with leases := (s.leases.set i l).modify j disown })
  | .destroy i => (.ok (), (s.releaseAt advice i).2)

/-- The constructor. -/
def init (mappingSize pageSize : Nat) : System := ⟨{ mappingSize, pageSize }, []⟩

end System

end NanoEmbed.Streaming

/-
  File:      NanoEmbed/Streaming/MappedWeights.lean
  Subject:   WHAT A MAPPED MODEL FILE IS CHECKED FOR (mapped_weight_store.cpp: `checked_add`,
             `checked_pad`, `validate_range`, `gguf_alignment`,
             `MappedWeightStore::Impl::validate_tensor_metadata`).

  Here a `size_t` is a machine word, since the arithmetic is what is asked about; the tensors are what
  `gguf` and `ggml` give out, so their sizes, offsets and types are any. A `MappedWeightError` is a
  `std::runtime_error`.

  * `checkedAdd_ok_iff`, `checkedPad_ok` -- a checked sum is the sum, or the call throws;
  * `validateTensors_placed` -- the ranges accepted are the sizes placed one behind the other;
  * `validateTensorMetadata_sound` -- what is accepted is disjoint, inside the file, aligned, of
    unique names, and no sum wrapped around.

  Left out: opening, identity and binding of the file.
-/
import NanoEmbed.Lib.Layout
import NanoEmbed.Streaming.Construct

namespace NanoEmbed.Streaming

open Fallible

/-! ## 1. Checked arithmetic -/

namespace MappedWeightDetail

/-- `checked_add`. -/
def checkedAdd (lhs rhs : UInt64) (subject : String) : Except Exc UInt64 :=
  if rhs > UInt64.ofNat sizeMax - lhs then
    .error (.runtimeError ("size overflow while computing " ++ subject))
  else .ok (lhs + rhs)

/-- `checked_pad`. -/
def checkedPad (value alignment : UInt64) (subject : String) : Except Exc UInt64 :=
  if alignment = 0 ∨ alignment &&& (alignment - 1) ≠ 0 then
    .error (.runtimeError ("invalid non-power-of-two alignment for " ++ subject))
  else do
    let mask := alignment - 1
    let sum ← checkedAdd value mask (subject ++ " padding")
    .ok (sum &&& ~~~mask)

/-- `validate_range`. -/
def validateRange (fileSize dataOffset tensorOffset nbytes : UInt64) (subject : String) :
    Except Exc Unit := do
  let start ← checkedAdd dataOffset tensorOffset (subject ++ " absolute offset")
  let stop ← checkedAdd start nbytes (subject ++ " absolute end")
  if start > fileSize ∨ stop > fileSize then
    .error (.runtimeError ("tensor range is outside/truncated model file for " ++ subject ++
      " (start=" ++ toString start ++ ", end=" ++ toString stop ++ ", file_size=" ++
      toString fileSize ++ ")"))
  else .ok ()

end MappedWeightDetail

open MappedWeightDetail (checkedPad validateRange)

/-! ## 2. The file as the libraries give it out -/

/-- `ggml_type`: the types a mapped tensor may have, and the others by name. -/
inductive GgmlType where
  | f32
  | f16
  | q8_0
  | q4_0
  | q4_K
  | other (name : String)
deriving DecidableEq, Repr

/-- `ggml_type_name`. -/
def GgmlType.name : GgmlType → String
  | f32 => "f32"
  | f16 => "f16"
  | q8_0 => "q8_0"
  | q4_0 => "q4_0"
  | q4_K => "q4_K"
  | other name => name

/-- `ggml_blck_size`; no other type is asked for its block. -/
def GgmlType.blckSize : GgmlType → Int
  | f32 => 1
  | f16 => 1
  | q8_0 => 32
  | q4_0 => 32
  | q4_K => 256
  | other _ => 1

/-- `supported_mapped_type`. -/
def supportedMappedType : GgmlType → Bool
  | .other _ => false
  | _ => true

/-- A tensor of the metadata context, with its `ggml_nbytes` and whether `data` and `buffer` are set. -/
structure GgmlTensor where
  type : GgmlType
  ne0 : Int
  ne1 : Int
  nb1 : UInt64
  nbytes : UInt64
  hasData : Bool := false
  hasBuffer : Bool := false
deriving DecidableEq, Repr

/-- An entry of the tensor directory; the name may be a null pointer. -/
structure DirectoryEntry where
  name : Option String
  type : GgmlType
  size : UInt64
  offset : UInt64
deriving DecidableEq, Repr

/-- What `validate_tensor_metadata` asks of the `gguf_context`. -/
structure GgufContext where
  kv : Metadata
  dataOffset : UInt64
  tensors : List DirectoryEntry

/-- `ggml_get_tensor`, on the metadata context. -/
abbrev GgmlContext := String → Option GgmlTensor

/-- A mapping as `mmap` returns it: bytes of the address space. -/
structure Mapping where
  base : UInt64
  size : UInt64
  fits : base.toNat + size.toNat ≤ 2 ^ 64

/-- `MappedWeightStore::Impl::Borrow`. -/
structure Borrow where
  tensor : GgmlTensor
  name : String
  absoluteOffset : UInt64
  nbytes : UInt64
deriving DecidableEq, Repr

/-! ## 3. The checks -/

/-- `GGUF_DEFAULT_ALIGNMENT`. -/
def ggufDefaultAlignment : UInt64 := 32

/-- `gguf_alignment`. -/
def ggufAlignment (kv : Metadata) : Except Exc UInt64 :=
  match kv "general.alignment" with
  | none => .ok ggufDefaultAlignment
  | some (.uint32 value) =>
      let result := value.toUInt64
      if result = 0 ∨ result &&& (result - 1) ≠ 0 then
        .error (.runtimeError "general.alignment must be a non-zero power of two")
      else .ok result
  | some _ => .error (.runtimeError "general.alignment must be uint32")

/-- What the loop over the directory reads. -/
structure TensorChecks where
  context : GgmlContext
  mappingSize : UInt64
  dataOffset : UInt64
  fileAlignment : UInt64
  cpuAlignment : UInt64

/-- A name that is there and new: the first two checks of the loop body. -/
def checkName (names : List String) (rawName : Option String) : Except Exc String :=
  match rawName with
  | none => .error (.runtimeError "mapped tensor has an empty name")
  | some name =>
      if name = "" then .error (.runtimeError "mapped tensor has an empty name")
      else if name ∈ names then .error (.runtimeError ("duplicate mapped tensor name: " ++ name))
      else .ok name

/-- The tensor of the metadata context: it owns nothing, and its type and row are those of the entry. -/
def checkTensor (checks : TensorChecks) (name : String) (type : GgmlType) :
    Except Exc GgmlTensor :=
  match checks.context name with
  | none =>
      .error (.runtimeError ("GGUF tensor is missing from ggml metadata context: " ++ name))
  | some tensor =>
      if tensor.hasData ∨ tensor.hasBuffer then
        .error (.runtimeError
          ("metadata-only mapped tensor unexpectedly owns data/buffer: " ++ name))
      else if ¬supportedMappedType type then
        .error (.runtimeError ("unsupported mapped tensor type for " ++ name ++ ": " ++ type.name ++
          " (B2 permits only F32/F16/Q8_0/Q4_0/Q4_K)"))
      else if tensor.type ≠ type then
        .error (.runtimeError ("GGUF/ggml tensor type mismatch: " ++ name))
      else if type.blckSize ≤ 0 ∨ tensor.ne0 ≤ 0 ∨ tensor.ne0.tmod type.blckSize ≠ 0 then
        .error (.runtimeError
          ("tensor row is not divisible by its type block size: " ++ name))
      else .ok tensor

/-- The bytes of a tensor: its offset is the expected one, its range is in the file, its start is
    aligned. -/
def checkPlace (checks : TensorChecks) (expected : UInt64) (entry : DirectoryEntry) (name : String)
    (tensor : GgmlTensor) : Except Exc UInt64 :=
  if tensor.nbytes = 0 ∨ tensor.nbytes ≠ entry.size then
    .error (.runtimeError ("GGUF/ggml tensor byte-size mismatch: " ++ name))
  else if entry.offset ≠ expected ∨ entry.offset % checks.fileAlignment ≠ 0 then
    .error (.runtimeError ("non-canonical or unaligned GGUF tensor offset: " ++ name))
  else do
    validateRange checks.mappingSize checks.dataOffset entry.offset tensor.nbytes name
    let absoluteOffset ←
      MappedWeightDetail.checkedAdd checks.dataOffset entry.offset (name ++ " absolute offset")
    if absoluteOffset % checks.cpuAlignment ≠ 0 then
      .error (.runtimeError ("mapped tensor address is not CPU-aligned: " ++ name))
    else .ok absoluteOffset

/-- The loop body: the borrow of an entry, and the offset the next one must have. -/
def validateTensor (checks : TensorChecks) (names : List String) (expected : UInt64)
    (entry : DirectoryEntry) : Except Exc (Borrow × UInt64) := do
  let name ← checkName names entry.name
  let tensor ← checkTensor checks name entry.type
  let absoluteOffset ← checkPlace checks expected entry name tensor
  let padded ← checkedPad tensor.nbytes checks.fileAlignment name
  let next ← MappedWeightDetail.checkedAdd expected padded (name ++ " padded extent")
  .ok (⟨tensor, name, absoluteOffset, tensor.nbytes⟩, next)

/-- The loop over the directory. -/
def validateTensors (checks : TensorChecks) :
    List String → UInt64 → List DirectoryEntry → Except Exc (List Borrow)
  | _, _, [] => .ok []
  | names, expected, entry :: entries => do
      let (borrow, next) ← validateTensor checks names expected entry
      let borrows ← validateTensors checks (borrow.name :: names) next entries
      .ok (borrow :: borrows)

/-- `MappedWeightStore::Impl` before the checks; the pointers may be null. -/
structure MappedFile where
  gguf : Option GgufContext
  context : Option GgmlContext
  mapping : Option Mapping

/-- `validate_tensor_metadata`: the data offset and the borrows. -/
def MappedFile.validateTensorMetadata (file : MappedFile) (cpuAlignment : UInt64) :
    Except Exc (UInt64 × List Borrow) :=
  match file.gguf, file.context, file.mapping with
  | some gguf, some context, some mapping => do
      let fileAlignment ← ggufAlignment gguf.kv
      if cpuAlignment = 0 ∨ cpuAlignment &&& (cpuAlignment - 1) ≠ 0 then
        .error (.runtimeError "CPU backend reported invalid tensor alignment")
      else if mapping.base % cpuAlignment ≠ 0 then
        .error (.runtimeError "mmap base address is not CPU-aligned")
      else if gguf.dataOffset % fileAlignment ≠ 0 ∨ gguf.dataOffset % cpuAlignment ≠ 0 then
        .error (.runtimeError "GGUF data section is not aligned for file and CPU access")
      else if gguf.tensors = [] then .error (.runtimeError "mapped model has no tensors")
      else do
        let borrows ← validateTensors
          ⟨context, mapping.size, gguf.dataOffset, fileAlignment, cpuAlignment⟩ [] 0 gguf.tensors
        .ok (gguf.dataOffset, borrows)
  | _, _, _ => .error (.runtimeError "mapped store validation has incomplete owners")

/-! ## 4. Checked sums are sums -/

/-- **A checked addition gives the sum, or it throws.** -/
theorem checkedAdd_ok_iff {lhs rhs n : UInt64} {subject : String} :
    MappedWeightDetail.checkedAdd lhs rhs subject = .ok n ↔
      lhs.toNat + rhs.toNat ≤ sizeMax ∧ n.toNat = lhs.toNat + rhs.toNat := by
  have hl := lhs.toNat_lt
  have hr := rhs.toNat_lt
  have hmax : (UInt64.ofNat sizeMax - lhs).toNat = sizeMax - lhs.toNat := by
    rw [UInt64.toNat_sub_of_le]
    · rfl
    · rw [UInt64.le_iff_toNat_le]
      show lhs.toNat ≤ 2 ^ 64 - 1
      omega
  have hlt : (rhs > UInt64.ofNat sizeMax - lhs) ↔ sizeMax - lhs.toNat < rhs.toNat := by
    rw [gt_iff_lt, UInt64.lt_iff_toNat_lt, hmax]
  unfold MappedWeightDetail.checkedAdd
  simp only [hlt]
  unfold sizeMax
  constructor
  · intro h
    split at h
    · cases h
    · obtain rfl := Except.ok.inj h
      rw [UInt64.toNat_add]
      omega
  · rintro ⟨hfit, hn⟩
    rw [if_neg (by omega)]
    refine congrArg Except.ok (UInt64.toNat_inj.mp ?_)
    rw [UInt64.toNat_add, hn]
    omega

theorem toNat_not (a : UInt64) : (~~~a).toNat = bitNot a.toNat := by
  rw [← UInt64.neg_one_xor, UInt64.toNat_xor]
  rfl

/-- The two tests of the source for a power of two. -/
theorem isPowerOfTwo_of_tests {a : UInt64} (h : ¬(a = 0 ∨ a &&& (a - 1) ≠ 0)) :
    a.toNat.isPowerOfTwo := by
  rw [not_or, not_not] at h
  have hpos : a.toNat ≠ 0 := fun h0 => h.1 (UInt64.toNat_inj.mp h0)
  refine Nat.ne_zero_and_sub_one_eq_zero_iff_isPowerOfTwo.mp ⟨hpos, ?_⟩
  have hand := congrArg UInt64.toNat h.2
  rw [UInt64.toNat_and, UInt64.toNat_sub_of_le] at hand
  · exact hand
  · rw [UInt64.le_iff_toNat_le]
    show 1 ≤ a.toNat
    omega

/-- **A checked padding rounds up to a multiple of the alignment, or it throws.** -/
theorem checkedPad_ok {value alignment n : UInt64} {subject : String}
    (h : checkedPad value alignment subject = .ok n) :
    value.toNat + (alignment.toNat - 1) ≤ sizeMax ∧
      n.toNat = Layout.padUp alignment.toNat value.toNat := by
  unfold checkedPad at h
  split at h
  · cases h
  · rename_i htests
    obtain ⟨k, hk⟩ := isPowerOfTwo_of_tests htests
    have hmask : (alignment - 1).toNat = alignment.toNat - 1 := by
      rw [UInt64.toNat_sub_of_le]
      · rfl
      · rw [UInt64.le_iff_toNat_le, hk]
        exact Nat.one_le_two_pow
    obtain ⟨sum, hsum, hn⟩ := bind_eq_ok.mp h
    obtain rfl := Except.ok.inj hn
    obtain ⟨hfit, hexact⟩ := checkedAdd_ok_iff.mp hsum
    rw [hmask] at hfit hexact
    refine ⟨hfit, ?_⟩
    rw [UInt64.toNat_and, toNat_not, hmask, hexact, hk, and_bitNot (by rw [← hk]; exact hfit)]
    rfl

theorem validateRange_ok {fileSize dataOffset tensorOffset nbytes : UInt64} {subject : String}
    {u : Unit} (h : validateRange fileSize dataOffset tensorOffset nbytes subject = .ok u) :
    dataOffset.toNat + tensorOffset.toNat + nbytes.toNat ≤ fileSize.toNat := by
  unfold validateRange at h
  obtain ⟨start, hstart, h⟩ := bind_eq_ok.mp h
  obtain ⟨stop, hstop, h⟩ := bind_eq_ok.mp h
  split at h
  · cases h
  · rename_i hinside
    rw [not_or, gt_iff_lt, gt_iff_lt, UInt64.not_lt, UInt64.not_lt] at hinside
    have hstop := (checkedAdd_ok_iff.mp hstop).2
    rw [(checkedAdd_ok_iff.mp hstart).2] at hstop
    rw [← hstop]
    exact UInt64.le_iff_toNat_le.mp hinside.2

theorem dvd_of_mod {a b : UInt64} (h : ¬a % b ≠ 0) : b.toNat ∣ a.toNat := by
  have hmod := congrArg UInt64.toNat (not_not.mp h)
  rw [UInt64.toNat_mod] at hmod
  exact Nat.dvd_of_mod_eq_zero hmod

theorem ggufAlignment_isPowerOfTwo {kv : Metadata} {a : UInt64} (h : ggufAlignment kv = .ok a) :
    a.toNat.isPowerOfTwo := by
  unfold ggufAlignment at h
  split at h
  · obtain rfl := Except.ok.inj h
    exact ⟨5, rfl⟩
  · dsimp only at h
    split at h
    · cases h
    · rename_i htests
      obtain rfl := Except.ok.inj h
      exact isPowerOfTwo_of_tests htests
  · cases h

/-! ## 5. What one turn of the loop accepts -/

/-- An entry, its borrow, and the offset the next entry must have. -/
structure Accepted (checks : TensorChecks) (expected : UInt64) (entry : DirectoryEntry)
    (borrow : Borrow) (next : UInt64) : Prop where
  name : entry.name = some borrow.name
  tensor : checks.context borrow.name = some borrow.tensor
  size : borrow.nbytes = entry.size
  nonempty : 0 < borrow.nbytes.toNat
  offset : entry.offset = expected
  start : borrow.absoluteOffset.toNat = checks.dataOffset.toNat + expected.toNat
  stop : borrow.absoluteOffset.toNat + borrow.nbytes.toNat ≤ checks.mappingSize.toNat
  cpu : checks.cpuAlignment.toNat ∣ borrow.absoluteOffset.toNat
  pad : borrow.nbytes.toNat + (checks.fileAlignment.toNat - 1) ≤ sizeMax
  next : next.toNat =
    expected.toNat + Layout.padUp checks.fileAlignment.toNat borrow.nbytes.toNat

theorem checkName_ok {names : List String} {rawName : Option String} {name : String}
    (h : checkName names rawName = .ok name) : rawName = some name ∧ name ∉ names := by
  unfold checkName at h
  split at h
  · cases h
  · split at h
    · cases h
    · split at h
      · cases h
      · rename_i hnew
        obtain rfl := Except.ok.inj h
        exact ⟨rfl, hnew⟩

theorem checkTensor_ok {checks : TensorChecks} {name : String} {type : GgmlType}
    {tensor : GgmlTensor} (h : checkTensor checks name type = .ok tensor) :
    checks.context name = some tensor := by
  unfold checkTensor at h
  split at h
  · cases h
  · rename_i found hfound
    obtain rfl : found = tensor := by
      split_ifs at h
      exact Except.ok.inj h
    exact hfound

theorem checkPlace_ok {checks : TensorChecks} {expected : UInt64} {entry : DirectoryEntry}
    {name : String} {tensor : GgmlTensor} {absoluteOffset : UInt64}
    (h : checkPlace checks expected entry name tensor = .ok absoluteOffset) :
    0 < tensor.nbytes.toNat ∧ tensor.nbytes = entry.size ∧ entry.offset = expected ∧
      absoluteOffset.toNat = checks.dataOffset.toNat + expected.toNat ∧
      absoluteOffset.toNat + tensor.nbytes.toNat ≤ checks.mappingSize.toNat ∧
      checks.cpuAlignment.toNat ∣ absoluteOffset.toNat := by
  unfold checkPlace at h
  split at h
  · cases h
  · rename_i hbytes
    split at h
    · cases h
    · rename_i hoffset
      rw [not_or, not_not] at hbytes hoffset
      obtain ⟨_, hrange, h⟩ := bind_eq_ok.mp h
      obtain ⟨start, hstart, h⟩ := bind_eq_ok.mp h
      split at h
      · cases h
      · rename_i hcpu
        obtain rfl := Except.ok.inj h
        have hstop := validateRange_ok hrange
        have hexact := (checkedAdd_ok_iff.mp hstart).2
        rw [← hexact] at hstop
        rw [hoffset.1] at hexact
        exact ⟨Nat.pos_of_ne_zero fun h0 => hbytes.1 (UInt64.toNat_inj.mp h0),
          hbytes.2, hoffset.1, hexact, hstop, dvd_of_mod hcpu⟩

theorem validateTensor_ok {checks : TensorChecks} {names : List String} {expected next : UInt64}
    {entry : DirectoryEntry} {borrow : Borrow}
    (h : validateTensor checks names expected entry = .ok (borrow, next)) :
    borrow.name ∉ names ∧ Accepted checks expected entry borrow next := by
  unfold validateTensor at h
  obtain ⟨name, hname, h⟩ := bind_eq_ok.mp h
  obtain ⟨tensor, htensor, h⟩ := bind_eq_ok.mp h
  obtain ⟨start, hplace, h⟩ := bind_eq_ok.mp h
  obtain ⟨padded, hpad, h⟩ := bind_eq_ok.mp h
  obtain ⟨sum, hsum, h⟩ := bind_eq_ok.mp h
  obtain ⟨rfl, rfl⟩ := Prod.mk.inj (Except.ok.inj h)
  obtain ⟨hname, hnew⟩ := checkName_ok hname
  obtain ⟨hpos, hsize, hoffset, hstart, hstop, hcpu⟩ := checkPlace_ok hplace
  obtain ⟨hfit, hpadded⟩ := checkedPad_ok hpad
  exact ⟨hnew,
    { name := hname
      tensor := checkTensor_ok htensor
      size := hsize
      nonempty := hpos
      offset := hoffset
      start := hstart
      stop := hstop
      cpu := hcpu
      pad := hfit
      next := (checkedAdd_ok_iff.mp hsum).2.trans (by rw [hpadded]) }⟩

/-! ## 6. What a run of the loop accepts -/

/-- The bytes of a borrow. -/
def Borrow.span (borrow : Borrow) : Interval.Span Nat :=
  ⟨borrow.absoluteOffset.toNat, borrow.absoluteOffset.toNat + borrow.nbytes.toNat⟩

/-- The sizes the directory gives. -/
def sizesOf (entries : List DirectoryEntry) : List Nat := entries.map fun entry => entry.size.toNat

/-- **The ranges accepted are the sizes of the directory, placed one behind the other**; no offset on
    the way is beyond a `size_t`. -/
theorem validateTensors_placed {checks : TensorChecks} {names : List String} {expected : UInt64}
    {entries : List DirectoryEntry} {borrows : List Borrow}
    (h : validateTensors checks names expected entries = .ok borrows) :
    borrows.map Borrow.span = Layout.place checks.fileAlignment.toNat
        (checks.dataOffset.toNat + expected.toNat) (sizesOf entries) ∧
      expected.toNat + Layout.extent checks.fileAlignment.toNat (sizesOf entries) ≤ sizeMax := by
  induction entries generalizing names expected borrows with
  | nil =>
      obtain rfl := Except.ok.inj h
      have := expected.toNat_lt
      refine ⟨rfl, ?_⟩
      show expected.toNat + 0 ≤ 2 ^ 64 - 1
      omega
  | cons entry entries ih =>
      obtain ⟨⟨borrow, next⟩, hturn, h⟩ := bind_eq_ok.mp h
      obtain ⟨rest, hrest, h⟩ := bind_eq_ok.mp h
      obtain rfl := Except.ok.inj h
      obtain ⟨hplaced, htotal⟩ := ih hrest
      have hturn := (validateTensor_ok hturn).2
      have hsize : entry.size.toNat = borrow.nbytes.toNat := by rw [hturn.size]
      constructor
      · rw [List.map_cons, hplaced, hturn.next, ← Nat.add_assoc, sizesOf, sizesOf, List.map_cons,
          Layout.place, hsize]
        unfold Borrow.span
        rw [hturn.start]
      · rw [hturn.next] at htotal
        unfold Layout.extent sizesOf at htotal ⊢
        rw [List.map_cons, List.map_cons, List.sum_cons, hsize]
        omega

theorem validateTensors_accepted {checks : TensorChecks} {names : List String} {expected : UInt64}
    {entries : List DirectoryEntry} {borrows : List Borrow}
    (h : validateTensors checks names expected entries = .ok borrows) :
    List.Forall₂ (fun entry borrow => ∃ next, Accepted checks entry.offset entry borrow next)
      entries borrows := by
  induction entries generalizing names expected borrows with
  | nil =>
      obtain rfl := Except.ok.inj h
      exact .nil
  | cons entry entries ih =>
      obtain ⟨⟨borrow, next⟩, hturn, h⟩ := bind_eq_ok.mp h
      obtain ⟨rest, hrest, h⟩ := bind_eq_ok.mp h
      obtain rfl := Except.ok.inj h
      have hturn := (validateTensor_ok hturn).2
      exact .cons ⟨next, hturn.offset ▸ hturn⟩ (ih hrest)

/-- **The names are unique**, and none is among those seen before. -/
theorem validateTensors_names {checks : TensorChecks} {names : List String} {expected : UInt64}
    {entries : List DirectoryEntry} {borrows : List Borrow}
    (h : validateTensors checks names expected entries = .ok borrows) :
    (borrows.map Borrow.name).Nodup ∧ ∀ borrow ∈ borrows, borrow.name ∉ names := by
  induction entries generalizing names expected borrows with
  | nil =>
      obtain rfl := Except.ok.inj h
      exact ⟨.nil, fun _ h => absurd h List.not_mem_nil⟩
  | cons entry entries ih =>
      obtain ⟨⟨borrow, next⟩, hturn, h⟩ := bind_eq_ok.mp h
      obtain ⟨rest, hrest, h⟩ := bind_eq_ok.mp h
      obtain rfl := Except.ok.inj h
      obtain ⟨hnodup, hnew⟩ := ih hrest
      refine ⟨List.nodup_cons.mpr ⟨fun hmem => ?_, hnodup⟩, fun b hb => ?_⟩
      · obtain ⟨b, hb, hname⟩ := List.mem_map.mp hmem
        exact hnew b hb (hname ▸ List.mem_cons_self)
      · rcases List.mem_cons.mp hb with rfl | hb
        · exact (validateTensor_ok hturn).1
        · exact fun hmem => hnew b hb (List.mem_cons_of_mem _ hmem)

/-! ## 7. The result -/

/-- What an accepted directory guarantees. The sizes and offsets here are exact: `padded`, `total`
    and `address` say that no sum the code forms on the way, up to the address of a tensor's last
    byte, leaves the machine word. -/
structure Validated (mapping : Mapping) (dataOffset fileAlignment cpuAlignment : UInt64)
    (entries : List DirectoryEntry) (borrows : List Borrow) : Prop where
  unique : (borrows.map Borrow.name).Nodup
  recorded : List.Forall₂ (fun entry borrow => entry.name = some borrow.name ∧
    borrow.nbytes = entry.size ∧
    borrow.absoluteOffset.toNat = dataOffset.toNat + entry.offset.toNat) entries borrows
  increasing : borrows.Pairwise fun b c => b.span.hi ≤ c.span.lo
  nonempty : ∀ b ∈ borrows, b.span.lo < b.span.hi
  inside : ∀ b ∈ borrows, dataOffset.toNat ≤ b.span.lo ∧ b.span.hi ≤ mapping.size.toNat
  fileAligned : ∀ b ∈ borrows, fileAlignment.toNat ∣ b.span.lo - dataOffset.toNat
  cpuAligned : ∀ b ∈ borrows, cpuAlignment.toNat ∣ mapping.base.toNat + b.span.lo
  padded : ∀ b ∈ borrows, b.nbytes.toNat + (fileAlignment.toNat - 1) ≤ sizeMax
  total : Layout.extent fileAlignment.toNat (sizesOf entries) ≤ sizeMax
  address : ∀ b ∈ borrows, mapping.base.toNat + b.span.hi ≤ 2 ^ 64

theorem validateTensors_validated {context : GgmlContext} {mapping : Mapping}
    {dataOffset fileAlignment cpuAlignment : UInt64} {entries : List DirectoryEntry}
    {borrows : List Borrow} (hbase : cpuAlignment.toNat ∣ mapping.base.toNat)
    (halign : 0 < fileAlignment.toNat)
    (h : validateTensors ⟨context, mapping.size, dataOffset, fileAlignment, cpuAlignment⟩ [] 0
      entries = .ok borrows) :
    Validated mapping dataOffset fileAlignment cpuAlignment entries borrows := by
  obtain ⟨hplaced, htotal⟩ := validateTensors_placed h
  rw [UInt64.toNat_zero, Nat.add_zero] at hplaced
  rw [UInt64.toNat_zero, Nat.zero_add] at htotal
  have haccepted := validateTensors_accepted h
  have hsorted : (borrows.map Borrow.span).Pairwise fun s t => s.hi ≤ t.lo :=
    hplaced ▸ Layout.place_sorted halign
  have haligned : ∀ b ∈ borrows, fileAlignment.toNat ∣ b.span.lo - dataOffset.toNat := fun b hb =>
    Layout.place_aligned _ (hplaced ▸ List.mem_map_of_mem hb)
  exact
    { unique := (validateTensors_names h).1
      recorded := haccepted.imp fun _ _ ⟨_, hb⟩ => ⟨hb.name, hb.size, hb.start⟩
      increasing := List.pairwise_map.mp hsorted
      nonempty := fun b hb => by
        obtain ⟨entry, -, _, hb⟩ := forall₂_mem_right haccepted hb
        exact Nat.lt_add_of_pos_right hb.nonempty
      inside := fun b hb => by
        obtain ⟨entry, -, _, hb⟩ := forall₂_mem_right haccepted hb
        exact ⟨(Nat.le_add_right _ _).trans_eq hb.start.symm, hb.stop⟩
      fileAligned := haligned
      cpuAligned := fun b hb => by
        obtain ⟨entry, -, _, hb⟩ := forall₂_mem_right haccepted hb
        exact Nat.dvd_add hbase hb.cpu
      padded := fun b hb => by
        obtain ⟨entry, -, _, hb⟩ := forall₂_mem_right haccepted hb
        exact hb.pad
      total := htotal
      address := fun b hb => by
        obtain ⟨entry, -, _, hb⟩ := forall₂_mem_right haccepted hb
        exact (Nat.add_le_add_left hb.stop _).trans mapping.fits }

/-- **What `validate_tensor_metadata` accepts is sound.** -/
theorem validateTensorMetadata_sound {file : MappedFile} {cpuAlignment dataOffset : UInt64}
    {borrows : List Borrow}
    (h : file.validateTensorMetadata cpuAlignment = .ok (dataOffset, borrows)) :
    ∃ gguf mapping fileAlignment, file.gguf = some gguf ∧ file.mapping = some mapping ∧
      ggufAlignment gguf.kv = .ok fileAlignment ∧ gguf.dataOffset = dataOffset ∧
      Validated mapping dataOffset fileAlignment cpuAlignment gguf.tensors borrows := by
  unfold MappedFile.validateTensorMetadata at h
  split at h
  · rename_i gguf context mapping hgguf hcontext hmapping
    obtain ⟨fileAlignment, halignment, h⟩ := bind_eq_ok.mp h
    split at h
    · cases h
    · split at h
      · cases h
      · rename_i hbase
        split at h
        · cases h
        · split at h
          · cases h
          · obtain ⟨found, hfound, h⟩ := bind_eq_ok.mp h
            obtain ⟨rfl, rfl⟩ := Prod.mk.inj (Except.ok.inj h)
            exact ⟨gguf, mapping, fileAlignment, hgguf, hmapping, halignment, rfl,
              validateTensors_validated (dvd_of_mod hbase)
                (Nat.pos_of_isPowerOfTwo (ggufAlignment_isPowerOfTwo halignment)) hfound⟩
  · cases h

/-- Two tensors of 40 and 34 bytes, at the end of a file of 162 bytes. -/
def twoTensors : MappedFile where
  gguf := some
    { kv := fun _ => none
      dataOffset := 64
      tensors := [⟨some "first", .f32, 40, 0⟩, ⟨some "second", .q8_0, 34, 64⟩] }
  context := some fun name =>
    if name = "first" then some ⟨.f32, 10, 1, 40, 40, false, false⟩
    else if name = "second" then some ⟨.q8_0, 32, 1, 34, 34, false, false⟩
    else none
  mapping := some ⟨4096, 162, by decide⟩

/-- They are at 64 and 128. -/
theorem validateTensorMetadata_sound_two :
    ([⟨⟨.f32, 10, 1, 40, 40, false, false⟩, "first", 64, 40⟩,
      ⟨⟨.q8_0, 32, 1, 34, 34, false, false⟩, "second", 128, 34⟩] : List Borrow).Pairwise
        fun b c => b.span.hi ≤ c.span.lo := by
  obtain ⟨_, _, _, _, _, _, _, hvalid⟩ := @validateTensorMetadata_sound twoTensors 32 64
    [⟨⟨.f32, 10, 1, 40, 40, false, false⟩, "first", 64, 40⟩,
      ⟨⟨.q8_0, 32, 1, 34, 34, false, false⟩, "second", 128, 34⟩]
    (toOption_eq_some (by decide +kernel))
  exact hvalid.increasing

/-! ## 8. The store -/

/-- What `tensor_infos` lists for a borrow. -/
def Borrow.info (borrow : Borrow) : MappedTensorInfo :=
  { name := borrow.name
    absoluteOffset := borrow.absoluteOffset.toNat
    nbytes := borrow.nbytes.toNat
    rowStride := borrow.tensor.nb1.toNat
    rowCount := borrow.tensor.ne1 }

end NanoEmbed.Streaming

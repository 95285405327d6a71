import MultiArchUefi.Image

/-!
# MultiArchUefi.Transfer

Control transfers of emulated code: which targets the engine translates
itself, which ones it hands to the driver, and what the driver makes of them.

`EmulatorIsNativeCall` takes every address inside *some* registered image for
a local one, while an engine can only execute the images of its own CPU;
`classified_iff` says exactly which targets fall between the two.
-/

namespace MultiArchUefi

/-! ## the driver's decisions -/

def emulatorIsNativeCall (cfg : Config) (images : Images) (programCounter : UINT64) : Bool :=
  if programCounter &&& (cfg.host.nativeInsnAlignment - 1) ≠ 0 then false
  else if programCounter < EFI_PAGE_SIZE then true
  else if imageFindByAddress images programCounter ≠ none then false
  else true

def cpuIsNativeCb (cfg : Config) (images : Images) (address : UINT64) : Bool :=
  address == cfg.returnToNativeMagic || emulatorIsNativeCall cfg images address

/-- `uc_err`, as far as the driver tells the values apart. -/
inductive UcErr where
  | ok
  | findTb
  | other (code : Nat)
deriving DecidableEq, Repr

/-- `CpuExitReason`, without `CPU_REASON_INVALID`. -/
inductive CpuExitReason where
  | none
  | returnToNative
  | callToNative
  | failedEmu
deriving DecidableEq, Repr

/-- What `CpuRunCtxInternal` makes of the end of `uc_emu_start`. -/
def cpuExitReason (cfg : Config) (ucErr : UcErr) (programCounter : UINT64) : CpuExitReason :=
  if ucErr = .findTb then
    if programCounter = cfg.returnToNativeMagic then .returnToNative else .callToNative
  else if ucErr ≠ .ok then .failedEmu
  else .none

/-- The function `NativeThunk*` calls: the target itself, or a wrapper. -/
inductive NativeTarget where
  | native
  | nativeUnsupported
  | cpuExitImage
  | efiWrapperCreateEventCommon
  | efiWrapperCloseEvent
deriving DecidableEq, Repr

def efiWrappersOverride (cfg : Config) (programCounter : UINT64) : NativeTarget :=
  if cfg.wrappedEntryPoints = true ∧
    programCounter = cfg.createEvent then .efiWrapperCreateEventCommon
  else if cfg.wrappedEntryPoints = true ∧ programCounter = cfg.createEventEx then
    .efiWrapperCreateEventCommon
  else if cfg.wrappedEntryPoints = true ∧ programCounter = cfg.closeEvent then .efiWrapperCloseEvent
  else if programCounter = cfg.exitBootServices then .nativeUnsupported
  else if programCounter = cfg.registerInterruptHandler ∨ programCounter = cfg.init then
    .nativeUnsupported
  else if programCounter = cfg.exit then .cpuExitImage
  else .native

def nativeValidateSupportedCall (cfg : Config) (programCounter : UINT64) : NativeTarget :=
  if programCounter < EFI_PAGE_SIZE then .nativeUnsupported
  else efiWrappersOverride cfg programCounter

/-! ## the engine's part -/

/-- What an engine does with a branch. -/
inductive Fetch where
  /-- It runs translated code at the target. -/
  | translated
  /-- `uc_emu_start` returns. -/
  | stopped (ucErr : UcErr)
deriving DecidableEq, Repr

/-- How Unicorn resolves a branch to `a` on engine `cpu`: executable memory is
translated, otherwise the `UC_HOOK_TB_FIND_FAILURE` callback decides between
`UC_ERR_FIND_TB` and a fetch error. -/
structure FetchSpec (perms : CodePerms) (callback : UINT64 → Bool)
    (fetch : CpuId → UINT64 → Fetch) :
    Prop where
  executable : ∀ cpu a, perms cpu a = true → fetch cpu a = .translated
  native : ∀ cpu a, perms cpu a = false → callback a = true → fetch cpu a = .stopped .findTb
  fault : ∀ cpu a, perms cpu a = false → callback a = false →
    ∃ code, fetch cpu a = .stopped (.other code)

/-- The target leaves the engine through its `NativeThunk`: the callback
reports it, and the run loop takes the stop for a call to native code. -/
def LeavesThroughNativeThunk (cfg : Config) (images : Images) (fetch : CpuId → UINT64 → Fetch)
    (cpu : CpuId) (a : UINT64) : Prop :=
  cpuIsNativeCb cfg images a = true ∧
    ∃ ucErr, fetch cpu a = .stopped ucErr ∧ cpuExitReason cfg ucErr a = .callToNative

/-- A branch of engine `cpu` to `a` is classified by the image the target lies
in: the engine translates it only inside an image of its own CPU, a target in
an image of the other CPU leaves through `NativeThunk`, and so does an aligned
target in no image. -/
structure Classified (cfg : Config) (images : Images) (fetch : CpuId → UINT64 → Fetch)
    (cpu : CpuId) (a : UINT64) : Prop where
  local_only : fetch cpu a = .translated →
    ∃ r ∈ images.mImageList, (images.record r).contains a = true ∧ (images.record r).cpu = cpu
  foreign : ∀ r ∈ images.mImageList, (images.record r).contains a = true →
    (images.record r).cpu ≠ cpu → LeavesThroughNativeThunk cfg images fetch cpu a
  native : (∀ r ∈ images.mImageList, (images.record r).contains a = false) →
    a &&& (cfg.host.nativeInsnAlignment - 1) = 0 → LeavesThroughNativeThunk cfg images fetch cpu a

/-! ## classification -/

/-- Inside a registered image the callback never reports a native call. -/
theorem cpuIsNativeCb_of_contains {cfg : Config} {images : Images} {a : UINT64} {r : RecordId}
    (ha : EFI_PAGE_SIZE ≤ a) (hm : a ≠ cfg.returnToNativeMagic) (hr : r ∈ images.mImageList)
    (hc : (images.record r).contains a = true) : cpuIsNativeCb cfg images a = false := by
  have hfind : imageFindByAddress images a ≠ none := by
    intro hnone
    rw [imageFindByAddress_eq_none_iff] at hnone
    rw [hnone r hr] at hc
    exact Bool.false_ne_true hc
  have hpage : ¬ a < EFI_PAGE_SIZE := BitVec.not_lt.mpr ha
  simp [cpuIsNativeCb, emulatorIsNativeCall, hm, hfind, hpage]

/-- Outside every image the callback reports the aligned targets. -/
theorem cpuIsNativeCb_of_not_contains {cfg : Config} {images : Images} {a : UINT64}
    (hn : ∀ r ∈ images.mImageList, (images.record r).contains a = false)
    (hal : a &&& (cfg.host.nativeInsnAlignment - 1) = 0) : cpuIsNativeCb cfg images a = true := by
  have hfind : imageFindByAddress images a = none := imageFindByAddress_eq_none_iff.mpr hn
  have hcall : emulatorIsNativeCall cfg images a = true := by
    rw [emulatorIsNativeCall, if_neg (not_not.mpr hal), if_neg (not_not.mpr hfind), ite_self]
  rw [cpuIsNativeCb, hcall, Bool.or_true]

section

variable {cfg : Config} {images : Images} {fetch : CpuId → UINT64 → Fetch}
  (hfetch : FetchSpec (codePerms images) (cpuIsNativeCb cfg images) fetch)
include hfetch

/-- An engine translates nothing outside the images of its own CPU. -/
theorem contains_of_translated {cpu : CpuId} {a : UINT64} (ht : fetch cpu a = .translated) :
    ∃ r ∈ images.mImageList, (images.record r).contains a = true ∧ (images.record r).cpu = cpu := by
  cases hp : codePerms images cpu a with
  | true =>
      obtain ⟨r, hr, hcpu, hc⟩ := codePerms_eq_true_iff.mp hp
      exact ⟨r, hr, hc, hcpu⟩
  | false =>
      -- without execute permission the engine always stops
      cases hn : cpuIsNativeCb cfg images a with
      | true => rw [hfetch.native cpu a hp hn] at ht; cases ht
      | false =>
          obtain ⟨code, hf⟩ := hfetch.fault cpu a hp hn
          rw [hf] at ht
          cases ht

/-- An aligned target in no image leaves through `NativeThunk`. -/
theorem leaves_of_not_contains {cpu : CpuId} {a : UINT64} (hm : a ≠ cfg.returnToNativeMagic)
    (hn : ∀ r ∈ images.mImageList, (images.record r).contains a = false)
    (hal : a &&& (cfg.host.nativeInsnAlignment - 1) = 0) :
    LeavesThroughNativeThunk cfg images fetch cpu a := by
  have hcb := cpuIsNativeCb_of_not_contains hn hal
  have hp : codePerms images cpu a = false := by
    rw [← Bool.not_eq_true, codePerms_eq_true_iff]
    rintro ⟨r, hr, -, hc⟩
    rw [hn r hr] at hc
    exact Bool.false_ne_true hc
  exact ⟨hcb, .findTb, hfetch.native cpu a hp hcb, by simp [cpuExitReason, hm]⟩

/-- A branch is classified by the image its target lies in exactly when the
target lies in no image of another CPU: those targets are reported as local,
and the fetch error ends the calling emulated function. -/
theorem classified_iff {cpu : CpuId} {a : UINT64} (ha : EFI_PAGE_SIZE ≤ a)
    (hm : a ≠ cfg.returnToNativeMagic) :
    Classified cfg images fetch cpu a ↔
      ∀ r ∈ images.mImageList, (images.record r).contains a = true →
      (images.record r).cpu = cpu := by
  constructor
  · intro h r hr hc
    by_contra hcpu
    have hcb := (h.foreign r hr hc hcpu).1
    rw [cpuIsNativeCb_of_contains ha hm hr hc] at hcb
    exact Bool.false_ne_true hcb
  · intro h
    exact ⟨contains_of_translated hfetch, fun r hr hc hcpu => absurd (h r hr hc) hcpu,
      fun hn hal => leaves_of_not_contains hfetch hm hn hal⟩

end

/-! ## a cross-CPU call -/

/-- A host with one image of each CPU. -/
def oneImageEach : Images where
  mImageList := [0, 1]
  record r :=
    if r = 0 then ⟨0x10000, 0x10400, 0x2000, 1, .x64, none, 0, 0, 0⟩
    else ⟨0x20000, 0x20400, 0x2000, 2, .aarch64, none, 0, 0, 0⟩

/-- A build for RISC-V with services at fixed addresses. -/
def riscvConfig : Config where
  host := .riscv64
  checkOrphanContexts := false
  onPrivateStack := false
  wrappedEntryPoints := false
  returnToNativeMagic := 0x80001000
  createEvent := 0x80002000
  createEventEx := 0x80002100
  closeEvent := 0x80002200
  exitBootServices := 0x80002300
  registerInterruptHandler := 0x80002400
  init := 0x80002500
  exit := 0x80002600

/-- Unicorn's branch resolution over given permissions and callback. -/
def ucFetch (perms : CodePerms) (callback : UINT64 → Bool) (cpu : CpuId) (a : UINT64) : Fetch :=
  if perms cpu a then .translated
  else if callback a then .stopped .findTb
  else .stopped (.other 14)

theorem ucFetch_spec (perms : CodePerms) (callback : UINT64 → Bool) :
    FetchSpec perms callback (ucFetch perms callback) where
  executable := fun cpu a h => by simp [ucFetch, h]
  native := fun cpu a hp hc => by simp [ucFetch, hp, hc]
  fault := fun cpu a hp hc => ⟨14, by simp [ucFetch, hp, hc]⟩

/-- An AArch64 image branching within itself is classified. -/
theorem classified_within_image :
    Classified riscvConfig oneImageEach
      (ucFetch (codePerms oneImageEach) (cpuIsNativeCb riscvConfig oneImageEach))
      .aarch64 0x20800 :=
  (classified_iff (ucFetch_spec _ _) (by decide) (by decide)).mpr (by decide)

/-- The AArch64 image calling the x64 image: the call is not reported to the
driver and ends the caller with a failed emulation. -/
theorem cross_cpu_call_fails :
    ¬ Classified riscvConfig oneImageEach
        (ucFetch (codePerms oneImageEach) (cpuIsNativeCb riscvConfig oneImageEach))
        .aarch64 0x10400 ∧
      cpuIsNativeCb riscvConfig oneImageEach 0x10400 = false ∧
      ucFetch (codePerms oneImageEach) (cpuIsNativeCb riscvConfig oneImageEach) .aarch64 0x10400 =
        .stopped (.other 14) ∧
      cpuExitReason riscvConfig (.other 14) 0x10400 = .failedEmu := by
  refine ⟨fun h => ?_, by decide, by decide, by decide⟩
  have hcb := (h.foreign 0 (by decide) (by decide) (by decide)).1
  exact absurd hcb (by decide)

end MultiArchUefi

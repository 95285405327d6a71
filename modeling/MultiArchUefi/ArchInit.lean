import MultiArchUefi.Setup

/-!
# MultiArchUefi.ArchInit

Whether `ArchInit` registers the callback for all of its exceptions or for none.
The three hosts differ: one registration has nothing to undo, the list of the
RISC-V host is undone as far as it has come, and the two of the LoongArch host
share one `Status`.
-/

namespace MultiArchUefi

/-! ## the property -/

/-- If `ArchInit` returns success, `EmulatorSyncExceptionCallback` is the handler of all
exceptions that it asks for, which are those that `ArchCleanup` gives back; if it
returns an error, the handlers are as before. -/
def ArchInitAllOrNothing (b : Build) (v : StartServices) (s : Setup) : Prop :=
  if efiError (archInit b v s).1 then (archInit b v s).2.handlers = s.handlers
  else ∀ e ∈ cleanedExceptions b, (archInit b v s).2.handlers e =
    b.emulatorSyncExceptionCallback.val

/-- On RISC-V the handlers that are registered before one that is not can be removed
again; on LoongArch neither of the two is registered alone. -/
def RegistersTogether (b : Build) (v : StartServices) (s : Setup) : Prop :=
  match b.host with
  | .aarch64 => True
  | .riscv64 => (∃ e ∈ mExceptions b, ¬ Registers v s e) →
      ∀ e ∈ (mExceptions b).takeWhile (Registers v s), Unregisters v e
  | .loongarch64 =>
      let pnx := EXCEPT_LOONGARCH_PNX <<< CSR_ESTAT_EXC_SHIFT
      if Registers v s (EXCEPT_LOONGARCH_ADE <<< CSR_ESTAT_EXC_SHIFT) then
        Registers v s pnx ∨ s.handlers pnx = b.emulatorSyncExceptionCallback.val
      else ¬ Registers v s pnx

/-! ## what is left registered -/

variable {b : Build} {v : StartServices} {s : Setup}

/-- A failed `ArchInit` leaves the handlers as they were exactly when it undoes
what it has done. -/
theorem handlers_archInit_failed (h : ArchInitFails b v s) :
    (archInit b v s).2.handlers = s.handlers ↔ ArchInitUndoes b v s := by
  obtain ⟨handlers, hstate, hundoes⟩ := (archSpec b v s).failed h
  rw [hstate]
  exact hundoes

/-- The property, by the two ways in which `ArchInit` returns. -/
theorem archInitAllOrNothing_iff_spec (b : Build) (v : StartServices) (s : Setup) :
    ArchInitAllOrNothing b v s ↔
      (ArchInitFails b v s → ArchInitUndoes b v s) ∧
        (¬ ArchInitFails b v s → ∀ e ∈ cleanedExceptions b,
          (archInit b v s).2.handlers e = b.emulatorSyncExceptionCallback.val) := by
  have hstatus := (archSpec b v s).status
  unfold ArchInitAllOrNothing
  by_cases hfails : ArchInitFails b v s
  · rw [if_pos (hstatus.mpr hfails), handlers_archInit_failed hfails]
    simp [hfails]
  · rw [if_neg fun herror => hfails (hstatus.mp herror)]
    simp [hfails]

theorem archInitAllOrNothing_aarch64 (hhost : b.host = .aarch64) : ArchInitAllOrNothing b v s := by
  refine (archInitAllOrNothing_iff_spec b v s).mpr ⟨fun _ => ?_, fun hfails e he => ?_⟩
  · simp only [ArchInitUndoes, hhost]
  · have hregisters : Registers v s EXCEPT_AARCH64_SYNCHRONOUS_EXCEPTIONS := by
      simpa only [ArchInitFails, hhost, not_not] using hfails
    have hsync : e = EXCEPT_AARCH64_SYNCHRONOUS_EXCEPTIONS := by
      simpa only [cleanedExceptions, hhost, List.mem_singleton] using he
    have hstate := registerCallback_of_registers (b := b) hregisters
    simp only [archInit, hhost, hstate, hsync, registeredFor, List.mem_singleton, if_true]

/-- When no registration fails, the RISC-V loop makes them all. -/
theorem handlers_archInit_riscv64 (hhost : b.host = .riscv64)
    (hfails : ¬ ArchInitFails b v s) {e : Nat} (he : e ∈ mExceptions b) :
    (archInit b v s).2.handlers e = b.emulatorSyncExceptionCallback.val := by
  have hexists : ¬ ∃ e ∈ mExceptions b, ¬ Registers v s e := by
    simpa only [ArchInitFails, hhost] using hfails
  have hall : (mExceptions b).takeWhile (fun e => Registers v s e) = mExceptions b :=
    List.takeWhile_eq_self_iff.mpr fun e he => decide_eq_true
      (not_not.mp fun hnot => hexists ⟨e, he, hnot⟩)
  have hnodup : (mExceptions b ++ []).Nodup := by simpa using nodup_mExceptions b
  obtain ⟨-, hstate⟩ := registerExceptions_eq b v s hnodup
  rw [registeredFor_nil, if_neg hexists, hall] at hstate
  simp [archInit, hhost, hstate, registeredFor, he]

theorem archInitAllOrNothing_riscv64 (hhost : b.host = .riscv64) :
    ArchInitAllOrNothing b v s ↔ ((∃ e ∈ mExceptions b, ¬ Registers v s e) →
      ∀ e ∈ (mExceptions b).takeWhile (Registers v s), Unregisters v e) := by
  have hfails : ArchInitFails b v s ↔ ∃ e ∈ mExceptions b, ¬ Registers v s e := by
    simp only [ArchInitFails, hhost]
  have hundoes : ArchInitUndoes b v s ↔ ∀ e ∈ (mExceptions b).takeWhile (Registers v s),
      Unregisters v e := by
    simp only [ArchInitUndoes, hhost]
  rw [archInitAllOrNothing_iff_spec, ← hfails, ← hundoes]
  refine and_iff_left fun hnot e he => handlers_archInit_riscv64 hhost hnot ?_
  simpa only [cleanedExceptions, hhost] using he

/-- What the LoongArch host finds as the handler of `EXCEPT_LOONGARCH_PNX`, when that of
`EXCEPT_LOONGARCH_ADE` has been registered. -/
theorem handlers_archInit_loongarch64 (hhost : b.host = .loongarch64)
    (hade : Registers v s (EXCEPT_LOONGARCH_ADE <<< CSR_ESTAT_EXC_SHIFT)) :
    (∀ e ∈ cleanedExceptions b, (archInit b v s).2.handlers e =
      b.emulatorSyncExceptionCallback.val) ↔
      Registers v s (EXCEPT_LOONGARCH_PNX <<< CSR_ESTAT_EXC_SHIFT) ∨
        s.handlers (EXCEPT_LOONGARCH_PNX <<< CSR_ESTAT_EXC_SHIFT) =
          b.emulatorSyncExceptionCallback.val := by
  have hcleaned : cleanedExceptions b =
      [EXCEPT_LOONGARCH_PNX <<< CSR_ESTAT_EXC_SHIFT,
        EXCEPT_LOONGARCH_ADE <<< CSR_ESTAT_EXC_SHIFT] := by
    simp only [cleanedExceptions, hhost]
  have hinit : archInit b v s = registerCallback b v (EXCEPT_LOONGARCH_ADE <<< CSR_ESTAT_EXC_SHIFT)
      (registerCallback b v (EXCEPT_LOONGARCH_PNX <<< CSR_ESTAT_EXC_SHIFT) s).2 := by
    simp only [archInit, hhost]
  have hne : EXCEPT_LOONGARCH_ADE <<< CSR_ESTAT_EXC_SHIFT ≠
      EXCEPT_LOONGARCH_PNX <<< CSR_ESTAT_EXC_SHIFT := by
    decide
  generalize EXCEPT_LOONGARCH_PNX <<< CSR_ESTAT_EXC_SHIFT = pnx at *
  generalize EXCEPT_LOONGARCH_ADE <<< CSR_ESTAT_EXC_SHIFT = ade at *
  rw [hcleaned, hinit]
  by_cases hpnx : Registers v s pnx
  · have hade' : Registers v { s with handlers := registeredFor b [pnx] s.handlers } ade :=
      (registers_registeredFor (by simpa using hne)).mpr hade
    rw [registerCallback_of_registers hpnx, registerCallback_of_registers hade']
    simp [registeredFor, hpnx]
  · rw [registerCallback_of_not_registers hpnx, registerCallback_of_registers hade]
    simp [registeredFor, hpnx, Ne.symm hne]

theorem registersTogether_loongarch64 (hhost : b.host = .loongarch64) :
    RegistersTogether b v s ↔ if Registers v s (EXCEPT_LOONGARCH_ADE <<< CSR_ESTAT_EXC_SHIFT) then
        Registers v s (EXCEPT_LOONGARCH_PNX <<< CSR_ESTAT_EXC_SHIFT) ∨
          s.handlers (EXCEPT_LOONGARCH_PNX <<< CSR_ESTAT_EXC_SHIFT) =
            b.emulatorSyncExceptionCallback.val
      else ¬ Registers v s (EXCEPT_LOONGARCH_PNX <<< CSR_ESTAT_EXC_SHIFT) := by
  simp only [RegistersTogether, hhost]

theorem archInitAllOrNothing_loongarch64 (hhost : b.host = .loongarch64) :
    ArchInitAllOrNothing b v s ↔ RegistersTogether b v s := by
  have hfails : ArchInitFails b v s ↔
      ¬ Registers v s (EXCEPT_LOONGARCH_ADE <<< CSR_ESTAT_EXC_SHIFT) := by
    simp only [ArchInitFails, hhost]
  have hundoes : ArchInitUndoes b v s ↔
      ¬ Registers v s (EXCEPT_LOONGARCH_PNX <<< CSR_ESTAT_EXC_SHIFT) := by
    simp only [ArchInitUndoes, hhost]
  rw [archInitAllOrNothing_iff_spec, registersTogether_loongarch64 hhost, hfails, hundoes, not_not]
  by_cases hade : Registers v s (EXCEPT_LOONGARCH_ADE <<< CSR_ESTAT_EXC_SHIFT)
  · rw [if_pos hade]
    simp [hade, handlers_archInit_loongarch64 hhost hade]
  · rw [if_neg hade]
    simp [hade]

/-! ## the hosts -/

/-- `ArchInit` is all or nothing exactly when what it registers can be registered, and
undone, together. -/
theorem archInitAllOrNothing_iff (b : Build) (v : StartServices) (s : Setup) :
    ArchInitAllOrNothing b v s ↔ RegistersTogether b v s := by
  cases hhost : b.host with
  | aarch64 =>
      have htrue : RegistersTogether b v s := by simp only [RegistersTogether, hhost]
      exact iff_of_true (archInitAllOrNothing_aarch64 hhost) htrue
  | riscv64 =>
      rw [archInitAllOrNothing_riscv64 hhost]
      simp only [RegistersTogether, hhost]
  | loongarch64 => exact archInitAllOrNothing_loongarch64 hhost

/-- A build for LoongArch hosts. -/
def loongarchBuild : Build := { hostBuild with host := .loongarch64 }

/-- Another client has a handler for the exception. -/
def takenSetup (exceptionType : Nat) : Setup :=
  { hostSetup 0 with handlers := Function.update (fun _ => 0) exceptionType 0x50001000 }

/-- With `EXCEPT_LOONGARCH_PNX` taken, `ArchInit` returns success without the handler for
it; with `EXCEPT_LOONGARCH_ADE` taken, it returns an error and leaves the other one. -/
theorem archInit_loongarch64_halfRegistered :
    (archInit loongarchBuild (startServices .ok)
      (takenSetup (EXCEPT_LOONGARCH_PNX <<< CSR_ESTAT_EXC_SHIFT))).1 =
        EFI_SUCCESS ∧
      ¬ ArchInitAllOrNothing loongarchBuild (startServices .ok)
        (takenSetup (EXCEPT_LOONGARCH_PNX <<< CSR_ESTAT_EXC_SHIFT)) ∧
      (archInit loongarchBuild (startServices .ok)
        (takenSetup (EXCEPT_LOONGARCH_ADE <<< CSR_ESTAT_EXC_SHIFT))).1 =
        EFI_ALREADY_STARTED ∧
      ¬ ArchInitAllOrNothing loongarchBuild (startServices .ok)
        (takenSetup (EXCEPT_LOONGARCH_ADE <<< CSR_ESTAT_EXC_SHIFT)) := by
  have htogether : ∀ s, ArchInitAllOrNothing loongarchBuild (startServices .ok) s →
      RegistersTogether loongarchBuild (startServices .ok) s := fun s h =>
    (archInitAllOrNothing_loongarch64 rfl).mp h
  refine ⟨by decide, fun h => ?_, by decide, fun h => ?_⟩
  · exact absurd ((registersTogether_loongarch64 rfl).mp (htogether _ h)) (by decide)
  · exact absurd ((registersTogether_loongarch64 rfl).mp (htogether _ h)) (by decide)

end MultiArchUefi

import MultiArchUefi.Basic

/-!
# MultiArchUefi.Interrupt

Critical sections (`CriticalBegin`, `CriticalEnd`) and the hooks that
`EfiHooksInit` puts in front of the CPU protocol's interrupt services.

While a section is open the real interrupts are off and belong to the driver;
everybody else sees the apparent state.  The module compares a sequence of
sections and hooked requests with the same sequence without the sections.
-/

namespace MultiArchUefi

/-- The driver's interrupt bookkeeping and the real interrupt state of the
host.  `gIgnoreInterruptManipulation` counts the open sections. -/
structure Interrupts where
  gIgnoreInterruptManipulation : Nat
  gApparentInterruptState : Bool
  interruptState : Bool
deriving DecidableEq, Repr

/-! ## host services -/

def saveAndDisableInterrupts (i : Interrupts) : Bool × Interrupts :=
  (i.interruptState, { i with interruptState := false })

def setInterruptState (state : Bool) (i : Interrupts) : Interrupts :=
  { i with interruptState := state }

/-! ## critical sections -/

def criticalBegin (i : Interrupts) : Interrupts :=
  let (interruptState, i) := saveAndDisableInterrupts i
  let i := { i with gIgnoreInterruptManipulation := i.gIgnoreInterruptManipulation + 1 }
  if i.gIgnoreInterruptManipulation > 0 then
    { i with gApparentInterruptState := interruptState }
  else i

/-- `ASSERT (gIgnoreInterruptManipulation != 0)` in `CriticalEnd`. -/
def CriticalEndAssert (i : Interrupts) : Prop := i.gIgnoreInterruptManipulation ≠ 0

instance (i : Interrupts) : Decidable (CriticalEndAssert i) := inferInstanceAs (Decidable (_ ≠ _))

/-- The decrement of a zero counter, which only a failed assertion reaches, wraps around. -/
def criticalEnd (i : Interrupts) : Interrupts :=
  let i := { i with gIgnoreInterruptManipulation :=
    match i.gIgnoreInterruptManipulation with
    | 0 => 2 ^ 64 - 1
    | n + 1 => n }
  if i.gIgnoreInterruptManipulation = 0 then setInterruptState i.gApparentInterruptState i else i

/-! ## hooked services -/

def efiHooksCpuEnableInterrupt (i : Interrupts) : UINT64 × Interrupts :=
  let i := { i with gApparentInterruptState := true }
  if i.gIgnoreInterruptManipulation = 0 then (EFI_SUCCESS, setInterruptState true i)
  else (EFI_SUCCESS, i)

def efiHooksCpuDisableInterrupt (i : Interrupts) : UINT64 × Interrupts :=
  let i := { i with gApparentInterruptState := false }
  if i.gIgnoreInterruptManipulation = 0 then (EFI_SUCCESS, setInterruptState false i)
  else (EFI_SUCCESS, i)

/-- The status, and what is stored through `State` (`none` for a `NULL` pointer). -/
def efiHooksCpuGetInterruptState (stateIsNull : Bool) (i : Interrupts) : UINT64 × Option Bool :=
  if stateIsNull then (EFI_INVALID_PARAMETER, none)
  else if i.gIgnoreInterruptManipulation = 0 then (EFI_SUCCESS, some i.interruptState)
  else (EFI_SUCCESS, some i.gApparentInterruptState)

/-! ## what the operations do -/

/-- `CriticalBegin` counts, notes the interrupt state and disables interrupts. -/
theorem criticalBegin_eq (i : Interrupts) :
    criticalBegin i = ⟨i.gIgnoreInterruptManipulation + 1, i.interruptState, false⟩ := by
  simp [criticalBegin, saveAndDisableInterrupts]

/-- The outermost `CriticalEnd` puts the apparent interrupt state into force. -/
theorem criticalEnd_one {i : Interrupts} (h : i.gIgnoreInterruptManipulation = 1) :
    criticalEnd i = ⟨0, i.gApparentInterruptState, i.gApparentInterruptState⟩ := by
  simp [criticalEnd, setInterruptState, h]

/-- An inner `CriticalEnd` counts only. -/
theorem criticalEnd_succ_succ {i : Interrupts} {n : Nat}
    (h : i.gIgnoreInterruptManipulation = n + 2) :
    criticalEnd i = ⟨n + 1, i.gApparentInterruptState, i.interruptState⟩ := by
  simp [criticalEnd, h]

/-- A section opened and closed with no other section open gives the host its
interrupt state back. -/
theorem criticalEnd_criticalBegin {i : Interrupts} (h : i.gIgnoreInterruptManipulation = 0) :
    criticalEnd (criticalBegin i) = ⟨0, i.interruptState, i.interruptState⟩ := by
  rw [criticalBegin_eq, criticalEnd_one (by simp [h])]

end MultiArchUefi

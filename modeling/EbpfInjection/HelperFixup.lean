import EbpfInjection.InjectionMessage

/-!
`bpfhv_helper_calls_fixup`: the abstract helper identifiers of `driver.h` are
replaced in place by offsets from `__bpf_call_base`. The loop stops at the
first unknown identifier and leaves the rest of the array as it is.
-/

namespace EbpfInjection.HelperFixup
open LittleEndian InjectionMessage

def bpfCallCode : Byte := 0x05#8 ||| 0x80#8

/-! Helper numbers: `BPFHV_HELPER_MAGIC` and the two after it. -/
def bpfhvFuncTestHelper : Nat := 0x4b8f0000
def bpfhvFuncGetMemoryInfoHelper : Nat := 0x4b8f0001
def bpfhvFuncSetMaximumPageOrderHelper : Nat := 0x4b8f0002

def einval : Int := 22
def enomem : Int := 12

structure KernelText where
  bpfCallBase : BitVec 64
  bpfHvTestHelper : BitVec 64
  bpfHvMemoryInfoHelper : BitVec 64
  bpfHvSetMaximumPageOrderHelper : BitVec 64

def helperFunc (text : KernelText) (imm : Word) : Option (BitVec 64) :=
  if imm.toNat = bpfhvFuncTestHelper then some text.bpfHvTestHelper
  else if imm.toNat = bpfhvFuncGetMemoryInfoHelper then some text.bpfHvMemoryInfoHelper
  else if imm.toNat = bpfhvFuncSetMaximumPageOrderHelper then
    some text.bpfHvSetMaximumPageOrderHelper
  else none

def isHelperCall (insn : BpfInsn) : Bool :=
  insn.code == bpfCallCode && insn.dstReg == 0#4 && insn.srcReg == 0#4 && insn.off == 0#16

/-- `func - __bpf_call_base`, stored in a 32-bit field. -/
def callOffset (text : KernelText) (func : BitVec 64) : Word :=
  (func - text.bpfCallBase).setWidth 32

/-- The array after the loop and the loop's return value. -/
def bpfhvHelperCallsFixup (text : KernelText) : List BpfInsn → List BpfInsn × Int
  | [] => ([], 0)
  | insn :: rest =>
      if isHelperCall insn then
        match helperFunc text insn.imm with
        | none => (insn :: rest, -einval)
        | some func =>
            let later := bpfhvHelperCallsFixup text rest
            ({ insn with imm := callOffset text func } :: later.1, later.2)
      else
        let later := bpfhvHelperCallsFixup text rest
        (insn :: later.1, later.2)

def KnownHelper (insn : BpfInsn) : Prop :=
  insn.imm.toNat = bpfhvFuncTestHelper ∨ insn.imm.toNat = bpfhvFuncGetMemoryInfoHelper ∨
    insn.imm.toNat = bpfhvFuncSetMaximumPageOrderHelper

instance (insn : BpfInsn) : Decidable (KnownHelper insn) :=
  inferInstanceAs (Decidable (_ ∨ _ ∨ _))

def HelpersKnown (insns : List BpfInsn) : Prop :=
  ∀ insn ∈ insns, isHelperCall insn = true → KnownHelper insn

instance (insns : List BpfInsn) : Decidable (HelpersKnown insns) :=
  inferInstanceAs (Decidable (∀ insn ∈ insns, isHelperCall insn = true → KnownHelper insn))

def resolveCall (text : KernelText) (insn : BpfInsn) : BpfInsn :=
  if isHelperCall insn then
    match helperFunc text insn.imm with
    | none => insn
    | some func => { insn with imm := callOffset text func }
  else insn

theorem helper_func_known_iff (text : KernelText) (insn : BpfInsn) :
    (helperFunc text insn.imm).isSome ↔ KnownHelper insn := by
  unfold helperFunc KnownHelper
  split
  · simp [*]
  · split
    · simp [*]
    · split <;> simp [*]

/-- An accepted array is rewritten call by call. -/
theorem fixup_accepts (text : KernelText) (insns : List BpfInsn) (known : HelpersKnown insns) :
    bpfhvHelperCallsFixup text insns = (insns.map (resolveCall text), 0) := by
  induction insns with
  | nil => rfl
  | cons insn rest ih =>
      have tail := ih fun later member => known later (List.mem_cons_of_mem insn member)
      by_cases call : isHelperCall insn = true
      · have present := (helper_func_known_iff text insn).mpr (known insn List.mem_cons_self call)
        obtain ⟨func, found⟩ := Option.isSome_iff_exists.mp present
        simp [bpfhvHelperCallsFixup, resolveCall, call, found, tail]
      · simp [bpfhvHelperCallsFixup, resolveCall, call, tail]

def UnknownAt (insns before after : List BpfInsn) (call : BpfInsn) : Prop :=
  insns = before ++ call :: after ∧ HelpersKnown before ∧ isHelperCall call = true ∧
    ¬ KnownHelper call

theorem fixup_stops (text : KernelText) (insns before after : List BpfInsn) (call : BpfInsn)
    (unknown : UnknownAt insns before after call) :
    bpfhvHelperCallsFixup text insns =
      (before.map (resolveCall text) ++ call :: after, -einval) := by
  obtain ⟨rfl, known, called, strange⟩ := unknown
  induction before with
  | nil =>
      have absent := mt (helper_func_known_iff text call).mp strange
      rw [Option.isSome_iff_ne_none, not_not] at absent
      simp [bpfhvHelperCallsFixup, called, absent]
  | cons insn rest ih =>
      have tail := ih fun later member => known later (List.mem_cons_of_mem insn member)
      cases head : isHelperCall insn with
      | false => simp [bpfhvHelperCallsFixup, resolveCall, head, tail]
      | true =>
          have present := (helper_func_known_iff text insn).mpr
            (known insn List.mem_cons_self head)
          obtain ⟨func, found⟩ := Option.isSome_iff_exists.mp present
          simp [bpfhvHelperCallsFixup, resolveCall, head, found, tail]

theorem unknown_at (insns : List BpfInsn) (unknown : ¬ HelpersKnown insns) :
    ∃ before call after, UnknownAt insns before after call := by
  induction insns with
  | nil => exact absurd (by simp [HelpersKnown]) unknown
  | cons insn rest ih =>
      by_cases head : isHelperCall insn = true → KnownHelper insn
      · have later : ¬ HelpersKnown rest := by
          intro tail
          apply unknown
          intro candidate member
          rcases List.mem_cons.mp member with rfl | inRest
          · exact head
          · exact tail candidate inRest
        obtain ⟨before, call, after, rfl, known, called, strange⟩ := ih later
        refine ⟨insn :: before, call, after, rfl, ?_, called, strange⟩
        intro candidate member
        rcases List.mem_cons.mp member with rfl | inBefore
        · exact head
        · exact known candidate inBefore
      · have called := not_forall.mp head
        exact ⟨[], insn, rest, rfl, by simp [HelpersKnown], called.1, called.2⟩

/-- One unknown helper call anywhere in the array makes the fixup fail. -/
theorem fixup_rejects (text : KernelText) (insns : List BpfInsn) (unknown : ¬ HelpersKnown insns) :
    (bpfhvHelperCallsFixup text insns).2 = -einval := by
  obtain ⟨before, call, after, stop⟩ := unknown_at insns unknown
  rw [fixup_stops text insns before after call stop]

theorem fixup_ret_iff (text : KernelText) (insns : List BpfInsn) :
    (bpfhvHelperCallsFixup text insns).2 = 0 ↔ HelpersKnown insns := by
  by_cases known : HelpersKnown insns
  · simp [fixup_accepts text insns known, known]
  · simp [fixup_rejects text insns known, known, einval]

end EbpfInjection.HelperFixup

import EbpfInjection.HelperFixup
import Mathlib.Data.List.Forall2

/-!
What `bpfhv_helper_calls_fixup` leaves for the kernel to execute. The kernel
dispatches a call on the opcode alone and jumps to `__bpf_call_base + imm`,
while the loop recognises a call by its registers and offset as well.
-/

namespace EbpfInjection.HelperWhitelist
open LittleEndian InjectionMessage HelperFixup

def helperTable (text : KernelText) : List (Nat × BitVec 64) :=
  [(bpfhvFuncTestHelper, text.bpfHvTestHelper),
    (bpfhvFuncGetMemoryInfoHelper, text.bpfHvMemoryInfoHelper),
    (bpfhvFuncSetMaximumPageOrderHelper, text.bpfHvSetMaximumPageOrderHelper)]

def IsHelperOffset (text : KernelText) (imm : Word) : Prop :=
  ∃ entry ∈ helperTable text, imm = callOffset text entry.2

instance (text : KernelText) (imm : Word) : Decidable (IsHelperOffset text imm) :=
  inferInstanceAs (Decidable (∃ entry ∈ helperTable text, _))

def Whitelisted (text : KernelText) (insns : List BpfInsn) : Prop :=
  ∀ insn ∈ insns, insn.code = bpfCallCode → IsHelperOffset text insn.imm

instance (text : KernelText) (insns : List BpfInsn) : Decidable (Whitelisted text insns) :=
  inferInstanceAs (Decidable (∀ insn ∈ insns, _))

/-- The calls that the loop passes over already have a helper's offset. -/
def SkippedHarmless (text : KernelText) (insns : List BpfInsn) : Prop :=
  ∀ insn ∈ insns, insn.code = bpfCallCode → isHelperCall insn = false →
    IsHelperOffset text insn.imm

theorem helper_func_mem (text : KernelText) (imm : Word) (func : BitVec 64)
    (found : helperFunc text imm = some func) : (imm.toNat, func) ∈ helperTable text := by
  simp only [helperFunc] at found
  simp only [helperTable, List.mem_cons, Prod.mk.injEq, List.not_mem_nil, or_false]
  split at found
  · simp_all
  · split at found
    · simp_all
    · split at found <;> simp_all

theorem resolve_skipped (text : KernelText) (insn : BpfInsn) (skipped : isHelperCall insn = false) :
    resolveCall text insn = insn := by
  simp [resolveCall, skipped]

/-- A known helper call gets the offset of its own function, and nothing else. -/
theorem resolve_called (text : KernelText) (insn : BpfInsn) (call : isHelperCall insn = true)
    (known : KnownHelper insn) :
    ∃ func, (insn.imm.toNat, func) ∈ helperTable text ∧
      resolveCall text insn = { insn with imm := callOffset text func } := by
  have present := (helper_func_known_iff text insn).mpr known
  obtain ⟨func, found⟩ := Option.isSome_iff_exists.mp present
  exact ⟨func, helper_func_mem text insn.imm func found, by simp [resolveCall, call, found]⟩

theorem resolved_whitelisted_iff (text : KernelText) (insns : List BpfInsn)
    (known : HelpersKnown insns) :
    Whitelisted text (insns.map (resolveCall text)) ↔ SkippedHarmless text insns := by
  constructor
  · intro whitelisted insn member code skipped
    have kept := whitelisted (resolveCall text insn) (List.mem_map_of_mem member)
    rw [resolve_skipped text insn skipped] at kept
    exact kept code
  · intro harmless resolved member code
    obtain ⟨insn, source, rfl⟩ := List.mem_map.mp member
    cases call : isHelperCall insn with
    | false =>
        rw [resolve_skipped text insn call] at code ⊢
        exact harmless insn source code call
    | true =>
        obtain ⟨func, entry, rewritten⟩ :=
          resolve_called text insn call (known insn source call)
        rw [rewritten]
        exact ⟨_, entry, rfl⟩

/-- An accepted array calls helpers alone exactly when no call with other
registers or another offset smuggles an address past the loop. -/
theorem accepted_whitelisted_iff (text : KernelText) (insns : List BpfInsn) :
    ((bpfhvHelperCallsFixup text insns).2 = 0 →
      Whitelisted text (bpfhvHelperCallsFixup text insns).1) ↔
    ¬ HelpersKnown insns ∨ SkippedHarmless text insns := by
  by_cases known : HelpersKnown insns
  · simp [fixup_accepts text insns known, known, resolved_whitelisted_iff text insns known]
  · have refused := mt (fixup_ret_iff text insns).mp known
    simp [known, refused]

/-- A call with `src_reg` 1: the immediate stays what the host put there. -/
theorem smuggled_call_accepted :
    let text : KernelText := ⟨0x1000#64, 0x2000#64, 0x3000#64, 0x4000#64⟩
    let smuggled : BpfInsn := ⟨bpfCallCode, 0#4, 1#4, 0#16, 0x666#32⟩
    (bpfhvHelperCallsFixup text [smuggled]).2 = 0 ∧
      ¬ Whitelisted text (bpfhvHelperCallsFixup text [smuggled]).1 := by
  decide

/-! The effect of the loop on each instruction. -/

/-- The difference of the addresses fits in the immediate. -/
def Fits (text : KernelText) (func : BitVec 64) : Prop :=
  -2147483648 ≤ (func.toNat : Int) - text.bpfCallBase.toNat ∧
    (func.toNat : Int) - text.bpfCallBase.toNat < 2147483648

theorem call_offset_int (text : KernelText) (func : BitVec 64) (fits : Fits text func) :
    (callOffset text func).toInt = (func.toNat : Int) - text.bpfCallBase.toNat := by
  have bound := func.isLt
  have base := text.bpfCallBase.isLt
  simp only [Fits] at fits
  simp only [callOffset, BitVec.toInt_setWidth, BitVec.toNat_sub, Int.bmod_def]
  omega

def Resolved (text : KernelText) (insn fixed : BpfInsn) : Prop :=
  if isHelperCall insn then
    ∃ func, (insn.imm.toNat, func) ∈ helperTable text ∧
      fixed.imm.toInt = (func.toNat : Int) - text.bpfCallBase.toNat ∧
      fixed = { insn with imm := fixed.imm }
  else fixed = insn

theorem resolve_resolved (text : KernelText) (insn : BpfInsn)
    (fits : ∀ entry ∈ helperTable text, Fits text entry.2)
    (known : isHelperCall insn = true → KnownHelper insn) :
    Resolved text insn (resolveCall text insn) := by
  cases call : isHelperCall insn with
  | false => simp [Resolved, call, resolve_skipped]
  | true =>
      obtain ⟨func, entry, rewritten⟩ := resolve_called text insn call (known call)
      rw [Resolved, if_pos call, rewritten]
      exact ⟨func, entry, call_offset_int text func (fits _ entry), rfl⟩

theorem map_resolved (text : KernelText) (insns : List BpfInsn)
    (fits : ∀ entry ∈ helperTable text, Fits text entry.2) (known : HelpersKnown insns) :
    List.Forall₂ (Resolved text) insns (insns.map (resolveCall text)) := by
  rw [List.forall₂_map_right_iff, List.forall₂_same]
  intro insn member
  exact resolve_resolved text insn fits (known insn member)

structure ExactFixup (text : KernelText) (insns : List BpfInsn) (result : List BpfInsn × Int) :
    Prop where
  ret : result.2 = 0 ∨ result.2 = -einval
  refused : result.2 = -einval ↔
    ∃ insn ∈ insns, isHelperCall insn = true ∧ insn.imm.toNat ∉ (helperTable text).map Prod.fst
  accepted : result.2 = 0 → List.Forall₂ (Resolved text) insns result.1
  stopped : result.2 = -einval →
    ∃ before call after fixed, UnknownAt insns before after call ∧
      List.Forall₂ (Resolved text) before fixed ∧ result.1 = fixed ++ call :: after

theorem known_helper_iff (text : KernelText) (insn : BpfInsn) :
    KnownHelper insn ↔ insn.imm.toNat ∈ (helperTable text).map Prod.fst := by
  simp [KnownHelper, helperTable]

theorem unknown_iff (text : KernelText) (insns : List BpfInsn) :
    ¬ HelpersKnown insns ↔
      ∃ insn ∈ insns, isHelperCall insn = true ∧
        insn.imm.toNat ∉ (helperTable text).map Prod.fst := by
  simp only [HelpersKnown, known_helper_iff text, not_forall, exists_prop]

theorem fixup_exact (text : KernelText) (insns : List BpfInsn)
    (fits : ∀ entry ∈ helperTable text, Fits text entry.2) :
    ExactFixup text insns (bpfhvHelperCallsFixup text insns) := by
  by_cases known : HelpersKnown insns
  · have none_unknown := not_not.mpr known
    rw [unknown_iff text] at none_unknown
    rw [fixup_accepts text insns known]
    constructor
    · exact .inl rfl
    · exact iff_of_false (by simp [einval]) none_unknown
    · intro _
      exact map_resolved text insns fits known
    · intro failed
      simp [einval] at failed
  · obtain ⟨before, call, after, unknown⟩ := unknown_at insns known
    rw [fixup_stops text insns before after call unknown]
    constructor
    · exact .inr rfl
    · exact iff_of_true rfl ((unknown_iff text insns).mp known)
    · intro accepted
      simp [einval] at accepted
    · intro _
      exact ⟨before, call, after, _, unknown,
        map_resolved text before fits unknown.2.1, rfl⟩

theorem mixed_fixup_exact :
    let text : KernelText := ⟨0x4000#64, 0x2000#64, 0x3000#64, 0x5000#64⟩
    let call (src : BitVec 4) (imm : Word) : BpfInsn := ⟨bpfCallCode, 0#4, src, 0#16, imm⟩
    let insns := [call 0#4 0x4b8f0000#32, call 1#4 7#32, call 0#4 7#32, call 0#4 0x4b8f0001#32]
    (∀ entry ∈ helperTable text, Fits text entry.2) ∧
      ExactFixup text insns (bpfhvHelperCallsFixup text insns) := by
  intro text call insns
  have fits : ∀ entry ∈ helperTable text, Fits text entry.2 := by
    simp [helperTable, Fits, text]
  exact ⟨fits, fixup_exact text insns fits⟩

end EbpfInjection.HelperWhitelist

import EbpfInjection.HelperWhitelist
import EbpfInjection.Refinement

/-!
What an injected program does once the kernel runs it. The interpreter is the
kernel's and stays open but for what the driver builds on: a call is dispatched
on its opcode alone and goes to `__bpf_call_base + imm`, and of the slot behind
an instruction only the second half of a wide load is looked at. The host means
a program in which helper calls name their function by its identifier; the
kernel runs what `bpfhv_helper_calls_fixup` made of it.
-/

namespace EbpfInjection.HelperExecution
open LittleEndian InjectionMessage HelperFixup HelperWhitelist TransitionSystem Refinement

def bpfWideLoadCode : Byte := 0x00#8 ||| 0x18#8

/-- The rest of the kernel: what an instruction other than a call does with
registers and memory, given the second immediate of a wide load, and what the
function at an address does. A jump is relative to the next slot; `none` leaves
the program. `Env` is what happens around the program between two steps. -/
structure Interpreter (Regs Env : Type) where
  execute : BpfInsn → Option Word → Env → Regs → Regs × Option Int
  call : BitVec 64 → Env → Regs → Regs

structure Config (Regs Target : Type) where
  regs : Regs
  pc : Int
  exited : Bool
  calls : List Target

def fetch (insns : List BpfInsn) (pc : Int) : Option BpfInsn :=
  if 0 ≤ pc then insns[pc.toNat]? else none

def secondImm (insns : List BpfInsn) (pc : Int) (insn : BpfInsn) : Option Word :=
  if insn.code = bpfWideLoadCode then (fetch insns (pc + 1)).map BpfInsn.imm else none

section Execution
variable {Regs Env Target : Type} (interpreter : Interpreter Regs Env)

def progStep (target : BpfInsn → Option Target) (address : Target → BitVec 64)
    (insns : List BpfInsn) (config : Config Regs Target) (env : Env) :
    Option (Config Regs Target) :=
  if config.exited then none
  else
    (fetch insns config.pc).bind fun insn =>
      if insn.code = bpfCallCode then
        (target insn).map fun callee =>
          { config with
            regs := interpreter.call (address callee) env config.regs
            pc := config.pc + 1
            calls := config.calls ++ [callee] }
      else
        match interpreter.execute insn (secondImm insns config.pc insn) env config.regs with
        | (regs, none) => some { config with regs, exited := true }
        | (regs, some jump) => some { config with regs, pc := config.pc + 1 + jump }

def callAddress (text : KernelText) (insn : BpfInsn) : BitVec 64 :=
  text.bpfCallBase + insn.imm.signExtend 64

def kernelStep (text : KernelText) (insns : List BpfInsn) :
    Config Regs (BitVec 64) → Env → Option (Config Regs (BitVec 64)) :=
  progStep interpreter (fun insn => some (callAddress text insn)) id insns

inductive Callee where
  | helper (id : Nat) (func : BitVec 64)
  | raw (address : BitVec 64)
  deriving DecidableEq

def Callee.address : Callee → BitVec 64
  | .helper _ func => func
  | .raw address => address

/-- A helper call means the function registered for its identifier, and nothing
if there is none. -/
def meantCallee (text : KernelText) (insn : BpfInsn) : Option Callee :=
  if isHelperCall insn then
    ((helperTable text).lookup insn.imm.toNat).map (.helper insn.imm.toNat)
  else some (.raw (callAddress text insn))

def helperStep (text : KernelText) (insns : List BpfInsn) :
    Config Regs Callee → Env → Option (Config Regs Callee) :=
  progStep interpreter (meantCallee text) Callee.address insns

def Config.kernelView (config : Config Regs Callee) : Config Regs (BitVec 64) :=
  { regs := config.regs
    pc := config.pc
    exited := config.exited
    calls := config.calls.map Callee.address }

end Execution

/-- The fixup leaves the second half of every wide load as it is. -/
def WideLoadsKept (text : KernelText) (insns : List BpfInsn) : Prop :=
  ∀ (i : Nat) (low high : BpfInsn), insns[i]? = some low → low.code = bpfWideLoadCode →
    insns[i + 1]? = some high → (resolveCall text high).imm = high.imm

section Fixup
variable (text : KernelText)

theorem helper_func_lookup (imm : Word) :
    helperFunc text imm = (helperTable text).lookup imm.toNat := by
  simp only [helperFunc, helperTable, List.lookup_cons, List.lookup_nil]
  split
  · rename_i first
    simp [first]
  · rename_i first
    split
    · rename_i second
      simp [second, bpfhvFuncTestHelper, bpfhvFuncGetMemoryInfoHelper]
    · rename_i second
      split
      · rename_i third
        simp [third, bpfhvFuncTestHelper, bpfhvFuncGetMemoryInfoHelper,
          bpfhvFuncSetMaximumPageOrderHelper]
      · rename_i third
        simp [beq_eq_false_iff_ne.mpr first, beq_eq_false_iff_ne.mpr second,
          beq_eq_false_iff_ne.mpr third]

theorem offset_address (func : BitVec 64) (fits : Fits text func) :
    text.bpfCallBase + (callOffset text func).signExtend 64 = func := by
  have offset := call_offset_int text func fits
  have bound := func.isLt
  have base := text.bpfCallBase.isLt
  apply BitVec.eq_of_toNat_eq
  rw [BitVec.toNat_add, BitVec.signExtend, offset, BitVec.toNat_ofInt]
  omega

theorem resolve_code (insn : BpfInsn) : (resolveCall text insn).code = insn.code := by
  unfold resolveCall
  split
  · cases helperFunc text insn.imm <;> rfl
  · rfl

theorem fetch_resolved (insns : List BpfInsn) (pc : Int) :
    fetch (insns.map (resolveCall text)) pc = (fetch insns pc).map (resolveCall text) := by
  unfold fetch
  split
  · exact List.getElem?_map ..
  · rfl

theorem fetch_index (insns : List BpfInsn) (pc : Int) (insn : BpfInsn)
    (found : fetch insns pc = some insn) : 0 ≤ pc ∧ insns[pc.toNat]? = some insn := by
  unfold fetch at found
  split at found
  · rename_i nonneg
    exact ⟨nonneg, found⟩
  · cases found

theorem resolve_no_call (insn : BpfInsn) (other : insn.code ≠ bpfCallCode) :
    resolveCall text insn = insn := by
  apply resolve_skipped
  simp [isHelperCall, other]

theorem meant_resolved (insn : BpfInsn) (fits : ∀ entry ∈ helperTable text, Fits text entry.2)
    (known : isHelperCall insn = true → KnownHelper insn) :
    ∃ callee, meantCallee text insn = some callee ∧
      callee.address = callAddress text (resolveCall text insn) := by
  cases call : isHelperCall insn with
  | false =>
      refine ⟨.raw (callAddress text insn), by simp [meantCallee, call], ?_⟩
      rw [resolve_skipped text insn call]
      rfl
  | true =>
      have present := (helper_func_known_iff text insn).mpr (known call)
      obtain ⟨func, found⟩ := Option.isSome_iff_exists.mp present
      have entry := helper_func_mem text insn.imm func found
      refine ⟨.helper insn.imm.toNat func, ?_, ?_⟩
      · simp [meantCallee, call, ← helper_func_lookup, found]
      · simp only [resolveCall, call, found, if_true, callAddress]
        exact (offset_address text func (fits _ entry)).symm

/-- The second half of a wide load is read as the host sent it. -/
theorem second_resolved (insns : List BpfInsn) (pc : Int) (insn : BpfInsn)
    (found : fetch insns pc = some insn) (kept : WideLoadsKept text insns) :
    secondImm (insns.map (resolveCall text)) pc insn = secondImm insns pc insn := by
  obtain ⟨nonneg, index⟩ := fetch_index insns pc insn found
  unfold secondImm
  split
  · rename_i wide
    rw [fetch_resolved, Option.map_map]
    cases next : fetch insns (pc + 1) with
    | none => rfl
    | some high =>
        obtain ⟨-, behind⟩ := fetch_index insns (pc + 1) high next
        rw [show (pc + 1).toNat = pc.toNat + 1 by omega] at behind
        exact congrArg some (kept pc.toNat insn high index wide behind)
  · rfl

end Fixup

section Preservation
variable {Regs Env : Type} (interpreter : Interpreter Regs Env) (text : KernelText)
  (insns : List BpfInsn)

/-- One step of the fixed-up program in the kernel is one step of the program
the host sent. -/
theorem kernel_commutes (fits : ∀ entry ∈ helperTable text, Fits text entry.2)
    (known : HelpersKnown insns) (kept : WideLoadsKept text insns)
    (config : Config Regs Callee) (env : Env) :
    kernelStep interpreter text (insns.map (resolveCall text)) config.kernelView env =
      (helperStep interpreter text insns config env).map Config.kernelView := by
  simp only [kernelStep, helperStep, progStep, Config.kernelView, fetch_resolved]
  split
  · rfl
  cases found : fetch insns config.pc with
  | none => rfl
  | some insn =>
      have member := List.mem_of_getElem? (fetch_index insns config.pc insn found).2
      simp only [Option.map_some, Option.bind_some, resolve_code]
      by_cases call : insn.code = bpfCallCode
      · obtain ⟨callee, meant, address⟩ := meant_resolved text insn fits (known insn member)
        simp only [call, if_true, meant, Option.map_some, ← address, id_eq]
        simp [Config.kernelView]
      · simp only [call, if_false, resolve_no_call text insn call,
          second_resolved text insns config.pc insn found kept]
        cases interpreter.execute insn (secondImm insns config.pc insn) env config.regs with
        | mk regs jump => cases jump <;> rfl

theorem kernel_runs (fits : ∀ entry ∈ helperTable text, Fits text entry.2)
    (known : HelpersKnown insns) (kept : WideLoadsKept text insns)
    (config : Config Regs Callee) (history : List Env) :
    run (kernelStep interpreter text (insns.map (resolveCall text))) config.kernelView history =
      (run (helperStep interpreter text insns) config history).map Config.kernelView :=
  run_view (helperStep interpreter text insns) _ Config.kernelView
    (kernel_commutes interpreter text insns fits known kept) config history

end Preservation

def RunsPreserved (text : KernelText) (insns fixed : List BpfInsn) : Prop :=
  ∀ (Regs Env : Type) (interpreter : Interpreter Regs Env) (config : Config Regs Callee)
    (history : List Env),
    run (kernelStep interpreter text fixed) config.kernelView history =
      (run (helperStep interpreter text insns) config history).map Config.kernelView

def secondReader : Interpreter (Option Word) Unit :=
  { execute := fun _ second _ _ => (second, none)
    call := fun _ _ regs => regs }

theorem preserved_kept (text : KernelText) (insns : List BpfInsn)
    (preserved : RunsPreserved text insns (insns.map (resolveCall text))) :
    WideLoadsKept text insns := by
  intro i low high found wide behind
  -- start at the wide load and stop after it
  have step := preserved _ _ secondReader ⟨none, i, false, []⟩ [()]
  have at_low : fetch insns i = some low := by simpa [fetch] using found
  have at_high : fetch insns (i + 1) = some high := by
    rw [fetch, if_pos (by omega), show ((i : Int) + 1).toNat = i + 1 by omega]
    exact behind
  have plain : bpfWideLoadCode ≠ bpfCallCode := by decide
  simpa [run, kernelStep, helperStep, progStep, Config.kernelView, fetch_resolved, at_low, at_high,
    resolve_code, plain, secondImm, wide, secondReader] using step

/-- An accepted program does in the kernel what its author meant, whatever the
interpreter does with the other instructions, exactly when the fixup rewrote no
second half of a wide load. -/
theorem accepted_preserved_iff (text : KernelText) (insns : List BpfInsn)
    (fits : ∀ entry ∈ helperTable text, Fits text entry.2)
    (accepted : (bpfhvHelperCallsFixup text insns).2 = 0) :
    RunsPreserved text insns (bpfhvHelperCallsFixup text insns).1 ↔ WideLoadsKept text insns := by
  have known := (fixup_ret_iff text insns).mp accepted
  rw [fixup_accepts text insns known]
  constructor
  · exact preserved_kept text insns
  · intro kept Regs Env interpreter config history
    exact kernel_runs interpreter text insns fits known kept config history

def loadingInsns : List BpfInsn :=
  [⟨bpfWideLoadCode, 1#4, 0#4, 0#16, 7#32⟩, ⟨0#8, 0#4, 0#4, 0#16, 9#32⟩,
    ⟨bpfCallCode, 0#4, 0#4, 0#16, BitVec.ofNat 32 bpfhvFuncTestHelper⟩,
    ⟨0x95#8, 0#4, 0#4, 0#16, 0#32⟩]

def nearText : KernelText := ⟨0x4000#64, 0x2000#64, 0x3000#64, 0x5000#64⟩

theorem near_text_fits : ∀ entry ∈ helperTable nearText, Fits nearText entry.2 := by
  simp [helperTable, Fits, nearText]

theorem loading_preserved_iff :
    RunsPreserved nearText loadingInsns (bpfhvHelperCallsFixup nearText loadingInsns).1 ↔
      WideLoadsKept nearText loadingInsns :=
  accepted_preserved_iff nearText loadingInsns near_text_fits (by decide)

/-! Where the calls of a running program go. -/
section Confinement

def RunsConfined (text : KernelText) (code : List BpfInsn) : Prop :=
  ∀ (Regs Env : Type) (interpreter : Interpreter Regs Env) (config final : Config Regs (BitVec 64))
    (history : List Env), config.calls = [] →
      run (kernelStep interpreter text code) config history = some final →
        ∀ address ∈ final.calls, address ∈ (helperTable text).map Prod.snd

theorem narrow_extended (imm : Word) : (imm.signExtend 64).setWidth 32 = imm := by
  apply BitVec.eq_of_getLsbD_eq
  intro i below
  rw [BitVec.getLsbD_setWidth, BitVec.getLsbD_signExtend]
  simp [below, show i < 64 by omega]

theorem helper_offset_address (text : KernelText) (insn : BpfInsn)
    (fits : ∀ entry ∈ helperTable text, Fits text entry.2) :
    callAddress text insn ∈ (helperTable text).map Prod.snd ↔ IsHelperOffset text insn.imm := by
  simp only [List.mem_map, IsHelperOffset]
  constructor
  · rintro ⟨entry, listed, same⟩
    refine ⟨entry, listed, ?_⟩
    rw [same, callOffset, callAddress, BitVec.add_comm, BitVec.add_sub_cancel]
    exact (narrow_extended insn.imm).symm
  · rintro ⟨entry, listed, same⟩
    refine ⟨entry, listed, ?_⟩
    rw [callAddress, same]
    exact (offset_address text entry.2 (fits entry listed)).symm

theorem kernel_step_calls {Regs Env : Type} (interpreter : Interpreter Regs Env)
    (text : KernelText) (code : List BpfInsn) (config next : Config Regs (BitVec 64)) (env : Env)
    (taken : kernelStep interpreter text code config env = some next) :
    next.calls = config.calls ∨
      ∃ insn ∈ code, insn.code = bpfCallCode ∧
        next.calls = config.calls ++ [callAddress text insn] := by
  simp only [kernelStep, progStep] at taken
  split at taken
  · cases taken
  obtain ⟨insn, found, moved⟩ := Option.bind_eq_some_iff.mp taken
  have member := List.mem_of_getElem? (fetch_index code config.pc insn found).2
  split at moved
  · rename_i call
    cases moved
    exact .inr ⟨insn, member, call, rfl⟩
  · split at moved <;> cases moved <;> exact .inl rfl

theorem whitelisted_confined (text : KernelText) (code : List BpfInsn)
    (fits : ∀ entry ∈ helperTable text, Fits text entry.2) :
    Whitelisted text code ↔ RunsConfined text code := by
  constructor
  · intro whitelisted Regs Env interpreter config final history none_yet replay
    refine run_invariant (kernelStep interpreter text code)
      (fun config => ∀ address ∈ config.calls, address ∈ (helperTable text).map Prod.snd)
      ?_ (by simp [none_yet]) replay
    intro before env after confined taken address called
    rcases kernel_step_calls interpreter text code before after env taken with
      same | ⟨insn, member, call, more⟩
    · rw [same] at called
      exact confined address called
    · rw [more] at called
      rcases List.mem_append.mp called with old | new
      · exact confined address old
      · rw [List.mem_singleton.mp new]
        exact (helper_offset_address text insn fits).mpr (whitelisted insn member call)
  · intro confined insn member call
    obtain ⟨i, found⟩ := List.mem_iff_getElem?.mp member
    rw [← helper_offset_address text insn fits]
    -- start at the call and take it
    have fetched : fetch code i = some insn := by simpa [fetch] using found
    refine confined _ _ secondReader ⟨none, i, false, []⟩
      ⟨none, i + 1, false, [callAddress text insn]⟩ [()] rfl ?_ _ (List.mem_singleton_self _)
    simp [run, kernelStep, progStep, fetched, call, secondReader]

end Confinement

end EbpfInjection.HelperExecution

import Bemi.Dbt.Ir

/-!
# Decoded instructions

What the translator reads of an iced-x86 `Instruction`, and `dbt/decoder.rs`'s `map_register`. The
enumerations carry the members that the translator tells apart; `other` stands for the rest of
iced's. The decoder itself is not part of the repository: it is a function from a code buffer, an
address and a bitness to the instructions found there.
-/

namespace Bemi.Dbt

inductive Mnemonic where
  | nop | mov | movzx | movsx | movsxd
  | add | sub | cmp | and | or | xor
  | shl | sal | shr | sar | rol | ror
  | push | pop | inc | dec
  | jmp
  | jo | jno | jb | jae | je | jne | jbe | ja | js | jns | jp | jnp | jl | jge | jle | jg
  | seta | setae | setb | setbe | setc | setnc | sete | setne
  | setg | setge | setl | setle | seto | setno | sets | setns | setp | setnp
  | call | ret | retf | iret | hlt | cli | sti
  | other (code : Nat)
  deriving DecidableEq, Repr

inductive OpKind where
  | register
  | nearBranch16 | nearBranch32 | nearBranch64
  | farBranch16 | farBranch32
  | immediate8 | immediate8_2nd | immediate16 | immediate32 | immediate64
  | immediate8to16 | immediate8to32 | immediate8to64 | immediate32to64
  | memorySegSI | memorySegESI | memorySegRSI | memorySegDI | memorySegEDI | memorySegRDI
  | memoryESDI | memoryESEDI | memoryESRDI
  | memory
  deriving DecidableEq, Repr

inductive IcedRegister where
  | al | cl | dl | bl | ah | ch | dh | bh | spl | bpl | sil | dil
  | r8l | r9l | r10l | r11l | r12l | r13l | r14l | r15l
  | ax | cx | dx | bx | sp | bp | si | di
  | r8w | r9w | r10w | r11w | r12w | r13w | r14w | r15w
  | eax | ecx | edx | ebx | esp | ebp | esi | edi
  | r8d | r9d | r10d | r11d | r12d | r13d | r14d | r15d
  | rax | rcx | rdx | rbx | rsp | rbp | rsi | rdi
  | r8 | r9 | r10 | r11 | r12 | r13 | r14 | r15
  | other (code : Nat)
  deriving DecidableEq, Repr

/-- A decoded instruction. `mnemonicValue` is `mnemonic as u64`. -/
structure Instruction where
  ip : UInt64
  len : Nat
  mnemonic : Mnemonic
  mnemonicValue : UInt64
  op0Kind : OpKind
  op1Kind : OpKind
  op0Register : IcedRegister
  op1Register : IcedRegister
  memoryBase : IcedRegister
  memoryDisplacement64 : UInt64
  immediate64 : UInt64
  nearBranch64 : UInt64
  deriving DecidableEq, Repr

/-- The instructions in a code buffer at an address, for a bitness. -/
abbrev Decoder := List UInt8 → UInt64 → UInt32 → List Instruction

def mapRegister : IcedRegister → Register
  | .rax | .eax | .ax | .al | .ah => .rax
  | .rcx | .ecx | .cx | .cl | .ch => .rcx
  | .rdx | .edx | .dx | .dl | .dh => .rdx
  | .rbx | .ebx | .bx | .bl | .bh => .rbx
  | .rsp | .esp | .sp | .spl => .rsp
  | .rbp | .ebp | .bp | .bpl => .rbp
  | .rsi | .esi | .si | .sil => .rsi
  | .rdi | .edi | .di | .dil => .rdi
  | .r8 | .r8d | .r8w | .r8l => .r8
  | .r9 | .r9d | .r9w | .r9l => .r9
  | .r10 | .r10d | .r10w | .r10l => .r10
  | .r11 | .r11d | .r11w | .r11l => .r11
  | .r12 | .r12d | .r12w | .r12l => .r12
  | .r13 | .r13d | .r13w | .r13l => .r13
  | .r14 | .r14d | .r14w | .r14l => .r14
  | .r15 | .r15d | .r15w | .r15l => .r15
  | .other _ => .rNone

end Bemi.Dbt

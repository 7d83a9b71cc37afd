import Bemi.Vmx.Handler

/-!
# Control-register accesses

`HandleCrAccess` is defined in `hypervisor/vmx/vmxcore.c` and once more in
`hypervisor/common/hypervisorbackend.c`. The first indexes the fields of `GUEST_STATE` by the number
of the register, but the fields are not in the order of the numbers; the second moves in the other
direction, and always from or to RAX. `crAccess_iff` says when nobody notices.
-/

namespace Bemi.Backend
open Bemi.Vmx

/-- `HandleCrAccess` of the common backend. -/
def handleCrAccess (info : VmExitInfo) (g : GuestState) : GuestState × EfiStatus :=
  let crNumber := info.exitQualification &&& 0x0F
  let accessType := (info.exitQualification >>> 4) &&& 0x03
  let g :=
    if accessType = 0 then
      if crNumber = 0 then g.setGpr .rax g.guestCr0
      else if crNumber = 3 then g.setGpr .rax g.guestCr3
      else if crNumber = 4 then g.setGpr .rax g.guestCr4
      else g
    else
      let newValue := g.gpr .rax
      if crNumber = 0 then { g with guestCr0 := newValue }
      else if crNumber = 3 then { g with guestCr3 := newValue }
      else if crNumber = 4 then { g with guestCr4 := newValue }
      else g
  (g.advance info, .success)

/-! ## What an access should do -/

inductive Cr where
  | cr0 | cr3 | cr4
  deriving DecidableEq, Repr

def Cr.number : Cr → UInt64
  | .cr0 => 0
  | .cr3 => 3
  | .cr4 => 4

inductive Direction where
  | toCr | fromCr
  deriving DecidableEq, Repr

def Direction.accessType : Direction → UInt64
  | .toCr => 0
  | .fromCr => 1

/-- The general registers in the order of their numbers. -/
def numbered : List Gpr :=
  [.rax, .rcx, .rdx, .rbx, .rsp, .rbp, .rsi, .rdi,
   .r8, .r9, .r10, .r11, .r12, .r13, .r14, .r15]

/-- A move between a control register and the register with a number. -/
structure CrAccess where
  cr : Cr
  direction : Direction
  number : Fin 16
  deriving DecidableEq, Repr

def crOf (g : GuestState) : Cr → UInt64
  | .cr0 => g.guestCr0
  | .cr3 => g.guestCr3
  | .cr4 => g.guestCr4

def setCr (g : GuestState) (c : Cr) (v : UInt64) : GuestState :=
  match c with
  | .cr0 => { g with guestCr0 := v }
  | .cr3 => { g with guestCr3 := v }
  | .cr4 => { g with guestCr4 := v }

def SameButRip (g g' : GuestState) : Prop :=
  ∃ rip, g' = { g with guestRip := rip }

namespace CrAccess

/-- The qualification describes the access. -/
structure Describes (qualification : UInt64) (a : CrAccess) : Prop where
  cr : qualification &&& 0x0F = a.cr.number
  accessType : (qualification >>> 4) &&& 0x03 = a.direction.accessType
  number : ((qualification >>> 8) &&& 0x0F).toNat = a.number

/-- The register that the access names. -/
def gpr (a : CrAccess) : Gpr := numbered.getD a.number .r15

/-- The field of `GUEST_STATE` at its number. -/
def field (a : CrAccess) : Gpr := gprArray.getD a.number .r15

/-- Move between the control register and a register. -/
def move (a : CrAccess) (r : Gpr) (g : GuestState) : GuestState :=
  match a.direction with
  | .toCr => setCr g a.cr (g.gpr r)
  | .fromCr => g.setGpr r (crOf g a.cr)

/-- The access has been carried out, whatever RIP is then. -/
def CarriedOut (a : CrAccess) (g g' : GuestState) : Prop :=
  SameButRip (a.move a.gpr g) g'

/-- `vmxcore.c` moves between the control register and the field at the number, which is another
register unless it is RAX or one of R8 to R15 (`field_eq_gpr_iff`). -/
def FieldRight (a : CrAccess) (g : GuestState) : Prop :=
  a.field = a.gpr ∨
    match a.direction with
    | .toCr => g.gpr a.field = g.gpr a.gpr
    | .fromCr => g.gpr a.field = crOf g a.cr ∧ g.gpr a.gpr = crOf g a.cr

/-- The common backend moves between the control register and RAX, the other way. -/
def RaxRight (a : CrAccess) (g : GuestState) : Prop :=
  g.gpr .rax = crOf g a.cr ∧ g.gpr a.gpr = crOf g a.cr

end CrAccess

/-! ## States that differ in RIP -/

lemma gpr_setCr (g : GuestState) (c : Cr) (v : UInt64) : (setCr g c v).gpr = g.gpr := by
  cases c <;> rfl

lemma crOf_setCr (g : GuestState) (c c' : Cr) (v : UInt64) :
    crOf (setCr g c v) c' = if c' = c then v else crOf g c' := by
  cases c <;> cases c' <;> rfl

lemma crOf_setGpr (g : GuestState) (r : Gpr) (v : UInt64) (c : Cr) :
    crOf (g.setGpr r v) c = crOf g c := by
  cases c <;> rfl

lemma rest_setCr (g : GuestState) (c : Cr) (v : UInt64) :
    (setCr g c v).guestRflags = g.guestRflags ∧ (setCr g c v).guestEfer = g.guestEfer := by
  cases c <;> exact ⟨rfl, rfl⟩

/-- Two states are the same but for RIP when their registers are. -/
lemma sameButRip_iff (g g' : GuestState)
    (h : g'.guestRflags = g.guestRflags ∧ g'.guestEfer = g.guestEfer) (info : VmExitInfo) :
    SameButRip g (g'.advance info) ↔ g'.gpr = g.gpr ∧ ∀ c, crOf g' c = crOf g c := by
  constructor
  · rintro ⟨rip, heq⟩
    have hgpr : (g'.advance info).gpr = g.gpr := by rw [heq]
    refine ⟨hgpr, fun c => ?_⟩
    have hcr : crOf (g'.advance info) c = crOf { g with guestRip := rip } c := by rw [heq]
    cases c <;> exact hcr
  · rintro ⟨hgpr, hcr⟩
    refine ⟨(g'.advance info).guestRip, ?_⟩
    have h0 : g'.guestCr0 = g.guestCr0 := hcr .cr0
    have h3 : g'.guestCr3 = g.guestCr3 := hcr .cr3
    have h4 : g'.guestCr4 = g.guestCr4 := hcr .cr4
    rw [GuestState.advance, hgpr, h.1, h.2, h0, h3, h4]

/-- Writing a value to one register or to another. -/
lemma update_eq_update_iff {f : Gpr → UInt64} {r r' : Gpr} {v : UInt64} :
    Function.update f r v = Function.update f r' v ↔ r = r' ∨ f r = v ∧ f r' = v := by
  constructor
  · intro h
    by_cases hne : r = r'
    · exact .inl hne
    · have hr := congrFun h r
      have hr' := congrFun h r'
      rw [Function.update_self, Function.update_of_ne hne] at hr
      rw [Function.update_self, Function.update_of_ne (Ne.symm hne)] at hr'
      exact .inr ⟨hr.symm, hr'⟩
  · rintro (rfl | ⟨rfl, hr'⟩)
    · rfl
    · rw [Function.update_eq_self, ← hr', Function.update_eq_self]

lemma setCr_eq_iff {g : GuestState} {c : Cr} {v v' : UInt64} :
    (∀ c', crOf (setCr g c v) c' = crOf (setCr g c v') c') ↔ v = v' := by
  simp only [crOf_setCr]
  constructor
  · intro h
    simpa using h c
  · rintro rfl _
    rfl

/-- Writing to a register and to a control register instead. -/
lemma setGpr_setCr_iff {g : GuestState} {r : Gpr} {c : Cr} {v w : UInt64} :
    (g.setGpr r v).gpr = (setCr g c w).gpr ∧
        (∀ c', crOf (g.setGpr r v) c' = crOf (setCr g c w) c') ↔
      g.gpr r = v ∧ crOf g c = w := by
  rw [gpr_setCr]
  simp only [crOf_setCr, crOf_setGpr]
  refine and_congr (Function.update_eq_self_iff.trans eq_comm) ⟨fun h => ?_, ?_⟩
  · simpa using h c
  · rintro rfl c'
    split
    · rename_i hc
      rw [hc]
    · rfl

/-! ## The field at the number of a register -/

/-- Only RAX and R8 to R15 are where their numbers say. -/
lemma field_eq_gpr_iff (a : CrAccess) : a.field = a.gpr ↔ a.number = 0 ∨ 8 ≤ a.number := by
  rw [CrAccess.field, CrAccess.gpr]
  generalize a.number = number
  revert number
  decide

lemma fieldRight_holds {a : CrAccess} {g : GuestState} (h : a.FieldRight g)
    (hgpr : g.gpr a.gpr = crOf g a.cr) : g.gpr a.field = crOf g a.cr := by
  rw [CrAccess.FieldRight] at h
  rcases h with heq | h
  · rw [heq, hgpr]
  · cases hdir : a.direction with
    | toCr =>
      rw [hdir] at h
      exact h.trans hgpr
    | fromCr =>
      rw [hdir] at h
      exact h.1

lemma fieldRight_of_holds {a : CrAccess} {g : GuestState} (hfield : g.gpr a.field = crOf g a.cr)
    (hgpr : g.gpr a.gpr = crOf g a.cr) : a.FieldRight g := by
  rw [CrAccess.FieldRight]
  refine .inr ?_
  cases a.direction with
  | toCr => exact hfield.trans hgpr.symm
  | fromCr => exact ⟨hfield, hgpr⟩

/-! ## Both handlers -/

section
variable {info : VmExitInfo} {a : CrAccess} (h : a.Describes info.exitQualification)
  (g : GuestState)
include h

/-- What the handler of `vmxcore.c` does. -/
lemma vmx_handleCrAccess_eq :
    (Vmx.handleCrAccess info g).1 = (a.move a.field g).advance info := by
  obtain ⟨hcr, htype, hnumber⟩ := h
  rw [Vmx.handleCrAccess]
  dsimp only
  rw [hcr, htype, hnumber, CrAccess.move, CrAccess.field]
  cases a.direction with
  | toCr => cases a.cr <;> rfl
  | fromCr => cases a.cr <;> rfl

/-- What the handler of the common backend does. -/
lemma handleCrAccess_eq : (handleCrAccess info g).1 =
    (match a.direction with
    | .toCr => g.setGpr .rax (crOf g a.cr)
    | .fromCr => setCr g a.cr (g.gpr .rax)).advance info := by
  obtain ⟨hcr, htype, -⟩ := h
  rw [handleCrAccess]
  dsimp only
  rw [hcr, htype]
  cases a.direction with
  | toCr => cases a.cr <;> rfl
  | fromCr => cases a.cr <;> rfl

/-- `vmxcore.c` carries an access out when the field at its number will do. -/
lemma vmx_carriedOut_iff :
    a.CarriedOut g (Vmx.handleCrAccess info g).1 ↔ a.FieldRight g := by
  rw [vmx_handleCrAccess_eq h, CrAccess.CarriedOut, CrAccess.FieldRight, CrAccess.move,
    CrAccess.move]
  cases a.direction with
  | toCr =>
    dsimp only
    have hrest := rest_setCr g a.cr (g.gpr a.field)
    have hrest' := rest_setCr g a.cr (g.gpr a.gpr)
    rw [sameButRip_iff _ _ ⟨hrest.1.trans hrest'.1.symm, hrest.2.trans hrest'.2.symm⟩,
      setCr_eq_iff, gpr_setCr, gpr_setCr]
    constructor
    · rintro ⟨-, heq⟩
      exact .inr heq
    · rintro (heq | heq)
      · exact ⟨rfl, congrArg g.gpr heq⟩
      · exact ⟨rfl, heq⟩
  | fromCr =>
    dsimp only
    rw [sameButRip_iff (g.setGpr a.gpr (crOf g a.cr)) (g.setGpr a.field (crOf g a.cr)) ⟨rfl, rfl⟩]
    simp only [crOf_setGpr, implies_true, and_true]
    exact update_eq_update_iff

/-- The common backend carries an access out when nothing has to be moved. -/
lemma carriedOut_iff : a.CarriedOut g (handleCrAccess info g).1 ↔ a.RaxRight g := by
  rw [handleCrAccess_eq h, CrAccess.CarriedOut, CrAccess.RaxRight, CrAccess.move]
  cases a.direction with
  | toCr =>
    dsimp only
    rw [sameButRip_iff _ _ ?rest]
    case rest =>
      have hrest := rest_setCr g a.cr (g.gpr a.gpr)
      exact ⟨hrest.1.symm, hrest.2.symm⟩
    rw [setGpr_setCr_iff]
    exact and_congr_right' eq_comm
  | fromCr =>
    dsimp only
    rw [sameButRip_iff _ _ ?rest]
    case rest =>
      exact rest_setCr g a.cr (g.gpr .rax)
    rw [eq_comm (a := (setCr g a.cr (g.gpr .rax)).gpr)]
    simp only [eq_comm (a := crOf (setCr g a.cr (g.gpr .rax)) _)]
    rw [setGpr_setCr_iff, and_comm]
    exact and_congr_left' eq_comm

/-- Both carry an access out only when RAX, the register and the field at its number hold the value
of the control register already. -/
theorem crAccess_iff :
    (a.CarriedOut g (Vmx.handleCrAccess info g).1 ↔ a.FieldRight g) ∧
      (a.CarriedOut g (handleCrAccess info g).1 ↔ a.RaxRight g) ∧
      (a.CarriedOut g (Vmx.handleCrAccess info g).1 ∧ a.CarriedOut g (handleCrAccess info g).1 ↔
        g.gpr .rax = crOf g a.cr ∧ g.gpr a.gpr = crOf g a.cr ∧ g.gpr a.field = crOf g a.cr) := by
  refine ⟨vmx_carriedOut_iff h g, carriedOut_iff h g, ?_⟩
  rw [vmx_carriedOut_iff h g, carriedOut_iff h g]
  constructor
  · rintro ⟨hfield, hrax, hgpr⟩
    exact ⟨hrax, hgpr, fieldRight_holds hfield hgpr⟩
  · rintro ⟨hrax, hgpr, hfield⟩
    exact ⟨fieldRight_of_holds hfield hgpr, hrax, hgpr⟩

end

/-- MOV to CR0 from RCX. -/
def exampleInfo : VmExitInfo := ⟨0x1C, 0x100, 0, 0, 3, 0, 0⟩

def exampleAccess : CrAccess := ⟨.cr0, .toCr, 1⟩

/-- All zero but for RCX. -/
def exampleGuest : GuestState :=
  ⟨fun r => if r = .rcx then 0x80000011 else 0, 0, 0, 0, 0, 0, 0⟩

lemma exampleAccess_describes : exampleAccess.Describes exampleInfo.exitQualification :=
  ⟨by decide, by decide, by decide⟩

/-- MOV RAX, CR0 where RAX holds it already. -/
theorem crAccess_rax :
    let info : VmExitInfo := ⟨0x1C, 0x10, 0, 0, 3, 0, 0⟩
    let a : CrAccess := ⟨.cr0, .fromCr, 0⟩
    a.Describes info.exitQualification ∧
      a.CarriedOut exampleGuest (Vmx.handleCrAccess info exampleGuest).1 ∧
      a.CarriedOut exampleGuest (handleCrAccess info exampleGuest).1 := by
  have h : (⟨.cr0, .fromCr, 0⟩ : CrAccess).Describes
      (⟨0x1C, 0x10, 0, 0, 3, 0, 0⟩ : VmExitInfo).exitQualification :=
    ⟨by decide, by decide, by decide⟩
  exact ⟨h, (crAccess_iff h exampleGuest).2.2.2 ⟨by decide, by decide, by decide⟩⟩

/-- Neither writes RCX to CR0. -/
theorem crAccess_rcx_lost :
    exampleAccess.Describes exampleInfo.exitQualification ∧
      ¬ exampleAccess.CarriedOut exampleGuest (Vmx.handleCrAccess exampleInfo exampleGuest).1 ∧
      ¬ exampleAccess.CarriedOut exampleGuest (handleCrAccess exampleInfo exampleGuest).1 := by
  refine ⟨exampleAccess_describes, ?_, ?_⟩
  · rintro ⟨rip, heq⟩
    have hcr : (Vmx.handleCrAccess exampleInfo exampleGuest).1.guestCr0 = 0x80000011 := by
      rw [heq]
      rfl
    exact absurd hcr (by decide)
  · rintro ⟨rip, heq⟩
    have hcr : (handleCrAccess exampleInfo exampleGuest).1.guestCr0 = 0x80000011 := by
      rw [heq]
      rfl
    exact absurd hcr (by decide)

end Bemi.Backend

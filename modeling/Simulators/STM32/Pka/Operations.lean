/-
# STM32 PKA v2: numbers through the RAM window

The firmware writes the sizes and the operands of an operation, sets START in
CR and reads the result back. Where no operand reaches into the slot of
another one, the result is that of the numbers written; where one does, it is
that of the numbers left in the RAM, the later writes over the earlier ones.
An operand slot has 132 words, and an operand of up to 1024 bytes is accepted.

Key theorem: `reports_iff`.
-/
import Simulators.STM32.Pka.Window

namespace Simulators
namespace STM32
namespace Pka

open PkaV2

/-! ### What the firmware asks for -/

inductive ExpMode
  | normal
  | fast
  | protect
deriving DecidableEq, Repr

inductive Operation
  | arithmetic (op : ArithOp)
  | modular (op : ArithOp)
  | modExp (mode : ExpMode)
deriving DecidableEq, Repr

/-- The operands; of an exponentiation they are the base and the exponent. -/
structure Operands where
  op1 : Bytes
  op2 : Bytes
  modulus : Bytes
deriving DecidableEq, Repr

namespace Operation

def mode : Operation → UInt32
  | .arithmetic .add => modeArithmeticAdd
  | .arithmetic .sub => modeArithmeticSub
  | .arithmetic .mul => modeArithmeticMul
  | .modular .add => modeModularAdd
  | .modular .sub => modeModularSub
  | .modular .mul => modeMontgomeryMul
  | .modExp .normal => modeModularExp
  | .modExp .fast => modeModularExpFast
  | .modExp .protect => modeModularExpProtect

def op1At : Operation → ℕ
  | .arithmetic _ => Ram.arithInOp1
  | .modular _ => Ram.modOpInOp1
  | .modExp .protect => Ram.modexpProtectInExponentBase
  | .modExp _ => Ram.modexpInExponentBase

def op2At : Operation → ℕ
  | .arithmetic _ => Ram.arithInOp2
  | .modular _ => Ram.modOpInOp2
  | .modExp .protect => Ram.modexpProtectInExponent
  | .modExp _ => Ram.modexpInExponent

/-- The arithmetic operations have no modulus. -/
def modulusAt : Operation → Option ℕ
  | .arithmetic _ => none
  | .modular _ => some Ram.modOpInModulus
  | .modExp .protect => some Ram.modexpProtectInModulus
  | .modExp _ => some Ram.modexpInModulus

def resultAt : Operation → ℕ
  | .arithmetic _ => Ram.arithOutResult
  | .modular _ => Ram.modOpOutResult
  | .modExp _ => Ram.modexpOutResult

/-- The result as a number; nothing is reduced modulo 0. -/
def value : Operation → ℕ → ℕ → ℕ → ℕ
  | .arithmetic .add, a, b, _ => a + b
  | .arithmetic .sub, a, b, _ => a - b
  | .arithmetic .mul, a, b, _ => a * b
  | .modular .add, a, b, n => if n = 0 then 0 else (a + b) % n
  | .modular .sub, a, b, n => if n = 0 then 0 else (((a : ℤ) - b) % n).toNat
  | .modular .mul, a, b, n => if n = 0 then 0 else a * b % n
  | .modExp _, a, b, n => if n = 0 then 0 else a ^ b % n

end Operation

/-- An operation and the sizes of its operands in bits. -/
structure Shape where
  operation : Operation
  opBits : ℕ
  /-- Of the exponent. -/
  expBits : ℕ
deriving DecidableEq, Repr

namespace Shape

variable (sh : Shape)

def opBytes : ℕ := (sh.opBits + 7) / 8

def op2Bits : ℕ :=
  match sh.operation with
  | .modExp _ => sh.expBits
  | _ => sh.opBits

def op2Bytes : ℕ := (sh.op2Bits + 7) / 8

/-- The size words and where they go. -/
def sizes : List (ℕ × UInt32) :=
  match sh.operation with
  | .arithmetic _ => [(Ram.arithInOpNbBits, UInt32.ofNat sh.opBits)]
  | .modular _ => [(Ram.modOpInOpNbBits, UInt32.ofNat sh.opBits)]
  | .modExp _ =>
    [(Ram.modexpInOpNbBits, UInt32.ofNat sh.opBits), (Ram.modexpInExpNbBits, UInt32.ofNat sh.expBits)]

/-- The operands and where they go. -/
def regions (x : Operands) : List (ℕ × Bytes) :=
  (sh.operation.op1At, x.op1) :: (sh.operation.op2At, x.op2) ::
    (sh.operation.modulusAt.toList.map fun off => (off, x.modulus))

/-- The bytes of the result. -/
def width : ℕ :=
  match sh.operation with
  | .arithmetic .mul => sh.opBytes * 2
  | .arithmetic _ => sh.opBytes + 1
  | _ => sh.opBytes

/-- The sizes that the operation takes. -/
def Accepted : Prop := 1 ≤ sh.opBytes ∧ sh.opBytes ≤ 1024 ∧ 1 ≤ sh.op2Bytes ∧ sh.op2Bytes ≤ 1024

/-- Operands of these sizes, with a modulus that is not zero if there is one. -/
structure Has (x : Operands) : Prop where
  op1 : x.op1.length = sh.opBytes
  op2 : x.op2.length = sh.op2Bytes
  modulus : sh.operation.modulusAt.isSome → x.modulus.length = sh.opBytes
  positive : sh.operation.modulusAt.isSome → ofBe x.modulus ≠ 0

def value (x : Operands) : ℕ := sh.operation.value (ofBe x.op1) (ofBe x.op2) (ofBe x.modulus)

/-- No operand is longer than its slot where another one follows: 132 words
are 528 bytes. The base of the protected exponentiation comes last. -/
def Fits : Prop :=
  match sh.operation with
  | .modExp .protect => sh.op2Bytes ≤ 528
  | .modExp _ => sh.opBytes ≤ 528 ∧ sh.op2Bytes ≤ 528
  | _ => sh.opBytes ≤ 528

end Shape

/-- The writes of the firmware, in some order, and its value of CR. -/
structure Program (sh : Shape) (x : Operands) where
  sizes : List (ℕ × UInt32)
  sizes_perm : sizes.Perm sh.sizes
  regions : List (ℕ × Bytes)
  regions_perm : regions.Perm (sh.regions x)
  cr : UInt32
  enabled : cr &&& crEn ≠ 0
  started : cr &&& crStart ≠ 0
  mode : (cr &&& crModeMask) >>> crModeShift = sh.operation.mode

namespace Program

variable {sh : Shape} {x : Operands}

/-- The sizes, then the operands, then CR. -/
def accesses (p : Program sh x) : List Access :=
  stores p.sizes ++ stores (p.regions.flatMap fun r => region r.1 r.2) ++ [.write Pka.cr p.cr]

/-- A number as the later writes leave it. -/
def left (p : Program sh x) (off n : ℕ) : Bytes := unpack (fun k => layAll (fun _ => 0) p.regions (off + k)) n

/-- The operands as the later ones leave them. -/
def leaves (p : Program sh x) : Operands where
  op1 := p.left sh.operation.op1At sh.opBytes
  op2 := p.left sh.operation.op2At sh.op2Bytes
  modulus := sh.operation.modulusAt.elim x.modulus fun off => p.left off sh.opBytes

end Program

/-- RAMERR is set, or the result is read back, in as many bytes as it fits in. -/
def Reports (sh : Shape) (x : Operands) (s : PkaV2) : Prop :=
  s.read Pka.sr &&& srRamerr ≠ 0 ∨
    ∀ m ≤ sh.width, sh.value x < 256 ^ m →
      ofBe (unpack (fun k => s.read (windowOffset (sh.operation.resultAt + k))) m) = sh.value x

/-! ### What the engine returns -/

theorem mod_lt_of_length {v : ℕ} {n : Bytes} {l : ℕ} (h : n.length = l) :
    (if ofBe n = 0 then 0 else v % ofBe n) < 256 ^ l := by
  split
  · exact Nat.pow_pos (by decide)
  · rename_i h0
    rw [← h]
    exact (Nat.mod_lt v (Nat.pos_of_ne_zero h0)).trans (ofBe_lt n)

theorem sub_lt_of_length {a b : ℕ} {n : Bytes} {l : ℕ} (h : n.length = l) :
    (if ofBe n = 0 then 0 else (((a : ℤ) - b) % ofBe n).toNat) < 256 ^ l := by
  split
  · exact Nat.pow_pos (by decide)
  · rename_i h0
    have hpos : (0 : ℤ) < ofBe n := by exact_mod_cast Nat.pos_of_ne_zero h0
    have hlt := Int.emod_lt_of_pos ((a : ℤ) - b) hpos
    have hn := ofBe_lt n
    rw [← h]
    omega

section Engine

variable {a b n : Bytes}

theorem modAdd_bytes (hn : 0 < n.length) : (Engine.modAdd a b n).1 =
    toBe n.length (if ofBe n = 0 then 0 else (ofBe a + ofBe b) % ofBe n) := by
  have hlt := mod_lt_of_length (v := ofBe a + ofBe b) (n := n) rfl
  rw [Engine.modAdd]
  by_cases h0 : ofBe n = 0
  · rw [if_pos h0, if_pos h0, toBe_zero]
  · rw [if_neg h0] at hlt ⊢
    rw [if_neg h0]
    exact padBe_eq hn hlt

theorem modSub_bytes (hn : 0 < n.length) : (Engine.modSub a b n).1 =
    toBe n.length (if ofBe n = 0 then 0 else (((ofBe a : ℤ) - ofBe b) % ofBe n).toNat) := by
  have hlt := sub_lt_of_length (a := ofBe a) (b := ofBe b) (n := n) rfl
  rw [Engine.modSub]
  by_cases h0 : ofBe n = 0
  · rw [if_pos h0, if_pos h0, toBe_zero]
  · rw [if_neg h0] at hlt ⊢
    rw [if_neg h0]
    simp only [sub_residue _ _ h0]
    exact padBe_eq hn hlt

theorem modMul_bytes (hn : 0 < n.length) : (Engine.modMul a b n).1 =
    toBe n.length (if ofBe n = 0 then 0 else ofBe a * ofBe b % ofBe n) := by
  have hlt := mod_lt_of_length (v := ofBe a * ofBe b) (n := n) rfl
  rw [Engine.modMul]
  by_cases h0 : ofBe n = 0
  · rw [if_pos h0, if_pos h0, toBe_zero]
  · rw [if_neg h0] at hlt ⊢
    rw [if_neg h0]
    exact padBe_eq hn hlt

theorem modExp_bytes (hn : 0 < n.length) : (Engine.modExp a b n).1 =
    toBe n.length (if ofBe n = 0 then 0 else ofBe a ^ ofBe b % ofBe n) :=
  padBe_eq hn (mod_lt_of_length rfl)

end Engine

/-! ### What an operation leaves -/

namespace Shape

variable {sh : Shape} {s : PkaV2}

/-- The size words are in the RAM. -/
def Sized (sh : Shape) (s : PkaV2) : Prop := ∀ w ∈ sh.sizes, s.readWord w.1 = w.2

/-- The operands in the RAM. -/
def held (sh : Shape) (s : PkaV2) : Operands where
  op1 := s.readOperandBe sh.operation.op1At sh.opBytes
  op2 := s.readOperandBe sh.operation.op2At sh.op2Bytes
  modulus := sh.operation.modulusAt.elim [] fun off => s.readOperandBe off sh.opBytes

/-- The result has room. -/
theorem value_lt {x : Operands} (h1 : x.op1.length = sh.opBytes) (h2 : x.op2.length = sh.op2Bytes)
    (hn : sh.operation.modulusAt.isSome → x.modulus.length = sh.opBytes) : sh.value x < 256 ^ sh.width := by
  obtain ⟨op, opBits, expBits⟩ := sh
  have ha := ofBe_lt x.op1
  have hb := ofBe_lt x.op2
  rw [h1] at ha
  rw [h2] at hb
  cases op with
  | arithmetic op =>
    change ofBe x.op2 < 256 ^ ((opBits + 7) / 8) at hb
    change ofBe x.op1 < 256 ^ ((opBits + 7) / 8) at ha
    cases op with
    | add =>
      change ofBe x.op1 + ofBe x.op2 < 256 ^ ((opBits + 7) / 8 + 1)
      rw [pow_succ]
      omega
    | sub =>
      change ofBe x.op1 - ofBe x.op2 < 256 ^ ((opBits + 7) / 8 + 1)
      rw [pow_succ]
      omega
    | mul =>
      change ofBe x.op1 * ofBe x.op2 < 256 ^ ((opBits + 7) / 8 * 2)
      rw [Nat.mul_two, pow_add]
      exact Nat.mul_lt_mul'' ha hb
  | modular op =>
    cases op with
    | add => exact mod_lt_of_length (hn rfl)
    | sub => exact sub_lt_of_length (hn rfl)
    | mul => exact mod_lt_of_length (hn rfl)
  | modExp mode =>
    cases mode with
    | normal => exact mod_lt_of_length (hn rfl)
    | fast => exact mod_lt_of_length (hn rfl)
    | protect => exact mod_lt_of_length (hn rfl)

theorem readOperandBe_length (wordIdx n : ℕ) : (s.readOperandBe wordIdx n).length = n := unpack_length _ n

theorem held_lt : sh.value (sh.held s) < 256 ^ sh.width := by
  have hn : sh.operation.modulusAt.isSome → (sh.held s).modulus.length = sh.opBytes := by
    intro h
    obtain ⟨off, hoff⟩ := Option.isSome_iff_exists.mp h
    simp only [held, hoff, Option.elim_some]
    exact readOperandBe_length off _
  exact value_lt (readOperandBe_length _ _) (readOperandBe_length _ _) hn

/-- The sizes that the operation reads. -/
theorem sized_op (hsh : sh.Accepted) (h : sh.Sized s) : (s.readWord 2).toNat = sh.opBits := by
  have hlt : sh.opBits < 2 ^ 32 := by
    have := hsh.2.1
    rw [opBytes] at this
    omega
  have hmem : (2, UInt32.ofNat sh.opBits) ∈ sh.sizes := by
    rw [sizes]
    split <;> exact List.mem_cons_self
  rw [h _ hmem]
  exact Nat.mod_eq_of_lt hlt

theorem sized_exp {mode : ExpMode} (hop : sh.operation = .modExp mode) (hsh : sh.Accepted) (h : sh.Sized s) :
    (s.readWord 0).toNat = sh.expBits := by
  have hlt : sh.expBits < 2 ^ 32 := by
    have := hsh.2.2.2
    simp only [op2Bytes, op2Bits, hop] at this
    omega
  have hmem : (0, UInt32.ofNat sh.expBits) ∈ sh.sizes := by
    rw [sizes, hop]
    exact List.mem_cons_of_mem _ (List.mem_singleton_self _)
  rw [h _ hmem]
  exact Nat.mod_eq_of_lt hlt

end Shape

/-- The words of a result that was written. -/
theorem readWord_result (s : PkaV2) {off v n k : ℕ} (hfit : off + limbCount n ≤ ramWords) (hv : v < 256 ^ n)
    (hk : k < limbCount n) : (s.writeOperandBe off (toBe n v)).readWord (off + k) = limbOf v k := by
  have hlen : (toBe n v).length = n := toBe_length n v
  have hcov : Covers off (toBe n v) (off + k) := ⟨Nat.le_add_right _ _, by rw [hlen]; omega⟩
  rw [readWord_writeOperandBe s (by rwa [hlen]), lay_region, if_pos hcov, Nat.add_sub_cancel_left,
    wordOf_eq (by rwa [hlen]), ofBe_toBe, Nat.mod_eq_of_lt hv]

namespace Shape

variable {sh : Shape} {s : PkaV2}

/-- The operation is done: the result is at its place, the status register is as it was. -/
structure Done (sh : Shape) (s : PkaV2) (r : Bool × PkaV2) : Prop where
  ok : r.1 = true
  sr : r.2.sr = s.sr
  result : ∀ k < limbCount sh.width, r.2.readWord (sh.operation.resultAt + k) = limbOf (sh.value (sh.held s)) k

theorem limbCount_lt (hsh : sh.Accepted) : sh.operation.resultAt + limbCount sh.width ≤ ramWords := by
  obtain ⟨op, opBits, expBits⟩ := sh
  obtain ⟨-, h, -⟩ := hsh
  rw [limbCount, ramWords]
  cases op with
  | arithmetic op =>
    cases op with
    | add =>
      change 0x18E + ((opBits + 7) / 8 + 1 + 3) / 4 ≤ 1792
      change (opBits + 7) / 8 ≤ 1024 at h
      omega
    | sub =>
      change 0x18E + ((opBits + 7) / 8 + 1 + 3) / 4 ≤ 1792
      change (opBits + 7) / 8 ≤ 1024 at h
      omega
    | mul =>
      change 0x18E + ((opBits + 7) / 8 * 2 + 3) / 4 ≤ 1792
      change (opBits + 7) / 8 ≤ 1024 at h
      omega
  | modular op =>
    change 0x18E + ((opBits + 7) / 8 + 3) / 4 ≤ 1792
    change (opBits + 7) / 8 ≤ 1024 at h
    omega
  | modExp mode =>
    change 0x10E + ((opBits + 7) / 8 + 3) / 4 ≤ 1792
    change (opBits + 7) / 8 ≤ 1024 at h
    omega

/-- A result that is written at its place. -/
theorem done_write (hsh : sh.Accepted) {s' : PkaV2} (hsr : s'.sr = s.sr) :
    sh.Done s (true, s'.writeOperandBe sh.operation.resultAt (toBe sh.width (sh.value (sh.held s)))) where
  ok := rfl
  sr := by
    rw [writeOperandBe_eq, storeAll_sr]
    exact hsr
  result := fun _ hk => readWord_result s' (limbCount_lt hsh) held_lt hk

theorem width_pos (hsh : sh.Accepted) : 0 < sh.width := by
  have h := hsh.1
  rw [width]
  split <;> omega

theorem padBe_held (hsh : sh.Accepted) : padBe (sh.value (sh.held s)) sh.width = toBe sh.width (sh.value (sh.held s)) :=
  padBe_eq (width_pos hsh) held_lt

/-- The size check of the operations. -/
theorem guard_of_accepted {n : ℕ} (h1 : 1 ≤ n) (h2 : n ≤ 1024) : ¬ (n = 0 ∨ n > 1024) := by omega

section Operations

variable {opBits expBits : ℕ}

theorem doArith_done (op : ArithOp) (hsh : Accepted ⟨.arithmetic op, opBits, expBits⟩)
    (h : Sized ⟨.arithmetic op, opBits, expBits⟩ s) :
    Done ⟨.arithmetic op, opBits, expBits⟩ s (s.doArith op) := by
  have hbits : s.readNBits Ram.arithInOpNbBits = opBits := sized_op hsh h
  have hdone := done_write (s := s) hsh (show s.sr = s.sr from rfl)
  rw [← padBe_held hsh] at hdone
  have hsub (a b : ℕ) : (if a ≥ b then a - b else 0) = a - b := by
    split
    · rfl
    · omega
  have hguard : ¬ ((opBits + 7) / 8 = 0 ∨ (opBits + 7) / 8 > 1024) := guard_of_accepted hsh.1 hsh.2.1
  unfold doArith
  rw [hbits]
  cases op with
  | add =>
    simp only [if_neg hguard]
    exact hdone
  | sub =>
    simp only [if_neg hguard, hsub]
    exact hdone
  | mul =>
    simp only [if_neg hguard]
    exact hdone

theorem doModOp_done (op : ArithOp) (hsh : Accepted ⟨.modular op, opBits, expBits⟩)
    (h : Sized ⟨.modular op, opBits, expBits⟩ s) :
    Done ⟨.modular op, opBits, expBits⟩ s (s.doModOp op) := by
  have hbits : s.readNBits Ram.modOpInOpNbBits = opBits := sized_op hsh h
  have hguard : ¬ ((opBits + 7) / 8 = 0 ∨ (opBits + 7) / 8 > 1024) := guard_of_accepted hsh.1 hsh.2.1
  set a := s.readOperandBe Ram.modOpInOp1 ((opBits + 7) / 8) with ha
  set b := s.readOperandBe Ram.modOpInOp2 ((opBits + 7) / 8) with hb
  set n := s.readOperandBe Ram.modOpInModulus ((opBits + 7) / 8) with hn
  have hlen : n.length = (opBits + 7) / 8 := readOperandBe_length _ _
  have hpos : 0 < n.length := by
    rw [hlen]
    exact hsh.1
  unfold doModOp
  rw [hbits]
  simp only [if_neg hguard, ← ha, ← hb, ← hn]
  cases op with
  | add =>
    rw [modAdd_bytes hpos, hlen]
    exact done_write hsh rfl
  | sub =>
    rw [modSub_bytes hpos, hlen]
    exact done_write hsh rfl
  | mul =>
    rw [modMul_bytes hpos, hlen]
    exact done_write hsh rfl

/-- The error word is not one of the words of the result. -/
theorem done_error {mode : ExpMode} (hsh : Accepted ⟨.modExp mode, opBits, expBits⟩) {s' : PkaV2} (hsr : s'.sr = s.sr) :
    Done ⟨.modExp mode, opBits, expBits⟩ s (true, (s'.writeOperandBe Ram.modexpOutResult
      (toBe ((opBits + 7) / 8) (value ⟨.modExp mode, opBits, expBits⟩
        (held ⟨.modExp mode, opBits, expBits⟩ s)))).writeWord Ram.modexpOutError pkaNoError) where
  ok := rfl
  sr := by
    rw [writeWord_sr]
    exact (done_write hsh hsr).sr
  result := by
    intro k hk
    have hfar : Ram.modexpOutResult + k ≠ Ram.modexpOutError := by
      have h := hsh.2.1
      change (opBits + 7) / 8 ≤ 1024 at h
      change k < ((opBits + 7) / 8 + 3) / 4 at hk
      change 0x10E + k ≠ 0x3A6
      omega
    have hword := readWord_writeWord (s'.writeOperandBe Ram.modexpOutResult
      (toBe ((opBits + 7) / 8) (value ⟨.modExp mode, opBits, expBits⟩ (held ⟨.modExp mode, opBits, expBits⟩ s))))
      pkaNoError (show Ram.modexpOutError < ramWords by decide)
    exact (congrFun hword _).trans ((Function.update_of_ne hfar _ _).trans ((done_write hsh hsr).result k hk))

theorem doModExp_done (mode : ExpMode) (hsh : Accepted ⟨.modExp mode, opBits, expBits⟩)
    (h : Sized ⟨.modExp mode, opBits, expBits⟩ s) :
    Done ⟨.modExp mode, opBits, expBits⟩ s (s.doModExp (mode = .protect)) := by
  have hbits : s.readNBits Ram.modexpInOpNbBits = opBits := sized_op hsh h
  have hexp : s.readNBits Ram.modexpInExpNbBits = expBits := sized_exp rfl hsh h
  have hguard : ¬ ((opBits + 7) / 8 = 0 ∨ (opBits + 7) / 8 > 1024 ∨ (expBits + 7) / 8 = 0 ∨ (expBits + 7) / 8 > 1024) := by
    obtain ⟨h1, h2, h3, h4⟩ := hsh
    change 1 ≤ (opBits + 7) / 8 at h1
    change (opBits + 7) / 8 ≤ 1024 at h2
    change 1 ≤ (expBits + 7) / 8 at h3
    change (expBits + 7) / 8 ≤ 1024 at h4
    omega
  have hlen (off : ℕ) : (s.readOperandBe off ((opBits + 7) / 8)).length = (opBits + 7) / 8 := readOperandBe_length _ _
  have hpos (off : ℕ) : 0 < (s.readOperandBe off ((opBits + 7) / 8)).length := by
    rw [hlen]
    exact hsh.1
  unfold doModExp
  rw [hbits, hexp]
  simp only [if_neg hguard, modExp_bytes (hpos _), hlen]
  cases mode with
  | normal => exact done_error hsh rfl
  | fast => exact done_error hsh rfl
  | protect => exact done_error hsh rfl

end Operations

/-- What CR.MODE selects is the operation. -/
theorem operation_done (C : Crates) (hmode : s.currentMode = sh.operation.mode) (hsh : sh.Accepted) (h : sh.Sized s) :
    sh.Done s (s.operation C) := by
  obtain ⟨op, opBits, expBits⟩ := sh
  cases op with
  | arithmetic op =>
    cases op with
    | add =>
      rw [show s.operation C = s.doArith .add by rw [PkaV2.operation, hmode]; rfl]
      exact doArith_done .add hsh h
    | sub =>
      rw [show s.operation C = s.doArith .sub by rw [PkaV2.operation, hmode]; rfl]
      exact doArith_done .sub hsh h
    | mul =>
      rw [show s.operation C = s.doArith .mul by rw [PkaV2.operation, hmode]; rfl]
      exact doArith_done .mul hsh h
  | modular op =>
    cases op with
    | add =>
      rw [show s.operation C = s.doModOp .add by rw [PkaV2.operation, hmode]; rfl]
      exact doModOp_done .add hsh h
    | sub =>
      rw [show s.operation C = s.doModOp .sub by rw [PkaV2.operation, hmode]; rfl]
      exact doModOp_done .sub hsh h
    | mul =>
      rw [show s.operation C = s.doModOp .mul by rw [PkaV2.operation, hmode]; rfl]
      exact doModOp_done .mul hsh h
  | modExp mode =>
    cases mode with
    | normal =>
      rw [show s.operation C = s.doModExp false by rw [PkaV2.operation, hmode]; rfl]
      exact doModExp_done .normal hsh h
    | fast =>
      rw [show s.operation C = s.doModExp false by rw [PkaV2.operation, hmode]; rfl]
      exact doModExp_done .fast hsh h
    | protect =>
      rw [show s.operation C = s.doModExp true by rw [PkaV2.operation, hmode]; rfl]
      exact doModExp_done .protect hsh h

/-- BUSY and PROCENDF are not RAMERR. -/
theorem ramerr_of_done (x : UInt32) : (((x ||| srBusy) &&& ~~~srBusy) ||| srProcendf) &&& srRamerr =
    x &&& srRamerr := by
  have hproc : srProcendf.toBitVec &&& srRamerr.toBitVec = 0#32 := by decide
  have hkeep : ~~~srBusy.toBitVec &&& srRamerr.toBitVec = srRamerr.toBitVec := by decide
  have hbusy : srBusy.toBitVec &&& srRamerr.toBitVec = 0#32 := by decide
  apply UInt32.toBitVec_inj.mp
  simp only [UInt32.toBitVec_and, UInt32.toBitVec_or, UInt32.toBitVec_not]
  rw [BitVec.and_or_distrib_right, hproc, BitVec.or_zero, BitVec.and_assoc, hkeep, BitVec.and_or_distrib_right, hbusy,
    BitVec.or_zero]

/-- The operation, run by CR. -/
theorem execute_spec (C : Crates) (hmode : s.currentMode = sh.operation.mode) (hsh : sh.Accepted) (h : sh.Sized s) :
    (s.execute C).sr &&& srRamerr = s.sr &&& srRamerr ∧ ∀ k < limbCount sh.width,
      (s.execute C).readWord (sh.operation.resultAt + k) = limbOf (sh.value (sh.held s)) k := by
  have hd := operation_done C (s := { s with sr := s.sr ||| srBusy }) hmode hsh h
  constructor
  · have hsr : (s.execute C).sr = (((s.sr ||| srBusy) &&& ~~~srBusy) ||| srProcendf) := by
      rw [execute]
      simp only [hd.ok, hd.sr, if_true]
    rw [hsr, ramerr_of_done]
  · intro k hk
    have hword : (s.execute C).readWord = (({ s with sr := s.sr ||| srBusy } : PkaV2).operation C).2.readWord := by
      rw [execute]
      simp only [hd.ok, if_true]
      rfl
    rw [hword]
    exact hd.result k hk

/-- Only the operands that the operation has count. -/
theorem value_congr {x y : Operands} (h1 : x.op1 = y.op1) (h2 : x.op2 = y.op2)
    (hn : sh.operation.modulusAt.isSome → x.modulus = y.modulus) : sh.value x = sh.value y := by
  obtain ⟨op, opBits, expBits⟩ := sh
  cases op with
  | arithmetic op => cases op <;> simp only [value, Operation.value, h1, h2]
  | modular op => simp only [value, h1, h2, hn rfl]
  | modExp mode => cases mode <;> simp only [value, h1, h2, hn rfl]

/-- Operands are behind the size words and inside of the RAM. -/
theorem region_bounds {x : Operands} (hsh : sh.Accepted) (hx : sh.Has x) {r : ℕ × Bytes} (hr : r ∈ sh.regions x) :
    0x86 ≤ r.1 ∧ r.1 + limbCount r.2.length ≤ ramWords := by
  have hlimb {n : ℕ} (hn : n ≤ 1024) : limbCount n ≤ 256 := by
    rw [limbCount]
    omega
  have h1 : limbCount x.op1.length ≤ 256 := hlimb (hx.op1 ▸ hsh.2.1)
  have h2 : limbCount x.op2.length ≤ 256 := hlimb (hx.op2 ▸ hsh.2.2.2)
  have hoff : 0x86 ≤ sh.operation.op1At ∧ sh.operation.op1At + 256 ≤ ramWords ∧ 0x86 ≤ sh.operation.op2At ∧
      sh.operation.op2At + 256 ≤ ramWords ∧
      ∀ off ∈ sh.operation.modulusAt, 0x86 ≤ off ∧ off + 256 ≤ ramWords := by
    rcases sh.operation with op | op | mode
    · simp [Operation.op1At, Operation.op2At, Operation.modulusAt, Ram.arithInOp1, Ram.arithInOp2, ramWords]
    · simp [Operation.op1At, Operation.op2At, Operation.modulusAt, Ram.modOpInOp1, Ram.modOpInOp2, Ram.modOpInModulus,
        ramWords]
    · cases mode <;> decide
  obtain ⟨ho1, hf1, ho2, hf2, hon⟩ := hoff
  simp only [regions, List.mem_cons, List.mem_map, Option.mem_toList] at hr
  rcases hr with rfl | rfl | ⟨off, hoff, rfl⟩
  · exact ⟨ho1, (Nat.add_le_add_left h1 _).trans hf1⟩
  · exact ⟨ho2, (Nat.add_le_add_left h2 _).trans hf2⟩
  · have hn : limbCount x.modulus.length ≤ 256 := hlimb (hx.modulus (by rw [hoff]; rfl) ▸ hsh.2.1)
    obtain ⟨hlo, hhi⟩ := hon off hoff
    exact ⟨hlo, (Nat.add_le_add_left hn _).trans hhi⟩

end Shape

/-! ### A run of the firmware -/

namespace Program

variable {sh : Shape} {x : Operands} (p : Program sh x)

theorem mem_sizes {w : ℕ × UInt32} (hw : w ∈ p.sizes) :
    w = (2, UInt32.ofNat sh.opBits) ∨ w = (0, UInt32.ofNat sh.expBits) := by
  have hw := p.sizes_perm.mem_iff.mp hw
  rw [Shape.sizes] at hw
  split at hw <;> simp only [List.mem_cons, List.not_mem_nil, or_false] at hw
  · exact .inl hw
  · exact .inl hw
  · exact hw

theorem size_below {w : ℕ × UInt32} (hw : w ∈ p.sizes) : w.1 ≤ 2 := by
  rcases p.mem_sizes hw with rfl | rfl
  · exact Nat.le_refl 2
  · exact Nat.zero_le 2

/-- The words of the sizes and of the operands. -/
def words : List (ℕ × UInt32) := p.sizes ++ p.regions.flatMap fun r => region r.1 r.2

theorem words_inside (hsh : sh.Accepted) (hx : sh.Has x) {w : ℕ × UInt32} (hw : w ∈ p.words) : w.1 < ramWords := by
  rcases List.mem_append.mp hw with hw | hw
  · have := p.size_below hw
    rw [ramWords]
    omega
  · obtain ⟨r, hr, hw⟩ := List.mem_flatMap.mp hw
    exact lt_of_lt_of_le (mem_region hw).2 (Shape.region_bounds hsh hx (p.regions_perm.mem_iff.mp hr)).2

/-- What CR starts from. -/
def loaded (s : PkaV2) : PkaV2 := { s.storeAll p.words with cr := p.cr }

theorem run_accesses (C : Crates) (s : PkaV2) (hsh : sh.Accepted) (hx : sh.Has x) :
    run C s p.accesses = (p.loaded s).execute C := by
  have hstores : stores p.sizes ++ stores (p.regions.flatMap fun r => region r.1 r.2) = stores p.words := by
    rw [words, stores, stores, stores, List.map_append]
  have hstart : p.cr &&& crStart ≠ 0 ∧ p.cr &&& crEn ≠ 0 := ⟨p.started, p.enabled⟩
  have hwords := run_stores C s fun w hw => p.words_inside hsh hx hw
  rw [accesses, hstores, run, List.foldl_append]
  rw [run] at hwords
  rw [hwords, List.foldl_cons, List.foldl_nil, access, write, if_pos rfl]
  simp only [if_pos hstart]
  rfl

theorem readWord_loaded (s : PkaV2) (hsh : sh.Accepted) (hx : sh.Has x) :
    (p.loaded s).readWord = layAll (lay s.readWord p.sizes) p.regions := by
  have hwords := readWord_storeAll s fun w hw => p.words_inside hsh hx hw
  rw [words, lay_append] at hwords
  exact hwords

theorem sized_loaded (s : PkaV2) (hsh : sh.Accepted) (hx : sh.Has x) : sh.Sized (p.loaded s) := by
  intro w hw
  have hmem : w ∈ p.sizes := p.sizes_perm.mem_iff.mpr hw
  have hfar (r : ℕ × Bytes) (hr : r ∈ p.regions) : ¬ Covers r.1 r.2 w.1 := by
    have hlow := p.size_below hmem
    have hr := (Shape.region_bounds hsh hx (p.regions_perm.mem_iff.mp hr)).1
    rw [Covers]
    omega
  rw [p.readWord_loaded s hsh hx, layAll_of_not_covers _ hfar]
  refine lay_of_mem _ hmem fun w' hw' heq => ?_
  rcases p.mem_sizes hmem with rfl | rfl <;> rcases p.mem_sizes hw' with rfl | rfl
  · rfl
  · cases heq
  · cases heq
  · rfl

/-- The operation reads what the operands written later leave of the earlier ones. -/
theorem value_held (s : PkaV2) (hsh : sh.Accepted) (hx : sh.Has x) :
    sh.value (sh.held (p.loaded s)) = sh.value p.leaves := by
  have hread {off n : ℕ} {b : Bytes} (hr : (off, b) ∈ sh.regions x) (hb : b.length = n) :
      (p.loaded s).readOperandBe off n = p.left off n := by
    refine unpack_congr fun k hk => ?_
    rw [p.readWord_loaded s hsh hx]
    refine layAll_congr _ _ ⟨(off, b), p.regions_perm.mem_iff.mpr hr, Nat.le_add_right _ _, ?_⟩
    change off + k < off + limbCount b.length
    rw [hb]
    omega
  refine Shape.value_congr (hread List.mem_cons_self hx.op1)
    (hread (List.mem_cons_of_mem _ List.mem_cons_self) hx.op2) fun h => ?_
  obtain ⟨off, hoff⟩ := Option.isSome_iff_exists.mp h
  have hmem : (off, x.modulus) ∈ sh.regions x := by
    rw [Shape.regions, hoff]
    exact List.mem_cons_of_mem _ (List.mem_cons_of_mem _ (List.mem_singleton_self _))
  simp only [Shape.held, leaves, hoff, Option.elim_some]
  exact hread hmem (hx.modulus h)

/-- The result is that of the numbers left in the RAM. -/
theorem reports_run_iff (C : Crates) (s : PkaV2) (hsh : sh.Accepted) (hx : sh.Has x) :
    Reports sh x (run C s p.accesses) ↔ s.sr &&& srRamerr ≠ 0 ∨ sh.value p.leaves = sh.value x := by
  have hmode : (p.loaded s).currentMode = sh.operation.mode := p.mode
  obtain ⟨hsr, hwords⟩ := Shape.execute_spec C hmode hsh (p.sized_loaded s hsh hx)
  have hsr' : ((p.loaded s).execute C).read Pka.sr &&& srRamerr = s.sr &&& srRamerr :=
    hsr.trans (congrArg (· &&& srRamerr) (storeAll_sr s))
  rw [p.value_held s hsh hx] at hwords
  have hvalue : sh.value p.leaves < 256 ^ sh.width := by
    rw [← p.value_held s hsh hx]
    exact Shape.held_lt
  have hx' : sh.value x < 256 ^ sh.width := Shape.value_lt hx.op1 hx.op2 hx.modulus
  have hresult {m : ℕ} (hm : m ≤ sh.width) : ofBe (unpack
      (fun k => ((p.loaded s).execute C).read (windowOffset (sh.operation.resultAt + k))) m) =
      sh.value p.leaves % 256 ^ m := by
    rw [← ofBe_toBe, ← unpack_limbOf]
    congr 1
    refine unpack_congr fun k hk => ?_
    have hk' : k < limbCount sh.width := by
      rw [limbCount] at hk ⊢
      omega
    have hin := Shape.limbCount_lt hsh
    rw [read_window _ (by omega), hwords k hk']
  rw [p.run_accesses C s hsh hx, Reports, hsr']
  refine or_congr Iff.rfl ⟨fun h => ?_, fun h m hm hfit => ?_⟩
  · rw [← h sh.width le_rfl hx', hresult le_rfl, Nat.mod_eq_of_lt hvalue]
  · rw [hresult hm, h, Nat.mod_eq_of_lt hfit]

end Program

/-! ### Operands that fit their slots -/

namespace Shape

variable {sh : Shape} {x : Operands}

/-- A region ends before the other one begins. -/
def Apart (r r' : ℕ × Bytes) : Prop :=
  r.1 + limbCount r.2.length ≤ r'.1 ∨ r'.1 + limbCount r'.2.length ≤ r.1

instance : Std.Symm Apart := ⟨fun _ _ h => Or.symm h⟩

theorem Apart.not_covers {r r' : ℕ × Bytes} (h : Apart r r') {j : ℕ} (hj : Covers r.1 r.2 j) :
    ¬ Covers r'.1 r'.2 j := by
  rw [Covers] at hj ⊢
  rw [Apart] at h
  omega

/-- No operand reaches into another one. -/
theorem regions_apart (hfits : sh.Fits) (hsh : sh.Accepted) (hx : sh.Has x) : (sh.regions x).Pairwise Apart := by
  obtain ⟨op, opBits, expBits⟩ := sh
  obtain ⟨-, h1, -, h2⟩ := hsh
  obtain ⟨hl1, hl2, hln, -⟩ := hx
  cases op with
  | arithmetic op =>
    change (opBits + 7) / 8 ≤ 528 at hfits
    change x.op1.length = (opBits + 7) / 8 at hl1
    change [(0x86, x.op1), (0x10A, x.op2)].Pairwise _
    simp only [List.pairwise_cons, List.mem_cons, List.not_mem_nil, or_false, forall_eq, false_imp_iff, implies_true,
      List.Pairwise.nil, and_true, Apart, limbCount]
    omega
  | modular op =>
    change (opBits + 7) / 8 ≤ 528 at hfits
    change x.op1.length = (opBits + 7) / 8 at hl1
    change x.op2.length = (opBits + 7) / 8 at hl2
    change [(0x86, x.op1), (0x10A, x.op2), (0x322, x.modulus)].Pairwise _
    simp only [List.pairwise_cons, List.mem_cons, List.not_mem_nil, or_false, forall_eq_or_imp, forall_eq,
      false_imp_iff, implies_true, List.Pairwise.nil, and_true, Apart, limbCount]
    omega
  | modExp mode =>
    change x.op1.length = (opBits + 7) / 8 at hl1
    change x.op2.length = (expBits + 7) / 8 at hl2
    change (opBits + 7) / 8 ≤ 1024 at h1
    have hln : x.modulus.length = (opBits + 7) / 8 := hln (by cases mode <;> rfl)
    cases mode with
    | normal =>
      change (opBits + 7) / 8 ≤ 528 ∧ (expBits + 7) / 8 ≤ 528 at hfits
      change [(0x21A, x.op1), (0x29E, x.op2), (0x322, x.modulus)].Pairwise _
      simp only [List.pairwise_cons, List.mem_cons, List.not_mem_nil, or_false, forall_eq_or_imp, forall_eq,
        false_imp_iff, implies_true, List.Pairwise.nil, and_true, Apart, limbCount]
      omega
    | fast =>
      change (opBits + 7) / 8 ≤ 528 ∧ (expBits + 7) / 8 ≤ 528 at hfits
      change [(0x21A, x.op1), (0x29E, x.op2), (0x322, x.modulus)].Pairwise _
      simp only [List.pairwise_cons, List.mem_cons, List.not_mem_nil, or_false, forall_eq_or_imp, forall_eq,
        false_imp_iff, implies_true, List.Pairwise.nil, and_true, Apart, limbCount]
      omega
    | protect =>
      change (expBits + 7) / 8 ≤ 528 at hfits
      change [(0x4B2, x.op1), (0x42E, x.op2), (0x10E, x.modulus)].Pairwise _
      simp only [List.pairwise_cons, List.mem_cons, List.not_mem_nil, or_false, forall_eq_or_imp, forall_eq,
        false_imp_iff, implies_true, List.Pairwise.nil, and_true, Apart, limbCount]
      omega

end Shape

namespace Program

variable {sh : Shape} {x : Operands} (p : Program sh x)

/-- Operands that fit are left as they were written. -/
theorem value_leaves (hfits : sh.Fits) (hsh : sh.Accepted) (hx : sh.Has x) : sh.value p.leaves = sh.value x := by
  have hapart := Shape.regions_apart hfits hsh hx
  have hleft {off n : ℕ} {b : Bytes} (hr : (off, b) ∈ sh.regions x) (hb : b.length = n) : p.left off n = b := by
    rw [← hb]
    refine unpack_layAll (p.regions_perm.mem_iff.mpr hr) fun r' hr' hne j hj => ?_
    have h := hapart.forall hr (p.regions_perm.mem_iff.mp hr') hne.symm
    exact h.not_covers hj
  refine Shape.value_congr (hleft List.mem_cons_self hx.op1)
    (hleft (List.mem_cons_of_mem _ List.mem_cons_self) hx.op2) fun h => ?_
  obtain ⟨off, hoff⟩ := Option.isSome_iff_exists.mp h
  have hmem : (off, x.modulus) ∈ sh.regions x := by
    rw [Shape.regions, hoff]
    exact List.mem_cons_of_mem _ (List.mem_cons_of_mem _ (List.mem_singleton_self _))
  simp only [leaves, hoff, Option.elim_some]
  exact hleft hmem (hx.modulus h)

end Program

/-! ### Operands that reach into the next slot -/

/-- The value of CR that starts an operation. -/
def startCr (op : Operation) : UInt32 := crEn ||| crStart ||| (op.mode <<< crModeShift)

theorem startCr_spec (op : Operation) : startCr op &&& crEn ≠ 0 ∧ startCr op &&& crStart ≠ 0 ∧
    (startCr op &&& crModeMask) >>> crModeShift = op.mode := by
  rcases op with op | op | mode
  · cases op <;> decide
  · cases op <;> decide
  · cases mode <;> decide

namespace Program

variable {sh : Shape} {x : Operands}

/-- The program that writes the operands in a given order. -/
def inOrder (sh : Shape) (x : Operands) (regions : List (ℕ × Bytes)) (h : regions.Perm (sh.regions x)) :
    Program sh x where
  sizes := sh.sizes
  sizes_perm := .refl _
  regions := regions
  regions_perm := h
  cr := startCr sh.operation
  enabled := (startCr_spec _).1
  started := (startCr_spec _).2.1
  mode := (startCr_spec _).2.2

/-- An operand slot has 132 words. -/
def slot : ℕ := (2 ^ 32) ^ 132

theorem slot_lt {c n : ℕ} (hc : c < 256) (hn : 528 < n) : c * slot < 256 ^ n := by
  have hslot : slot = 256 ^ 528 := (Nat.pow_mul 256 4 132).symm
  have hle : 256 ^ (528 + 1) ≤ 256 ^ n := Nat.pow_le_pow_right (by decide) hn
  have hpos : 0 < 256 ^ 528 := Nat.pow_pos (by decide)
  rw [pow_succ] at hle
  rw [hslot]
  exact lt_of_lt_of_le (by rw [Nat.mul_comm]; exact Nat.mul_lt_mul_of_pos_left hc hpos) hle

/-- Two slots are more than an operand has. -/
theorem mod_slot_slot {a c n : ℕ} (ha : a < 256 ^ n) (hn : n ≤ 1024) : (a + c * slot * slot) % 256 ^ n = a := by
  have hslot : slot * slot = 256 ^ 1056 := by
    rw [slot, ← pow_add]
    exact (Nat.pow_mul 256 4 264).symm
  obtain ⟨d, hd⟩ : 256 ^ n ∣ slot * slot := by
    rw [hslot]
    exact pow_dvd_pow 256 (by omega)
  rw [Nat.mul_assoc, hd, Nat.mul_left_comm, Nat.add_mul_mod_self_left, Nat.mod_eq_of_lt ha]

theorem one_lt_slot : 1 < slot := Nat.one_lt_pow (by decide) (by decide)

/-- One byte is enough for the small operands. -/
theorem one_lt {n : ℕ} (h : 1 ≤ n) {c : ℕ} (hc : c < 256) : c < 256 ^ n :=
  lt_of_lt_of_le hc (Nat.le_self_pow (by omega) 256)

/-- The value of an operand whose upper words the next one has been written over. -/
theorem left_spill {p : Program sh x} {off n m a b : ℕ} (before after : List (ℕ × Bytes))
    (hp : p.regions = before ++ (off, toBe n a) :: (off + 132, toBe m b) :: after) (ha : a < 256 ^ n) (hslot : a < slot)
    (hb : b < 256 ^ m) (hafter : ∀ r ∈ after, ∀ k < limbCount n, ¬ Covers r.1 r.2 (off + k)) :
    ofBe (p.left off n) = (a + b * slot) % 256 ^ n := by
  rw [left, hp, unpack_congr fun k hk => layAll_spill ha hslot hb hafter hk, unpack_limbOf, ofBe_toBe, slot]

/-- The value of an operand that no later one meets. -/
theorem left_last {p : Program sh x} {off n a : ℕ} (before after : List (ℕ × Bytes))
    (hp : p.regions = before ++ (off, toBe n a) :: after) (ha : a < 256 ^ n)
    (hafter : ∀ r ∈ after, ∀ k < limbCount n, ¬ Covers r.1 r.2 (off + k)) : ofBe (p.left off n) = a := by
  have hlast : unpack (fun k => layAll (fun _ => 0) (before ++ (off, toBe n a) :: after) (off + k)) (toBe n a).length =
      toBe n a := unpack_layAll_last (by rwa [toBe_length])
  rw [toBe_length] at hlast
  rw [left, hp, hlast, ofBe_toBe, Nat.mod_eq_of_lt ha]

/-- A region that ends before another one, or starts behind it, does not meet it. -/
theorem apart {off n : ℕ} {b : Bytes} (start : ℕ) (h : off + limbCount n ≤ start ∨ start + limbCount b.length ≤ off) :
    ∀ r ∈ [(start, b)], ∀ k < limbCount n, ¬ Covers r.1 r.2 (off + k) := by
  intro r hr k hk
  obtain rfl := List.mem_singleton.mp hr
  rw [Covers]
  dsimp only
  omega

/-- A zero that a one in the next slot has been written over. -/
theorem left_zero_one {p : Program sh x} {off n m : ℕ} (before after : List (ℕ × Bytes))
    (hp : p.regions = before ++ (off, toBe n 0) :: (off + 132, toBe m 1) :: after) (hn : 528 < n) (hm : 1 ≤ m)
    (hafter : ∀ r ∈ after, ∀ k < limbCount n, ¬ Covers r.1 r.2 (off + k)) : ofBe (p.left off n) = slot := by
  have hslot : 1 * slot < 256 ^ n := slot_lt (by decide) hn
  have hpos : 0 < slot := Nat.zero_lt_one.trans one_lt_slot
  have h1 : 1 < 256 ^ m := one_lt hm (by decide)
  rw [left_spill before after hp (by omega) hpos h1 hafter, Nat.zero_add, Nat.mod_eq_of_lt hslot, Nat.one_mul]

end Program

namespace Shape

open Program

section Clash

variable {opBits expBits : ℕ}

/-- The operands 0 and 1, with the modulus 2 slots. -/
def zeroOne (n m : ℕ) : Operands := ⟨toBe n 0, toBe m 1, toBe n (2 * slot)⟩

/-- The operands 2 and 0, with the modulus 4. -/
def twoZero (n m : ℕ) : Operands := ⟨toBe n 2, toBe m 0, toBe n 4⟩

theorem zeroOne_has {sh : Shape} (h : 528 < sh.opBytes) :
    sh.Has (zeroOne sh.opBytes sh.op2Bytes) where
  op1 := toBe_length _ _
  op2 := toBe_length _ _
  modulus _ := toBe_length _ _
  positive _ := by
    have hslot := one_lt_slot
    rw [zeroOne, ofBe_toBe, Nat.mod_eq_of_lt (slot_lt (by decide) h)]
    omega

theorem twoZero_has {sh : Shape} (hsh : sh.Accepted) : sh.Has (twoZero sh.opBytes sh.op2Bytes) where
  op1 := toBe_length _ _
  op2 := toBe_length _ _
  modulus _ := toBe_length _ _
  positive _ := by
    rw [twoZero, ofBe_toBe, Nat.mod_eq_of_lt (one_lt hsh.1 (by decide))]
    decide

/-- There are operands, and an order to write them in, for which the result is another one. -/
def Spoilable (sh : Shape) : Prop := ∃ x, sh.Has x ∧ ∃ p : Program sh x, sh.value p.leaves ≠ sh.value x

/-- The second operand is written over the first. -/
theorem arithmetic_spoiled (op : ArithOp) (hsh : Accepted ⟨.arithmetic op, opBits, expBits⟩)
    (h : 528 < (opBits + 7) / 8) :
    value ⟨.arithmetic op, opBits, expBits⟩ (inOrder ⟨.arithmetic op, opBits, expBits⟩
      (zeroOne ((opBits + 7) / 8) ((opBits + 7) / 8)) _ (.refl _)).leaves ≠
    value ⟨.arithmetic op, opBits, expBits⟩ (zeroOne ((opBits + 7) / 8) ((opBits + 7) / 8)) := by
  set n := (opBits + 7) / 8 with hn
  set p := inOrder ⟨.arithmetic op, opBits, expBits⟩ (zeroOne n n) _ (.refl _) with hp
  have hslot := one_lt_slot
  have h1 : 1 < 256 ^ n := one_lt (by omega) (by decide)
  have hop1 : ofBe (p.left 0x86 n) = slot := left_zero_one [] [] rfl h (by omega) (by simp)
  have hop2 : ofBe (p.left 0x10A n) = 1 := left_last [_] [] rfl h1 (by simp)
  change (Operation.arithmetic op).value (ofBe (p.left 0x86 n)) (ofBe (p.left 0x10A n)) _ ≠
    (Operation.arithmetic op).value (ofBe (toBe n 0)) (ofBe (toBe n 1)) _
  rw [hop1, hop2, ofBe_toBe, ofBe_toBe, Nat.zero_mod, Nat.mod_eq_of_lt h1]
  cases op with
  | add =>
    change slot + 1 ≠ 0 + 1
    omega
  | sub =>
    change slot - 1 ≠ 0 - 1
    omega
  | mul =>
    change slot * 1 ≠ 0 * 1
    omega

theorem arithmetic_clash (op : ArithOp) (hsh : Accepted ⟨.arithmetic op, opBits, expBits⟩)
    (h : 528 < (opBits + 7) / 8) : Spoilable ⟨.arithmetic op, opBits, expBits⟩ :=
  ⟨_, zeroOne_has h, _, arithmetic_spoiled op hsh h⟩

theorem modular_clash (op : ArithOp) (hsh : Accepted ⟨.modular op, opBits, expBits⟩)
    (h : 528 < (opBits + 7) / 8) : Spoilable ⟨.modular op, opBits, expBits⟩ := by
  refine ⟨_, zeroOne_has h, inOrder _ _ _ (.refl _), ?_⟩
  set n := (opBits + 7) / 8 with hn
  set p := inOrder ⟨.modular op, opBits, expBits⟩ (zeroOne n n) _ (.refl _) with hp
  have hmax : n ≤ 1024 := hsh.2.1
  have hslot := one_lt_slot
  have h1 : 1 < 256 ^ n := one_lt (by omega) (by decide)
  have htwo : 2 * slot < 256 ^ n := slot_lt (by decide) h
  have hop1 : ofBe (p.left 0x86 n) = slot :=
    left_zero_one [] _ rfl h (by omega) (apart 0x322 (.inl (by rw [limbCount]; omega)))
  have hop2 : ofBe (p.left 0x10A n) = 1 := left_last [_] _ rfl h1 (apart 0x322 (.inl (by rw [limbCount]; omega)))
  have hmod : ofBe (p.left 0x322 n) = 2 * slot := left_last [_, _] [] rfl htwo (by simp)
  change (Operation.modular op).value (ofBe (p.left 0x86 n)) (ofBe (p.left 0x10A n)) (ofBe (p.left 0x322 n)) ≠
    (Operation.modular op).value (ofBe (toBe n 0)) (ofBe (toBe n 1)) (ofBe (toBe n (2 * slot)))
  rw [hop1, hop2, hmod, ofBe_toBe, ofBe_toBe, ofBe_toBe, Nat.zero_mod, Nat.mod_eq_of_lt h1, Nat.mod_eq_of_lt htwo]
  have hne : 2 * slot ≠ 0 := by omega
  cases op with
  | add =>
    change (if 2 * slot = 0 then 0 else (slot + 1) % (2 * slot)) ≠ if 2 * slot = 0 then 0 else (0 + 1) % (2 * slot)
    rw [if_neg hne, if_neg hne, Nat.mod_eq_of_lt (by omega), Nat.mod_eq_of_lt (by omega)]
    omega
  | sub =>
    change (if 2 * slot = 0 then 0 else (((slot : ℕ) - (1 : ℕ) : ℤ) % (2 * slot : ℕ)).toNat) ≠
      if 2 * slot = 0 then 0 else (((0 : ℕ) - (1 : ℕ) : ℤ) % (2 * slot : ℕ)).toNat
    have hleft : ((slot : ℤ) - 1) % (2 * slot) = slot - 1 := Int.emod_eq_of_lt (by omega) (by omega)
    have hright : (-1 : ℤ) % (2 * slot) = 2 * slot - 1 := by
      rw [← Int.add_emod_right]
      exact (Int.emod_eq_of_lt (by omega) (by omega)).trans (by omega)
    rw [if_neg hne, if_neg hne]
    push_cast
    rw [hleft, hright]
    omega
  | mul =>
    change (if 2 * slot = 0 then 0 else slot * 1 % (2 * slot)) ≠ if 2 * slot = 0 then 0 else 0 * 1 % (2 * slot)
    rw [if_neg hne, if_neg hne, Nat.mod_eq_of_lt (by omega), Nat.mod_eq_of_lt (by omega)]
    omega

/-- The next number is the base, or the modulus: it does not matter by which the exponent is spoiled. -/
theorem pow_spoiled {c : ℕ} (hc : 2 ≤ c) : 2 ^ (c * slot) % 4 = 0 := by
  have hslot := one_lt_slot
  have hle : 2 ≤ c * slot := (Nat.mul_le_mul hc hslot.le).trans' (by decide)
  exact Nat.mod_eq_zero_of_dvd (pow_dvd_pow 2 hle)

/-- The value that an exponentiation works with. -/
theorem value_modExp {mode : ExpMode} {x : Operands} (p : Program ⟨.modExp mode, opBits, expBits⟩ x)
    {base exp modulus : ℕ}
    (hbase : (Operation.modExp mode).op1At = base) (hexp : (Operation.modExp mode).op2At = exp)
    (hmod : (Operation.modExp mode).modulusAt = some modulus) {a b n : ℕ}
    (ha : ofBe (p.left base ((opBits + 7) / 8)) = a) (hb : ofBe (p.left exp ((expBits + 7) / 8)) = b)
    (hn : ofBe (p.left modulus ((opBits + 7) / 8)) = n) (h0 : n ≠ 0) :
    value ⟨.modExp mode, opBits, expBits⟩ p.leaves = a ^ b % n := by
  subst ha hb hn hbase hexp
  have hm : p.leaves.modulus = p.left modulus ((opBits + 7) / 8) := by
    simp only [leaves, hmod, Option.elim_some]
    rfl
  change (if ofBe p.leaves.modulus = 0 then 0 else _ % ofBe p.leaves.modulus) = _
  rw [hm, if_neg h0]
  rfl

theorem value_modExp_toBe {mode : ExpMode} {n m a b c : ℕ} (ha : a < 256 ^ n) (hb : b < 256 ^ m) (hc : c < 256 ^ n)
    (h0 : c ≠ 0) :
    value ⟨.modExp mode, opBits, expBits⟩ ⟨toBe n a, toBe m b, toBe n c⟩ = a ^ b % c := by
  change (if ofBe (toBe n c) = 0 then 0 else ofBe (toBe n a) ^ ofBe (toBe m b) % ofBe (toBe n c)) = _
  rw [ofBe_toBe, ofBe_toBe, ofBe_toBe, Nat.mod_eq_of_lt ha, Nat.mod_eq_of_lt hb, Nat.mod_eq_of_lt hc, if_neg h0]

/-- The offsets of the exponentiations that are not protected. -/
theorem unprotected {mode : ExpMode} (hm : mode ≠ .protect) : (Operation.modExp mode).op1At = 0x21A ∧
    (Operation.modExp mode).op2At = 0x29E ∧ (Operation.modExp mode).modulusAt = some 0x322 := by
  cases mode with
  | normal => exact ⟨rfl, rfl, rfl⟩
  | fast => exact ⟨rfl, rfl, rfl⟩
  | protect => exact absurd rfl hm

theorem unprotected_regions {mode : ExpMode} (hm : mode ≠ .protect) (x : Operands) :
    regions ⟨.modExp mode, opBits, expBits⟩ x = [(0x21A, x.op1), (0x29E, x.op2), (0x322, x.modulus)] := by
  obtain ⟨hbase, hexp, hmod⟩ := unprotected hm
  rw [regions, hbase, hexp, hmod]
  rfl

/-- A base stays clear of the modulus. -/
theorem base_far {n : ℕ} {b : Bytes} (hn : n ≤ 1024) :
    ∀ r ∈ [(0x322, b)], ∀ k < limbCount n, ¬ Covers r.1 r.2 (0x21A + k) :=
  apart 0x322 (.inl (by rw [limbCount]; omega))

/-- The exponent is written over the base. -/
theorem base_clash {mode : ExpMode} (hm : mode ≠ .protect) (hsh : Accepted ⟨.modExp mode, opBits, expBits⟩)
    (h : 528 < (opBits + 7) / 8) : Spoilable ⟨.modExp mode, opBits, expBits⟩ := by
  obtain ⟨hbase, hexp, hmod⟩ := unprotected hm
  set n := (opBits + 7) / 8 with hnn
  set m := (expBits + 7) / 8 with hmm
  have hn : n ≤ 1024 := hsh.2.1
  have hm1 : 1 ≤ m := hsh.2.2.1
  have hm2 : m ≤ 1024 := hsh.2.2.2
  have hslot := one_lt_slot
  have h1 : 1 < 256 ^ m := one_lt hm1 (by decide)
  have htwo : 2 * slot < 256 ^ n := slot_lt (by decide) h
  let p : Program ⟨.modExp mode, opBits, expBits⟩ (zeroOne n m) := inOrder _ _ _ (.refl _)
  have hregions : p.regions = [(0x21A, toBe n 0), (0x29E, toBe m 1), (0x322, toBe n (2 * slot))] :=
    unprotected_regions hm _
  have hleft1 : ofBe (p.left 0x21A n) = slot := left_zero_one [] _ hregions h hm1 (base_far hn)
  have hleft2 : ofBe (p.left 0x29E m) = 1 := by
    rw [left_spill [_] [] hregions h1 hslot htwo (by simp), mod_slot_slot h1 hm2]
  have hleft3 : ofBe (p.left 0x322 n) = 2 * slot := left_last [_, _] [] hregions htwo (by simp)
  refine ⟨zeroOne n m, zeroOne_has h, p, ?_⟩
  rw [value_modExp p hbase hexp hmod hleft1 hleft2 hleft3 (by omega), zeroOne,
    value_modExp_toBe (by omega) h1 htwo (by omega), pow_one, pow_one, Nat.zero_mod, Nat.mod_eq_of_lt (by omega)]
  omega

/-- The modulus is written over the exponent. -/
theorem exponent_clash {mode : ExpMode} (hm : mode ≠ .protect) (hsh : Accepted ⟨.modExp mode, opBits, expBits⟩)
    (h : 528 < (expBits + 7) / 8) : Spoilable ⟨.modExp mode, opBits, expBits⟩ := by
  obtain ⟨hbase, hexp, hmod⟩ := unprotected hm
  set n := (opBits + 7) / 8 with hnn
  set m := (expBits + 7) / 8 with hmm
  have hn1 : 1 ≤ n := hsh.1
  have hn : n ≤ 1024 := hsh.2.1
  have hslot := one_lt_slot
  have h0 : 0 < 256 ^ m := Nat.pow_pos (by decide)
  have h2 : 2 < 256 ^ n := one_lt hn1 (by decide)
  have h4 : 4 < 256 ^ n := one_lt hn1 (by decide)
  have h2' : 2 < slot := (show 2 < 2 ^ 32 by decide).trans_le (Nat.le_self_pow (by decide) _)
  let p : Program ⟨.modExp mode, opBits, expBits⟩ (twoZero n m) := inOrder _ _ _ (.refl _)
  have hregions : p.regions = [(0x21A, toBe n 2), (0x29E, toBe m 0), (0x322, toBe n 4)] := unprotected_regions hm _
  have hleft1 : ofBe (p.left 0x21A n) = 2 := by
    rw [left_spill [] _ hregions h2 h2' h0 (base_far hn), Nat.zero_mul, Nat.add_zero, Nat.mod_eq_of_lt h2]
  have hleft2 : ofBe (p.left 0x29E m) = 4 * slot := by
    rw [left_spill [_] [] hregions h0 (by omega) h4 (by simp), Nat.zero_add,
      Nat.mod_eq_of_lt (slot_lt (by decide) h)]
  have hleft3 : ofBe (p.left 0x322 n) = 4 := left_last [_, _] [] hregions h4 (by simp)
  refine ⟨twoZero n m, twoZero_has hsh, p, ?_⟩
  rw [value_modExp p hbase hexp hmod hleft1 hleft2 hleft3 (by decide), twoZero,
    value_modExp_toBe h2 h0 h4 (by decide), pow_spoiled (by decide), pow_zero]
  decide

/-- The base is written over the exponent. -/
theorem protect_clash (hsh : Accepted ⟨.modExp .protect, opBits, expBits⟩) (h : 528 < (expBits + 7) / 8) :
    Spoilable ⟨.modExp .protect, opBits, expBits⟩ := by
  set n := (opBits + 7) / 8 with hnn
  set m := (expBits + 7) / 8 with hmm
  have hn1 : 1 ≤ n := hsh.1
  have hn : n ≤ 1024 := hsh.2.1
  have hslot := one_lt_slot
  have h0 : 0 < 256 ^ m := Nat.pow_pos (by decide)
  have h2 : 2 < 256 ^ n := one_lt hn1 (by decide)
  have h4 : 4 < 256 ^ n := one_lt hn1 (by decide)
  have hswap : [(0x42E, toBe m 0), (0x4B2, toBe n 2), (0x10E, toBe n 4)].Perm
      (regions ⟨.modExp .protect, opBits, expBits⟩ (twoZero n m)) := List.Perm.swap _ _ _
  let p : Program ⟨.modExp .protect, opBits, expBits⟩ (twoZero n m) := inOrder _ _ _ hswap
  have hlimbs : limbCount (toBe n 4).length ≤ 256 := by
    rw [toBe_length, limbCount]
    omega
  have hleft1 : ofBe (p.left 0x4B2 n) = 2 := left_last [_] _ rfl h2 (apart 0x10E (.inr (by omega)))
  have hleft2 : ofBe (p.left 0x42E m) = 2 * slot := by
    have hspill := left_spill (p := p) [] _ rfl h0 (by omega) h2 (apart 0x10E (.inr (by omega)))
    exact hspill.trans (by rw [Nat.zero_add, Nat.mod_eq_of_lt (slot_lt (by decide) h)])
  have hleft3 : ofBe (p.left 0x10E n) = 4 := left_last [_, _] [] rfl h4 (by simp)
  refine ⟨twoZero n m, twoZero_has hsh, p, ?_⟩
  rw [value_modExp p rfl rfl rfl hleft1 hleft2 hleft3 (by decide), twoZero,
    value_modExp_toBe h2 h0 h4 (by decide), pow_spoiled le_rfl, pow_zero]
  decide

/-- Operands that do not fit are spoiled in some order. -/
theorem exists_clash {sh : Shape} (hsh : sh.Accepted) (h : ¬ sh.Fits) : Spoilable sh := by
  obtain ⟨op, opBits, expBits⟩ := sh
  cases op with
  | arithmetic op => exact arithmetic_clash op hsh (not_le.mp h)
  | modular op => exact modular_clash op hsh (not_le.mp h)
  | modExp mode =>
    by_cases hm : mode = .protect
    · subst hm
      exact protect_clash hsh (not_le.mp h)
    · have hfits : Fits ⟨.modExp mode, opBits, expBits⟩ ↔ (opBits + 7) / 8 ≤ 528 ∧ (expBits + 7) / 8 ≤ 528 := by
        cases mode with
        | normal => exact Iff.rfl
        | fast => exact Iff.rfl
        | protect => exact absurd rfl hm
      rw [hfits, not_and_or, not_le, not_le] at h
      rcases h with h | h
      · exact base_clash hm hsh h
      · exact exponent_clash hm hsh h

end Clash

end Shape

/-! ### The results -/

/-- A run of the firmware reports its result, unless an operand written later
has changed it; and all runs of a shape do exactly if its operands fit. -/
theorem reports_iff (C : Crates) (sh : Shape) (hsh : sh.Accepted) :
    (∀ s x, sh.Has x → ∀ p : Program sh x,
      (Reports sh x (run C s p.accesses) ↔ s.sr &&& srRamerr ≠ 0 ∨ sh.value p.leaves = sh.value x)) ∧
    ((∀ s x, sh.Has x → ∀ p : Program sh x, Reports sh x (run C s p.accesses)) ↔ sh.Fits) := by
  refine ⟨fun s x hx p => p.reports_run_iff C s hsh hx, fun h => ?_, fun hfits s x hx p => ?_⟩
  · by_contra hfits
    obtain ⟨x, hx, p, hne⟩ := Shape.exists_clash hsh hfits
    rcases (p.reports_run_iff C .new hsh hx).mp (h .new x hx p) with hram | heq
    · exact hram rfl
    · exact hne heq
  · exact (p.reports_run_iff C s hsh hx).mpr (.inr (p.value_leaves hfits hsh hx))

/-- The crates are not called. -/
def noCurves : Crates := ⟨fun _ _ _ _ => none, fun _ _ _ _ _ _ => false⟩

/-- Operands of four bytes. -/
def smallExp : Shape := ⟨.modExp .normal, 32, 32⟩

def smallOperands : Operands := ⟨[0, 0, 0, 3], [0, 0, 0, 7], [0, 0, 0, 100]⟩

theorem smallExp_accepted : smallExp.Accepted := ⟨by decide, by decide, by decide, by decide⟩

theorem smallOperands_has : smallExp.Has smallOperands := ⟨rfl, rfl, fun _ => rfl, fun _ => by decide⟩

theorem smallExp_reported : smallExp.value smallOperands = 87 ∧ Reports smallExp smallOperands
    (run noCurves .new (Program.inOrder smallExp smallOperands _ (.refl _)).accesses) := by
  refine ⟨by decide, ?_⟩
  have hfits : smallExp.Fits := ⟨by decide, by decide⟩
  exact (reports_iff noCurves smallExp smallExp_accepted).2.mpr hfits .new smallOperands smallOperands_has _

/-- 0 + 1 in operands of 532 bytes. -/
def longAdd : Shape := ⟨.arithmetic .add, 4256, 0⟩

theorem longAdd_accepted : longAdd.Accepted := ⟨by decide, by decide, by decide, by decide⟩

/-- The one in the lowest word of the second operand is read as the highest of the first. -/
theorem longAdd_wrong : longAdd.Accepted ∧ longAdd.Has (Shape.zeroOne 532 532) ∧
    ¬ Reports longAdd (Shape.zeroOne 532 532)
      (run noCurves .new (Program.inOrder longAdd (Shape.zeroOne 532 532) _ (.refl _)).accesses) := by
  have hhas : longAdd.Has (Shape.zeroOne 532 532) := Shape.zeroOne_has (by decide)
  refine ⟨longAdd_accepted, hhas, fun h => ?_⟩
  rcases (Program.reports_run_iff _ noCurves .new longAdd_accepted hhas).mp h with hram | heq
  · exact hram rfl
  · exact Shape.arithmetic_spoiled .add longAdd_accepted (by decide) heq

end Pka
end STM32
end Simulators

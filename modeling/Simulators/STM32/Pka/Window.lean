/-
# STM32 PKA v2: the RAM as words

The RAM is read and written by words, so a run of writes leaves the words as
`lay` says: one word through the window, a whole operand by the peripheral or
by the firmware. The registers are not part of it.
-/
import Simulators.STM32.Pka.V2

namespace Simulators
namespace STM32
namespace Pka
namespace PkaV2

/-- The words of the RAM. -/
def ramWords : ℕ := 1792

section Words

variable (s : PkaV2) {j : ℕ} (v : UInt32)

@[simp] theorem ramWrite_cr (byte : ℕ) : (s.ramWrite byte v).cr = s.cr := by
  unfold ramWrite
  split <;> rfl

@[simp] theorem ramWrite_sr (byte : ℕ) : (s.ramWrite byte v).sr = s.sr := by
  unfold ramWrite
  split <;> rfl

@[simp] theorem writeWord_cr : (s.writeWord j v).cr = s.cr := ramWrite_cr s v _

@[simp] theorem writeWord_sr : (s.writeWord j v).sr = s.sr := ramWrite_sr s v _

theorem readWord_of_le {i : ℕ} (h : ramWords ≤ i) : s.readWord i = 0 := by
  have hsize : i * 4 + 4 > ramSizeBytes := by
    rw [ramSizeBytes]
    rw [ramWords] at h
    omega
  rw [readWord, ramRead, if_pos hsize]

theorem readWord_of_lt {i : ℕ} (h : i < ramWords) : s.readWord i = leWord ((s.ram.bytes.drop (i * 4)).take 4) := by
  have hsize : ¬ i * 4 + 4 > ramSizeBytes := by
    rw [ramSizeBytes]
    rw [ramWords] at h
    omega
  rw [readWord, ramRead, if_neg hsize]

theorem readWord_writeWord (hj : j < ramWords) : (s.writeWord j v).readWord = Function.update s.readWord j v := by
  have hfit : j * 4 + 4 ≤ ramSizeBytes := by
    rw [ramSizeBytes]
    rw [ramWords] at hj
    omega
  have hram : (s.writeWord j v).ram.bytes = splice s.ram.bytes (j * 4) (leBytes v) := by
    rw [writeWord, ramWrite, dif_pos hfit]
  have hin : j * 4 + (leBytes v).length ≤ s.ram.bytes.length := by
    rw [s.ram.size, leBytes_length]
    exact hfit
  funext i
  by_cases hi : i < ramWords
  · rw [readWord_of_lt _ hi, hram]
    by_cases hij : i = j
    · subst hij
      have hsame := splice_slice_same hin
      rw [leBytes_length] at hsame
      rw [hsame, leWord_leBytes, Function.update_self]
    · have hapart : i * 4 + 4 ≤ j * 4 ∨ j * 4 + (leBytes v).length ≤ i * 4 := by
        rw [leBytes_length]
        omega
      rw [splice_slice_apart hin hapart, Function.update_of_ne hij, readWord_of_lt _ hi]
  · have hij : i ≠ j := by omega
    rw [readWord_of_le _ (by omega), Function.update_of_ne hij, readWord_of_le _ (by omega)]

end Words

/-! ### Runs of words -/

/-- Words written one after the other. -/
def storeAll (s : PkaV2) (ws : List (ℕ × UInt32)) : PkaV2 := ws.foldl (fun s w => s.writeWord w.1 w.2) s

section StoreAll

variable (s : PkaV2) {ws : List (ℕ × UInt32)}

@[simp] theorem storeAll_cr : (s.storeAll ws).cr = s.cr := by
  induction ws generalizing s with
  | nil => rfl
  | cons w ws ih => exact (ih _).trans (writeWord_cr s w.2)

@[simp] theorem storeAll_sr : (s.storeAll ws).sr = s.sr := by
  induction ws generalizing s with
  | nil => rfl
  | cons w ws ih => exact (ih _).trans (writeWord_sr s w.2)

theorem readWord_storeAll (h : ∀ w ∈ ws, w.1 < ramWords) : (s.storeAll ws).readWord = lay s.readWord ws := by
  induction ws generalizing s with
  | nil => rfl
  | cons w ws ih =>
    have hw := readWord_writeWord s w.2 (h w List.mem_cons_self)
    rw [lay, ← hw]
    exact ih _ fun w' hw' => h w' (List.mem_cons_of_mem _ hw')

end StoreAll

/-! ### Operands -/

/-- The whole words of a byte string, and what is left over at its high end. -/
theorem region_eq (off : ℕ) (b : Bytes) : region off b =
    ((List.range (b.length / 4)).map fun k => (off + k, beWord ((b.drop (b.length - 4 - k * 4)).take 4))) ++
      if b.length % 4 > 0 then [(off + b.length / 4, beWord (b.take (b.length % 4)))] else [] := by
  have hfull : (List.range (b.length / 4)).map (fun k => (off + k, wordOf b k)) =
      (List.range (b.length / 4)).map fun k => (off + k, beWord ((b.drop (b.length - 4 - k * 4)).take 4)) := by
    apply List.map_congr_left
    intro k hk
    rw [wordOf, if_pos (List.mem_range.mp hk), Nat.mul_comm]
  rw [region, ← hfull]
  by_cases hrem : b.length % 4 > 0
  · have hcount : limbCount b.length = b.length / 4 + 1 := by
      rw [limbCount]
      omega
    rw [if_pos hrem, hcount, List.range_succ, List.map_append, List.map_singleton, wordOf, if_neg (lt_irrefl _)]
  · have hcount : limbCount b.length = b.length / 4 := by
      rw [limbCount]
      omega
    rw [if_neg hrem, hcount, List.append_nil]

theorem writeOperandBe_eq (s : PkaV2) (wordIdx : ℕ) (data : Bytes) :
    s.writeOperandBe wordIdx data = s.storeAll (region wordIdx data) := by
  rw [region_eq, storeAll, List.foldl_append, List.foldl_map, writeOperandBe]
  by_cases hrem : data.length % 4 > 0
  · rw [if_pos hrem, if_pos hrem]
    rfl
  · rw [if_neg hrem, if_neg hrem]
    rfl

theorem mem_region {off : ℕ} {b : Bytes} {w : ℕ × UInt32} (h : w ∈ region off b) :
    off ≤ w.1 ∧ w.1 < off + limbCount b.length := by
  obtain ⟨k, hk, rfl⟩ := List.mem_map.mp h
  rw [List.mem_range] at hk
  exact ⟨Nat.le_add_right _ _, by omega⟩

/-- What the peripheral leaves when it has written a result. -/
theorem readWord_writeOperandBe (s : PkaV2) {wordIdx : ℕ} {data : Bytes}
    (h : wordIdx + limbCount data.length ≤ ramWords) :
    (s.writeOperandBe wordIdx data).readWord = lay s.readWord (region wordIdx data) := by
  rw [writeOperandBe_eq]
  exact readWord_storeAll s fun w hw => lt_of_lt_of_le (mem_region hw).2 h

/-! ### The window -/

/-- The offset of a word of the RAM. -/
def windowOffset (j : ℕ) : UInt32 := ramBase + UInt32.ofNat (4 * j)

theorem windowOffset_toNat {j : ℕ} (h : j < ramWords) : (windowOffset j).toNat = 0x400 + 4 * j := by
  rw [ramWords] at h
  have hbase : ramBase.toNat = 0x400 := rfl
  rw [windowOffset, UInt32.toNat_add, UInt32.toNat_ofNat', hbase]
  omega

theorem window_sub {j : ℕ} (h : j < ramWords) : (windowOffset j - ramBase).toNat = j * 4 := by
  have hj := windowOffset_toNat h
  have hbase : ramBase.toNat = 0x400 := rfl
  have hle : ramBase ≤ windowOffset j := by
    rw [UInt32.le_iff_toNat_le]
    omega
  rw [UInt32.toNat_sub_of_le _ _ hle, hj, hbase]
  omega

theorem window_inside {j : ℕ} (h : j < ramWords) :
    windowOffset j ≠ Pka.cr ∧ windowOffset j ≠ Pka.sr ∧ windowOffset j ≠ clrfr ∧
      ramBase ≤ windowOffset j ∧ windowOffset j < ramBase + UInt32.ofNat ramSizeBytes := by
  have hj := windowOffset_toNat h
  have hne {o : UInt32} (ho : o.toNat < 0x400) : windowOffset j ≠ o := by
    rintro rfl
    omega
  refine ⟨hne (by decide), hne (by decide), hne (by decide), ?_, ?_⟩
  · rw [UInt32.le_iff_toNat_le, hj]
    exact Nat.le_add_right _ _
  · rw [UInt32.lt_iff_toNat_lt, hj, show (ramBase + UInt32.ofNat ramSizeBytes).toNat = 0x2000 from rfl]
    rw [ramWords] at h
    omega

theorem write_window (C : Crates) (s : PkaV2) {j : ℕ} (h : j < ramWords) (v : UInt32) :
    s.write C (windowOffset j) v = s.writeWord j v := by
  obtain ⟨hcr, -, hclr, hin⟩ := window_inside h
  rw [write, if_neg hcr, if_neg hclr, if_pos hin, window_sub h, writeWord]

theorem read_window (s : PkaV2) {j : ℕ} (h : j < ramWords) : s.read (windowOffset j) = s.readWord j := by
  obtain ⟨hcr, hsr, -, hin⟩ := window_inside h
  rw [read, if_neg hcr, if_neg hsr, if_pos hin, window_sub h, readWord]

/-- The firmware's writes of words. -/
def stores (ws : List (ℕ × UInt32)) : List Access := ws.map fun w => .write (windowOffset w.1) w.2

theorem run_stores (C : Crates) (s : PkaV2) {ws : List (ℕ × UInt32)} (h : ∀ w ∈ ws, w.1 < ramWords) :
    run C s (stores ws) = s.storeAll ws := by
  induction ws generalizing s with
  | nil => rfl
  | cons w ws ih =>
    have hw : access C s (.write (windowOffset w.1) w.2) = s.writeWord w.1 w.2 :=
      write_window C s (h w List.mem_cons_self) w.2
    rw [stores, List.map_cons, run, List.foldl_cons, hw]
    exact ih _ fun w' hw' => h w' (List.mem_cons_of_mem _ hw')

end PkaV2
end Pka
end STM32
end Simulators

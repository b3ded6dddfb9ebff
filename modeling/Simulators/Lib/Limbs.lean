/-
# Byte strings as limbs in a memory of words

A big-endian byte string is kept as words of 32 bits, the lowest first; the
highest word may be short. Word `k` of it is word `k` of its value
(`wordOf_eq`), so words that carry a value are read back as its bytes
(`unpack_limbOf`).

Regions written one after the other may run into each other: a word then holds
what was written to it last (`lay`). A region that no other one meets is read
back as it was written, whatever the order (`unpack_lay`).

Key definitions: `wordOf`, `unpack`, `lay`, `region`.
-/
import Mathlib.Data.List.Perm.Basic
import Mathlib.Logic.Function.Basic
import Mathlib.Tactic.Ring
import Simulators.Lib.Words

namespace Simulators

/-- The words that hold `n` bytes. -/
def limbCount (n : ℕ) : ℕ := (n + 3) / 4

/-- Word `k` of a number. -/
def limbOf (v k : ℕ) : UInt32 := UInt32.ofNat (v / (2 ^ 32) ^ k)

/-- Word `k` of a byte string. -/
def wordOf (b : Bytes) (k : ℕ) : UInt32 :=
  if k < b.length / 4 then beWord ((b.drop (b.length - 4 - 4 * k)).take 4) else beWord (b.take (b.length % 4))

/-- The `n` bytes in the words `w`. -/
def unpack (w : ℕ → UInt32) (n : ℕ) : Bytes :=
  (beBytes (w (n / 4))).drop (4 - n % 4) ++ (List.range (n / 4)).reverse.flatMap fun k => beBytes (w k)

theorem toBe_take (m : ℕ) : ∀ n v : ℕ, (toBe (m + n) v).take m = toBe m (v / 256 ^ n)
  | 0, v => by
    rw [Nat.add_zero, Nat.pow_zero, Nat.div_one]
    exact List.take_of_length_le (Nat.le_of_eq (toBe_length m v))
  | n + 1, v => by
    have hlen : m ≤ (toBe (m + n) (v / 256)).length := by
      rw [toBe_length]
      exact Nat.le_add_right m n
    rw [← Nat.add_assoc, toBe, List.take_append_of_le_length hlen, toBe_take m n, Nat.div_div_eq_div_mul,
      ← Nat.pow_succ']

theorem toBe_add (m n v : ℕ) : toBe (m + n) v = toBe m (v / 256 ^ n) ++ toBe n v := by
  rw [← toBe_take, ← toBe_drop m n, List.take_append_drop]

theorem beWord_toBe (v : ℕ) : beWord (toBe 4 v) = UInt32.ofNat v := by
  apply UInt32.toNat_inj.mp
  rw [beWord, ofBe_toBe, UInt32.toNat_ofNat', UInt32.toNat_ofNat']
  exact Nat.mod_mod v (256 ^ 4)

theorem beBytes_ofNat (v : ℕ) : beBytes (UInt32.ofNat v) = toBe 4 v := by
  rw [beBytes, UInt32.toNat_ofNat']
  exact toBe_mod 4 v

/-! ### The words of a value -/

theorem wordOf_eq {b : Bytes} {k : ℕ} (h : k < limbCount b.length) : wordOf b k = limbOf (ofBe b) k := by
  have hpow : 256 ^ (4 * k) = (2 ^ 32) ^ k := Nat.pow_mul 256 4 k
  rw [limbCount] at h
  rw [wordOf, limbOf, ← hpow]
  by_cases hk : k < b.length / 4
  · have hlen : b.length = (b.length - 4 - 4 * k) + (4 + 4 * k) := by omega
    have hdrop : b.drop (b.length - 4 - 4 * k) = toBe (4 + 4 * k) (ofBe b) := by
      have h := toBe_drop (b.length - 4 - 4 * k) (4 + 4 * k) (ofBe b)
      rwa [← hlen, toBe_ofBe] at h
    rw [if_pos hk, hdrop, toBe_take, beWord_toBe]
  · have hlen : b.length = b.length % 4 + 4 * k := by omega
    have htake : b.take (b.length % 4) = toBe (b.length % 4) (ofBe b / 256 ^ (4 * k)) := by
      have h := toBe_take (b.length % 4) (4 * k) (ofBe b)
      rwa [← hlen, toBe_ofBe] at h
    have hlt : ofBe b / 256 ^ (4 * k) < 256 ^ (b.length % 4) := by
      apply Nat.div_lt_of_lt_mul
      rw [← Nat.pow_add, Nat.add_comm, ← hlen]
      exact ofBe_lt b
    rw [if_neg hk, htake, beWord, ofBe_toBe, Nat.mod_eq_of_lt hlt]

theorem unpack_add_four (w : ℕ → UInt32) (n : ℕ) :
    unpack w (n + 4) = unpack (fun k => w (k + 1)) n ++ beBytes (w 0) := by
  have hdiv : (n + 4) / 4 = n / 4 + 1 := by omega
  have hmod : (n + 4) % 4 = n % 4 := by omega
  rw [unpack, unpack, hdiv, hmod, List.range_succ_eq_map, List.reverse_cons, List.flatMap_append,
    List.flatMap_singleton,
    ← List.map_reverse, List.flatMap_map, List.append_assoc]

@[simp] theorem unpack_length (w : ℕ → UInt32) (n : ℕ) : (unpack w n).length = n := by
  induction n using Nat.strong_induction_on generalizing w with
  | _ n ih =>
    by_cases h : n < 4
    · have hdiv : n / 4 = 0 := Nat.div_eq_of_lt h
      rw [unpack, hdiv, Nat.mod_eq_of_lt h]
      simp
      omega
    · obtain ⟨m, rfl⟩ : ∃ m, n = m + 4 := ⟨n - 4, by omega⟩
      rw [unpack_add_four, List.length_append, ih m (by omega), beBytes_length]

/-- Only the words that hold the bytes count. -/
theorem unpack_congr {w w' : ℕ → UInt32} {n : ℕ} (h : ∀ k < limbCount n, w k = w' k) : unpack w n = unpack w' n := by
  induction n using Nat.strong_induction_on generalizing w w' with
  | _ n ih =>
    by_cases hn : n < 4
    · have hdiv : n / 4 = 0 := Nat.div_eq_of_lt hn
      by_cases h0 : n = 0
      · subst h0
        simp [unpack, List.drop_of_length_le]
      · have hw : w 0 = w' 0 := h 0 (by rw [limbCount]; omega)
        rw [unpack, unpack, hdiv, hw]
        rfl
    · obtain ⟨m, rfl⟩ : ∃ m, n = m + 4 := ⟨n - 4, by omega⟩
      have hw : w 0 = w' 0 := h 0 (by rw [limbCount]; omega)
      have htail : unpack (fun k => w (k + 1)) m = unpack (fun k => w' (k + 1)) m := by
        refine ih m (by omega) fun k hk => h (k + 1) ?_
        rw [limbCount] at hk ⊢
        omega
      rw [unpack_add_four, unpack_add_four, hw, htail]

/-- The words of a number carry its lowest bytes. -/
theorem unpack_limbOf (v n : ℕ) : unpack (limbOf v) n = toBe n v := by
  induction n using Nat.strong_induction_on generalizing v with
  | _ n ih =>
    by_cases hn : n < 4
    · have hdiv : n / 4 = 0 := Nat.div_eq_of_lt hn
      have hdrop := toBe_drop (4 - n) n v
      rw [Nat.sub_add_cancel hn.le] at hdrop
      rw [unpack, hdiv, Nat.mod_eq_of_lt hn, limbOf, pow_zero, Nat.div_one, beBytes_ofNat, hdrop]
      exact List.append_nil _
    · obtain ⟨m, rfl⟩ : ∃ m, n = m + 4 := ⟨n - 4, by omega⟩
      have hshift : (fun k => limbOf v (k + 1)) = limbOf (v / 256 ^ 4) := by
        funext k
        rw [limbOf, limbOf, Nat.div_div_eq_div_mul, pow_succ']
        rfl
      rw [unpack_add_four, hshift, ih m (by omega), limbOf, pow_zero, Nat.div_one, beBytes_ofNat, ← toBe_add]

theorem unpack_wordOf (b : Bytes) : unpack (wordOf b) b.length = b := by
  rw [unpack_congr fun k hk => wordOf_eq hk, unpack_limbOf, toBe_ofBe]

/-! ### Regions of a memory -/

/-- A word of the memory and its new value, one after the other. -/
def lay : (ℕ → UInt32) → List (ℕ × UInt32) → ℕ → UInt32
  | f, [] => f
  | f, w :: ws => lay (Function.update f w.1 w.2) ws

/-- The words that put a byte string at `off`. -/
def region (off : ℕ) (b : Bytes) : List (ℕ × UInt32) :=
  (List.range (limbCount b.length)).map fun k => (off + k, wordOf b k)

/-- The region covers a word. -/
def Covers (off : ℕ) (b : Bytes) (j : ℕ) : Prop := off ≤ j ∧ j < off + limbCount b.length

instance decidableCovers (off : ℕ) (b : Bytes) (j : ℕ) : Decidable (Covers off b j) := by
  unfold Covers
  infer_instance

theorem lay_append (f : ℕ → UInt32) (ws vs : List (ℕ × UInt32)) : lay f (ws ++ vs) = lay (lay f ws) vs := by
  induction ws generalizing f with
  | nil => rfl
  | cons w ws ih => exact ih _

theorem lay_of_forall_ne {j : ℕ} {ws : List (ℕ × UInt32)} (f : ℕ → UInt32) (h : ∀ w ∈ ws, w.1 ≠ j) :
    lay f ws j = f j := by
  induction ws generalizing f with
  | nil => rfl
  | cons w ws ih =>
    rw [lay, ih _ fun w' hw' => h w' (List.mem_cons_of_mem _ hw')]
    exact Function.update_of_ne (h w List.mem_cons_self).symm _ _

/-- A word that is written with one value only. -/
theorem lay_of_mem {j : ℕ} {v : UInt32} {ws : List (ℕ × UInt32)} (f : ℕ → UInt32) (h : (j, v) ∈ ws)
    (hone : ∀ w ∈ ws, w.1 = j → w.2 = v) : lay f ws j = v := by
  induction ws generalizing f with
  | nil => exact absurd h List.not_mem_nil
  | cons w ws ih =>
    rw [lay]
    by_cases hmem : (j, v) ∈ ws
    · exact ih _ hmem fun w' hw' => hone w' (List.mem_cons_of_mem _ hw')
    · obtain rfl := (List.mem_cons.mp h).resolve_right hmem
      rw [lay_of_forall_ne _ fun w' hw' hj => hmem ?_, Function.update_self]
      obtain rfl : w' = (j, v) := Prod.ext hj (hone w' (List.mem_cons_of_mem _ hw') hj)
      exact hw'

theorem lay_range (f : ℕ → UInt32) (off : ℕ) (w : ℕ → UInt32) (j n : ℕ) :
    lay f ((List.range n).map fun k => (off + k, w k)) j = if off ≤ j ∧ j < off + n then w (j - off) else f j := by
  induction n with
  | zero =>
    rw [if_neg (by omega)]
    rfl
  | succ n ih =>
    rw [List.range_succ, List.map_append, lay_append]
    by_cases hj : j = off + n
    · subst hj
      rw [if_pos (by omega), Nat.add_sub_cancel_left]
      exact Function.update_self _ _ _
    · have hstep : lay (lay f ((List.range n).map fun k => (off + k, w k))) ([n].map fun k => (off + k, w k)) j =
          lay f ((List.range n).map fun k => (off + k, w k)) j := Function.update_of_ne hj _ _
      rw [hstep, ih]
      by_cases hin : off ≤ j ∧ j < off + n
      · rw [if_pos hin, if_pos (by omega)]
      · rw [if_neg hin, if_neg (by omega)]

theorem lay_region (f : ℕ → UInt32) (off : ℕ) (b : Bytes) (j : ℕ) :
    lay f (region off b) j = if Covers off b j then wordOf b (j - off) else f j := by
  rw [region, lay_range]
  exact if_congr Iff.rfl rfl rfl

/-- The memory after whole regions. -/
def layAll (f : ℕ → UInt32) (rs : List (ℕ × Bytes)) : ℕ → UInt32 := lay f (rs.flatMap fun r => region r.1 r.2)

theorem layAll_cons (f : ℕ → UInt32) (r : ℕ × Bytes) (rs : List (ℕ × Bytes)) :
    layAll f (r :: rs) = layAll (lay f (region r.1 r.2)) rs := by rw [layAll, List.flatMap_cons, lay_append, ← layAll]

theorem layAll_of_not_covers {j : ℕ} {rs : List (ℕ × Bytes)} (f : ℕ → UInt32) (h : ∀ r ∈ rs, ¬ Covers r.1 r.2 j) :
    layAll f rs j = f j := by
  induction rs generalizing f with
  | nil => rfl
  | cons r rs ih =>
    rw [layAll_cons, ih _ fun r' hr' => h r' (List.mem_cons_of_mem _ hr'), lay_region, if_neg (h r List.mem_cons_self)]

/-- What lay under a region that is written does not count. -/
theorem layAll_congr {j : ℕ} {rs : List (ℕ × Bytes)} (f g : ℕ → UInt32) (h : ∃ r ∈ rs, Covers r.1 r.2 j) :
    layAll f rs j = layAll g rs j := by
  induction rs generalizing f g with
  | nil =>
    obtain ⟨r, hr, -⟩ := h
    exact absurd hr List.not_mem_nil
  | cons r rs ih =>
    rw [layAll_cons, layAll_cons]
    by_cases hrest : ∃ r' ∈ rs, Covers r'.1 r'.2 j
    · exact ih _ _ hrest
    · have hout : ∀ r' ∈ rs, ¬ Covers r'.1 r'.2 j := fun r' hr' hc => hrest ⟨r', hr', hc⟩
      obtain ⟨r', hr', hc⟩ := h
      have hcov : Covers r.1 r.2 j := by
        rcases List.mem_cons.mp hr' with rfl | hmem
        · exact hc
        · exact absurd hc (hout r' hmem)
      rw [layAll_of_not_covers _ hout, layAll_of_not_covers _ hout, lay_region, lay_region, if_pos hcov, if_pos hcov]

/-- A region that no other one meets, in whatever order they are written. -/
theorem unpack_layAll {f : ℕ → UInt32} {rs : List (ℕ × Bytes)} {r : ℕ × Bytes} (hr : r ∈ rs)
    (h : ∀ r' ∈ rs, r' ≠ r → ∀ j, Covers r.1 r.2 j → ¬ Covers r'.1 r'.2 j) :
    unpack (fun k => layAll f rs (r.1 + k)) r.2.length = r.2 := by
  have hword (k : ℕ) (hk : k < limbCount r.2.length) : layAll f rs (r.1 + k) = wordOf r.2 k := by
    have hcov : Covers r.1 r.2 (r.1 + k) := ⟨Nat.le_add_right _ _, by omega⟩
    induction rs generalizing f with
    | nil => exact absurd hr List.not_mem_nil
    | cons r' rs ih =>
      rw [layAll_cons]
      by_cases hmem : r ∈ rs
      · exact ih hmem fun r'' hr'' => h r'' (List.mem_cons_of_mem _ hr'')
      · obtain rfl := (List.mem_cons.mp hr).resolve_right hmem
        rw [layAll_of_not_covers, lay_region, if_pos hcov, Nat.add_sub_cancel_left]
        intro r'' hr''
        refine h r'' (List.mem_cons_of_mem _ hr'') ?_ _ hcov
        rintro rfl
        exact hmem hr''
  rw [unpack_congr hword, unpack_wordOf]

/-! ### Regions that run into each other -/

/-- The words of two numbers, one above the other. -/
theorem limbOf_above {a n : ℕ} (b k : ℕ) (ha : a < (2 ^ 32) ^ n) :
    limbOf (a + b * (2 ^ 32) ^ n) k = if k < n then limbOf a k else limbOf b (k - n) := by
  have hpos (m : ℕ) : 0 < ((2 : ℕ) ^ 32) ^ m := Nat.pow_pos (by decide)
  by_cases hk : k < n
  · obtain ⟨d, rfl⟩ : ∃ d, n = k + (d + 1) := ⟨n - k - 1, by omega⟩
    have hsplit : a + b * (2 ^ 32) ^ (k + (d + 1)) = a + (2 ^ 32) ^ k * (b * (2 ^ 32) ^ d * 2 ^ 32) := by
      rw [pow_add, pow_succ]
      ring
    rw [if_pos hk, limbOf, limbOf, hsplit, Nat.add_mul_div_left _ _ (hpos k)]
    apply UInt32.toNat_inj.mp
    rw [UInt32.toNat_ofNat', UInt32.toNat_ofNat', Nat.add_mul_mod_self_right]
  · obtain ⟨d, rfl⟩ : ∃ d, k = n + d := ⟨k - n, by omega⟩
    rw [if_neg hk, Nat.add_sub_cancel_left, limbOf, limbOf, pow_add, ← Nat.div_div_eq_div_mul,
      Nat.add_mul_div_right _ _ (hpos n), Nat.div_eq_of_lt ha, Nat.zero_add]

theorem limbOf_eq_zero {v n k : ℕ} (hv : v < 256 ^ n) (hk : limbCount n ≤ k) : limbOf v k = 0 := by
  have hle : 256 ^ n ≤ (2 ^ 32) ^ k := by
    rw [show ((2 : ℕ) ^ 32) ^ k = 256 ^ (4 * k) from (Nat.pow_mul 256 4 k).symm]
    refine Nat.pow_le_pow_right (by decide) ?_
    rw [limbCount] at hk
    omega
  rw [limbOf, Nat.div_eq_of_lt (hv.trans_le hle)]
  rfl

/-- A region that none of the later ones meets. -/
theorem unpack_layAll_last {f : ℕ → UInt32} {off : ℕ} {b : Bytes} {before after : List (ℕ × Bytes)}
    (hafter : ∀ r ∈ after, ∀ k < limbCount b.length, ¬ Covers r.1 r.2 (off + k)) :
    unpack (fun k => layAll f (before ++ (off, b) :: after) (off + k)) b.length = b := by
  have hword (k : ℕ) (hk : k < limbCount b.length) :
      layAll f (before ++ (off, b) :: after) (off + k) = wordOf b k := by
    have hsplit : layAll f (before ++ (off, b) :: after) = layAll (lay (layAll f before) (region off b)) after := by
      rw [layAll, List.flatMap_append, lay_append]
      exact layAll_cons _ _ _
    have hcov : Covers off b (off + k) := ⟨Nat.le_add_right _ _, by omega⟩
    rw [hsplit, layAll_of_not_covers _ fun r hr => hafter r hr k hk, lay_region, if_pos hcov, Nat.add_sub_cancel_left]
  rw [unpack_congr hword, unpack_wordOf]

/-- A number whose upper words another one has been written over. -/
theorem layAll_spill {f : ℕ → UInt32} {off slot n m a b k : ℕ} {before after : List (ℕ × Bytes)} (ha : a < 256 ^ n)
    (hslot : a < (2 ^ 32) ^ slot) (hb : b < 256 ^ m)
    (hafter : ∀ r ∈ after, ∀ k < limbCount n, ¬ Covers r.1 r.2 (off + k)) (hk : k < limbCount n) :
    layAll f (before ++ (off, toBe n a) :: (off + slot, toBe m b) :: after) (off + k) =
      limbOf (a + b * (2 ^ 32) ^ slot) k := by
  have hsplit : layAll f (before ++ (off, toBe n a) :: (off + slot, toBe m b) :: after) =
      layAll (lay (lay (layAll f before) (region off (toBe n a))) (region (off + slot) (toBe m b))) after := by
    rw [layAll, List.flatMap_append, lay_append]
    exact (layAll_cons _ _ _).trans (layAll_cons _ _ _)
  have hown : lay (layAll f before) (region off (toBe n a)) (off + k) = limbOf a k := by
    have hcov : Covers off (toBe n a) (off + k) := ⟨Nat.le_add_right _ _, by rw [toBe_length]; omega⟩
    rw [lay_region, if_pos hcov, Nat.add_sub_cancel_left, wordOf_eq (by rwa [toBe_length]), ofBe_toBe,
      Nat.mod_eq_of_lt ha]
  rw [hsplit, layAll_of_not_covers _ fun r hr => hafter r hr k hk, lay_region, limbOf_above b k hslot, hown]
  by_cases hlow : k < slot
  · have hout : ¬ Covers (off + slot) (toBe m b) (off + k) := by
      rw [Covers]
      omega
    rw [if_neg hout, if_pos hlow]
  · rw [if_neg hlow]
    by_cases hhigh : k - slot < limbCount m
    · have hcov : Covers (off + slot) (toBe m b) (off + k) := by
        rw [Covers, toBe_length]
        omega
      rw [if_pos hcov, show off + k - (off + slot) = k - slot by omega, wordOf_eq (by rwa [toBe_length]), ofBe_toBe,
        Nat.mod_eq_of_lt hb]
    · have hout : ¬ Covers (off + slot) (toBe m b) (off + k) := by
        rw [Covers, toBe_length]
        omega
      have hzero : limbOf a k = 0 := by
        rw [limbOf, Nat.div_eq_of_lt (hslot.trans_le (Nat.pow_le_pow_right (by decide) (by omega)))]
        rfl
      rw [if_neg hout, hzero, limbOf_eq_zero hb (by omega)]

end Simulators

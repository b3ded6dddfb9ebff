/-
# PIC32MZ crypto engine: the buffers that wait

The ring between the firmware and the engine. Of the `e` buffers enabled so far
the engine has absorbed the first `p`; the others wait, one to a descriptor,
at most a round of them, and no further descriptor shows DESC_EN (`Waiting`).
The firmware moves `e` on, the engine moves `p` on.

Key theorems: `Job.pieces_all`, `Job.Enabled.takeLen_eq`, `Waiting.fill`, `Waiting.enable`, `Waiting.absorb`.
-/
import Simulators.PIC32.Ring

namespace Simulators
namespace PIC32

/-! ### Round the ring -/

/-- Less than a whole round on from a position. -/
theorem add_mod_ring {n d : ℕ} (k : ℕ) (hd : d < n) :
    (k + d) % n = if k % n + d < n then k % n + d else k % n + d - n := by
  have hk := Nat.mod_lt k (Nat.zero_lt_of_lt hd)
  rw [← Nat.mod_add_mod]
  split
  · rename_i hlt
    exact Nat.mod_eq_of_lt hlt
  · rename_i hge
    rw [Nat.mod_eq_sub_mod (by omega), Nat.mod_eq_of_lt (by omega)]

theorem mod_ne_mod {n j k : ℕ} (hlt : j < k) (hk : k < j + n) : j % n ≠ k % n := by
  obtain ⟨d, rfl⟩ := Nat.exists_eq_add_of_lt hlt
  have hj := Nat.mod_lt j (show 0 < n by omega)
  rw [Nat.add_assoc, add_mod_ring j (by omega)]
  split <;> omega

/-! ### Pieces of the message -/

namespace Job

variable {J : Job}

theorem pieces_succ (k : ℕ) : J.pieces (k + 1) = J.pieces k ++ [J.piece k] := by
  rw [pieces, pieces, List.range_succ, List.map_append, List.map_singleton]

theorem buf_eq {j : ℕ} (hj : j < J.bufs.length) : J.buf j = J.bufs[j] := by
  rw [buf, List.getElem?_eq_getElem hj, Option.getD_some]

/-- Before the last buffer nothing is cut. -/
theorem pieces_init {k : ℕ} (hk : k < J.bufs.length) : J.pieces k = J.bufs.take k := by
  apply List.ext_getElem
  · simp only [pieces, List.length_map, List.length_range, List.length_take]
    omega
  · intro i h1 h2
    have hi : i < k := by simpa [pieces] using h1
    have hlast : ¬ i + 1 = J.bufs.length := by omega
    simp only [pieces, List.getElem_map, List.getElem_range, List.getElem_take, piece, if_neg hlast]
    exact buf_eq (by omega)

/-- All pieces together are the message. -/
theorem pieces_all : (J.pieces J.bufs.length).flatten = J.message := by
  obtain ⟨k, hk⟩ := Nat.exists_eq_succ_of_ne_zero (mt List.length_eq_zero_iff.mp J.bufs_ne)
  have hkl : k < J.bufs.length := by omega
  have hinit : J.pieces k = J.bufs.dropLast := by
    rw [pieces_init hkl, List.dropLast_eq_take, hk, Nat.succ_sub_one]
  have hbufs : J.bufs = J.bufs.dropLast ++ [J.buf k] := by
    have hlast : J.bufs.getLast J.bufs_ne = J.buf k := by
      rw [List.getLast_eq_getElem, buf_eq hkl]
      simp only [hk, Nat.succ_sub_one]
    rw [← hlast, List.dropLast_concat_getLast]
  have hpiece : J.piece k = (J.buf k).take (J.msglen.toNat - J.bufs.dropLast.flatten.length) := if_pos hk.symm
  have hflat : J.bufs.flatten = J.bufs.dropLast.flatten ++ J.buf k := by
    conv_lhs => rw [hbufs]
    rw [List.flatten_append, List.flatten_singleton]
  rw [hk, pieces_succ, List.flatten_append, List.flatten_singleton, hinit, hpiece, message, hflat, List.take_append,
    List.take_of_length_le J.init_le]

/-- The enabled descriptor of buffer `j`. -/
structure Enabled (J : Job) (L : Layout) (j : ℕ) (bd : BufferDescriptor) : Prop where
  descEnabled : bd.descEnabled = true
  buflen : bd.buflen = (J.buf j).length
  srcaddr : bd.srcaddr = L.src (j % L.n)
  saFetch : j = 0 → bd.saFetchEnabled = true ∧ bd.saAddr = L.sa
  last : (bd.lastBd && bd.lifm) = decide (j + 1 = J.bufs.length)
  msglen : bd.msglen = if j + 1 = J.bufs.length then J.msglen else 0
  updptr : j + 1 = J.bufs.length → bd.updptr = L.upd

/-- Setting DESC_EN changes nothing else. -/
theorem Announces.enabled {L : Layout} {j : ℕ} {bd : BufferDescriptor} (h : J.Announces L j bd) :
    J.Enabled L j { bd with bdCtrl := bd.bdCtrl.set } := by
  obtain ⟨-, hbuflen, hsrc, hsa, hlast, hmsglen, hupd⟩ := h
  constructor
  case descEnabled => exact BdCtrl.descEn_set _
  case buflen => exact (BdCtrl.buflen_set _).trans hbuflen
  case srcaddr => exact hsrc
  case saFetch => exact fun h0 => ⟨(BdCtrl.flag_set _ (by decide)).trans (hsa h0).1, (hsa h0).2⟩
  case last =>
    have hflags : (bd.bdCtrl.set.lastBd && bd.bdCtrl.set.lifm) = (bd.bdCtrl.lastBd && bd.bdCtrl.lifm) :=
      congrArg₂ (· && ·) (BdCtrl.flag_set _ (by decide)) (BdCtrl.flag_set _ (by decide))
    exact hflags.trans hlast
  case msglen => exact hmsglen
  case updptr => exact hupd

/-- MSGLEN cuts the last buffer, and only that. -/
theorem Enabled.takeLen_eq {D : Digests} {L : Layout} {j : ℕ} {bd : BufferDescriptor} {st : State D}
    (h : J.Enabled L j bd) (hj : j < J.bufs.length) (hfed : st.bytesFed = (J.pieces j).flatten.length) :
    (J.buf j).take (takeLen st bd) = J.piece j ∧ takeLen st bd = (J.piece j).length := by
  rw [takeLen, h.msglen, piece, h.buflen]
  by_cases hlast : j + 1 = J.bufs.length
  · have hdrop : (J.pieces j).flatten.length = J.bufs.dropLast.flatten.length := by
      rw [pieces_init hj, List.dropLast_eq_take, ← hlast, Nat.add_sub_cancel]
    rw [if_pos hlast, if_pos hlast, if_pos J.msglen_ne, hfed, hdrop]
    refine ⟨?_, by rw [List.length_take, Nat.min_comm]⟩
    rw [← List.take_take]
    exact List.take_of_length_le (List.length_take_le' _ _)
  · rw [if_neg hlast, if_neg hlast, if_neg (by simp)]
    exact ⟨List.take_length, rfl⟩

end Job

/-! ### Memory and position -/

theorem descEnAt_of_load {mem : Memory} {addr : ℕ} {bd : BufferDescriptor} (h : mem.load addr 32 = bd.toBytes) :
    descEnAt mem addr = bd.descEnabled := by
  rw [descEnAt, BufferDescriptor.load_ctrl h, leWord_leBytes]
  rfl

/-- A buffer and its descriptor in memory. -/
structure Written (L : Layout) (J : Job) (j : ℕ) (bd : BufferDescriptor) (mem : Memory) : Prop where
  record : mem.load (L.bd (j % L.n)).toNat 32 = bd.toBytes
  data : mem.load (L.src (j % L.n)).toNat (J.buf j).length = J.buf j

/-- The memory when the first `p` of `e` enabled buffers are absorbed: the others
wait in their descriptors, and no further descriptor is enabled. -/
structure Waiting (L : Layout) (J : Job) (a : HashAlgo) (p e : ℕ) (filled : Bool) (mem : Memory) : Prop where
  backed : L.Backed a mem
  le : p ≤ e
  le_length : e ≤ J.bufs.length
  le_round : e ≤ p + L.n
  pending : ∀ j, p ≤ j → j < e → ∃ bd, J.Enabled L j bd ∧ Written L J j bd mem
  next : filled = true → e < J.bufs.length ∧ e < p + L.n ∧ ∃ bd, J.Announces L e bd ∧ Written L J e bd mem
  idle : ∀ i < L.n, (∀ j, p ≤ j → j < e → j % L.n ≠ i) → descEnAt mem (L.bd i).toNat = false

/-- A range inside descriptor `i` or inside its buffer. -/
def Layout.InSlot (L : Layout) (i q k : ℕ) : Prop :=
  (q = (L.bd i).toNat ∧ k ≤ 32) ∨ (q = (L.src i).toNat ∧ k ≤ L.cap i)

section Frame

variable {L : Layout} {J : Job} {a : HashAlgo} {mem : Memory} {i q : ℕ} {b : Bytes}

theorem Layout.InSlot.bd_apart {k : ℕ} (h : L.InSlot i q b.length) (hi : i < L.n) (hk : k < L.n) (hne : k ≠ i) :
    Apart (L.bd k).toNat 32 q b.length := by
  rcases h with ⟨rfl, hlen⟩ | ⟨rfl, hlen⟩
  · exact Apart.shrink (L.bd_bd k hk i hi hne) hlen
  · exact Apart.shrink (L.bd_src k hk i hi) hlen

theorem Layout.InSlot.src_apart {k len : ℕ} (h : L.InSlot i q b.length) (hi : i < L.n) (hk : k < L.n) (hne : k ≠ i)
    (hlen : len ≤ L.cap k) : Apart (L.src k).toNat len q b.length := by
  rcases h with ⟨rfl, hb⟩ | ⟨rfl, hb⟩
  · exact Apart.swap (Apart.shrink (Apart.swap (Apart.shrink (Apart.swap (L.bd_src i hi k hk)) hb)) hlen)
  · exact Apart.swap (Apart.shrink (Apart.swap (Apart.shrink (L.src_src k hk i hi hne) hb)) hlen)

theorem Layout.InSlot.sa_apart (h : L.InSlot i q b.length) (hi : i < L.n) :
    Apart L.sa.toNat SecurityAssociation.size q b.length := by
  rcases h with ⟨rfl, hb⟩ | ⟨rfl, hb⟩
  · exact Apart.shrink (L.sa_bd i hi) hb
  · exact Apart.shrink (L.sa_src i hi) hb

theorem Layout.Backed.store (h : L.Backed a mem) (hin : L.InSlot i q b.length) (hi : i < L.n) :
    L.Backed a (mem.store q b) where
  bd := h.bd
  src := h.src
  sa := h.sa
  upd := h.upd
  algo := by
    rw [Memory.load_store_disjoint _ (hin.sa_apart hi)]
    exact h.algo

theorem Written.store {j : ℕ} {bd : BufferDescriptor} (h : Written L J j bd mem) (hin : L.InSlot i q b.length)
    (hi : i < L.n) (hne : j % L.n ≠ i) (hlen : (J.buf j).length ≤ L.cap (j % L.n)) :
    Written L J j bd (mem.store q b) := by
  have hj : j % L.n < L.n := Nat.mod_lt j L.n_pos
  exact ⟨(mem.load_store_disjoint (hin.bd_apart hi hj hne)).trans h.record,
    (mem.load_store_disjoint (hin.src_apart hi hj hne hlen)).trans h.data⟩

theorem descEnAt_store {addr : ℕ} (h : Apart addr 32 q b.length) :
    descEnAt (mem.store q b) addr = descEnAt mem addr := by
  have hap : Apart addr 4 q b.length := Apart.swap (Apart.shrink (Apart.swap h) (by decide))
  rw [descEnAt, descEnAt, mem.load_store_disjoint hap]

end Frame

/-! ### What the steps do to the memory -/

namespace Waiting

variable {L : Layout} {J : Job} {a : HashAlgo} {mem : Memory} {p e : ℕ} {filled : Bool}

/-- A descriptor that waits shows its DESC_EN. -/
theorem descEnAt_pending (h : Waiting L J a p e filled mem) {j : ℕ} (hj : p ≤ j) (hlt : j < e) :
    descEnAt mem (L.bd (j % L.n)).toNat = true := by
  obtain ⟨bd, hbd, hw⟩ := h.pending j hj hlt
  rw [descEnAt_of_load hw.record]
  exact hbd.descEnabled

/-- The firmware finds the next descriptor free only when it is not a whole round ahead. -/
theorem lt_round (h : Waiting L J a p e filled mem) (hoff : descEnAt mem (L.bd (e % L.n)).toNat = false) :
    e < p + L.n := by
  by_contra hge
  have heq : e = p + L.n := Nat.le_antisymm h.le_round (Nat.le_of_not_lt hge)
  have hn := L.n_pos
  have hslot : p % L.n = e % L.n := by rw [heq, Nat.add_mod_right]
  rw [← hslot, h.descEnAt_pending (Nat.le_refl p) (by omega)] at hoff
  cases hoff

theorem fill (h : Waiting L J a p e false mem) (hfit : J.FitsIn L) (he : e < J.bufs.length)
    (hoff : descEnAt mem (L.bd (e % L.n)).toNat = false) {bd : BufferDescriptor} (hbd : J.Announces L e bd) :
    Waiting L J a p e true
      ((mem.store (L.src (e % L.n)).toNat (J.buf e)).store (L.bd (e % L.n)).toNat bd.toBytes) := by
  have hi : e % L.n < L.n := Nat.mod_lt e L.n_pos
  have hround : e < p + L.n := h.lt_round hoff
  have hsrc : L.InSlot (e % L.n) (L.src (e % L.n)).toNat (J.buf e).length := .inr ⟨rfl, hfit e he⟩
  have hrec : L.InSlot (e % L.n) (L.bd (e % L.n)).toNat bd.toBytes.length := .inl ⟨rfl, by simp⟩
  constructor
  case backed => exact (h.backed.store hsrc hi).store hrec hi
  case le => exact h.le
  case le_length => exact h.le_length
  case le_round => exact h.le_round
  case pending =>
    intro j hj hlt
    obtain ⟨bd', hbd', hw⟩ := h.pending j hj hlt
    have hne : j % L.n ≠ e % L.n := mod_ne_mod hlt (by omega)
    have hlen := hfit j (by omega)
    exact ⟨bd', hbd', (hw.store hsrc hi hne hlen).store hrec hi hne hlen⟩
  case next =>
    refine fun _ => ⟨he, hround, bd, hbd, ?_, ?_⟩
    · exact BufferDescriptor.load_store _ _ bd
    · have hap : Apart (L.src (e % L.n)).toNat (J.buf e).length (L.bd (e % L.n)).toNat bd.toBytes.length := by
        rw [BufferDescriptor.toBytes_length]
        exact Apart.swap (Apart.shrink (L.bd_src _ hi _ hi) (hfit e he))
      rw [Memory.load_store_disjoint _ hap, Memory.load_store_same]
  case idle =>
    intro i hin hno
    by_cases heq : i = e % L.n
    · subst heq
      rw [descEnAt_of_load (BufferDescriptor.load_store _ _ bd)]
      exact hbd.1
    · rw [descEnAt_store (hrec.bd_apart hi hin heq), descEnAt_store (hsrc.bd_apart hi hin heq)]
      exact h.idle i hin hno

theorem enable (h : Waiting L J a p e true mem) (hfit : J.FitsIn L) :
    Waiting L J a p (e + 1) false (mem.store (L.bd (e % L.n)).toNat
      (leBytes (BdCtrl.mk (leWord (mem.load (L.bd (e % L.n)).toNat 4))).set.word)) := by
  obtain ⟨he, hround, bd, hbd, hw⟩ := h.next rfl
  have hi : e % L.n < L.n := Nat.mod_lt e L.n_pos
  have hctrl : BdCtrl.mk (leWord (mem.load (L.bd (e % L.n)).toNat 4)) = bd.bdCtrl := by
    rw [BufferDescriptor.load_ctrl hw.record, leWord_leBytes]
  rw [hctrl]
  have hin : L.InSlot (e % L.n) (L.bd (e % L.n)).toNat (leBytes bd.bdCtrl.set.word).length := .inl ⟨rfl, by simp⟩
  constructor
  case backed => exact h.backed.store hin hi
  case le => exact Nat.le_succ_of_le h.le
  case le_length => exact he
  case le_round => exact hround
  case pending =>
    intro j hj hlt
    by_cases hje : j = e
    · subst hje
      have hap : Apart (L.src (j % L.n)).toNat (J.buf j).length (L.bd (j % L.n)).toNat
          (leBytes bd.bdCtrl.set.word).length :=
        Apart.shrink (Apart.swap (Apart.shrink (L.bd_src _ hi _ hi) (hfit j he))) (by simp)
      exact ⟨_, hbd.enabled, BufferDescriptor.load_store_ctrl hw.record _,
        (mem.load_store_disjoint hap).trans hw.data⟩
    · obtain ⟨bd', hbd', hw'⟩ := h.pending j hj (by omega)
      have hne : j % L.n ≠ e % L.n := mod_ne_mod (by omega) (by omega)
      exact ⟨bd', hbd', hw'.store hin hi hne (hfit j (by omega))⟩
  case next => exact fun hf => absurd hf Bool.false_ne_true
  case idle =>
    intro i hi' hno
    have hne : i ≠ e % L.n := fun heq => hno e h.le (Nat.lt_succ_self e) heq.symm
    rw [descEnAt_store (hin.bd_apart hi hi' hne)]
    exact h.idle i hi' fun j hj hlt => hno j hj (Nat.lt_succ_of_lt hlt)

/-- The engine hands the oldest descriptor back. -/
theorem absorb (h : Waiting L J a p e filled mem) (hfit : J.FitsIn L) (hlt : p < e) {bd : BufferDescriptor}
    (hoff : bd.descEnabled = false) :
    Waiting L J a (p + 1) e filled (mem.store (L.bd (p % L.n)).toNat bd.toBytes) := by
  have hi : p % L.n < L.n := Nat.mod_lt p L.n_pos
  have hin : L.InSlot (p % L.n) (L.bd (p % L.n)).toNat bd.toBytes.length := .inl ⟨rfl, by simp⟩
  have hlen := h.le_length
  have hround := h.le_round
  constructor
  case backed => exact h.backed.store hin hi
  case le => exact hlt
  case le_length => exact hlen
  case le_round => omega
  case pending =>
    intro j hj hje
    obtain ⟨bd', hbd', hw⟩ := h.pending j (by omega) hje
    have hne : p % L.n ≠ j % L.n := mod_ne_mod hj (by omega)
    exact ⟨bd', hbd', hw.store hin hi hne.symm (hfit j (by omega))⟩
  case next =>
    intro hf
    obtain ⟨he, hnext, bd', hbd', hw⟩ := h.next hf
    have hne : p % L.n ≠ e % L.n := mod_ne_mod hlt hnext
    exact ⟨he, by omega, bd', hbd', hw.store hin hi hne.symm (hfit e he)⟩
  case idle =>
    intro i hi' hno
    by_cases heq : i = p % L.n
    · subst heq
      rw [descEnAt_of_load (BufferDescriptor.load_store mem _ bd)]
      exact hoff
    · rw [descEnAt_store (hin.bd_apart hi hi' heq)]
      refine h.idle i hi' fun j hj hje hjs => ?_
      by_cases hjp : j = p
      · exact heq (by rw [← hjs, hjp])
      · exact hno j (by omega) hje hjs

end Waiting

end PIC32
end Simulators

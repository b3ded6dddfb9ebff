/-
# Parts that are staged until they make something

Parts of something arrive one by one. They are staged until what is staged
makes a whole, which then is kept without the parts (`Assembly.settle`). What
comes first decides on the terms: a collection that began with a free part
takes every part, and starts anew once something was made. Any other is closed
once something was made or the needed parts are staged, and to an early part
already once the opening ones are (`Assembly.Shut`). `Assembly.orderFree_iff` says
for which parts the order of arrival does not matter.

Key definitions: `Assembly`, `Assembly.settle`, `Assembly.collect`, `Assembly.OrderFree`, `Assembly.Independent`.
-/
import Mathlib.Data.Finset.Basic
import Mathlib.Data.Finset.Lattice.Lemmas

namespace Simulators

/-- What is made of which parts. The needed parts are in all that make something, and at least two of them are the
opening ones. -/
structure Assembly (α β : Type) where
  make : Finset α → Option β
  needs : Finset α
  subset_of_make : ∀ {S x}, make S = some x → needs ⊆ S
  opening : Finset α
  opening_subset : opening ⊆ needs
  opening_nontrivial : opening.Nontrivial
  /-- Stands for nothing made. -/
  blank : β

namespace Assembly

/-! ### Parts in any order -/

section Settle

variable {α β : Type} (A : Assembly α β)

/-- What was made, and the stage, once the parts are staged. -/
def settle (S : Finset α) : β × Finset α :=
  match A.make S with
  | some x => (x, ∅)
  | none => (A.blank, S)

/-- The parts after which a part that is early or not is no longer taken. -/
def barrier (early : α → Bool) (a : α) : Finset α := if early a then A.opening else A.needs

/-- The part is not taken. -/
def Shut (free : Bool) (early : α → Bool) (st : β × Finset α) (a : α) : Prop :=
  free = false ∧ (st.1 ≠ A.blank ∨ A.barrier early a ⊆ st.2)

variable {A} {free : Bool} {early : α → Bool} {C S : Finset α} {a b : α} {x : β}

theorem settle_of_some (h : A.make S = some x) : A.settle S = (x, ∅) := by rw [settle, h]

theorem settle_of_none (h : A.make S = none) : A.settle S = (A.blank, S) := by rw [settle, h]

theorem make_of_missing (hb : b ∈ A.needs) (h : b ∉ S) : A.make S = none := by
  by_contra hne
  obtain ⟨x, hx⟩ := Option.ne_none_iff_exists'.mp hne
  exact h (A.subset_of_make hx hb)

theorem barrier_subset : A.barrier early a ⊆ A.needs := by
  unfold barrier
  split
  · exact A.opening_subset
  · exact Finset.Subset.refl _

theorem mem_barrier (hb : b ∈ A.opening) : b ∈ A.barrier early a := by
  unfold barrier
  split
  · exact hb
  · exact A.opening_subset hb

theorem shut_iff {st : β × Finset α} :
    A.Shut false early st a ↔ st.1 ≠ A.blank ∨ A.barrier early a ⊆ st.2 := and_iff_right rfl

theorem not_shut_free {st : β × Finset α} : ¬ A.Shut true early st a := fun h => Bool.noConfusion h.1

/-- As long as an opening part is missing, every part is taken. -/
theorem not_shut_of_missing (hb : b ∈ A.opening) (h : b ∉ S) : ¬ A.Shut free early (A.blank, S) a := by
  rintro ⟨-, hne | hsub⟩
  · exact hne rfl
  · exact h (hsub (mem_barrier hb))

/-- A stage without a part of `C` is not what `C` settles to. -/
theorem settle_ne (hb : b ∈ C) (hbS : b ∉ S) (hS : S.Nonempty) : A.settle C ≠ (A.blank, S) := by
  intro heq
  cases hmake : A.make C with
  | none =>
    rw [settle_of_none hmake, Prod.mk.injEq] at heq
    exact hbS (heq.2 ▸ hb)
  | some y =>
    rw [settle_of_some hmake, Prod.mk.injEq] at heq
    exact hS.ne_empty heq.2.symm

/-- There is an opening part besides any part. -/
theorem exists_opening_ne (A : Assembly α β) (a : α) : ∃ b ∈ A.opening, b ≠ a := A.opening_nontrivial.exists_ne a

end Settle

section Put

variable {α β : Type} [DecidableEq α] [DecidableEq β] (A : Assembly α β)

instance (free : Bool) (early : α → Bool) (st : β × Finset α) (a : α) : Decidable (A.Shut free early st a) :=
  inferInstanceAs (Decidable (free = false ∧ (st.1 ≠ A.blank ∨ A.barrier early a ⊆ st.2)))

/-- A part arrives in a collection that began with a free part or not. -/
def put (free : Bool) (early : α → Bool) (st : β × Finset α) (a : α) : β × Finset α :=
  if A.Shut free early st a then st else A.settle (insert a st.2)

/-- Parts arrive one after another. -/
def collect (free early : α → Bool) : List α → β × Finset α
  | [] => A.settle ∅
  | a :: l => l.foldl (A.put (free a) early) (A.settle {a})

/-- The parts leave the same in every order. -/
def OrderFree (free early : α → Bool) (C : Finset α) : Prop :=
  ∃ st, ∀ l : List α, l.Nodup → l.toFinset = C → A.collect free early l = st

section Runs

variable {A} {free : Bool} {early : α → Bool} {C S : Finset α} {a b k : α} {x : β}

theorem put_of_shut {st : β × Finset α} (h : A.Shut free early st a) : A.put free early st a = st := if_pos h

theorem put_of_not_shut {st : β × Finset α} (h : ¬ A.Shut free early st a) :
    A.put free early st a = A.settle (insert a st.2) := if_neg h

theorem foldl_of_shut {st : β × Finset α} (h : ∀ a, A.Shut free early st a) (l : List α) :
    l.foldl (A.put free early) st = st := by
  induction l with
  | nil => rfl
  | cons a l ih => rw [List.foldl_cons, put_of_shut (h a), ih]

/-- As long as an opening part is missing, the parts are staged. -/
theorem foldl_of_missing (free : Bool) (early : α → Bool) (hb : b ∈ A.opening) : ∀ (l : List α) (S : Finset α),
    b ∉ l → b ∉ S → l.foldl (A.put free early) (A.blank, S) = (A.blank, S ∪ l.toFinset)
  | [], S, _, _ => by rw [List.foldl_nil, List.toFinset_nil, Finset.union_empty]
  | a :: l, S, hl, hS => by
    have hins : b ∉ insert a S := by
      rw [Finset.mem_insert]
      rintro (rfl | h)
      · exact hl List.mem_cons_self
      · exact hS h
    have hmake : A.make (insert a S) = none := make_of_missing (A.opening_subset hb) hins
    rw [List.foldl_cons, put_of_not_shut (not_shut_of_missing hb hS), settle_of_none hmake,
      foldl_of_missing free early hb l _ (fun h => hl (List.mem_cons_of_mem a h)) hins, List.toFinset_cons,
      Finset.union_insert, Finset.insert_union]

/-- A part that comes after something was made starts anew, if it is taken. -/
theorem foldl_restart (hb : b ∈ A.opening) {l : List α} (hl : l ≠ []) (hbl : b ∉ l)
    (hopen : ∀ a, ¬ A.Shut free early (x, ∅) a) : l.foldl (A.put free early) (x, ∅) = (A.blank, l.toFinset) := by
  cases l with
  | nil => exact absurd rfl hl
  | cons a l =>
    have hfresh := foldl_of_missing free early hb (a :: l) ∅ hbl (Finset.notMem_empty b)
    rw [List.foldl_cons, put_of_not_shut (not_shut_of_missing hb (Finset.notMem_empty b)), Finset.empty_union] at hfresh
    rw [List.foldl_cons, put_of_not_shut (hopen a), hfresh]

/-- A stage from which nothing can be made stays one, without the parts that are not taken. -/
theorem foldl_of_blank (free : Bool) (early : α → Bool) (hmake : ∀ S, S ⊆ C → k ∉ S → A.make S = none) :
    ∀ (l : List α) (T : Finset α), (∀ j ∈ l, j ∈ C ∧ j ≠ k) → T ⊆ C → k ∉ T →
      ∃ T', T ⊆ T' ∧ k ∉ T' ∧ l.foldl (A.put free early) (A.blank, T) = (A.blank, T')
  | [], T, _, _, hk => ⟨T, Finset.Subset.refl T, hk, rfl⟩
  | a :: l, T, hl, hT, hk => by
    obtain ⟨haC, hak⟩ := hl a List.mem_cons_self
    have hrest : ∀ j ∈ l, j ∈ C ∧ j ≠ k := fun j hj => hl j (List.mem_cons_of_mem a hj)
    by_cases hshut : A.Shut free early (A.blank, T) a
    · rw [List.foldl_cons, put_of_shut hshut]
      exact foldl_of_blank free early hmake l T hrest hT hk
    · have hins : insert a T ⊆ C := Finset.insert_subset haC hT
      have hnot : k ∉ insert a T := by
        rw [Finset.mem_insert]
        rintro (h | h)
        · exact hak h.symm
        · exact hk h
      rw [List.foldl_cons, put_of_not_shut hshut, settle_of_none (hmake _ hins hnot)]
      obtain ⟨T', hsub, hk', hfold⟩ := foldl_of_blank free early hmake l _ hrest hins hnot
      exact ⟨T', (Finset.subset_insert a T).trans hsub, hk', hfold⟩

end Runs

section Orders

variable {A} {free early : α → Bool} {C S : Finset α} {a b k : α} {x : β}

/-- Some order of `S` that begins with a given part, and ends with an opening one, leaves what `S` settles to. -/
theorem exists_collect (free early : α → Bool) (hb : b ∈ A.opening) (hba : b ≠ a) (haS : a ∈ S) (hbS : b ∈ S) :
    ∃ l : List α, (a :: l).Nodup ∧ (a :: l).toFinset = S ∧
      l.foldl (A.put (free a) early) (A.settle {a}) = A.settle S := by
  obtain ⟨mid, hnd, hmem⟩ : ∃ mid : List α, mid.Nodup ∧ ∀ c, c ∈ mid ↔ c ≠ b ∧ c ≠ a ∧ c ∈ S := by
    refine ⟨((S.erase a).erase b).toList, Finset.nodup_toList _, ?_⟩
    intro c
    rw [Finset.mem_toList, Finset.mem_erase, Finset.mem_erase]
  have hbmid : b ∉ mid := fun h => ((hmem b).mp h).1 rfl
  have hamid : a ∉ mid := fun h => ((hmem a).mp h).2.1 rfl
  have hmissing : b ∉ ({a} : Finset α) := fun h => hba (Finset.mem_singleton.mp h)
  have hset : insert b ({a} ∪ mid.toFinset) = S := by
    ext c
    rw [Finset.mem_insert, Finset.mem_union, Finset.mem_singleton, List.mem_toFinset, hmem]
    constructor
    · rintro (rfl | rfl | ⟨-, -, h⟩)
      · exact hbS
      · exact haS
      · exact h
    · intro h
      by_cases hcb : c = b
      · exact .inl hcb
      · by_cases hca : c = a
        · exact .inr (.inl hca)
        · exact .inr (.inr ⟨hcb, hca, h⟩)
  refine ⟨mid ++ [b], ?_, ?_, ?_⟩
  · rw [List.nodup_cons, List.mem_append, List.mem_singleton, List.nodup_append]
    refine ⟨fun h => h.elim hamid (Ne.symm hba), hnd, List.nodup_singleton b, ?_⟩
    rintro c hc d hd rfl
    exact hbmid (List.mem_singleton.mp hd ▸ hc)
  · rw [List.toFinset_cons, List.toFinset_append, List.toFinset_cons, List.toFinset_nil, insert_empty_eq,
      Finset.union_comm, ← Finset.insert_eq, Finset.insert_comm, Finset.insert_eq a, hset]
  · have hnot : b ∉ {a} ∪ mid.toFinset := by
      rw [Finset.mem_union, List.mem_toFinset]
      exact fun h => h.elim hmissing hbmid
    rw [List.foldl_append, settle_of_none (make_of_missing (A.opening_subset hb) hmissing),
      foldl_of_missing _ _ hb mid _ hbmid hmissing, List.foldl_cons, List.foldl_nil,
      put_of_not_shut (not_shut_of_missing hb hnot), hset]

/-- If the order does not matter, what `S` settled to is left by the other parts, in any order, as all the parts
settle. -/
theorem OrderFree.foldl_rest (hfree : A.OrderFree free early C) (hb : b ∈ A.opening) (hba : b ≠ a) (haS : a ∈ S)
    (hbS : b ∈ S) (hSC : S ⊆ C) {rest : List α} (hnd : rest.Nodup) (hrest : rest.toFinset = C \ S) :
    rest.foldl (A.put (free a) early) (A.settle S) = A.settle C := by
  obtain ⟨st, hst⟩ := hfree
  obtain ⟨late, hlate, hlateC, hfold⟩ := exists_collect free early hb hba (hSC haS) (hSC hbS)
  obtain ⟨first, hfirst, hfirstS, hfold'⟩ := exists_collect free early hb hba haS hbS
  have hnodup : (a :: first ++ rest).Nodup := by
    rw [List.nodup_append]
    refine ⟨hfirst, hnd, ?_⟩
    rintro c hc d hd rfl
    rw [← List.mem_toFinset, hfirstS] at hc
    rw [← List.mem_toFinset, hrest] at hd
    exact (Finset.mem_sdiff.mp hd).2 hc
  have hall : (a :: first ++ rest).toFinset = C := by
    rw [List.toFinset_append, hfirstS, hrest, Finset.union_sdiff_of_subset hSC]
  calc rest.foldl (A.put (free a) early) (A.settle S)
      = A.collect free early (a :: first ++ rest) := by rw [← hfold', List.cons_append, collect, List.foldl_append]
    _ = st := hst _ hnodup hall
    _ = A.collect free early (a :: late) := (hst _ hlate hlateC).symm
    _ = A.settle C := hfold

end Orders

/-! ### When the order does not matter -/

/-- The parts of `C` make no difference to each other. -/
structure Independent (free early : α → Bool) (C : Finset α) : Prop where
  /-- An early part that is needed, or any if the needed parts are not all there, comes after free parts only. -/
  taken : ∀ k ∈ C, k ∉ A.opening → (k ∈ A.needs ∨ ¬ A.needs ⊆ C) → early k = true → ∀ a ∈ C, a ≠ k → free a = true
  /-- With a free part, nothing is made before all parts are there. -/
  whole : ∀ a ∈ C, free a = true → ∀ S, a ∈ S → S ⊂ C → A.make S = none
  /-- With any other, the needed parts make what all parts make. -/
  same : ∀ a ∈ C, free a = false → ∀ S, a ∈ S → A.needs ⊆ S → S ⊂ C →
    ∃ x, x ≠ A.blank ∧ A.make S = some x ∧ A.make C = some x

section Iff

variable {A} {free early : α → Bool} {C S : Finset α} {a b k : α} {x : β}

/-- The parts that are not in `S`, in some order. -/
theorem exists_rest (hS : S ⊂ C) : ∃ rest : List α, rest.Nodup ∧ rest.toFinset = C \ S ∧ rest ≠ [] ∧
    (∀ c ∈ S, c ∉ rest) ∧ ∃ c ∈ C, c ∉ S := by
  obtain ⟨c, hc, hcS⟩ := Finset.exists_of_ssubset hS
  refine ⟨(C \ S).toList, Finset.nodup_toList _, Finset.toList_toFinset _, ?_, ?_, c, hc, hcS⟩
  · intro hnil
    have hmem : c ∈ (C \ S).toList := Finset.mem_toList.mpr (Finset.mem_sdiff.mpr ⟨hc, hcS⟩)
    rw [hnil] at hmem
    cases hmem
  · intro d hd hmem
    exact (Finset.mem_sdiff.mp (Finset.mem_toList.mp hmem)).2 hd

/-- Where the order does not matter, nothing is left that came after something made was lost. -/
theorem OrderFree.not_restart (hfree : A.OrderFree free early C) (haS : a ∈ S) (hnS : A.needs ⊆ S) (hS : S ⊂ C)
    (hmake : A.make S = some x) : ∃ c, A.Shut (free a) early (x, ∅) c := by
  by_contra hno
  obtain ⟨b, hb, hba⟩ := A.exists_opening_ne a
  have hbS : b ∈ S := hnS (A.opening_subset hb)
  obtain ⟨rest, hnd, hrest, hne, hout, -⟩ := exists_rest hS
  have hfold := hfree.foldl_rest hb hba haS hbS hS.subset hnd hrest
  rw [settle_of_some hmake, foldl_restart hb hne (hout b hbS) (not_exists.mp hno), hrest] at hfold
  obtain ⟨c, hc, hcS⟩ := Finset.exists_of_ssubset hS
  have hnonempty : (C \ S).Nonempty := ⟨c, Finset.mem_sdiff.mpr ⟨hc, hcS⟩⟩
  exact settle_ne (hS.subset haS) (fun h => (Finset.mem_sdiff.mp h).2 haS) hnonempty hfold.symm

theorem OrderFree.taken (hfree : A.OrderFree free early C) (hC : A.opening ⊆ C) (hk : k ∈ C) (hko : k ∉ A.opening)
    (hneed : k ∈ A.needs ∨ ¬ A.needs ⊆ C) (hearly : early k = true) (ha : a ∈ C) (hak : a ≠ k) : free a = true := by
  by_contra hnot
  rw [Bool.not_eq_true] at hnot
  obtain ⟨b, hb, hba⟩ := A.exists_opening_ne a
  -- nothing is made without `k`
  have hmake : ∀ S, S ⊆ C → k ∉ S → A.make S = none := by
    intro S hSC hkS
    by_contra hne
    obtain ⟨x, hx⟩ := Option.ne_none_iff_exists'.mp hne
    rcases hneed with h | h
    · exact hkS (A.subset_of_make hx h)
    · exact h ((A.subset_of_make hx).trans hSC)
  have hS : insert a A.opening ⊆ C := Finset.insert_subset ha hC
  have hkS : k ∉ insert a A.opening := by
    rw [Finset.mem_insert]
    exact fun h => h.elim (Ne.symm hak) hko
  -- the order: `a` and the opening parts, `k`, the others
  obtain ⟨rest, hnd, hrest⟩ : ∃ rest : List α, (k :: rest).Nodup ∧ (k :: rest).toFinset = C \ insert a A.opening := by
    have hmem : k ∈ C \ insert a A.opening := Finset.mem_sdiff.mpr ⟨hk, hkS⟩
    refine ⟨((C \ insert a A.opening).erase k).toList, ?_, ?_⟩
    · rw [List.nodup_cons, Finset.mem_toList]
      exact ⟨Finset.notMem_erase k _, Finset.nodup_toList _⟩
    · rw [List.toFinset_cons, Finset.toList_toFinset, Finset.insert_erase hmem]
  have hfold := hfree.foldl_rest hb hba (Finset.mem_insert_self a _) (Finset.mem_insert_of_mem hb) hS hnd hrest
  have hshut : A.Shut (free a) early (A.blank, insert a A.opening) k := by
    refine ⟨hnot, .inr ?_⟩
    rw [barrier, if_pos hearly]
    exact Finset.subset_insert a _
  have hothers : ∀ j ∈ rest, j ∈ C ∧ j ≠ k := by
    intro j hj
    have hjC : j ∈ C \ insert a A.opening := by
      rw [← hrest, List.mem_toFinset]
      exact List.mem_cons_of_mem k hj
    refine ⟨(Finset.mem_sdiff.mp hjC).1, ?_⟩
    rintro rfl
    exact (List.nodup_cons.mp hnd).1 hj
  obtain ⟨T, hsub, hkT, hT⟩ := foldl_of_blank (free a) early hmake rest _ hothers hS hkS
  rw [settle_of_none (hmake _ hS hkS), List.foldl_cons, put_of_shut hshut, hT] at hfold
  exact settle_ne hk hkT ⟨a, hsub (Finset.mem_insert_self a _)⟩ hfold.symm

theorem OrderFree.whole (hfree : A.OrderFree free early C) (hf : free a = true) (haS : a ∈ S) (hS : S ⊂ C) :
    A.make S = none := by
  by_contra hne
  obtain ⟨x, hx⟩ := Option.ne_none_iff_exists'.mp hne
  obtain ⟨c, hc⟩ := hfree.not_restart haS (A.subset_of_make hx) hS hx
  rw [hf] at hc
  exact not_shut_free hc

theorem OrderFree.same (hfree : A.OrderFree free early C) (hf : free a = false) (haS : a ∈ S) (hnS : A.needs ⊆ S)
    (hS : S ⊂ C) : ∃ x, x ≠ A.blank ∧ A.make S = some x ∧ A.make C = some x := by
  obtain ⟨b, hb, hba⟩ := A.exists_opening_ne a
  obtain ⟨rest, hnd, hrest, -, -, c, hc, hcS⟩ := exists_rest hS
  have hfold := hfree.foldl_rest hb hba haS (hnS (A.opening_subset hb)) hS.subset hnd hrest
  rw [hf] at hfold
  cases hmake : A.make S with
  | none =>
    rw [settle_of_none hmake, foldl_of_shut fun k => shut_iff.mpr (.inr (barrier_subset.trans hnS))] at hfold
    exact absurd hfold.symm (settle_ne hc hcS ⟨a, haS⟩)
  | some x =>
    have hx : x ≠ A.blank := by
      rintro rfl
      obtain ⟨k, hk⟩ := hfree.not_restart haS hnS hS hmake
      rw [hf] at hk
      exact not_shut_of_missing hb (Finset.notMem_empty b) hk
    rw [settle_of_some hmake, foldl_of_shut fun k => shut_iff.mpr (.inl hx)] at hfold
    refine ⟨x, hx, rfl, ?_⟩
    cases hC : A.make C with
    | none =>
      rw [settle_of_none hC, Prod.mk.injEq] at hfold
      exact absurd hfold.1 hx
    | some y =>
      rw [settle_of_some hC, Prod.mk.injEq] at hfold
      rw [hfold.1]

/-- What every part keeps holds at the end. -/
theorem foldl_invariant {I : Finset α → β × Finset α → Prop} {f : Bool}
    (hstep : ∀ S st k, k ∉ S → insert k S ⊆ C → I S st → I (insert k S) (A.put f early st k)) :
    ∀ (l : List α) (S : Finset α) (st : β × Finset α), l.Nodup → (∀ k ∈ l, k ∉ S) → l.toFinset ∪ S = C → I S st →
      I C (l.foldl (A.put f early) st)
  | [], S, st, _, _, hC, hI => by
    rw [List.toFinset_nil, Finset.empty_union] at hC
    exact hC ▸ hI
  | k :: l, S, st, hnd, hnew, hC, hI => by
    obtain ⟨hkl, hl⟩ := List.nodup_cons.mp hnd
    have hset : l.toFinset ∪ insert k S = C := by
      rw [← hC, List.toFinset_cons, Finset.union_insert, Finset.insert_union]
    have hsub : insert k S ⊆ C := hset ▸ Finset.subset_union_right
    rw [List.foldl_cons]
    apply foldl_invariant hstep l _ _ hl _ hset (hstep S st k (hnew k List.mem_cons_self) hsub hI)
    intro j hj hmem
    rcases Finset.mem_insert.mp hmem with rfl | hjS
    · exact hkl hj
    · exact hnew j (List.mem_cons_of_mem k hj) hjS

/-- A run that keeps an invariant from its first part on. -/
theorem collect_invariant {I : Finset α → β × Finset α → Prop} {l : List α} (hl : (a :: l).Nodup)
    (hC : (a :: l).toFinset = C) (hstart : I {a} (A.settle {a}))
    (hstep : ∀ S st k, k ∉ S → insert k S ⊆ C → I S st → I (insert k S) (A.put (free a) early st k)) :
    I C (A.collect free early (a :: l)) := by
  obtain ⟨hal, hnd⟩ := List.nodup_cons.mp hl
  apply foldl_invariant hstep l {a} _ hnd _ _ hstart
  · rintro k hk hka
    rw [Finset.mem_singleton] at hka
    exact hal (hka ▸ hk)
  · rw [← hC, List.toFinset_cons, Finset.insert_eq, Finset.union_comm]

/-- Where each part settles with those before it, all of them settle. -/
theorem collect_of_step {l : List α} (hl : (a :: l).Nodup) (hC : (a :: l).toFinset = C)
    (hstep : ∀ S k, a ∈ S → k ∉ S → insert k S ⊆ C → A.make S = none ∧ ¬ A.Shut (free a) early (A.blank, S) k) :
    A.collect free early (a :: l) = A.settle C := by
  have hinv : a ∈ C ∧ A.collect free early (a :: l) = A.settle C := by
    apply collect_invariant (I := fun S st => a ∈ S ∧ st = A.settle S) hl hC ⟨Finset.mem_singleton_self a, rfl⟩
    rintro S st k hk hsub ⟨haS, rfl⟩
    obtain ⟨hmake, hopen⟩ := hstep S k haS hk hsub
    rw [settle_of_none hmake, put_of_not_shut hopen]
    exact ⟨Finset.mem_insert_of_mem haS, rfl⟩
  exact hinv.2

/-- What a collection that did not begin with a free part has come to after the parts of `S`: what all parts settle to,
or a stage that has every needed part that came. -/
def Underway (A : Assembly α β) (C : Finset α) (a : α) (S : Finset α) (st : β × Finset α) : Prop :=
  (st = A.settle C ∧ (S = C ∨ ∃ x, x ≠ A.blank ∧ A.make C = some x)) ∨
    ∃ T, st = (A.blank, T) ∧ a ∈ T ∧ T ⊆ S ∧ ¬ A.needs ⊆ T ∧ ∀ k ∈ S, k ∈ A.needs → k ∈ T

omit [DecidableEq β] in
/-- A part that is taken keeps the collection underway. -/
theorem Independent.underway_take (h : A.Independent free early C) (hf : free a = false) {T : Finset α} (haT : a ∈ T)
    (hTS : T ⊆ S) (hneeds : ∀ j ∈ S, j ∈ A.needs → j ∈ T) (hsub : insert k S ⊆ C) :
    A.Underway C a (insert k S) (A.settle (insert k T)) := by
  have hTC : insert k T ⊆ insert k S := Finset.insert_subset_insert k hTS
  have ha : a ∈ C := hsub (hTC (Finset.mem_insert_of_mem haT))
  by_cases hall : A.needs ⊆ insert k T
  · left
    by_cases heq : insert k T = C
    · rw [heq]
      exact ⟨rfl, .inl (hsub.antisymm (heq ▸ hTC))⟩
    · obtain ⟨x, hx, hmake, hC⟩ :=
        h.same a ha hf _ (Finset.mem_insert_of_mem haT) hall ((hTC.trans hsub).ssubset_of_ne heq)
      rw [settle_of_some hmake, settle_of_some hC]
      exact ⟨rfl, .inr ⟨x, hx, hC⟩⟩
  · obtain ⟨j, hj, hjT⟩ := Finset.not_subset.mp hall
    right
    refine ⟨insert k T, settle_of_none (make_of_missing hj hjT), Finset.mem_insert_of_mem haT, hTC, hall, ?_⟩
    intro i hi hin
    rcases Finset.mem_insert.mp hi with rfl | hiS
    · exact Finset.mem_insert_self i T
    · exact Finset.mem_insert_of_mem (hneeds i hiS hin)

theorem Independent.underway (h : A.Independent free early C) (hC : A.needs ⊆ C) (ha : a ∈ C) (hf : free a = false)
    {st : β × Finset α} (hk : k ∉ S) (hsub : insert k S ⊆ C) (hst : A.Underway C a S st) :
    A.Underway C a (insert k S) (A.put (free a) early st k) := by
  rw [hf]
  have hkC : k ∈ C := hsub (Finset.mem_insert_self k S)
  rcases hst with ⟨rfl, rfl | ⟨x, hx, hmake⟩⟩ | ⟨T, rfl, haT, hTS, hopen, hneeds⟩
  · exact absurd hkC hk
  · have hshut : A.Shut false early (A.settle C) k := by
      rw [settle_of_some hmake]
      exact shut_iff.mpr (.inl hx)
    rw [put_of_shut hshut]
    exact .inl ⟨rfl, .inr ⟨x, hx, hmake⟩⟩
  · by_cases hshut : A.Shut false early (A.blank, T) k
    · -- the part is not one of those that are needed
      have hbar : A.barrier early k ⊆ T := (shut_iff.mp hshut).resolve_left fun hne => hne rfl
      have hunneeded : k ∉ A.needs := by
        intro hkn
        unfold barrier at hbar
        by_cases hearly : early k = true
        · rw [if_pos hearly] at hbar
          have hko : k ∉ A.opening := fun hmem => hk (hTS (hbar hmem))
          have hak : a ≠ k := by
            rintro rfl
            exact hk (hTS haT)
          have hfree := h.taken k hkC hko (.inl hkn) hearly a ha hak
          rw [hf] at hfree
          cases hfree
        · rw [if_neg hearly] at hbar
          exact hopen hbar
      rw [put_of_shut hshut]
      refine .inr ⟨T, rfl, haT, hTS.trans (Finset.subset_insert k S), hopen, ?_⟩
      intro j hj hjn
      rcases Finset.mem_insert.mp hj with rfl | hjS
      · exact absurd hjn hunneeded
      · exact hneeds j hjS hjn
    · rw [put_of_not_shut hshut]
      exact h.underway_take hf haT hTS hneeds hsub

/-- Parts that make no difference to each other settle together. -/
theorem Independent.collect (h : A.Independent free early C) {l : List α} (hl : (a :: l).Nodup)
    (hC : (a :: l).toFinset = C) : A.collect free early (a :: l) = A.settle C := by
  have ha : a ∈ C := hC ▸ List.mem_toFinset.mpr List.mem_cons_self
  cases hf : free a with
  | true =>
    apply collect_of_step hl hC
    intro S k haS hk hsub
    rw [hf]
    exact ⟨h.whole a ha hf S haS (Finset.ssubset_iff.mpr ⟨k, hk, hsub⟩), not_shut_free⟩
  | false =>
    by_cases hnC : A.needs ⊆ C
    · obtain ⟨b, hb, hba⟩ := A.exists_opening_ne a
      have hmissing : b ∉ ({a} : Finset α) := fun hmem => hba (Finset.mem_singleton.mp hmem)
      have hbn : b ∈ A.needs := A.opening_subset hb
      have hstart : A.Underway C a {a} (A.settle {a}) :=
        .inr ⟨{a}, settle_of_none (make_of_missing hbn hmissing), Finset.mem_singleton_self a, Finset.Subset.refl _,
          fun hsub => hmissing (hsub hbn), fun _ hk _ => hk⟩
      have hend := collect_invariant (I := A.Underway C a) hl hC hstart
        fun S st k hk hsub hst => h.underway hnC ha hf hk hsub hst
      rcases hend with ⟨heq, -⟩ | ⟨T, -, -, -, hopen, hneeds⟩
      · exact heq
      · exact absurd (fun j hj => hneeds j (hnC hj) hj) hopen
    · -- nothing is ever made, and no part is refused
      obtain ⟨j, hj, hjC⟩ := Finset.not_subset.mp hnC
      apply collect_of_step hl hC
      intro S k haS hk hsub
      have hjS : j ∉ S := fun hmem => hjC (hsub (Finset.mem_insert_of_mem hmem))
      refine ⟨make_of_missing hj hjS, ?_⟩
      rw [hf, shut_iff]
      rintro (hne | hbar)
      · exact hne rfl
      · unfold barrier at hbar
        by_cases hearly : early k = true
        · rw [if_pos hearly] at hbar
          have hko : k ∉ A.opening := fun hmem => hk (hbar hmem)
          have hak : a ≠ k := by
            rintro rfl
            exact hk haS
          have hfree := h.taken k (hsub (Finset.mem_insert_self k S)) hko (.inr hnC) hearly a ha hak
          rw [hf] at hfree
          cases hfree
        · rw [if_neg hearly] at hbar
          exact hjS (hbar hj)

end Iff

end Put

end Assembly

end Simulators

/-
# Handlers that refuse or panic

A command handler of the simulators either returns, refuses the command with
an error status before it has changed anything, or reaches a run-time check
of the language that fails (a slice out of range, an `unwrap` of nothing, a
slice of the wrong length copied into an array). `Handler ε α` is the monad
of the three outcomes, with `ε` the error statuses of the protocol.

What a handler can do is read off with `bind_eq_ok` and the `_eq_ok` lemmas
of the primitive steps; that it cannot panic is put together with
`noPanic_bind`.

Key definitions: `Panic`, `Handler`, `settle`, `NoPanic`.
-/
import Simulators.Lib.Bytes

namespace Simulators

/-- The run-time checks whose failure aborts a command. -/
inductive Panic
  /-- `a[i..j]` outside of `a`. -/
  | slice
  /-- `a[i]` outside of `a`. -/
  | index
  /-- `unwrap` or `expect` of `None` or `Err`. -/
  | unwrap
  /-- A slice copied or converted into an array of another length. -/
  | array
  /-- An `assert!` that does not hold. -/
  | assert
  /-- A shift by the width of the integer or more. -/
  | shift
  /-- `unreachable!()`. -/
  | unreachable
deriving DecidableEq, Repr

/-- Why a handler stopped before its end. -/
inductive Stop (ε : Type)
  | panic (p : Panic)
  | refuse (e : ε)
deriving DecidableEq, Repr

abbrev Handler (ε α : Type) := Except (Stop ε) α

namespace Handler

variable {ε α β : Type}

/-- Return early with an error status. -/
def refuse (e : ε) : Handler ε α := .error (.refuse e)

/-- Go on only if `c` holds. -/
def ensure (c : Prop) [Decidable c] (e : ε) : Handler ε Unit := if c then .ok () else refuse e

/-- The value, or an early return. -/
def orRefuse (e : ε) : Option α → Handler ε α
  | some a => .ok a
  | none => refuse e

/-- `o.expect(..)`. -/
def expect : Option α → Handler ε α
  | some a => .ok a
  | none => .error (.panic .unwrap)

/-- `b[i..j]`. -/
def slice (b : Bytes) (i j : ℕ) : Handler ε Bytes :=
  if i ≤ j ∧ j ≤ b.length then .ok ((b.drop i).take (j - i)) else .error (.panic .slice)

/-- `b[i]`. -/
def index (b : List α) (i : ℕ) : Handler ε α :=
  match b[i]? with
  | some x => .ok x
  | none => .error (.panic .index)

/-- `b` copied into a `[u8; n]`. -/
def array (n : ℕ) (b : Bytes) : Handler ε (ByteArr n) :=
  if h : b.length = n then .ok ⟨b, h⟩ else .error (.panic .array)

/-- `b[i..i + src.len()].copy_from_slice(src)`. -/
def copyAt (b : Bytes) (i : ℕ) (src : Bytes) : Handler ε Bytes :=
  if i + src.length ≤ b.length then .ok (b.take i ++ src ++ b.drop (i + src.length))
  else .error (.panic .slice)

/-! ### Reading a successful run backwards -/

@[simp] theorem ok_bind (a : α) (f : α → Handler ε β) : (Except.ok a >>= f : Handler ε β) = f a := rfl

@[simp] theorem error_bind (e : Stop ε) (f : α → Handler ε β) :
    (Except.error e >>= f : Handler ε β) = .error e := rfl

@[simp] theorem refuse_bind (e : ε) (f : α → Handler ε β) : (refuse e >>= f : Handler ε β) = refuse e := rfl

@[simp] theorem pure_eq_ok (a : α) : (pure a : Handler ε α) = .ok a := rfl

@[simp] theorem bind_eq_ok {x : Handler ε α} {f : α → Handler ε β} {b : β} :
    x >>= f = .ok b ↔ ∃ a, x = .ok a ∧ f a = .ok b := by
  cases x <;> simp

@[simp] theorem refuse_eq_ok {e : ε} {a : α} : (refuse e : Handler ε α) = .ok a ↔ False := by
  simp [refuse]

@[simp] theorem ensure_eq_ok {c : Prop} [Decidable c] {e : ε} {u : Unit} :
    ensure c e = .ok u ↔ c := by
  unfold ensure
  split <;> simp_all

@[simp] theorem orRefuse_eq_ok {e : ε} {o : Option α} {a : α} : orRefuse e o = .ok a ↔ o = some a := by
  cases o <;> simp [orRefuse]

@[simp] theorem expect_eq_ok {o : Option α} {a : α} : (expect o : Handler ε α) = .ok a ↔ o = some a := by
  cases o <;> simp [expect]

theorem slice_eq_ok {b c : Bytes} {i j : ℕ} :
    (slice b i j : Handler ε Bytes) = .ok c ↔ (i ≤ j ∧ j ≤ b.length) ∧ (b.drop i).take (j - i) = c := by
  unfold slice
  split
  · rename_i h
    simp [h]
  · rename_i h
    simp [h]

theorem index_eq_ok {b : List α} {i : ℕ} {a : α} : (index b i : Handler ε α) = .ok a ↔ b[i]? = some a := by
  unfold index
  rcases b[i]? with _ | x
  · simp
  · simp

theorem array_eq_ok {n : ℕ} {b : Bytes} {a : ByteArr n} :
    (array n b : Handler ε (ByteArr n)) = .ok a ↔ b = a.bytes := by
  unfold array
  split
  · rw [Except.ok.injEq, ByteArr.ext_iff]
  · rename_i h
    simp only [reduceCtorEq, false_iff]
    rintro rfl
    exact h a.size

theorem dite_refuse_eq_ok {c : Prop} [Decidable c] {f : c → α} {e : ε} {a : α} :
    (if h : c then .ok (f h) else refuse e : Handler ε α) = .ok a ↔ ∃ h : c, f h = a := by
  split
  · rename_i h
    simp [h]
  · rename_i h
    simp [h]

@[simp] theorem array_bytes {n : ℕ} (a : ByteArr n) : (array n a.bytes : Handler ε (ByteArr n)) = .ok a :=
  array_eq_ok.mpr rfl

/-! ### Handlers that cannot panic -/

/-- The handler reaches no failing run-time check. -/
def NoPanic (x : Handler ε α) : Prop := ∀ p, x ≠ .error (.panic p)

@[simp] theorem noPanic_ok (a : α) : NoPanic (.ok a : Handler ε α) := fun _ => by simp

@[simp] theorem noPanic_pure (a : α) : NoPanic (pure a : Handler ε α) := noPanic_ok a

@[simp] theorem noPanic_refuse (e : ε) : NoPanic (refuse e : Handler ε α) := fun _ => by simp [refuse]

@[simp] theorem noPanic_ensure (c : Prop) [Decidable c] (e : ε) : NoPanic (ensure c e) := by
  unfold ensure
  split
  · exact noPanic_ok _
  · exact noPanic_refuse _

@[simp] theorem noPanic_orRefuse (e : ε) (o : Option α) : NoPanic (orRefuse e o) := by
  cases o
  · exact noPanic_refuse _
  · exact noPanic_ok _

@[simp] theorem noPanic_expect {o : Option α} : NoPanic (expect o : Handler ε α) ↔ o.isSome = true := by
  cases o
  · simp [expect, NoPanic]
  · simp [expect]

theorem noPanic_slice {b : Bytes} {i j : ℕ} :
    NoPanic (slice b i j : Handler ε Bytes) ↔ i ≤ j ∧ j ≤ b.length := by
  unfold slice
  split
  · rename_i h
    simp [h]
  · rename_i h
    simp [h, NoPanic]

theorem noPanic_index {b : List α} {i : ℕ} : NoPanic (index b i : Handler ε α) ↔ i < b.length := by
  unfold index
  rcases h : b[i]? with _ | x
  · simpa [NoPanic] using h
  · simpa using (List.getElem?_eq_some_iff.mp h).1

theorem noPanic_array {n : ℕ} {b : Bytes} : NoPanic (array n b : Handler ε (ByteArr n)) ↔ b.length = n := by
  unfold array
  split
  · rename_i h
    simp [h]
  · rename_i h
    simp [h, NoPanic]

theorem noPanic_copyAt {b src : Bytes} {i : ℕ} :
    NoPanic (copyAt b i src : Handler ε Bytes) ↔ i + src.length ≤ b.length := by
  unfold copyAt
  split
  · rename_i h
    simp [h]
  · rename_i h
    simp [h, NoPanic]

/-- A sequence cannot panic if its first part cannot and, after each value
the first part returns, its second part cannot. -/
@[simp] theorem noPanic_bind {x : Handler ε α} {f : α → Handler ε β} :
    NoPanic (x >>= f) ↔ NoPanic x ∧ ∀ a, x = .ok a → NoPanic (f a) := by
  rcases x with e | a
  · simp [NoPanic]
  · simp

theorem noPanic_ite {c : Prop} [Decidable c] {x y : Handler ε α} :
    NoPanic (if c then x else y) ↔ (c → NoPanic x) ∧ (¬ c → NoPanic y) := by
  split <;> simp_all

/-! ### What a handler returns, and what it refuses with -/

/-- Every value that the handler returns is as `P` says. -/
def Returns (P : α → Prop) (x : Handler ε α) : Prop := ∀ a, x = .ok a → P a

/-- Every status that the handler refuses with is as `Q` says. -/
def Refuses (Q : ε → Prop) (x : Handler ε α) : Prop := ∀ e, x = refuse e → Q e

section Returns

variable {P : α → Prop} {Q : ε → Prop}

@[simp] theorem returns_ok {a : α} : Returns P (.ok a : Handler ε α) ↔ P a := by simp [Returns]

@[simp] theorem returns_pure {a : α} : Returns P (pure a : Handler ε α) ↔ P a := returns_ok

@[simp] theorem returns_refuse {e : ε} : Returns P (refuse e : Handler ε α) := fun _ h => (refuse_eq_ok.mp h).elim

@[simp] theorem returns_bind {P : β → Prop} {x : Handler ε α} {f : α → Handler ε β} :
    Returns P (x >>= f) ↔ ∀ a, x = .ok a → Returns P (f a) := by
  constructor
  · exact fun h a ha b hb => h b (bind_eq_ok.mpr ⟨a, ha, hb⟩)
  · intro h b hb
    obtain ⟨a, ha, hb⟩ := bind_eq_ok.mp hb
    exact h a ha b hb

theorem returns_ite {c : Prop} [Decidable c] {x y : Handler ε α} :
    Returns P (if c then x else y) ↔ (c → Returns P x) ∧ (¬ c → Returns P y) := by
  split <;> simp_all

@[simp] theorem refuses_ok {a : α} : Refuses Q (.ok a : Handler ε α) := fun _ h => by
  rw [refuse] at h
  cases h

@[simp] theorem refuses_pure {a : α} : Refuses Q (pure a : Handler ε α) := refuses_ok

@[simp] theorem refuses_refuse {e : ε} : Refuses Q (refuse e : Handler ε α) ↔ Q e := by simp [Refuses, refuse]

@[simp] theorem refuses_panic {p : Panic} : Refuses Q (.error (.panic p) : Handler ε α) := fun _ h => by
  rw [refuse] at h
  cases h

@[simp] theorem refuses_ensure {c : Prop} [Decidable c] {e : ε} : Refuses Q (ensure c e) ↔ (¬ c → Q e) := by
  unfold ensure
  split <;> simp_all

@[simp] theorem refuses_orRefuse {e : ε} {o : Option α} : Refuses Q (orRefuse e o) ↔ (o = none → Q e) := by
  cases o <;> simp [orRefuse]

@[simp] theorem refuses_slice {b : Bytes} {i j : ℕ} : Refuses Q (slice b i j : Handler ε Bytes) := by
  unfold slice
  split
  · exact refuses_ok
  · exact refuses_panic

@[simp] theorem refuses_index {b : List α} {i : ℕ} : Refuses Q (index b i : Handler ε α) := by
  unfold index
  split
  · exact refuses_ok
  · exact refuses_panic

@[simp] theorem refuses_array {n : ℕ} {b : Bytes} : Refuses Q (array n b : Handler ε (ByteArr n)) := by
  unfold array
  split
  · exact refuses_ok
  · exact refuses_panic

@[simp] theorem refuses_copyAt {b src : Bytes} {i : ℕ} : Refuses Q (copyAt b i src : Handler ε Bytes) := by
  unfold copyAt
  split
  · exact refuses_ok
  · exact refuses_panic

@[simp] theorem refuses_bind {x : Handler ε α} {f : α → Handler ε β} :
    Refuses Q (x >>= f) ↔ Refuses Q x ∧ ∀ a, x = .ok a → Refuses Q (f a) := by
  rcases x with (p | e) | a
  · simp [Refuses, refuse]
  · simp [Refuses, refuse]
  · simp

theorem refuses_ite {c : Prop} [Decidable c] {x y : Handler ε α} :
    Refuses Q (if c then x else y) ↔ (c → Refuses Q x) ∧ (¬ c → Refuses Q y) := by
  split <;> simp_all

end Returns

end Handler

/-! ### Ending a command -/

/-- The end of a command: a refusal is answered with its error response and
leaves the state as it was. -/
def settle {ε ρ σ : Type} (err : ε → ρ) (s : σ) : Handler ε (ρ × σ) → Except Panic (ρ × σ)
  | .ok r => .ok r
  | .error (.refuse e) => .ok (err e, s)
  | .error (.panic p) => .error p

theorem settle_eq_ok {ε ρ σ : Type} {err : ε → ρ} {s s' : σ} {r : ρ} {h : Handler ε (ρ × σ)} :
    settle err s h = .ok (r, s') ↔
      h = .ok (r, s') ∨ ∃ e, h = Handler.refuse e ∧ err e = r ∧ s = s' := by
  rcases h with (p | e) | a <;> simp [settle, Handler.refuse]

theorem settle_ne_error {ε ρ σ : Type} {err : ε → ρ} {s : σ} {h : Handler ε (ρ × σ)}
    (hp : h.NoPanic) (p : Panic) : settle err s h ≠ .error p := by
  rcases h with (q | e) | a
  · exact absurd rfl (hp q)
  · simp [settle]
  · simp [settle]

end Simulators

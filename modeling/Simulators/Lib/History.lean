/-
# Registers and the events that set them

A register that some events set, some clear and the others update is what its
history says: nothing, unless it was set and not cleared since, and otherwise
the value it was set to, updated by the events since (`Run.register`).

Key definitions: `Since`, `Registers`, `Holds`.
-/
import Simulators.Lib.Run

namespace Simulators

section History

variable {ε : Type}

/-- The latest event of a kind, and the events after it. -/
structure Latest (P : ε → Prop) (past : List ε) (e : ε) (after : List ε) : Prop where
  split : ∃ before, past = before ++ e :: after
  holds : P e
  last : ∀ x ∈ after, ¬ P x

/-- The latest event that set the register, if none has cleared it since. -/
structure Since (sets clears : ε → Prop) (past : List ε) (e : ε) (after : List ε) : Prop extends
    Latest sets past e after where
  kept : ∀ x ∈ after, ¬ clears x

variable {sets clears : ε → Prop} {past after : List ε} {e x : ε}

theorem not_since_nil : ¬ Since sets clears [] e after := by
  intro h
  obtain ⟨before, hsplit⟩ := h.split
  exact absurd hsplit (by simp)

theorem since_concat_sets (hx : sets x) : Since sets clears (past ++ [x]) e after ↔ e = x ∧ after = [] := by
  constructor
  · intro h
    obtain ⟨before, hsplit⟩ := h.split
    rcases List.eq_nil_or_concat after with rfl | ⟨after', y, rfl⟩
    · exact ⟨(List.append_inj' hsplit rfl).2 |> List.cons.inj |>.1.symm, rfl⟩
    · rw [List.concat_eq_append, ← List.cons_append, ← List.append_assoc] at hsplit
      have hy : x = y := (List.cons.inj (List.append_inj' hsplit rfl).2).1
      exact absurd (hy ▸ hx) (h.last y (by simp))
  · rintro ⟨rfl, rfl⟩
    exact ⟨⟨⟨past, rfl⟩, hx, by simp⟩, by simp⟩

theorem since_concat (hx : ¬ sets x) : Since sets clears (past ++ [x]) e after ↔
    ¬ clears x ∧ ∃ after', after = after' ++ [x] ∧ Since sets clears past e after' := by
  constructor
  · intro h
    obtain ⟨before, hsplit⟩ := h.split
    rcases List.eq_nil_or_concat after with rfl | ⟨after', y, rfl⟩
    · have he : x = e := (List.cons.inj (List.append_inj' hsplit rfl).2).1
      exact absurd (he ▸ h.holds) hx
    · rw [List.concat_eq_append, ← List.cons_append, ← List.append_assoc] at hsplit
      obtain ⟨hpast, hy⟩ := List.append_inj' hsplit rfl
      cases hy
      refine ⟨h.kept x (by simp), after', by simp, ⟨⟨before, hpast⟩, h.holds, fun z hz => ?_⟩, fun z hz => ?_⟩
      · exact h.last z (by simp [hz])
      · exact h.kept z (by simp [hz])
  · rintro ⟨hkept, after', rfl, h⟩
    obtain ⟨before, rfl⟩ := h.split
    refine ⟨⟨⟨before, by simp⟩, h.holds, fun z hz => ?_⟩, fun z hz => ?_⟩
    · rcases List.mem_append.mp hz with hz | hz
      · exact h.last z hz
      · rw [List.mem_singleton.mp hz]
        exact hx
    · rcases List.mem_append.mp hz with hz | hz
      · exact h.kept z hz
      · rw [List.mem_singleton.mp hz]
        exact hkept

/-- How one event changes a register. -/
structure Registers {β : Type} (sets clears : ε → Prop) (init : ε → β) (update : β → ε → β) (x : ε)
    (old new : Option β) : Prop where
  set : sets x → new = some (init x)
  clear : ¬ sets x → clears x → new = none
  keep : ¬ sets x → ¬ clears x → new = old.map fun b => update b x

/-- What a register holds, from the events so far. -/
def Holds {β : Type} (sets clears : ε → Prop) (init : ε → β) (update : β → ε → β) (past : List ε) (b : β) : Prop :=
  ∃ e after, Since sets clears past e after ∧ after.foldl update (init e) = b

section Register

variable {β : Type} {init : ε → β} {update : β → ε → β} {old new : Option β}

theorem not_holds_nil {b : β} : ¬ Holds sets clears init update [] b := by
  rintro ⟨e, after, h, -⟩
  exact not_since_nil h

theorem Registers.of_set (hs : sets x) (h : new = some (init x)) : Registers sets clears init update x old new :=
  ⟨fun _ => h, fun hn => absurd hs hn, fun hn => absurd hs hn⟩

theorem Registers.of_clear (hs : ¬ sets x) (hc : clears x) (h : new = none) :
    Registers sets clears init update x old new :=
  ⟨fun hs' => absurd hs' hs, fun _ _ => h, fun _ hn => absurd hc hn⟩

theorem Registers.of_keep (hs : ¬ sets x) (hc : ¬ clears x) (h : new = old.map fun b => update b x) :
    Registers sets clears init update x old new :=
  ⟨fun hs' => absurd hs' hs, fun _ hc' => absurd hc' hc, fun _ _ => h⟩

/-- One event more. -/
theorem Registers.holds (h : Registers sets clears init update x old new)
    (hold : ∀ b, old = some b ↔ Holds sets clears init update past b) (b : β) :
    new = some b ↔ Holds sets clears init update (past ++ [x]) b := by
  by_cases hs : sets x
  · have hsince : ∀ e after, Since sets clears (past ++ [x]) e after ↔ e = x ∧ after = [] :=
      fun _ _ => since_concat_sets hs
    simp only [h.set hs, Option.some.injEq, Holds, hsince]
    constructor
    · rintro rfl
      exact ⟨x, [], ⟨rfl, rfl⟩, rfl⟩
    · rintro ⟨_, _, ⟨rfl, rfl⟩, hb⟩
      exact hb
  · by_cases hc : clears x
    · rw [h.clear hs hc]
      constructor
      · rintro ⟨⟩
      · rintro ⟨e, after, hsince, -⟩
        exact absurd hc ((since_concat hs).mp hsince).1
    · rw [h.keep hs hc, Option.map_eq_some_iff]
      constructor
      · rintro ⟨b', hb', rfl⟩
        obtain ⟨e, after, hsince, rfl⟩ := (hold b').mp hb'
        exact ⟨e, after ++ [x], (since_concat hs).mpr ⟨hc, after, rfl, hsince⟩, by simp⟩
      · rintro ⟨e, after, hsince, rfl⟩
        obtain ⟨-, after', rfl, hpast⟩ := (since_concat hs).mp hsince
        exact ⟨after'.foldl update (init e), (hold _).mpr ⟨e, after', hpast, rfl⟩, by simp⟩

/-- A register that is empty at first holds what its history says. -/
theorem Run.register {σ ι ο δ : Type} {step : σ → ι → Except δ (ο × σ)} {sets clears : Event σ ι ο → Prop}
    {init : Event σ ι ο → β} {update : β → Event σ ι ο → β} (reg : σ → Option β)
    (hstep : ∀ s i o s', step s i = .ok (o, s') → Registers sets clears init update ⟨s, i, o⟩ (reg s) (reg s'))
    {s s' : σ} {log : List (Event σ ι ο)} (h : Run step s log s') (hempty : reg s = none) (b : β) :
    reg s' = some b ↔ Holds sets clears init update log b := by
  refine h.history (I := fun past s => ∀ b, reg s = some b ↔ Holds sets clears init update past b) ?_ ?_ b
  · exact fun past s i o s' hold hs => (hstep s i o s' hs).holds hold
  · intro b
    rw [hempty]
    exact iff_of_false (by simp) not_holds_nil

/-- A register of one party among others, who leave it alone. -/
theorem Amid.register {σ ι ο δ : Type} {step : σ → ι → Except δ (ο × σ)} {env : σ → σ → Prop}
    {sets clears : Event σ ι ο → Prop} {init : Event σ ι ο → β} {update : β → Event σ ι ο → β} (reg : σ → Option β)
    (hstep : ∀ s i o s', step s i = .ok (o, s') → Registers sets clears init update ⟨s, i, o⟩ (reg s) (reg s'))
    (henv : ∀ s s', env s s' → reg s' = reg s) {s s' : σ} {log : List (Event σ ι ο)} (h : Amid step env s log s')
    (hempty : reg s = none) (b : β) : reg s' = some b ↔ Holds sets clears init update log b := by
  refine h.history (I := fun past s => ∀ b, reg s = some b ↔ Holds sets clears init update past b) ?_ ?_ ?_ b
  · exact fun past s i o s' hold hs => (hstep s i o s' hs).holds hold
  · intro past s s' hold he
    rw [henv s s' he]
    exact hold
  · intro b
    rw [hempty]
    exact iff_of_false (by simp) not_holds_nil

end Register

end History

end Simulators

/-
# TROPIC01: the spoiled command of FW 2.x

After a SPECT command of the wrong size the firmware does not execute the next
command, unless that is for the SPECT coprocessor itself. The flag behind it
outlives commands and sessions; over any sequence of commands it says whether
the last plaintext that counts was such a SPECT command (`flag_eq_spoiled`).
Plaintexts that count are all but the wrongly sized commands of the CPU.

Key definitions: `counts`, `wrongSpect`, `spoiled`, `firmwareStep`.
Key theorems: `dispatch_strict`, `flag_eq_spoiled`, `spoiled_command_rule`.
-/
import Simulators.TROPIC01.Results

namespace Simulators
namespace TROPIC01

open Handler

/-! ### Plaintexts -/

/-- The command of a plaintext, if it is known. -/
def commandOf (c : Bytes) : Option CmdId := c.head?.bind CmdId.ofWireId

def WellSized (p : Personality) (c : Bytes) (id : CmdId) : Prop := commandOf c = some id ∧ sizeOk p id c.length = true

def WrongSized (p : Personality) (c : Bytes) (id : CmdId) : Prop := commandOf c = some id ∧ sizeOk p id c.length = false

/-- A SPECT command of the wrong size. -/
def wrongSpect (p : Personality) (c : Bytes) : Bool :=
  match commandOf c with
  | some id => !sizeOk p id c.length && isSpect id
  | none => false

/-- Well-sized, of an unknown identifier, or a SPECT command of the wrong size. -/
def counts (p : Personality) (c : Bytes) : Bool :=
  match commandOf c with
  | some id => sizeOk p id c.length || isSpect id
  | none => true

/-- The last plaintext that counts is a SPECT command of the wrong size. -/
def spoiled (p : Personality) (past : List Bytes) : Bool := (past.filter (counts p)).getLast?.any (wrongSpect p)

theorem spoiled_concat (p : Personality) (past : List Bytes) (c : Bytes) :
    spoiled p (past ++ [c]) = if counts p c then wrongSpect p c else spoiled p past := by
  unfold spoiled
  rw [List.filter_append]
  by_cases h : counts p c = true
  · rw [List.filter_cons_of_pos h, if_pos h, List.filter_nil, List.getLast?_concat, Option.any_some]
  · rw [List.filter_cons_of_neg h, if_neg h, List.filter_nil, List.append_nil]

/-! ### The firmware -/

/-- A call of `dispatch`: everything but the device, the personality and the firmware state. -/
structure FirmwareInput where
  g : OsRng
  cfg : List UInt32
  pkey : UInt8
  plaintext : Bytes

/-- One plaintext given to the firmware of a chip. -/
def firmwareStep (K : Crates) (p : Personality) (s : Device × L3State) (i : FirmwareInput) :
    Except Panic (L3Outcome × (Device × L3State)) :=
  dispatch K i.g s.1 i.cfg p i.pkey s.2 i.plaintext

/-- The answer to a command that is not executed: zeros, as many as a Ping has bytes, one for the others. -/
def zeroAnswer (id : CmdId) (c : Bytes) : L3Outcome := .result (List.replicate (if id = .ping then c.length else 1) 0)

section Dispatch

variable {K : Crates} {g : OsRng} {dev dev' : Device} {cfg : List UInt32} {p : Personality} {pkey : UInt8}
  {state state' : L3State} {c : Bytes} {o : L3Outcome} {id : CmdId}

/-- What a strict personality does with a plaintext. -/
theorem dispatch_strict (hp : p.strictL3Sizes = true) (hne : c ≠ []) : dispatch K g dev cfg p pkey state c =
    match commandOf c with
    | none => .ok (.result [resultInvalidCmd], dev, ⟨false⟩)
    | some id =>
      if sizeOk p id c.length then dispatchSized K g dev cfg p pkey state id c
      else .ok (.genErr, dev, if isSpect id then ⟨true⟩ else state) := by
  obtain ⟨b, rest, rfl⟩ := List.exists_cons_of_ne_nil hne
  have hcommand : commandOf (b :: rest) = CmdId.ofWireId b := rfl
  rw [dispatch, hcommand, hp]
  rcases CmdId.ofWireId b with _ | id
  · rfl
  · rfl

/-- The flag after a plaintext: that of a SPECT command of the wrong size, unless the plaintext does not count. -/
theorem dispatch_flag (hp : p.strictL3Sizes = true) (hne : c ≠ [])
    (h : dispatch K g dev cfg p pkey state c = .ok (o, dev', state')) :
    state'.spectSizeError = if counts p c then wrongSpect p c else state.spectSizeError := by
  rw [dispatch_strict hp hne] at h
  cases hcmd : commandOf c with
  | none =>
    have hcounts : counts p c = true := by rw [counts, hcmd]
    have hwrong : wrongSpect p c = false := by rw [wrongSpect, hcmd]
    rw [hcmd] at h
    cases h
    rw [hcounts, hwrong, if_pos rfl]
  | some id =>
    have hcounts : counts p c = (sizeOk p id c.length || isSpect id) := by rw [counts, hcmd]
    have hwrong : wrongSpect p c = (!sizeOk p id c.length && isSpect id) := by rw [wrongSpect, hcmd]
    rw [hcmd] at h
    dsimp only at h
    rw [hcounts, hwrong]
    by_cases hsize : sizeOk p id c.length = true
    · rw [if_pos hsize] at h
      rw [(dispatchSized_eq_ok h).1, hsize]
      rfl
    · rw [if_neg hsize] at h
      rw [Bool.not_eq_true] at hsize
      cases h
      rw [hsize]
      cases isSpect id <;> rfl

/-- A command of the wrong size leaves the device alone. -/
theorem dispatch_wrongSized (hp : p.strictL3Sizes = true) (hw : WrongSized p c id)
    (h : dispatch K g dev cfg p pkey state c = .ok (o, dev', state')) : dev' = dev := by
  have hne : c ≠ [] := by
    rintro rfl
    cases hw.1
  rw [dispatch_strict hp hne, hw.1] at h
  dsimp only at h
  rw [hw.2] at h
  cases h
  rfl

/-- A command for the CPU is answered by zeros exactly if the flag is set. -/
theorem dispatch_wellSized (hp : p.strictL3Sizes = true) (hw : WellSized p c id) (hid : isSpect id = false)
    (h : dispatch K g dev cfg p pkey state c = .ok (o, dev', state')) :
    (o = zeroAnswer id c ∧ dev' = dev) ↔ state.spectSizeError = true := by
  have hne : c ≠ [] := by
    rintro rfl
    cases hw.1
  rw [dispatch_strict hp hne, hw.1] at h
  dsimp only at h
  rw [if_pos hw.2] at h
  obtain ⟨-, ⟨⟨hflag, -⟩, ho, hdev⟩ | ⟨hspoiled, r, rfl, hs⟩⟩ := dispatchSized_eq_ok h
  · exact iff_of_true ⟨ho, hdev⟩ hflag
  · refine iff_of_false ?_ fun hflag => hspoiled ⟨hflag, hid⟩
    rintro ⟨hzero, -⟩
    injection hzero with hzero
    have hhead : r.head? = some 0 ∨ r = [] := by
      rw [hzero]
      cases (if id = .ping then c.length else 1) with
      | zero => exact .inr rfl
      | succ n => exact .inl rfl
    rcases settle_handle hs with hok | ⟨⟨code, hcode, rfl⟩, -⟩
    · obtain ⟨fields, hf⟩ := handle_success _ hok
      dsimp only at hf
      rw [hf] at hhead
      exact absurd hhead (by simp [ok, resultOk])
    · simp only [List.head?_cons, Option.some.injEq, reduceCtorEq, or_false] at hhead
      exact hcode.1 hhead

end Dispatch

/-! ### Sequences -/

section Sequences

variable {K : Crates} {p : Personality} {s s' : Device × L3State}
  {log : List (Event (Device × L3State) FirmwareInput L3Outcome)}

/-- The flag follows from the plaintexts alone. -/
theorem flag_eq_spoiled (hp : p.strictL3Sizes = true) (h : Run (firmwareStep K p) s log s')
    (hne : ∀ e ∈ log, e.input.plaintext ≠ []) {past : List Bytes} (hs : s.2.spectSizeError = spoiled p past) :
    s'.2.spectSizeError = spoiled p (past ++ log.map (·.input.plaintext)) := by
  induction h generalizing past with
  | nil _ => rwa [List.map_nil, List.append_nil]
  | @cons s₀ s₁ _ i o _ h _ ih =>
    have hflag := dispatch_flag hp (hne _ List.mem_cons_self) h
    rw [hs, ← spoiled_concat] at hflag
    rw [List.map_cons, List.append_cons]
    exact ih (fun e he => hne e (List.mem_cons_of_mem _ he)) hflag

/-- Over any sequence of plaintexts that a chip with FW 2.x is given from a fresh firmware state: a well-sized command
for the CPU is left unexecuted, and answered by zeros, exactly if the last plaintext before it that counts is a SPECT
command of the wrong size; and a command of the wrong size leaves the device alone. -/
theorem spoiled_command_rule (K : Crates) {p : Personality} (hp : p.strictL3Sizes = true) {dev : Device}
    {s' : Device × L3State} {past rest : List (Event (Device × L3State) FirmwareInput L3Outcome)}
    {e : Event (Device × L3State) FirmwareInput L3Outcome}
    (h : Run (firmwareStep K p) (dev, {}) (past ++ e :: rest) s')
    (hne : ∀ e' ∈ past ++ e :: rest, e'.input.plaintext ≠ []) :
    ∃ next, firmwareStep K p e.pre e.input = .ok (e.output, next) ∧
      (∀ id, WellSized p e.input.plaintext id → isSpect id = false →
        ((e.output = zeroAnswer id e.input.plaintext ∧ next.1 = e.pre.1) ↔
          spoiled p (past.map (·.input.plaintext)) = true)) ∧
      ∀ id, WrongSized p e.input.plaintext id → next.1 = e.pre.1 := by
  obtain ⟨next, hpast, hstep, -⟩ := h.mid
  have hflag : e.pre.2.spectSizeError = spoiled p ([] ++ past.map (·.input.plaintext)) :=
    flag_eq_spoiled hp hpast (fun e' he => hne e' (List.mem_append_left _ he)) rfl
  refine ⟨next, hstep, ?_, ?_⟩
  · intro id hw hid
    rw [dispatch_wellSized hp hw hid hstep, hflag, List.nil_append]
  · intro id hw
    exact dispatch_wrongSized hp hw hstep

end Sequences

/-- A plaintext from pairing slot 0, with every privilege. -/
def firmwareInput (plaintext : Bytes) : FirmwareInput :=
  ⟨fun _ => 0, List.replicate 128 0xffffffff, 0, plaintext⟩

def shortMacAndDestroy : Event (Device × L3State) FirmwareInput L3Outcome :=
  ⟨(blankDevice, {}), firmwareInput [0x90, 127, 0, 0], .genErr⟩

def spoiledPing : Event (Device × L3State) FirmwareInput L3Outcome :=
  ⟨(blankDevice, ⟨true⟩), firmwareInput [0x01, 0x11, 0x22], .result [0, 0, 0]⟩

/-- A MAC_And_Destroy without its input spoils the Ping after it. -/
theorem short_macAndDestroy_spoils_ping :
    Run (firmwareStep (.recorded [] [] [] []) .es220) (blankDevice, {}) [shortMacAndDestroy, spoiledPing]
      (blankDevice, {}) ∧
    ∃ next, firmwareStep (.recorded [] [] [] []) .es220 spoiledPing.pre spoiledPing.input =
        .ok (spoiledPing.output, next) ∧
      spoiledPing.output = zeroAnswer .ping [0x01, 0x11, 0x22] ∧ next.1 = spoiledPing.pre.1 := by
  have h1 : firmwareStep (.recorded [] [] [] []) .es220 (blankDevice, {}) (firmwareInput [0x90, 127, 0, 0]) =
      .ok (.genErr, (blankDevice, ⟨true⟩)) := by decide +kernel
  have h2 : firmwareStep (.recorded [] [] [] []) .es220 (blankDevice, ⟨true⟩) (firmwareInput [0x01, 0x11, 0x22]) =
      .ok (.result [0, 0, 0], (blankDevice, {})) := by decide +kernel
  have hrun : Run (firmwareStep (.recorded [] [] [] []) .es220) (blankDevice, {})
      ([shortMacAndDestroy] ++ spoiledPing :: []) (blankDevice, {}) := .cons h1 (.cons h2 (.nil _))
  have hne : ∀ e ∈ [shortMacAndDestroy] ++ spoiledPing :: [], e.input.plaintext ≠ [] := by
    simp [shortMacAndDestroy, spoiledPing, firmwareInput]
  obtain ⟨next, hstep, hrule, -⟩ := spoiled_command_rule _ rfl hrun hne
  exact ⟨hrun, next, hstep, (hrule .ping ⟨by decide, by decide⟩ (by decide)).mpr (by decide)⟩

end TROPIC01
end Simulators

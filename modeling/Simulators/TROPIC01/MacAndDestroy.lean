/-
# TROPIC01: MAC_And_Destroy depends on two inputs

A slot of MAC_And_Destroy holds F1 of the last input, and a command answers
with F2 of the content it finds and the content it leaves. No other command
touches the slot, and none touches the keys of F1 and F2. So the answer to the
second of two commands on a slot is a function of their two inputs, whatever
came before and whatever came in between.

Key definitions: `f1`, `f2`, `Accepted`, `EndsWith`.
Key theorems: `dispatch_macAndDestroy`, `l3Step_lookup`, `mac_and_destroy_two_inputs`.
-/
import Simulators.TROPIC01.Results

namespace Simulators
namespace TROPIC01

open Handler

section Slots

variable (K : Crates) (dev : Device) (slot : UInt16)

/-- F1: the content that an input leaves in a slot. -/
def f1 (input : ByteArr 32) : ByteArr 32 := K.kmac256 dev.macanddKey1 macanddCustom (input.bytes ++ [slot.toUInt8])

/-- F2 of the content before and the content after. -/
def f2 (s sNew : ByteArr 32) : ByteArr 32 :=
  K.kmac256 dev.macanddKey2 macanddCustom (s.bytes ++ sNew.bytes ++ [slot.toUInt8])

/-- The content of a slot; one that was never used reads as `ff`s. -/
def Device.macanddContent : ByteArr 32 := (dev.macanddSlots.lookup slot).getD ⟨List.replicate 32 0xff, rfl⟩

/-- The answer with an output. -/
def macAndDestroyAnswer (out : ByteArr 32) : L3Outcome := .result (ok (List.replicate 3 0 ++ out.bytes))

end Slots

/-- The plaintext of MAC_And_Destroy on `slot` with `input`. -/
def IsMacAndDestroy (c : Bytes) (slot : UInt16) (input : ByteArr 32) : Prop :=
  ∃ lo hi pad, slot = u16Le lo hi ∧ c = CmdId.macAndDestroy.wireId :: lo :: hi :: pad :: input.bytes

/-! ### The command -/

section Command

variable {K : Crates} {g : OsRng} {dev dev' : Device} {cfg : List UInt32} {p : Personality} {pkey : UInt8}
  {state state' : L3State} {o : L3Outcome} {slot : UInt16} {input : ByteArr 32}

theorem IsMacAndDestroy.names {c : Bytes} (h : IsMacAndDestroy c slot input) : Names c .macAndDestroy slot := by
  obtain ⟨lo, hi, pad, rfl, rfl⟩ := h
  exact ⟨rfl, rfl⟩

/-- A plaintext of its size is one with a slot and an input. -/
theorem exists_isMacAndDestroy {c : Bytes} (hc : IsCmd c .macAndDestroy) (hlen : c.length = 36) :
    ∃ slot input, IsMacAndDestroy c slot input := by
  match c, hc, hlen with
  | b :: lo :: hi :: pad :: rest, hc, hlen =>
    have hb : b = CmdId.macAndDestroy.wireId := Option.some.inj hc
    have hrest : rest.length = 32 := by
      simp only [List.length_cons] at hlen
      omega
    exact ⟨u16Le lo hi, ⟨rest, hrest⟩, lo, hi, pad, rfl, by rw [hb]⟩

/-- The handler when it succeeds: F1 into the slot, and F2 out. -/
theorem macAndDestroy_eq_ok {x : Ctx} {c : Bytes} (h : IsMacAndDestroy c slot input) {r : Bytes}
    (hx : x.macAndDestroy K c = .ok (r, dev')) :
    r = ok (List.replicate 3 0 ++ (f2 K x.dev slot (x.dev.macanddContent slot) (f1 K x.dev slot input)).bytes) ∧
      dev' = { x.dev with macanddSlots := x.dev.macanddSlots.insert slot (f1 K x.dev slot input) } := by
  obtain ⟨-, hslot⟩ := h.names
  obtain ⟨lo, hi, pad, -, rfl⟩ := h
  simp only [Ctx.macAndDestroy, bind_eq_ok, pure_eq_ok, Except.ok.injEq, Prod.mk.injEq, slice_eq_ok] at hx
  obtain ⟨slot', hs, data, ⟨-, hdata⟩, hr, hdev⟩ := hx
  obtain rfl : slot' = slot := Except.ok.inj ((target_eq_ok hs).1.symm.trans hslot)
  have hinput : data = input.bytes := by
    rw [← hdata]
    exact List.take_of_length_le input.size.le
  subst hinput
  refine ⟨hr.symm.trans ?_, hdev.symm⟩
  unfold f2 f1 Device.macanddContent
  cases x.dev.macanddSlots.lookup slot' <;> rfl

/-- MAC_And_Destroy is accepted, or it changes nothing and does not answer with fields. -/
theorem dispatch_macAndDestroy {c : Bytes} (h : IsMacAndDestroy c slot input)
    (hd : dispatch K g dev cfg p pkey state c = .ok (o, dev', state')) :
    (o = macAndDestroyAnswer (f2 K dev slot (dev.macanddContent slot) (f1 K dev slot input)) ∧
      dev' = { dev with macanddSlots := dev.macanddSlots.insert slot (f1 K dev slot input) }) ∨
      dev' = dev ∧ ∀ fields, o ≠ .result (ok fields) := by
  have hlen : c.length = 36 := by
    obtain ⟨lo, hi, pad, -, rfl⟩ := h
    simp only [List.length_cons, input.size]
  have hid : ∃ rest, c = CmdId.macAndDestroy.wireId :: rest := by
    obtain ⟨lo, hi, pad, -, rfl⟩ := h
    exact ⟨_, rfl⟩
  have hsized : dispatch K g dev cfg p pkey state c = dispatchSized K g dev cfg p pkey state .macAndDestroy c := by
    obtain ⟨rest, rfl⟩ := hid
    have hknown : CmdId.ofWireId CmdId.macAndDestroy.wireId = some .macAndDestroy := by decide
    simp only [dispatch, hknown, sizeOk, hlen, decide_true, if_true]
  rw [hsized] at hd
  obtain ⟨-, ⟨⟨-, hspect⟩, -, -⟩ | ⟨-, r, rfl, hs⟩⟩ := dispatchSized_eq_ok hd
  · cases hspect
  · rcases settle_handle hs with hok | ⟨⟨code, hcode, rfl⟩, rfl⟩
    · obtain ⟨rfl, rfl⟩ := macAndDestroy_eq_ok h hok
      exact .inl ⟨rfl, rfl⟩
    · refine .inr ⟨rfl, ?_⟩
      intro fields hf
      injection hf with hf
      exact hcode.2 (List.cons.inj hf).1

/-- A MAC_And_Destroy of another size is not executed. -/
theorem dispatch_macAndDestroy_size {c : Bytes} (hc : IsCmd c .macAndDestroy) (hlen : c.length ≠ 36)
    (hd : dispatch K g dev cfg p pkey state c = .ok (o, dev', state')) : dev' = dev := by
  obtain ⟨b, rest, rfl⟩ : ∃ b rest, c = b :: rest := by
    cases c with
    | nil => cases hc
    | cons b rest => exact ⟨b, rest, rfl⟩
  obtain rfl : b = CmdId.macAndDestroy.wireId := Option.some.inj hc
  have hknown : CmdId.ofWireId CmdId.macAndDestroy.wireId = some .macAndDestroy := by decide
  simp only [dispatch, hknown, sizeOk, decide_eq_false hlen, Bool.false_eq_true, if_false, esLenient] at hd
  split at hd
  · cases hd
    rfl
  · cases hd
    rfl

end Command

/-! ### Histories -/

/-- A MAC_And_Destroy on `slot` with `input` that was accepted. -/
def AcceptsInput (e : Event Device L3Input (L3Outcome × L3State)) (slot : UInt16) (input : ByteArr 32) : Prop :=
  IsMacAndDestroy e.input.plaintext slot input ∧ ∃ fields, e.output.1 = .result (ok fields)

/-- The history ends with two accepted commands on `slot`, with `a` and then `b`, and with none of them in between. -/
def EndsWith (log : List (Event Device L3Input (L3Outcome × L3State))) (slot : UInt16) (a b : ByteArr 32)
    (last : Event Device L3Input (L3Outcome × L3State)) : Prop :=
  ∃ past first mid, log = past ++ first :: (mid ++ [last]) ∧ AcceptsInput first slot a ∧ AcceptsInput last slot b ∧
    ∀ e ∈ mid, ∀ input, ¬ AcceptsInput e slot input

section Histories

variable {K : Crates} {dev dev' : Device} {log : List (Event Device L3Input (L3Outcome × L3State))} {slot : UInt16}

/-- An accepted command, as a step. -/
theorem l3Step_accepted {i : L3Input} {o : L3Outcome × L3State} {input : ByteArr 32}
    (h : l3Step K dev i = .ok (o, dev')) (ha : AcceptsInput ⟨dev, i, o⟩ slot input) :
    o.1 = macAndDestroyAnswer (f2 K dev slot (dev.macanddContent slot) (f1 K dev slot input)) ∧
      dev'.macanddContent slot = f1 K dev slot input := by
  obtain ⟨hcmd, fields, hf⟩ := ha
  rcases dispatch_macAndDestroy hcmd (l3Step_eq_ok.mp h) with ⟨ho, rfl⟩ | ⟨-, hno⟩
  · refine ⟨ho, ?_⟩
    simp only [Device.macanddContent, Finmap.lookup_insert, Option.getD_some]
  · exact absurd hf (hno fields)

/-- A command that is no MAC_And_Destroy on a slot leaves the slot alone. -/
theorem l3Step_lookup_of_not_names {i : L3Input} {o : L3Outcome × L3State} (h : l3Step K dev i = .ok (o, dev'))
    (hn : ¬ Names i.plaintext .macAndDestroy slot) : dev'.macanddSlots.lookup slot = dev.macanddSlots.lookup slot := by
  have hup := l3Step_update h
  cases hup with
  | @macAndDestroy slot' s _ hc =>
    have hne : slot ≠ slot' := by
      rintro rfl
      exact hn hc
    exact Finmap.lookup_insert_of_ne _ hne
  | _ => rfl

/-- A step that is not an accepted MAC_And_Destroy on a slot leaves the slot alone. -/
theorem l3Step_lookup {i : L3Input} {o : L3Outcome × L3State} (h : l3Step K dev i = .ok (o, dev'))
    (hno : ∀ input, ¬ AcceptsInput ⟨dev, i, o⟩ slot input) :
    dev'.macanddSlots.lookup slot = dev.macanddSlots.lookup slot := by
  by_cases hn : Names i.plaintext .macAndDestroy slot
  · have hd := l3Step_eq_ok.mp h
    by_cases hlen : i.plaintext.length = 36
    · obtain ⟨slot', input, hcmd⟩ := exists_isMacAndDestroy hn.1 hlen
      obtain rfl : slot' = slot := Except.ok.inj (hcmd.names.2.symm.trans hn.2)
      rcases dispatch_macAndDestroy hcmd hd with ⟨ho, -⟩ | ⟨rfl, -⟩
      · exact absurd ⟨hcmd, _, ho⟩ (hno input)
      · rfl
    · rw [dispatch_macAndDestroy_size hn.1 hlen hd]
  · exact l3Step_lookup_of_not_names h hn

/-- The content of a slot after steps that accept no MAC_And_Destroy on it. -/
theorem run_lookup (h : Run (l3Step K) dev log dev') (hno : ∀ e ∈ log, ∀ input, ¬ AcceptsInput e slot input) :
    dev'.macanddSlots.lookup slot = dev.macanddSlots.lookup slot := by
  induction h with
  | nil _ => rfl
  | cons h _ ih =>
    rw [ih fun e he => hno e (List.mem_cons_of_mem _ he)]
    exact l3Step_lookup h (hno _ List.mem_cons_self)

theorem f1_congr {d d' : Device} (h : Ages d d') (input : ByteArr 32) : f1 K d' slot input = f1 K d slot input := by
  rw [f1, f1, h.macanddKey1]

theorem f2_congr {d d' : Device} (h : Ages d d') (s sNew : ByteArr 32) : f2 K d' slot s sNew = f2 K d slot s sNew := by
  rw [f2, f2, h.macanddKey2]

/-- The last answer of a history that ends with two accepted commands on a slot. -/
theorem endsWith_answer (h : Run (l3Step K) dev log dev') {a b : ByteArr 32}
    {last : Event Device L3Input (L3Outcome × L3State)} (he : EndsWith log slot a b last) :
    last.output.1 = macAndDestroyAnswer (f2 K dev slot (f1 K dev slot a) (f1 K dev slot b)) := by
  obtain ⟨past, first, mid, rfl, hfirst, hlast, hmid⟩ := he
  obtain ⟨d₁, hpast, hstep, hrest⟩ := h.mid
  obtain ⟨d₂, hbetween, hstep', -⟩ := hrest.mid
  -- the keys are those of the device at the start
  have hages : Ages dev first.pre := (device_moves_one_way K hpast).2
  have hages' : Ages dev last.pre :=
    hages.trans ((l3Step_oneWay hstep).ages.trans (device_moves_one_way K hbetween).2)
  have hcontent : last.pre.macanddContent slot = f1 K dev slot a := by
    unfold Device.macanddContent
    rw [run_lookup hbetween hmid]
    exact (l3Step_accepted hstep hfirst).2.trans (f1_congr hages a)
  rw [(l3Step_accepted hstep' hlast).1, hcontent, f1_congr hages', f2_congr hages']

/-- Two histories of a device that end with two accepted MAC_And_Destroy commands on a slot, with the same two inputs,
get the same last answer: F2 of F1 of the one and F1 of the other. Commands on other slots leave the slot alone. -/
theorem mac_and_destroy_two_inputs (K : Crates) {dev dev₁ dev₂ : Device} {slot : UInt16} {a b : ByteArr 32}
    {log₁ log₂ : List (Event Device L3Input (L3Outcome × L3State))}
    {last₁ last₂ : Event Device L3Input (L3Outcome × L3State)} (h₁ : Run (l3Step K) dev log₁ dev₁)
    (h₂ : Run (l3Step K) dev log₂ dev₂) (he₁ : EndsWith log₁ slot a b last₁) (he₂ : EndsWith log₂ slot a b last₂) :
    last₁.output.1 = macAndDestroyAnswer (f2 K dev slot (f1 K dev slot a) (f1 K dev slot b)) ∧
      last₂.output.1 = last₁.output.1 ∧
      ∀ (d d' : Device) (i : L3Input) (o : L3Outcome × L3State), l3Step K d i = .ok (o, d') →
        ¬ Names i.plaintext .macAndDestroy slot → d'.macanddSlots.lookup slot = d.macanddSlots.lookup slot := by
  have hanswer := endsWith_answer h₁ he₁
  refine ⟨hanswer, (endsWith_answer h₂ he₂).trans hanswer.symm, ?_⟩
  intro d d' i o hstep hn
  exact l3Step_lookup_of_not_names hstep hn

end Histories

/-- MAC_And_Destroy on slot 127 with an input of one byte repeated. -/
def macAndDestroy127 (b : UInt8) : L3Input := firstCommand ([0x90, 127, 0, 0] ++ List.replicate 32 b)

/-- With the blank crates every output is zero. -/
def answered127 (dev : Device) (b : UInt8) : Event Device L3Input (L3Outcome × L3State) :=
  ⟨dev, macAndDestroy127 b, (macAndDestroyAnswer (zeroArr 32), {})⟩

def usedDevice : Device := { blankDevice with macanddSlots := blankDevice.macanddSlots.insert 127 (zeroArr 32) }

/-- Two commands on a fresh slot, and the same two after a third. -/
theorem last_two_of_three : ∃ log₁ log₂ last₁ last₂, log₁ ≠ log₂ ∧
    Run (l3Step (.recorded [] [] [] [])) blankDevice log₁ usedDevice ∧
    Run (l3Step (.recorded [] [] [] [])) blankDevice log₂ usedDevice ∧
    EndsWith log₁ 127 ⟨List.replicate 32 0xa1, rfl⟩ ⟨List.replicate 32 0xb2, rfl⟩ last₁ ∧
    EndsWith log₂ 127 ⟨List.replicate 32 0xa1, rfl⟩ ⟨List.replicate 32 0xb2, rfl⟩ last₂ ∧
    last₂.output.1 = last₁.output.1 := by
  have hfirst : ∀ b ∈ [0xa1, 0xc3], l3Step (.recorded [] [] [] []) blankDevice (macAndDestroy127 b) =
      .ok ((macAndDestroyAnswer (zeroArr 32), {}), usedDevice) := by decide +kernel
  have hnext : ∀ b ∈ [0xa1, 0xb2], l3Step (.recorded [] [] [] []) usedDevice (macAndDestroy127 b) =
      .ok ((macAndDestroyAnswer (zeroArr 32), {}), usedDevice) := by decide +kernel
  have haccepted : ∀ (d : Device) (b : UInt8), AcceptsInput (answered127 d b) 127 ⟨List.replicate 32 b, by simp⟩ :=
    fun d b => ⟨⟨127, 0, 0, rfl, rfl⟩, _, rfl⟩
  have h₁ : Run (l3Step (.recorded [] [] [] [])) blankDevice
      [answered127 blankDevice 0xa1, answered127 usedDevice 0xb2] usedDevice :=
    .cons (hfirst 0xa1 (by decide)) (.cons (hnext 0xb2 (by decide)) (.nil _))
  have h₂ : Run (l3Step (.recorded [] [] [] [])) blankDevice
      [answered127 blankDevice 0xc3, answered127 usedDevice 0xa1, answered127 usedDevice 0xb2] usedDevice :=
    .cons (hfirst 0xc3 (by decide)) (.cons (hnext 0xa1 (by decide)) (.cons (hnext 0xb2 (by decide)) (.nil _)))
  have he₁ : EndsWith _ 127 ⟨List.replicate 32 0xa1, rfl⟩ ⟨List.replicate 32 0xb2, rfl⟩ _ :=
    ⟨[], answered127 blankDevice 0xa1, [], rfl, haccepted _ _, haccepted usedDevice _, by simp⟩
  have he₂ : EndsWith _ 127 ⟨List.replicate 32 0xa1, rfl⟩ ⟨List.replicate 32 0xb2, rfl⟩ _ :=
    ⟨[answered127 blankDevice 0xc3], answered127 usedDevice 0xa1, [], rfl, haccepted _ _, haccepted usedDevice _,
      by simp⟩
  refine ⟨_, _, _, _, ?_, h₁, h₂, he₁, he₂, (mac_and_destroy_two_inputs _ h₁ h₂ he₁ he₂).2.1⟩
  intro heq
  simpa using congrArg List.length heq

end TROPIC01
end Simulators

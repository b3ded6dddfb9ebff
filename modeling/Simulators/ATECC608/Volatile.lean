/-
# ATECC608: the volatile state follows the commands

A connection starts from a new session; packets of any kind arrive, and the
host puts the device to sleep now and then. Whatever the order, the SHA
context is the data of the Updates since the latest Start (`signal_sha`) and
TempKey the latest accepted Nonce (`signal_nonce`), each until it is cleared.
Hence what SHA End, Sign and Verify answer can be read off the history alone.

Key theorem: `volatile_follows_history`.
-/
import Simulators.Lib.History
import Simulators.ATECC608.Locks
import Simulators.ATECC608.Responses

namespace Simulators
namespace ATECC608

open Handler

/-! ### Connections -/

/-- What reaches a session. -/
inductive Signal
  | packet (g : Rng) (raw : Bytes)
  | sleep

/-- A packet is answered, and sleep is silent. -/
def signal (K : Crates) (state : Device × Session) : Signal → Except Panic (Option Bytes × (Device × Session))
  | .packet g raw => (dispatch K g state.1 state.2 raw).map fun r => (some r.1, r.2)
  | .sleep => .ok (none, state.1, state.2.volatileReset)

/-- A signal as it was taken. -/
abbrev Moment := Event (Device × Session) Signal (Option Bytes)

namespace Moment

variable (e : Moment)

/-- The command of a well-formed packet. -/
def command : Option Command :=
  match e.input with
  | .packet _ raw => (Command.parse raw).toOption
  | .sleep => none

def Sleeps : Prop := e.input = .sleep

def Answers (body : Bytes) : Prop := ∃ response, e.output = some response ∧ Carries response body

/-- Answered, and not with an error. -/
def Accepted : Prop := ∃ response, e.output = some response ∧ ¬ IsError response

/-! ### The history of the SHA context and of TempKey -/

/-- A SHA command of this mode. -/
def Sha (mode : UInt8) : Prop := ∃ cmd, e.command = some cmd ∧ cmd.opcode = opSha ∧ cmd.p1 = mode

/-- The context is gone after sleep and after a successful End. -/
def ClearsSha : Prop := e.Sleeps ∨ e.Sha 0x02 ∧ e.Accepted

/-- The data of an Update. -/
def shaData : Bytes := (e.command.filter fun cmd => cmd.opcode = opSha ∧ cmd.p1 = 0x01).elim [] fun cmd => cmd.data

/-- An accepted Nonce, of the pass-through mode. -/
def LoadsNonce : Prop :=
  (∃ cmd, e.command = some cmd ∧ cmd.opcode = opNonce ∧ cmd.p1 &&& 0x07 = 0x03) ∧ e.Accepted

/-- The data of a command. -/
def data : Bytes := e.command.elim [] fun cmd => cmd.data

end Moment

/-- There was a Start, neither sleep nor a successful End since, and this is
the data of the Updates after the latest Start. -/
def Absorbed (past : List Moment) (data : Bytes) : Prop :=
  Holds (fun e => e.Sha 0x00) Moment.ClearsSha (fun _ => []) (fun b e => b ++ e.shaData) past data

/-- The bytes of the latest accepted Nonce, with no sleep since. -/
def Loaded (past : List Moment) (n : ByteArr 32) : Prop :=
  Holds Moment.LoadsNonce Moment.Sleeps Moment.data (fun b _ => b) past n.bytes

/-! ### What must be answered -/

/-- The key that the data of a slot is. -/
def Holding (K : Crates) (d : Device) (slot : ℕ) (sk : K.SigningKey) : Prop :=
  ∃ data scalar, d.slots[slot]? = some data ∧ toArr 32 (data.take 32) = some scalar ∧
    K.signingKeyFromBytes scalar = some sk

/-- A Sign, of any mode with the top bit set, of the digest. -/
def Signs (K : Crates) (d : Device) (cmd : Command) (n : ByteArr 32) (sig : ByteArr 64) : Prop :=
  cmd.p1 &&& 0x80 ≠ 0 ∧ cmd.p2.toNat < numSlots ∧
    ∃ sk, Holding K d cmd.p2.toNat sk ∧ K.signPrehash sk n = some sig

/-- A Verify of an external key, of the digest. -/
def Verifies (K : Crates) (cmd : Command) (n : ByteArr 32) : Prop :=
  cmd.p1 &&& 0x07 = 0x02 ∧ cmd.data.length = 128 ∧
    ∃ sig vk, K.signatureTryFrom (cmd.data.take 64) = some sig ∧ K.verifyingKeyFromPoint (cmd.data.drop 64) = some vk ∧
      K.verifyPrehash vk n sig = true

/-- What the history says of SHA End, Sign and Verify. -/
structure Follows (K : Crates) (past : List Moment) (e : Moment) : Prop where
  shaEnd : ∀ cmd, e.command = some cmd → cmd.opcode = opSha → cmd.p1 = 0x02 →
    (e.Accepted ↔ ∃ data, Absorbed past data) ∧
      ∀ data, Absorbed past data → e.Answers (K.sha256 (data ++ cmd.data)).bytes
  sign : ∀ cmd, e.command = some cmd → cmd.opcode = opSign →
    (e.Accepted ↔ ∃ n sig, Loaded past n ∧ Signs K e.pre.1 cmd n sig) ∧
      ∀ n sig, Loaded past n → Signs K e.pre.1 cmd n sig → e.Answers sig.bytes
  verify : ∀ cmd, e.command = some cmd → cmd.opcode = opVerify →
    (e.Accepted ↔ ∃ n, Loaded past n ∧ Verifies K cmd n)

/-! ### Round trips -/

/-- Keys can be stored, and verifying accepts what signing made of the same digest. -/
structure Crates.Lawful (K : Crates) : Prop where
  fromBytes_toBytes : ∀ sk, K.signingKeyFromBytes (K.toBytes sk) = some sk
  decodes : ∀ sk n sig, K.signPrehash sk n = some sig → ∃ x, K.signatureTryFrom sig.bytes = some x
  onCurve : ∀ sk, ∃ vk, K.verifyingKeyFromPoint (K.pubkeyRaw sk).bytes = some vk
  verifies : ∀ sk n sig x vk, K.signPrehash sk n = some sig → K.signatureTryFrom sig.bytes = some x →
    K.verifyingKeyFromPoint (K.pubkeyRaw sk).bytes = some vk → K.verifyPrehash vk n x = true

/-- A GenKey that reported a public key, and the data of its slot afterwards. -/
def Reports (K : Crates) (e : Moment) (slot : ℕ) (pk data : Bytes) : Prop :=
  (∃ cmd, e.command = some cmd ∧ cmd.opcode = opGenkey ∧ cmd.p2.toNat = slot) ∧ e.Accepted ∧ e.Answers pk ∧
    ∃ t, signal K e.pre e.input = .ok (e.output, t) ∧ t.1.slots[slot]? = some data

/-- A Sign that made a signature, and the data of its slot. -/
def Signed (e : Moment) (slot : ℕ) (sig data : Bytes) : Prop :=
  (∃ cmd, e.command = some cmd ∧ cmd.opcode = opSign ∧ cmd.p2.toNat = slot) ∧ e.Accepted ∧ e.Answers sig ∧
    e.pre.1.slots[slot]? = some data

/-- A Verify of a signature and a public key. -/
def Asks (e : Moment) (sig pk : Bytes) : Prop :=
  ∃ cmd, e.command = some cmd ∧ cmd.opcode = opVerify ∧ cmd.p1 &&& 0x07 = 0x02 ∧ cmd.data = sig ++ pk

/-- The signature of a slot is accepted with the key reported for the slot, if
the slot has the same data at GenKey and Sign and the Nonce is the same at Sign
and Verify. -/
def RoundTrips (K : Crates) (log : List Moment) : Prop :=
  ∀ pastSign sign restSign pastVerify verify restVerify, log = pastSign ++ sign :: restSign →
    log = pastVerify ++ verify :: restVerify → (∀ n, Loaded pastSign n → Loaded pastVerify n) →
      ∀ genkey ∈ log, ∀ slot pk sig data, Reports K genkey slot pk data → Signed sign slot sig data →
        Asks verify sig pk → verify.Accepted

/-! ### What a command does to the session -/

section Commands

variable {K : Crates} {g : Rng} {d d' : Device} {s s' : Session} {cmd : Command} {body : Bytes}
  {r : Bytes × Device × Session}

theorem handle_sha (hc : cmd.opcode = opSha) : handle K g d s cmd = sha K d s cmd := by
  simp [handle, hc, opSha, opInfo, opRandom, opRead, opWrite, opLock]

theorem handle_nonce (hc : cmd.opcode = opNonce) : handle K g d s cmd = nonce d s cmd := by
  simp [handle, hc, opSha, opInfo, opRandom, opRead, opWrite, opLock, opNonce]

theorem handle_genkey (hc : cmd.opcode = opGenkey) : handle K g d s cmd = genkey K g d s cmd := by
  simp [handle, hc, opSha, opInfo, opRandom, opRead, opWrite, opLock, opNonce, opGenkey]

theorem handle_sign (hc : cmd.opcode = opSign) : handle K g d s cmd = sign K d s cmd := by
  simp [handle, hc, opSha, opInfo, opRandom, opRead, opWrite, opLock, opNonce, opGenkey, opSign]

theorem handle_verify (hc : cmd.opcode = opVerify) : handle K g d s cmd = verify K d s cmd := by
  simp [handle, hc, opSha, opInfo, opRandom, opRead, opWrite, opLock, opNonce, opGenkey, opSign, opVerify]

/-- Only SHA and Nonce touch the session. -/
theorem handle_session (hsha : cmd.opcode ≠ opSha) (hnonce : cmd.opcode ≠ opNonce) :
    Returns (fun r => r.2.2 = s) (handle K g d s cmd) := by
  have hgenkey : Returns (fun r => r.2.2 = s) (genkey K g d s cmd) := by
    simp only [genkey, returns_bind]
    intro _ _
    split
    all_goals simp
  refine handle_induction ?_ ?_ ?_ ?_ ?_ (fun h => absurd h hsha) (fun h => absurd h hnonce) (fun _ => hgenkey)
    ?_ ?_ ?_ ?_
  · simp [info]
  · simp [random]
  · simp [read]
  · simp [write]
  · simp [lock, returns_ite]
  · simp [sign]
  · simp [verify]
  · simp [ecdh]
  · simp

theorem sha_start (h : cmd.p1 = 0x00) : sha K d s cmd = .ok (success, d, { s with sha := some [] }) := by
  unfold sha
  rw [h]
  rfl

theorem sha_update {a : Bytes} (h : cmd.p1 = 0x01) (hs : s.sha = some a) :
    sha K d s cmd = .ok (success, d, { s with sha := some (a ++ cmd.data) }) := by
  unfold sha
  rw [h, hs]
  rfl

theorem sha_end {a : Bytes} (h : cmd.p1 = 0x02) (hs : s.sha = some a) :
    sha K d s cmd = .ok ((K.sha256 (a ++ cmd.data)).bytes, d, { s with sha := none }) := by
  unfold sha
  rw [h, hs]
  rfl

theorem sha_cases (h : sha K d s cmd = .ok (body, d', s')) : s'.tempkey = s.tempkey ∧
    (cmd.p1 = 0x00 ∧ s'.sha = some [] ∨
      cmd.p1 = 0x01 ∧ (∃ a, s.sha = some a ∧ s'.sha = some (a ++ cmd.data)) ∨
      cmd.p1 = 0x02 ∧ (∃ a, s.sha = some a ∧ s'.sha = none) ∨ cmd.p1 = 0x03 ∧ s'.sha = s.sha) := by
  unfold sha at h
  split at h
  · cases h
    exact ⟨rfl, .inl ⟨‹_›, rfl⟩⟩
  · simp only [bind_eq_ok, orRefuse_eq_ok, pure_eq_ok, Except.ok.injEq, Prod.mk.injEq] at h
    obtain ⟨a, ha, -, -, rfl⟩ := h
    exact ⟨rfl, .inr (.inl ⟨‹_›, a, ha, rfl⟩)⟩
  · simp only [bind_eq_ok, orRefuse_eq_ok, pure_eq_ok, Except.ok.injEq, Prod.mk.injEq] at h
    obtain ⟨a, ha, -, -, rfl⟩ := h
    exact ⟨rfl, .inr (.inr (.inl ⟨‹_›, a, ha, rfl⟩))⟩
  · cases h
    exact ⟨rfl, .inr (.inr (.inr ⟨‹_›, rfl⟩))⟩
  · cases h

theorem nonce_eq_ok : nonce d s cmd = .ok (body, d', s') ↔ cmd.p1 &&& 0x07 = 0x03 ∧
    ∃ h : cmd.data.length = 32, (success, d, { s with tempkey := ⟨⟨cmd.data, h⟩, true⟩ }) = (body, d', s') := by
  simp only [nonce, bind_eq_ok, ensure_eq_ok, exists_and_left, exists_const]
  exact and_congr_right fun _ => dite_refuse_eq_ok

theorem handle_keeps_sha (hop : cmd.opcode ≠ opSha) (h : handle K g d s cmd = .ok (body, d', s')) :
    s'.sha = s.sha := by
  by_cases hnonce : cmd.opcode = opNonce
  · rw [handle_nonce hnonce] at h
    obtain ⟨-, hlen, hr⟩ := nonce_eq_ok.mp h
    cases hr
    rfl
  · exact congrArg Session.sha (handle_session hop hnonce _ h)

theorem handle_keeps_tempkey (hop : cmd.opcode ≠ opNonce) (h : handle K g d s cmd = .ok (body, d', s')) :
    s'.tempkey = s.tempkey := by
  by_cases hsha : cmd.opcode = opSha
  · rw [handle_sha hsha] at h
    exact (sha_cases h).1
  · exact congrArg Session.tempkey (handle_session hsha hop _ h)

end Commands

/-! ### The registers -/

section Registers

variable {K : Crates} {st st' : Device × Session} {i : Signal} {o : Option Bytes}

/-- The ways in which a signal is taken. -/
theorem signal_cases (h : signal K st i = .ok (o, st')) :
    (i = .sleep ∧ o = none ∧ st' = (st.1, {})) ∨
      ∃ g raw response, i = .packet g raw ∧ o = some response ∧ dispatch K g st.1 st.2 raw = .ok (response, st') := by
  cases i with
  | sleep =>
    cases h
    exact .inl ⟨rfl, rfl, rfl⟩
  | packet g raw =>
    rcases hd : dispatch K g st.1 st.2 raw with p | ⟨response, t⟩
    · simp [signal, hd, Except.map] at h
    · simp only [signal, hd, Except.map, Except.ok.injEq, Prod.mk.injEq] at h
      obtain ⟨rfl, rfl⟩ := h
      exact .inr ⟨g, raw, response, rfl, rfl, hd⟩

/-- A packet was refused with nothing changed, or its handler returned. -/
theorem moment_cases (h : signal K st i = .ok (o, st')) :
    (i = .sleep ∧ st' = (st.1, {})) ∨
      (i ≠ .sleep ∧ ¬ Moment.Accepted ⟨st, i, o⟩ ∧ st' = st ∧
        ∀ cmd, Moment.command ⟨st, i, o⟩ = some cmd → ∃ g, ∀ r, handle K g st.1 st.2 cmd ≠ .ok r) ∨
      (i ≠ .sleep ∧ Moment.Accepted ⟨st, i, o⟩ ∧ ∃ g cmd body, Moment.command ⟨st, i, o⟩ = some cmd ∧
        handle K g st.1 st.2 cmd = .ok (body, st') ∧ Moment.Answers ⟨st, i, o⟩ body) := by
  rcases signal_cases h with ⟨rfl, -, rfl⟩ | ⟨g, raw, response, rfl, rfl, hd⟩
  · exact .inl ⟨rfl, rfl⟩
  · rcases dispatch_cases hd with ⟨herr, hsame, hno⟩ | ⟨hok, cmd, body, hp, hh, hc⟩
    · refine .inr (.inl ⟨by simp, ?_, hsame, fun cmd hcmd => ⟨g, fun r => hno cmd ?_ r⟩⟩)
      · rintro ⟨response', hr, hok⟩
        cases hr
        exact hok herr
      · rcases hp : Command.parse raw with sw | cmd'
        · simp [Moment.command, hp, Except.toOption] at hcmd
        · simp only [Moment.command, hp, Except.toOption, Option.some.injEq] at hcmd
          rw [hcmd]
    · refine .inr (.inr ⟨by simp, ⟨response, rfl, hok⟩, g, cmd, body, ?_, hh, response, rfl, hc⟩)
      simp [Moment.command, hp, Except.toOption]

theorem Moment.sha_iff {e : Moment} {cmd : Command} (hc : e.command = some cmd) (mode : UInt8) :
    e.Sha mode ↔ cmd.opcode = opSha ∧ cmd.p1 = mode := by
  rw [Moment.Sha, hc]
  simp

theorem Moment.not_sha {e : Moment} (hc : e.command = none) (mode : UInt8) : ¬ e.Sha mode := by
  rw [Moment.Sha, hc]
  simp

theorem Moment.shaData_eq {e : Moment} {cmd : Command} (hc : e.command = some cmd) :
    e.shaData = if cmd.opcode = opSha ∧ cmd.p1 = 0x01 then cmd.data else [] := by
  rw [Moment.shaData, hc, Option.filter_some]
  split
  · rename_i h
    rw [if_pos (by simpa using h)]
    rfl
  · rename_i h
    rw [if_neg (by simpa using h)]
    rfl

theorem Moment.shaData_nil {e : Moment} (h : ¬ e.Sha 0x01) : e.shaData = [] := by
  rcases hc : e.command with _ | cmd
  · rw [Moment.shaData, hc]
    rfl
  · rw [Moment.sha_iff hc] at h
    rw [Moment.shaData_eq hc, if_neg h]

theorem Moment.not_clearsSha {e : Moment} (hi : e.input ≠ .sleep) (h : ¬ (e.Sha 0x02 ∧ e.Accepted)) :
    ¬ e.ClearsSha := by
  rintro (hsleep | hend)
  · exact hi hsleep
  · exact h hend

/-- A moment that is no Update leaves what was absorbed. -/
theorem Moment.absorbs_nothing {e : Moment} (h : ¬ e.Sha 0x01) (x : Option Bytes) :
    x = x.map fun b => b ++ e.shaData := by
  rw [Moment.shaData_nil h]
  simp

/-- One signal, one change of the SHA context. -/
theorem signal_sha (h : signal K st i = .ok (o, st')) :
    Registers (fun e : Moment => e.Sha 0x00) Moment.ClearsSha (fun _ => []) (fun b e => b ++ e.shaData) ⟨st, i, o⟩
      st.2.sha st'.2.sha := by
  rcases moment_cases h with ⟨rfl, rfl⟩ | ⟨hi, hrefused, rfl, hno⟩ | ⟨hi, hacc, g, cmd, body, hc, hh, -⟩
  · exact .of_clear (Moment.not_sha rfl _) (.inl rfl) rfl
  · -- Start is never refused, and Update only if nothing was started
    refine .of_keep ?_ (Moment.not_clearsSha hi fun hend => hrefused hend.2) ?_
    · rintro ⟨cmd, hc, hop, hp1⟩
      obtain ⟨g, hno⟩ := hno cmd hc
      exact absurd (handle_sha hop ▸ sha_start hp1) (hno _)
    · by_cases hu : Moment.Sha ⟨st', i, o⟩ 0x01
      · obtain ⟨cmd, hc, hop, hp1⟩ := hu
        obtain ⟨g, hno⟩ := hno cmd hc
        rcases hsha : st'.2.sha with _ | a
        · rfl
        · exact absurd (handle_sha hop ▸ sha_update hp1 hsha) (hno _)
      · exact Moment.absorbs_nothing hu _
  · have hsha := Moment.sha_iff hc
    by_cases hop : cmd.opcode = opSha
    · have hother : ∀ {m m' : UInt8}, cmd.p1 = m → m' ≠ m → ¬ Moment.Sha ⟨st, i, o⟩ m' := by
        intro m m' hp1 hne hm
        exact hne (((hsha m').mp hm).2.symm.trans hp1)
      rw [handle_sha hop] at hh
      rcases (sha_cases hh).2 with ⟨hp1, hs⟩ | ⟨hp1, a, ha, hs⟩ | ⟨hp1, a, -, hs⟩ | ⟨hp1, hs⟩
      · exact .of_set ((hsha 0x00).mpr ⟨hop, hp1⟩) hs
      · refine .of_keep (hother hp1 (by decide)) (Moment.not_clearsSha hi fun hend => ?_) ?_
        · exact hother hp1 (by decide) hend.1
        · rw [hs, ha, Moment.shaData_eq hc, if_pos ⟨hop, hp1⟩]
          rfl
      · exact .of_clear (hother hp1 (by decide)) (.inr ⟨(hsha 0x02).mpr ⟨hop, hp1⟩, hacc⟩) hs
      · refine .of_keep (hother hp1 (by decide)) (Moment.not_clearsSha hi fun hend => ?_) ?_
        · exact hother hp1 (by decide) hend.1
        · rw [hs]
          exact Moment.absorbs_nothing (hother hp1 (by decide)) _
    · have hno : ∀ mode, ¬ Moment.Sha ⟨st, i, o⟩ mode := fun mode hm => hop ((hsha mode).mp hm).1
      refine .of_keep (hno _) (Moment.not_clearsSha hi fun hend => hno _ hend.1) ?_
      rw [handle_keeps_sha hop hh]
      exact Moment.absorbs_nothing (hno _) _

/-- The bytes of a valid TempKey. -/
def Session.nonceBytes (s : Session) : Option Bytes :=
  if s.tempkey.valid = true then some s.tempkey.value.bytes else none

theorem Session.nonceBytes_eq_some {s : Session} {n : ByteArr 32} :
    s.nonceBytes = some n.bytes ↔ s.tempkey.valid = true ∧ s.tempkey.value = n := by
  rw [Session.nonceBytes]
  split
  · rename_i h
    rw [Option.some.injEq, ← ByteArr.ext_iff, and_iff_right h]
  · rename_i h
    simp [h]

/-- One signal, one change of TempKey. -/
theorem signal_nonce (h : signal K st i = .ok (o, st')) :
    Registers Moment.LoadsNonce Moment.Sleeps Moment.data (fun b _ => b) ⟨st, i, o⟩ st.2.nonceBytes
      st'.2.nonceBytes := by
  rcases moment_cases h with ⟨rfl, rfl⟩ | ⟨hi, hrefused, rfl, -⟩ | ⟨hi, hacc, g, cmd, body, hc, hh, -⟩
  · refine .of_clear ?_ rfl rfl
    rintro ⟨⟨cmd, hc, -⟩, -⟩
    cases hc
  · exact .of_keep (fun hl => hrefused hl.2) hi Option.map_id'.symm
  · by_cases hop : cmd.opcode = opNonce
    · rw [handle_nonce hop] at hh
      obtain ⟨hp1, hlen, hr⟩ := nonce_eq_ok.mp hh
      have hs := (Prod.mk.inj (Prod.mk.inj hr).2).2
      refine .of_set ⟨⟨cmd, hc, hop, hp1⟩, hacc⟩ ?_
      rw [← hs, Moment.data, hc]
      rfl
    · refine .of_keep ?_ hi ?_
      · rintro ⟨⟨cmd', hc', hop', -⟩, -⟩
        rw [hc] at hc'
        cases hc'
        exact hop hop'
      · rw [Session.nonceBytes, Session.nonceBytes, handle_keeps_tempkey hop hh, Option.map_id']

/-- After any signals from a new session, the registers are what the history says. -/
theorem run_absorbed {d : Device} {log : List Moment} (h : Run (signal K) (d, {}) log st) (data : Bytes) :
    st.2.sha = some data ↔ Absorbed log data :=
  h.register (fun st => st.2.sha) (fun _ _ _ _ hs => signal_sha hs) rfl data

theorem run_loaded {d : Device} {log : List Moment} (h : Run (signal K) (d, {}) log st) (n : ByteArr 32) :
    st.2.tempkey.valid = true ∧ st.2.tempkey.value = n ↔ Loaded log n := by
  rw [← Session.nonceBytes_eq_some]
  exact h.register (fun st => st.2.nonceBytes) (fun _ _ _ _ hs => signal_nonce hs) rfl n.bytes

end Registers

/-! ### The answers -/

section Answers

variable {K : Crates} {d : Device} {s : Session} {st : Device × Session} {cmd : Command} {e : Moment}
  {past : List Moment}

/-- A command whose handler draws no random bytes is answered as its handler says. -/
theorem moment_answers {x : Cmd} (h : signal K e.pre e.input = .ok (e.output, st)) (hc : e.command = some cmd)
    (hx : ∀ g, handle K g e.pre.1 e.pre.2 cmd = x) :
    (e.Accepted ↔ ∃ r, x = .ok r) ∧ ∀ body t, x = .ok (body, t) → e.Answers body ∧ t = st := by
  rcases moment_cases h with ⟨hi, -⟩ | ⟨-, hrefused, -, hno⟩ | ⟨-, hacc, g, cmd', body, hc', hh, hans⟩
  · rw [Moment.command, hi] at hc
    cases hc
  · obtain ⟨g, hno⟩ := hno cmd hc
    rw [hx] at hno
    constructor
    · constructor
      · exact fun hacc => absurd hacc hrefused
      · rintro ⟨r, hr⟩
        exact absurd hr (hno r)
    · exact fun body t hr => absurd hr (hno _)
  · have hsame : some cmd = some cmd' := hc.symm.trans hc'
    cases hsame
    rw [hx] at hh
    refine ⟨iff_of_true hacc ⟨_, hh⟩, fun body' t hr => ?_⟩
    rw [hh] at hr
    cases hr
    exact ⟨hans, rfl⟩

theorem sha_end_returns (hp1 : cmd.p1 = 0x02) : (∃ r, sha K d s cmd = .ok r) ↔ ∃ a, s.sha = some a := by
  constructor
  · rintro ⟨r, hr⟩
    rcases hs : s.sha with _ | a
    · unfold sha at hr
      rw [hp1, hs] at hr
      cases hr
    · exact ⟨a, rfl⟩
  · rintro ⟨a, hs⟩
    exact ⟨_, sha_end hp1 hs⟩

theorem slotScalar_eq_ok {slot : ℕ} {scalar : ByteArr 32} :
    slotScalar d slot = .ok scalar ↔ ∃ data, d.slots[slot]? = some data ∧ toArr 32 (data.take 32) = some scalar := by
  simp only [slotScalar, bind_eq_ok, index_eq_ok, orRefuse_eq_ok]

theorem sign_eq_ok {r : Bytes × Device × Session} : sign K d s cmd = .ok r ↔
    s.tempkey.valid = true ∧ ∃ sig, Signs K d cmd s.tempkey.value sig ∧ r = (sig.bytes, d, s) := by
  simp only [sign, bind_eq_ok, ensure_eq_ok, slotScalar_eq_ok, orRefuse_eq_ok, pure_eq_ok, Except.ok.injEq, Signs,
    Holding]
  constructor
  · rintro ⟨-, hmode, -, hlt, -, hvalid, scalar, ⟨data, hs, hscalar⟩, sk, hsk, sig, hsig, rfl⟩
    exact ⟨hvalid, sig, ⟨hmode, hlt, sk, ⟨data, scalar, hs, hscalar, hsk⟩, hsig⟩, rfl⟩
  · rintro ⟨hvalid, sig, ⟨hmode, hlt, sk, ⟨data, scalar, hs, hscalar, hsk⟩, hsig⟩, rfl⟩
    exact ⟨(), hmode, (), hlt, (), hvalid, scalar, ⟨data, hs, hscalar⟩, sk, hsk, sig, hsig, rfl⟩

theorem verify_eq_ok {r : Bytes × Device × Session} : verify K d s cmd = .ok r ↔
    s.tempkey.valid = true ∧ Verifies K cmd s.tempkey.value ∧ r = (success, d, s) := by
  simp only [verify, bind_eq_ok, ensure_eq_ok, orRefuse_eq_ok, pure_eq_ok, Except.ok.injEq, Verifies]
  constructor
  · rintro ⟨-, hmode, -, hlen, -, hvalid, sig, hsig, vk, hvk, -, hv, rfl⟩
    exact ⟨hvalid, ⟨hmode, hlen, sig, vk, hsig, hvk, hv⟩, rfl⟩
  · rintro ⟨hvalid, ⟨hmode, hlen, sig, vk, hsig, hvk, hv⟩, rfl⟩
    exact ⟨(), hmode, (), hlen, (), hvalid, sig, hsig, vk, hvk, (), hv, rfl⟩

/-- A signal is answered as the history says that the registers hold. -/
theorem follows_of_registers (hsha : ∀ data, e.pre.2.sha = some data ↔ Absorbed past data)
    (hnonce : ∀ n, e.pre.2.tempkey.valid = true ∧ e.pre.2.tempkey.value = n ↔ Loaded past n)
    (h : signal K e.pre e.input = .ok (e.output, st)) : Follows K past e where
  shaEnd := by
    intro cmd hc hop hp1
    obtain ⟨hacc, hans⟩ := moment_answers h hc fun _ => handle_sha hop
    refine ⟨?_, fun data hdata => ?_⟩
    · rw [hacc, sha_end_returns hp1]
      exact exists_congr fun data => hsha data
    · exact (hans _ _ (sha_end hp1 ((hsha data).mpr hdata))).1
  sign := by
    intro cmd hc hop
    obtain ⟨hacc, hans⟩ := moment_answers h hc fun _ => handle_sign hop
    refine ⟨?_, fun n sig hn hsig => ?_⟩
    · rw [hacc]
      constructor
      · rintro ⟨r, hr⟩
        obtain ⟨hvalid, sig, hsig, -⟩ := sign_eq_ok.mp hr
        exact ⟨_, sig, (hnonce _).mp ⟨hvalid, rfl⟩, hsig⟩
      · rintro ⟨n, sig, hn, hsig⟩
        obtain ⟨hvalid, rfl⟩ := (hnonce n).mpr hn
        exact ⟨_, sign_eq_ok.mpr ⟨hvalid, sig, hsig, rfl⟩⟩
    · obtain ⟨hvalid, rfl⟩ := (hnonce n).mpr hn
      exact (hans _ _ (sign_eq_ok.mpr ⟨hvalid, sig, hsig, rfl⟩)).1
  verify := by
    intro cmd hc hop
    rw [(moment_answers h hc fun _ => handle_verify hop).1]
    constructor
    · rintro ⟨r, hr⟩
      obtain ⟨hvalid, hv, -⟩ := verify_eq_ok.mp hr
      exact ⟨_, (hnonce _).mp ⟨hvalid, rfl⟩, hv⟩
    · rintro ⟨n, hn, hv⟩
      obtain ⟨hvalid, rfl⟩ := (hnonce n).mpr hn
      exact ⟨_, verify_eq_ok.mpr ⟨hvalid, hv, rfl⟩⟩

/-- Every signal of a connection is answered as its history says. -/
theorem run_follows (hpast : Run (signal K) (d, {}) past e.pre) (h : signal K e.pre e.input = .ok (e.output, st)) :
    Follows K past e :=
  follows_of_registers (run_absorbed hpast) (run_loaded hpast) h

/-! ### Signatures that verify -/

theorem answers_inj {body body' : Bytes} (h : e.Answers body) (h' : e.Answers body') : body = body' := by
  obtain ⟨response, hr, hc⟩ := h
  obtain ⟨response', hr', hc'⟩ := h'
  rw [hr, Option.some.injEq] at hr'
  exact buildResponse_inj hc (hr' ▸ hc')

theorem holding_inj {d' : Device} {slot : ℕ} {data : Bytes} {sk sk' : K.SigningKey} (hd : d.slots[slot]? = some data)
    (hd' : d'.slots[slot]? = some data) (h : Holding K d slot sk) (h' : Holding K d' slot sk') : sk = sk' := by
  obtain ⟨b, scalar, hb, hscalar, hsk⟩ := h
  obtain ⟨b', scalar', hb', hscalar', hsk'⟩ := h'
  rw [hd, Option.some.injEq] at hb
  rw [hd', Option.some.injEq] at hb'
  subst hb hb'
  rw [hscalar, Option.some.injEq] at hscalar'
  subst hscalar'
  exact Option.some.inj (hsk.symm.trans hsk')

/-- GenKey reports the key that the slot holds afterwards. -/
theorem genkey_holding {g : Rng} {r : Bytes × Device × Session} (hK : K.Lawful) (h : genkey K g d s cmd = .ok r) :
    ∃ sk, r.1 = (K.pubkeyRaw sk).bytes ∧ Holding K r.2.1 cmd.p2.toNat sk := by
  simp only [genkey, bind_eq_ok, ensure_eq_ok] at h
  obtain ⟨-, -, h⟩ := h
  split at h
  · simp only [bind_eq_ok, ensure_eq_ok, index_eq_ok, pure_eq_ok, Except.ok.injEq] at h
    obtain ⟨-, -, old, hs, rfl⟩ := h
    have hput := List.getElem?_set_self (a := overwrite (padTo 32 old) 0 (K.toBytes (K.signingKeyRandom g)).bytes)
      (List.getElem?_eq_some_iff.mp hs).1
    refine ⟨K.signingKeyRandom g, rfl, _, K.toBytes (K.signingKeyRandom g), hput, ?_, hK.fromBytes_toBytes _⟩
    rw [overwrite, List.take_zero, List.nil_append, List.take_left' (ByteArr.size _), toArr_bytes]
  · simp only [bind_eq_ok, slotScalar_eq_ok, orRefuse_eq_ok, pure_eq_ok, Except.ok.injEq] at h
    obtain ⟨scalar, ⟨data, hs, hscalar⟩, sk, hsk, rfl⟩ := h
    exact ⟨sk, rfl, data, scalar, hs, hscalar, hsk⟩
  · cases h

theorem reports_holding {slot : ℕ} {pk data : Bytes} (hK : K.Lawful) (h : Reports K e slot pk data) :
    ∃ (t : Device × Session) (sk : K.SigningKey), t.1.slots[slot]? = some data ∧ pk = (K.pubkeyRaw sk).bytes ∧
      Holding K t.1 slot sk := by
  obtain ⟨⟨cmd, hc, hop, rfl⟩, hacc, hans, t, hstep, ht⟩ := h
  rcases moment_cases hstep with ⟨hi, -⟩ | ⟨-, hrefused, -⟩ | ⟨-, -, g, cmd', body, hc', hh, hans'⟩
  · rw [Moment.command, hi] at hc
    cases hc
  · exact absurd hacc hrefused
  · have hsame : some cmd = some cmd' := hc.symm.trans hc'
    cases hsame
    rw [handle_genkey hop] at hh
    obtain ⟨sk, hbody, hsk⟩ := genkey_holding hK hh
    exact ⟨t, sk, ht, (answers_inj hans hans').trans hbody, hsk⟩

/-- A signature and a public key of one key, and of the Nonce that is loaded. -/
theorem verifies_of_signs (hK : K.Lawful) {sk : K.SigningKey} {n : ByteArr 32} {sig : ByteArr 64}
    (hsig : K.signPrehash sk n = some sig) (hmode : cmd.p1 &&& 0x07 = 0x02)
    (hdata : cmd.data = sig.bytes ++ (K.pubkeyRaw sk).bytes) : Verifies K cmd n := by
  obtain ⟨x, hx⟩ := hK.decodes sk n sig hsig
  obtain ⟨vk, hvk⟩ := hK.onCurve sk
  refine ⟨hmode, ?_, x, vk, ?_, ?_, hK.verifies sk n sig x vk hsig hx hvk⟩
  · rw [hdata, List.length_append, sig.size, ByteArr.size]
  · rw [hdata, List.take_left' sig.size, hx]
  · rw [hdata, List.drop_left' sig.size, hvk]

theorem run_roundTrips (hK : K.Lawful) {log : List Moment}
    (hfollows : ∀ past e rest, log = past ++ e :: rest → Follows K past e) : RoundTrips K log := by
  intro pastSign sign restSign pastVerify verify restVerify hsign hverify hnonce genkey _ slot pk sig data hreports
    hsigned hasks
  obtain ⟨t, sk, hslot, rfl, hsk⟩ := reports_holding hK hreports
  obtain ⟨⟨cmd, hc, hop, rfl⟩, hacc, hans, hslot'⟩ := hsigned
  have hfollowsSign := (hfollows _ _ _ hsign).sign cmd hc hop
  obtain ⟨n, sig', hn, hsigns⟩ := hfollowsSign.1.mp hacc
  obtain rfl := answers_inj hans (hfollowsSign.2 n sig' hn hsigns)
  obtain ⟨-, -, sk', hsk', hprehash⟩ := hsigns
  obtain rfl := holding_inj hslot hslot' hsk hsk'
  obtain ⟨cmd', hc', hop', hmode, hdata⟩ := hasks
  apply ((hfollows _ _ _ hverify).verify cmd' hc' hop').mpr
  exact ⟨n, hnonce n hn, verifies_of_signs hK hprehash hmode hdata⟩

end Answers

/-! ### Sequences of signals -/

theorem signal_returns {K : Crates} {st : Device × Session} (h16 : st.1.slots.length = numSlots) (i : Signal) :
    ∃ o st', signal K st i = .ok (o, st') ∧ st'.1.slots.length = numSlots := by
  cases i with
  | sleep => exact ⟨none, _, rfl, h16⟩
  | packet g raw =>
    obtain ⟨response, d', s', h⟩ := dispatch_returns (K := K) (g := g) (s := st.2) h16 raw
    refine ⟨some response, (d', s'), by simp [signal, h, Except.map], ?_⟩
    rcases dispatch_update h with rfl | ⟨cmd, -, hu⟩
    · exact h16
    · exact hu.slots_length.trans h16

theorem trace_returns {K : Crates} : ∀ (signals : List Signal) (st : Device × Session),
    st.1.slots.length = numSlots → ∃ log st', trace (signal K) st signals = .ok (log, st')
  | [], st, _ => ⟨[], st, rfl⟩
  | i :: signals, st, h16 => by
    obtain ⟨o, st1, hstep, h16'⟩ := signal_returns (K := K) h16 i
    obtain ⟨log, st', htrace⟩ := trace_returns (K := K) signals st1 h16'
    exact ⟨⟨st, i, o⟩ :: log, st', by simp only [trace, hstep, htrace]⟩

/-- Every sequence of signals from a new session is answered as its history
says, and signatures verify. -/
theorem volatile_follows_history (K : Crates) (d : Device) (signals : List Signal) :
    (d.slots.length = numSlots → ∃ log st, trace (signal K) (d, {}) signals = .ok (log, st)) ∧
      ∀ log st, trace (signal K) (d, {}) signals = .ok (log, st) →
        (∀ past e rest, log = past ++ e :: rest → Follows K past e) ∧ (K.Lawful → RoundTrips K log) := by
  refine ⟨trace_returns signals (d, {}), fun log st htrace => ?_⟩
  have hfollows : ∀ past e rest, log = past ++ e :: rest → Follows K past e := by
    rintro past e rest rfl
    obtain ⟨next, hpast, hstep, -⟩ := (run_of_trace htrace).mid
    exact run_follows hpast hstep
  exact ⟨hfollows, fun hK => run_roundTrips hK hfollows⟩

/-! ### One key -/

/-- A number as an array. -/
def beArr (n v : ℕ) : ByteArr n := ⟨toBe n v, toBe_length n v⟩

/-- A private key, its public key, and the digest and signature of the message `sample`. -/
def sampleKey : ByteArr 32 := beArr 32 0xC9AFA9D845BA75166B5C215767B1D6934E50C3DB36E89B127B8A622B120F6721

def samplePublic : ByteArr 64 := beArr 64
  (0x60FED4BA255A9D31C961EB74C6356D68C049B8923B61FA6CE669622E60F29FB6 * 2 ^ 256 +
    0x7903FE1008B8BC99A41AE9E95628BC64F2F1B20C2D7E9F5177A3C294D4462299)

def sampleDigest : ByteArr 32 := beArr 32 0xAF2BDBE1AA9B6EC1E2ADE1D694F41FC71A831D0268E9891562113D8A62ADD1BF

def sampleSignature : ByteArr 64 := beArr 64
  (0xEFD48B2AACB6A8FD1140DD9CD45E81D69D2C877B56AAF991C34D0EA84EAF3716 * 2 ^ 256 +
    0xF7CB1C942D657C41D436C7A1B6E29F65F3E900DBB9AFF4064DC4AB2F843ACDA8)

def sampleMessage : Bytes := [0x73, 0x61, 0x6D, 0x70, 0x6C, 0x65]

/-- Crates that know this key and this message. -/
def sampleCrates : Crates where
  sha256 b := if b = sampleMessage then sampleDigest else zeroArr 32
  SigningKey := Unit
  signingKeyRandom _ := ()
  toBytes _ := sampleKey
  signingKeyFromBytes b := if b = sampleKey then some () else none
  pubkeyRaw _ := samplePublic
  signPrehash _ n := if n = sampleDigest then some sampleSignature else none
  Signature := Unit
  signatureTryFrom b := if b = sampleSignature.bytes then some () else none
  VerifyingKey := Unit
  verifyingKeyFromPoint b := if b = samplePublic.bytes then some () else none
  verifyPrehash _ n _ := n = sampleDigest
  SecretKey := Unit
  secretKeyFromBytes _ := none
  PublicKey := Unit
  publicKeyFromPoint _ := none
  diffieHellman _ _ := zeroArr 32

theorem sampleCrates_lawful : sampleCrates.Lawful where
  fromBytes_toBytes := by
    intro sk
    simp only [sampleCrates, reduceIte]
    rfl
  decodes := by
    intro _ n sig h
    have hsig : sampleSignature = sig := (Option.ite_none_right_eq_some.mp h).2 |> Option.some.inj
    exact ⟨(), if_pos (hsig ▸ rfl)⟩
  onCurve := by
    intro _
    simp [sampleCrates]
  verifies := by
    intro _ n _ _ _ h _ _
    exact decide_eq_true (Option.ite_none_right_eq_some.mp h).1

/-- A run that starts with a command that its handler accepts. -/
theorem trace_frame {K : Crates} {g : Rng} {st st1 st' : Device × Session} {cmd : Command} {body : Bytes}
    {signals : List Signal} {log : List Moment}
    (htrace : trace (signal K) st (.packet g cmd.frame :: signals) = .ok (log, st')) (h : cmd.data.length ≤ 248)
    (hh : handle K g st.1 st.2 cmd = .ok (body, st1)) :
    ∃ e rest, log = e :: rest ∧ e.Answers body ∧ trace (signal K) st1 signals = .ok (rest, st') := by
  obtain ⟨response, hr⟩ := respond_returns (r := (body, st1)) (handle_answered hh).body
  have hstep : signal K st (.packet g cmd.frame) = .ok (some response, st1) := by
    have hd : dispatch K g st.1 st.2 cmd.frame = .ok (response, st1) := by
      unfold dispatch
      rw [parse_frame h]
      dsimp only
      rw [hh]
      exact hr
    simp [signal, hd, Except.map]
  rw [trace, hstep] at htrace
  dsimp only at htrace
  rcases hrest : trace (signal K) st1 signals with p | ⟨rest, st2⟩
  · rw [hrest] at htrace
    cases htrace
  · rw [hrest] at htrace
    cases htrace
    exact ⟨_, rest, rfl, ⟨response, rfl, (respond_carries hr).1⟩, rfl⟩

/-- A command sent to the device. -/
def sent (opcode p1 : UInt8) (data : Bytes) : Signal := .packet (fun _ => 0) (Command.frame ⟨opcode, p1, 0, data⟩)

/-- Start, a new key in slot 0, End with the message, Nonce with the digest, Sign and Verify. -/
def sampleSignals : List Signal :=
  [sent opSha 0x00 [], sent opGenkey 0x04 [], sent opSha 0x02 sampleMessage, sent opNonce 0x03 sampleDigest.bytes,
    sent opSign 0x80 [], sent opVerify 0x02 (sampleSignature.bytes ++ samplePublic.bytes)]

/-- The message is hashed, signed and verified. -/
theorem sample_follows_history : (partlyLocked 0x55).slots.length = numSlots ∧ sampleCrates.Lawful ∧
    ∃ log st, trace (signal sampleCrates) (partlyLocked 0x55, {}) sampleSignals = .ok (log, st) ∧
      List.Forall₂ Moment.Answers log [success, samplePublic.bytes, sampleDigest.bytes, success, sampleSignature.bytes,
        success] ∧
      (∀ past e rest, log = past ++ e :: rest → Follows sampleCrates past e) ∧ RoundTrips sampleCrates log := by
  have h16 : (partlyLocked 0x55).slots.length = numSlots := by decide
  obtain ⟨hreturns, hfollows⟩ := volatile_follows_history sampleCrates (partlyLocked 0x55) sampleSignals
  obtain ⟨log, st, htrace⟩ := hreturns h16
  obtain ⟨hlog, hround⟩ := hfollows log st htrace
  refine ⟨h16, sampleCrates_lawful, log, st, htrace, ?_, hlog, hround sampleCrates_lawful⟩
  let d := partlyLocked 0x55
  let d' : Device := { d with slots := sampleKey.bytes :: List.replicate 15 [] }
  let s : Session := { tempkey := ⟨sampleDigest, true⟩ }
  have hstart : handle sampleCrates (fun _ => 0) d {} ⟨opSha, 0x00, 0, []⟩ = .ok (success, d, { sha := some [] }) := rfl
  have hgenkey : handle sampleCrates (fun _ => 0) d { sha := some [] } ⟨opGenkey, 0x04, 0, []⟩ =
      .ok (samplePublic.bytes, d', { sha := some [] }) := by decide +kernel
  have hend : handle sampleCrates (fun _ => 0) d' { sha := some [] } ⟨opSha, 0x02, 0, sampleMessage⟩ =
      .ok (sampleDigest.bytes, d', {}) := by decide +kernel
  have hnonce : handle sampleCrates (fun _ => 0) d' {} ⟨opNonce, 0x03, 0, sampleDigest.bytes⟩ =
      .ok (success, d', s) := by decide +kernel
  have hsign : handle sampleCrates (fun _ => 0) d' s ⟨opSign, 0x80, 0, []⟩ =
      .ok (sampleSignature.bytes, d', s) := by decide +kernel
  have hverify : handle sampleCrates (fun _ => 0) d' s
      ⟨opVerify, 0x02, 0, sampleSignature.bytes ++ samplePublic.bytes⟩ = .ok (success, d', s) := by decide +kernel
  have hlen : (sampleSignature.bytes ++ samplePublic.bytes).length ≤ 248 := by
    rw [List.length_append, ByteArr.size, ByteArr.size]
    decide
  have ht := htrace
  simp only [sampleSignals, sent] at ht
  obtain ⟨e1, log1, rfl, ha1, ht1⟩ := trace_frame ht (by decide) hstart
  obtain ⟨e2, log2, rfl, ha2, ht2⟩ := trace_frame ht1 (by decide) hgenkey
  obtain ⟨e3, log3, rfl, ha3, ht3⟩ := trace_frame ht2 (by decide) hend
  obtain ⟨e4, log4, rfl, ha4, ht4⟩ := trace_frame ht3 (by decide) hnonce
  obtain ⟨e5, log5, rfl, ha5, ht5⟩ := trace_frame ht4 (by decide) hsign
  obtain ⟨e6, log6, rfl, ha6, ht6⟩ := trace_frame ht5 hlen hverify
  cases ht6
  exact .cons ha1 (.cons ha2 (.cons ha3 (.cons ha4 (.cons ha5 (.cons ha6 .nil)))))

end ATECC608
end Simulators

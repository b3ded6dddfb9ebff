/-
# ATECC608: what a response says

A response is its body between a count and a CRC, so it has one body
(`buildResponse_inj`). A command that is refused is answered with its error
status and leaves device and session as they were. One that is accepted is
answered with a status of success or with more than one byte, so the response
alone tells the two apart (`dispatch_cases`).

Key theorems: `dispatch_cases`, `accepted_iff`, `accepted_returns`.
-/
import Simulators.ATECC608.Update

namespace Simulators
namespace ATECC608

open Handler

/-- The response packet with this body. -/
def Carries (response body : Bytes) : Prop := buildResponse body = .ok response

/-- A status other than success. -/
def IsError (response : Bytes) : Prop := ∃ sw, sw ≠ statusSuccess ∧ Carries response [sw]

@[simp] theorem parseError_ne : statusParseError ≠ statusSuccess := by decide

@[simp] theorem executionError_ne : statusExecutionError ≠ statusSuccess := by decide

@[simp] theorem miscompare_ne : statusMiscompare ≠ statusSuccess := by decide

section Responses

variable {body body' response : Bytes}

theorem carries_body (h : Carries response body) : (response.drop 1).take (response.length - 3) = body := by
  unfold Carries buildResponse at h
  dsimp only at h
  split at h
  · cases h
    simp [crc16Le]
  · cases h

theorem buildResponse_inj (h : Carries response body) (h' : Carries response body') : body = body' := by
  rw [← carries_body h, ← carries_body h']

/-- The bodies of accepted commands. -/
def Accepting (body : Bytes) : Prop := body = success ∨ 1 < body.length

theorem Accepting.not_isError (ha : Accepting body) (h : Carries response body) : ¬ IsError response := by
  rintro ⟨sw, hne, hsw⟩
  have hbody := buildResponse_inj h hsw
  rcases ha with rfl | hlen
  · apply hne
    exact (List.cons.inj hbody).1.symm
  · rw [hbody] at hlen
    exact absurd hlen (by simp)

theorem Accepting.of_length {n : ℕ} (h : body.length = n) (hn : 1 < n) : Accepting body := .inr (h ▸ hn)

theorem accepting_arr {n : ℕ} (a : ByteArr n) (hn : 1 < n) : Accepting a.bytes := .of_length a.size hn

end Responses

/-! ### Commands as they are sent -/

/-- The packet of a command. -/
def Command.frame (cmd : Command) : Bytes :=
  let out := UInt8.ofNat (cmd.data.length + 7) :: cmd.opcode :: cmd.p1 :: loByte cmd.p2 :: hiByte cmd.p2 :: cmd.data
  out ++ crc16Le out

theorem u16Le_bytes (w : UInt16) : u16Le (loByte w) (hiByte w) = w := by
  rw [u16Le, be16_bytes, UInt16.ofNat_toNat]

/-- Every command is parsed as it was sent. -/
theorem parse_frame {cmd : Command} (h : cmd.data.length ≤ 248) : Command.parse cmd.frame = .ok cmd := by
  obtain ⟨opcode, p1, p2, data⟩ := cmd
  dsimp only at h
  have hcount : (UInt8.ofNat (data.length + 7)).toNat = data.length + 7 := by
    rw [UInt8.toNat_ofNat', Nat.mod_eq_of_lt (by omega)]
  simp only [Command.frame]
  generalize hout : UInt8.ofNat (data.length + 7) :: opcode :: p1 :: loByte p2 :: hiByte p2 :: data = out
  have hlen : out.length = data.length + 5 := by rw [← hout]; simp
  have htake : (out ++ crc16Le out).take (data.length + 7 - 2) = out := List.take_left' (by omega)
  have hdrop : (out ++ crc16Le out).drop (data.length + 7 - 2) = [loByte (crc16 out), hiByte (crc16 out)] :=
    List.drop_left' (by omega)
  have hhead : ((out ++ crc16Le out).headD 0).toNat = data.length + 7 := by rw [← hout]; exact hcount
  have hfull : (out ++ crc16Le out).length = data.length + 7 := by
    rw [List.length_append, hlen]
    rfl
  unfold Command.parse
  simp only [hhead, hfull, htake, hdrop]
  rw [if_neg (by simp [minCmdLen]), if_neg (by simp [minCmdLen]), ← hout]
  simp only [List.cons_append, u16Le_bytes]
  rw [if_neg (by simp), Nat.add_sub_cancel, List.take_left]

section Handlers

variable {K : Crates} {g : Rng} {d d' : Device} {s s' : Session} {cmd : Command}

/-- A handler accepts with an accepting body, and refuses with an error status. -/
structure Polite (x : Cmd) : Prop where
  accepts : Returns (fun r => Accepting r.1) x
  refuses : Refuses (fun sw => sw ≠ statusSuccess) x

theorem info_polite : Polite (info d s cmd) where
  accepts := by
    simp only [info, returns_bind, returns_pure, slice_eq_ok, d.config.size]
    rintro _ - rev ⟨-, rfl⟩
    refine .of_length (n := 4) ?_ (by decide)
    rw [List.length_take, List.length_drop, d.config.size]
    rfl
  refuses := by
    simp [info]

theorem random_polite : Polite (random g d s cmd) where
  accepts := by
    simp only [random, returns_pure]
    exact .of_length (n := 32) (by simp) (by decide)
  refuses := refuses_pure

theorem readFrom_refuses {zoneId : UInt8} {addr : UInt16} {len : ℕ} :
    Refuses (fun sw => sw ≠ statusSuccess) (readFrom d zoneId addr len) := by
  simp [readFrom, readLinear, readData, refuses_ite]

theorem read_polite : Polite (read d s cmd) where
  accepts := by
    simp only [read, returns_bind, returns_pure]
    intro body h
    refine .of_length (readFrom_length h) ?_
    unfold accessLen
    split <;> decide
  refuses := by
    simp only [read, refuses_bind, refuses_pure, implies_true, and_true]
    exact readFrom_refuses

theorem writeTo_refuses {zoneId : UInt8} {addr : UInt16} {data : Bytes} :
    Refuses (fun sw => sw ≠ statusSuccess) (writeTo d zoneId addr data) := by
  have hconfig : Refuses (fun sw => sw ≠ statusSuccess) (writeConfig d addr data) := by
    simp only [writeConfig, refuses_bind, refuses_ensure]
    refine ⟨fun _ => executionError_ne, fun _ _ => ?_⟩
    split
    · exact refuses_pure
    · exact refuses_refuse.mpr parseError_ne
  have hotp : Refuses (fun sw => sw ≠ statusSuccess) (writeOtp d addr data) := by
    simp only [writeOtp, refuses_bind, refuses_ensure]
    refine ⟨fun _ => executionError_ne, fun _ _ => ?_⟩
    split
    · exact refuses_pure
    · exact refuses_refuse.mpr parseError_ne
  have hdata : Refuses (fun sw => sw ≠ statusSuccess) (writeData d addr data) := by
    simp [writeData]
  simp only [writeTo, refuses_ite]
  have hother : Refuses (fun sw => sw ≠ statusSuccess) (refuse statusParseError : Handler UInt8 Device) :=
    refuses_refuse.mpr parseError_ne
  exact ⟨fun _ => hconfig, fun _ => ⟨fun _ => hotp, fun _ => ⟨fun _ => hdata, fun _ => hother⟩⟩⟩

theorem write_polite : Polite (write d s cmd) where
  accepts := by
    simp only [write, returns_bind, returns_pure]
    exact fun _ _ _ _ _ _ => .inl rfl
  refuses := by
    simp only [write, refuses_bind, refuses_ensure, refuses_pure, implies_true, and_true]
    exact ⟨fun _ => executionError_ne, fun _ _ => ⟨fun _ => parseError_ne, fun _ _ => writeTo_refuses⟩⟩

theorem lock_polite : Polite (lock d s cmd) where
  accepts := by
    simp only [lock, returns_ite, returns_bind, returns_pure]
    refine ⟨fun _ _ _ => .inl rfl, fun _ => ⟨fun _ _ _ => .inl rfl, fun _ => ⟨fun _ _ _ _ _ => .inl rfl, ?_⟩⟩⟩
    exact fun _ => returns_refuse
  refuses := by
    simp [lock, refuses_ite]

theorem sha_polite : Polite (sha K d s cmd) where
  accepts := by
    unfold sha
    split
    · exact returns_pure.mpr (.inl rfl)
    · simp only [returns_bind, returns_pure]
      exact fun _ _ => .inl rfl
    · simp only [returns_bind, returns_pure]
      exact fun _ _ => accepting_arr _ (by decide)
    · exact returns_pure.mpr (accepting_arr _ (by decide))
    · exact returns_refuse
  refuses := by
    unfold sha
    split
    all_goals simp

theorem nonce_polite : Polite (nonce d s cmd) where
  accepts := by
    simp only [nonce, returns_bind]
    intro _ _
    split
    · exact returns_pure.mpr (.inl rfl)
    · exact returns_refuse
  refuses := by
    simp only [nonce, refuses_bind, refuses_ensure]
    refine ⟨fun _ => parseError_ne, fun _ _ => ?_⟩
    split
    · exact refuses_pure
    · exact refuses_refuse.mpr parseError_ne

theorem slotScalar_refuses {slot : ℕ} : Refuses (fun sw => sw ≠ statusSuccess) (slotScalar d slot) := by
  simp only [slotScalar, refuses_bind, refuses_index, refuses_orRefuse, true_and]
  exact fun _ _ _ => executionError_ne

theorem genkey_polite : Polite (genkey K g d s cmd) where
  accepts := by
    simp only [genkey, returns_bind]
    intro _ _
    split
    · simp only [returns_bind, returns_pure]
      exact fun _ _ _ _ => accepting_arr _ (by decide)
    · simp only [returns_bind, returns_pure]
      exact fun _ _ _ _ => accepting_arr _ (by decide)
    · exact returns_refuse
  refuses := by
    simp only [genkey, refuses_bind, refuses_ensure]
    refine ⟨fun _ => parseError_ne, fun _ _ => ?_⟩
    split
    · simp
    · simp [slotScalar_refuses]
    · exact refuses_refuse.mpr parseError_ne

theorem sign_polite : Polite (sign K d s cmd) where
  accepts := by
    simp only [sign, returns_bind, returns_pure]
    exact fun _ _ _ _ _ _ _ _ _ _ sig _ => accepting_arr sig (by decide)
  refuses := by
    simp [sign, slotScalar_refuses]

theorem verify_polite : Polite (verify K d s cmd) where
  accepts := by
    simp only [verify, returns_bind, returns_pure]
    exact fun _ _ _ _ _ _ _ _ _ _ _ _ => .inl rfl
  refuses := by
    simp [verify]

theorem ecdh_polite : Polite (ecdh K d s cmd) where
  accepts := by
    simp only [ecdh, returns_bind, returns_pure]
    exact fun _ _ _ _ _ _ _ _ _ _ _ _ => accepting_arr _ (by decide)
  refuses := by
    simp [ecdh, slotScalar_refuses]

theorem handle_polite : Polite (handle K g d s cmd) :=
  handle_induction info_polite random_polite read_polite (fun _ => write_polite) (fun _ => lock_polite)
    (fun _ => sha_polite) (fun _ => nonce_polite) (fun _ => genkey_polite) sign_polite verify_polite ecdh_polite
    ⟨returns_refuse, refuses_refuse.mpr parseError_ne⟩

theorem parse_ne_success {raw : Bytes} {sw : UInt8} (h : Command.parse raw = .error sw) : sw ≠ statusSuccess := by
  unfold Command.parse at h
  dsimp only at h
  split at h
  · cases h
    decide
  · split at h
    · cases h
      decide
    · split at h
      · split at h
        · cases h
          decide
        · cases h
      · cases h
        decide

end Handlers

section Dispatch

variable {K : Crates} {g : Rng} {d d' : Device} {s s' : Session} {raw response : Bytes}

theorem respond_carries {r : Bytes × Device × Session} (h : respond r = .ok (response, d', s')) :
    Carries response r.1 ∧ r.2 = (d', s') := by
  refine ⟨?_, respond_eq_ok h⟩
  unfold respond at h
  unfold Carries
  rcases hb : buildResponse r.1 with p | q
  · rw [hb] at h
    cases h
  · rw [hb] at h
    exact congrArg Except.ok (Prod.mk.inj (Except.ok.inj h)).1

/-- The two ways in which a packet is answered. -/
theorem dispatch_cases (h : dispatch K g d s raw = .ok (response, d', s')) :
    (IsError response ∧ (d', s') = (d, s) ∧ ∀ cmd, Command.parse raw = .ok cmd → ∀ r, handle K g d s cmd ≠ .ok r) ∨
      ¬ IsError response ∧ ∃ cmd body, Command.parse raw = .ok cmd ∧ handle K g d s cmd = .ok (body, d', s') ∧
        Carries response body := by
  unfold dispatch at h
  rcases hp : Command.parse raw with sw | cmd
  · rw [hp] at h
    obtain ⟨hc, hs⟩ := respond_carries (r := ([sw], d, s)) h
    exact .inl ⟨⟨sw, parse_ne_success hp, hc⟩, hs.symm, fun _ hcmd => by cases hcmd⟩
  · rw [hp] at h
    dsimp only at h
    rcases hh : handle K g d s cmd with (p | sw) | r
    · rw [hh] at h
      cases h
    · rw [hh] at h
      obtain ⟨hc, hs⟩ := respond_carries (r := ([sw], d, s)) h
      refine .inl ⟨⟨sw, handle_polite.refuses sw hh, hc⟩, hs.symm, fun cmd' hcmd r hr => ?_⟩
      cases hcmd
      rw [hh] at hr
      cases hr
    · rw [hh] at h
      obtain ⟨hc, hs⟩ := respond_carries (r := r) h
      exact .inr ⟨(handle_polite.accepts r hh).not_isError hc, cmd, r.1, rfl, by rw [hh, ← hs], hc⟩

section Parsed

variable {cmd : Command} (hp : Command.parse raw = .ok cmd) (h : dispatch K g d s raw = .ok (response, d', s'))

include hp h

/-- A command is accepted if its handler returns. -/
theorem accepted_iff : ¬ IsError response ↔ ∃ r, handle K g d s cmd = .ok r := by
  rcases dispatch_cases h with ⟨herr, -, hno⟩ | ⟨hok, cmd', body, hp', hh, -⟩
  · constructor
    · exact fun hok => absurd herr hok
    · rintro ⟨r, hr⟩
      exact absurd hr (hno cmd hp r)
  · rw [hp] at hp'
    cases hp'
    exact iff_of_true hok ⟨_, hh⟩

/-- The response is what the handler returned. -/
theorem accepted_returns {r : Bytes × Device × Session} (hr : handle K g d s cmd = .ok r) :
    Carries response r.1 ∧ r.2 = (d', s') := by
  rcases dispatch_cases h with ⟨-, -, hno⟩ | ⟨-, cmd', body, hp', hh, hc⟩
  · exact absurd hr (hno cmd hp r)
  · rw [hp] at hp'
    cases hp'
    rw [hr] at hh
    cases hh
    exact ⟨hc, rfl⟩

end Parsed

end Dispatch

end ATECC608
end Simulators

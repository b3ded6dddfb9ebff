/-
# SE050: who may change the store

A frame changes the store only if it completes a plain command while no
channel is active and none is required, or a command of the active channel
with a valid C-MAC; whether channels are required and the channel's keys
change only in the second way. With a required channel the store therefore
stays as it is until some EXTERNAL AUTHENTICATE succeeds
(`store_changes_authenticated`).

The C-MAC is the end of the data field: an Le may follow it.
-/
import Simulators.SE050.Channel
import Simulators.SE050.Routing

namespace Simulators
namespace SE050

open Handler T1Responder

/-! ### The two ways -/

/-- Header with Lc, payload, and MAC, for a data field of `lc` bytes. -/
def macPartsOf (header : Bytes) (lc : ℕ) (rest : Bytes) : Option (Bytes × Bytes × Bytes) :=
  if 8 ≤ lc ∧ lc ≤ rest.length then some (header, (rest.take lc).take (lc - 8), (rest.take lc).drop (lc - 8)) else none

/-- The parts of an APDU with secure messaging. Lc has one byte, or two after a zero. -/
def macParts : Bytes → Option (Bytes × Bytes × Bytes)
  | cla :: ins :: p1 :: p2 :: lc :: rest =>
    if lc ≠ 0x00 then macPartsOf [cla, ins, p1, p2, lc] lc.toNat rest
    else match rest with
      | hi :: lo :: rest => macPartsOf [cla, ins, p1, p2, lc, hi, lo] (be16 hi lo) rest
      | _ => none
  | _ => none

/-- The last eight bytes of the data field are the session's MAC of header, Lc and payload. -/
def Session.MacValid (K : Crates) (sess : Session) (apdu : Bytes) : Prop :=
  ∃ header payload mac k, macParts apdu = some (header, payload, mac) ∧ AnyAes.new sess.sMac = some k ∧
    mac = (K.cmac k (sess.mcv.bytes ++ (header ++ payload))).bytes.take 8

/-- A plain command where none has to be protected. -/
def PlainRoute (d : Device) (apdu : Bytes) : Prop :=
  d.1.scp03.isActive = false ∧ d.2.scpRequired = false ∧ apdu.head? = some 0x80

/-- A command of the active channel. -/
def SecureRoute (K : Crates) (d : Device) (apdu : Bytes) : Prop :=
  ∃ sess, d.1.scp03 = .active sess ∧ (∃ cla, apdu.head? = some cla ∧ cla &&& 0x04 ≠ 0) ∧ sess.MacValid K apdu

theorem not_plain_and_secure {K : Crates} {d : Device} {apdu : Bytes} :
    ¬ (PlainRoute d apdu ∧ SecureRoute K d apdu) := by
  rintro ⟨⟨hact, -, -⟩, sess, hs, -⟩
  rw [hs] at hact
  exact absurd hact (by simp [Scp03State.isActive])

section Steps

variable {K : Crates} {env : Env} {s s' : ObjectStore} {t t' : T1Responder} {apdu : Bytes} {r : ApduResponse}

theorem unwrapBody_mac {sess sess' : Session} {inner : ParsedApdu} {cla ins p1 p2 : UInt8}
    {header rest : Bytes} {lc : ℕ}
    (h : sess.unwrapBody K cla ins p1 p2 header lc rest = .ok (inner, sess')) :
    ∃ payload mac k, macPartsOf header lc rest = some (header, payload, mac) ∧ AnyAes.new sess.sMac = some k ∧
      mac = (K.cmac k (sess.mcv.bytes ++ (header ++ payload))).bytes.take 8 := by
  simp only [Session.unwrapBody, bind_eq_ok, ensure_eq_ok, orRefuse_eq_ok] at h
  obtain ⟨-, hlc, full, hfull, -, hmac, -⟩ := h
  simp only [cmacChain, Option.map_eq_some_iff] at hfull
  obtain ⟨k, hk, rfl⟩ := hfull
  exact ⟨_, _, k, if_pos hlc, hk, hmac.symm⟩

/-- What the session unwraps has a valid MAC. -/
theorem unwrapCommand_macValid {sess sess' : Session} {inner : ParsedApdu}
    (h : sess.unwrapCommand K apdu = .ok (inner, sess')) : sess.MacValid K apdu := by
  unfold Session.unwrapCommand at h
  split at h
  · rename_i cla ins p1 p2 lc rest
    split at h
    · rename_i hlc
      obtain ⟨payload, mac, k, hp, hk, hm⟩ := unwrapBody_mac h
      exact ⟨_, payload, mac, k, by simp only [macParts, if_pos hlc, hp], hk, hm⟩
    · rename_i hlc
      split at h
      · obtain ⟨payload, mac, k, hp, hk, hm⟩ := unwrapBody_mac h
        exact ⟨_, payload, mac, k, by simp only [macParts, if_neg hlc, hp], hk, hm⟩
      · simp at h
  · simp at h

/-- Only over a channel may a command set whether one is required. -/
theorem Transition.keeps_scp {apdu : ParsedApdu} (h : Transition K env apdu false s r s') :
    s'.scpRequired = s.scpRequired ∧ s'.platformScp = s.platformScp := by
  cases h with
  | idle => exact ⟨rfl, rfl⟩
  | write _ _ _ hs =>
    rcases hs with rfl | ⟨-, _, _, rfl⟩
    · simp [ObjectStore.insert]
    · simp [ObjectStore.insert, ObjectStore.setCreationMetadata]
  | rsaComponent => simp [ObjectStore.insert]
  | derive => simp [ObjectStore.insert]
  | delete =>
    unfold ObjectStore.remove
    split <;> simp
  | deleteAll => simp [ObjectStore.clear]
  | curves => simp
  | context => exact ⟨rfl, rfl⟩
  | final => exact ⟨rfl, rfl⟩
  | createCryptoObj => exact ⟨rfl, rfl⟩
  | deleteCryptoObj => exact ⟨rfl, rfl⟩
  | scp _ h => exact absurd h (by simp)

/-- An APDU leaves the store alone, or takes one of the two ways. -/
theorem ApduStep.route (h : ApduStep K env s t apdu r t' s') :
    s' = s ∨ SecureRoute K (t, s) apdu ∨
      PlainRoute (t, s) apdu ∧ s'.scpRequired = s.scpRequired ∧ s'.platformScp = s.platformScp := by
  cases h with
  | select => exact .inl rfl
  | badSelect => exact .inl rfl
  | stay => exact .inl rfl
  | authenticate => exact .inl rfl
  | @wrapped sess _ _ inner _ _ _ ht hu hi =>
    refine .inr (.inl ⟨sess, ht, ?_, unwrapCommand_macValid hu⟩)
    simp only [T1Responder.innerApdu, ht] at hi
    cases apdu with
    | nil => cases hi
    | cons cla rest =>
      by_cases hb : cla &&& 0x04 ≠ 0
      · exact ⟨cla, rfl, hb⟩
      · rw [Session.innerApdu, if_neg hb] at hi
        cases hi
  | plain hp hcla ht hr hd =>
    obtain ⟨_, _, _, heq⟩ := parse_eq_ok hp
    refine .inr (.inr ⟨⟨ht, hr, ?_⟩, (dispatch_transition hd).keeps_scp⟩)
    rw [heq, hcla]
    rfl

/-- Without a channel, an APDU opens one only by EXTERNAL AUTHENTICATE. -/
theorem ApduStep.inactive (h : ApduStep K env s t apdu r t' s') (ht : t.scp03.isActive = false) :
    t'.scp03.isActive = false ∨ ((∃ rest, apdu = 0x84 :: 0x82 :: rest) ∧ r = .success) := by
  cases h with
  | select => exact .inl rfl
  | badSelect => exact .inl rfl
  | stay _ hst =>
    refine .inl (Bool.eq_false_iff.mpr ?_)
    intro hact
    rw [hst hact] at ht
    cases ht
  | authenticate _ _ hc => exact .inr ⟨hc, rfl⟩
  | wrapped hact =>
    rw [hact] at ht
    cases ht
  | plain => exact .inl ht

end Steps

/-! ### Runs -/

abbrev DeviceEvent := Event Device (Env × Bytes) (List Bytes)

/-- EXTERNAL AUTHENTICATE, answered `9000`. -/
def DeviceEvent.Authenticates (e : DeviceEvent) : Prop :=
  (∃ rest, completedApdu e.pre.1 e.input.2 = some (0x84 :: 0x82 :: rest)) ∧ responseBytes e.output = [0x90, 0x00]

/-- One frame without a channel where one is required. -/
theorem step_required {K : Crates} {d d' : Device} {i : Env × Bytes} {out : List Bytes}
    (h : Device.step K d i = .ok (out, d')) (hact : d.1.scp03.isActive = false) (hreq : d.2.scpRequired = true)
    (hauth : ¬ DeviceEvent.Authenticates ⟨d, i, out⟩) : d'.1.scp03.isActive = false ∧ d'.2 = d.2 := by
  obtain ⟨t, s⟩ := d
  obtain ⟨t', s'⟩ := d'
  cases processFrame_step h with
  | @apdu apdu r t₁ _ _ hc _ hs ho hch =>
    refine ⟨?_, ?_⟩
    · rw [hch]
      rcases hs.inactive hact with h1 | ⟨⟨rest, rfl⟩, rfl⟩
      · exact h1
      · exact absurd ⟨⟨rest, hc⟩, ho⟩ hauth
    · rcases hs.route with h1 | ⟨sess, h1, -⟩ | ⟨⟨-, h1, -⟩, -⟩
      · exact h1
      · rw [h1] at hact
        cases hact
      · rw [hreq] at h1
        cases h1
  | reset => exact ⟨rfl, rfl⟩
  | keep _ _ hch =>
    refine ⟨?_, rfl⟩
    rw [hch]
    exact hact

/-- For every frame: the store changes in exactly one of the two ways, and
the requirement and the keys of channels in the second only. For every run
from a device without an active channel: while a channel is required and no
EXTERNAL AUTHENTICATE is answered `9000`, the store does not change. -/
theorem store_changes_authenticated (K : Crates) :
    (∀ (d : Device) i out (d' : Device), Device.step K d i = .ok (out, d') →
      (d'.2 ≠ d.2 → ∃ apdu, completedApdu d.1 i.2 = some apdu ∧
        (PlainRoute d apdu ∨ SecureRoute K d apdu) ∧ ¬ (PlainRoute d apdu ∧ SecureRoute K d apdu)) ∧
      (d'.2.scpRequired ≠ d.2.scpRequired ∨ d'.2.platformScp ≠ d.2.platformScp →
        ∃ apdu, completedApdu d.1 i.2 = some apdu ∧ SecureRoute K d apdu)) ∧
    ∀ (d : Device) log (d' : Device), Run (Device.step K) d log d' → d.2.scpRequired = true →
      d.1.scp03.isActive = false → (∀ e ∈ log, ¬ DeviceEvent.Authenticates e) → d'.2 = d.2 := by
  refine ⟨?_, ?_⟩
  · rintro ⟨t, s⟩ i out ⟨t', s'⟩ h
    cases processFrame_step h with
    | @apdu apdu _ _ _ _ hc _ hs =>
      refine ⟨fun hne => ⟨apdu, hc, ?_, not_plain_and_secure⟩, fun hne => ⟨apdu, hc, ?_⟩⟩
      · rcases hs.route with h1 | h1 | ⟨h1, -⟩
        · exact absurd h1 hne
        · exact .inr h1
        · exact .inl h1
      · rcases hs.route with rfl | h1 | ⟨-, h1, h2⟩
        · exact absurd hne (by simp)
        · exact h1
        · exact absurd hne (by simp [h1, h2])
    | reset => exact ⟨fun hne => absurd rfl hne, fun hne => absurd hne (by simp)⟩
    | keep => exact ⟨fun hne => absurd rfl hne, fun hne => absurd hne (by simp)⟩
  · intro d log d' hrun hreq hact hlog
    have hinv : d'.1.scp03.isActive = false ∧ d'.2 = d.2 := by
      refine hrun.invariant (I := fun x => x.1.scp03.isActive = false ∧ x.2 = d.2)
        (P := fun e => ¬ DeviceEvent.Authenticates e) ?_ hlog ⟨hact, rfl⟩
      rintro x i o x' ⟨h1, h2⟩ hno hstep
      obtain ⟨h3, h4⟩ := step_required hstep h1 (h2 ▸ hreq) hno
      exact ⟨h3, h4.trans h2⟩
    exact hinv.2

/-! The handshake of the tests at level `01`, then a wrapped DeleteAll with an Le. -/

def deleteAllMacs : List Recorded :=
  [⟨sessionMac, toBe 29 0x8482010010ad5e484a81d592d9, toBe 16 0x8e2d8c269bd36523c499da9e0645a058⟩,
    ⟨sessionMac, toBe 21 0x8e2d8c269bd36523c499da9e0645a0588404002a08, toBe 16 0xfab98245526132ed5447c8336dd15f42⟩,
    ⟨sessionMac, toBe 22 0x8e2d8c269bd36523c499da9e0645a0588404002a08fa, toBe 16 0xaf40fac16465c9d6c9528cb8495bb18f⟩]

def deleteAllCrates : Crates := Crates.recorded (handshakeMacs ++ deleteAllMacs) []

/-- A store with one file that requires a channel. -/
def fileStore : ObjectStore :=
  { ObjectStore.new with
    objects := (∅ : HashMap ObjectId SecureObject).insert ⟨0x20, 0, 0, 1⟩ (.binary [0x01]), scpRequired := true }

/-- An APDU in one frame. -/
def apduFrame (seq : UInt8) (apdu : Bytes) : Env × Bytes :=
  (challengeEnv, (frameChunks 0x5A (.iFrame seq false) apdu).flatten)

def initializeUpdateApdu : Bytes := toBe 13 0x80500b0008a0a1a2a3a4a5a6a7
def externalAuthenticateApdu : Bytes := toBe 21 0x8482010010ad5e484a81d592d98e2d8c269bd36523
def deleteAllApdu : Bytes := toBe 14 0x8404002a08fab98245526132ed00

/-- The session after the handshake. -/
def macSession : Session :=
  ⟨sessionEnc, sessionMac, sessionRmac, 0x01, ⟨toBe 16 0x8e2d8c269bd36523c499da9e0645a058, toBe_length _ _⟩, 1, 0, false⟩

/-- The responder after the handshake. -/
def macResponder : T1Responder := { T1Responder.new 0x5A with scp03 := .active macSession }

/-- The MAC is not in the last eight bytes of the APDU, of whose payload what
stands before them is or is not a part; and with the channel open already, the
store changes without an EXTERNAL AUTHENTICATE. -/
theorem deleteAll_with_le_changes_store :
    (runAll (Device.step deleteAllCrates) (T1Responder.new 0x5A, fileStore)
        [apduFrame 0 initializeUpdateApdu, apduFrame 1 externalAuthenticateApdu]).map (·.2) =
      .ok (macResponder, fileStore) ∧
    fileStore.scpRequired = true ∧
    (Device.step deleteAllCrates (macResponder, fileStore) (apduFrame 0 deleteAllApdu)).map (·.2.2.objects) = .ok ∅ ∧
    fileStore.objects ≠ ∅ ∧
    completedApdu macResponder (apduFrame 0 deleteAllApdu).2 = some deleteAllApdu ∧
    ∀ payload ∈ [[], (deleteAllApdu.drop 5).take (deleteAllApdu.length - 13)],
      deleteAllApdu.drop (deleteAllApdu.length - 8) ≠
        (deleteAllCrates.cmac ⟨sessionMac, .inl (toBe_length _ _)⟩
          (macSession.mcv.bytes ++ (deleteAllApdu.take 5 ++ payload))).bytes.take 8 := by
  refine ⟨?_, rfl, ?_, ?_, ?_, ?_⟩
  all_goals decide +kernel

end SE050
end Simulators

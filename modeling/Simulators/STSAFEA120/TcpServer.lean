/-
# STSAFE-A120: the TCP server, and keys used over several connections

`bin/tcp_server.rs`: frames with a length of two bytes in front, in both
directions; all connections share the device, which is saved after every
frame.

The key of a slot may be generated over one connection, used over another,
and its signature verified over a third. What matters is the order in which
the lock was taken: a slot holds the key whose point GENERATE_KEY reported
last (`Reported.holds`), so signatures verify against that point, and two
slots agree on a secret.

The file is modelled by the device that was written to it.
-/
import Simulators.Lib.Server
import Simulators.STSAFEA120.Layouts

namespace Simulators
namespace STSAFEA120

open Handler

/-! ### Framing -/

/-- Bytes behind a length of two bytes that is accepted. -/
def readFramed (accepted : ℕ → Prop) [DecidablePred accepted] : Bytes → Arrival Bytes
  | hi :: lo :: rest =>
    let len := be16 hi lo
    if ¬ accepted len then .fails
    else if rest.length < len then .waits
    else .message (rest.take len) (rest.drop len)
  | _ => .waits

section Framing

variable {accepted : ℕ → Prop} [DecidablePred accepted]

theorem readFramed_eq_message {b m rest : Bytes} : readFramed accepted b = .message m rest ↔
    ∃ hi lo, b = hi :: lo :: (m ++ rest) ∧ accepted (be16 hi lo) ∧ m.length = be16 hi lo := by
  constructor
  · intro h
    unfold readFramed at h
    split at h
    · rename_i hi lo bytes
      dsimp only at h
      split_ifs at h with hacc hlen
      cases h
      refine ⟨hi, lo, by rw [List.take_append_drop], hacc, ?_⟩
      rw [List.length_take]
      exact Nat.min_eq_left (not_lt.mp hlen)
    · cases h
  · rintro ⟨hi, lo, rfl, hacc, hlen⟩
    unfold readFramed
    dsimp only
    rw [if_neg (not_not.mpr hacc), if_neg (by rw [List.length_append]; omega), ← hlen, List.take_left, List.drop_left]

theorem readFramed_eq_fails {b : Bytes} : readFramed accepted b = .fails ↔
    ∃ hi lo rest, b = hi :: lo :: rest ∧ ¬ accepted (be16 hi lo) := by
  constructor
  · intro h
    unfold readFramed at h
    split at h
    · rename_i hi lo rest
      dsimp only at h
      split_ifs at h with hacc
      exact ⟨hi, lo, rest, rfl, hacc⟩
    · cases h
  · rintro ⟨hi, lo, rest, rfl, hacc⟩
    unfold readFramed
    dsimp only
    rw [if_pos hacc]

def framed16 (accepted : ℕ → Prop) [DecidablePred accepted] : Framing Bytes where
  next := readFramed accepted
  shorter h := by
    obtain ⟨hi, lo, rfl, -, -⟩ := readFramed_eq_message.mp h
    simp only [List.length_cons, List.length_append]
    omega
  message_append c h := by
    obtain ⟨hi, lo, rfl, hacc, hlen⟩ := readFramed_eq_message.mp h
    exact readFramed_eq_message.mpr ⟨hi, lo, by simp, hacc, hlen⟩
  fails_append c h := by
    obtain ⟨hi, lo, rest, rfl, hacc⟩ := readFramed_eq_fails.mp h
    exact readFramed_eq_fails.mpr ⟨hi, lo, rest ++ c, rfl, hacc⟩

end Framing

/-- The frames that `handle_connection` reads. -/
def requests : Framing Bytes := framed16 fun len => ¬ (len = 0 ∨ len > maxFrameLengthA120 + 4)

/-- The frames that it writes. -/
def responses : Framing Bytes := framed16 fun _ => True

/-! ### The server -/

/-- The store, and the device in the file. -/
structure Disk where
  store : Store
  file : Device

/-- `handle_connection`, one frame. -/
def handleFrame (K : Crates) (disk : Disk) (session : Session K) (g : Rng) (frame : Bytes) :
    Except Panic (Disk × Option (Session K × Bytes)) :=
  match dispatch K g disk.store session frame with
  | .error p => .error p
  | .ok (response, store, session) =>
    let respLen := UInt16.ofNat response.length
    .ok (⟨store, store.device⟩, some (session, u16Be respLen ++ response))

def tcpServer (K : Crates) : Server Disk (Session K) Rng Bytes Panic where
  framing := requests
  fresh := ⟨none⟩
  handle := handleFrame K

/-! ### The history of the slots -/

/-- A frame that was handled for one of the connections. -/
abbrev Exchange (K : Crates) (ι : Type) := Server.Handling Disk (Session K) Rng Bytes ι

section History

variable {K : Crates} {ι : Type}

/-- The frame is this command. -/
def Exchange.Sends (e : Exchange K ι) (header : UInt8) (body : Bytes) : Prop :=
  e.input.message = framed (header :: body)

/-- It was answered OK, with this body. -/
def Exchange.Answers (e : Exchange K ι) (body : Bytes) : Prop :=
  e.output = some (u16Be (UInt16.ofNat (buildResponse statusOk body).length) ++ buildResponse statusOk body)

/-- A GENERATE_KEY for the slot that was answered OK. -/
def Exchange.Generates (e : Exchange K ι) (slot : UInt8) : Prop :=
  ∃ body r, e.Sends cmdGenerateKey body ∧ body[1]? = some slot ∧ e.Answers r

/-- It reported this point. -/
def Exchange.Reports (e : Exchange K ι) (slot : UInt8) (x y : ByteArr 32) : Prop :=
  ∃ body, e.Sends cmdGenerateKey body ∧ body[1]? = some slot ∧
    e.Answers (pointRepresentationUncompressed :: (coordinate x.bytes ++ coordinate y.bytes))

/-- The point is what the latest GENERATE_KEY for the slot had reported when `e` was handled. -/
def Reported (log : List (Exchange K ι)) (e : Exchange K ι) (slot : UInt8) (x y : ByteArr 32) : Prop :=
  ∃ l₁ key l₂ l₃, log = l₁ ++ key :: (l₂ ++ e :: l₃) ∧ key.Reports slot x y ∧ ∀ e' ∈ l₂, ¬ e'.Generates slot

/-- A GENERATE_SIGNATURE of the digest, and its signature. -/
def Exchange.Signs (e : Exchange K ι) (slot : UInt8) (digest r s : ByteArr 32) : Prop :=
  e.Sends cmdGenerateSignature (slot :: coordinate digest.bytes) ∧ e.Answers (coordinate r.bytes ++ coordinate s.bytes)

/-- A VERIFY_SIGNATURE. -/
def Exchange.Asks (e : Exchange K ι) (x y r s digest : ByteArr 32) : Prop :=
  e.Sends cmdVerifySignature (verification 0 x.bytes y.bytes r.bytes s.bytes digest.bytes [])

/-- An ESTABLISH_KEY of a slot with a point. -/
def Exchange.Establishes (e : Exchange K ι) (slot : UInt8) (x y : ByteArr 32) : Prop :=
  e.Sends cmdEstablishKey (slot :: pointRepresentationUncompressed :: point x.bytes y.bytes [])

/-- Signatures verify, over any connections, against the point that was reported for the slot. -/
def SignaturesVerify (log : List (Exchange K ι)) : Prop :=
  ∀ sign ∈ log, ∀ verify ∈ log, ∀ slot x y digest r s, Reported log sign slot x y → sign.Signs slot digest r s →
    verify.Asks x y r s digest → verify.Answers [1]

/-- Two slots, each with the point of the other, give one secret. -/
def SecretsAgree (log : List (Exchange K ι)) : Prop :=
  ∀ e ∈ log, ∀ e' ∈ log, ∀ slot slot' x y x' y', Reported log e slot x y → Reported log e' slot' x' y' →
    e.Establishes slot x' y' → e'.Establishes slot' x y → ∃ secret, e.Answers secret ∧ e'.Answers secret

end History

/-- The point of a secret key. -/
def Crates.HasPoint (K : Crates) (sk : K.SecretKey) (x y : ByteArr 32) : Prop :=
  ∃ form, K.encodedPoint (K.signingKeyFrom sk) = form :: (x.bytes ++ y.bytes)

/-- Keys can be stored, their points can be read, verifying accepts what signing made of the same digest, and
Diffie-Hellman commutes. -/
structure Crates.Lawful (K : Crates) : Prop where
  signingKey : ∀ sk, K.signingKeyFromSlice (K.toBytes sk).bytes = some (K.signingKeyFrom sk)
  secretKey : ∀ sk, K.secretKeyFromSlice (K.toBytes sk).bytes = some sk
  onCurve : ∀ sk x y, K.HasPoint sk x y → ∃ pk, K.publicKeyFromPoint x.bytes y.bytes = some pk
  decodes : ∀ key digest sig, K.signPrehash key digest = some sig → ∃ s, K.signatureFromSlice sig.bytes = some s
  verifies : ∀ sk x y pk (digest : ByteArr 32) sig s, K.HasPoint sk x y →
    K.publicKeyFromPoint x.bytes y.bytes = some pk → K.signPrehash (K.signingKeyFrom sk) digest.bytes = some sig →
    K.signatureFromSlice sig.bytes = some s → K.verifyPrehash pk digest s = true
  commutes : ∀ sk x y pk sk' x' y' pk', K.HasPoint sk x y → K.publicKeyFromPoint x.bytes y.bytes = some pk →
    K.HasPoint sk' x' y' → K.publicKeyFromPoint x'.bytes y'.bytes = some pk' →
    K.diffieHellman sk pk' = K.diffieHellman sk' pk ∧ (K.diffieHellman sk pk').length = 32

/-! ### What a frame is answered -/

section Exchanges

variable {K : Crates} {ι : Type} [DecidableEq ι] {e : Exchange K ι} {header : UInt8} {body r : Bytes}

/-- The exchange is one that the server made. -/
def Exchange.Made (e : Exchange K ι) (disk : Disk) : Prop :=
  ∃ v', (tcpServer K).serialStep e.pre e.input = .ok (e.output, v') ∧ v'.1 = disk

theorem made_iff {disk : Disk} : e.Made disk ↔ ∃ response store session,
    dispatch K e.input.rng e.pre.1.store (e.pre.2 e.input.conn) e.input.message = .ok (response, store, session) ∧
      e.output = some (u16Be (UInt16.ofNat response.length) ++ response) ∧ disk = ⟨store, store.device⟩ := by
  have hhandle : (tcpServer K).handle e.pre.1 (e.pre.2 e.input.conn) e.input.rng e.input.message =
      handleFrame K e.pre.1 (e.pre.2 e.input.conn) e.input.rng e.input.message := rfl
  unfold Exchange.Made Server.serialStep
  rw [hhandle, handleFrame]
  rcases dispatch K e.input.rng e.pre.1.store (e.pre.2 e.input.conn) e.input.message with
    p | ⟨response, store, session⟩
  · simp
  · simp only [Except.ok.injEq, Prod.mk.injEq]
    constructor
    · rintro ⟨v', ⟨hout, rfl⟩, rfl⟩
      exact ⟨response, store, session, ⟨rfl, rfl, rfl⟩, hout.symm, rfl⟩
    · rintro ⟨response', store', session', ⟨rfl, rfl, rfl⟩, hout, rfl⟩
      exact ⟨_, ⟨hout.symm, rfl⟩, rfl⟩

theorem buildResponse_inj {body body' : Bytes} (h : buildResponse statusOk body = buildResponse statusOk body') :
    body = body' := by
  have hlen : body.length = body'.length := by
    have hl := congrArg List.length h
    simp only [buildResponse, List.length_cons, List.length_append, u16Be_length] at hl
    omega
  have hdrop := congrArg (fun b => (b.drop 3).take body.length) h
  have htake : ∀ b : Bytes, ((buildResponse statusOk b).drop 3).take b.length = b := by
    intro b
    have hbody : (buildResponse statusOk b).drop 3 = b ++ u16Be (crc16X25 ((statusOk &&& statusMask) :: b)) := rfl
    rw [hbody, List.take_left]
  rw [htake] at hdrop
  rw [hdrop, hlen, htake]

/-- What a command's handler answers is sent. -/
theorem Exchange.answers_of_handle {disk : Disk} (hm : e.Made disk) (hsend : e.Sends header body)
    (hh : header ≠ extendedPrefix) (hmax : (framed (header :: body)).length ≤ maxFrameLengthA120 + 2)
    {after : Store × Session K}
    (h : handle K e.input.rng e.pre.1.store (e.pre.2 e.input.conn) ⟨header, none, body⟩ = .ok (r, after)) :
    e.Answers r := by
  obtain ⟨response, store, session, hd, hout, -⟩ := made_iff.mp hm
  rw [hsend, dispatch_ok hh hmax h] at hd
  cases hd
  exact hout

/-- A command that was answered OK was handled, and nothing else changes the device. -/
theorem Exchange.handle_of_answers {disk : Disk} (hm : e.Made disk) (hsend : e.Sends header body)
    (hans : e.Answers r) : ∃ after,
      handle K e.input.rng e.pre.1.store (e.pre.2 e.input.conn) ⟨header, none, body⟩ = .ok (r, after) ∧
        disk.store = after.1 := by
  obtain ⟨response, store, session, hd, hout, rfl⟩ := made_iff.mp hm
  have hresponse : response = buildResponse statusOk r := by
    rw [hans, Option.some.injEq] at hout
    exact (List.append_inj' hout.symm (by
      have hl := congrArg List.length hout
      simp only [List.length_append, u16Be_length] at hl
      omega)).2
  rcases dispatch_cases K e.input.rng e.pre.1.store (e.pre.2 e.input.conn) e.input.message with
    ⟨header', body', r', after, hp, hh, hd'⟩ | ⟨status, href, hd'⟩
  · rw [hd] at hd'
    cases hd'
    obtain rfl := buildResponse_inj hresponse
    obtain ⟨hframed, -, -⟩ := parseCommand_eq_ok.mp hp
    obtain ⟨rfl, rfl⟩ := framed_inj (u16Be_length _) (hsend.symm.trans hframed)
    exact ⟨_, hh, rfl⟩
  · rw [hd] at hd'
    cases hd'
    exact absurd (by rw [hresponse]; rfl) (buildError_head? href)

end Exchanges

/-! ### Keys -/

section Keys

variable {K : Crates} {g : Rng} {device : Device} {body : Bytes}

/-- A new key, its point reported and its scalar stored. -/
theorem generateKey_reports {r : Bytes × Device} (h : generateKey K g device body = .ok r) :
    ∃ slot sk x y, body[1]? = some slot ∧ K.HasPoint sk x y ∧
      r = (pointRepresentationUncompressed :: (coordinate x.bytes ++ coordinate y.bytes),
        { device with eccSlots := device.eccSlots.insert slot ⟨.nistP256, (K.toBytes sk).bytes⟩ }) := by
  simp only [generateKey, bind_eq_ok, ensure_eq_ok, pure_eq_ok, Except.ok.injEq, index_eq_ok, slice_eq_ok] at h
  obtain ⟨-, -, tag, -, slot, hslot, curveId, -, -, -, -, hlen, x, ⟨-, hx⟩, y, ⟨-, hy⟩, rfl⟩ := h
  have hxlen : x.length = 32 := by
    rw [← hx, List.length_take, List.length_drop, hlen]
    rfl
  have hylen : y.length = 32 := by
    rw [← hy, List.length_take, List.length_drop, hlen]
    rfl
  refine ⟨slot, K.secretKeyRandom g, ⟨x, hxlen⟩, ⟨y, hylen⟩, hslot, ?_, rfl⟩
  rcases hp : K.encodedPoint (K.signingKeyFrom (K.secretKeyRandom g)) with _ | ⟨form, point⟩
  · rw [hp] at hlen
    cases hlen
  · refine ⟨form, ?_⟩
    rw [hp] at hx hy hlen
    have hpoint : point.length = 64 := by simpa using hlen
    have htake : point.take 32 = x := hx
    have hdrop : point.drop 32 = y := by
      have hall : (point.drop 32).take 32 = y := hy
      rwa [List.take_of_length_le (by rw [List.length_drop, hpoint])] at hall
    have hxy : x ++ y = point := by rw [← htake, ← hdrop, List.take_append_drop]
    show _ = form :: (x ++ y)
    rw [hp, hxy]

theorem generateSignature_signs {slot : UInt8} {digest : ByteArr 32} {r : Bytes}
    (h : generateSignature K device (slot :: coordinate digest.bytes) = .ok r) : ∃ entry key sig,
      p256Slot device slot = .ok entry ∧ K.signingKeyFromSlice entry.privateKey = some key ∧
        K.signPrehash key digest.bytes = some sig ∧
        r = coordinate (sig.bytes.take 32) ++ coordinate (sig.bytes.drop 32) := by
  simp only [generateSignature, bind_eq_ok, ensure_eq_ok, orRefuse_eq_ok, pure_eq_ok, Except.ok.injEq] at h
  obtain ⟨-, -, slot', hslot, msgLen, hlen, -, -, msg, hmsg, entry, hentry, key, hkey, -, -, sig, hsig, rfl⟩ := h
  obtain rfl : slot = slot' := Except.ok.inj hslot
  obtain rfl : 32 = msgLen := Except.ok.inj hlen
  obtain rfl : digest.bytes = msg := by
    obtain ⟨-, hm⟩ := slice_eq_ok.mp hmsg
    rw [← hm]
    exact (List.take_of_length_le (Nat.le_of_eq digest.size)).symm
  exact ⟨entry, key, sig, hentry, hkey, hsig, rfl⟩

theorem coordinates_inj {x y x' y' : ByteArr 32}
    (h : coordinate x.bytes ++ coordinate y.bytes = coordinate x'.bytes ++ coordinate y'.bytes) : x = x' ∧ y = y' := by
  obtain ⟨hx, hy⟩ := List.append_inj h (by rw [coordinate_length x.size, coordinate_length x'.size])
  exact ⟨ByteArr.ext (List.append_cancel_left hx), ByteArr.ext (List.append_cancel_left hy)⟩

theorem p256Slot_stored {slot : UInt8} {sk : K.SecretKey}
    (h : device.eccSlots.lookup slot = some ⟨.nistP256, (K.toBytes sk).bytes⟩) :
    p256Slot device slot = .ok ⟨.nistP256, (K.toBytes sk).bytes⟩ :=
  (p256Slot_eq_ok device).mpr ⟨h, rfl, (K.toBytes sk).size⟩

end Keys

section History

variable {K : Crates} {ι : Type} [DecidableEq ι] {log : List (Exchange K ι)} {e : Exchange K ι}
  {v v' : Shared Disk (Session K) ι}

/-- An exchange leaves the key of a slot alone, if it does not generate one there. -/
theorem keeps_slot {slot : UInt8} {disk : Disk} (hm : e.Made disk) (hno : ¬ e.Generates slot) :
    disk.store.device.eccSlots.lookup slot = e.pre.1.store.device.eccSlots.lookup slot := by
  obtain ⟨response, store, session, hd, hout, rfl⟩ := made_iff.mp hm
  rcases dispatch_cases K e.input.rng e.pre.1.store (e.pre.2 e.input.conn) e.input.message with
    ⟨header, body, r, after, hp, hh, hd'⟩ | ⟨status, -, hd'⟩
  · rw [hd] at hd'
    cases hd'
    by_cases hstore : store = e.pre.1.store
    · rw [hstore]
    · obtain ⟨hheader, b, hb, hafter⟩ := handle_store hh hstore
      obtain rfl : header = cmdGenerateKey := hheader
      obtain ⟨slot', sk, x, y, hslot', -, rfl⟩ := generateKey_reports hb
      obtain ⟨hframed, -, -⟩ := parseCommand_eq_ok.mp hp
      have hne : slot ≠ slot' := by
        rintro rfl
        exact hno ⟨body, r, hframed, hslot', hout⟩
      obtain rfl : store = _ := hafter
      exact Finmap.lookup_insert_of_ne _ hne
  · rw [hd] at hd'
    cases hd'
    rfl

/-- A slot holds the key whose point was reported last. -/
theorem Reported.holds {slot : UInt8} {x y : ByteArr 32} (hrun : Run (tcpServer K).serialStep v log v')
    (h : Reported log e slot x y) : ∃ sk, K.HasPoint sk x y ∧
      e.pre.1.store.device.eccSlots.lookup slot = some ⟨.nistP256, (K.toBytes sk).bytes⟩ := by
  obtain ⟨l₁, key, l₂, l₃, rfl, ⟨body, hsend, hslot, hans⟩, hno⟩ := h
  obtain ⟨next, -, hkey, hrest⟩ := hrun.mid
  obtain ⟨_, hbetween, -, -⟩ := hrest.mid
  have hmade : key.Made next.1 := ⟨next, hkey, rfl⟩
  obtain ⟨after, hh, hstore⟩ := Exchange.handle_of_answers hmade hsend hans
  obtain ⟨b, hb, heq⟩ := map_eq_ok.mp (show (generateKey K _ _ body).map _ = _ from hh)
  obtain ⟨slot', sk, x', y', hslot', hpoint, rfl⟩ := generateKey_reports hb
  obtain rfl : slot = slot' := Option.some.inj (hslot.symm.trans hslot')
  obtain ⟨hreply, hafter⟩ := Prod.mk.inj heq
  obtain ⟨rfl, rfl⟩ := coordinates_inj (List.cons.inj hreply).2
  refine ⟨sk, hpoint, ?_⟩
  refine hbetween.invariant
    (I := fun w => w.1.store.device.eccSlots.lookup slot = some ⟨.nistP256, (K.toBytes sk).bytes⟩)
    (P := fun e' : Exchange K ι => ¬ e'.Generates slot) (fun w c o w' hw hgen hs => ?_) hno ?_
  · have hmade' : Exchange.Made (⟨w, c, o⟩ : Exchange K ι) w'.1 := ⟨w', hs, rfl⟩
    exact (keeps_slot hmade' hgen).trans hw
  · rw [hstore, ← (Prod.mk.inj hafter).1]
    exact Finmap.lookup_insert _

/-- What was handled was made, from a state in the log. -/
theorem made_of_mem (hrun : Run (tcpServer K).serialStep v log v') (he : e ∈ log) : ∃ disk, e.Made disk := by
  obtain ⟨-, t, hs⟩ := hrun.step_of_mem (I := fun _ => True) (fun _ _ _ _ _ _ => trivial) trivial he
  exact ⟨t.1, t, hs, rfl⟩

theorem signatures_verify (hK : K.Lawful) (hrun : Run (tcpServer K).serialStep v log v') : SignaturesVerify log := by
  intro sign hsign verify hverify slot x y digest r s hreported ⟨hsend, hans⟩ hasks
  obtain ⟨sk, hpoint, hlookup⟩ := hreported.holds hrun
  obtain ⟨disk, hmade⟩ := made_of_mem hrun hsign
  obtain ⟨after, hh, -⟩ := Exchange.handle_of_answers hmade hsend hans
  rw [handle_generateSignature, reply] at hh
  obtain ⟨b, hb, heq⟩ := map_eq_ok.mp hh
  obtain ⟨entry, key, sig, hentry, hkey, hsig, rfl⟩ := generateSignature_signs hb
  rw [p256Slot_stored hlookup] at hentry
  cases hentry
  rw [hK.signingKey] at hkey
  cases hkey
  have hhalves : (sig.bytes.take 32).length = 32 ∧ (sig.bytes.drop 32).length = 32 := by
    rw [List.length_take, List.length_drop, sig.size]
    exact ⟨rfl, rfl⟩
  obtain ⟨rfl, rfl⟩ : (⟨sig.bytes.take 32, hhalves.1⟩ : ByteArr 32) = r ∧
      (⟨sig.bytes.drop 32, hhalves.2⟩ : ByteArr 32) = s :=
    coordinates_inj (Prod.mk.inj heq).1
  obtain ⟨pk, hpk⟩ := hK.onCurve sk x y hpoint
  obtain ⟨σ, hσ⟩ := hK.decodes _ _ sig hsig
  have hverdict : verdict K x.bytes y.bytes (sig.bytes.take 32) (sig.bytes.drop 32) digest = [1] := by
    unfold verdict
    rw [List.take_append_drop, hpk, hσ]
    dsimp only
    rw [hK.verifies sk x y pk digest sig σ hpoint hpk hsig hσ]
    rfl
  obtain ⟨disk', hmade'⟩ := made_of_mem hrun hverify
  have hres : verifySignature K
      (verification 0 x.bytes y.bytes (sig.bytes.take 32) (sig.bytes.drop 32) digest.bytes []) = .ok [1] :=
    (verifySignature_returns K).mpr
      ⟨0, _, _, _, _, digest, [], x.size, y.size, hhalves.1, hhalves.2, rfl, hverdict.symm⟩
  refine Exchange.answers_of_handle hmade' hasks (by decide) ?_
    (handle_verifySignature.trans (congrArg (reply verify.pre.1.store _) hres))
  rw [framed_length, List.length_cons, verification, List.length_cons, List.length_append, List.length_cons,
    point_length _ x.size y.size, point_length _ hhalves.1 hhalves.2, List.length_append, coordinate_length digest.size]
  decide

theorem secrets_agree (hK : K.Lawful) (hrun : Run (tcpServer K).serialStep v log v') : SecretsAgree log := by
  intro e he e' he' slot slot' x y x' y' hreported hreported' hsend hsend'
  obtain ⟨sk, hpoint, hlookup⟩ := hreported.holds hrun
  obtain ⟨sk', hpoint', hlookup'⟩ := hreported'.holds hrun
  obtain ⟨pk, hpk⟩ := hK.onCurve sk x y hpoint
  obtain ⟨pk', hpk'⟩ := hK.onCurve sk' x' y' hpoint'
  obtain ⟨hsame, hlen⟩ := hK.commutes sk x y pk sk' x' y' pk' hpoint hpk hpoint' hpk'
  have hanswers : ∀ {e : Exchange K ι} {slot : UInt8} {sk : K.SecretKey} {x y : ByteArr 32} {pk : K.PublicKey},
      e ∈ log → e.pre.1.store.device.eccSlots.lookup slot = some ⟨.nistP256, (K.toBytes sk).bytes⟩ → e.Establishes slot x y →
      K.publicKeyFromPoint x.bytes y.bytes = some pk → (K.diffieHellman sk pk).length = 32 →
      e.Answers (u16Be 32 ++ K.diffieHellman sk pk) := by
    intro e slot sk x y pk he hlookup hsend hpk hlen
    obtain ⟨disk, hmade⟩ := made_of_mem hrun he
    have hres := (establishKey_returns K e.pre.1.store.device).mpr
      ⟨slot, x.bytes, y.bytes, [], _, sk, pk, x.size, y.size, rfl, p256Slot_stored hlookup, hK.secretKey sk, hpk,
        hlen, rfl⟩
    refine Exchange.answers_of_handle hmade hsend (by decide) ?_
      (handle_establishKey.trans (congrArg (reply e.pre.1.store _) hres))
    rw [framed_length, List.length_cons, List.length_cons, List.length_cons, point_length _ x.size y.size]
    decide
  refine ⟨_, hanswers he hlookup hsend hpk' hlen, ?_⟩
  rw [hsame]
  exact hanswers he' hlookup' hsend' hpk (hsame ▸ hlen)

end History

/-! ### Connections -/

/-- No zone is too large for READ to send it whole. -/
def Device.Fits (device : Device) : Prop :=
  ∀ zoneIndex zone, device.dataZones.lookup zoneIndex = some zone → zone.data.length ≤ 0xFFFF - 5

section Lengths

variable {K : Crates} {g : Rng} {store : Store} {session : Session K} {cmd : Command}

theorem read_length {device : Device} {body : Bytes} (hf : device.Fits) :
    Returns (fun r => r.length ≤ 0xFFFF - 5) (read device body) := by
  intro r h
  simp only [read, bind_eq_ok, orRefuse_eq_ok, slice_eq_ok] at h
  obtain ⟨-, -, -, -, zoneIndex, -, offset, -, length, -, zone, hz, -, -, -, rfl⟩ := h
  have hzone := hf zoneIndex zone hz
  rw [List.length_take, List.length_drop]
  omega

/-- Bodies of responses are small, but for ECHO and READ. -/
theorem handle_length (hf : store.device.Fits) (hbody : cmd.body.length ≤ maxFrameLengthA120)
    {r : Bytes} {after : Store × Session K} (h : handle K g store session cmd = .ok (r, after)) :
    r.length ≤ 0xFFFF - 5 := by
  have hreply : ∀ {x : Handler UInt8 Bytes}, Returns (fun r => r.length ≤ 0xFFFF - 5) x →
      (x.map fun b => (b, store, session)) = .ok (r, after) → r.length ≤ 0xFFFF - 5 := by
    intro x hx he
    obtain ⟨b, hb, heq⟩ := map_eq_ok.mp he
    cases heq
    exact hx _ hb
  have hcoordinate : ∀ c : Bytes, (coordinate c).length = 2 + c.length := fun c => by
    rw [coordinate, List.length_append, u16Be_length]
  simp only [handle] at h
  split_ifs at h
  · refine hreply ?_ h
    intro b hb
    cases hb
    exact Nat.le_trans hbody (by decide)
  · refine hreply ?_ h
    intro b hb
    simp only [random, bind_eq_ok, pure_eq_ok, Except.ok.injEq] at hb
    obtain ⟨-, -, -, -, size, -, -, -, rfl⟩ := hb
    rw [List.length_map, List.length_range]
    exact Nat.le_trans (Nat.le_of_lt size.toNat_lt) (by decide)
  · exact hreply (read_length hf) h
  · obtain ⟨b, hb, heq⟩ := map_eq_ok.mp h
    obtain ⟨slot, sk, x, y, -, -, rfl⟩ := generateKey_reports hb
    cases heq
    rw [List.length_cons, List.length_append, hcoordinate, hcoordinate, x.size, y.size]
    decide
  · refine hreply ?_ h
    intro b hb
    simp only [generateSignature, bind_eq_ok, pure_eq_ok, Except.ok.injEq] at hb
    obtain ⟨-, -, -, -, -, -, -, -, -, -, -, -, -, -, -, -, sig, -, rfl⟩ := hb
    rw [List.length_append, hcoordinate, hcoordinate, List.length_take, List.length_drop, sig.size]
    decide
  · refine hreply ?_ h
    intro b hb
    obtain ⟨_, _, _, _, _, _, _, -, -, -, -, -, rfl⟩ := (verifySignature_returns K).mp hb
    unfold verdict
    split
    · exact (by decide : 1 ≤ 0xFFFF - 5)
    · exact (by decide : 1 ≤ 0xFFFF - 5)
  · refine hreply ?_ h
    intro b hb
    obtain ⟨_, _, _, _, _, _, _, -, -, -, -, -, -, hraw, rfl⟩ := (establishKey_returns K _).mp hb
    rw [List.length_append, u16Be_length, hraw]
    decide
  · refine hreply ?_ h
    intro b hb
    simp only [query, bind_eq_ok] at hb
    obtain ⟨-, -, subject, -, hb⟩ := hb
    split at hb
    · cases hb
      rw [List.length_append, u16Be_length, ByteArr.size]
      decide
    · cases hb
  · cases h
    exact Nat.zero_le _
  · rw [refuse_eq_ok] at h
    exact h.elim

theorem dispatch_length {raw response : Bytes} {store' : Store} {session' : Session K} (hf : store.device.Fits)
    (h : dispatch K g store session raw = .ok (response, store', session')) : response.length ≤ 0xFFFF := by
  have hresponse : ∀ status body, (buildResponse status body).length = body.length + 5 := by
    intro status body
    simp only [buildResponse, List.length_cons, List.length_append, u16Be_length]
    omega
  rcases dispatch_cases K g store session raw with ⟨header, body, r, after, hp, hh, hd⟩ | ⟨status, -, hd⟩
  · rw [h] at hd
    cases hd
    obtain ⟨rfl, hmax, -⟩ := parseCommand_eq_ok.mp hp
    have hbody : body.length ≤ maxFrameLengthA120 := by
      rw [framed_length, Command.payload, List.length_cons, Option.toList_none, List.nil_append] at hmax
      show body.length ≤ 752
      have hmax : body.length + 1 + 2 ≤ 752 + 2 := hmax
      omega
    have hr : r.length ≤ 0xFFFF - 5 := handle_length hf hbody hh
    rw [hresponse]
    omega
  · rw [h] at hd
    cases hd
    rw [buildError, hresponse]
    decide

theorem dispatch_fits {raw response : Bytes} {store' : Store} {session' : Session K} (hf : store.device.Fits)
    (h : dispatch K g store session raw = .ok (response, store', session')) : store'.device.Fits := by
  rcases dispatch_cases K g store session raw with ⟨header, body, r, after, hp, hh, hd⟩ | ⟨status, -, hd⟩
  · rw [h] at hd
    cases hd
    by_cases hstore : store' = store
    · exact hstore ▸ hf
    · obtain ⟨-, b, hb, hafter⟩ := handle_store hh hstore
      obtain ⟨slot, sk, x, y, -, -, rfl⟩ := generateKey_reports hb
      obtain rfl : store' = _ := hafter
      exact hf
  · rw [h] at hd
    cases hd
    exact hf

end Lengths

section Server

variable {K : Crates} {ι : Type} [DecidableEq ι]

/-- The responses that a connection is sent. -/
def repliesTo (i : ι) (log : List (Exchange K ι)) : List Bytes :=
  (ofConn i log).filterMap fun e => e.output.map (·.drop 2)

/-- The file is the device, and responses fit into their frames. -/
structure Disk.Saved (disk : Disk) : Prop where
  file : disk.file = disk.store.device
  fits : disk.store.device.Fits

theorem serialStep_saves {v : Shared Disk (Session K) ι} (h : v.1.Saved) (c : Call ι Rng Bytes) :
    ∃ o v', (tcpServer K).serialStep v c = .ok (o, v') ∧ v'.1.Saved := by
  obtain ⟨response, store, session, hd⟩ : ∃ response store session,
      dispatch K c.rng v.1.store (v.2 c.conn) c.message = .ok (response, store, session) := by
    rcases dispatch_cases K c.rng v.1.store (v.2 c.conn) c.message with ⟨_, _, _, _, -, -, hd⟩ | ⟨_, -, hd⟩
    · exact ⟨_, _, _, hd⟩
    · exact ⟨_, _, _, hd⟩
  have hm : Exchange.Made ⟨v, c, some (u16Be (UInt16.ofNat response.length) ++ response)⟩ ⟨store, store.device⟩ :=
    made_iff.mpr ⟨response, store, session, hd, rfl, rfl⟩
  obtain ⟨v', hs, hv'⟩ := hm
  refine ⟨_, v', hs, ?_⟩
  rw [hv']
  exact ⟨rfl, dispatch_fits h.fits hd⟩

/-- A response is read back, if it fits. -/
theorem reads_response {e : Exchange K ι} {disk : Disk} (hm : e.Made disk) (hf : e.pre.1.store.device.Fits) :
    responses.Reads (e.output.map (·.drop 2)) (e.output.getD []) := by
  obtain ⟨response, store, session, hd, hout, -⟩ := made_iff.mp hm
  rw [hout]
  intro c
  have hlen := dispatch_length hf hd
  have hread : readFramed (fun _ => True) (u16Be (UInt16.ofNat response.length) ++ response ++ c) =
      .message response c := by
    refine readFramed_eq_message.mpr ⟨_, _, rfl, trivial, ?_⟩
    rw [be16_bytes, UInt16.toNat_ofNat', Nat.mod_eq_of_lt (by omega)]
  exact hread

/-- However the connections cut their bytes and take turns: nothing panics, the file is the device, every connection
is sent the responses to its own frames, and over all of them together signatures verify and secrets agree. -/
theorem keys_across_connections (K : Crates) (hK : K.Lawful) (store : Store) (hf : store.device.Fits)
    (es : List (ServerEvent ι Rng)) :
    let sys := (tcpServer K).after ⟨store, store.device⟩ es
    let log : List (Exchange K ι) := (tcpServer K).handled ⟨store, store.device⟩ es
    sys.poison = none ∧ sys.shared.file = sys.shared.store.device ∧
      (∀ i, requests.Parses (received es i) ((ofConn i log).map (·.input.message)) (sys.conns i).input ∧
        responses.Parses (sys.conns i).output (repliesTo i log) []) ∧
      SignaturesVerify log ∧ SecretsAgree log := by
  intro sys log
  have hrun := (tcpServer K).run_serial ⟨store, store.device⟩ es
  have hstart : Disk.Saved ⟨store, store.device⟩ := ⟨rfl, hf⟩
  have hstep : ∀ (v : Shared Disk (Session K) ι) (c : Call ι Rng Bytes), v.1.Saved →
      ∃ o v', (tcpServer K).serialStep v c = .ok (o, v') ∧ v'.1.Saved := fun v c hv => serialStep_saves hv c
  obtain ⟨hpoison, hsaved⟩ : sys.poison = none ∧ sys.shared.Saved := Server.never_poisoned hstep hstart es
  refine ⟨hpoison, hsaved.file, fun i => ?_, signatures_verify hK hrun, secrets_agree hK hrun⟩
  obtain ⟨hparses, houtput⟩ := (tcpServer K).run_connection ⟨store, store.device⟩ es i
  refine ⟨hparses, ?_⟩
  rw [houtput]
  refine responses.parses_flatMap fun e he => ?_
  have hpres : ∀ (v : Shared Disk (Session K) ι) c o v', v.1.Saved → (tcpServer K).serialStep v c = .ok (o, v') →
      v'.1.Saved := by
    intro v c o v' hv hs
    obtain ⟨_, _, hs', hv'⟩ := hstep v c hv
    rw [hs] at hs'
    cases hs'
    exact hv'
  obtain ⟨hpre, t, hs⟩ := hrun.step_of_mem (I := fun v => v.1.Saved) hpres hstart (List.mem_of_mem_filter he)
  exact reads_response ⟨t, hs, rfl⟩ hpre.fits

end Server

/-! ### One key -/

def beArr (v : ℕ) : ByteArr 32 := ⟨toBe 32 v, toBe_length 32 v⟩

/-- A private key, its point, its secret with itself, and the digest and signature of the message `sample`. -/
def sampleKey : ByteArr 32 := beArr 0xC9AFA9D845BA75166B5C215767B1D6934E50C3DB36E89B127B8A622B120F6721
def sampleX : ByteArr 32 := beArr 0x60FED4BA255A9D31C961EB74C6356D68C049B8923B61FA6CE669622E60F29FB6
def sampleY : ByteArr 32 := beArr 0x7903FE1008B8BC99A41AE9E95628BC64F2F1B20C2D7E9F5177A3C294D4462299
def sampleSecret : ByteArr 32 := beArr 0x2388EE990C93C4BB757203225B7786D69950D2F0DE43CDF23DC71F5EFAA169C8
def sampleDigest : ByteArr 32 := beArr 0xAF2BDBE1AA9B6EC1E2ADE1D694F41FC71A831D0268E9891562113D8A62ADD1BF
def sampleR : ByteArr 32 := beArr 0xEFD48B2AACB6A8FD1140DD9CD45E81D69D2C877B56AAF991C34D0EA84EAF3716
def sampleS : ByteArr 32 := beArr 0xF7CB1C942D657C41D436C7A1B6E29F65F3E900DBB9AFF4064DC4AB2F843ACDA8

/-- Crates that know this key and this digest. -/
def sampleCrates : Crates where
  SecretKey := Unit
  secretKeyRandom _ := ()
  secretKeyFromSlice b := if b = sampleKey.bytes then some () else none
  toBytes _ := sampleKey
  SigningKey := Unit
  signingKeyFrom _ := ()
  signingKeyFromSlice b := if b = sampleKey.bytes then some () else none
  encodedPoint _ := 0x04 :: (sampleX.bytes ++ sampleY.bytes)
  signPrehash _ digest := if digest = sampleDigest.bytes then toArr 64 (sampleR.bytes ++ sampleS.bytes) else none
  PublicKey := Unit
  publicKeyFromPoint x y := if x = sampleX.bytes ∧ y = sampleY.bytes then some () else none
  Signature := Unit
  signatureFromSlice b := if b = sampleR.bytes ++ sampleS.bytes then some () else none
  verifyPrehash _ digest _ := digest = sampleDigest
  diffieHellman _ _ := sampleSecret.bytes

theorem sampleCrates_lawful : sampleCrates.Lawful where
  signingKey := by simp [sampleCrates]
  secretKey := by simp [sampleCrates]
  onCurve := by
    rintro _ x y ⟨form, h⟩
    obtain ⟨-, hxy⟩ := List.cons.inj h
    obtain ⟨hx, hy⟩ := List.append_inj hxy (by rw [x.size, sampleX.size])
    exact ⟨(), if_pos ⟨hx.symm, hy.symm⟩⟩
  decodes := by
    intro _ digest sig h
    obtain ⟨-, hsig⟩ := Option.ite_none_right_eq_some.mp h
    have hbytes : sampleR.bytes ++ sampleS.bytes = sig.bytes := by
      unfold toArr at hsig
      split at hsig
      · exact congrArg ByteArr.bytes (Option.some.inj hsig)
      · cases hsig
    exact ⟨(), if_pos hbytes.symm⟩
  verifies := by
    intro _ x y _ digest sig _ _ _ h _
    exact decide_eq_true (ByteArr.ext (Option.ite_none_right_eq_some.mp h).1)
  commutes _ _ _ _ _ _ _ _ _ _ _ _ := ⟨rfl, sampleSecret.size⟩

/-- A frame with its length in front. -/
def sendCommand (header : UInt8) (body : Bytes) : Bytes :=
  u16Be (UInt16.ofNat (framed (header :: body)).length) ++ framed (header :: body)

/-- Generate a key over one connection, sign over another, verify over a third, in frames cut in two. -/
def threeHosts : List (ServerEvent (Fin 3) Rng) :=
  let key := sendCommand cmdGenerateKey ([0x00, 0x01, 0x00, 0x00, 0x00, 0x00] ++ nistP256CurveId)
  let sign := sendCommand cmdGenerateSignature (0x01 :: coordinate sampleDigest.bytes)
  let verify := sendCommand cmdVerifySignature (verification 0 sampleX.bytes sampleY.bytes sampleR.bytes sampleS.bytes
    sampleDigest.bytes [])
  [.arrive 1 (sign.take 5), .arrive 0 key, .arrive 2 (verify.take 100), .turn 1 fun _ => 0, .turn 0 fun _ => 0,
    .arrive 1 (sign.drop 5), .arrive 2 (verify.drop 100), .turn 1 fun _ => 0, .turn 2 fun _ => 0]

set_option maxRecDepth 4000 in
theorem threeHosts_verify :
    let sys := (tcpServer sampleCrates).after ⟨zoneStore, zoneStore.device⟩ threeHosts
    let log : List (Exchange sampleCrates (Fin 3)) :=
      (tcpServer sampleCrates).handled ⟨zoneStore, zoneStore.device⟩ threeHosts
    (sys.conns 2).output = u16Be 6 ++ buildResponse statusOk [1] ∧
      sys.poison = none ∧ sys.shared.file = sys.shared.store.device ∧
      (∀ i, requests.Parses (received threeHosts i) ((ofConn i log).map (·.input.message)) (sys.conns i).input ∧
        responses.Parses (sys.conns i).output (repliesTo i log) []) ∧
      SignaturesVerify log ∧ SecretsAgree log := by
  refine ⟨by decide +kernel, ?_⟩
  refine keys_across_connections sampleCrates sampleCrates_lawful zoneStore (fun zoneIndex zone hz => ?_) threeHosts
  have hzone : zone.data.length = 16 := by
    by_cases h0 : zoneIndex = 0
    · subst h0
      have hsingle : zoneStore.device.dataZones.lookup 0 = some ⟨List.replicate 16 0⟩ := Finmap.lookup_singleton_eq
      rw [hsingle, Option.some.injEq] at hz
      rw [← hz, List.length_replicate]
    · have hnone : zoneIndex ∉ zoneStore.device.dataZones := fun hmem =>
        h0 ((Finmap.mem_singleton zoneIndex 0 _).mp hmem)
      rw [Finmap.lookup_eq_none.mpr hnone] at hz
      cases hz
  rw [hzone]
  decide

end STSAFEA120
end Simulators

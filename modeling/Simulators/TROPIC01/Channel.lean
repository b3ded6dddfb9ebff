/-
# TROPIC01: the channel is transparent

A host that knows the public key of the chip and holds the private key of a
pairing slot opens a session, and from then on each of its commands comes to
what `dispatch` does with the plaintext (`directStep`): the pieces of the
packets, the busy polls, the replays, the nonces and the encryption between the
two are not to be seen. The session closes where the direct execution closes
it, and a host whose slot is empty or invalidated gets HSK_ERR.

The invariant is `Linked`: chip and host have the same keys and have counted the
same packets, and nothing of a packet is left in the chip.

Key theorems: `certBlocks_read`, `handshake_opens`, `l3Resend_linked`,
`channel_is_transparent`.
-/
import Simulators.Lib.Modes
import Simulators.TROPIC01.Host

namespace Simulators
namespace TROPIC01

open Handler

/-! ### Commands without a channel -/

/-- What commands see of the chip, and how many there have been since the handshake. The count is gone with the
session. -/
structure Direct where
  device : Device
  config : List UInt32
  l3State : L3State
  personality : Personality
  pkeyIndex : UInt8
  count : Option ℕ

/-- The next command, or the status that ends the session or finds it ended. -/
def directStep (K : Crates) (d : Direct) (i : OsRng × Bytes) : Except Panic (Except UInt8 Bytes × Direct) :=
  match d.count with
  | none => .ok (.error statusNoSession, d)
  | some n =>
    if n + 1 = 2 ^ 32 then .ok (.error statusTagErr, { d with count := none })
    else
      match dispatch K i.1 d.device d.config d.personality d.pkeyIndex d.l3State i.2 with
      | .error p => .error p
      | .ok (.genErr, device, l3State) => .ok (.error statusGenErr, { d with device, l3State, count := none })
      | .ok (.result r, device, l3State) => .ok (.ok r, { d with device, l3State, count := some (n + 1) })

/-- What the channel needs of the crates. -/
structure Crates.Agrees (K : Crates) : Prop where
  dh : ∀ a b, K.x25519Shared a (K.x25519Public b) = K.x25519Shared b (K.x25519Public a)
  decrypts : ∀ key iv aad m, K.gcmDecrypt key iv aad (K.gcmEncrypt key iv aad m) = some m
  tagged : ∀ key iv aad m, (K.gcmEncrypt key iv aad m).length = m.length + 16

theorem Crates.Agrees.sealsTag {K : Crates} (hK : K.Agrees) : K.SealsTag := fun key iv aad => hK.tagged key iv aad []

/-! ### The certificate store -/

/-- The blocks of the store. -/
def storeBlob (dev : Device) : Bytes := Host.blocksOfStore.flatMap fun block => certBlock dev block.toNat

section Store

variable {K : Crates} {draws : ℕ → OsRng} {c : Chip} {dev : Device} {t : ℕ}

theorem process_certBlock {g : OsRng} {block : UInt8} (hb : block.toNat < certStoreBlocks) :
    c.process K g dev (responseFrame reqGetInfo [0x00, block]) =
      (none, .ok ([responseFrame statusRequestOk (certBlock dev block.toNat)], c, dev)) := by
  have hraw : parseRequest (responseFrame reqGetInfo [0x00, block]) = .ok ⟨reqGetInfo, [0x00, block]⟩ :=
    parseRequest_appendCrc (show 2 ≤ 252 by decide)
  have hfits : (certBlock dev block.toNat).length ≤ maxL2DataSize := by
    rw [certBlock_length]
    decide
  unfold Chip.process
  simp only [hraw]
  rw [if_neg (by decide), if_pos trivial]
  simp only [getInfo, objectX509Certificate, if_true, if_pos hb, buildResponse, if_pos hfits]
  rfl

variable (draws) (dev) in
/-- GET_INFO reads the store, and leaves the chip as it is. -/
theorem certBlocks_read (hm : c.mode = .application) (hbusy : c.busyPolls < Host.readAttempts) (blocks : List UInt8)
    (hb : ∀ block ∈ blocks, block.toNat < certStoreBlocks) : ∃ c' t', t ≤ t' ∧ c'.core = c.core ∧
      Host.certBlocks K draws blocks ⟨.ok (c, dev), t⟩ =
        .ok (blocks.flatMap fun block => certBlock dev block.toNat, ⟨.ok (c', dev), t'⟩) := by
  induction blocks generalizing c t with
  | nil => exact ⟨c, t, Nat.le_refl t, rfl, rfl⟩
  | cons block blocks ih =>
    have hlen : (certBlock dev block.toNat).length = 128 := certBlock_length _
    have hf := isResponse statusRequestOk (certBlock dev block.toNat) (by decide) (by rw [hlen]; decide)
    obtain ⟨c₁, t₁, ht₁, hserved, hl2⟩ := l2_exchange (K := K) (t := t) draws [0x00, block] hm
      (by decide) (by decide) (show 2 ≤ 252 by decide) (process_certBlock (hb block List.mem_cons_self)) hf hm hbusy
    have hcore : c₁.core = c.core := hserved.core
    obtain ⟨c', t', ht', hcore', hrest⟩ := ih (c := c₁) (t := t₁) ((mode_of_core hcore).trans hm)
      (by rw [busyPolls_of_core hcore]; exact hbusy)
      fun b hb' => hb b (List.mem_cons_of_mem block hb')
    obtain ⟨crc, hcons, hcrc⟩ := hf.eq_cons
    refine ⟨c', t', by omega, hcore'.trans hcore, ?_⟩
    rw [Host.certBlocks, hl2, ok_bind]
    dsimp only
    rw [Host.assert, if_pos (by rw [hcons]; rfl), ok_bind, hf.index_len, ok_bind, hf.declared, hf.slice_data, ok_bind,
      hrest, ok_bind, pure_eq_ok, List.flatMap_cons]

variable (draws) in
theorem stpub_read (hm : c.mode = .application) (hbusy : c.busyPolls < Host.readAttempts)
    (hkey : Host.certKey (storeBlob dev) = .ok dev.stPub) : ∃ c' t', t ≤ t' ∧ c'.core = c.core ∧
      Host.stpub K draws ⟨.ok (c, dev), t⟩ = .ok (dev.stPub, ⟨.ok (c', dev), t'⟩) := by
  obtain ⟨c', t', ht', hcore, hread⟩ := certBlocks_read (K := K) (t := t) draws dev hm hbusy
    Host.blocksOfStore (by decide +kernel)
  refine ⟨c', t', ht', hcore, ?_⟩
  unfold Host.stpub
  rw [hread, ok_bind]
  dsimp only
  rw [show (Host.blocksOfStore.flatMap fun block => certBlock dev block.toNat) = storeBlob dev from rfl, hkey]
  rfl

end Store

/-! ### The handshake -/

section Handshake

variable {K : Crates} {draws : ℕ → OsRng} {c : Chip} {dev : Device} {t : ℕ} {pkey : UInt8}
  {shipriv eh : ByteArr 32}

/-- The request. -/
def handshakeData (K : Crates) (eh : ByteArr 32) (pkey : UInt8) : Bytes := (K.x25519Public eh).bytes ++ [pkey]

theorem handshakeData_length : (handshakeData K eh pkey).length = handshakeReqLen := by
  rw [handshakeData, List.length_append, ByteArr.size]
  rfl

theorem handshakeData_key : (array 32 ((handshakeData K eh pkey).take 32) : Handler HandshakeError (ByteArr 32)) =
    .ok (K.x25519Public eh) := by
  rw [handshakeData, List.take_left' (ByteArr.size _), array_bytes]

theorem handshakeData_index : (handshakeData K eh pkey)[32]? = some pkey := by
  rw [handshakeData, List.getElem?_append_right (by rw [ByteArr.size]), ByteArr.size]
  rfl

/-- What both sides hash. -/
def transcriptOf (K : Crates) (dev : Device) (shipriv eh : ByteArr 32) (pkey : UInt8) (g : OsRng) : ByteArr 32 :=
  transcript K [(K.x25519Public shipriv).bytes, dev.stPub.bytes, (K.x25519Public eh).bytes, [pkey],
    (K.x25519Public g.array32).bytes]

/-- The secrets, as the chip computes them. -/
def secretsOf (K : Crates) (dev : Device) (shipriv eh : ByteArr 32) (g : OsRng) :
    ByteArr 32 × ByteArr 32 × ByteArr 32 :=
  sessionSecrets K (K.x25519Shared g.array32 (K.x25519Public eh)) (K.x25519Shared g.array32 (K.x25519Public shipriv))
    (K.x25519Shared dev.stPriv (K.x25519Public eh))

/-- The tag of the handshake. -/
def tagOf (K : Crates) (dev : Device) (shipriv eh : ByteArr 32) (pkey : UInt8) (g : OsRng) : Bytes :=
  K.gcmEncrypt (secretsOf K dev shipriv eh g).1 (zeroArr 12) (transcriptOf K dev shipriv eh pkey g).bytes []

theorem sessionHandshake_opens {g : OsRng} (hK : K.SealsTag)
    (hslot : dev.pairingSlots.lookup pkey = some ⟨K.x25519Public shipriv, .written⟩) :
    Session.handshake K g dev (handshakeData K eh pkey) =
      .ok ((K.x25519Public g.array32).bytes ++ tagOf K dev shipriv eh pkey g,
        ⟨some ⟨(secretsOf K dev shipriv eh g).2.1, (secretsOf K dev shipriv eh g).2.2, nonceAt 0, nonceAt 0,
          pkey⟩⟩) := by
  have htag : (array 16 (tagOf K dev shipriv eh pkey g) : Handler HandshakeError (ByteArr 16)) =
      .ok ⟨tagOf K dev shipriv eh pkey g, hK _ _ _⟩ := array_bytes ⟨_, hK _ _ _⟩
  have hindex : (index (handshakeData K eh pkey) 32 : Handler HandshakeError UInt8) = .ok pkey :=
    index_eq_ok.mpr handshakeData_index
  unfold Session.handshake
  rw [ensure, if_pos handshakeData_length, ok_bind, handshakeData_key, ok_bind, hindex, ok_bind, hslot]
  simp only [orRefuse, ok_bind, ensure, if_true]
  unfold tagOf secretsOf transcriptOf at htag ⊢
  unfold aesGcmSealTag
  rw [htag, ok_bind, ← zeroArr_eq_nonceAt]
  rfl

variable (eh) in
theorem sessionHandshake_refused (g : OsRng)
    (hslot : ∀ slot, dev.pairingSlots.lookup pkey = some slot → slot.state ≠ .written) :
    ∃ e, Session.handshake K g dev (handshakeData K eh pkey) = refuse e := by
  have hindex : (index (handshakeData K eh pkey) 32 : Handler HandshakeError UInt8) = .ok pkey :=
    index_eq_ok.mpr handshakeData_index
  unfold Session.handshake
  rw [ensure, if_pos handshakeData_length, ok_bind, handshakeData_key, ok_bind, hindex, ok_bind]
  rcases hlookup : dev.pairingSlots.lookup pkey with _ | slot
  · exact ⟨_, rfl⟩
  · refine ⟨.unauthorizedPairingSlot, ?_⟩
    simp only [orRefuse, ok_bind, ensure, if_neg (hslot slot hlookup), refuse_bind]

variable (dev) (eh) in
/-- The request for a session, with an index that there is. -/
theorem process_handshake (g : OsRng) (hm : c.mode = .application) (hpkey : pkey.toNat ≤ 3) :
    c.process K g dev (responseFrame reqHandshake (handshakeData K eh pkey)) =
      (none, match Session.handshake K g dev (handshakeData K eh pkey) with
        | .ok (body, session) => { c.cleared with session }.answer dev statusRequestOk body
        | .error (.refuse _) => { c.cleared with session := {} }.answer dev statusHskErr []
        | .error (.panic p) => .error p) := by
  have hraw : parseRequest (responseFrame reqHandshake (handshakeData K eh pkey)) =
      .ok ⟨reqHandshake, handshakeData K eh pkey⟩ :=
    parseRequest_appendCrc (by rw [handshakeData_length]; decide)
  have hindex : ¬ (3 : UInt8) < ((handshakeData K eh pkey)[32]?).getD 0 := by
    rw [handshakeData_index, Option.getD_some, UInt8.lt_iff_toNat_lt]
    exact Nat.not_lt.mpr hpkey
  unfold Chip.process
  simp only [hraw]
  rw [if_neg (by decide), if_neg (by decide), if_neg (by decide), if_neg (by decide), if_neg (by rw [hm]; decide),
    if_pos trivial]
  unfold Chip.handshake
  rw [if_neg (not_not.mpr handshakeData_length), if_neg (fun h => hindex h.1)]
  rfl

theorem answer_of_le {status : UInt8} {data : Bytes} (h : data.length ≤ maxL2DataSize) :
    c.answer dev status data = .ok ([responseFrame status data], c, dev) := by
  rw [Chip.answer, buildResponse, if_pos h]
  rfl

theorem cleared_core {c' : Chip} (h : c'.core = c.core) (session : Session) :
    { c'.cleared with session }.core = { c.cleared with session }.core := by
  show { c'.core with session, l3Packet := [], l3Expected := 0 } = _
  rw [h]
  rfl

/-- Host and chip come to the same secrets. -/
theorem secrets_agree (hK : K.Agrees) (hpub : dev.stPub = K.x25519Public dev.stPriv) (g : OsRng) :
    sessionSecrets K (K.x25519Shared eh (K.x25519Public g.array32)) (K.x25519Shared shipriv (K.x25519Public g.array32))
      (K.x25519Shared eh dev.stPub) = secretsOf K dev shipriv eh g := by
  rw [secretsOf, hpub, hK.dh eh, hK.dh shipriv, hK.dh eh dev.stPriv]

variable (draws) (eh) in
/-- A written slot: the tag verifies, and both have the keys. -/
theorem handshake_opens (hK : K.Agrees) (hm : c.mode = .application) (hbusy : c.busyPolls < Host.readAttempts)
    (hkey : Host.certKey (storeBlob dev) = .ok dev.stPub) (hpub : dev.stPub = K.x25519Public dev.stPriv)
    (hpkey : pkey.toNat ≤ 3) (hslot : dev.pairingSlots.lookup pkey = some ⟨K.x25519Public shipriv, .written⟩)
    (host : Host) : ∃ kCmd kRes c' t', t ≤ t' ∧
      c'.core = { c.cleared with session := ⟨some ⟨kCmd, kRes, nonceAt 0, nonceAt 0, pkey⟩⟩ }.core ∧
      Host.handshake K draws host pkey shipriv (K.x25519Public shipriv) eh ⟨.ok (c, dev), t⟩ =
        .ok ((statusRequestOk, ⟨some ⟨kCmd, kRes, 0, 0⟩⟩), ⟨.ok (c', dev), t'⟩) := by
  obtain ⟨c₁, t₁, ht₁, hcore, hstpub⟩ := stpub_read (K := K) (t := t) draws hm hbusy hkey
  obtain ⟨g, hg⟩ : ∃ g, g = draws (t₁ + 1) := ⟨_, rfl⟩
  obtain ⟨etpub, hetpub⟩ : ∃ etpub, etpub = K.x25519Public g.array32 := ⟨_, rfl⟩
  have hm₁ : c₁.mode = .application := (mode_of_core hcore).trans hm
  have htaglen : (tagOf K dev shipriv eh pkey g).length = 16 := hK.sealsTag _ _ _
  have hlen : (etpub.bytes ++ tagOf K dev shipriv eh pkey g).length = 48 := by
    rw [List.length_append, ByteArr.size, htaglen]
  have hf := isResponse statusRequestOk (etpub.bytes ++ tagOf K dev shipriv eh pkey g) (by decide)
    (by rw [hlen]; decide)
  have hprocess := process_handshake (K := K) (c := c₁.receiving []) dev eh g hm₁ hpkey
  rw [sessionHandshake_opens hK.sealsTag hslot, ← hetpub] at hprocess
  dsimp only at hprocess
  rw [answer_of_le hf.fits, hg] at hprocess
  obtain ⟨c', t', ht', hserved, hl2⟩ := l2_exchange (K := K) (t := t₁) draws _ hm₁ (by decide) (by decide)
    (by rw [handshakeData_length]; decide) hprocess (hg ▸ hf) hm₁
    (by rw [← busyPolls_of_core hcore] at hbusy; exact hbusy)
  rw [← hg] at hserved hl2
  obtain ⟨crc, hcons, hcrc⟩ := hf.eq_cons
  have hetslice : (slice (responseFrame statusRequestOk (etpub.bytes ++ tagOf K dev shipriv eh pkey g)) 2 34 :
      Handler Empty Bytes) = .ok etpub.bytes := by
    refine slice_between [statusRequestOk, 48] etpub.bytes (tagOf K dev shipriv eh pkey g ++ crc) ?_ rfl
      (by rw [ByteArr.size])
    rw [hcons, hlen, List.append_assoc]
    rfl
  have htagslice : (slice (responseFrame statusRequestOk (etpub.bytes ++ tagOf K dev shipriv eh pkey g)) 34 50 :
      Handler Empty Bytes) = .ok (tagOf K dev shipriv eh pkey g) := by
    refine slice_between ([statusRequestOk, 48] ++ etpub.bytes) (tagOf K dev shipriv eh pkey g) crc ?_
      (by rw [List.length_append, ByteArr.size]; rfl) (by rw [htaglen])
    rw [hcons, hlen, List.append_assoc, List.append_assoc]
    rfl
  refine ⟨_, _, c', t', by omega, hserved.core.trans (cleared_core hcore _), ?_⟩
  unfold Host.handshake
  rw [hstpub, ok_bind]
  dsimp only
  rw [← handshakeData, hl2, ok_bind, hf.index_status, ok_bind, if_neg (not_not.mpr rfl), hetslice, ok_bind, array_bytes,
    ok_bind, htagslice, ok_bind]
  rw [hetpub, secrets_agree hK hpub]
  dsimp only
  rw [tagOf, transcriptOf, hK.decrypts]
  rfl

variable (draws) (shipriv) (eh) in
/-- A slot without a key that is in use. -/
theorem handshake_refused (hm : c.mode = .application) (hbusy : c.busyPolls < Host.readAttempts)
    (hkey : Host.certKey (storeBlob dev) = .ok dev.stPub) (hpkey : pkey.toNat ≤ 3)
    (hslot : ∀ slot, dev.pairingSlots.lookup pkey = some slot → slot.state ≠ .written) (host : Host)
    (shipub : ByteArr 32) : ∃ c' t', t ≤ t' ∧ c'.core = { c.cleared with session := {} }.core ∧
      Host.handshake K draws host pkey shipriv shipub eh ⟨.ok (c, dev), t⟩ =
        .ok ((statusHskErr, host), ⟨.ok (c', dev), t'⟩) := by
  obtain ⟨c₁, t₁, ht₁, hcore, hstpub⟩ := stpub_read (K := K) (t := t) draws hm hbusy hkey
  have hm₁ : c₁.mode = .application := (mode_of_core hcore).trans hm
  obtain ⟨e, he⟩ := sessionHandshake_refused (K := K) eh (draws (t₁ + 1)) hslot
  have hprocess := process_handshake (K := K) (c := c₁.receiving []) dev eh (draws (t₁ + 1)) hm₁ hpkey
  rw [he] at hprocess
  obtain ⟨c', t', ht', hserved, hl2⟩ := l2_exchange (K := K) (t := t₁) draws _ hm₁ (by decide) (by decide)
    (by rw [handshakeData_length]; decide) hprocess (isResponse statusHskErr [] (by decide) (Nat.zero_le _)) hm₁
    (by rw [← busyPolls_of_core hcore] at hbusy; exact hbusy)
  refine ⟨c', t', by omega, hserved.core.trans (cleared_core hcore {}), ?_⟩
  unfold Host.handshake
  rw [hstpub, ok_bind]
  dsimp only
  rw [← handshakeData, hl2, ok_bind]
  rfl

end Handshake

/-! ### The pieces of a packet -/

section Sending

variable {K : Crates} {draws : ℕ → OsRng} {c c₁ : Chip} {dev dev₁ : Device} {packet f data : Bytes} {status : UInt8}
  {t : ℕ} {resendAt : Option ℕ}

variable (draws) (dev) in
/-- A replay leaves no trace. -/
theorem resend_served {c₀ : Chip} {queue : List Bytes} (again : Prop) [Decidable again] (h : Served c₀ f queue c)
    (hm : c₀.mode = .application) (hf : IsResponse f status data) (hbusy : c₀.busyPolls < Host.readAttempts) :
    ∃ c' t', t ≤ t' ∧ c'.core = c₀.core ∧ c'.queue = queue ∧ c'.busyLeft = 0 ∧
      Host.resend K draws again f ⟨.ok (c, dev), t⟩ = .ok ((), ⟨.ok (c', dev), t'⟩) := by
  by_cases hagain : again
  · obtain ⟨c', t', ht', hserved, hl2⟩ := l2_replay (K := K) (t := t) draws dev
      ((mode_of_core h.core).trans hm) h.last hf (by rw [busyPolls_of_core h.core]; exact hbusy)
    refine ⟨c', t', by omega, hserved.core.trans h.core, hserved.queue.trans h.queue, hserved.ready, ?_⟩
    rw [Host.resend, if_pos hagain, hl2, ok_bind]
    dsimp only
    rw [Host.assert, if_pos rfl]
    rfl
  · exact ⟨c, t, Nat.le_refl t, h.core, h.queue, h.ready, if_neg hagain⟩

/-- The chip has some pieces of the packet, and these are the others. -/
structure Collected (c : Chip) (packet : Bytes) (rest : List Bytes) : Prop where
  mode : c.mode = .application
  polls : c.busyPolls < Host.readAttempts
  isOpen : c.session.isOpen = true
  expected : c.l3Packet ≠ [] → c.l3Expected = packet.length
  bytes : c.l3Packet ++ rest.flatten = packet
  first : c.l3Packet = [] → ∀ chunk ∈ rest.head?, 2 ≤ chunk.length
  pieces : ∀ chunk ∈ rest, chunk ≠ [] ∧ chunk.length ≤ maxL2DataSize

theorem Collected.continues {chunk : Bytes} {rest : List Bytes} (h : Collected c packet (chunk :: rest)) :
    Continues (c.receiving []) packet chunk rest.flatten where
  isOpen := h.isOpen
  first hnil := h.first hnil chunk rfl
  expected := h.expected
  bytes := by
    rw [List.append_assoc]
    exact h.bytes

theorem process_piece {g : OsRng} {chunk : Bytes} (hm : c.mode = .application) (hfits : chunk.length ≤ maxL2DataSize) :
    c.process K g dev (responseFrame reqEncryptedCmd chunk) = c.encryptedCmd K g dev chunk :=
  process_encryptedCmd hm (parseRequest_appendCrc hfits)

theorem packetCommand_of_core {g : OsRng} {call : Option L3Call} {frames : List Bytes}
    (h : c.core.packetCommand K g dev packet = (call, .ok (frames, c₁, dev₁))) :
    ∃ c₂ : Chip, c₂.core = c₁ ∧ c.packetCommand K g dev packet = (call, .ok (frames, c₂, dev₁)) := by
  rw [packetCommand_core] at h
  rcases hp : c.packetCommand K g dev packet with ⟨call', p | ⟨frames', c₂, dev₂⟩⟩
  · rw [hp] at h
    cases h
  · rw [hp] at h
    cases h
    exact ⟨c₂, rfl, rfl⟩

variable (draws) (dev) (resendAt) in
/-- The pieces are acknowledged, and the last one does what the packet does. -/
theorem sendChunks_sends (hlegal : Legal packet) {rest : List Bytes} (hne : rest ≠ []) (h : Collected c packet rest) :
    ∃ n, t ≤ n ∧ ∀ call queue c₁ dev₁, c.cleared.core.packetCommand K (draws n) dev packet =
        (call, .ok (responseFrame statusRequestOk [] :: queue, c₁, dev₁)) →
      c₁.mode = .application → c₁.busyPolls < Host.readAttempts →
      ∃ c' t', n < t' ∧ c'.core = c₁.core ∧ c'.queue = queue ∧ c'.busyLeft = 0 ∧
        Host.sendChunks K draws resendAt rest ⟨.ok (c, dev), t⟩ = .ok (none, ⟨.ok (c', dev₁), t'⟩) := by
  induction rest generalizing c t with
  | nil => exact absurd rfl hne
  | cons chunk rest ih =>
    have hfits := (h.pieces chunk List.mem_cons_self).2
    have hprocess : ∀ g, (c.receiving []).process K g dev (responseFrame reqEncryptedCmd chunk) = _ :=
      fun g => (process_piece (K := K) (c := c.receiving []) h.mode hfits).trans
        (encryptedCmd_eq (g := g) hlegal h.continues)
    have hbytes := h.continues.bytes
    rcases rest with _ | ⟨chunk₂, rest⟩
    · -- the last piece
      refine ⟨t + 1, by omega, fun call queue c₁ dev₁ hpacket hm₁ hbusy₁ => ?_⟩
      rw [List.flatten_nil, List.append_nil] at hbytes
      obtain ⟨c₂, rfl, hcommand⟩ := packetCommand_of_core (c := (c.receiving []).cleared) hpacket
      have hp := hprocess (draws (t + 1))
      rw [hbytes, if_neg (Nat.lt_irrefl _), hcommand] at hp
      have hack := isResponse statusRequestOk [] (by decide) (Nat.zero_le _)
      obtain ⟨c₃, t₃, ht₃, hserved, hl2⟩ := l2_exchange (K := K) (t := t) draws _ h.mode (by decide)
        (by decide) hfits hp hack hm₁ hbusy₁
      obtain ⟨c', t', ht', hcore, hqueue, hleft, hresend⟩ := resend_served (K := K) (t := t₃) draws dev₁
        (([] : List Bytes) = [] ∧ resendAt = some 0) hserved hm₁ hack hbusy₁
      refine ⟨c', t', by omega, hcore, hqueue, hleft, ?_⟩
      rw [Host.sendChunks, hl2, ok_bind]
      dsimp only
      rw [hack.index_status, ok_bind, if_pos rfl, if_neg (not_not.mpr rfl), hresend]
      rfl
    · -- the chip waits for more
      have hlt : ((c.receiving []).l3Packet ++ chunk).length < packet.length := by
        have hpos := List.length_pos_iff.mpr (h.pieces chunk₂ (by simp)).1
        rw [← hbytes]
        simp only [List.flatten_cons, List.length_append]
        omega
      have hp := hprocess (draws (t + 1))
      rw [if_pos hlt] at hp
      have hcont := isResponse statusRequestCont [] (by decide) (Nat.zero_le _)
      obtain ⟨c₂, t₂, ht₂, hserved, hl2⟩ := l2_exchange (K := K) (t := t) draws _ h.mode (by decide)
        (by decide) hfits hp hcont h.mode h.polls
      have hpacket₂ : c₂.l3Packet = c.l3Packet ++ chunk := l3Packet_of_core hserved.core
      obtain ⟨n, hn, hlast⟩ := ih (c := c₂) (t := t₂) (List.cons_ne_nil _ _) {
        mode := (mode_of_core hserved.core).trans h.mode
        polls := by
          rw [busyPolls_of_core hserved.core]
          exact h.polls
        isOpen := by
          rw [session_of_core hserved.core]
          exact h.isOpen
        expected := fun _ => l3Expected_of_core hserved.core
        bytes := by
          rw [hpacket₂]
          exact hbytes
        first := fun hnil => by
          rw [hpacket₂, List.append_eq_nil_iff] at hnil
          exact absurd hnil.2 (h.pieces chunk List.mem_cons_self).1
        pieces := fun b hb => h.pieces b (List.mem_cons_of_mem chunk hb) }
      have hcleared : c₂.cleared.core = c.cleared.core := by
        show { c₂.core with l3Packet := [], l3Expected := 0 } = _
        rw [hserved.core]
        rfl
      rw [hcleared] at hlast
      refine ⟨n, by omega, fun call queue c₁ dev₁ hpacket hm₁ hbusy₁ => ?_⟩
      obtain ⟨c', t', ht', hcore, hqueue, hleft, hsend⟩ := hlast call queue c₁ dev₁ hpacket hm₁ hbusy₁
      refine ⟨c', t', ht', hcore, hqueue, hleft, ?_⟩
      rw [Host.sendChunks, hl2, ok_bind]
      dsimp only
      rw [hcont.index_status, ok_bind, if_neg (List.cons_ne_nil _ _), if_neg (not_not.mpr rfl), Host.resend,
        if_neg (fun h => List.cons_ne_nil _ _ h.1), ok_bind, hsend]

variable (draws) (dev) (resendAt) in
/-- Without a session the first piece is refused. -/
theorem sendChunks_closed {chunk : Bytes} (rest : List Bytes) (hm : c.mode = .application)
    (hbusy : c.busyPolls < Host.readAttempts) (hclosed : c.session.isOpen = false)
    (hfits : chunk.length ≤ maxL2DataSize) : ∃ c' t', t < t' ∧ c'.core = c.cleared.core ∧
      Host.sendChunks K draws resendAt (chunk :: rest) ⟨.ok (c, dev), t⟩ =
        .ok (some statusNoSession, ⟨.ok (c', dev), t'⟩) := by
  have hp : (c.receiving []).process K (draws (t + 1)) dev (responseFrame reqEncryptedCmd chunk) =
      (none, .ok ([responseFrame statusNoSession []], (c.receiving []).cleared, dev)) := by
    rw [process_piece (K := K) (c := c.receiving []) hm hfits]
    exact (if_pos hclosed).trans
      (congrArg (Prod.mk none) (answer_of_le (c := (c.receiving []).cleared) (Nat.zero_le _)))
  have hf := isResponse statusNoSession [] (by decide) (Nat.zero_le _)
  obtain ⟨c', t', ht', hserved, hl2⟩ := l2_exchange (K := K) (t := t) draws _ hm (by decide) (by decide) hfits
    hp hf hm hbusy
  refine ⟨c', t', by omega, hserved.core, ?_⟩
  rw [Host.sendChunks, hl2, ok_bind]
  dsimp only
  rw [hf.index_status, ok_bind, if_pos]
  · rfl
  · split <;> decide

end Sending

/-! ### The pieces of a result -/

section Collecting

variable {K : Crates} {draws : ℕ → OsRng} {c : Chip} {dev : Device} {f data res : Bytes} {status : UInt8}
  {queue : List Bytes} {t rounds seen : ℕ} {resendAt : Option ℕ}

variable (draws) (dev) (rounds) (seen) (res) (resendAt) in
/-- One frame of the answer, with its replay. -/
theorem collect_frame (hm : c.mode = .application) (hbusy : c.busyPolls < Host.readAttempts) (hleft : c.busyLeft = 0)
    (hq : c.queue = f :: queue) (hf : IsResponse f status data) : ∃ c' t', t < t' ∧ c'.core = c.core ∧
      c'.queue = queue ∧ c'.busyLeft = 0 ∧
      Host.collect K draws resendAt (rounds + 1) seen res ⟨.ok (c, dev), t⟩ =
        if status = statusResultCont then
          Host.collect K draws resendAt rounds (seen + 1) (res ++ data) ⟨.ok (c', dev), t'⟩
        else if status = statusResultOk then .ok (.ok (res ++ data), ⟨.ok (c', dev), t'⟩)
        else .ok (.error status, ⟨.ok (c', dev), t'⟩) := by
  obtain ⟨c₁, t₁, ht₁, hserved, hread⟩ := read_response (K := K) (t := t) draws dev hf hm
    (by rw [hleft]; decide) hq
  obtain ⟨c', t', ht', hcore, hqueue, hleft', hresent⟩ := resend_served (K := K) (t := t₁) draws dev
    (resendAt = some (seen + 1)) hserved hm hf hbusy
  refine ⟨c', t', by omega, hcore, hqueue, hleft', ?_⟩
  rw [Host.collect, hread, ok_bind]
  dsimp only
  rw [hresent, ok_bind]
  dsimp only
  rw [hf.index_status, ok_bind, hf.index_len, ok_bind, hf.declared]
  split
  · rw [hf.slice_data, ok_bind]
  · split
    · rw [hf.slice_data, ok_bind]
      rfl
    · rfl

variable (draws) (dev) (seen) (res) (resendAt) in
/-- All the frames of a result. -/
theorem collect_result {init : List Bytes} {last : Bytes} (hm : c.mode = .application)
    (hbusy : c.busyPolls < Host.readAttempts) (hleft : c.busyLeft = 0)
    (hq : c.queue = init.map (responseFrame statusResultCont) ++ [responseFrame statusResultOk last])
    (hle : ∀ chunk ∈ init ++ [last], chunk.length ≤ maxL2DataSize) (hrounds : init.length < rounds) :
    ∃ c' t', t < t' ∧ c'.core = c.core ∧ Host.collect K draws resendAt rounds seen res ⟨.ok (c, dev), t⟩ =
      .ok (.ok (res ++ (init ++ [last]).flatten), ⟨.ok (c', dev), t'⟩) := by
  induction init generalizing c t rounds seen res with
  | nil =>
    obtain ⟨rounds, rfl⟩ := Nat.exists_eq_succ_of_ne_zero (Nat.ne_of_gt hrounds)
    obtain ⟨c', t', ht', hcore, -, -, hcollect⟩ := collect_frame (K := K) (t := t) draws dev
      res rounds seen resendAt hm hbusy hleft hq
      (isResponse statusResultOk last (by decide) (hle last (by simp)))
    refine ⟨c', t', ht', hcore, hcollect.trans ?_⟩
    rw [if_neg (by decide), if_pos rfl, List.nil_append, List.flatten_singleton]
  | cons chunk init ih =>
    obtain ⟨rounds, rfl⟩ := Nat.exists_eq_succ_of_ne_zero (Nat.ne_of_gt (Nat.zero_lt_of_lt hrounds))
    obtain ⟨c₁, t₁, ht₁, hcore, hqueue, hleft₁, hcollect⟩ := collect_frame (K := K) (t := t) draws dev
      res rounds seen resendAt hm hbusy hleft hq
      (isResponse statusResultCont chunk (by decide) (hle chunk (by simp)))
    rw [if_pos rfl] at hcollect
    obtain ⟨c', t', ht', hcore', hrest⟩ := ih (res ++ chunk) (seen + 1) (c := c₁)
      (t := t₁) ((mode_of_core hcore).trans hm) (by rw [busyPolls_of_core hcore]; exact hbusy) hleft₁ hqueue
      (fun b hb => hle b (List.mem_cons_of_mem chunk hb)) (Nat.lt_of_succ_lt_succ hrounds)
    refine ⟨c', t', by omega, hcore'.trans hcore, hcollect.trans (hrest.trans ?_)⟩
    rw [List.cons_append, List.flatten_cons, List.append_assoc]

variable (draws) (dev) (rounds) (seen) (res) (resendAt) in
/-- A response that ends the collection. -/
theorem collect_error (hm : c.mode = .application) (hbusy : c.busyPolls < Host.readAttempts) (hleft : c.busyLeft = 0)
    (hq : c.queue = [responseFrame status []]) (hs : status ≠ statusNoResp) (hcont : status ≠ statusResultCont)
    (hok : status ≠ statusResultOk) : ∃ c' t', t < t' ∧ c'.core = c.core ∧
      Host.collect K draws resendAt (rounds + 1) seen res ⟨.ok (c, dev), t⟩ =
        .ok (.error status, ⟨.ok (c', dev), t'⟩) := by
  obtain ⟨c', t', ht', hcore, -, -, hcollect⟩ := collect_frame (K := K) (t := t) draws dev
    res rounds seen resendAt hm hbusy hleft hq
    (isResponse status [] hs (Nat.zero_le _))
  rw [if_neg hcont, if_neg hok] at hcollect
  exact ⟨c', t', ht', hcore, hcollect⟩

end Collecting

/-! ### A command -/

/-- Chip and host are where the direct execution is. -/
structure Linked (c : Chip) (host : Host) (d : Direct) : Prop where
  mode : c.mode = .application
  polls : c.busyPolls < Host.readAttempts
  ready : c.Ready d.device
  packet : c.l3Packet = []
  personality : c.personality = d.personality
  config : c.configInForce d.device = d.config
  l3State : c.l3State = d.l3State
  /-- As long as the session is open, with the same keys and counts. -/
  keys : match d.count with
    | none => c.session.isOpen = false ∧ host.keys.isSome
    | some n => n < 2 ^ 32 ∧ ∃ kCmd kRes, c.session.keys = some ⟨kCmd, kRes, nonceAt n, nonceAt n, d.pkeyIndex⟩ ∧
        host.keys = some ⟨kCmd, kRes, UInt32.ofNat n, UInt32.ofNat n⟩

theorem Linked.of_core {c c' : Chip} {host : Host} {d : Direct} (h : Linked c host d) (hc : c'.core = c.core) :
    Linked c' host d where
  mode := (mode_of_core hc).trans h.mode
  polls := by
    rw [busyPolls_of_core hc]
    exact h.polls
  ready := ready_of_core hc h.ready
  packet := (l3Packet_of_core hc).trans h.packet
  personality := (personality_of_core hc).trans h.personality
  config := (configInForce_of_core hc d.device).trans h.config
  l3State := (l3State_of_core hc).trans h.l3State
  keys := by
    rw [session_of_core hc]
    exact h.keys

/-- The host after a command. -/
def Host.after (host : Host) : Except UInt8 Bytes → Host
  | .error _ => host
  | .ok _ => ⟨host.keys.map fun k => { k with nc := k.nc + 1, nr := k.nr + 1 }⟩

/-- `[size][ciphertext][tag]` of message `n`. -/
def sealed (K : Crates) (key : ByteArr 32) (n : ℕ) (plaintext : Bytes) : Bytes :=
  [loByte (UInt16.ofNat plaintext.length), hiByte (UInt16.ofNat plaintext.length)] ++
    K.gcmEncrypt key (nonceAt n) [] plaintext

/-- The frames that bring the result, or the status. -/
inductive Delivers (K : Crates) (kRes : ByteArr 32) (n : ℕ) : Except UInt8 Bytes → List Bytes → Prop
  | status (status : UInt8) (h : status ∈ [statusTagErr, statusGenErr]) :
      Delivers K kRes n (.error status) [responseFrame status []]
  | result {r : Bytes} {init : List Bytes} {last : Bytes} (hlen : r.length ≤ 4097)
      (hflat : (init ++ [last]).flatten = sealed K kRes n r)
      (hle : ∀ chunk ∈ init ++ [last], chunk.length ≤ maxL2DataSize) (hcount : init.length < 17) :
      Delivers K kRes n (.ok r) (init.map (responseFrame statusResultCont) ++ [responseFrame statusResultOk last])

section Command

variable {K : Crates} {draws : ℕ → OsRng} {c : Chip} {host : Host} {d : Direct} {cmd : Bytes} {g : OsRng} {t : ℕ}

theorem sealed_size {m : Bytes} (hm : m.length < 2 ^ 16) :
    (u16Le (loByte (UInt16.ofNat m.length)) (hiByte (UInt16.ofNat m.length))).toNat = m.length := by
  rw [u16Le, be16_bytes, UInt16.ofNat_toNat, UInt16.toNat_ofNat', Nat.mod_eq_of_lt hm]

theorem sealed_length (hK : K.Agrees) (key : ByteArr 32) (n : ℕ) (m : Bytes) :
    (sealed K key n m).length = m.length + 18 := by
  rw [sealed, List.length_append, hK.tagged]
  simp only [List.length_cons, List.length_nil]
  omega

theorem sealed_ne_nil (key : ByteArr 32) (n : ℕ) (m : Bytes) : sealed K key n m ≠ [] := List.cons_ne_nil _ _

theorem openResult_sealed (hK : K.Agrees) (keys : HostKeys) {r : Bytes} (hr : r.length < 2 ^ 16) :
    Host.openResult K keys (sealed K keys.kRes keys.nr.toNat r) = .ok r := by
  have hlen := sealed_length hK keys.kRes keys.nr.toNat r
  have hlo : (index (sealed K keys.kRes keys.nr.toNat r) 0 : Handler Empty UInt8) =
      .ok (loByte (UInt16.ofNat r.length)) := rfl
  have hhi : (index (sealed K keys.kRes keys.nr.toNat r) 1 : Handler Empty UInt8) =
      .ok (hiByte (UInt16.ofNat r.length)) := rfl
  have hdrop : (sealed K keys.kRes keys.nr.toNat r).drop 2 = K.gcmEncrypt keys.kRes (nonceAt keys.nr.toNat) [] r := rfl
  unfold Host.openResult
  rw [hlo, ok_bind, hhi, ok_bind, Host.assert, if_pos (by rw [hlen, sealed_size hr]; omega), ok_bind, hdrop,
    hK.decrypts]
  rfl

theorem sealed_legal (hK : K.Agrees) (key : ByteArr 32) (n : ℕ) {m : Bytes} (hm : m.length < 2 ^ 16) :
    Legal (sealed K key n m) := by
  refine ⟨_, _, K.gcmEncrypt key (nonceAt n) [] m, rfl, ?_⟩
  rw [hK.tagged, sealed_size hm]
  rfl

/-- The result in frames: no more than 17 of them. -/
theorem resultFrames_sealed (hK : K.Agrees) (key : ByteArr 32) (n : ℕ) {r : Bytes} (hr : r.length ≤ 4097) :
    ∃ frames, Chip.resultFrames (chunks maxL2DataSize (sealed K key n r)) = .ok frames ∧
      Delivers K key n (.ok r) frames := by
  have hsize := sealed_length hK key n r
  have hcount : (chunks maxL2DataSize (sealed K key n r)).length ≤ 17 := by
    have hchunks := chunks_length (n := maxL2DataSize) (by decide) _ (sealed K key n r) (Nat.le_refl _)
    rw [hchunks, hsize]
    show (r.length + 18 + 251) / 252 ≤ 17
    omega
  have hflat := chunks_flatten (n := maxL2DataSize) (by decide) _ (sealed K key n r) (Nat.le_refl _)
  have hle : ∀ chunk ∈ chunks maxL2DataSize (sealed K key n r), chunk.length ≤ maxL2DataSize :=
    fun _ h => chunks_length_le h
  rcases List.eq_nil_or_concat (chunks maxL2DataSize (sealed K key n r)) with h | ⟨init, last, h⟩
  · rw [h] at hflat
    rw [← hflat] at hsize
    simp at hsize
  · rw [List.concat_eq_append] at h
    rw [h] at hflat hle hcount ⊢
    rw [List.length_append, List.length_singleton] at hcount
    exact ⟨_, resultFrames_concat (hle last (by simp)) fun b hb => hle b (by simp [hb]),
      .result hr hflat hle (by omega)⟩

theorem stepNonce_last {n : ℕ} (h : n + 1 = 2 ^ 32) : stepNonce (nonceAt n) = .error .nonceOverflow := by
  have hn : n < 2 ^ 32 := by omega
  unfold stepNonce
  simp only [nonceAt_counter hn]
  split
  · rfl
  · omega

variable (cmd) in
/-- The chip has the command of the host, if there is a next nonce. -/
theorem unwrap_sealed (hK : K.Agrees) (keys : SessionKeys) {n : ℕ} (hkeys : keys.nonceCmd = nonceAt n)
    (hcmd : cmd.length < 2 ^ 16) : Session.unwrapL3Request K ⟨some keys⟩ (sealed K keys.kCmd n cmd) =
      match stepNonce (nonceAt n) with
      | .error e => .error e
      | .ok nonce => .ok (cmd, ⟨some { keys with nonceCmd := nonce }⟩) := by
  have hlen := sealed_length hK keys.kCmd n cmd
  dsimp only [sealed, List.cons_append, List.nil_append] at hlen ⊢
  unfold Session.unwrapL3Request
  dsimp only
  rewrite [if_neg (by omega), if_neg (by rw [sealed_size hcmd]; omega), hkeys, hK.decrypts]
  rfl

theorem answerAfterAck_eq {c : Chip} {dev : Device} (status : UInt8) :
    c.answerAfterAck dev status = .ok ([responseFrame statusRequestOk [], responseFrame status []], c, dev) := rfl

/-- A packet of the host does what the direct execution does, and delivers what it returns. -/
theorem packetCommand_linked (hK : K.Agrees) (h : Linked c host d) {n : ℕ} (hcount : d.count = some n)
    {kCmd kRes : ByteArr 32} (hkeys : host.keys = some ⟨kCmd, kRes, UInt32.ofNat n, UInt32.ofNat n⟩)
    (hcmd : cmd.length < 2 ^ 16) : ∃ call frames c₁ r d', directStep K d (g, cmd) = .ok (r, d') ∧
      c.packetCommand K g d.device (sealed K kCmd n cmd) =
        (call, .ok (responseFrame statusRequestOk [] :: frames, c₁, d'.device)) ∧
      Delivers K kRes n r frames ∧ Linked c₁ (host.after r) d' := by
  have hlinked := h.keys
  rw [hcount] at hlinked
  obtain ⟨hn, kCmd', kRes', hsession, hhost⟩ := hlinked
  obtain ⟨rfl, rfl⟩ : kCmd' = kCmd ∧ kRes' = kRes := by
    rw [hhost] at hkeys
    cases hkeys
    exact ⟨rfl, rfl⟩
  have hsession' : c.session = ⟨some ⟨kCmd', kRes', nonceAt n, nonceAt n, d.pkeyIndex⟩⟩ := by
    rw [← hsession]
  have hunwrap := unwrap_sealed cmd hK ⟨kCmd', kRes', nonceAt n, nonceAt n, d.pkeyIndex⟩ rfl hcmd
  unfold Chip.packetCommand directStep
  rw [hcount, hsession', hunwrap]
  dsimp only
  by_cases hlast : n + 1 = 2 ^ 32
  · rw [if_pos hlast, stepNonce_last hlast]
    exact ⟨_, _, c.dropSession, _, _, rfl, rfl, .status _ (by simp), h.mode, h.polls,
      ⟨h.ready.shaped, h.ready.config, fun _ hk => by cases hk⟩, rfl, h.personality, h.config, h.l3State, rfl,
      by rw [Host.after, hhost]; rfl⟩
  · rw [if_neg hlast, (stepNonce_nonceAt hn).mpr ⟨by omega, rfl⟩]
    have hpkey : d.pkeyIndex.toNat < 32 := Nat.lt_of_le_of_lt (h.ready.pkey _ hsession) (by decide)
    have hanswers : Answers d.device cmd (dispatch K g d.device (c.configInForce d.device) c.personality d.pkeyIndex
      c.l3State cmd) := dispatch_answers h.ready.shaped hpkey
    rw [h.config, h.personality, h.l3State] at hanswers
    obtain ⟨o, device, l3State, hdispatch, hshaped, hle, -⟩ := hanswers
    dsimp only [Option.map, Option.getD]
    rw [h.config, h.personality, h.l3State, hdispatch]
    have hconfig : ∀ cfg, some d.config = some cfg → cfg.length = configRegisters := by
      rintro _ ⟨⟩
      rw [← h.config]
      exact configInForce_length h.ready
    rcases o with r | _
    · have hr := hle r rfl
      obtain ⟨frames, hframes, hdelivers⟩ := resultFrames_sealed hK kRes' n hr
      dsimp only [Chip.answerResult, Session.wrapL3Response]
      rw [(stepNonce_nonceAt hn).mpr ⟨by omega, rfl⟩]
      dsimp only
      have hwire : [loByte (UInt16.ofNat r.length), hiByte (UInt16.ofNat r.length)] ++
          GcmMessage.encrypt K ⟨kRes', nonceAt n, r⟩ = sealed K kRes' n r := rfl
      rw [hwire, hframes]
      refine ⟨_, frames, _, _, _, rfl, rfl, hdelivers, h.mode, h.polls, ⟨hshaped, hconfig, ?_⟩, h.packet, rfl, rfl, rfl,
        by omega, kCmd', kRes', rfl, ?_⟩
      · rintro _ ⟨⟩
        exact h.ready.pkey ⟨kCmd', kRes', nonceAt n, nonceAt n, d.pkeyIndex⟩ hsession
      · rw [Host.after, hhost, UInt32.ofNat_add]
        rfl
    · exact ⟨_, _, _, _, _, rfl, rfl, .status _ (by simp), h.mode, h.polls, ⟨hshaped, hconfig, fun _ hk => by cases hk⟩,
        rfl, rfl, rfl, rfl, rfl, by rw [Host.after, hhost]; rfl⟩

theorem Linked.cleared (h : Linked c host d) : Linked c.cleared.core host d where
  mode := h.mode
  polls := h.polls
  ready := ⟨h.ready.shaped, h.ready.config, h.ready.pkey⟩
  packet := rfl
  personality := h.personality
  config := h.config
  l3State := h.l3State
  keys := h.keys

/-- No packet has been started: the pieces of one that is legal. -/
theorem collected_chunks {packet : Bytes} (h : Linked c host d) (hopen : c.session.isOpen = true)
    (hlen : 2 ≤ packet.length) : Collected c packet (chunks maxL2DataSize packet) where
  mode := h.mode
  polls := h.polls
  isOpen := hopen
  expected hne := absurd h.packet hne
  bytes := by
    rw [h.packet]
    exact chunks_flatten (by decide) _ packet (Nat.le_refl _)
  first := by
    intro _ chunk hchunk
    have hne : packet ≠ [] := List.ne_nil_of_length_pos (by omega)
    rw [chunks_eq_cons (n := maxL2DataSize) (by decide) hne] at hchunk
    cases hchunk
    rw [List.length_take]
    exact Nat.le_min.mpr ⟨by decide, hlen⟩
  pieces chunk hchunk := ⟨chunks_ne_nil (by decide) hchunk, chunks_length_le hchunk⟩

variable (draws) in
/-- The result of the host is the result of the direct execution. -/
theorem l3Resend_linked (hK : K.Agrees) (h : Linked c host d) (hcmd : cmd.length < 2 ^ 16) {rounds : ℕ}
    (hrounds : 17 ≤ rounds) (resendAt : Option ℕ) : ∃ n r d' c' t', t ≤ n ∧ n < t' ∧
      directStep K d (draws n, cmd) = .ok (r, d') ∧ Linked c' (host.after r) d' ∧
      Host.l3Resend K draws rounds host cmd resendAt ⟨.ok (c, d.device), t⟩ =
        .ok ((r, host.after r), ⟨.ok (c', d'.device), t'⟩) := by
  have hkeys := h.keys
  rcases hcount : d.count with _ | n
  · -- the session is closed: the first piece is refused
    rw [hcount] at hkeys
    obtain ⟨hclosed, hhost⟩ := hkeys
    obtain ⟨keys, hhost⟩ := Option.isSome_iff_exists.mp hhost
    have hchunks := chunks_eq_cons (n := maxL2DataSize) (by decide) (sealed_ne_nil (K := K) keys.kCmd keys.nc.toNat cmd)
    obtain ⟨c', t', ht', hcore, hsend⟩ := sendChunks_closed (K := K) (t := t) draws d.device resendAt
      (chunks maxL2DataSize ((sealed K keys.kCmd keys.nc.toNat cmd).drop maxL2DataSize))
      h.mode h.polls hclosed (List.length_take_le maxL2DataSize (sealed K keys.kCmd keys.nc.toNat cmd))
    refine ⟨t, .error statusNoSession, d, c', t', Nat.le_refl t, ht', ?_, h.cleared.of_core hcore, ?_⟩
    · rw [directStep, hcount]
    · rw [← hchunks] at hsend
      unfold Host.l3Resend
      rw [hhost]
      dsimp only [expect]
      rw [ok_bind]
      exact congrArg (· >>= _) hsend
  · rw [hcount] at hkeys
    obtain ⟨hn, kCmd, kRes, hsession, hhost⟩ := hkeys
    have hnc : (UInt32.ofNat n).toNat = n := by
      rw [UInt32.toNat_ofNat', Nat.mod_eq_of_lt hn]
    have hopen : c.session.isOpen = true := by
      rw [Session.isOpen, hsession]
      rfl
    have hsize := sealed_length hK kCmd n cmd
    have hne : chunks maxL2DataSize (sealed K kCmd n cmd) ≠ [] := by
      rw [chunks_eq_cons (n := maxL2DataSize) (by decide) (sealed_ne_nil kCmd n cmd)]
      exact List.cons_ne_nil _ _
    obtain ⟨m, hm, hsend⟩ := sendChunks_sends (K := K) (t := t) draws d.device resendAt (sealed_legal hK kCmd n hcmd)
      hne (collected_chunks h hopen (by omega))
    obtain ⟨call, frames, c₁, r, d', hdirect, hpacket, hdelivers, hlinked⟩ := packetCommand_linked (g := draws m) hK
      h.cleared hcount hhost hcmd
    obtain ⟨c₂, t₂, ht₂, hcore₂, hqueue₂, hleft₂, hsent⟩ := hsend _ _ _ _ hpacket hlinked.mode hlinked.polls
    have hlinked₂ := hlinked.of_core hcore₂
    obtain ⟨rounds, rfl⟩ := Nat.exists_eq_add_of_le' (Nat.le_trans (by decide : 1 ≤ 17) hrounds)
    obtain ⟨c', t', ht', hcore, hcollect⟩ : ∃ c' t', t₂ ≤ t' ∧ c'.core = c₂.core ∧
        Host.collect K draws resendAt (rounds + 1) 0 [] ⟨.ok (c₂, d'.device), t₂⟩ =
          .ok (r.map (sealed K kRes n), ⟨.ok (c', d'.device), t'⟩) := by
      cases hdelivers with
      | status status hs =>
        obtain ⟨hno, hcont, hok⟩ : status ≠ statusNoResp ∧ status ≠ statusResultCont ∧ status ≠ statusResultOk := by
          simp only [List.mem_cons, List.not_mem_nil, or_false] at hs
          rcases hs with rfl | rfl <;> decide
        obtain ⟨c', t', ht', hcore, hcollect⟩ := collect_error (K := K) (t := t₂) draws d'.device
          [] rounds 0 resendAt hlinked₂.mode hlinked₂.polls hleft₂ hqueue₂
          hno hcont hok
        exact ⟨c', t', by omega, hcore, hcollect⟩
      | @result r init last hlen hflat hle hcount =>
        obtain ⟨c', t', ht', hcore, hcollect⟩ := collect_result (K := K) (t := t₂) draws d'.device
          [] 0 resendAt hlinked₂.mode hlinked₂.polls hleft₂
          hqueue₂ hle (show init.length < rounds + 1 by omega)
        exact ⟨c', t', by omega, hcore, hcollect.trans (by rw [List.nil_append, hflat]; rfl)⟩
    refine ⟨m, r, d', c', t', hm, by omega, hdirect, hlinked₂.of_core hcore, ?_⟩
    unfold Host.l3Resend
    rw [hhost]
    dsimp only [expect]
    have hwire : [loByte (UInt16.ofNat cmd.length), hiByte (UInt16.ofNat cmd.length)] ++
        GcmMessage.encrypt K ⟨kCmd, nonceAt n, cmd⟩ = sealed K kCmd n cmd := rfl
    rw [ok_bind, hnc, hwire, hsent, ok_bind]
    dsimp only
    rw [hcollect, ok_bind]
    rcases r with status | r
    · rfl
    · have hopens := openResult_sealed hK ⟨kCmd, kRes, UInt32.ofNat n, UInt32.ofNat n⟩ (r := r) (by
        cases hdelivers with
        | result hlen _ _ _ => omega)
      rw [hnc] at hopens
      dsimp only [Except.map]
      rw [hopens, Host.after, hhost]
      rfl

end Command

/-! ### A session -/

/-- One command after the other, each with the response that is replayed. -/
def Host.commands (K : Crates) (draws : ℕ → OsRng) (rounds : ℕ) (host : Host) :
    List (Bytes × Option ℕ) → HostStep (List (Except UInt8 Bytes) × Host)
  | [], l => return (([], host), l)
  | (cmd, resendAt) :: cmds, l => do
    let ((r, host), l) ← l3Resend K draws rounds host cmd resendAt l
    let ((rs, host), l) ← commands K draws rounds host cmds l
    return ((r :: rs, host), l)

/-- The log of the direct execution: the results of the host, its commands, and what the chip drew in events that
came one after the other. -/
structure Mirrors (draws : ℕ → OsRng) (t : ℕ) (cmds : List (Bytes × Option ℕ)) (results : List (Except UInt8 Bytes))
    (log : List (Event Direct (OsRng × Bytes) (Except UInt8 Bytes))) : Prop where
  results : log.map (·.output) = results
  commands : log.map (·.input.2) = cmds.map (·.1)
  drawn : ∃ ns : List ℕ, log.map (·.input.1) = ns.map draws ∧ ns.Pairwise (· < ·) ∧ ∀ n ∈ ns, t ≤ n

theorem commands_linked {K : Crates} (draws : ℕ → OsRng) (hK : K.Agrees) {rounds : ℕ} (hrounds : 17 ≤ rounds)
    {cmds : List (Bytes × Option ℕ)} (hcmds : ∀ cmd ∈ cmds, cmd.1.length < 2 ^ 16) {c : Chip} {host : Host} {d : Direct}
    {t : ℕ} (h : Linked c host d) : ∃ results log d' c' host' t', Run (directStep K) d log d' ∧
      Mirrors draws t cmds results log ∧ Linked c' host' d' ∧
      Host.commands K draws rounds host cmds ⟨.ok (c, d.device), t⟩ =
        .ok ((results, host'), ⟨.ok (c', d'.device), t'⟩) := by
  induction cmds generalizing c host d t with
  | nil => exact ⟨[], [], d, c, host, t, .nil d, ⟨rfl, rfl, [], rfl, .nil, by simp⟩, h, rfl⟩
  | cons cmd cmds ih =>
    obtain ⟨n, r, d₁, c₁, t₁, hn, ht₁, hstep, hlinked, hcommand⟩ := l3Resend_linked (t := t) draws hK h
      (hcmds cmd List.mem_cons_self) hrounds cmd.2
    obtain ⟨results, log, d', c', host', t', hrun, hmirrors, hlinked', hrest⟩ := ih
      (fun cmd hcmd => hcmds cmd (List.mem_cons_of_mem _ hcmd)) (t := t₁) hlinked
    obtain ⟨ns, hns, hsorted, hbound⟩ := hmirrors.drawn
    refine ⟨r :: results, _, d', c', host', t', .cons hstep hrun, ⟨?_, ?_, n :: ns, ?_, ?_, ?_⟩, hlinked', ?_⟩
    · rw [List.map_cons, hmirrors.results]
    · rw [List.map_cons, hmirrors.commands, List.map_cons]
    · rw [List.map_cons, hns, List.map_cons]
    · exact List.pairwise_cons.mpr ⟨fun m hm => Nat.lt_of_lt_of_le ht₁ (hbound m hm), hsorted⟩
    · intro m hm
      rcases List.mem_cons.mp hm with rfl | hm
      · exact hn
      · exact Nat.le_trans hn (Nat.le_trans (Nat.le_of_lt ht₁) (hbound m hm))
    · rw [Host.commands, hcommand, ok_bind]
      dsimp only
      rw [hrest]
      rfl

/-- What stays as it was when the simulator was started, besides what requests need. -/
def Sim.Provisioned (dev₀ : Device) (busyPolls : ℕ) (s : Sim) : Prop := ∀ c dev, s = .ok (c, dev) →
  c.Ready dev ∧ c.busyPolls = busyPolls ∧ dev.stPriv = dev₀.stPriv ∧ dev.stPub = dev₀.stPub ∧
    dev.certStore = dev₀.certStore

section Provisioned

variable {K : Crates} {g : OsRng} {c c' : Chip} {dev dev' dev₀ : Device} {busyPolls : ℕ}

theorem Handled.polls {raw : Bytes} {frames : List Bytes} {call : Option L3Call}
    (h : Handled K g c dev raw frames call c' dev') : c'.busyPolls = c.busyPolls := by
  cases h <;> rfl

theorem took_busyPolls {xs : List Execution} (h : Took K g c dev xs (.ok (c', dev'))) : c'.busyPolls = c.busyPolls := by
  cases h with
  | quiet h _ => exact busyPolls_of_core h
  | ignored _ _ h _ => exact busyPolls_of_core h
  | resent _ _ _ h => exact busyPolls_of_core h
  | @answered c₀ c₁ _ _ raw call frames _ h₀ hp h _ =>
    rw [busyPolls_of_core h, ← busyPolls_of_core h₀]
    by_cases hr : Reboots raw frames
    · obtain ⟨-, ⟨mode, -, rfl⟩, -⟩ := process_reboots hp hr
      rfl
    · exact (process_handled hp hr).polls

/-- The identity of the chip is not for commands. -/
theorem took_identity {xs : List Execution} (h : Took K g c dev xs (.ok (c', dev'))) :
    dev'.stPriv = dev.stPriv ∧ dev'.stPub = dev.stPub ∧ dev'.certStore = dev.certStore := by
  by_cases hd : dev' = dev
  · rw [hd]
    exact ⟨rfl, rfl, rfl⟩
  · obtain ⟨raw, reply, plaintext, encryption, outcome, l3State, -, ⟨hx⟩⟩ := took_device h hd
    have honeway := (dispatch_update hx.dispatched).oneWay
    exact ⟨honeway.stPriv, honeway.stPub, honeway.certStore⟩

theorem step_provisioned (s : Sim) (i : OsRng × SpiEvent) (h : s.Provisioned dev₀ busyPolls) :
    (Sim.step K s i).2.Provisioned dev₀ busyPolls := by
  intro c' dev' hs
  rcases s with p | ⟨c, dev⟩
  · cases hs
  · obtain ⟨hready, hpolls, hpriv, hpub, hstore⟩ := h c dev rfl
    have hready' : c'.Ready dev' :=
      step_ready (K := K) (.ok (c, dev)) i (fun _ _ hs => by cases hs; exact hready) c' dev' hs
    by_cases hi : i.2 = .powerCycle
    · simp only [Sim.step, hi, Except.ok.injEq, Prod.mk.injEq] at hs
      obtain ⟨rfl, rfl⟩ := hs
      exact ⟨hready', hpolls, hpriv, hpub, hstore⟩
    · have htook := step_took (K := K) c dev hi
      rw [hs] at htook
      obtain ⟨hpriv', hpub', hstore'⟩ := took_identity htook
      exact ⟨hready', (took_busyPolls htook).trans hpolls, hpriv'.trans hpriv, hpub'.trans hpub, hstore'.trans hstore⟩

end Provisioned

theorem storeBlob_congr {dev dev' : Device} (h : dev'.certStore = dev.certStore) : storeBlob dev' = storeBlob dev := by
  unfold storeBlob certBlock
  rw [h]

/-- Whatever the simulator has been through: if it is in application mode, a host that names a slot without a key in
use gets HSK_ERR, and one that has the private key of its slot gets a session in which the results of its commands,
with any one response of each replayed, are those of the commands executed directly, one after the other, on the
device as the handshake found it. -/
theorem channel_is_transparent (K : Crates) (hK : K.Agrees) (p : Personality) (busyPolls : ℕ)
    (hbusy : busyPolls < Host.readAttempts) (dev₀ : Device) (hd : dev₀.Shaped)
    (hkey : Host.certKey (storeBlob dev₀) = .ok dev₀.stPub) (hpub : dev₀.stPub = K.x25519Public dev₀.stPriv)
    (inputs : List (OsRng × SpiEvent)) {c : Chip} {dev : Device}
    (hrun : (outputs (Sim.step K) (.ok ({ Chip.new p with busyPolls }, dev₀)) inputs).2 = .ok (c, dev))
    (hm : c.mode = .application) (draws : ℕ → OsRng) (t : ℕ) (host : Host) {pkey : UInt8} (hpkey : pkey.toNat ≤ 3)
    (shipriv eh : ByteArr 32) :
    let shake := Host.handshake K draws host pkey shipriv (K.x25519Public shipriv) eh ⟨.ok (c, dev), t⟩
    ((∀ slot, dev.pairingSlots.lookup pkey = some slot → slot.state ≠ .written) →
      ∃ l, shake = .ok ((statusHskErr, host), l)) ∧
    (dev.pairingSlots.lookup pkey = some ⟨K.x25519Public shipriv, .written⟩ →
      ∃ host₁ l₁, shake = .ok ((statusRequestOk, host₁), l₁) ∧
      ∀ rounds ≥ 17, ∀ cmds : List (Bytes × Option ℕ), (∀ cmd ∈ cmds, cmd.1.length < 2 ^ 16) →
        ∃ results log d' c' host' t',
          Run (directStep K) ⟨dev, c.configInForce dev, c.l3State, c.personality, pkey, some 0⟩ log d' ∧
          Mirrors draws l₁.time cmds results log ∧
          Host.commands K draws rounds host₁ cmds l₁ = .ok ((results, host'), ⟨.ok (c', d'.device), t'⟩)) := by
  intro shake
  have hnew : Sim.Provisioned dev₀ busyPolls (.ok ({ Chip.new p with busyPolls }, dev₀)) := by
    rintro _ _ ⟨⟩
    exact ⟨ready_of_closed hd rfl rfl, rfl, rfl, rfl, rfl⟩
  obtain ⟨hready, hpolls, hpriv', hpub', hstore'⟩ :=
    outputs_invariant (I := Sim.Provisioned dev₀ busyPolls) step_provisioned inputs _ hnew c dev hrun
  have hbusy' : c.busyPolls < Host.readAttempts := hpolls ▸ hbusy
  have hkey' : Host.certKey (storeBlob dev) = .ok dev.stPub := by
    rw [storeBlob_congr hstore', hpub']
    exact hkey
  refine ⟨fun hslot => ?_, fun hslot => ?_⟩
  · obtain ⟨c', t', -, -, hshake⟩ := handshake_refused (K := K) (t := t) draws shipriv eh
      hm hbusy' hkey' hpkey hslot host (K.x25519Public shipriv)
    exact ⟨_, hshake⟩
  · obtain ⟨kCmd, kRes, c₁, t₁, -, hcore, hshake⟩ := handshake_opens (t := t) draws eh hK hm hbusy' hkey'
      (by rw [hpub', hpriv', hpub]) hpkey hslot host
    have hlinked : Linked c₁ ⟨some ⟨kCmd, kRes, 0, 0⟩⟩
        ⟨dev, c.configInForce dev, c.l3State, c.personality, pkey, some 0⟩ := by
      refine Linked.of_core (c := { c.cleared with session := _ }) ⟨hm, hbusy', ⟨hready.shaped, hready.config, ?_⟩,
        rfl, rfl, rfl, rfl, by decide, kCmd, kRes, rfl, rfl⟩ hcore
      rintro _ ⟨⟩
      exact hpkey
    refine ⟨_, _, hshake, fun rounds hrounds cmds hcmds => ?_⟩
    obtain ⟨results, log, d', c', host', t', hlog, hmirrors, -, hcommands⟩ := commands_linked (t := t₁) draws
      hK hrounds hcmds hlinked
    exact ⟨results, log, d', c', host', t', hlog, hmirrors, hcommands⟩

/-! The recorded session, from the side of the host. -/

/-- `lt_sh0priv_prod0`. -/
def hostStaticSecret : ByteArr 32 :=
  ⟨toBe 32 0x283f5a0ffc41cf5098a8e17db6372c3caad1eeeedf0f75bc3fbfcd9cab3de972, toBe_length _ _⟩

def hostEphemeralSecret : ByteArr 32 := ⟨(List.range 32).map fun i => UInt8.ofNat (64 + i), by simp⟩

/-- The four key pairs. -/
def sessionKeyPairs : List (Bytes × Bytes) :=
  [(hostStaticSecret.bytes, hostStatic), (hostEphemeralSecret.bytes, hostEphemeral),
    (chipStaticSecret.bytes, chipStatic), (chipEphemeralSecret.bytes, chipEphemeral)]

/-- The secrets that were agreed on, from both sides. -/
def sessionSecretsShared : List ((Bytes × Bytes) × Bytes) :=
  [((chipEphemeralSecret.bytes, hostEphemeral), shared1), ((hostEphemeralSecret.bytes, chipEphemeral), shared1),
    ((chipEphemeralSecret.bytes, hostStatic), shared2), ((hostStaticSecret.bytes, chipEphemeral), shared2),
    ((chipStaticSecret.bytes, hostEphemeral), shared3), ((hostEphemeralSecret.bytes, chipStatic), shared3)]

/-- As on record, and for other keys a public key that no recorded one is. -/
def publicKeyOf (k : ByteArr 32) : ByteArr 32 :=
  (((sessionKeyPairs.lookup k.bytes).bind (toArr 32))).getD ⟨k.bytes.take 31 ++ [0xff], by simp [k.size]⟩

/-- As on record, and else the sum of the public keys. -/
def sharedSecretOf (k p : ByteArr 32) : ByteArr 32 :=
  ((sessionSecretsShared.lookup (k.bytes, p.bytes)).bind (toArr 32)).getD
    ⟨List.zipWith (· ^^^ ·) (publicKeyOf k).bytes p.bytes, by simp [(publicKeyOf k).size, p.size]⟩

/-- As on record, and else with a tag of zeros. -/
def sealOf (k : ByteArr 32) (n : ByteArr 12) (a m : Bytes) : Bytes :=
  match pingEncryptions.find? fun r => r.key = k.bytes ∧ r.nonce = n.bytes ∧ r.aad = a ∧ r.plaintext = m with
  | some r => r.ciphertext
  | none => m ++ List.replicate 16 0

def openOf (k : ByteArr 32) (n : ByteArr 12) (a ct : Bytes) : Option Bytes :=
  match pingEncryptions.find? fun r => r.key = k.bytes ∧ r.nonce = n.bytes ∧ r.aad = a ∧ r.ciphertext = ct with
  | some r => some r.plaintext
  | none => if ct.drop (ct.length - 16) = List.replicate 16 0 then some (ct.take (ct.length - 16)) else none

def sessionCrates : Crates :=
  { Crates.recorded pingDigests pingMacs [] [] with
    x25519Public := publicKeyOf, x25519Shared := sharedSecretOf, gcmEncrypt := sealOf, gcmDecrypt := openOf }

theorem find_sealed : ∀ r ∈ pingEncryptions, (pingEncryptions.find? fun r' =>
    r'.key = r.key ∧ r'.nonce = r.nonce ∧ r'.aad = r.aad ∧ r'.ciphertext = r.ciphertext) = some r := by
  decide +kernel

theorem sealed_tags : ∀ r ∈ pingEncryptions, r.ciphertext.length = r.plaintext.length + 16 ∧
    r.ciphertext.drop (r.ciphertext.length - 16) ≠ List.replicate 16 0 := by
  decide +kernel

theorem openOf_sealOf (k : ByteArr 32) (n : ByteArr 12) (a m : Bytes) : openOf k n a (sealOf k n a m) = some m := by
  unfold sealOf
  split
  · rename_i r hr
    have hargs := List.find?_some hr
    simp only [decide_eq_true_eq] at hargs
    obtain ⟨hk, hn, ha, rfl⟩ := hargs
    have hfind := find_sealed r (List.mem_of_find?_eq_some hr)
    unfold openOf
    rw [← hk, ← hn, ← ha, hfind]
  · -- no record has a tag of zeros
    have hdrop : (m ++ List.replicate 16 (0 : UInt8)).drop ((m ++ List.replicate 16 (0 : UInt8)).length - 16) =
        List.replicate 16 0 := by
      rw [List.length_append, List.length_replicate, Nat.add_sub_cancel, List.drop_left]
    have hnone : (pingEncryptions.find? fun r => r.key = k.bytes ∧ r.nonce = n.bytes ∧ r.aad = a ∧
        r.ciphertext = m ++ List.replicate 16 0) = none := by
      rw [List.find?_eq_none]
      intro r hr hargs
      simp only [decide_eq_true_eq] at hargs
      refine (sealed_tags r hr).2 ?_
      rw [hargs.2.2.2, hdrop]
    unfold openOf
    rw [hnone]
    dsimp only
    rw [if_pos hdrop, List.length_append, List.length_replicate, Nat.add_sub_cancel, List.take_left]

theorem sealOf_length (k : ByteArr 32) (n : ByteArr 12) (a m : Bytes) : (sealOf k n a m).length = m.length + 16 := by
  unfold sealOf
  split
  · rename_i r hr
    have hargs := List.find?_some hr
    simp only [decide_eq_true_eq] at hargs
    rw [← hargs.2.2.2, (sealed_tags r (List.mem_of_find?_eq_some hr)).1]
  · rw [List.length_append, List.length_replicate]

theorem recorded_agree : ∀ a ∈ sessionKeyPairs, ∀ b ∈ sessionKeyPairs,
    sessionSecretsShared.lookup (a.1, b.2) = sessionSecretsShared.lookup (b.1, a.2) := by
  decide +kernel

theorem recorded_pairs : (∀ e ∈ sessionSecretsShared, e.1.1 ∈ sessionKeyPairs.map (·.1) ∧ e.1.2.getLast? ≠ some 0xff) ∧
    ∀ e ∈ sessionKeyPairs, e.2.length = 32 := by
  decide +kernel

/-- A key that is on record, with its public key, or one that no record has to do with. -/
theorem publicKeyOf_cases (k : ByteArr 32) : (k.bytes, (publicKeyOf k).bytes) ∈ sessionKeyPairs ∨
    (∀ p, sessionSecretsShared.lookup (k.bytes, p) = none) ∧
      ∀ k', sessionSecretsShared.lookup (k', (publicKeyOf k).bytes) = none := by
  rcases hk : sessionKeyPairs.lookup k.bytes with _ | pub
  · right
    have hno := List.lookup_eq_none_iff.mp hk
    have hpub : (publicKeyOf k).bytes = k.bytes.take 31 ++ [0xff] := by
      rw [publicKeyOf, hk]
      rfl
    refine ⟨fun p => List.lookup_eq_none_iff.mpr fun e he => ?_, fun k' => List.lookup_eq_none_iff.mpr fun e he => ?_⟩
    · obtain ⟨pair, hpair, hfst⟩ := List.mem_map.mp (recorded_pairs.1 e he).1
      have hne := hno pair hpair
      rw [bne_iff_ne] at hne ⊢
      intro h
      exact hne (by rw [hfst, ← h])
    · rw [bne_iff_ne]
      intro h
      refine (recorded_pairs.1 e he).2 ?_
      rw [← h, hpub, List.getLast?_concat]
  · left
    have hmem : (k.bytes, pub) ∈ sessionKeyPairs := by
      obtain ⟨l, r, hl, -⟩ := List.lookup_eq_some_iff.mp hk
      rw [hl]
      simp
    have hpub : (publicKeyOf k).bytes = pub := by
      rw [publicKeyOf, hk, Option.bind_some, toArr, dif_pos (recorded_pairs.2 _ hmem)]
      rfl
    rw [hpub]
    exact hmem

theorem sharedSecretOf_agree (a b : ByteArr 32) :
    sharedSecretOf a (publicKeyOf b) = sharedSecretOf b (publicKeyOf a) := by
  have hlookup : sessionSecretsShared.lookup (a.bytes, (publicKeyOf b).bytes) =
      sessionSecretsShared.lookup (b.bytes, (publicKeyOf a).bytes) := by
    rcases publicKeyOf_cases a with ha | ⟨ha, ha'⟩
    · rcases publicKeyOf_cases b with hb | ⟨hb, hb'⟩
      · exact recorded_agree _ ha _ hb
      · rw [hb, hb']
    · rw [ha, ha']
  unfold sharedSecretOf
  rw [hlookup]
  congr 1
  exact ByteArr.ext (List.zipWith_comm_of_comm UInt8.xor_comm)

theorem sessionCrates_agree : sessionCrates.Agrees := ⟨sharedSecretOf_agree, openOf_sealOf, sealOf_length⟩

/-- The device of the session, with the start of a certificate store: the key of the chip, in the first certificate. -/
def channelDevice : Device :=
  { pairedDevice with
    chipId := List.replicate 128 0
    certStore := [0x01, 0x04, 0, 38, 0, 0, 0, 0, 0, 0] ++ [0x2b, 0x65, 0x6e, 0x03, 0x21, 0x00] ++ chipStatic }

theorem channelDevice_shaped : channelDevice.Shaped where
  pairingSlots := allEntries_empty.insert (by decide)
  eccSlots := allEntries_empty
  rMemSlots := allEntries_empty
  mcounters := allEntries_empty
  macanddSlots := allEntries_empty
  rConfig := List.length_replicate
  iConfig := List.length_replicate
  chipId := List.length_replicate

/-- The session, and the Ping in it: the host gets what the chip answered, and asks for the result twice. -/
theorem ping_through_channel : ∃ host₁ l₁ host' l',
    Host.handshake sessionCrates (fun _ => countingRng) {} 0 hostStaticSecret (publicKeyOf hostStaticSecret)
      hostEphemeralSecret ⟨.ok (Chip.new .fw220, channelDevice), 0⟩ = .ok ((statusRequestOk, host₁), l₁) ∧
    Host.commands sessionCrates (fun _ => countingRng) 17 host₁ [([0x01], some 1)] l₁ =
      .ok (([.ok [0xc3]], host'), l') := by
  have hkey : Host.certKey (storeBlob channelDevice) = .ok channelDevice.stPub := by
    decide +kernel
  have hpub : channelDevice.stPub = publicKeyOf channelDevice.stPriv := by
    decide +kernel
  have hslot : channelDevice.pairingSlots.lookup 0 = some ⟨publicKeyOf hostStaticSecret, .written⟩ := by
    decide +kernel
  have hpkey : (0 : UInt8).toNat ≤ 3 := by decide
  obtain ⟨-, hopens⟩ := channel_is_transparent sessionCrates sessionCrates_agree .fw220 1 (by decide) channelDevice
    channelDevice_shaped hkey hpub [] rfl rfl (fun _ => countingRng) 0 {} hpkey hostStaticSecret
    hostEphemeralSecret
  obtain ⟨host₁, l₁, hshake, hcommands⟩ := hopens hslot
  obtain ⟨results, log, d', c', host', t', hrun, hmirrors, hresults⟩ := hcommands 17 (Nat.le_refl 17) [([0x01], some 1)]
    (by decide)
  have hstep : ∀ g, ∃ d, directStep sessionCrates ⟨channelDevice, (Chip.new .fw220).configInForce channelDevice,
      (Chip.new .fw220).l3State, (Chip.new .fw220).personality, 0, some 0⟩ (g, [0x01]) = .ok (.ok [0xc3], d) :=
    fun g => ⟨_, rfl⟩
  refine ⟨host₁, l₁, host', ⟨.ok (c', d'.device), t'⟩, hshake, ?_⟩
  rw [hresults, ← hmirrors.results]
  have hinputs := hmirrors.commands
  cases hrun with
  | nil => cases hinputs
  | @cons _ _ _ i o log hs hr =>
    obtain ⟨g, cmd⟩ := i
    rw [List.map_cons, List.map_cons, List.cons.injEq] at hinputs
    obtain ⟨rfl, hnil⟩ := hinputs
    obtain rfl := List.map_eq_nil_iff.mp hnil
    obtain ⟨d, hd⟩ := hstep g
    cases hs.symm.trans hd
    rfl

end TROPIC01
end Simulators

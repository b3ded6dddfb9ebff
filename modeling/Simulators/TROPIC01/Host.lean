/-
# TROPIC01: a host

The host of the end-to-end tests, which works as libtropic does: a transaction
that writes a request, polls until the response is there, and over them the
certificate store, the handshake and the commands in their encrypted packets,
with a replay of any one response on the way.

Every event on the bus has a number, and `draws n` is what the chip will draw
in event `n`. A host that panics has met with something it does not expect: an
assertion of its own, or a server that is gone.

Key theorems: `read_response`, `l2_exchange`, `l2_replay`.
-/
import Simulators.TROPIC01.Answers
import Simulators.TROPIC01.Transport

namespace Simulators
namespace TROPIC01

open Handler

/-! ### The program -/

/-- The simulator, and the number of the next event. -/
structure Link where
  sim : Sim
  time : ℕ

/-- A step of the host. -/
abbrev HostStep (α : Type) := Link → Handler Empty (α × Link)

/-- The keys of the host, and how many packets it has sent and received. -/
structure HostKeys where
  kCmd : ByteArr 32
  kRes : ByteArr 32
  nc : UInt32
  nr : UInt32
deriving DecidableEq

structure Host where
  keys : Option HostKeys := none
deriving DecidableEq

namespace Host

/-- `assert!` -/
def assert (c : Prop) [Decidable c] : Handler Empty Unit := if c then .ok () else .error (.panic .assert)

/-- Where the marker is. -/
def windowPosition (marker b : Bytes) : Option ℕ :=
  (List.range b.length).find? fun i => (b.drop i).take marker.length = marker

/-- The key of the first certificate in the store. -/
def certKey (blob : Bytes) : Handler Empty (ByteArr 32) := do
  let hi ← index blob 2
  let lo ← index blob 3
  let cert ← slice blob 10 (10 + be16 hi lo)
  let at_ ← expect (windowPosition [0x2b, 0x65, 0x6e, 0x03, 0x21, 0x00] cert)
  array 32 (← slice cert (at_ + 6) (at_ + 6 + 32))

section Program

variable (K : Crates) (draws : ℕ → OsRng)

/-- One event. A server that has panicked is gone. -/
def tcp (e : SpiEvent) : HostStep Bytes := fun l =>
  match Sim.step K l.sim (draws l.time, e) with
  | (_, .error _) => .error (.panic .unwrap)
  | (o, .ok s) => .ok (o.miso, ⟨.ok s, l.time + 1⟩)

/-- One write transaction, and what came back. -/
def write (frame : Bytes) : HostStep Bytes := fun l => do
  let (_, l) ← tcp K draws .csnLow l
  let (miso, l) ← tcp K draws (.transfer frame) l
  let (_, l) ← tcp K draws .csnHigh l
  return (miso, l)

/-- `lt_l1_read`: poll until READY, and read `[STATUS][LEN][DATA][CRC]`. -/
def readTries : ℕ → HostStep Bytes
  | 0, _ => .error (.panic .assert)
  | tries + 1, l => do
    let (_, l) ← tcp K draws .csnLow l
    let (miso, l) ← tcp K draws (.transfer [getResponseReqId]) l
    let cs ← index miso 0
    if cs &&& 0x01 = 0 then
      let (_, l) ← tcp K draws .csnHigh l
      readTries tries l
    else
      let (hdr, l) ← tcp K draws (.transfer [0, 0]) l
      let status ← index hdr 0
      if status = statusNoResp then
        let (_, l) ← tcp K draws .csnHigh l
        readTries tries l
      else
        let len ← index hdr 1
        let (rest, l) ← tcp K draws (.transfer (List.replicate (len.toNat + 2) 0)) l
        let (_, l) ← tcp K draws .csnHigh l
        return (hdr ++ rest, l)

def readAttempts : ℕ := 50

def read : HostStep Bytes := readTries K draws readAttempts

def l2 (reqId : UInt8) (data : Bytes) : HostStep Bytes := fun l =>
  match buildRequest reqId data with
  | .error p => .error (.panic p)
  | .ok frame => do
    let (_, l) ← write K draws frame l
    read K draws l

/-- The certificate store, block for block. -/
def certBlocks : List UInt8 → HostStep Bytes
  | [], l => return ([], l)
  | block :: blocks, l => do
    let (f, l) ← l2 K draws reqGetInfo [0x00, block] l
    assert (f.head? = some statusRequestOk)
    let len ← index f 1
    let data ← slice f 2 (2 + len.toNat)
    let (rest, l) ← certBlocks blocks l
    return (data ++ rest, l)

def blocksOfStore : List UInt8 := (List.range certStoreBlocks).map UInt8.ofNat

def stpub : HostStep (ByteArr 32) := fun l => do
  let (blob, l) ← certBlocks K draws blocksOfStore l
  let key ← certKey blob
  return (key, l)

/-- The status of the response; the keys are there if it is REQUEST_OK. -/
def handshake (host : Host) (pkey : UInt8) (shipriv shipub eh : ByteArr 32) : HostStep (UInt8 × Host) := fun l => do
  let (stpub, l) ← stpub K draws l
  let ehpub := K.x25519Public eh
  let (f, l) ← l2 K draws reqHandshake (ehpub.bytes ++ [pkey]) l
  let status ← index f 0
  if status ≠ statusRequestOk then return ((status, host), l)
  else
    let etpub ← array 32 (← slice f 2 34)
    let tag ← slice f 34 50
    let h := transcript K [shipub.bytes, stpub.bytes, ehpub.bytes, [pkey], etpub.bytes]
    let (kAuth, kCmd, kRes) := sessionSecrets K (K.x25519Shared eh etpub) (K.x25519Shared shipriv etpub)
      (K.x25519Shared eh stpub)
    let _ ← expect (K.gcmDecrypt kAuth (zeroArr 12) h.bytes tag)
    return ((status, ⟨some ⟨kCmd, kRes, 0, 0⟩⟩), l)

/-- If it is to be replayed, ask for the response again, and check that it is the same. -/
def resend (again : Prop) [Decidable again] (f : Bytes) : HostStep Unit := fun l =>
  if again then do
    let (f', l) ← l2 K draws reqResend [] l
    assert (f' = f)
    return ((), l)
  else .ok ((), l)

/-- The pieces of a packet, or the status that ended it. -/
def sendChunks (resendAt : Option ℕ) : List Bytes → HostStep (Option UInt8)
  | [], l => return (none, l)
  | chunk :: chunks, l => do
    let (f, l) ← l2 K draws reqEncryptedCmd chunk l
    let status ← index f 0
    let want := if chunks = [] then statusRequestOk else statusRequestCont
    if status ≠ want then return (some status, l)
    else
      let (_, l) ← resend K draws (chunks = [] ∧ resendAt = some 0) f l
      sendChunks resendAt chunks l

/-- The chunks of a result; `rounds` bounds the loop. -/
def collect (resendAt : Option ℕ) : (rounds seen : ℕ) → Bytes → HostStep (Except UInt8 Bytes)
  | 0, _, _, _ => .error (.panic .unreachable)
  | rounds + 1, seen, res, l => do
    let (f, l) ← read K draws l
    let (_, l) ← resend K draws (resendAt = some (seen + 1)) f l
    let status ← index f 0
    let len ← index f 1
    if status = statusResultCont then collect resendAt rounds (seen + 1) (res ++ (← slice f 2 (2 + len.toNat))) l
    else if status = statusResultOk then return (.ok (res ++ (← slice f 2 (2 + len.toNat))), l)
    else return (.error status, l)

/-- The plaintext of a whole result. -/
def openResult (keys : HostKeys) (res : Bytes) : Handler Empty Bytes := do
  let lo ← index res 0
  let hi ← index res 1
  assert (res.length = 2 + (u16Le lo hi).toNat + 16)
  expect (K.gcmDecrypt keys.kRes (nonceAt keys.nr.toNat) [] (res.drop 2))

/-- Send a command, collect the result and return its plaintext, or the status that ended it. After response
`resendAt`, where 0 is the acknowledgement, ask for it again. -/
def l3Resend (rounds : ℕ) (host : Host) (cmd : Bytes) (resendAt : Option ℕ) : HostStep (Except UInt8 Bytes × Host) :=
  fun l => do
    let keys ← expect host.keys
    let m : GcmMessage := ⟨keys.kCmd, nonceAt keys.nc.toNat, cmd⟩
    let size := UInt16.ofNat cmd.length
    let packet := [loByte size, hiByte size] ++ m.encrypt K
    match ← sendChunks K draws resendAt (chunks maxL2DataSize packet) l with
    | (some status, l) => return ((.error status, host), l)
    | (none, l) =>
      match ← collect K draws resendAt rounds 0 [] l with
      | (.error status, l) => return ((.error status, host), l)
      | (.ok res, l) =>
        let plaintext ← openResult K keys res
        return ((.ok plaintext, ⟨some { keys with nc := keys.nc + 1, nr := keys.nr + 1 }⟩), l)

end Program

end Host

/-! ### Reading a response -/

theorem busyPolls_of_core {c c' : Chip} (h : c'.core = c.core) : c'.busyPolls = c.busyPolls := by
  show c'.core.busyPolls = c.core.busyPolls
  rw [h]

/-- The chip has served the response; the others are still there. -/
structure Served (c : Chip) (f : Bytes) (queue : List Bytes) (c' : Chip) : Prop where
  core : c'.core = c.core
  queue : c'.queue = queue
  last : c'.lastResponse = some f
  ready : c'.busyLeft = 0

/-- A response that fits into a frame and is not NO_RESP. -/
structure IsResponse (f : Bytes) (status : UInt8) (data : Bytes) : Prop where
  frame : f = responseFrame status data
  status : status ≠ statusNoResp
  fits : data.length ≤ maxL2DataSize

theorem isResponse (status : UInt8) (data : Bytes) (hs : status ≠ statusNoResp) (hd : data.length ≤ maxL2DataSize) :
    IsResponse (responseFrame status data) status data := ⟨rfl, hs, hd⟩

section Reading

variable {K : Crates} {draws : ℕ → OsRng} {c : Chip} {dev : Device} {f data : Bytes} {status : UInt8}
  {queue : List Bytes} {t : ℕ}

theorem IsResponse.length (h : IsResponse f status data) : f.length = data.length + 4 := by
  rw [h.frame]
  simp [responseFrame, appendCrc]

theorem IsResponse.declared (h : IsResponse f status data) : (UInt8.ofNat data.length).toNat = data.length := by
  have hfits : data.length ≤ 252 := h.fits
  rw [UInt8.toNat_ofNat', Nat.mod_eq_of_lt (by omega)]

theorem IsResponse.eq_cons (h : IsResponse f status data) :
    ∃ crc, f = status :: UInt8.ofNat data.length :: (data ++ crc) ∧ crc.length = 2 :=
  ⟨_, h.frame, rfl⟩

/-- What stands between two parts. -/
theorem slice_between {ε : Type} (a b rest : Bytes) {whole : Bytes} {i j : ℕ} (h : whole = a ++ (b ++ rest))
    (hi : a.length = i) (hj : i + b.length = j) : (slice whole i j : Handler ε Bytes) = .ok b := by
  subst h hi hj
  rw [slice_eq_ok, List.drop_left, Nat.add_sub_cancel_left, List.take_left]
  simp only [List.length_append, and_true]
  omega

theorem IsResponse.slice_data (h : IsResponse f status data) :
    (slice f 2 (2 + data.length) : Handler Empty Bytes) = .ok data := by
  obtain ⟨crc, hcons, -⟩ := h.eq_cons
  exact slice_between [status, UInt8.ofNat data.length] data crc hcons rfl rfl

theorem IsResponse.index_status (h : IsResponse f status data) : (index f 0 : Handler Empty UInt8) = .ok status := by
  rw [index_eq_ok, h.frame]
  rfl

theorem IsResponse.index_len (h : IsResponse f status data) :
    (index f 1 : Handler Empty UInt8) = .ok (UInt8.ofNat data.length) := by
  rw [index_eq_ok, h.frame]
  rfl

theorem tcp_csnLow : Host.tcp K draws .csnLow ⟨.ok (c, dev), t⟩ = .ok ([], ⟨.ok (c.csnLow, dev), t + 1⟩) := rfl

theorem tcp_csnHigh : Host.tcp K draws .csnHigh ⟨.ok (c, dev), t⟩ = .ok ([], ⟨.ok (c.csnHigh, dev), t + 1⟩) := rfl

theorem tcp_transfer {mosi miso : Bytes} {xs : List Execution} {c' : Chip} {dev' : Device}
    (h : c.transfer K (draws t) dev mosi = (xs, .ok (miso, c', dev'))) :
    Host.tcp K draws (.transfer mosi) ⟨.ok (c, dev), t⟩ = .ok (miso, ⟨.ok (c', dev'), t + 1⟩) := by
  unfold Host.tcp
  simp only [Sim.step, h]

theorem transfer_poll {g : OsRng} :
    c.csnLow.transfer K g dev [getResponseReqId] = ([], .ok ([c.csnLow.poll.1], c.csnLow.poll.2, dev)) := rfl

theorem transfer_response {g : OsRng} {n : ℕ} (hc : c.phase = .response) (hq : c.queue = f :: queue) :
    c.transfer K g dev (List.replicate n 0) =
      ([], .ok (readOut (f.drop c.cursor) n, { c with cursor := c.cursor + n }, dev)) := by
  have h := clocks_response (K := K) dev ((List.replicate n (0 : UInt8)).map (g, ·)) hc hq
  rw [List.length_map, List.length_replicate] at h
  exact transfer_of_clocks h

theorem poll_serves (hm : c.mode = .application) (hb : c.busyLeft = 0) (hq : c.queue = f :: queue) :
    c.csnLow.poll = (statusReady, { c.csnLow with phase := .response }) := by
  simp [Chip.poll, Chip.chipStatus, Chip.csnLow, hm, hb, hq]

theorem poll_busy {n : ℕ} (hm : c.mode = .application) (hb : c.busyLeft = n + 1) (hq : c.queue = f :: queue) :
    c.csnLow.poll = (if c.personality.busyPollReady = true then statusReady else 0,
      { c.csnLow with busyLeft := n, phase := .noResponse }) := by
  simp [Chip.poll, Chip.chipStatus, Chip.csnLow, hm, hb, hq, statusReady]

theorem readOut_split (f : Bytes) (n : ℕ) (h : n ≤ f.length) : readOut f n = f.take n := by
  induction n generalizing f with
  | zero => cases f <;> rfl
  | succ n ih =>
    rcases f with _ | ⟨b, f⟩
    · cases h
    · rw [readOut, ih f (Nat.le_of_succ_le_succ h), List.take_succ_cons]

variable (draws) (dev) in
/-- The response is there: one poll reads it. -/
theorem readTries_serves (hf : IsResponse f status data) (hm : c.mode = .application) (hb : c.busyLeft = 0)
    (hq : c.queue = f :: queue) (tries : ℕ) : ∃ c', Served c f queue c' ∧
      Host.readTries K draws (tries + 1) ⟨.ok (c, dev), t⟩ = .ok (f, ⟨.ok (c', dev), t + 5⟩) := by
  obtain ⟨crc, hcons, hcrc⟩ := hf.eq_cons
  have hlen := hf.length
  have hready : statusReady &&& 0x01 ≠ 0 := by decide
  obtain ⟨c₁, hc₁⟩ : ∃ c₁ : Chip, c₁ = { c.csnLow with phase := .response } := ⟨_, rfl⟩
  have hpoll : c.csnLow.poll = (statusReady, c₁) := hc₁ ▸ poll_serves hm hb hq
  have hphase : c₁.phase = .response := by rw [hc₁]
  have hcursor : c₁.cursor = 0 := by rw [hc₁]; rfl
  have hq₁ : c₁.queue = f :: queue := by rw [hc₁]; exact hq
  have hhdr : ∀ g, c₁.transfer K g dev [0, 0] =
      ([], .ok ([status, UInt8.ofNat data.length], { c₁ with cursor := 2 }, dev)) := by
    intro g
    have h : c₁.transfer K g dev _ = _ := transfer_response (n := 2) hphase hq₁
    rw [hcursor, List.drop_zero, readOut_split f 2 (by omega), hcons] at h
    exact h
  have hrest : ∀ g, Chip.transfer K g { c₁ with cursor := 2 } dev (List.replicate (data.length + 2) 0) =
      ([], .ok (data ++ crc, { c₁ with cursor := 2 + (data.length + 2) }, dev)) := by
    intro g
    have h : Chip.transfer K g { c₁ with cursor := 2 } dev _ = _ := transfer_response (n := data.length + 2) hphase hq₁
    rw [readOut_split _ _ (by rw [List.length_drop]; dsimp only; omega),
      List.take_of_length_le (by rw [List.length_drop]; dsimp only; omega), hcons] at h
    exact h
  have hhigh : Chip.csnHigh { c₁ with cursor := 2 + (data.length + 2) } =
      { c.resting with lastResponse := some f, queue } := by
    rw [csnHigh_read (c := { c₁ with cursor := 2 + (data.length + 2) }) hphase hq₁, if_pos (by dsimp only; omega), hc₁]
    rfl
  refine ⟨{ c.resting with lastResponse := some f, queue }, ⟨rfl, rfl, rfl, hb⟩, ?_⟩
  unfold Host.readTries
  rw [tcp_csnLow, ok_bind]
  dsimp only
  rw [tcp_transfer transfer_poll, ok_bind, hpoll]
  dsimp only [index]
  simp only [List.getElem?_cons_zero, ok_bind, if_neg hready]
  rw [tcp_transfer (hhdr _), ok_bind]
  simp only [List.getElem?_cons_zero, ok_bind, if_neg hf.status, List.getElem?_cons_succ, hf.declared]
  rw [tcp_transfer (hrest _), ok_bind]
  dsimp only
  rw [tcp_csnHigh, ok_bind, hhigh, hcons]
  rfl

theorem transfer_waits {g : OsRng} (hc : c.phase = .noResponse) (mosi : Bytes) :
    c.transfer K g dev mosi = ([], .ok (List.replicate mosi.length statusNoResp, c, dev)) := by
  have h := clocks_noResponse (K := K) hc dev (mosi.map (g, ·))
  rw [List.length_map] at h
  exact transfer_of_clocks h

variable (draws) (dev) in
/-- A busy poll, with READY or without. -/
theorem readTries_busy {n : ℕ} (hm : c.mode = .application) (hb : c.busyLeft = n + 1) (hq : c.queue = f :: queue)
    (tries : ℕ) : ∃ c' t', t < t' ∧ c'.core = c.core ∧ c'.queue = c.queue ∧ c'.busyLeft = n ∧
      Host.readTries K draws (tries + 1) ⟨.ok (c, dev), t⟩ = Host.readTries K draws tries ⟨.ok (c', dev), t'⟩ := by
  have hready : statusReady &&& 0x01 ≠ 0 := by decide
  obtain ⟨c₁, hc₁⟩ : ∃ c₁ : Chip, c₁ = { c.csnLow with busyLeft := n, phase := .noResponse } := ⟨_, rfl⟩
  have hpoll : c.csnLow.poll = (if c.personality.busyPollReady = true then statusReady else 0, c₁) :=
    hc₁ ▸ poll_busy hm hb hq
  have hphase : c₁.phase = .noResponse := by rw [hc₁]
  have hhigh : c₁.csnHigh = { c.resting with busyLeft := n } := by
    rw [hc₁]
    rfl
  by_cases hp : c.personality.busyPollReady = true
  · rw [if_pos hp] at hpoll
    refine ⟨{ c.resting with busyLeft := n }, t + 4, by omega, rfl, rfl, rfl, ?_⟩
    rw [Host.readTries, tcp_csnLow, ok_bind]
    dsimp only
    rw [tcp_transfer transfer_poll, ok_bind, hpoll]
    dsimp only [index]
    simp only [List.getElem?_cons_zero, ok_bind, if_neg hready]
    rw [tcp_transfer (transfer_waits hphase _), ok_bind]
    simp only [List.length_cons, List.length_nil, List.replicate, List.getElem?_cons_zero, ok_bind, if_true]
    rw [tcp_csnHigh, ok_bind, hhigh]
  · rw [if_neg hp] at hpoll
    refine ⟨{ c.resting with busyLeft := n }, t + 3, by omega, rfl, rfl, rfl, ?_⟩
    rw [Host.readTries, tcp_csnLow, ok_bind]
    dsimp only
    rw [tcp_transfer transfer_poll, ok_bind, hpoll]
    dsimp only [index]
    simp only [List.getElem?_cons_zero, ok_bind]
    rw [if_pos (by decide), tcp_csnHigh, ok_bind, hhigh]

/-- Fewer busy polls than tries, and the response is read. -/
theorem readTries_response (hf : IsResponse f status data) {n tries : ℕ} (hn : n < tries) (hm : c.mode = .application)
    (hb : c.busyLeft = n) (hq : c.queue = f :: queue) : ∃ c' t', t < t' ∧ Served c f queue c' ∧
      Host.readTries K draws tries ⟨.ok (c, dev), t⟩ = .ok (f, ⟨.ok (c', dev), t'⟩) := by
  induction n generalizing tries c t with
  | zero =>
    obtain ⟨tries, rfl⟩ := Nat.exists_eq_succ_of_ne_zero (Nat.ne_of_gt hn)
    obtain ⟨c', hserved, hread⟩ := readTries_serves (K := K) (t := t) draws dev hf hm hb hq tries
    exact ⟨c', t + 5, by omega, hserved, hread⟩
  | succ n ih =>
    obtain ⟨tries, rfl⟩ := Nat.exists_eq_succ_of_ne_zero (Nat.ne_of_gt (Nat.zero_lt_of_lt hn))
    obtain ⟨c₁, t₁, ht₁, hcore, hqueue, hb₁, hread₁⟩ := readTries_busy (K := K) (t := t) draws dev hm
      hb hq tries
    obtain ⟨c', t', ht', hserved, hread⟩ := ih (c := c₁) (t := t₁) (Nat.lt_of_succ_lt_succ hn)
      ((mode_of_core hcore).trans hm) hb₁ (hqueue.trans hq)
    exact ⟨c', t', by omega, ⟨hserved.core.trans hcore, hserved.queue, hserved.last, hserved.ready⟩, hread₁.trans hread⟩

variable (draws) (dev) in
theorem read_response (hf : IsResponse f status data) (hm : c.mode = .application) (hb : c.busyLeft < Host.readAttempts)
    (hq : c.queue = f :: queue) : ∃ c' t', t < t' ∧ Served c f queue c' ∧
      Host.read K draws ⟨.ok (c, dev), t⟩ = .ok (f, ⟨.ok (c', dev), t'⟩) :=
  readTries_response hf hb hm rfl hq

end Reading

/-! ### An exchange -/

section Exchange

variable {K : Crates} {draws : ℕ → OsRng} {c c₁ : Chip} {dev dev₁ : Device} {f data body : Bytes}
  {reqId status : UInt8} {queue : List Bytes} {t : ℕ}

/-- A complete frame, clocked in one transfer. -/
theorem transfer_request {g : OsRng} {reqLen : UInt8} {rest : Bytes} {x : Execution} {c' : Chip} {dev' : Device}
    (hm : c.mode ≠ .alarm) (haa : reqId ≠ getResponseReqId)
    (hlen : rest.length = reqLen.toNat + 2) (hfits : reqLen.toNat ≤ maxL2DataSize)
    (hx : (c.receiving []).execute K g dev (reqId :: reqLen :: rest) = (x, .ok (c', dev'))) :
    ∃ miso, c.csnLow.transfer K g dev (reqId :: reqLen :: rest) =
      ([x], .ok (miso, { c' with phase := .noResponse }, dev')) := by
  obtain ⟨past, b, hframe⟩ : ∃ past b, reqId :: reqLen :: rest = past ++ [b] :=
    ⟨_, _, (List.dropLast_append_getLast (List.cons_ne_nil _ _)).symm⟩
  have hcount : past.length = reqLen.toNat + 3 := by
    have := congrArg List.length hframe
    simp only [List.length_append, List.length_cons, List.length_nil] at this
    omega
  have hmap : (past.map (g, ·)).map (·.2) = past := by simp [Function.comp_def]
  have hne : past.map (g, ·) ≠ [] := by
    intro h
    rw [List.map_eq_nil_iff.mp h] at hcount
    cases hcount
  have hprefix : (past.map (g, ·)).map (·.2) <+: reqId :: reqLen :: rest := by
    rw [hmap, hframe]
    exact List.prefix_append _ _
  obtain ⟨miso, hpast⟩ := clocks_collects (K := K) (c := c) dev hm haa hne hprefix fun n hn => by
    rw [List.length_map] at hn
    have hcap : min maxL2FrameSize n ≤ n := Nat.min_le_right _ _
    omega
  rw [hmap] at hpast
  have hlast : (c.receiving past).transferByte K g dev b =
      (some x, .ok (0xff, { c' with phase := .noResponse }, dev')) := by
    unfold Chip.transferByte
    dsimp only [Chip.receiving]
    rw [← Chip.receiving, push_completes dev hframe.symm hlen hfits, hx]
    rfl
  have hclocks := hpast.append (.cons (g := g) hlast (.nil _ _))
  have hall : (reqId :: reqLen :: rest).map (g, ·) = past.map (g, ·) ++ [(g, b)] := by
    rw [hframe, List.map_append, List.map_singleton]
  rw [← hall] at hclocks
  exact ⟨_, transfer_of_clocks hclocks⟩

/-- A write transaction that executes a request. -/
theorem write_request (data : Bytes) {x : Execution} {c' : Chip} {dev' : Device} (hm : c.mode ≠ .alarm)
    (haa : reqId ≠ getResponseReqId) (hfits : data.length ≤ maxL2DataSize)
    (hx : (c.receiving []).execute K (draws (t + 1)) dev (responseFrame reqId data) = (x, .ok (c', dev'))) :
    ∃ miso, Host.write K draws (responseFrame reqId data) ⟨.ok (c, dev), t⟩ =
      .ok (miso, ⟨.ok ({ c' with phase := .idle, cursor := 0 }, dev'), t + 3⟩) := by
  have hfits' : data.length ≤ 252 := hfits
  have hdeclared : (UInt8.ofNat data.length).toNat = data.length := by
    rw [UInt8.toNat_ofNat', Nat.mod_eq_of_lt (by omega)]
  obtain ⟨miso, htransfer⟩ : ∃ miso, c.csnLow.transfer K (draws (t + 1)) dev (responseFrame reqId data) =
      ([x], .ok (miso, { c' with phase := .noResponse }, dev')) :=
    transfer_request hm haa (by simp [hdeclared]) (by rw [hdeclared]; exact hfits) hx
  refine ⟨miso, ?_⟩
  unfold Host.write
  rw [tcp_csnLow, ok_bind]
  dsimp only
  rw [tcp_transfer htransfer, ok_bind]
  dsimp only
  rw [tcp_csnHigh, ok_bind]
  rfl

/-- A request that is not a RESEND is processed. -/
theorem execute_processed {g : OsRng} {raw : Bytes} {call : Option L3Call} {frames : List Bytes}
    (hm : c.mode ≠ .alarm) (hraw : parseRequest raw = .ok ⟨reqId, data⟩) (hid : reqId ≠ reqResend)
    (hp : c.process K g dev raw = (call, .ok (frames, c₁, dev₁))) :
    c.execute K g dev raw = (⟨raw, frames, call⟩,
      .ok ({ c₁ with queue := frames, busyLeft := if frames = [] then 0 else c₁.busyPolls }, dev₁)) := by
  unfold Chip.execute
  dsimp only
  rw [if_neg hm, hraw, hp]
  simp only [hid, false_and, decide_false]

variable (draws) in
/-- A request, and the first frame of its answer. -/
theorem l2_exchange (data : Bytes) {call : Option L3Call} (hm : c.mode = .application) (haa : reqId ≠ getResponseReqId)
    (hid : reqId ≠ reqResend) (hfits : data.length ≤ maxL2DataSize)
    (hp : (c.receiving []).process K (draws (t + 1)) dev (responseFrame reqId data) =
      (call, .ok (f :: queue, c₁, dev₁)))
    (hf : IsResponse f status body) (hm₁ : c₁.mode = .application) (hbusy : c₁.busyPolls < Host.readAttempts) :
    ∃ c' t', t + 1 < t' ∧ Served c₁ f queue c' ∧
      Host.l2 K draws reqId data ⟨.ok (c, dev), t⟩ = .ok (f, ⟨.ok (c', dev₁), t'⟩) := by
  have hm' : c.mode ≠ .alarm := by simp [hm]
  obtain ⟨miso, hwrite⟩ := write_request data hm' haa hfits
    (execute_processed (c := c.receiving []) hm' (parseRequest_appendCrc hfits) hid hp)
  obtain ⟨c', t', ht', hserved, hread⟩ := read_response (K := K) draws dev₁ (t := t + 3) (c :=
    { c₁ with queue := f :: queue, busyLeft := c₁.busyPolls, phase := .idle, cursor := 0 }) hf hm₁ hbusy rfl
  refine ⟨c', t', by omega, ⟨hserved.core, hserved.queue, hserved.last, hserved.ready⟩, ?_⟩
  unfold Host.l2
  rw [buildRequest_of_le hfits]
  dsimp only
  rw [← responseFrame, hwrite, ok_bind]
  exact hread

variable (draws) (dev) in
/-- The last response, once more. -/
theorem l2_replay (hm : c.mode = .application) (hlast : c.lastResponse = some f) (hf : IsResponse f status body)
    (hbusy : c.busyPolls < Host.readAttempts) : ∃ c' t', t < t' ∧ Served c f c.queue c' ∧
      Host.l2 K draws reqResend [] ⟨.ok (c, dev), t⟩ = .ok (f, ⟨.ok (c', dev), t'⟩) := by
  have hm' : c.mode ≠ .alarm := by simp [hm]
  obtain ⟨miso, hwrite⟩ := write_request [] (t := t) hm' (by decide) (Nat.zero_le _)
    (execute_resend (K := K) (g := draws (t + 1)) dev (c := c.receiving []) hm' hlast)
  obtain ⟨c', t', ht', hserved, hread⟩ := read_response (K := K) draws dev (t := t + 3) (c :=
    { c.receiving [] with queue := f :: c.queue, busyLeft := c.busyPolls, phase := .idle, cursor := 0 }) hf hm hbusy rfl
  refine ⟨c', t', by omega, ⟨hserved.core, hserved.queue, hserved.last, hserved.ready⟩, ?_⟩
  unfold Host.l2
  rw [buildRequest_of_le (Nat.zero_le _)]
  dsimp only
  rw [← responseFrame, hwrite, ok_bind]
  exact hread

end Exchange

end TROPIC01
end Simulators

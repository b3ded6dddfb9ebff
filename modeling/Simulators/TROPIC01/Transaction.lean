/-
# TROPIC01: transactions

The host talks to the chip in transactions: CSN goes low, bytes are clocked in
any number of pieces, CSN goes high. How the bytes are cut into pieces does not
matter (`Clocks`). A frame is executed when its last byte arrives; a request
that declares more than the chip can hold is never executed. A poll waits,
reads a part of the first frame, or reads it completely and takes it from the
queue.

Key theorems: `transact_of_clocks`, `clocks_request`, `clocks_overlong`,
`transact_busy`, `transact_read`.
-/
import Simulators.TROPIC01.Requests

namespace Simulators
namespace TROPIC01

/-- CSN goes low, the pieces are clocked, CSN goes high. -/
structure Transaction where
  /-- What the chip would draw when CSN changes. -/
  csnRng : OsRng
  pieces : List (OsRng × Bytes)

namespace Transaction

def events (t : Transaction) : List (OsRng × SpiEvent) :=
  (t.csnRng, .csnLow) :: t.pieces.map (fun p => (p.1, .transfer p.2)) ++ [(t.csnRng, .csnHigh)]

def mosi (t : Transaction) : Bytes := (t.pieces.map (·.2)).flatten

/-- The bytes, each with what the chip will draw in its transfer. -/
def clocked (t : Transaction) : List (OsRng × UInt8) := t.pieces.flatMap fun p => p.2.map (p.1, ·)

theorem clocked_mosi (t : Transaction) : t.clocked.map (·.2) = t.mosi := by
  simp [clocked, mosi, List.flatMap_def, Function.comp_def]

end Transaction

/-- MISO and the executed requests of all the events, and the state after them. -/
def Sim.runEvents (K : Crates) (s : Sim) (events : List (OsRng × SpiEvent)) : SpiOutput × Sim :=
  let (os, s') := outputs (Sim.step K) s events
  (⟨os.flatMap (·.miso), os.flatMap (·.executed)⟩, s')

def Sim.transact (K : Crates) (s : Sim) (t : Transaction) : SpiOutput × Sim := s.runEvents K t.events

/-! ### Bytes and pieces -/

/-- The bytes are clocked one by one, without a panic: what they execute, and MISO. -/
inductive Clocks (K : Crates) :
    Chip → Device → List (OsRng × UInt8) → List Execution → Bytes → Chip → Device → Prop
  | nil (c : Chip) (dev : Device) : Clocks K c dev [] [] [] c dev
  | cons {c c' c'' : Chip} {dev dev' dev'' : Device} {g : OsRng} {b out : UInt8} {x : Option Execution}
      {bytes : List (OsRng × UInt8)} {xs : List Execution} {miso : Bytes}
      (h : c.transferByte K g dev b = (x, .ok (out, c', dev'))) (hr : Clocks K c' dev' bytes xs miso c'' dev'') :
      Clocks K c dev ((g, b) :: bytes) (x.toList ++ xs) (out :: miso) c'' dev''

section Pieces

variable {K : Crates} {g : OsRng} {c c' c'' : Chip} {dev dev' dev'' : Device} {xs ys : List Execution}
  {miso miso' : Bytes}

theorem Clocks.append {bytes bytes' : List (OsRng × UInt8)} (h : Clocks K c dev bytes xs miso c' dev')
    (h' : Clocks K c' dev' bytes' ys miso' c'' dev'') :
    Clocks K c dev (bytes ++ bytes') (xs ++ ys) (miso ++ miso') c'' dev'' := by
  induction h with
  | nil _ _ => exact h'
  | cons hb _ ih =>
    rw [List.append_assoc]
    exact .cons hb (ih h')

theorem Clocks.split : ∀ (bytes : List (OsRng × UInt8)) {bytes' : List (OsRng × UInt8)} {c : Chip} {dev : Device}
    {xs : List Execution} {miso : Bytes}, Clocks K c dev (bytes ++ bytes') xs miso c'' dev'' →
    ∃ xs₁ xs₂ miso₁ miso₂ c' dev', Clocks K c dev bytes xs₁ miso₁ c' dev' ∧
      Clocks K c' dev' bytes' xs₂ miso₂ c'' dev'' ∧ xs = xs₁ ++ xs₂ ∧ miso = miso₁ ++ miso₂
  | [], _, c, dev, _, _, h => ⟨[], _, [], _, c, dev, .nil c dev, h, rfl, rfl⟩
  | (g, b) :: bytes, bytes', _, _, _, _, .cons hb hr => by
    obtain ⟨xs₁, xs₂, miso₁, miso₂, c', dev', h₁, h₂, rfl, rfl⟩ := Clocks.split bytes hr
    exact ⟨_, xs₂, _, miso₂, c', dev', .cons hb h₁, h₂, (List.append_assoc _ _ _).symm, rfl⟩

theorem transfer_of_clocks : ∀ {mosi : Bytes} {c : Chip} {dev : Device} {xs : List Execution} {miso : Bytes},
    Clocks K c dev (mosi.map (g, ·)) xs miso c' dev' → c.transfer K g dev mosi = (xs, .ok (miso, c', dev'))
  | [], _, _, _, _, .nil _ _ => rfl
  | b :: mosi, _, _, _, _, .cons hb hr => by
    rw [Chip.transfer, hb]
    dsimp only
    rw [transfer_of_clocks hr]
    rfl

theorem runEvents_cons {s s' : Sim} {i : OsRng × SpiEvent} {is : List (OsRng × SpiEvent)} {o o' : SpiOutput}
    {s'' : Sim} (h : Sim.step K s i = (o, s')) (hr : s'.runEvents K is = (o', s'')) :
    s.runEvents K (i :: is) = (⟨o.miso ++ o'.miso, o.executed ++ o'.executed⟩, s'') := by
  unfold Sim.runEvents at hr ⊢
  simp only [outputs, h]
  cases hr
  rfl

/-- The pieces are clocked, and CSN goes high. -/
theorem runEvents_of_clocks : ∀ {pieces : List (OsRng × Bytes)} {c : Chip} {dev : Device} {xs : List Execution}
    {miso : Bytes}, Clocks K c dev (pieces.flatMap fun p => p.2.map (p.1, ·)) xs miso c' dev' →
    Sim.runEvents K (.ok (c, dev)) (pieces.map (fun p => (p.1, SpiEvent.transfer p.2)) ++ [(g, .csnHigh)]) =
      (⟨miso, xs⟩, .ok (c'.csnHigh, dev'))
  | [], _, _, _, _, .nil _ _ => rfl
  | p :: pieces, c, dev, xs, miso, h => by
    obtain ⟨xs₁, xs₂, miso₁, miso₂, c₁, dev₁, h₁, h₂, rfl, rfl⟩ := Clocks.split (p.2.map (p.1, ·)) h
    have hstep : Sim.step K (.ok (c, dev)) (p.1, .transfer p.2) = (⟨miso₁, xs₁⟩, .ok (c₁, dev₁)) := by
      simp only [Sim.step, transfer_of_clocks h₁]
    exact runEvents_cons hstep (runEvents_of_clocks h₂)

/-- A transaction is its bytes, in whatever pieces they come. -/
theorem transact_of_clocks {t : Transaction} (h : Clocks K c.csnLow dev t.clocked xs miso c' dev') :
    Sim.transact K (.ok (c, dev)) t = (⟨miso, xs⟩, .ok (c'.csnHigh, dev')) :=
  runEvents_cons (o := {}) rfl (runEvents_of_clocks h)

/-- Bytes after a request change nothing. -/
theorem clocks_noResponse (hc : c.phase = .noResponse) (dev : Device) : ∀ bytes : List (OsRng × UInt8),
    Clocks K c dev bytes [] (List.replicate bytes.length statusNoResp) c dev
  | [] => .nil c dev
  | (g, b) :: bytes => .cons (x := none) (by rw [Chip.transferByte, hc]) (clocks_noResponse hc dev bytes)

end Pieces

/-! ### Requests -/

/-- A request is coming in; these are its bytes so far, as far as the chip holds them. -/
def Chip.receiving (c : Chip) (past : Bytes) : Chip :=
  { c with phase := .request, request := past.take maxL2FrameSize, cursor := 0 }

section Receiving

variable {K : Crates} {g : OsRng} {c : Chip} (dev : Device) {past rest : Bytes} {b reqId reqLen : UInt8}

theorem push_take : (if (past.take maxL2FrameSize).length < maxL2FrameSize then past.take maxL2FrameSize ++ [b]
    else past.take maxL2FrameSize) = (past ++ [b]).take maxL2FrameSize := by
  rw [List.length_take, List.take_append]
  split
  · rename_i h
    rw [List.take_of_length_le (l := [b])]
    rw [List.length_singleton]
    omega
  · rename_i h
    rw [Nat.sub_eq_zero_of_le (by omega), List.take_zero, List.append_nil]

/-- The chip goes by the declared length once it has it. -/
theorem declared (h : past ++ [b] <+: reqId :: reqLen :: rest) (hpast : past ≠ []) :
    ((past ++ [b]).take maxL2FrameSize)[1]? = some reqLen := by
  obtain ⟨extra, h⟩ := h
  rcases past with _ | ⟨b₀, _ | ⟨b₁, past⟩⟩
  · exact absurd rfl hpast
  · cases h
    rfl
  · cases h
    rfl

theorem push_waits (h : past ++ [b] <+: reqId :: reqLen :: rest)
    (hlen : min maxL2FrameSize (past.length + 1) ≠ reqLen.toNat + 4) :
    (c.receiving past).pushRequestByte K g dev b = (none, .ok (c.receiving (past ++ [b]), dev)) := by
  unfold Chip.pushRequestByte Chip.receiving
  dsimp only
  rw [push_take]
  by_cases hpast : past = []
  · rw [hpast]
    rfl
  · rw [declared h hpast]
    dsimp only
    rw [if_neg]
    rw [List.length_take, List.length_append, List.length_singleton]
    exact hlen

/-- A complete frame is executed. -/
theorem push_completes (h : past ++ [b] = reqId :: reqLen :: rest) (hlen : rest.length = reqLen.toNat + 2)
    (hfits : reqLen.toNat ≤ maxL2DataSize) : (c.receiving past).pushRequestByte K g dev b =
      (some ((c.receiving []).execute K g dev (reqId :: reqLen :: rest)).1,
        ((c.receiving []).execute K g dev (reqId :: reqLen :: rest)).2.map fun (c, dev) =>
          ({ c with phase := .noResponse }, dev)) := by
  have htake : (reqId :: reqLen :: rest).take maxL2FrameSize = reqId :: reqLen :: rest := by
    apply List.take_of_length_le
    simp only [List.length_cons, hlen, maxL2FrameSize]
    omega
  have hdeclared : (reqId :: reqLen :: rest)[1]? = some reqLen := rfl
  unfold Chip.pushRequestByte Chip.receiving
  dsimp only
  rw [push_take, h, htake, hdeclared]
  dsimp only
  rw [if_pos (by simp only [List.length_cons, hlen])]
  rfl

/-- Bytes that do not bring a request to its declared length are collected. -/
theorem clocks_waits : ∀ {bytes : List (OsRng × UInt8)} {past : Bytes},
    past ++ bytes.map (·.2) <+: reqId :: reqLen :: rest →
    (∀ n ≤ past.length + bytes.length, min maxL2FrameSize n ≠ reqLen.toNat + 4) →
    Clocks K (c.receiving past) dev bytes [] (List.replicate bytes.length 0xff)
      (c.receiving (past ++ bytes.map (·.2))) dev
  | [], past, _, _ => by
    rw [List.map_nil, List.append_nil]
    exact .nil _ dev
  | (g, b) :: bytes, past, h, hwait => by
    rw [List.map_cons, List.append_cons] at h ⊢
    have hb : (c.receiving past).transferByte K g dev b = (none, .ok (0xff, c.receiving (past ++ [b]), dev)) := by
      rw [Chip.transferByte]
      dsimp only [Chip.receiving]
      rw [← Chip.receiving, push_waits dev ((List.prefix_append _ _).trans h)]
      · rfl
      · exact hwait (past.length + 1) (by simp)
    refine .cons hb (clocks_waits h fun n hn => hwait n ?_)
    rw [List.length_append, List.length_singleton] at hn
    rw [List.length_cons]
    omega

/-- Only in alarm mode the status has a memory. -/
theorem chipStatus_running (hm : c.mode ≠ .alarm) : c.chipStatus = (c.chipStatus.1, c) := by
  unfold Chip.chipStatus
  split
  · rfl
  · rfl
  · exact absurd ‹_› hm

/-- The first byte of a request. -/
theorem first_request (hm : c.mode ≠ .alarm) (hb : b ≠ getResponseReqId) (h : [b] <+: reqId :: reqLen :: rest) :
    c.csnLow.transferByte K g dev b = (none, .ok (c.csnLow.chipStatus.1, c.receiving [b], dev)) := by
  have hstatus : c.csnLow.chipStatus = (c.csnLow.chipStatus.1, c.csnLow) := chipStatus_running hm
  have hpush : (c.receiving []).pushRequestByte K g dev b = (none, .ok (c.receiving [b], dev)) :=
    push_waits dev h (by simp [maxL2FrameSize])
  unfold Chip.transferByte
  show (if b = getResponseReqId then _ else _) = _
  rw [if_neg hb, hstatus]
  show (((c.receiving []).pushRequestByte K g dev b).1, ((c.receiving []).pushRequestByte K g dev b).2.map _) = _
  rw [hpush]
  rfl

/-- The bytes of a request up to where it is complete. -/
theorem clocks_collects {bytes : List (OsRng × UInt8)} (hm : c.mode ≠ .alarm) (haa : reqId ≠ getResponseReqId)
    (hne : bytes ≠ []) (h : bytes.map (·.2) <+: reqId :: reqLen :: rest)
    (hwait : ∀ n ≤ bytes.length, min maxL2FrameSize n ≠ reqLen.toNat + 4) :
    ∃ miso, Clocks K c.csnLow dev bytes [] miso (c.receiving (bytes.map (·.2))) dev := by
  rcases bytes with _ | ⟨⟨g, b⟩, bytes⟩
  · exact absurd rfl hne
  · rw [List.map_cons] at h ⊢
    obtain rfl : b = reqId := (List.cons_prefix_cons.mp h).1
    have hfirst : [b] <+: b :: reqLen :: rest := ⟨_, rfl⟩
    have hrest : Clocks K (c.receiving [b]) dev bytes [] _ (c.receiving (b :: bytes.map (·.2))) dev :=
      clocks_waits dev h fun n hn => hwait n (by rw [List.length_cons, Nat.add_comm]; exact hn)
    exact ⟨_, .cons (first_request dev hm haa hfirst) hrest⟩

end Receiving

section Requests

variable {K : Crates} {c : Chip} (dev : Device) {extra rest : Bytes} {reqId reqLen : UInt8} {t : Transaction}

/-- A frame that declares what it has is executed, and the rest of the transaction ignored. -/
theorem transact_request (hm : c.mode ≠ .alarm) (haa : reqId ≠ getResponseReqId)
    (hlen : rest.length = reqLen.toNat + 2) (hfits : reqLen.toNat ≤ maxL2DataSize)
    (ht : t.mosi = reqId :: reqLen :: rest ++ extra) : ∃ g, ∀ x c' dev',
    (c.receiving []).execute K g dev (reqId :: reqLen :: rest) = (x, .ok (c', dev')) →
    ∃ miso, Sim.transact K (.ok (c, dev)) t = (⟨miso, [x]⟩, .ok ({ c' with phase := .idle, cursor := 0 }, dev')) := by
  rw [← t.clocked_mosi] at ht
  obtain ⟨frame, tail, hsplit, hframe, -⟩ := List.map_eq_append_iff.mp ht
  rcases List.eq_nil_or_concat frame with rfl | ⟨past, ⟨g, b⟩, rfl⟩
  · cases hframe
  · rw [List.concat_eq_append] at hsplit hframe
    rw [List.map_append, List.map_singleton] at hframe
    have hcount : past.length = reqLen.toNat + 3 := by
      have := congrArg List.length hframe
      simp only [List.length_append, List.length_map, List.length_cons, List.length_nil] at this
      omega
    have hfits' : reqLen.toNat + 4 ≤ maxL2FrameSize := by
      simp only [maxL2FrameSize]
      omega
    have hne : past ≠ [] := by
      rintro rfl
      cases hcount
    obtain ⟨miso, hpast⟩ := clocks_collects (K := K) dev hm haa hne (hframe ▸ List.prefix_append _ _)
      (fun n hn => by omega)
    refine ⟨g, fun x c' dev' hx => ?_⟩
    have hlast : (c.receiving (past.map (·.2))).transferByte K g dev b =
        (some x, .ok (0xff, { c' with phase := .noResponse }, dev')) := by
      unfold Chip.transferByte
      dsimp only [Chip.receiving]
      rw [← Chip.receiving, push_completes dev hframe hlen hfits, hx]
      rfl
    have htail := clocks_noResponse (K := K) (c := { c' with phase := .noResponse }) rfl dev' tail
    have hclocks := hpast.append (.cons hlast htail)
    rw [List.append_cons, ← hsplit] at hclocks
    exact ⟨_, transact_of_clocks hclocks⟩

/-- A request that declares more than the chip can hold is never executed. -/
theorem transact_overlong (hm : c.mode ≠ .alarm) (haa : reqId ≠ getResponseReqId)
    (hlong : maxL2DataSize < reqLen.toNat) (ht : t.mosi = reqId :: reqLen :: rest) :
    ∃ miso, Sim.transact K (.ok (c, dev)) t =
      (⟨miso, []⟩, .ok ({ c with phase := .idle, request := t.mosi.take maxL2FrameSize, cursor := 0 }, dev)) := by
  rw [← t.clocked_mosi] at ht
  have hne : t.clocked ≠ [] := by
    intro h
    rw [h] at ht
    cases ht
  obtain ⟨miso, h⟩ := clocks_collects (K := K) dev hm haa hne (by rw [ht]) fun n _ hn => by
      have hcap : min maxL2FrameSize n ≤ 256 := Nat.min_le_left _ _
      have hlong : 252 < reqLen.toNat := hlong
      omega
  rw [t.clocked_mosi] at h
  exact ⟨miso, transact_of_clocks h⟩

end Requests

/-! ### Polls -/

/-- A transaction that asks for a response. -/
structure Poll extends Transaction where
  /-- The bytes after GET_RESPONSE, one for each byte of the response. -/
  rest : Bytes
  polls : toTransaction.mosi = getResponseReqId :: rest

/-- The poll finds a response and reads all of it. -/
def Poll.Completes (p : Poll) (c : Chip) : Prop :=
  c.mode ≠ .alarm ∧ c.busyLeft = 0 ∧ ∃ f ∈ c.queue.head?, f.length ≤ p.rest.length

/-- The bus is idle. -/
def Chip.resting (c : Chip) : Chip := { c with phase := .idle, request := [], cursor := 0 }

/-- As many bytes of a frame as are clocked; after its end the line is high. -/
def readOut : Bytes → ℕ → Bytes
  | _, 0 => []
  | [], n + 1 => 0xff :: readOut [] n
  | b :: f, n + 1 => b :: readOut f n

theorem readOut_complete : ∀ {f : Bytes} {n : ℕ}, f.length ≤ n → ∃ k, readOut f n = f ++ List.replicate k 0xff
  | [], 0, _ => ⟨0, rfl⟩
  | [], n + 1, _ => by
    obtain ⟨k, hk⟩ := readOut_complete (f := []) (Nat.zero_le n)
    exact ⟨k + 1, by rw [readOut, hk]; rfl⟩
  | b :: f, n + 1, h => by
    obtain ⟨k, hk⟩ := readOut_complete (f := f) (Nat.le_of_succ_le_succ h)
    exact ⟨k, by rw [readOut, hk]; rfl⟩

theorem readOut_drop (f : Bytes) (k n : ℕ) :
    readOut (f.drop k) (n + 1) = (f[k]?).getD 0xff :: readOut (f.drop (k + 1)) n := by
  rw [← List.tail_drop, ← List.head?_drop]
  cases f.drop k <;> rfl

section Polls

variable {K : Crates} {c : Chip} (dev : Device) {f : Bytes} {queue : List Bytes} {p : Poll}

theorem clocks_response : ∀ (bytes : List (OsRng × UInt8)) {c : Chip}, c.phase = .response → c.queue = f :: queue →
    Clocks K c dev bytes [] (readOut (f.drop c.cursor) bytes.length) { c with cursor := c.cursor + bytes.length } dev
  | [], c, _, _ => by
    rw [List.length_nil, readOut]
    exact .nil c dev
  | (g, b) :: bytes, c, hc, hq => by
    have hb : c.transferByte K g dev b =
        (none, .ok ((f[c.cursor]?).getD 0xff, { c with cursor := c.cursor + 1 }, dev)) := by
      unfold Chip.transferByte
      rw [hc, hq]
      rfl
    have hr := clocks_response bytes (c := { c with cursor := c.cursor + 1 }) hc hq
    dsimp only at hr
    rw [Nat.add_right_comm] at hr
    rw [List.length_cons, readOut_drop]
    exact .cons hb hr

theorem first_poll {g : OsRng} : c.csnLow.transferByte K g dev getResponseReqId =
    (none, .ok (c.csnLow.poll.1, c.csnLow.poll.2, dev)) := rfl

/-- The bytes of a poll: the first one decides. -/
theorem Poll.clocked_eq (p : Poll) : ∃ g bytes, p.clocked = (g, getResponseReqId) :: bytes ∧
    bytes.length = p.rest.length := by
  have h := p.clocked_mosi
  rw [p.polls] at h
  rcases hb : p.clocked with _ | ⟨⟨g, b⟩, bytes⟩
  · rw [hb] at h
    cases h
  · rw [hb, List.map_cons, List.cons.injEq] at h
    obtain ⟨rfl, h⟩ := h
    exact ⟨g, bytes, rfl, by rw [← h, List.length_map]⟩

theorem poll_running (hm : c.mode ≠ .alarm) : c.csnLow.poll.2 =
    if c.queue = [] then { c.csnLow with phase := .noResponse }
    else if 0 < c.busyLeft then { c.csnLow with busyLeft := c.busyLeft - 1, phase := .noResponse }
    else { c.csnLow with phase := .response } := by
  have hstatus : c.csnLow.chipStatus = (c.csnLow.chipStatus.1, c.csnLow) := chipStatus_running hm
  have halarm : (c.csnLow.mode = .alarm ∨ c.csnLow.queue = []) ↔ c.queue = [] := or_iff_right hm
  unfold Chip.poll
  rw [hstatus]
  simp only [halarm]
  split
  · rfl
  · show (if 0 < c.busyLeft then _ else _ : UInt8 × Chip).2 = _
    split
    · rfl
    · rfl

theorem csnHigh_read (hc : c.phase = .response) (hq : c.queue = f :: queue) : c.csnHigh =
    { if f.length ≤ c.cursor then { c with lastResponse := some f, queue } else c with
      cursor := 0, phase := .idle } := by
  cases c
  subst hc hq
  rfl

/-- A poll that reads: the frame leaves the queue if it was read completely. -/
theorem transact_read (hm : c.mode ≠ .alarm) (hbusy : c.busyLeft = 0) (hq : c.queue = f :: queue) :
    ∃ status, Sim.transact K (.ok (c, dev)) p.toTransaction = (⟨status :: readOut f p.rest.length, []⟩,
      .ok (if f.length ≤ p.rest.length then { c.resting with lastResponse := some f, queue } else c.resting, dev)) := by
  obtain ⟨g, bytes, hb, hlen⟩ := p.clocked_eq
  have hpoll := poll_running hm
  rw [hq, if_neg (List.cons_ne_nil f queue), hbusy, if_neg (Nat.lt_irrefl 0)] at hpoll
  have hr := clocks_response (K := K) dev bytes (c := c.csnLow.poll.2) (by rw [hpoll]) (by rw [hpoll]; exact hq)
  have hclocks := Clocks.cons (first_poll dev (g := g)) hr
  have hcursor : c.csnLow.poll.2.cursor = 0 := by rw [hpoll]; rfl
  rw [← hb, hlen, hcursor, Nat.zero_add] at hclocks
  refine ⟨c.csnLow.poll.1, ?_⟩
  rw [transact_of_clocks hclocks, hpoll, csnHigh_read (c := { c.csnLow with phase := .response, cursor := _ }) rfl hq]
  split
  · rfl
  · rfl

/-- Nothing was taken from the queue or put into it, and the core is the same. -/
structure Chip.Keeps (c c' : Chip) : Prop where
  core : c'.core = c.core
  queue : c'.queue = c.queue
  lastResponse : c'.lastResponse = c.lastResponse

theorem Chip.Keeps.trans {c c' c'' : Chip} (h : c.Keeps c') (h' : c'.Keeps c'') : c.Keeps c'' where
  core := h'.core.trans h.core
  queue := h'.queue.trans h.queue
  lastResponse := h'.lastResponse.trans h.lastResponse

theorem chipStatus_alarm (hm : c.mode = .alarm) : c.chipStatus.2 = { c with alarmFresh := false } := by
  unfold Chip.chipStatus
  rw [hm]
  dsimp only
  split
  · rfl
  · rename_i hf
    rw [← Bool.eq_false_of_not_eq_true hf, ← hm]

theorem poll_alarm (hm : c.mode = .alarm) :
    c.csnLow.poll.2 = { c.csnLow with alarmFresh := false, phase := .noResponse } := by
  have hstatus := chipStatus_alarm (c := c.csnLow) hm
  unfold Chip.poll
  dsimp only
  rw [hstatus, if_pos (.inl hm)]

/-- A poll that is refused. -/
theorem transact_refused (h : c.csnLow.poll.2.phase = .noResponse) (hkeeps : c.Keeps c.csnLow.poll.2) :
    ∃ miso c', Sim.transact K (.ok (c, dev)) p.toTransaction = (⟨miso, []⟩, .ok (c', dev)) ∧ c.Keeps c' ∧
      c'.busyLeft = c.csnLow.poll.2.busyLeft := by
  obtain ⟨g, bytes, hb, -⟩ := p.clocked_eq
  have hclocks := Clocks.cons (K := K) (first_poll dev (g := g)) (clocks_noResponse h dev bytes)
  have hhigh : c.csnLow.poll.2.csnHigh = { c.csnLow.poll.2 with cursor := 0, phase := .idle } := by
    unfold Chip.csnHigh
    rw [h]
  rw [← hb] at hclocks
  refine ⟨_, _, transact_of_clocks hclocks, ?_, ?_⟩
  · rw [hhigh]
    exact hkeeps.trans ⟨rfl, rfl, rfl⟩
  · rw [hhigh]

/-- A poll that does not read a whole response changes nothing but the count of busy polls. -/
theorem transact_waits (h : ¬ p.Completes c) : ∃ miso c', Sim.transact K (.ok (c, dev)) p.toTransaction =
    (⟨miso, []⟩, .ok (c', dev)) ∧ c.Keeps c' ∧ (c.mode ≠ .alarm → c.queue ≠ [] → c'.busyLeft = c.busyLeft - 1) := by
  by_cases hm : c.mode = .alarm
  · have hpoll := poll_alarm hm
    obtain ⟨miso, c', ht, hkeeps, -⟩ := transact_refused (K := K) dev (p := p) (c := c) (by rw [hpoll])
      (by rw [hpoll]; exact ⟨rfl, rfl, rfl⟩)
    exact ⟨miso, c', ht, hkeeps, fun h => absurd hm h⟩
  · have hpoll := poll_running hm
    split_ifs at hpoll with hq hbusy
    · obtain ⟨miso, c', ht, hkeeps, -⟩ := transact_refused (K := K) dev (p := p) (c := c) (by rw [hpoll])
        (by rw [hpoll]; exact ⟨rfl, rfl, rfl⟩)
      exact ⟨miso, c', ht, hkeeps, fun _ h => absurd hq h⟩
    · obtain ⟨miso, c', ht, hkeeps, hleft⟩ := transact_refused (K := K) dev (p := p) (c := c) (by rw [hpoll])
        (by rw [hpoll]; exact ⟨rfl, rfl, rfl⟩)
      refine ⟨miso, c', ht, hkeeps, fun _ _ => ?_⟩
      rw [hleft, hpoll]
    · obtain ⟨f, queue, hq⟩ := List.exists_cons_of_ne_nil hq
      have hleft : c.busyLeft = 0 := by omega
      have hshort : ¬ f.length ≤ p.rest.length := fun hle => h ⟨hm, hleft, f, by rw [hq]; rfl, hle⟩
      obtain ⟨status, ht⟩ := transact_read (K := K) dev (p := p) hm hleft hq
      rw [if_neg hshort] at ht
      exact ⟨_, _, ht, ⟨rfl, rfl, rfl⟩, fun _ _ => by rw [hleft]; exact hleft⟩

end Polls

/-! ### Reading a response -/

/-- Any number of polls that do not read a whole response. -/
inductive Waits (K : Crates) : Sim → Sim → Prop
  | done (s : Sim) : Waits K s s
  | poll {c : Chip} {dev : Device} {s' : Sim} (p : Poll) (h : ¬ p.Completes c)
      (hr : Waits K (Sim.transact K (.ok (c, dev)) p.toTransaction).2 s') : Waits K (.ok (c, dev)) s'

/-- Such polls, and then one that reads a whole response, with the bytes that it got after the chip status. -/
inductive Reads (K : Crates) (s : Sim) : Bytes → Sim → Prop
  | read {c : Chip} {dev : Device} (hw : Waits K s (.ok (c, dev))) (p : Poll) (h : p.Completes c) :
      Reads K s (Sim.transact K (.ok (c, dev)) p.toTransaction).1.miso.tail
        (Sim.transact K (.ok (c, dev)) p.toTransaction).2

/-- The bytes are the frame, and then the line was high. -/
def Carries (bytes f : Bytes) : Prop := ∃ k, bytes = f ++ List.replicate k 0xff

section Reading

variable {K : Crates} {c : Chip} (dev : Device) {f bytes : Bytes} {queue : List Bytes} {p : Poll} {s' : Sim}

theorem Waits.keeps {s : Sim} (h : Waits K s s') (hs : s = .ok (c, dev)) :
    ∃ c', s' = .ok (c', dev) ∧ c.Keeps c' := by
  induction h generalizing c with
  | done _ => exact ⟨c, hs, rfl, rfl, rfl⟩
  | poll p h _ ih =>
    cases hs
    obtain ⟨miso, c', ht, hkeeps, -⟩ := transact_waits (K := K) dev h
    obtain ⟨c'', hs, hkeeps'⟩ := ih (congrArg Prod.snd ht)
    exact ⟨c'', hs, hkeeps.trans hkeeps'⟩

/-- What is read is the front of the queue, and it leaves the queue. -/
theorem Reads.front (h : Reads K (.ok (c, dev)) bytes s') : ∃ f queue c', c.queue = f :: queue ∧ Carries bytes f ∧
    s' = .ok (c', dev) ∧ c'.core = c.core ∧ c'.queue = queue ∧ c'.lastResponse = some f := by
  obtain ⟨hw, p, hm, hbusy, f, hf, hlen⟩ := h
  obtain ⟨c₁, hs, hkeeps⟩ := hw.keeps dev rfl
  cases hs
  obtain ⟨queue, hq⟩ := List.head?_eq_some_iff.mp hf
  obtain ⟨status, ht⟩ := transact_read (K := K) dev (p := p) hm hbusy hq
  rw [ht, if_pos hlen]
  exact ⟨f, queue, _, hkeeps.queue ▸ hq, readOut_complete hlen, rfl, hkeeps.core, rfl, rfl⟩

/-- The chip after a number of polls. -/
def Sim.afterPolls (K : Crates) (s : Sim) (polls : List Poll) : Sim :=
  polls.foldl (fun s p => (s.transact K p.toTransaction).2) s

/-- Once the busy polls are over, a poll that is long enough reads the whole response. -/
theorem completes_of_polls (hread : f.length ≤ p.rest.length) : ∀ {polls : List Poll} {c : Chip},
    c.mode ≠ .alarm → c.queue = f :: queue → (∀ p ∈ polls, p.rest.length < f.length) → c.busyLeft ≤ polls.length →
    ∃ c', Sim.afterPolls K (.ok (c, dev)) polls = .ok (c', dev) ∧ Waits K (.ok (c, dev)) (.ok (c', dev)) ∧
      p.Completes c'
  | [], c, hm, hq, _, hbusy => ⟨c, rfl, .done _, hm, Nat.le_zero.mp hbusy, f, by rw [hq]; rfl, hread⟩
  | p₁ :: polls, c, hm, hq, hshort, hbusy => by
    have hwait : ¬ p₁.Completes c := by
      rintro ⟨-, -, f', hf', hle⟩
      rw [hq] at hf'
      cases hf'
      exact Nat.not_le.mpr (hshort p₁ List.mem_cons_self) hle
    obtain ⟨miso, c₁, ht, hkeeps, hleft⟩ := transact_waits (K := K) dev hwait
    have hbusy₁ : c₁.busyLeft ≤ polls.length := by
      rw [hleft hm (by simp [hq])]
      rw [List.length_cons] at hbusy
      omega
    obtain ⟨c', hafter, hwaits, hcompletes⟩ := completes_of_polls hread (c := c₁)
      (mode_of_core hkeeps.core ▸ hm) (hkeeps.queue.trans hq) (fun p hp => hshort p (List.mem_cons_of_mem p₁ hp)) hbusy₁
    refine ⟨c', ?_, .poll p₁ hwait ?_, hcompletes⟩
    · rw [← hafter]
      exact congrArg (fun r : SpiOutput × Sim => Sim.afterPolls K r.2 polls) ht
    · rw [ht]
      exact hwaits

end Reading

end TROPIC01
end Simulators

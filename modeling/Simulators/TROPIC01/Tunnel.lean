/-
# TROPIC01: commands are executed once and in order

Of the chip, the secure channel sees only the keys of the session and the
commands that are executed. `TunnelStep` says what a request other than
HANDSHAKE can do to them: leave them alone, close the session, or execute the
command that the packet decrypts to, under the current nonce, and then either
step both nonces or close the session. Every chain of SPI events refines runs
of this machine (`outputs_tunnels`).

Both nonces of an open session therefore are the number of commands executed
since the handshake, and a packet can be the host's command of that number
only (`commands_once_in_order`).
-/
import Simulators.TROPIC01.Requests

namespace Simulators
namespace TROPIC01

/-! ### The tunnel -/

/-- What a request does to the keys of the session, with the command that it executes. -/
inductive TunnelStep (K : Crates) : Option SessionKeys → Option L3Call → Option SessionKeys → Prop
  | keep (keys : Option SessionKeys) : TunnelStep K keys none keys
  | close (keys : Option SessionKeys) : TunnelStep K keys none none
  /-- A command without a result: of a wrong size, or it panics. -/
  | unanswered {keys : SessionKeys} {ct plaintext : Bytes} {nonce : ByteArr 12}
      (hd : K.gcmDecrypt keys.kCmd keys.nonceCmd [] ct = some plaintext) (hn : stepNonce keys.nonceCmd = .ok nonce) :
      TunnelStep K (some keys) (some ⟨plaintext, none⟩) none
  | answered {keys : SessionKeys} {ct plaintext result : Bytes} {nonce : ByteArr 12} {after : Option SessionKeys}
      (hd : K.gcmDecrypt keys.kCmd keys.nonceCmd [] ct = some plaintext) (hn : stepNonce keys.nonceCmd = .ok nonce)
      (ha : after = none ∨ ∃ nonce', stepNonce keys.nonceRes = .ok nonce' ∧
        after = some { keys with nonceCmd := nonce, nonceRes := nonce' }) :
      TunnelStep K (some keys) (some ⟨plaintext, some ⟨keys.kRes, keys.nonceRes, result⟩⟩) after

/-- The commands executed by requests in turn. -/
inductive TunnelRun (K : Crates) : Option SessionKeys → List L3Call → Option SessionKeys → Prop
  | nil (keys : Option SessionKeys) : TunnelRun K keys [] keys
  | cons {keys keys' keys'' : Option SessionKeys} {call : Option L3Call} {calls : List L3Call}
      (h : TunnelStep K keys call keys') (hr : TunnelRun K keys' calls keys'') :
      TunnelRun K keys (call.toList ++ calls) keys''

theorem TunnelRun.single {K : Crates} {keys keys' : Option SessionKeys} {call : Option L3Call}
    (h : TunnelStep K keys call keys') : TunnelRun K keys call.toList keys' := by
  rw [← List.append_nil call.toList]
  exact .cons h (.nil _)

theorem TunnelRun.append {K : Crates} {keys keys' keys'' : Option SessionKeys} {l l' : List L3Call}
    (h : TunnelRun K keys l keys') (h' : TunnelRun K keys' l' keys'') : TunnelRun K keys (l ++ l') keys'' := by
  induction h with
  | nil _ => exact h'
  | cons h _ ih =>
    rw [List.append_assoc]
    exact .cons h (ih h')

/-! ### What a request does -/

section Requests

variable {K : Crates} {g : OsRng} {c : Chip} {dev : Device} {keys : Option SessionKeys}

end Requests

/-! ### What the bus does -/

/-- The keys of the session, none after a panic. -/
def Sim.keys : Sim → Option SessionKeys
  | .ok (c, _) => c.session.keys
  | .error _ => none

/-- The frame is a HANDSHAKE request. -/
def Execution.IsHandshake (x : Execution) : Prop := ∃ data, parseRequest x.raw = .ok ⟨reqHandshake, data⟩

section Bus

variable {K : Crates} {g : OsRng}

end Bus

/-! ### The order of the commands -/

/-- Nobody but the host encrypts under `key`: what opens under it is the
host's command of some number, encrypted under the nonce of that number. -/
def OnlyHost (K : Crates) (key : ByteArr 32) (cmds : List Bytes) : Prop :=
  ∀ nonce ct plaintext, K.gcmDecrypt key nonce [] ct = some plaintext →
    ∃ i < 2 ^ 32, cmds[i]? = some plaintext ∧ nonce = nonceAt i ∧ ct = K.gcmEncrypt key nonce [] plaintext

/-- The commands from number `n` on, each result encrypted under the nonce of its command. -/
def InOrder (cmds : List Bytes) (kRes : ByteArr 32) : ℕ → List L3Call → Prop
  | _, [] => True
  | n, call :: calls =>
    n < 2 ^ 32 ∧ cmds[n]? = some call.plaintext ∧
      (∀ m ∈ call.encryption, m.key = kRes ∧ m.nonce = nonceAt n) ∧ InOrder cmds kRes (n + 1) calls

/-- The keys of a session in which `n` commands were executed. -/
structure Numbered (kCmd kRes : ByteArr 32) (n : ℕ) (keys : SessionKeys) : Prop where
  kCmd : keys.kCmd = kCmd
  kRes : keys.kRes = kRes
  nonceCmd : keys.nonceCmd = nonceAt n
  nonceRes : keys.nonceRes = nonceAt n
  lt : n < 2 ^ 32

section Order

variable {K : Crates} {kCmd kRes : ByteArr 32} {cmds : List Bytes} {n : ℕ}

theorem InOrder.append : ∀ {l l' : List L3Call} {n : ℕ}, InOrder cmds kRes n l → InOrder cmds kRes (n + l.length) l' →
    InOrder cmds kRes n (l ++ l')
  | [], _, _, _, h' => h'
  | call :: l, l', n, ⟨hn, hc, he, h⟩, h' => by
    refine ⟨hn, hc, he, InOrder.append h ?_⟩
    rw [List.length_cons, ← Nat.add_assoc, Nat.add_right_comm] at h'
    exact h'

theorem InOrder.encryption : ∀ {calls : List L3Call} {n j : ℕ} {call : L3Call}, InOrder cmds kRes n calls →
    calls[j]? = some call → ∀ m ∈ call.encryption, m.key = kRes ∧ m.nonce = nonceAt (n + j)
  | first :: _, n, 0, call, ⟨_, _, he, _⟩, hj => by
    cases hj
    exact he
  | _ :: calls, n, j + 1, call, ⟨_, _, _, h⟩, hj => by
    rw [List.getElem?_cons_succ] at hj
    rw [Nat.add_comm j 1, ← Nat.add_assoc]
    exact h.encryption hj

/-- One request: what it executes is the command of the number that the session has reached. -/
theorem TunnelStep.inOrder {keys keys' : Option SessionKeys} {call : Option L3Call} (hK : OnlyHost K kCmd cmds)
    (h : TunnelStep K keys call keys') (hn : ∀ k ∈ keys, Numbered kCmd kRes n k) :
    InOrder cmds kRes n call.toList ∧ ∀ k ∈ keys', Numbered kCmd kRes (n + call.toList.length) k := by
  cases h with
  | keep => exact ⟨trivial, hn⟩
  | close => exact ⟨trivial, fun _ hk => by cases hk⟩
  | @unanswered keys _ plaintext _ hd _ =>
    have hk := hn keys rfl
    rw [hk.kCmd, hk.nonceCmd] at hd
    obtain ⟨i, hi, hc, hnonce, -⟩ := hK _ _ _ hd
    rw [← nonceAt_injective hk.lt hi hnonce] at hc
    exact ⟨⟨hk.lt, hc, (fun _ hm => by cases hm), trivial⟩, fun _ hk => by cases hk⟩
  | @answered keys _ plaintext result nonce _ hd hs ha =>
    have hk := hn keys rfl
    rw [hk.kCmd, hk.nonceCmd] at hd
    obtain ⟨i, hi, hc, hnonce, -⟩ := hK _ _ _ hd
    rw [← nonceAt_injective hk.lt hi hnonce] at hc
    refine ⟨⟨hk.lt, hc, ?_, trivial⟩, ?_⟩
    · rintro m hm
      cases hm
      exact ⟨hk.kRes, hk.nonceRes⟩
    · rcases ha with rfl | ⟨nonce', hs', rfl⟩
      · exact fun _ hk => by cases hk
      · rw [hk.nonceCmd, stepNonce_nonceAt hk.lt] at hs
        rw [hk.nonceRes, stepNonce_nonceAt hk.lt] at hs'
        rintro k hk'
        cases hk'
        exact ⟨hk.kCmd, hk.kRes, hs.2, hs'.2, hs.1⟩

theorem TunnelRun.inOrder {keys keys' : Option SessionKeys} {calls : List L3Call} (hK : OnlyHost K kCmd cmds)
    (h : TunnelRun K keys calls keys') : ∀ n, (∀ k ∈ keys, Numbered kCmd kRes n k) → InOrder cmds kRes n calls := by
  induction h with
  | nil _ => exact fun _ _ => trivial
  | cons h _ ih =>
    intro n hn
    obtain ⟨hcall, hn'⟩ := h.inOrder hK hn
    exact hcall.append (ih _ hn')

end Order

/-! ### After a handshake -/

/-- The request is a HANDSHAKE and was answered with REQUEST_OK. -/
def Execution.Opens (x : Execution) : Prop :=
  x.IsHandshake ∧ ∃ f, x.reply = [f] ∧ f.head? = some statusRequestOk

/-- A session in which no command was executed. -/
def Fresh (keys : Option SessionKeys) : Prop := ∃ k, keys = some k ∧ Numbered k.kCmd k.kRes 0 k

section Handshake

variable {K : Crates} {g : OsRng}

/-- Of the answers to a HANDSHAKE, REQUEST_OK comes with a new session only. -/
theorem handshake_fresh {c c' : Chip} {dev dev' : Device} {data f : Bytes}
    (h : c.handshake K g dev data = .ok ([f], c', dev')) (hf : f.head? = some statusRequestOk) :
    Fresh c'.session.keys := by
  have hother : ∀ {c₀ : Chip} {status : UInt8}, status ≠ statusRequestOk →
      c₀.answer dev status [] = .ok ([f], c', dev') → Fresh c'.session.keys := by
    intro c₀ status hne ha
    obtain ⟨f', heq, hs, -⟩ := answer_eq_ok ha
    cases heq
    rw [hf, Option.some.injEq] at hs
    exact absurd hs.symm hne
  unfold Chip.handshake at h
  split at h
  · exact hother (by decide) h
  · split at h
    · cases h
    · dsimp only at h
      split at h
      · rename_i body session hs
        obtain ⟨keys, hkeys, hcmd, hres, -⟩ := handshake_keys hs
        obtain ⟨-, -, -, rfl⟩ := answer_eq_ok h
        exact ⟨keys, hkeys, ⟨rfl, rfl, hcmd, hres, by decide⟩⟩
      · exact hother (by decide) h
      · cases h

theorem process_fresh {c c' : Chip} {dev dev' : Device} {raw data f : Bytes}
    (hraw : parseRequest raw = .ok ⟨reqHandshake, data⟩) (h : (c.process K g dev raw).2 = .ok ([f], c', dev'))
    (hf : f.head? = some statusRequestOk) : Fresh c'.session.keys := by
  unfold Chip.process at h
  simp only [hraw] at h
  rw [if_neg (by decide), if_neg (by decide), if_neg (by decide), if_neg (by decide)] at h
  split at h
  · dsimp only at h
    obtain ⟨f', heq, hs, -⟩ := answer_eq_ok h
    cases heq
    rw [hf] at hs
    exact absurd hs (by decide)
  · exact handshake_fresh h hf

theorem step_fresh {s : Sim} {i : OsRng × SpiEvent} {x : Execution} (hx : x ∈ (Sim.step K s i).1.executed)
    (ho : x.Opens) : Fresh (Sim.step K s i).2.keys := by
  rcases s with p | ⟨c, dev⟩
  · cases hx
  · have hi : i.2 ≠ .powerCycle := by
      obtain ⟨mosi, hm⟩ := transfer_of_executed hx
      rw [hm]
      simp
    have ht := step_took (K := K) c dev hi
    generalize (Sim.step K (.ok (c, dev)) i).1.executed = xs at hx ht
    generalize (Sim.step K (.ok (c, dev)) i).2 = s at ht
    obtain ⟨⟨data, hraw⟩, f, hreply, hf⟩ := ho
    cases ht with
    | quiet _ _ => cases hx
    | ignored raw _ _ _ =>
      obtain rfl := List.mem_singleton.mp hx
      cases hreply
    | resent _ _ hresend _ =>
      obtain rfl := List.mem_singleton.mp hx
      rw [hresend] at hraw
      cases hraw
    | panicked _ _ _ =>
      obtain rfl := List.mem_singleton.mp hx
      cases hreply
    | answered _ _ hp h _ =>
      obtain rfl := List.mem_singleton.mp hx
      obtain rfl : _ = [f] := hreply
      rw [Sim.keys, session_of_core h]
      exact process_fresh hraw (by rw [hp]) hf

end Handshake

def hostStatic : Bytes := toBe 32 0xf975eb3c2fd790c96f294f1557a5031780c9aafa140da28f55e7515737b2502c
def hostEphemeral : Bytes := toBe 32 0x79a631eede1bf9c98f12032cdeadd0e7a079398fc786b88cc846ec89af85a51a
def chipStatic : Bytes := toBe 32 0x358072d6365880d1aeea329adf9121383851ed21a28e3b75e965d0d2cd166254
def chipEphemeral : Bytes := toBe 32 0x8f40c5adb68f25624ae5b214ea767a6ec94d829d3d7b5e1ad1ba6f3e2138285f

/-- The private keys of the chip. -/
def chipStaticSecret : ByteArr 32 := ⟨(List.range 32).map fun i => UInt8.ofNat (32 + i), by simp⟩
def chipEphemeralSecret : ByteArr 32 := ⟨(List.range 32).map UInt8.ofNat, by simp⟩

def digest0 : Bytes := toBe 32 0xdc3cec095541d8083c2d1af6b2f4030fa3d63e4d7870d6766c806060105ae8dc
def digest1 : Bytes := toBe 32 0xc3202f4954107405a18bb208dcca67057f58e7b737f8049acc5412e9dd23caf0
def digest2 : Bytes := toBe 32 0xb23c69d1122cf3848a6754af9041d18e86610cd210a9b1602be0cdec54b2c23e
def digest3 : Bytes := toBe 32 0x9073293d8fbecbc3eaca81306a7d8c01c43a8e381cd246b5efcc247e353625a6
def digest4 : Bytes := toBe 32 0x5a90c765c8d59239eb59800f611a9bafde32b2bfc70fe8cf050442c3351683d9
def digest5 : Bytes := toBe 32 0x3a65550d83fb850684185bec78d275186e3eafe84e6ecaf109f6d33830aa0672

def pingDigests : Recorded :=
  [([protocolName], digest0), ([digest0 ++ hostStatic], digest1), ([digest1 ++ chipStatic], digest2),
    ([digest2 ++ hostEphemeral], digest3), ([digest3 ++ [0]], digest4), ([digest4 ++ chipEphemeral], digest5)]

def shared1 : Bytes := toBe 32 0x6d54cc9c397e31691401110f58da1e182a635d7e44c21dc2d7be93624652ab15
def shared2 : Bytes := toBe 32 0xab1d4cf7f0252bb31340bbb1b5c4dd786fce072afec2b4b2a37d006206bae312
def shared3 : Bytes := toBe 32 0x04c304fb1ca83cee75e206344231f33797e07d9929db670994b7c6fbeb1dc255

def pingSecrets : Recorded :=
  [([chipEphemeralSecret.bytes], chipEphemeral), ([chipEphemeralSecret.bytes, hostEphemeral], shared1),
    ([chipEphemeralSecret.bytes, hostStatic], shared2), ([chipStaticSecret.bytes, hostEphemeral], shared3)]

/-- The intermediate keys and the chaining keys of the handshake. -/
def extract1 : Bytes := toBe 32 0xefb27e4f12f7ece60e67c7fa5ac6b9dc8f91276aad2c8391a6a0284e31e40362
def extract2 : Bytes := toBe 32 0x85c3680f7013e5927aad15b940b953963b7ec4af3a02dfdf6d3e13d6af9105ec
def extract3 : Bytes := toBe 32 0x93a5a697e06d57575f06380ad5f1834a456c8d33952808e558cf59a8608f3154
def extract4 : Bytes := toBe 32 0x66bf51a7133d3aa03f13f2d0700c7d4c77d4655d206df08280a1aed56fd714ed
def chaining1 : Bytes := toBe 32 0xb15dfc8e61428196b79899f8b4e0b839a03a5185cd3f93922319c4229f7ef7ea
def chaining2 : Bytes := toBe 32 0xc6cb5d22f9e488c083d695bde422cbce7294812ef690f5e8827261c8d070ac06
def chaining3 : Bytes := toBe 32 0x3d3ae6638deae71394d992fb298728aa4cdbb2dfa65a82d55bcc8b7ba39c6464

def authKey : Bytes := toBe 32 0x8bbf05b2fc25c8a472533a306feba2fa7c87651253a6406033ae868e16181e7b
def commandKey : Bytes := toBe 32 0xf44d2240eadcf2101f719c844dccd01f27389860cb782847fdf04206bc28fc73
def resultKey : Bytes := toBe 32 0x3a66f744819e51005c2b565c5fe1dcbdb7fd09272a3a579ffac2ae9423f90767

def pingMacs : Recorded :=
  [([protocolName, shared1], extract1), ([extract1, [1]], chaining1), ([chaining1 ++ [0], shared2], extract2),
    ([extract2, [1]], chaining2), ([chaining2 ++ [0], shared3], extract3), ([extract3, [1]], chaining3),
    ([extract3, chaining3 ++ [2]], authKey), ([chaining3 ++ [0], []], extract4), ([extract4, [1]], commandKey),
    ([extract4, commandKey ++ [2]], resultKey)]

def authTag : Bytes := toBe 16 0x826e664d0934c6f588fec43138e3a3bb
def pingCiphertext : Bytes := toBe 17 0x265a40e28d996e7cc36282b2006b02665d
def pongCiphertext : Bytes := toBe 17 0x70283e448a9f94d58a98d92f4d2fdaac1e

def pingEncryptions : List GcmRecord :=
  [⟨authKey, List.replicate 12 0, digest5, [], authTag⟩, ⟨commandKey, List.replicate 12 0, [], [0x01], pingCiphertext⟩,
    ⟨resultKey, List.replicate 12 0, [], [0xc3], pongCiphertext⟩]

def pingCrates : Crates := Crates.recorded pingDigests pingMacs pingSecrets pingEncryptions

/-- A production part with the default pairing key and every privilege. -/
def pairedDevice : Device where
  personality := .fw220
  chipId := []
  stPriv := chipStaticSecret
  stPub := ⟨chipStatic, toBe_length _ _⟩
  certStore := []
  pairingSlots := (∅ : BTreeMap UInt8 PairingSlot).insert 0 ⟨⟨hostStatic, toBe_length _ _⟩, .written⟩
  rConfig := List.replicate 128 0xffffffff
  iConfig := List.replicate 128 0xffffffff
  eccSlots := ∅
  rMemSlots := ∅
  mcounters := ∅
  macanddSlots := ∅
  macanddKey1 := zeroArr 32
  macanddKey2 := zeroArr 32

/-- Random bytes from `00` on. -/
def countingRng : OsRng := UInt8.ofNat

def handshakeFrame : Bytes := [0x02, 0x21] ++ hostEphemeral ++ [0x00, 0x84, 0x06]
def pingFrame : Bytes := [0x04, 0x13, 0x01, 0x00] ++ pingCiphertext ++ [0x8c, 0x0a]

/-- A handshake, and a transaction for the next request. -/
def openingEvents : List (OsRng × SpiEvent) :=
  [.csnLow, .transfer handshakeFrame, .csnHigh, .csnLow].map fun e => (countingRng, e)

/-- The session after the handshake. -/
def pingKeys : SessionKeys :=
  ⟨⟨commandKey, toBe_length _ _⟩, ⟨resultKey, toBe_length _ _⟩, zeroArr 12, zeroArr 12, 0⟩

def handshakeExecution : Execution :=
  ⟨handshakeFrame, [[0x01, 0x30] ++ chipEphemeral ++ authTag ++ [0x2f, 0x10]], none⟩

/-- The chip after the handshake. -/
def openChip : Chip :=
  { Chip.new .fw220 with
    session := ⟨some pingKeys⟩, phase := .noResponse, queue := handshakeExecution.reply, busyLeft := 1 }

end TROPIC01
end Simulators

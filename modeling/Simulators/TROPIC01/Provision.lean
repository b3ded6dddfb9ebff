/-
# TROPIC01: provisioning

`provision` of `object_store/mod.rs` and the factory defaults of
`personality.rs`: the device as it leaves the factory. The commands take the
certificate store as a blob, so the function that builds it is a parameter;
`CertChain` has the one of `certs.rs`.
-/
import Simulators.TROPIC01.Device

namespace Simulators
namespace TROPIC01

def ltSh0pubEngSample : ByteArr 32 :=
  ⟨[0xe7, 0xf7, 0x35, 0xba, 0x19, 0xa3, 0x3f, 0xd6, 0x73, 0x23, 0xab, 0x37, 0x26, 0x2d, 0xe5, 0x36,
    0x08, 0xca, 0x57, 0x85, 0x76, 0x53, 0x43, 0x52, 0xe1, 0x8f, 0x64, 0xe6, 0x13, 0xd3, 0x8d, 0x54], rfl⟩

def ltSh0pubProd0 : ByteArr 32 :=
  ⟨[0xf9, 0x75, 0xeb, 0x3c, 0x2f, 0xd7, 0x90, 0xc9, 0x6f, 0x29, 0x4f, 0x15, 0x57, 0xa5, 0x03, 0x17,
    0x80, 0xc9, 0xaa, 0xfa, 0x14, 0x0d, 0xa2, 0x8f, 0x55, 0xe7, 0x51, 0x57, 0x37, 0xb2, 0x50, 0x2c], rfl⟩

/-- `id[off..off + bytes.len()].copy_from_slice(bytes)`, in range. -/
def patch (id : Bytes) (off : ℕ) (bytes : Bytes) : Bytes := id.take off ++ bytes ++ id.drop (off + bytes.length)

theorem patch_length {id bytes : Bytes} {off : ℕ} (h : off + bytes.length ≤ id.length) :
    (patch id off bytes).length = id.length := by
  rw [patch, List.length_append, List.length_append, List.length_take, List.length_drop]
  omega

/-- Patches one after the other. -/
def patches (id : Bytes) (ps : List (ℕ × Bytes)) : Bytes := ps.foldl (fun id p => patch id p.1 p.2) id

theorem patches_length : ∀ {ps : List (ℕ × Bytes)} {id : Bytes}, (∀ p ∈ ps, p.1 + p.2.length ≤ id.length) →
    (patches id ps).length = id.length
  | [], _, _ => rfl
  | p :: ps, id, h => by
    have hp : (patch id p.1 p.2).length = id.length := patch_length (h p List.mem_cons_self)
    have hps : ∀ q ∈ ps, q.1 + q.2.length ≤ (patch id p.1 p.2).length := fun q hq => by
      rw [hp]
      exact h q (List.mem_cons_of_mem p hq)
    exact (patches_length hps).trans hp

namespace Personality

def defaultSh0Pub (p : Personality) : ByteArr 32 :=
  match p.part with
  | .engineeringSample => ltSh0pubEngSample
  | .production => ltSh0pubProd0

def defaultRConfigStartUp : Personality → UInt32
  | es012 => 0xffffffef
  | es220 => 0xffffffeb
  | fw220 => 0xffffffff

def defaultIConfigStartUp : Personality → UInt32
  | es220 => 0xfffffffb
  | es012 | fw220 => 0xffffffff

/-- The fields of CHIP_ID, each at its offset. -/
def chipIdFields (p : Personality) (serial : ℕ → UInt8) : List (ℕ × Bytes) :=
  match p.part with
  | .engineeringSample =>
    [(0, [0x00, 0x00, 0x00, 0x01]), (36, [0x01, 0x00, 0x00, 0x00]), (40, [0x05, 0x44]), (46, List.replicate 6 0xff),
      (52, [0x01]), (53, [0xf0, 0x0f, 0x00]), (56, [0x05, 0x44]), (58, [0x53, 0x49, 0x4d, 0x30, 0x31]),
      (63, [serial 0]), (64, [serial 1, serial 2]), (66, [serial 3, serial 4]),
      -- "TROPIC01-ES" with its length
      (68, [0x0b]), (69, [0x54, 0x52, 0x4f, 0x50, 0x49, 0x43, 0x30, 0x31, 0x2d, 0x45, 0x53]),
      (80, List.replicate 4 0xff),
      (84, [0x00, 0x01, 0x00, 0x00, 0x00, 0x00, 0xff, 0xff, 0x00, 0x01, 0x00, 0x00, 0x00, 0x00, 0xff, 0xff, 0xff,
        0xff, 0xff, 0xff]),
      (104, List.replicate 20 0xff), (124, [0x01, 0x03, 0x03, 0x00])]
  | .production =>
    [(0, [0x01, 0x00, 0x00, 0x00]), (28, [0x41, 0x43, 0x41, 0x42]), (32, [0x80, 0xaa, 0xff, 0xff]),
      (36, [0x01, 0xf0, 0x02, 0x00]), (50, [0xff, 0xff]), (52, [0x02]), (53, [0xf0, 0x02, 0x00]),
      (56, [0x00, 0x00]), (58, [0x19, 0x06, 0x1b, 0x09, 0x33]), (63, [serial 0]), (64, [serial 1, serial 2]),
      (66, [serial 3, serial 4]),
      -- "TR01-C2S-T200" with its length
      (68, [0x0d]), (69, [0x54, 0x52, 0x30, 0x31, 0x2d, 0x43, 0x32, 0x53, 0x2d, 0x54, 0x32, 0x30, 0x30]),
      (82, [0xff, 0xff]), (84, [0x01, 0x04]), (86, [serial 5, serial 6, serial 7, 0x28, 0x00]),
      (96, List.replicate 32 0xff)]

def chipId (p : Personality) (serial : ℕ → UInt8) : Bytes := patches (List.replicate 128 0) (p.chipIdFields serial)

theorem chipId_length (p : Personality) (serial : ℕ → UInt8) : (p.chipId serial).length = 128 := by
  have hfields : ∀ f ∈ p.chipIdFields serial, f.1 + f.2.length ≤ (List.replicate 128 (0 : UInt8)).length := by
    intro f hf
    rw [List.length_replicate]
    rcases p with _ | _ | _
    all_goals
      simp only [chipIdFields, part, List.mem_cons, List.not_mem_nil, or_false] at hf
      rcases hf with rfl | rfl | rfl | rfl | rfl | rfl | rfl | rfl | rfl | rfl | rfl | rfl | rfl | rfl | rfl | rfl |
        rfl | rfl <;> simp
  exact (patches_length hfields).trans List.length_replicate

end Personality

/-- How a fresh device is provisioned. -/
structure Provisioning where
  personality : Personality
  /-- R-Memory slots 0 to 3 hold what the TROPIC01 port of wolfSSL expects. -/
  wolfsslFixtures : Bool
deriving DecidableEq, Repr

/-- What is drawn for a fresh device. -/
structure Entropy where
  serial : ByteArr 8
  stPriv : ByteArr 32
  macanddKey1 : ByteArr 32
  macanddKey2 : ByteArr 32
deriving DecidableEq

/-- 32 bytes, each from its index. -/
def fixture (f : UInt8 → UInt8) : ByteArr 32 :=
  ⟨(List.range 32).map fun i => f (UInt8.ofNat i), by rw [List.length_map, List.length_range]⟩

def wolfsslFixtureAesKey : ByteArr 32 := fixture (· * 0x11)
def wolfsslFixtureAesIv : ByteArr 32 := fixture id
def wolfsslFixtureEd25519Priv : ByteArr 32 := fixture fun i => 0x40 ||| (i &&& 0x3F)
def wolfsslFixtureEd25519Pub (K : Crates) : ByteArr 32 := K.ed25519Public wolfsslFixtureEd25519Priv

/-- The R-Memory of a fresh device. -/
def wolfsslFixtures (K : Crates) : BTreeMap UInt16 Bytes :=
  (((Finmap.insert 0 wolfsslFixtureAesKey.bytes ∅).insert 1 wolfsslFixtureAesIv.bytes).insert 2
    (wolfsslFixtureEd25519Pub K).bytes).insert 3 wolfsslFixtureEd25519Priv.bytes

def configRegisters : ℕ := 128

def provision (K : Crates) (buildCertStore : ByteArr 32 → ByteArr 8 → Bytes) (prov : Provisioning) (e : Entropy) :
    Device :=
  let p := prov.personality
  let stPub := K.x25519Public e.stPriv
  { personality := p
    chipId := p.chipId fun i => (e.serial.bytes[i]?).getD 0
    stPriv := e.stPriv
    stPub := stPub
    certStore := buildCertStore stPub e.serial
    pairingSlots := Finmap.insert 0 ⟨p.defaultSh0Pub, .written⟩ ∅
    rConfig := (List.replicate configRegisters 0xffffffff).set 0 p.defaultRConfigStartUp
    iConfig := (List.replicate configRegisters 0xffffffff).set 0 p.defaultIConfigStartUp
    eccSlots := ∅
    rMemSlots := if prov.wolfsslFixtures then wolfsslFixtures K else ∅
    mcounters := ∅
    macanddSlots := ∅
    macanddKey1 := e.macanddKey1
    macanddKey2 := e.macanddKey2 }

end TROPIC01
end Simulators

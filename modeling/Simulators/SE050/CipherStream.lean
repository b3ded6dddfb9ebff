/-
# SE050: streaming ciphers are the one-shot

A cipher context carries the key's identifier, the chain vector and the bytes
that do not fill a block. `Resumes K mode key iv done chain out e` says what the
chain vector is for: to cipher `done` and more from `iv` is `out`, and to cipher
the rest from `chain`. It holds at the start, each CipherUpdate keeps it
(`applyMode_append`), and at CipherFinal it says that the outputs are those of
the one-shot.

Key definitions: `Resumes`, `Streams`.
Key theorems: `applyMode_append`, `update_streaming`, `streaming_eq_oneshot`.
-/
import Simulators.SE050.Handlers.Symmetric

namespace Simulators
namespace SE050

open Handler

/-! ### A mode in two passes -/

section Modes

variable (K : Crates) (cipher : AnyAes)

theorem ctrChunks_append (counter : Block) (cs ds : List Bytes) : ctrChunks K cipher counter (cs ++ ds) =
    ((ctrChunks K cipher counter cs).1 ++ (ctrChunks K cipher (ctrChunks K cipher counter cs).2 ds).1,
      (ctrChunks K cipher (ctrChunks K cipher counter cs).2 ds).2) := by
  induction cs generalizing counter with
  | nil => rfl
  | cons c cs ih => simp only [List.cons_append, ctrChunks, ih, List.append_assoc]

theorem cbcBlocks_append (chain : Block) (bs cs : List Block) (e : Bool) :
    cbcBlocks K cipher chain (bs ++ cs) e = cbcBlocks K cipher chain bs e ++
      cbcBlocks K cipher (cbcChain chain bs (cbcBlocks K cipher chain bs e) e) cs e := by
  cases e
  · exact cbcDecrypt_append _ chain bs cs
  · exact cbcEncrypt_append _ chain bs cs

theorem cbcChain_append (chain : Block) (bs cs out out' : List Block) (e : Bool) :
    cbcChain chain (bs ++ cs) (out ++ out') e = cbcChain (cbcChain chain bs out e) cs out' e := by
  have hlast : ∀ xs ys : List Block, (xs ++ ys).getLast?.getD chain = ys.getLast?.getD (xs.getLast?.getD chain) := by
    intro xs ys
    rw [List.getLast?_append]
    cases ys.getLast? <;> rfl
  cases e
  · exact hlast bs cs
  · exact hlast out out'

/-- The output of a first pass in front of that of a second. -/
def prepend (out : Bytes) (r : Bytes × Block) : Bytes × Block := (out ++ r.1, r.2)

theorem ecbProcess_flat (bs : List Block) (e : Bool) : ecbProcess K cipher (flat bs) e =
    .ok (flat (bs.map (if e then K.aesEncrypt cipher else K.aesDecrypt cipher))) := by
  rw [ecbProcess, blocksOf_flat (by decide)]
  rfl

theorem ecbProcess_append (bs : List Block) (rest : Bytes) (e : Bool) : ecbProcess K cipher (flat bs ++ rest) e =
    (ecbProcess K cipher rest e).map
      (flat (bs.map (if e then K.aesEncrypt cipher else K.aesDecrypt cipher)) ++ ·) := by
  rw [ecbProcess, blocksOf_flat_append (by decide), ecbProcess]
  cases (blocksOf 16 rest : Cmd (List Block)) with
  | error p => rfl
  | ok cs => simp [Except.map, flat]

theorem cbcProcess_flat (chain : Block) (bs : List Block) (e : Bool) : (cbcProcess K cipher chain (flat bs) e : Cmd _) =
    .ok (flat (cbcBlocks K cipher chain bs e), cbcChain chain bs (cbcBlocks K cipher chain bs e) e) := by
  rw [cbcProcess, blocksOf_flat (by decide)]
  rfl

theorem cbcProcess_append (chain : Block) (bs : List Block) (rest : Bytes) (e : Bool) :
    (cbcProcess K cipher chain (flat bs ++ rest) e : Cmd _) =
      (cbcProcess K cipher (cbcChain chain bs (cbcBlocks K cipher chain bs e) e) rest e).map
        (prepend (flat (cbcBlocks K cipher chain bs e))) := by
  rw [cbcProcess, blocksOf_flat_append (by decide), cbcProcess]
  cases (blocksOf 16 rest : Cmd (List Block)) with
  | error p => rfl
  | ok cs => simp [Except.map, prepend, cbcBlocks_append, cbcChain_append, flat]

theorem ctrProcess_append (counter : Block) (bs : List Block) (rest : Bytes) :
    ctrProcess K cipher counter (flat bs ++ rest) =
      prepend (ctrProcess K cipher counter (flat bs)).1
        (ctrProcess K cipher (ctrProcess K cipher counter (flat bs)).2 rest) := by
  simp only [ctrProcess, chunks_flat_append (by decide : 0 < 16), chunks_flat (by decide : 0 < 16), ctrChunks_append,
    prepend]

end Modes

section ApplyMode

variable {K : Crates} {mode : UInt8} {key : Bytes} {chain : Block} {e f : Bool}

/-- To cipher a first part and a second at once is to go on with the second from where the first left off. -/
theorem applyMode_append {a b out : Bytes} {chain' : Block}
    (h : applyMode K mode key chain a e false = .ok (out, chain')) :
    applyMode K mode key chain (a ++ b) e f = (applyMode K mode key chain' b e f).map (prepend out) := by
  unfold applyMode at h ⊢
  cases hcipher : AnyAes.new key with
  | none =>
    rw [hcipher] at h
    cases h
  | some cipher =>
    simp only [hcipher, orRefuse, ok_bind] at h ⊢
    have hlen : a.length % 16 = 0 := by
      split_ifs at h
      · simp only [bind_eq_ok, ensure_eq_ok] at h
        exact h.choose_spec.1
      · simp only [bind_eq_ok, ensure_eq_ok] at h
        exact h.choose_spec.1
      · simp only [bind_eq_ok, ensure_eq_ok] at h
        simpa using h.choose_spec.1
      · cases h
    obtain ⟨bs, rfl, -⟩ := exists_flat (n := 16) (a.length / 16) a (by omega)
    have halign : (flat bs ++ b).length % 16 = 0 ↔ b.length % 16 = 0 := by
      rw [List.length_append]
      omega
    simp only [halign]
    split_ifs at h ⊢
    · simp only [bind_eq_ok, ecbProcess_flat, Except.ok.injEq, pure_eq_ok, Prod.mk.injEq] at h
      obtain ⟨_, -, _, rfl, rfl, rfl⟩ := h
      rw [ecbProcess_append]
      cases ensure (b.length % 16 = 0) swConditionsNotSatisfied with
      | error p => rfl
      | ok _ => cases ecbProcess K cipher b e <;> rfl
    · simp only [bind_eq_ok, cbcProcess_flat, Except.ok.injEq, Prod.mk.injEq] at h
      obtain ⟨_, -, rfl, rfl⟩ := h
      rw [cbcProcess_append]
      cases ensure (b.length % 16 = 0) swConditionsNotSatisfied with
      | error p => rfl
      | ok _ => rfl
    · simp only [bind_eq_ok, pure_eq_ok, Except.ok.injEq] at h
      obtain ⟨_, -, hctr⟩ := h
      rw [ctrProcess_append, hctr]
      cases ensure (f = true ∨ b.length % 16 = 0) swConditionsNotSatisfied with
      | error p => rfl
      | ok _ => rfl
    · cases h

/-- The modes of the applet's ciphers. -/
def IsMode (mode : UInt8) : Prop := mode = cipherModeCbcNopad ∨ mode = cipherModeEcbNopad ∨ mode = cipherModeCtr

/-- What the modes without padding cannot cipher, and a key of no AES size. -/
def Unciphered (mode : UInt8) (key data : Bytes) : Prop :=
  AnyAes.new key = none ∨ mode ≠ cipherModeCtr ∧ data.length % 16 ≠ 0

theorem applyMode_ok (hmode : IsMode mode) (hkey : AnyAes.new key ≠ none) {data : Bytes}
    (h : data.length % 16 = 0 ∨ mode = cipherModeCtr ∧ f = true) :
    ∃ r, applyMode K mode key chain data e f = .ok r := by
  obtain ⟨cipher, hcipher⟩ := Option.ne_none_iff_exists'.mp hkey
  simp only [applyMode, hcipher, orRefuse, ok_bind]
  rcases hmode with rfl | rfl | rfl
  · have hlen : data.length % 16 = 0 := h.resolve_right fun hctr => absurd hctr.1 (by decide)
    obtain ⟨bs, rfl, -⟩ := exists_flat (n := 16) (data.length / 16) data (by omega)
    rw [if_neg (by decide), if_pos rfl, ensure, if_pos hlen, ok_bind, cbcProcess_flat]
    exact ⟨_, rfl⟩
  · have hlen : data.length % 16 = 0 := h.resolve_right fun hctr => absurd hctr.1 (by decide)
    obtain ⟨bs, rfl, -⟩ := exists_flat (n := 16) (data.length / 16) data (by omega)
    rw [if_pos rfl, ensure, if_pos hlen, ok_bind, ecbProcess_flat]
    exact ⟨_, rfl⟩
  · have hlen : f = true ∨ data.length % 16 = 0 := h.symm.imp_left And.right
    rw [if_neg (by decide), if_neg (by decide), if_pos rfl, ensure, if_pos hlen, ok_bind]
    exact ⟨_, rfl⟩

/-- The last pass refuses what cannot be ciphered, and nothing else. -/
theorem applyMode_final (hmode : IsMode mode) (data : Bytes) :
    (∃ r, applyMode K mode key chain data e true = .ok r) ∧ ¬ Unciphered mode key data ∨
      applyMode K mode key chain data e true = refuse swConditionsNotSatisfied ∧ Unciphered mode key data := by
  by_cases hkey : AnyAes.new key = none
  · right
    simp only [applyMode, hkey, orRefuse, refuse_bind, Unciphered, true_or, and_self]
  · by_cases hdata : data.length % 16 = 0 ∨ mode = cipherModeCtr
    · refine .inl ⟨applyMode_ok hmode hkey (hdata.imp_right fun h => ⟨h, rfl⟩), ?_⟩
      rintro (hnone | ⟨hctr, hlen⟩)
      · exact hkey hnone
      · exact hdata.elim hlen hctr
    · obtain ⟨hlen, hctr⟩ := not_or.mp hdata
      obtain ⟨cipher, hcipher⟩ := Option.ne_none_iff_exists'.mp hkey
      refine .inr ⟨?_, .inr ⟨hctr, hlen⟩⟩
      simp only [applyMode, hcipher, orRefuse, ok_bind, ensure, if_neg hlen, refuse_bind]
      rcases hmode with rfl | rfl | rfl
      · rfl
      · rfl
      · exact absurd rfl hctr

end ApplyMode

/-! ### The commands of a stream -/

/-- CipherInit for the key `keyId` and the crypto object `cid`. -/
def IsCipherInit (apdu : ParsedApdu) (keyId : ObjectId) (cid : UInt16) (iv : Block) (encrypting : Bool) : Prop :=
  ∃ tlvs, apdu.tlvs = .ok tlvs ∧ objectIdOf tlvs tag1 = some keyId ∧ cryptoIdOf tlvs tag2 = some cid ∧
    initialVector tlvs = .ok iv ∧ (apdu.p2 == p2EncryptInit) = encrypting

/-- CipherUpdate with `input`. -/
def IsCipherUpdate (apdu : ParsedApdu) (cid : UInt16) (input : Bytes) : Prop :=
  ∃ tlvs, apdu.tlvs = .ok tlvs ∧ cryptoIdOf tlvs tag2 = some cid ∧ valueOf tlvs tag3 = some input

/-- CipherFinal, with an input or without. -/
def IsCipherFinal (apdu : ParsedApdu) (cid : UInt16) (input : Option Bytes) : Prop :=
  ∃ tlvs, apdu.tlvs = .ok tlvs ∧ cryptoIdOf tlvs tag2 = some cid ∧ valueOf tlvs tag3 = input

/-- The one-shot on `input`. -/
def IsCipherOneshot (apdu : ParsedApdu) (keyId : ObjectId) (mode : UInt8) (iv : Block) (input : Bytes) : Prop :=
  ∃ tlvs, apdu.tlvs = .ok tlvs ∧ objectIdOf tlvs tag1 = some keyId ∧ byteOf tlvs tag2 = some mode ∧
    valueOf tlvs tag3 = some input ∧ initialVector tlvs = .ok iv

/-- The answer with an output. -/
def cipherOutput (out : Bytes) : ApduResponse := .successWithTlvs [⟨tag1, out⟩]

theorem cipherOutput_injective {out out' : Bytes} (h : cipherOutput out = cipherOutput out') : out = out' := by
  have hdata : Tlv.encode ⟨tag1, out⟩ = Tlv.encode ⟨tag1, out'⟩ := by
    have henc : encodeTlvs [⟨tag1, out⟩] = encodeTlvs [⟨tag1, out'⟩] := congrArg ApduResponse.data h
    rwa [encodeTlvs, encodeTlvs, List.flatMap_singleton, List.flatMap_singleton] at henc
  unfold Tlv.encode at hdata
  dsimp only at hdata
  split_ifs at hdata with hs ht
  · exact (List.cons.inj (List.cons.inj hdata).2).2
  · have := congrArg List.length hdata
    simp only [List.length_cons] at this
    omega
  · have := congrArg List.length hdata
    simp only [List.length_cons] at this
    omega
  · exact (List.cons.inj (List.cons.inj (List.cons.inj (List.cons.inj hdata).2).2).2).2

/-- The inputs of the updates of a stream, and their outputs, one after the other. What happens in between changes
neither the key nor the context. -/
inductive Streams (K : Crates) (keyId : ObjectId) (cid : UInt16) :
    ObjectStore → List Bytes → Bytes → ObjectStore → Prop
  | nil (s : ObjectStore) : Streams K keyId cid s [] [] s
  | other {s s' s'' : ObjectStore} {inputs : List Bytes} {outputs : Bytes} (hkey : s'.get keyId = s.get keyId)
      (hctx : s'.cryptoObjects.lookup cid = s.cryptoObjects.lookup cid)
      (h : Streams K keyId cid s' inputs outputs s'') : Streams K keyId cid s inputs outputs s''
  | update {s s' s'' : ObjectStore} {apdu : ParsedApdu} {input out : Bytes} {inputs : List Bytes} {outputs : Bytes}
      (hu : IsCipherUpdate apdu cid input) (hs : handleCipherUpdate K apdu s = .ok (cipherOutput out, s'))
      (h : Streams K keyId cid s' inputs outputs s'') : Streams K keyId cid s (input :: inputs) (out ++ outputs) s''

/-! ### The invariant of a stream -/

/-- To cipher `done` and more from `iv` is to cipher the rest from `chain`, after `out`. -/
def Resumes (K : Crates) (mode : UInt8) (key : Bytes) (iv : Block) (e : Bool) (done : Bytes) (chain : Block)
    (out : Bytes) : Prop :=
  ∀ (rest : Bytes) (f : Bool), applyMode K mode key iv (done ++ rest) e f =
    (applyMode K mode key chain rest e f).map (prepend out)

/-- The store in the middle of a stream: `fed` has come in and `out` has gone out. -/
structure Streaming (K : Crates) (keyId : ObjectId) (cid : UInt16) (mode : UInt8) (key : Bytes) (iv : Block) (e : Bool)
    (s : ObjectStore) (fed out : Bytes) : Prop where
  keyObject : s.get keyId = some (.aesKey key)
  context : ∃ (chain : Block) (done pending : Bytes),
    s.cryptoObjects.lookup cid = some (.cipher e mode keyId chain.bytes pending) ∧ fed = done ++ pending ∧
      Resumes K mode key iv e done chain out

section Stream

variable {K : Crates} {keyId : ObjectId} {cid : UInt16} {mode : UInt8} {key : Bytes} {iv : Block} {e : Bool}
  {s s' : ObjectStore} {apdu : ParsedApdu} {fed out input : Bytes}

theorem Resumes.nil : Resumes K mode key iv e [] iv [] := by
  intro rest f
  rw [List.nil_append]
  cases applyMode K mode key iv rest e f <;> rfl

theorem Resumes.append {done a out' : Bytes} {chain chain' : Block} (h : Resumes K mode key iv e done chain out)
    (ha : applyMode K mode key chain a e false = .ok (out', chain')) :
    Resumes K mode key iv e (done ++ a) chain' (out ++ out') := by
  intro rest f
  rw [List.append_assoc, h, applyMode_append ha]
  cases applyMode K mode key chain' rest e f with
  | error p => rfl
  | ok r => simp only [Except.map, prepend, List.append_assoc]

theorem Streaming.other (h : Streaming K keyId cid mode key iv e s fed out) (hkey : s'.get keyId = s.get keyId)
    (hctx : s'.cryptoObjects.lookup cid = s.cryptoObjects.lookup cid) :
    Streaming K keyId cid mode key iv e s' fed out :=
  ⟨hkey.trans h.keyObject, hctx ▸ h.context⟩

theorem aesKeyOf_eq (h : s.get keyId = some (.aesKey key)) : aesKeyOf s keyId = .ok key := by rw [aesKeyOf, h]

/-- The blocks that are complete are ciphered, the remainder is kept. -/
theorem Streaming.update (h : Streaming K keyId cid mode key iv e s fed out) (hu : IsCipherUpdate apdu cid input)
    {out' : Bytes} (hs : handleCipherUpdate K apdu s = .ok (cipherOutput out', s')) :
    Streaming K keyId cid mode key iv e s' (fed ++ input) (out ++ out') := by
  obtain ⟨tlvs, htlvs, hcid, hinput⟩ := hu
  obtain ⟨chain, done, pending, hctx, rfl, hres⟩ := h.context
  simp only [handleCipherUpdate, htlvs, hcid, hinput, hctx, orRefuse, ok_bind, aesKeyOf_eq h.keyObject, array_bytes,
    bind_eq_ok, pure_eq_ok, Except.ok.injEq, Prod.mk.injEq] at hs
  obtain ⟨⟨o, chain'⟩, hmode, hout, rfl⟩ := hs
  obtain rfl := cipherOutput_injective hout
  refine ⟨h.keyObject, chain', _, _, Finmap.lookup_insert _, ?_, hres.append hmode⟩
  rw [List.append_assoc, List.append_assoc, List.take_append_drop]

/-- An update with a key of an AES size is answered. -/
theorem Streaming.update_ok (h : Streaming K keyId cid mode key iv e s fed out) (hmode : IsMode mode)
    (hkey : AnyAes.new key ≠ none) (hu : IsCipherUpdate apdu cid input) :
    ∃ out' s', handleCipherUpdate K apdu s = .ok (cipherOutput out', s') := by
  obtain ⟨tlvs, htlvs, hcid, hinput⟩ := hu
  obtain ⟨chain, done, pending, hctx, -, -⟩ := h.context
  have hlen : ((pending ++ input).take
      ((pending ++ input).length - (pending ++ input).length % 16)).length % 16 = 0 := by
    rw [List.length_take]
    omega
  obtain ⟨r, hok⟩ : ∃ r, applyMode K mode key chain ((pending ++ input).take
      ((pending ++ input).length - (pending ++ input).length % 16)) e false = .ok r :=
    applyMode_ok hmode hkey (.inl hlen)
  simp only [handleCipherUpdate, htlvs, hcid, hinput, hctx, orRefuse, ok_bind, aesKeyOf_eq h.keyObject, array_bytes,
    hok]
  exact ⟨_, _, rfl⟩

/-- The remainder and the last input end the stream as the one-shot does. -/
theorem Streaming.final (h : Streaming K keyId cid mode key iv e s fed out) (hmode : IsMode mode) {last : Option Bytes}
    (hf : IsCipherFinal apdu cid last) {t : ObjectStore} (ht : t.get keyId = some (.aesKey key)) {oneshot : ParsedApdu}
    (ho : IsCipherOneshot oneshot keyId mode iv (fed ++ last.getD [])) :
    (¬ Unciphered mode key (fed ++ last.getD []) ∧ ∃ out',
        handleCipherFinal K apdu s = .ok (cipherOutput out', s.dropContext cid) ∧
          handleCipherOneshot K oneshot t e = .ok (cipherOutput (out ++ out'))) ∨
      (Unciphered mode key (fed ++ last.getD []) ∧
        handleCipherFinal K apdu s = .ok (.error swConditionsNotSatisfied, s.dropContext cid) ∧
          handleCipherOneshot K oneshot t e = refuse swConditionsNotSatisfied) := by
  obtain ⟨tlvs, htlvs, hcid, hlast⟩ := hf
  obtain ⟨tlvs', htlvs', hkeyId, hmode', hinput, hiv⟩ := ho
  obtain ⟨chain, done, pending, hctx, rfl, hres⟩ := h.context
  have hfinal : handleCipherFinal K apdu s = finish (s.dropContext cid) (do
      let r ← applyMode K mode key chain (pending ++ last.getD []) e true
      return cipherOutput r.1) := by
    simp only [handleCipherFinal, htlvs, hcid, hlast, hctx, orRefuse, ok_bind]
    rw [aesKeyOf_eq (s := s.dropContext cid) h.keyObject, array_bytes]
    rfl
  have honce : handleCipherOneshot K oneshot t e = (do
      let r ← (applyMode K mode key chain (pending ++ last.getD []) e true).map (prepend out)
      return cipherOutput r.1) := by
    simp only [handleCipherOneshot, htlvs', hkeyId, hmode', hinput, hiv, orRefuse, ok_bind, aesKeyOf_eq ht]
    rw [List.append_assoc, hres]
    rfl
  rw [hfinal, honce]
  have hwhole : applyMode K mode key iv (done ++ pending ++ last.getD []) e true =
      (applyMode K mode key chain (pending ++ last.getD []) e true).map (prepend out) := by
    rw [List.append_assoc, hres]
  rcases applyMode_final (K := K) (e := e) hmode (done ++ pending ++ last.getD []) with ⟨⟨r, hr⟩, hgood⟩ | ⟨hr, hbad⟩
  · refine .inl ⟨hgood, ?_⟩
    rw [hwhole] at hr
    cases hrest : applyMode K mode key chain (pending ++ last.getD []) e true with
    | error p =>
      rw [hrest] at hr
      cases hr
    | ok q => exact ⟨q.1, rfl, rfl⟩
  · refine .inr ⟨hbad, ?_⟩
    rw [hwhole] at hr
    cases hrest : applyMode K mode key chain (pending ++ last.getD []) e true with
    | error p =>
      rw [hrest] at hr
      cases hr
      exact ⟨rfl, rfl⟩
    | ok q =>
      rw [hrest] at hr
      cases hr

theorem Streaming.streams {inputs : List Bytes} {outputs : Bytes} (h : Streaming K keyId cid mode key iv e s fed out)
    (hs : Streams K keyId cid s inputs outputs s') :
    Streaming K keyId cid mode key iv e s' (fed ++ inputs.flatten) (out ++ outputs) := by
  induction hs generalizing fed out with
  | nil s => rwa [List.flatten_nil, List.append_nil, List.append_nil]
  | other hkey hctx _ ih => exact ih (h.other hkey hctx)
  | update hu hs _ ih =>
    rw [List.flatten_cons, ← List.append_assoc, ← List.append_assoc]
    exact ih (h.update hu hs)

/-- A CipherInit on a created crypto object begins a stream. -/
theorem handleCipherInit_streaming (hinit : IsCipherInit apdu keyId cid iv e)
    (hcreated : s.cryptoObjectTypes.lookup cid = some (0x02, mode)) (hkey : s.get keyId = some (.aesKey key)) :
    ∃ s', handleCipherInit apdu s = .ok (.success, s') ∧ Streaming K keyId cid mode key iv e s' [] [] := by
  obtain ⟨tlvs, htlvs, hkeyId, hcid, hiv, he⟩ := hinit
  have hex : s.existsId keyId = true := decide_eq_true (Finmap.lookup_isSome.mp (Option.isSome_of_eq_some hkey))
  have hsub : subtypeFor s cid 0x02 = .ok mode := by
    simp only [subtypeFor, hcreated, orRefuse, ok_bind, ensure, if_pos, pure_eq_ok]
  refine ⟨s.setContext cid (.cipher e mode keyId iv.bytes []), ?_, hkey, iv, [], [], Finmap.lookup_insert _, rfl, .nil⟩
  simp only [handleCipherInit, htlvs, hkeyId, hcid, hsub, hex, hiv, he, orRefuse, ensure, ok_bind, if_pos, pure_eq_ok]

/-- A stream of any number of updates and a final input gives, in pieces, what the one-shot gives on the whole message;
the final fails exactly if the one-shot does: in a mode without padding, on a message that does not fill its blocks.
A key object whose key has no AES size serves neither. -/
theorem streaming_eq_oneshot (K : Crates) {init : ParsedApdu} (hmode : IsMode mode)
    (hinit : IsCipherInit init keyId cid iv e) (hcreated : s.cryptoObjectTypes.lookup cid = some (0x02, mode))
    (hkey : s.get keyId = some (.aesKey key)) :
    ∃ s₁, handleCipherInit init s = .ok (.success, s₁) ∧
      ∀ (inputs : List Bytes) (outputs : Bytes) (s₂ : ObjectStore), Streams K keyId cid s₁ inputs outputs s₂ →
        (AnyAes.new key ≠ none → ∀ (update : ParsedApdu) (input : Bytes), IsCipherUpdate update cid input →
          ∃ out s₃, handleCipherUpdate K update s₂ = .ok (cipherOutput out, s₃)) ∧
        ∀ (final oneshot : ParsedApdu) (last : Option Bytes) (t : ObjectStore), IsCipherFinal final cid last →
          t.get keyId = some (.aesKey key) → IsCipherOneshot oneshot keyId mode iv (inputs.flatten ++ last.getD []) →
            (¬ Unciphered mode key (inputs.flatten ++ last.getD []) ∧ ∃ out,
                handleCipherFinal K final s₂ = .ok (cipherOutput out, s₂.dropContext cid) ∧
                  handleCipherOneshot K oneshot t e = .ok (cipherOutput (outputs ++ out))) ∨
              (Unciphered mode key (inputs.flatten ++ last.getD []) ∧
                handleCipherFinal K final s₂ = .ok (.error swConditionsNotSatisfied, s₂.dropContext cid) ∧
                  handleCipherOneshot K oneshot t e = refuse swConditionsNotSatisfied) := by
  obtain ⟨s₁, hstep, hstart⟩ := handleCipherInit_streaming (K := K) hinit hcreated hkey
  refine ⟨s₁, hstep, ?_⟩
  intro inputs outputs s₂ hs
  have hmid : Streaming K keyId cid mode key iv e s₂ inputs.flatten outputs := hstart.streams hs
  refine ⟨?_, ?_⟩
  · intro haes update input hu
    exact hmid.update_ok hmode haes hu
  · intro final oneshot last t hf ht ho
    exact hmid.final hmode hf ht ho

end Stream

def ctrKeyId : ObjectId := ⟨0x30, 0, 0, 1⟩

/-- An AES key, and a cipher crypto object created for CTR. -/
def ctrStore : ObjectStore :=
  { ObjectStore.new with
    objects := Finmap.insert ctrKeyId (.aesKey (List.replicate 16 0x2B)) ∅
    cryptoObjectTypes := Finmap.insert 1 (0x02, cipherModeCtr) ∅ }

def ctrInit : ParsedApdu :=
  ⟨0x80, 0x03, 0x0E, 0x42, encodeTlvs [⟨tag1, ctrKeyId.toBytes⟩, ⟨tag2, [0, 1]⟩], none⟩

def ctrUpdate : ParsedApdu := ⟨0x80, 0x03, 0x0E, 0x0C, encodeTlvs [⟨tag2, [0, 1]⟩, ⟨tag3, [0x61, 0x62]⟩], none⟩

def ctrFinal : ParsedApdu := ⟨0x80, 0x03, 0x0E, 0x0D, encodeTlvs [⟨tag2, [0, 1]⟩, ⟨tag3, [0x63]⟩], none⟩

def ctrOneshot : ParsedApdu :=
  ⟨0x80, 0x03, 0x0E, 0x37, encodeTlvs [⟨tag1, ctrKeyId.toBytes⟩, ⟨tag2, [0xF0]⟩, ⟨tag3, [0x61, 0x62, 0x63]⟩], none⟩

/-- Three bytes in two pieces. -/
theorem ctr_pieces_eq_oneshot : ∃ s₁ s₂ out out',
    handleCipherInit ctrInit ctrStore = .ok (.success, s₁) ∧
      handleCipherUpdate .blank ctrUpdate s₁ = .ok (cipherOutput out, s₂) ∧
      handleCipherFinal .blank ctrFinal s₂ = .ok (cipherOutput out', s₂.dropContext 1) ∧
      handleCipherOneshot .blank ctrOneshot ctrStore true = .ok (cipherOutput (out ++ out')) := by
  have hkey : ctrStore.get ctrKeyId = some (.aesKey (List.replicate 16 0x2B)) := Finmap.lookup_insert _
  have haes : AnyAes.new (List.replicate 16 0x2B) ≠ none := by decide
  have hupdate : IsCipherUpdate ctrUpdate 1 [0x61, 0x62] := ⟨_, rfl, rfl, rfl⟩
  have hfirst : IsCipherInit ctrInit ctrKeyId 1 (zeroArr 16) true := ⟨_, rfl, rfl, rfl, rfl, rfl⟩
  have hcreated : ctrStore.cryptoObjectTypes.lookup 1 = some (0x02, cipherModeCtr) := Finmap.lookup_insert _
  obtain ⟨s₁, hinit, hrest⟩ := streaming_eq_oneshot .blank (.inr (.inr rfl)) hfirst hcreated hkey
  obtain ⟨out, s₂, hs⟩ := (hrest [] [] s₁ (.nil s₁)).1 haes ctrUpdate _ hupdate
  obtain ⟨-, hend⟩ := hrest _ _ s₂ (.update hupdate hs (.nil s₂))
  rcases hend ctrFinal ctrOneshot (some [0x63]) ctrStore ⟨_, rfl, rfl, rfl⟩ hkey ⟨_, rfl, rfl, rfl, rfl, rfl⟩ with
    ⟨-, out', hfinal, hone⟩ | ⟨hbad, -⟩
  · rw [List.append_nil] at hone
    exact ⟨s₁, s₂, out, out', hinit, hs, hfinal, hone⟩
  · exact (hbad.elim haes fun h => h.1 rfl).elim

end SE050
end Simulators

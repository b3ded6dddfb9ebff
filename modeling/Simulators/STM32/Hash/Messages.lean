/-
# STM32 HASH: messages

What firmware may do with one context: write the words of a message, leave off
and come back any number of times with a save and a restore, and take a digest
early and go back to the save. `Feeds` are the accesses of one stage that come
to the given words, `Message` the accesses of a whole hash or HMAC. However a
message is cut, and whatever messages came before, its digest is in HR.

Key theorems: `feeds_at`, `message_done`, `hash_digests_messages`.
-/
import Simulators.STM32.Hash.Stream

namespace Simulators
namespace STM32
namespace Hash

open HashV1

variable {D : Hashers}

/-! ### Data in words -/

/-- The words carry the data, and less than a word of anything else. -/
def Encodes (dt : DataType) (data : Bytes) (words : List UInt32) : Prop :=
  ∃ pad : Bytes, pad.length < 4 ∧ words.flatMap dt.bytes = data ++ pad

theorem resize_length (n : ℕ) (b : Bytes) : (resize n b).length = n := by
  rw [resize, List.length_append, List.length_take, List.length_replicate]
  omega

theorem chunks_resize : ∀ (n : ℕ) (data : Bytes), data.length ≤ n →
    ∃ pad : Bytes, pad.length < 4 ∧ (chunks 4 data).flatMap (resize 4) = data ++ pad
  | 0, data, h => by
    rw [List.length_eq_zero_iff.mp (Nat.le_zero.mp h)]
    exact ⟨[], by decide, rfl⟩
  | n + 1, data, h => by
    by_cases hnil : data = []
    · rw [hnil]
      exact ⟨[], by decide, rfl⟩
    rw [chunks_eq_cons (by decide) hnil, List.flatMap_cons]
    by_cases hlong : 4 ≤ data.length
    · obtain ⟨pad, hpad, heq⟩ := chunks_resize n (data.drop 4) (by rw [List.length_drop]; omega)
      refine ⟨pad, hpad, ?_⟩
      rw [heq, Engine.resize_four (List.length_take_of_le hlong), ← List.append_assoc, List.take_append_drop]
    · have hpos := List.length_pos_iff.mpr hnil
      refine ⟨List.replicate (4 - data.length) 0, by rw [List.length_replicate]; omega, ?_⟩
      rw [List.drop_eq_nil_of_le (by omega), chunks_nil, List.flatMap_nil, List.append_nil,
        List.take_of_length_le (by omega), resize, List.take_of_length_le (by omega)]

/-- Every byte string has words. -/
theorem encodes_chunks (dt : DataType) (data : Bytes) :
    Encodes dt data ((chunks 4 data).map fun c => dt.word4 (resize 4 c)) := by
  obtain ⟨pad, hpad, heq⟩ := chunks_resize data.length data (Nat.le_refl _)
  refine ⟨pad, hpad, ?_⟩
  rw [List.flatMap_map, ← heq]
  congr 1
  funext c
  exact dt.bytes_word4 (resize_length 4 c)

/-- NBLW in bits, as STR announces it. -/
def Announces (str : UInt32) (data : Bytes) : Prop :=
  str &&& strDCAL ≠ 0 ∧ (str &&& strNblwMask).toNat = 8 * (data.length % 4)

theorem flatMap_bytes_length (dt : DataType) : ∀ words : List UInt32, (words.flatMap dt.bytes).length = 4 * words.length
  | [] => rfl
  | w :: words => by
    rw [List.flatMap_cons, List.length_append, dt.bytes_length, flatMap_bytes_length dt words, List.length_cons]
    omega

theorem stream_of_encodes {k : Cursor} {data : Bytes} {str : UInt32} (h : Encodes k.datatype data k.words)
    (hs : Announces str data) : k.stream (validBytes str) = data := by
  obtain ⟨pad, hpad, heq⟩ := h
  rw [Cursor.stream, Cursor.fed]
  rcases List.eq_nil_or_concat k.words with hw | ⟨init, w, hw⟩
  · rw [hw, List.flatMap_nil] at heq
    rw [hw, (List.append_eq_nil_iff.mp heq.symm).1]
    rfl
  · rw [List.concat_eq_append] at hw
    have hinit : (init.flatMap k.datatype.bytes).length = 4 * init.length := flatMap_bytes_length _ init
    have hlen : data.length + pad.length = 4 * init.length + 4 := by
      have := congrArg List.length heq
      rw [hw] at this
      simpa [hinit] using this.symm
    -- the words before the last are full, so only the last one holds padding
    have hvalid : min (validBytes str) 4 = data.length - 4 * init.length := by
      unfold validBytes
      dsimp only
      rw [hs.2]
      split <;> omega
    rw [hw, List.dropLast_concat, List.getLast?_concat, Option.elim_some, hvalid]
    calc init.flatMap k.datatype.bytes ++ (k.datatype.bytes w).take (data.length - 4 * init.length)
        = ((init ++ [w]).flatMap k.datatype.bytes).take data.length := by
          have hfull : (init.flatMap k.datatype.bytes).take data.length = init.flatMap k.datatype.bytes :=
            List.take_of_length_le (by omega)
          rw [List.flatMap_append, List.take_append, hfull, hinit, List.flatMap_singleton]
      _ = data := by rw [← hw, heq, List.take_left]

/-! ### One stage -/

/-- From some words of a stage, and those of the last save, to the words at the
end. Before a restore there may be anything that starts, saves or restores no
context: digests, and in an HMAC the stages after them. -/
inductive Feeds : List UInt32 → Option (List UInt32) → List Access → List UInt32 → Prop
  | done (words : List UInt32) (saved : Option (List UInt32)) : Feeds words saved [] words
  | word {words words' : List UInt32} {saved : Option (List UInt32)} {as : List Access} (w : UInt32)
      (h : Feeds (words ++ [w]) saved as words') : Feeds words saved (.write regDIN w :: as) words'
  | idle {words words' : List UInt32} {saved : Option (List UInt32)} {as : List Access} {a : Access} (ha : Idle a)
      (h : Feeds words saved as words') : Feeds words saved (a :: as) words'
  | save {words words' : List UInt32} {saved : Option (List UInt32)} {as : List Access}
      (h : Feeds words (some words) as words') : Feeds words saved (.read csrBase :: as) words'
  | restore {words words' saved : List UInt32} {early between as : List Access} {str cr : UInt32}
      (he : ∀ a ∈ early, Excursion a) (hstr : str &&& strDCAL = 0) (hb : ∀ a ∈ between, Idle a)
      (hcr : cr &&& crINIT ≠ 0) (h : Feeds saved (some saved) as words') :
      Feeds words (some saved) (early ++ .write regSTR str :: between ++ .write regCR cr :: as) words'

/-- A stage ends where its words say, however it was cut. -/
theorem feeds_at {words words' : List UInt32} {saved : Option (List UInt32)} {as : List Access}
    (h : Feeds words saved as words') {p : HashV1 D} {k : Cursor} (hat : p.At { k with words := words })
    (hsaved : ∀ ws, saved = some ws → p.SavedAt { k with words := ws }) (hq : p.Quiet) :
    (p.run as).At { k with words := words' } := by
  induction h generalizing p with
  | done _ _ => exact hat
  | word w _ ih =>
    refine ih (writeDin_at hat w) (fun ws hws => ?_) (access_quiet hq _)
    exact access_savedAt (a := .write regDIN w) (by simp [Excursion, regDIN, regCR]) (hsaved ws hws)
  | idle ha _ ih =>
    have hs := (access_idle (p := p) ha).1
    exact ih (hat.of_same hs) (fun ws hws => (hsaved ws hws).of_same hs) (access_quiet hq _)
  | save _ ih =>
    obtain ⟨hat', hsaved'⟩ := readCsr_savedAt hat
    refine ih hat' (fun ws hws => ?_) (access_quiet hq _)
    cases hws
    exact hsaved'
  | @restore words words' saved early between as str cr he hstr hb hcr _ ih =>
    have hearly : (p.run early).SavedAt { k with words := saved } :=
      run_induction (P := fun q => q.SavedAt { k with words := saved }) (hsaved saved rfl)
        fun _ hp a ha => access_savedAt (he a ha) hp
    have hstrw : ((p.run early).access (.write regSTR str)).2 =
        { p.run early with strReg := str, strWrittenSinceCr := true } :=
      if_neg fun hboth => hboth.2 hstr
    have hbetween : (HashV1.run { p.run early with strReg := str, strWrittenSinceCr := true } between).SavedAt
        { k with words := saved } ∧
        (HashV1.run { p.run early with strReg := str, strWrittenSinceCr := true } between).strWrittenSinceCr = true :=
      run_induction (P := fun q => q.SavedAt { k with words := saved } ∧ q.strWrittenSinceCr = true)
        ⟨hearly.of_same ⟨rfl, rfl, rfl, rfl⟩, rfl⟩ fun q hp a ha =>
          ⟨hp.1.of_same (access_idle (hb a ha)).1, (access_idle (hb a ha)).2 hp.2⟩
    obtain ⟨hat', hsaved'⟩ := writeCr_restores hbetween.1 hbetween.2 hcr
    have hquiet : (p.run (early ++ .write regSTR str :: between ++ [.write regCR cr])).Quiet := run_quiet hq _
    simp only [run_append, run_cons, run_nil, hstrw] at hquiet ⊢
    refine ih hat' (fun ws hws => ?_) hquiet
    cases hws
    exact hsaved'

/-! ### Messages -/

/-- The accesses of a stage that takes the given data, up to its DCAL. -/
inductive Takes (dt : DataType) (data : Bytes) : List Access → Prop
  | mk {words : List UInt32} {as : List Access} {str : UInt32} (h : Feeds [] none as words)
      (hw : Encodes dt data words) (hs : Announces str data) : Takes dt data (as ++ [.write regSTR str])

/-- The accesses of a message, and its digest. -/
inductive Message (D : Hashers) (layout : AlgoLayout) : List Access → Bytes → Prop
  | hash {cr : UInt32} {m : Bytes} {as : List Access} (hinit : cr &&& crINIT ≠ 0)
      (hmode : cr &&& ~~~crINIT &&& crModeHmac = 0) (h : Takes (parseDatatype (cr &&& ~~~crINIT)) m as) :
      Message D layout (.write regCR cr :: as) (D.digest (layout.parseAlgo (cr &&& ~~~crINIT)) m)
  | hmac {cr : UInt32} {key m : Bytes} {as1 as2 as3 : List Access} (hinit : cr &&& crINIT ≠ 0)
      (hmode : cr &&& ~~~crINIT &&& crModeHmac ≠ 0) (h1 : Takes (parseDatatype (cr &&& ~~~crINIT)) key as1)
      (h2 : Takes (parseDatatype (cr &&& ~~~crINIT)) m as2) (h3 : Takes (parseDatatype (cr &&& ~~~crINIT)) key as3) :
      Message D layout (.write regCR cr :: (as1 ++ as2 ++ as3)) (D.hmac (layout.parseAlgo (cr &&& ~~~crINIT)) key m)

/-- No context is at work that a CR write with INIT could bring back. -/
structure Ready (layout : AlgoLayout) (p : HashV1 D) : Prop where
  quiet : p.Quiet
  fresh : p.strWrittenSinceCr = false ∨ p.engine.savedHasher = none
  layout : p.layout = layout

theorem run_layout (p : HashV1 D) (as : List Access) : (p.run as).layout = p.layout :=
  run_induction (P := fun q => q.layout = p.layout) rfl fun q hq a _ => (access_layout q a).trans hq

/-- After the DCAL of a stage that takes `data`. -/
theorem takes_stands {data : Bytes} {as : List Access} {p : HashV1 D} {k : Cursor} (h : Takes k.datatype data as)
    (hk : k.words = []) (hat : p.At k) (hq : p.Quiet) :
    (p.run as).Stands (Cursor.finish D k.algo k.datatype k.stage data) ∧ (p.run as).strWrittenSinceCr = false := by
  obtain ⟨h, hw, hs⟩ := h
  rename_i words as str
  have hat' : (p.run as).At { k with words := words } := by
    refine feeds_at h ?_ (fun _ hnone => nomatch hnone) hq
    rw [← hk]
    exact hat
  have hq' : (p.run as).Quiet := run_quiet hq as
  have hstr : p.run (as ++ [.write regSTR str]) = (p.run as).writeStr str := by
    rw [run_append]
    rfl
  rw [hstr]
  refine ⟨?_, ?_⟩
  · have hstands := writeStr_at hat' hq' hs.1
    rwa [Cursor.dcal, stream_of_encodes (k := { k with words := words }) hw hs] at hstands
  · rw [writeStr, if_pos ⟨hq', hs.1⟩]

theorem message_done {layout : AlgoLayout} {as : List Access} {d : Bytes} (h : Message D layout as d) {p : HashV1 D}
    (hr : Ready layout p) : (p.run as).engine.Done d ∧ Ready layout (p.run as) := by
  suffices hdone : (p.run as).engine.Done d ∧ (p.run as).strWrittenSinceCr = false from
    ⟨hdone.1, run_quiet hr.quiet as, .inl hdone.2, (run_layout p as).trans hr.layout⟩
  obtain ⟨hq, hfresh, rfl⟩ := hr
  cases h with
  | @hash cr m as hinit hmode h =>
    obtain ⟨hat, -⟩ := writeCr_starts hfresh hinit
    have hstage : (Cursor.start p.layout (cr &&& ~~~crINIT)).stage = .plain := if_neg (by simp [hmode])
    have hstands := takes_stands h rfl hat (access_quiet hq (.write regCR cr))
    rw [hstage] at hstands
    exact hstands
  | @hmac cr key m as1 as2 as3 hinit hmode h1 h2 h3 =>
    obtain ⟨hat, -⟩ := writeCr_starts hfresh hinit
    have hstage : (Cursor.start p.layout (cr &&& ~~~crINIT)).stage = .key := if_pos hmode
    have hq0 : (p.writeCr cr).Quiet := access_quiet hq (.write regCR cr)
    -- key, message and key again, each from where the one before has left the peripheral
    have hkey := (takes_stands h1 rfl hat hq0).1
    rw [hstage] at hkey
    have hmsg := (takes_stands h2 rfl hkey (run_quiet hq0 as1)).1
    have hout := takes_stands h3 rfl hmsg (run_quiet (run_quiet hq0 as1) as2)
    simp only [run_cons, run_append]
    exact hout

/-- Between two messages: reads of HR and accesses to registers other than CR, DIN, STR and CSR[0]. -/
def Between : Access → Prop
  | .read offset => NoSave offset
  | .write offset _ => offset ≠ regCR ∧ offset ≠ regDIN ∧ offset ≠ regSTR

theorem access_between {a : Access} (ha : Between a) (p : HashV1 D) :
    Same p (p.access a).2 ∧ (p.access a).2.strWrittenSinceCr = p.strWrittenSinceCr := by
  cases a with
  | read offset =>
    have heq : (p.access (.read offset)).2 = p := read_eq_self ha
    rw [heq]
    exact ⟨⟨rfl, rfl, rfl, rfl⟩, rfl⟩
  | write offset value =>
    obtain ⟨hc, hd, hs⟩ := ha
    have hw := write_wrote p offset value
    rw [access]
    generalize p.write offset value = q at hw
    cases hw with
    | cr h => exact absurd h hc
    | din h => exact absurd h hd
    | str h => exact absurd h hs
    | other _ _ _ h _ hw => exact ⟨h, hw⟩

theorem ready_between {layout : AlgoLayout} {a : Access} (ha : Between a) {p : HashV1 D} (hr : Ready layout p) :
    Ready layout (p.access a).2 := by
  obtain ⟨hs, hw⟩ := access_between ha p
  refine ⟨access_quiet hr.quiet a, ?_, (access_layout p a).trans hr.layout⟩
  rw [hw, hs.engine]
  exact hr.fresh

/-- A new peripheral. -/
def withLayout (D : Hashers) (layout : AlgoLayout) : HashV1 D := { layout := layout }

theorem ready_withLayout (layout : AlgoLayout) : Ready layout (withLayout D layout) := by
  refine ⟨?_, .inl rfl, rfl⟩
  show (0 : UInt32) &&& strDCAL = 0
  decide

theorem hrExt_offset : ∀ i < 16, let off := hrExtBase + 4 * UInt32.ofNat i
    off ≠ regCR ∧ off ≠ regSTR ∧ off ≠ regIMR ∧ off ≠ regSR ∧ off ≠ regSHA3CFGR ∧
      ¬ (hrLegacyBase ≤ off ∧ off ≤ hrLegacyEnd) ∧ (hrExtBase ≤ off ∧ off ≤ hrExtEnd) ∧
      (off - hrExtBase).toNat / 4 = i := by decide

theorem hrLegacy_offset : ∀ i < 5, let off := hrLegacyBase + 4 * UInt32.ofNat i
    off ≠ regCR ∧ off ≠ regSTR ∧ off ≠ regIMR ∧ off ≠ regSR ∧ off ≠ regSHA3CFGR ∧
      (hrLegacyBase ≤ off ∧ off ≤ hrLegacyEnd) ∧ (off - hrLegacyBase).toNat / 4 = i := by decide

theorem read_hrExt (p : HashV1 D) {i : ℕ} (hi : i < 16) :
    (p.read (hrExtBase + 4 * UInt32.ofNat i)).1 = p.readHr i := by
  obtain ⟨h1, h2, h3, h4, h5, h6, h7, hidx⟩ := hrExt_offset i hi
  rw [HashV1.read, if_neg h1, if_neg h2, if_neg h3, if_neg h4, if_neg h5, if_neg h6, if_pos h7, hidx]

theorem read_hrLegacy (p : HashV1 D) {i : ℕ} (hi : i < 5) :
    (p.read (hrLegacyBase + 4 * UInt32.ofNat i)).1 = p.readHr i := by
  obtain ⟨h1, h2, h3, h4, h5, h6, hidx⟩ := hrLegacy_offset i hi
  rw [HashV1.read, if_neg h1, if_neg h2, if_neg h3, if_neg h4, if_neg h5, if_pos h6, hidx]

/-- After any messages and accesses between them, HR holds the digest of the next message. -/
theorem hash_digests_messages (D : Hashers) (layout : AlgoLayout) (past : List (List Access))
    (hpast : ∀ as ∈ past, (∃ d, Message D layout as d) ∨ ∀ a ∈ as, Between a) {as : List Access} {d : Bytes}
    (h : Message D layout as d) :
    let p := ((withLayout D layout).run past.flatten).run as
    (∀ i < 16, (p.read (hrExtBase + 4 * UInt32.ofNat i)).1 = ((digestWords d)[i]?).getD 0) ∧
      ∀ i < 5, (p.read (hrLegacyBase + 4 * UInt32.ofNat i)).1 = ((digestWords d)[i]?).getD 0 := by
  intro p
  have hready : ∀ (past : List (List Access)) (q : HashV1 D), Ready layout q →
      (∀ as ∈ past, (∃ d, Message D layout as d) ∨ ∀ a ∈ as, Between a) → Ready layout (q.run past.flatten) := by
    intro past
    induction past with
    | nil => exact fun q hq _ => hq
    | cons as past ih =>
      intro q hq hall
      rw [List.flatten_cons, run_append]
      refine ih _ ?_ fun bs hbs => hall bs (List.mem_cons_of_mem as hbs)
      rcases hall as List.mem_cons_self with ⟨d, hd⟩ | hbetween
      · exact (message_done hd hq).2
      · exact run_induction hq fun _ hp a ha => ready_between (hbetween a ha) hp
  have hdone := (message_done h (hready past _ (ready_withLayout layout) hpast)).1
  have hhr : ∀ i < 16, p.readHr i = ((digestWords d)[i]?).getD 0 := by
    intro i hi
    rw [readHr, if_pos hdone.finalised]
    exact hdone.result i hi
  refine ⟨fun i hi => ?_, fun i hi => ?_⟩
  · rw [read_hrExt p hi, hhr i hi]
  · rw [read_hrLegacy p hi, hhr i (by omega)]

/-- Hashers that know the SHA-1 of some messages. -/
def knownHashers (known : List (Bytes × ByteArr 20)) : Hashers where
  State := Algo × Bytes
  new a := (a, [])
  update s b := (s.1, s.2 ++ b)
  finalize s := if s.1 = .sha1 then ((known.lookup s.2).getD (zeroArr 20)).bytes else List.replicate (4 * s.1.outputWords) 0
  update_nil := by simp
  update_append := by simp
  finalize_length a m := by
    dsimp only
    split
    · rename_i h
      rw [ByteArr.size, h]
      rfl
    · simp

/-- The message `abcabca`. -/
def abcabca : Bytes := [0x61, 0x62, 0x63, 0x61, 0x62, 0x63, 0x61]

/-- Its SHA-1. -/
def abcabcaSha1 : ByteArr 20 :=
  ⟨[0x92, 0xaf, 0x75, 0x3e, 0x85, 0x6c, 0x1f, 0xc5, 0x54, 0xa6, 0xae, 0xd1, 0xb5, 0x8d, 0x99, 0x9e, 0x36, 0x94, 0xb2,
    0x87], rfl⟩

def abcabcaHashers : Hashers := knownHashers [(abcabca, abcabcaSha1)]

/-- SHA-1 of words, saved and restored after the first one. -/
def abcabcaAccesses : List Access :=
  [.write regCR 0x4, .write regSTR 0x0, .write regDIN 0x61626361, .read csrBase, .read regCR, .write regSTR 0x0,
    .write regCR 0x4, .write regDIN 0x62636100, .write regSTR 0x118]

theorem abcabca_message : Message abcabcaHashers .h7 abcabcaAccesses abcabcaSha1.bytes := by
  have hidle : Idle (.write regSTR 0x0) := by
    unfold Idle
    decide
  have hsave : NoSave regCR := by
    unfold NoSave
    decide
  have hrestore : Feeds [0x61626361] (some [0x61626361]) ([.read regCR] ++ [.write regSTR 0x0] ++
      [.write regCR 0x4, .write regDIN 0x62636100]) [0x61626361, 0x62636100] :=
    .restore (by simpa [Excursion] using hsave) (by decide) (by simp) (by decide) (.word _ (.done _ _))
  have hfeeds : Feeds [] none [.write regSTR 0x0, .write regDIN 0x61626361, .read csrBase, .read regCR,
      .write regSTR 0x0, .write regCR 0x4, .write regDIN 0x62636100] [0x61626361, 0x62636100] :=
    .idle hidle (.word _ (.save hrestore))
  have hdata : Encodes .word abcabca [0x61626361, 0x62636100] := ⟨[0x00], by decide, by decide +kernel⟩
  have hstr : Announces 0x118 abcabca := by
    unfold Announces
    decide
  have htakes : Takes (parseDatatype ((0x4 : UInt32) &&& ~~~crINIT)) abcabca _ := .mk hfeeds hdata hstr
  exact .hash (by decide) (by decide) htakes

/-- A message that is cut, after one that was cut. -/
theorem abcabca_digested : Message abcabcaHashers .h7 abcabcaAccesses abcabcaSha1.bytes ∧
    let p := ((withLayout abcabcaHashers .h7).run [abcabcaAccesses].flatten).run abcabcaAccesses
    (∀ i < 16, (p.read (hrExtBase + 4 * UInt32.ofNat i)).1 = ((digestWords abcabcaSha1.bytes)[i]?).getD 0) ∧
      ∀ i < 5, (p.read (hrLegacyBase + 4 * UInt32.ofNat i)).1 = ((digestWords abcabcaSha1.bytes)[i]?).getD 0 :=
  ⟨abcabca_message, hash_digests_messages abcabcaHashers .h7 [abcabcaAccesses]
    (fun _ h => .inl ⟨abcabcaSha1.bytes, List.mem_singleton.mp h ▸ abcabca_message⟩) abcabca_message⟩

end Hash
end STM32
end Simulators

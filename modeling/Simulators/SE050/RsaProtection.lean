/-
# SE050: completed RSA keys

A WriteRSAKey needs no write permission while the import of its object is in
progress. Which components end the import depends on the key part the command
is for, not on the one the object was imported with. So an object that holds a
public key, modulus and exponent, is closed for commands with the key part
Public, and open for all others until a private exponent is staged. These
commands are `ParsedApdu.ReopensRsa`, and no others change the key
(`completeRsa_kept_iff`).
-/
import Simulators.SE050.RsaImport

namespace Simulators
namespace SE050

open Handler

/-- A command that an object with the document and stage given takes for a part of its import, although the public key is
complete, and that brings another modulus or exponent, or completes a private key. -/
def ParsedApdu.ReopensRsa (a : ParsedApdu) (K : Crates) (version : AppletVersion) (id : ObjectId) (der : Bytes)
    (staged : RsaComponents) : Prop :=
  der = [] ∧ staged.d = none ∧ a.keyType ≠ p1PublicKey ∧ ∃ c, a.BringsRsa version id c ∧
    ((c.n ≠ none ∧ c.n ≠ staged.n) ∨ (c.e ≠ none ∧ c.e ≠ staged.e) ∨
      (tryMaterialize K (staged.merge c)).isSome = true)

/-- The object is the key with this document, modulus and public exponent. -/
def ObjectStore.HoldsRsa (s : ObjectStore) (id : ObjectId) (der : Bytes) (n e : Option Bytes) : Prop :=
  ∃ bits staged, s.get id = some (.rsaKeyPair bits der staged) ∧ staged.n = n ∧ staged.e = e

section Steps

variable {K : Crates} {env : Env} {apdu : ParsedApdu} {a : Bool} {s s' : ObjectStore} {id : ObjectId} {bits : UInt16}
  {der : Bytes} {staged c : RsaComponents} {r : ApduResponse}

/-- With modulus and exponent staged, the import is in progress for the key parts other than Public, until the private
exponent is staged. -/
theorem creationInProgress_iff (hget : s.get id = some (.rsaKeyPair bits der staged)) (hany : c.hasAny = true)
    (hcomplete : der ≠ [] ∨ staged.n ≠ none ∧ staged.e ≠ none) :
    creationInProgress apdu s id c = true ↔ der = [] ∧ staged.d = none ∧ apdu.keyType ≠ p1PublicKey := by
  rw [creationInProgress, hany, hget, Bool.true_and]
  dsimp only
  by_cases hder : der = []
  · subst hder
    obtain ⟨hn, he⟩ := hcomplete.resolve_left fun h => h rfl
    have hn' : staged.n.isNone = false := Option.isNone_eq_false_iff.mpr (Option.isSome_iff_ne_none.mpr hn)
    have he' : staged.e.isNone = false := Option.isNone_eq_false_iff.mpr (Option.isSome_iff_ne_none.mpr he)
    by_cases hpub : apdu.keyType = p1PublicKey
    · simp [hn', he', hpub]
    · simp [hn', he', hpub]
  · simp [hder]

/-- What an import makes of a complete public key: it stays as it is, unless a component replaces one of its own or a
private key is made. -/
theorem merged_holds_iff {obj : SecureObject} {size : Option UInt16}
    (hget : s.get id = some (.rsaKeyPair bits [] staged)) (hn : staged.n ≠ none)
    (himport : rsaImport K s id size c = .ok obj) (hs' : s'.get id = some obj) :
    s'.HoldsRsa id [] staged.n staged.e ↔
      ¬ ((c.n ≠ none ∧ c.n ≠ staged.n) ∨ (c.e ≠ none ∧ c.e ≠ staged.e) ∨
        (tryMaterialize K (staged.merge c)).isSome = true) := by
  have hstaged : rsaStaged s id = .ok (bits, staged) := by rw [rsaStaged, hget]
  rw [rsaImport_eq hstaged, Except.ok.injEq] at himport
  subst himport
  have hor : ∀ old new : Option Bytes, (new <|> old) = old ↔ ¬ (new ≠ none ∧ new ≠ old) := by
    intro old new
    cases new with
    | none => simp
    | some v => simp
  cases hmake : tryMaterialize K (staged.merge c) with
  | none =>
    rw [hmake] at hs'
    have hsame : s'.HoldsRsa id [] staged.n staged.e ↔
        (staged.merge c).n = staged.n ∧ (staged.merge c).e = staged.e := by
      constructor
      · rintro ⟨b, st, hst, hstn, hste⟩
        rw [hs'] at hst
        cases hst
        exact ⟨hstn, hste⟩
      · rintro ⟨hstn, hste⟩
        exact ⟨_, _, hs', hstn, hste⟩
    rw [hsame, RsaComponents.merge, hor, hor]
    simp [not_or]
  | some der =>
    rw [hmake] at hs'
    refine ⟨?_, fun h => absurd (.inr (.inr rfl)) h⟩
    rintro ⟨b, st, hst, hstn, -⟩
    rw [hs'] at hst
    cases hst
    exact absurd hstn.symm hn

/-- What an accepted WriteRSAKey has done. -/
theorem handleWriteRsaKey_eq_ok (hc : apdu.IsWrite p1Rsa) (h : handleWriteRsaKey K env apdu s = .ok (r, s')) :
    ∃ id c size policy obj origin, (c.hasAny = true → apdu.BringsRsa env.version id c) ∧
      (creationInProgress apdu s id c = true ∨ s.mayWrite id) ∧ rsaObject K env s id size c = .ok obj ∧
      s' = s.write id obj policy origin := by
  simp only [handleWriteRsaKey, bind_eq_ok, ensure_eq_ok, orRefuse_eq_ok] at h
  obtain ⟨tlvs, htlvs, ⟨⟩, hversion, id, hid, policy, hp, size, hsize, -, hguard, obj, hobj, h⟩ := h
  refine ⟨id, _, size, policy, obj, _, ?_, hguard, hobj, (write_of_end h).2⟩
  intro hany
  exact ⟨hc, ⟨tlvs, policy, size, htlvs, hversion, hid, hp, hsize, rfl⟩, hany⟩

/-- A command that reopens an import changes the key. -/
theorem reopens_changes (hget : s.get id = some (.rsaKeyPair bits der staged)) (hn : staged.n ≠ none)
    (he : staged.e ≠ none) (h : apdu.ReopensRsa K env.version id der staged)
    (hd : dispatch K env apdu s a = .ok (r, s')) : ¬ s'.HoldsRsa id der staged.n staged.e := by
  obtain ⟨rfl, hprivate, hkey, c, hb, hchange⟩ := h
  obtain ⟨size, heq⟩ := handleWriteRsaKey_import (K := K) (s := s) hb
  have hprogress := (creationInProgress_iff hget hb.hasAny (.inr ⟨hn, he⟩)).mpr ⟨rfl, hprivate, hkey⟩
  have hstaged : rsaStaged s id = .ok (bits, staged) := by rw [rsaStaged, hget]
  obtain ⟨obj, himport⟩ : ∃ obj, rsaImport K s id size c = .ok obj := ⟨_, rsaImport_eq hstaged⟩
  rw [dispatch, dispatchCmd_write hb.write (.rsa : WriteHandler K env apdu s p1Rsa _), heq, ensure,
    if_pos (.inl hprogress), ok_bind, himport, ok_bind] at hd
  cases hd
  intro hholds
  exact (merged_holds_iff hget hn himport (by rw [get_write, if_pos rfl])).mp hholds hchange

/-- Any other WriteRSAKey leaves a complete key alone. -/
theorem holds_of_not_reopens (hget : s.get id = some (.rsaKeyPair bits der staged))
    (hdeny : s.policyAllows id policyObjAllowWrite = false) (hcomplete : der ≠ [] ∨ staged.n ≠ none ∧ staged.e ≠ none)
    (hc : apdu.IsWrite p1Rsa) (hno : ¬ apdu.ReopensRsa K env.version id der staged)
    (hd : dispatch K env apdu s a = .ok (r, s')) : s'.HoldsRsa id der staged.n staged.e := by
  rw [dispatch, dispatchCmd_write hc (.rsa : WriteHandler K env apdu s p1Rsa _)] at hd
  rcases settle_eq_ok.mp hd with hok | ⟨_, -, -, rfl⟩
  · obtain ⟨id', c, size, policy, obj, origin, hb, hguard, hobj, rfl⟩ := handleWriteRsaKey_eq_ok hc hok
    by_cases hid : id = id'
    · subst hid
      have hmay : ¬ s.mayWrite id := by
        intro h
        rw [(mayWrite_iff s id (by rw [hget]; exact Option.some_ne_none _)).mp h] at hdeny
        cases hdeny
      have hprogress := hguard.resolve_right hmay
      have hany := (exists_of_creationInProgress hprogress).1
      obtain ⟨rfl, hprivate, hkey⟩ := (creationInProgress_iff hget hany hcomplete).mp hprogress
      obtain ⟨hn, -⟩ := hcomplete.resolve_left fun h => h rfl
      rw [rsaObject, if_pos hany] at hobj
      apply (merged_holds_iff hget hn hobj (by rw [get_write, if_pos rfl])).mpr
      intro hchange
      exact hno ⟨rfl, hprivate, hkey, c, hb hany, hchange⟩
    · exact ⟨bits, staged, by rw [get_write, if_neg hid, hget], rfl, rfl⟩
  · exact ⟨bits, staged, hget, rfl, rfl⟩

end Steps

/-- A key whose policy does not grant writing, and that has its document or whose modulus and public exponent are staged,
keeps its document, modulus and exponent under a WriteRSAKey if and only if the command does not reopen its import. -/
theorem completeRsa_kept_iff (K : Crates) {env : Env} {apdu : ParsedApdu} {a : Bool} {s s' : ObjectStore}
    {r : ApduResponse} {id : ObjectId} {bits : UInt16} {der : Bytes} {staged : RsaComponents}
    (hget : s.get id = some (.rsaKeyPair bits der staged)) (hdeny : s.policyAllows id policyObjAllowWrite = false)
    (hcomplete : der ≠ [] ∨ staged.n ≠ none ∧ staged.e ≠ none) (hc : apdu.IsWrite p1Rsa)
    (hd : dispatch K env apdu s a = .ok (r, s')) :
    s'.HoldsRsa id der staged.n staged.e ↔ ¬ apdu.ReopensRsa K env.version id der staged := by
  constructor
  · intro hholds hreopens
    obtain ⟨hn, he⟩ := hcomplete.resolve_left fun h => h hreopens.1
    exact reopens_changes hget hn he hreopens hd hholds
  · intro hno
    exact holds_of_not_reopens hget hdeny hcomplete hc hno hd

/-- WriteRSAKey for the modulus and the exponent, with the key part Public and a policy that allows to read the key. -/
def importPublic : ParsedApdu :=
  ⟨0x80, 0x01, 0x22, 0x00,
    [0x11, 0x09, 8, 0, 0, 0, 0, 0x00, 0x20, 0x00, 0x00, 0x41, 0x04, 0, 0, 0, 9, 0x4A, 0x02, 0x0C, 0xA1, 0x48, 0x01,
      0x11], none⟩

/-- WriteRSAKey for another modulus, with the key part Public. -/
def replacePublic : ParsedApdu :=
  ⟨0x80, 0x01, 0x22, 0x00, [0x41, 0x04, 0, 0, 0, 9, 0x4A, 0x02, 0x0F, 0xFF], none⟩

/-- The same with the key part Pair. -/
def replacePair : ParsedApdu := { replacePublic with p1 := 0x62 }

theorem replacePublic_refused : ∃ log s r, Run (execute .blank) .new log s ∧
    dispatch .blank .unset replacePublic s false = .ok (r, s) ∧ r.sw = swConditionsNotSatisfied ∧
    s.HoldsRsa ⟨0, 0, 0, 9⟩ [] (some [0x0C, 0xA1]) (some [0x11]) := by
  have hrun : (trace (execute .blank) .new [⟨.unset, importPublic, false⟩]).map (testLast fun _ _ s =>
      s.get ⟨0, 0, 0, 9⟩ == some (.rsaKeyPair 0 [] { n := some [0x0C, 0xA1], e := some [0x11] }) &&
        !s.policyAllows ⟨0, 0, 0, 9⟩ policyObjAllowWrite &&
        decide (dispatch .blank .unset replacePublic s false = .ok (.error swConditionsNotSatisfied, s))) =
      .ok true := by
    decide +kernel
  obtain ⟨past, e, s, h, htest⟩ := exists_run_of_trace hrun
  simp only [Bool.and_eq_true, beq_iff_eq, Bool.not_eq_true', decide_eq_true_eq] at htest
  obtain ⟨⟨hget, hdeny⟩, hd⟩ := htest
  refine ⟨_, s, _, h, hd, rfl, ?_⟩
  apply (completeRsa_kept_iff .blank hget hdeny (.inr ⟨by decide, by decide⟩) ⟨by decide, by decide⟩ hd).mpr
  rintro ⟨-, -, hkey, -⟩
  exact hkey (by decide)

/-- A public key that was imported as such is replaced by a command for another key part. -/
theorem replacePair_accepted : ¬ ∀ (log : List StoreEvent) (s s' : ObjectStore) (id : ObjectId) (bits : UInt16)
    (staged : RsaComponents) (apdu : ParsedApdu) (r : ApduResponse), Run (execute .blank) .new log s →
      (∀ e ∈ log, e.input.apdu.Writes p1Rsa id → e.input.apdu.keyType = p1PublicKey) →
      s.get id = some (.rsaKeyPair bits [] staged) → staged.n ≠ none → staged.e ≠ none →
      s.policyAllows id policyObjAllowWrite = false → apdu.IsWrite p1Rsa →
      dispatch .blank .unset apdu s false = .ok (r, s') → s'.HoldsRsa id [] staged.n staged.e := by
  intro hclaim
  have hrun : (trace (execute .blank) .new [⟨.unset, importPublic, false⟩]).map (testLast fun past e s =>
      past.isEmpty && e.input.apdu == importPublic &&
        s.get ⟨0, 0, 0, 9⟩ == some (.rsaKeyPair 0 [] { n := some [0x0C, 0xA1], e := some [0x11] }) &&
        !s.policyAllows ⟨0, 0, 0, 9⟩ policyObjAllowWrite &&
        (dispatch .blank .unset replacePair s false).map (fun r => r.2.get ⟨0, 0, 0, 9⟩) ==
          .ok (some (.rsaKeyPair 0 [] { n := some [0x0F, 0xFF], e := some [0x11] }))) = .ok true := by
    decide +kernel
  obtain ⟨past, e, s, h, htest⟩ := exists_run_of_trace hrun
  simp only [Bool.and_eq_true, beq_iff_eq, Bool.not_eq_true', List.isEmpty_iff] at htest
  obtain ⟨⟨⟨⟨rfl, hinput⟩, hget⟩, hdeny⟩, hafter⟩ := htest
  have hpublic : ∀ f ∈ [] ++ [e], f.input.apdu.Writes p1Rsa ⟨0, 0, 0, 9⟩ → f.input.apdu.keyType = p1PublicKey := by
    intro f hf _
    rw [List.nil_append, List.mem_singleton] at hf
    rw [hf, hinput]
    decide
  rcases hd : dispatch .blank .unset replacePair s false with p | ⟨r, s'⟩
  · rw [hd] at hafter
    cases hafter
  · rw [hd, Except.map, Except.ok.injEq] at hafter
    obtain ⟨bits, staged, hgot, hn, -⟩ := hclaim _ s s' _ _ _ replacePair r h hpublic hget (by decide) (by decide) hdeny
      ⟨by decide, by decide⟩ hd
    rw [hafter] at hgot
    cases hgot
    cases hn

end SE050
end Simulators

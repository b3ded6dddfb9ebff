/-
# SE050: which handler executes a command

`dispatch` is a tree of tests on CLA, INS, P1 and P2. `Handled` lists the
handlers at its leaves that can change the store, each with the commands that
reach it, and `dispatch_handled` says that a command that changes the store
was executed by one of them. What a command does is then read off its handler;
no result below looks at the tree again.
-/
import Simulators.Lib.Run
import Simulators.SE050.Dispatch

namespace Simulators
namespace SE050

open Handler

/-! ### Commands -/

/-- An applet command with the given instruction. -/
def ParsedApdu.IsCommand (a : ParsedApdu) (ins : UInt8) : Prop :=
  (a.cla = 0x80 ∨ a.cla = 0x84) ∧ a.baseIns = ins

instance (a : ParsedApdu) (ins : UInt8) : Decidable (a.IsCommand ins) := by
  unfold ParsedApdu.IsCommand; infer_instance

/-- WriteRSAKey. -/
def ParsedApdu.IsWriteRsa (a : ParsedApdu) : Prop := a.IsCommand insWrite ∧ a.credType = p1Rsa

/-- ECDHGenerateSharedSecret, in either form. -/
def ParsedApdu.IsEcdh (a : ParsedApdu) : Prop :=
  a.IsCommand insCrypto ∧ a.credType = p1Ec ∧ (a.p2 = p2Dh ∨ a.p2 = p2DhReverse)

def ParsedApdu.IsDeleteAll (a : ParsedApdu) : Prop := a.IsCommand insMgmt ∧ a.p2 = p2DeleteAll

/-- DeleteSecureObject; crypto objects and curves have their own delete commands. -/
def ParsedApdu.IsDeleteObject (a : ParsedApdu) : Prop :=
  a.IsCommand insMgmt ∧ a.p2 = p2DeleteObject ∧ a.credType ≠ p1CryptoObj ∧ a.credType ≠ p1Curve

/-- The kinds of multi-step operations. -/
inductive ContextKind
  | digest
  | cipher
  | mac
deriving DecidableEq, Repr

def CryptoObjectState.kind : CryptoObjectState → ContextKind
  | .digest .. => .digest
  | .cipher .. => .cipher
  | .mac .. => .mac

/-- The P1 of a kind's commands. -/
def ContextKind.cred : ContextKind → UInt8
  | .digest => p1Default
  | .cipher => p1Cipher
  | .mac => p1Mac

/-- DigestFinal, CipherFinal or MACFinal. -/
def ParsedApdu.IsFinal (a : ParsedApdu) (k : ContextKind) : Prop :=
  a.IsCommand insCrypto ∧ a.credType = k.cred ∧ a.p2 = p2Final

instance (a : ParsedApdu) (k : ContextKind) : Decidable (a.IsFinal k) := by
  unfold ParsedApdu.IsFinal; infer_instance

/-- The context a Final command is addressed to. -/
def ParsedApdu.finalTarget (a : ParsedApdu) : Option UInt16 :=
  match a.parseTlvs with
  | .ok tlvs => cryptoIdOf tlvs tag2
  | .error _ => none

/-- WriteBinary, WriteCounter or a WriteKey command: an applet command that writes an object of a type. -/
def ParsedApdu.IsWrite (a : ParsedApdu) (cred : UInt8) : Prop := a.IsCommand insWrite ∧ a.credType = cred

/-- A command of a multi-step operation: Init, Update or Final of its kind. -/
def ParsedApdu.IsStep (a : ParsedApdu) (k : ContextKind) (p2 : UInt8) : Prop :=
  a.IsCommand insCrypto ∧ a.credType = k.cred ∧ a.p2 = p2

/-- DigestInit, CipherInit or MACInit; the cipher's and the MAC's have two forms. -/
def ParsedApdu.IsInit (a : ParsedApdu) : ContextKind → Prop
  | .digest => a.IsStep .digest p2Init
  | .cipher => a.IsStep .cipher p2EncryptInit ∨ a.IsStep .cipher p2DecryptInit
  | .mac => a.IsStep .mac p2Generate ∨ a.IsStep .mac p2MacValidate

/-- DeleteCryptoObject. -/
def ParsedApdu.IsDeleteCryptoObj (a : ParsedApdu) : Prop :=
  a.IsCommand insMgmt ∧ a.p2 = p2DeleteObject ∧ a.credType = p1CryptoObj

instance (a : ParsedApdu) (k : ContextKind) (p2 : UInt8) : Decidable (a.IsStep k p2) := by
  unfold ParsedApdu.IsStep; infer_instance

instance (a : ParsedApdu) (k : ContextKind) : Decidable (a.IsInit k) := by
  cases k <;> unfold ParsedApdu.IsInit <;> infer_instance

instance (a : ParsedApdu) : Decidable a.IsDeleteCryptoObj := by
  unfold ParsedApdu.IsDeleteCryptoObj; infer_instance

instance (a : ParsedApdu) : Decidable a.IsDeleteAll := by
  unfold ParsedApdu.IsDeleteAll; infer_instance

/-- A command with the environment it runs in; `scpActive` if it came over a secure channel. -/
structure Command where
  env : Env
  apdu : ParsedApdu
  scpActive : Bool

/-- The store as a component that executes commands. -/
def execute (K : Crates) (s : ObjectStore) (c : Command) : Except Panic (ApduResponse × ObjectStore) :=
  dispatch K c.env c.apdu s c.scpActive

/-- A command that was executed, with its answer. -/
abbrev StoreEvent := Event ObjectStore Command ApduResponse

def StoreEvent.Accepted (e : StoreEvent) : Prop := e.output.sw = swNoError

instance (e : StoreEvent) : Decidable e.Accepted := by unfold StoreEvent.Accepted; infer_instance

/-! ### Handlers -/

section Handlers

variable (K : Crates) (env : Env) (apdu : ParsedApdu) (s : ObjectStore)

/-- The handler of an Init command. -/
def initHandler : ContextKind → Cmd (ApduResponse × ObjectStore)
  | .digest => handleDigestInit apdu s
  | .cipher => handleCipherInit apdu s
  | .mac => handleMacInit apdu s (apdu.p2 == p2MacValidate)

/-- The handler of an Update command. -/
def updateHandler : ContextKind → Cmd (ApduResponse × ObjectStore)
  | .digest => handleDigestUpdate apdu s
  | .cipher => handleCipherUpdate K apdu s
  | .mac => handleMacUpdate apdu s

/-- The handler of a Final command. -/
def finalHandler : ContextKind → Cmd (ApduResponse × ObjectStore)
  | .digest => handleDigestFinal K apdu s
  | .cipher => handleCipherFinal K apdu s
  | .mac => handleMacFinal K apdu s

/-- The handler of a write command, by the type of the object. -/
inductive WriteHandler : UInt8 → Cmd (ApduResponse × ObjectStore) → Prop
  | binary : WriteHandler p1Binary (handleWriteBinary apdu s)
  | counter : WriteHandler p1Counter (handleWriteCounter apdu s)
  | ec : WriteHandler p1Ec (handleWriteEcKey K env apdu s)
  | rsa : WriteHandler p1Rsa (handleWriteRsaKey K env apdu s)
  | aes : WriteHandler p1Aes (handleWriteAesKey env apdu s)
  | hmac : WriteHandler p1Hmac (handleWriteHmacKey apdu s)

/-- The handlers of curve objects. -/
inductive CurveHandler : Cmd (ApduResponse × ObjectStore) → Prop
  | create : CurveHandler (handleCurveCreate env apdu s)
  | setParam : CurveHandler (handleSetParam apdu s)
  | delete : CurveHandler (handleCurveDelete apdu s)

/-- How a command is executed. The commands that only read, and those that are refused, are `idle`. -/
inductive Handled (scpActive : Bool) : ApduResponse → ObjectStore → Prop
  | idle (r : ApduResponse) : Handled scpActive r s
  | write {cred : UInt8} {h : Cmd (ApduResponse × ObjectStore)} {r : ApduResponse} {s' : ObjectStore}
      (hc : apdu.IsWrite cred) (hw : WriteHandler K env apdu s cred h) (hr : h = .ok (r, s')) :
      Handled scpActive r s'
  | ecdh {r : ApduResponse} {s' : ObjectStore} (hc : apdu.IsEcdh)
      (hr : handleEcdh K apdu s env.strictEcdh = .ok (r, s')) : Handled scpActive r s'
  | delete {r : ApduResponse} {s' : ObjectStore} (hc : apdu.IsDeleteObject)
      (hr : handleDelete apdu s = .ok (r, s')) : Handled scpActive r s'
  | deleteAll (hc : apdu.IsDeleteAll) : Handled scpActive .success s.clear
  | curve {h : Cmd (ApduResponse × ObjectStore)} {r : ApduResponse} {s' : ObjectStore}
      (hw : CurveHandler env apdu s h) (hr : h = .ok (r, s')) : Handled scpActive r s'
  | init (k : ContextKind) {r : ApduResponse} {s' : ObjectStore} (hc : apdu.IsInit k)
      (hr : initHandler apdu s k = .ok (r, s')) : Handled scpActive r s'
  | update (k : ContextKind) {r : ApduResponse} {s' : ObjectStore} (hc : apdu.IsStep k p2Update)
      (hr : updateHandler K apdu s k = .ok (r, s')) : Handled scpActive r s'
  | final (k : ContextKind) {r : ApduResponse} {s' : ObjectStore} (hc : apdu.IsFinal k)
      (hr : finalHandler K apdu s k = .ok (r, s')) : Handled scpActive r s'
  | createCryptoObj {r : ApduResponse} {s' : ObjectStore} (hc : apdu.IsWrite p1CryptoObj)
      (hr : handleCryptoObjCreate apdu s = .ok (r, s')) : Handled scpActive r s'
  | deleteCryptoObj {r : ApduResponse} {s' : ObjectStore} (hc : apdu.IsDeleteCryptoObj)
      (hr : handleCryptoObjDelete apdu s = .ok (r, s')) : Handled scpActive r s'
  | setScp {r : ApduResponse} {s' : ObjectStore} (hr : handleSetPlatformScp apdu s scpActive = .ok (r, s')) :
      Handled scpActive r s'

end Handlers

/-! ### The dispatcher -/

section Dispatch

variable {K : Crates} {env : Env} {apdu : ParsedApdu} {a : Bool} {s s' : ObjectStore} {r : ApduResponse}

theorem readOnly_eq_ok {h : Cmd ApduResponse} : readOnly s h = .ok (r, s') ↔ h = .ok r ∧ s' = s := by
  simp only [readOnly, bind_eq_ok, pure_eq_ok, Except.ok.injEq, Prod.mk.injEq]
  constructor
  · rintro ⟨_, h, rfl, rfl⟩
    exact ⟨h, rfl⟩
  · rintro ⟨h, rfl⟩
    exact ⟨r, h, rfl, rfl⟩

/-- A handler that only reads leaves the store alone. -/
theorem readOnly_handled {h : Cmd ApduResponse} (hr : readOnly s h = .ok (r, s')) : Handled K env apdu s a r s' := by
  obtain ⟨-, rfl⟩ := readOnly_eq_ok.mp hr
  exact .idle r

theorem handleWrite_handled (hc : apdu.IsCommand insWrite) (h : handleWrite apdu s = .ok (r, s')) :
    Handled K env apdu s a r s' := by
  unfold handleWrite at h
  split at h
  · rename_i hp
    exact .write ⟨hc, hp⟩ .binary h
  split at h
  · simp at h
  split at h
  · rename_i hp
    exact .write ⟨hc, hp⟩ .counter h
  · simp at h

theorem dispatchWrite_handled (hc : apdu.IsCommand insWrite) (h : dispatchWrite K env apdu s = .ok (r, s')) :
    Handled K env apdu s a r s' := by
  unfold dispatchWrite at h
  split at h
  · rename_i hp
    exact .write ⟨hc, hp⟩ .ec h
  split at h
  · rename_i hp
    exact .write ⟨hc, hp⟩ .rsa h
  split at h
  · rename_i hp
    exact .write ⟨hc, hp⟩ .aes h
  split at h
  · rename_i hp
    exact .write ⟨hc, hp⟩ .hmac h
  split at h
  · rename_i hp
    exact .createCryptoObj ⟨hc, hp⟩ h
  split at h
  · split at h
    · exact .curve .create h
    split at h
    · exact .curve .setParam h
    · simp at h
  split at h
  · exact handleWrite_handled hc h
  · simp at h

theorem dispatchCipher_handled (hc : apdu.IsCommand insCrypto) (hp : apdu.credType = p1Cipher)
    (h : dispatchCipher K apdu s = .ok (r, s')) : Handled K env apdu s a r s' := by
  unfold dispatchCipher at h
  split at h
  · exact readOnly_handled h
  split at h
  · exact readOnly_handled h
  split at h
  · rename_i hp2
    exact .init .cipher (hp2.imp (fun hp2 => ⟨hc, hp, hp2⟩) fun hp2 => ⟨hc, hp, hp2⟩) h
  split at h
  · rename_i hp2
    exact .update .cipher ⟨hc, hp, hp2⟩ h
  split at h
  · rename_i hp2
    exact .final .cipher ⟨hc, hp, hp2⟩ h
  · simp at h

theorem dispatchDigest_handled (hc : apdu.IsCommand insCrypto) (hp : apdu.credType = p1Default)
    (h : dispatchDigest K apdu s = .ok (r, s')) : Handled K env apdu s a r s' := by
  unfold dispatchDigest at h
  split at h
  · exact readOnly_handled h
  split at h
  · rename_i hp2
    exact .init .digest ⟨hc, hp, hp2⟩ h
  split at h
  · rename_i hp2
    exact .update .digest ⟨hc, hp, hp2⟩ h
  split at h
  · rename_i hp2
    exact .final .digest ⟨hc, hp, hp2⟩ h
  · simp at h

theorem dispatchMac_handled (hc : apdu.IsCommand insCrypto) (hp : apdu.credType = p1Mac)
    (h : dispatchMac K apdu s = .ok (r, s')) : Handled K env apdu s a r s' := by
  unfold dispatchMac at h
  split at h
  · exact readOnly_handled h
  split at h
  · exact readOnly_handled h
  split at h
  · rename_i hp2
    refine .init .mac (.inl ⟨hc, hp, hp2⟩) ?_
    rwa [initHandler, hp2]
  split at h
  · rename_i hp2
    refine .init .mac (.inr ⟨hc, hp, hp2⟩) ?_
    rwa [initHandler, hp2]
  split at h
  · rename_i hp2
    exact .update .mac ⟨hc, hp, hp2⟩ h
  split at h
  · rename_i hp2
    exact .final .mac ⟨hc, hp, hp2⟩ h
  · simp at h

theorem dispatchCrypto_handled (hc : apdu.IsCommand insCrypto) (h : dispatchCrypto K env apdu s = .ok (r, s')) :
    Handled K env apdu s a r s' := by
  unfold dispatchCrypto at h
  split at h
  · unfold dispatchSignature at h
    split at h
    · exact readOnly_handled h
    split at h
    · exact readOnly_handled h
    · simp at h
  split at h
  · rename_i hp
    split at h
    · rename_i hp2
      exact .ecdh ⟨hc, hp, hp2⟩ h
    · simp at h
  split at h
  · rename_i hp
    exact dispatchCipher_handled hc hp h
  split at h
  · unfold dispatchRsa at h
    split at h
    · exact readOnly_handled h
    split at h
    · exact readOnly_handled h
    · simp at h
  split at h
  · rename_i hp
    exact dispatchDigest_handled hc hp h
  split at h
  · rename_i hp
    exact dispatchMac_handled hc hp h
  · simp at h

theorem handleManagement_handled (hc : apdu.IsCommand insMgmt) (h : handleManagement env apdu s = .ok (r, s')) :
    Handled K env apdu s a r s' := by
  unfold handleManagement at h
  split at h
  · simp only [Except.ok.injEq, Prod.mk.injEq] at h
    obtain ⟨-, rfl⟩ := h
    exact .idle r
  split at h
  · exact readOnly_handled h
  split at h
  · exact readOnly_handled h
  split at h
  · rename_i hp
    simp only [handleDeleteAll, Except.ok.injEq, Prod.mk.injEq] at h
    obtain ⟨rfl, rfl⟩ := h
    exact .deleteAll ⟨hc, hp⟩
  · simp at h

theorem dispatchMgmt_handled (hc : apdu.IsCommand insMgmt) (h : dispatchMgmt env apdu s a = .ok (r, s')) :
    Handled K env apdu s a r s' := by
  unfold dispatchMgmt at h
  split at h
  · rename_i hp
    exact .deleteCryptoObj ⟨hc, hp.2, hp.1⟩ h
  rename_i hno
  split at h
  · exact .curve .delete h
  rename_i hno'
  split at h
  · exact handleManagement_handled hc h
  split at h
  · exact .setScp h
  split at h
  · unfold handleMgmt at h
    split at h
    · exact readOnly_handled h
    split at h
    · rename_i hp2
      exact .delete ⟨hc, hp2, fun hp => hno ⟨hp, hp2⟩, fun hp => hno' ⟨hp, hp2⟩⟩ h
    · simp at h
  · simp at h

theorem dispatchCmd_handled (h : dispatchCmd K env apdu s a = .ok (r, s')) : Handled K env apdu s a r s' := by
  unfold dispatchCmd at h
  split at h
  · simp only [Except.ok.injEq, Prod.mk.injEq] at h
    obtain ⟨-, rfl⟩ := h
    exact .idle r
  split at h
  · simp at h
  rename_i hcla
  have hcla : apdu.cla = 0x80 ∨ apdu.cla = 0x84 := by tauto
  split at h
  · rename_i hi
    exact dispatchWrite_handled ⟨hcla, hi⟩ h
  split at h
  · exact readOnly_handled h
  split at h
  · rename_i hi
    exact dispatchCrypto_handled ⟨hcla, hi⟩ h
  split at h
  · rename_i hi
    exact dispatchMgmt_handled ⟨hcla, hi⟩ h
  · simp at h

/-- Every command is executed by one of the handlers, or changes nothing. -/
theorem dispatch_handled (h : dispatch K env apdu s a = .ok (r, s')) : Handled K env apdu s a r s' := by
  rcases settle_eq_ok.mp h with h | ⟨e, -, -, rfl⟩
  · exact dispatchCmd_handled h
  · exact .idle r

/-! ### The way to a handler -/

/-- An applet command is routed by its instruction. -/
theorem dispatchCmd_eq {ins : UInt8} (h : apdu.IsCommand ins) : dispatchCmd K env apdu s a =
    if ins = insWrite then dispatchWrite K env apdu s
    else if ins = insRead then readOnly s (dispatchRead K env apdu s)
    else if ins = insCrypto then dispatchCrypto K env apdu s
    else if ins = insMgmt then dispatchMgmt env apdu s a
    else refuse swInsNotSupported := by
  obtain ⟨hcla, rfl⟩ := h
  have h0 : ¬ (apdu.cla = 0x00 ∧ apdu.ins = 0xA4) := by
    rintro ⟨h, -⟩
    rw [h] at hcla
    exact absurd hcla (by decide)
  have h1 : ¬ (apdu.cla ≠ 0x80 ∧ apdu.cla ≠ 0x84) := by tauto
  rw [dispatchCmd, if_neg h0, if_neg h1]

theorem dispatchCmd_write {cred : UInt8} {h : Cmd (ApduResponse × ObjectStore)} (hc : apdu.IsWrite cred)
    (hw : WriteHandler K env apdu s cred h) : dispatchCmd K env apdu s a = h := by
  rw [dispatchCmd_eq hc.1, if_pos rfl, dispatchWrite, hc.2]
  cases hw with
  | binary =>
    rw [handleWrite, hc.2]
    rfl
  | counter =>
    rw [handleWrite, hc.2]
    rfl
  | _ => rfl

theorem dispatchCmd_crypto (h : apdu.IsCommand insCrypto) :
    dispatchCmd K env apdu s a = dispatchCrypto K env apdu s := by
  rw [dispatchCmd_eq h, if_neg (by decide), if_neg (by decide), if_pos rfl]

theorem dispatchCmd_mgmt (h : apdu.IsCommand insMgmt) : dispatchCmd K env apdu s a = dispatchMgmt env apdu s a := by
  rw [dispatchCmd_eq h, if_neg (by decide), if_neg (by decide), if_neg (by decide), if_pos rfl]

/-- The commands of a multi-step operation and of its one-shot. -/
def dispatchKind (K : Crates) (apdu : ParsedApdu) (s : ObjectStore) : ContextKind → Cmd (ApduResponse × ObjectStore)
  | .digest => dispatchDigest K apdu s
  | .cipher => dispatchCipher K apdu s
  | .mac => dispatchMac K apdu s

theorem dispatchCmd_kind {k : ContextKind} (h : apdu.IsCommand insCrypto) (hc : apdu.credType = k.cred) :
    dispatchCmd K env apdu s a = dispatchKind K apdu s k := by
  rw [dispatchCmd_crypto h, dispatchCrypto, hc]
  cases k with
  | digest => rfl
  | cipher => rfl
  | mac => rfl

theorem dispatchCmd_final {k : ContextKind} (h : apdu.IsFinal k) :
    dispatchCmd K env apdu s a = finalHandler K apdu s k := by
  rw [dispatchCmd_kind h.1 h.2.1]
  cases k with
  | digest =>
    rw [dispatchKind, dispatchDigest, h.2.2]
    rfl
  | cipher =>
    rw [dispatchKind, dispatchCipher, h.2.2]
    rfl
  | mac =>
    rw [dispatchKind, dispatchMac, h.2.2]
    rfl

theorem dispatchCmd_update {k : ContextKind} (h : apdu.IsStep k p2Update) :
    dispatchCmd K env apdu s a = updateHandler K apdu s k := by
  rw [dispatchCmd_kind h.1 h.2.1]
  cases k with
  | digest =>
    rw [dispatchKind, dispatchDigest, h.2.2]
    rfl
  | cipher =>
    rw [dispatchKind, dispatchCipher, h.2.2]
    rfl
  | mac =>
    rw [dispatchKind, dispatchMac, h.2.2]
    rfl

theorem dispatchCmd_init {k : ContextKind} (h : apdu.IsInit k) :
    dispatchCmd K env apdu s a = initHandler apdu s k := by
  cases k with
  | digest =>
    rw [dispatchCmd_kind h.1 h.2.1, dispatchKind, dispatchDigest, h.2.2]
    rfl
  | cipher =>
    rcases h with h | h
    · rw [dispatchCmd_kind h.1 h.2.1, dispatchKind, dispatchCipher, h.2.2]
      rfl
    · rw [dispatchCmd_kind h.1 h.2.1, dispatchKind, dispatchCipher, h.2.2]
      rfl
  | mac =>
    rcases h with h | h
    · rw [dispatchCmd_kind h.1 h.2.1, dispatchKind, dispatchMac, initHandler, h.2.2]
      rfl
    · rw [dispatchCmd_kind h.1 h.2.1, dispatchKind, dispatchMac, initHandler, h.2.2]
      rfl

theorem dispatchCmd_deleteAll (h : apdu.IsDeleteAll) : dispatchCmd K env apdu s a = .ok (.success, s.clear) := by
  rw [dispatchCmd_mgmt h.1, dispatchMgmt, handleManagement, h.2]
  rw [if_neg (fun hp => absurd hp.2 (by decide)), if_neg (fun hp => absurd hp.2 (by decide))]
  rfl

theorem dispatchCmd_deleteCryptoObj (h : apdu.IsDeleteCryptoObj) :
    dispatchCmd K env apdu s a = handleCryptoObjDelete apdu s := by
  rw [dispatchCmd_mgmt h.1, dispatchMgmt, if_pos ⟨h.2.2, h.2.1⟩]

end Dispatch

end SE050
end Simulators

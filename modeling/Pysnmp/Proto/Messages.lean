import Pysnmp.Proto.Types

/-!
# PDUs and exceptions

What message processing, the dispatcher and the applications pass to each other. A PDU is told
apart by its tag, which is the same in SNMPv1 and SNMPv2c where both versions have the type, and
`rfc3411` classes the tags. A binding carries one of the SMIv2 values or one of the three exception
values a response has in place of a value.

The exceptions are kept as far as the code tells them apart: `StatusInformation` with the details
that were set, `ProtocolError`, the other errors of the package, those of the ASN.1 library, and
what Python itself raises.
-/

set_option autoImplicit false
set_option relaxedAutoImplicit false

namespace Pysnmp.Proto

/-! ### PDUs -/

/-- The PDU types, by their tags. -/
inductive PduType
  | getRequest
  | getNextRequest
  | response
  | setRequest
  | v1Trap
  | getBulkRequest
  | informRequest
  | snmpV2Trap
  | report
  deriving DecidableEq, Repr

namespace PduType

/-- `readClassPDUs`. -/
def isReadClass : PduType → Bool
  | getRequest | getNextRequest | getBulkRequest => true
  | _ => false

/-- `writeClassPDUs`. -/
def isWriteClass : PduType → Bool
  | setRequest => true
  | _ => false

/-- `responseClassPDUs`. -/
def isResponseClass : PduType → Bool
  | response | report => true
  | _ => false

/-- `internalClassPDUs`. -/
def isInternalClass : PduType → Bool
  | report => true
  | _ => false

/-- `confirmedClassPDUs`. -/
def isConfirmedClass : PduType → Bool
  | getRequest | getNextRequest | setRequest | getBulkRequest | informRequest => true
  | _ => false

/-- `unconfirmedClassPDUs`. -/
def isUnconfirmedClass : PduType → Bool
  | response | v1Trap | report | snmpV2Trap => true
  | _ => false

end PduType

/-- The value of a binding. -/
inductive BindingValue
  | null
  | integer (value : ℤ)
  | octetString (value : Octets)
  | objectIdentifier (value : Oid)
  | ipAddress (value : Octets)
  | counter32 (value : ℕ)
  | gauge32 (value : ℕ)
  | timeTicks (value : ℕ)
  | arbitrary (value : Octets)
  | counter64 (value : ℕ)
  | noSuchObject
  | noSuchInstance
  | endOfMibView
  deriving DecidableEq, Repr

/-- The tag is one of `NoSuchObject`, `NoSuchInstance` and `EndOfMibView`. -/
def BindingValue.isException : BindingValue → Bool
  | noSuchObject | noSuchInstance | endOfMibView => true
  | _ => false

/-- A name with a value. -/
abbrev VarBind := Oid × BindingValue

/-- A PDU other than a v1 trap. A GETBULK request has its non-repeaters and max-repetitions in place
of the error status and index. -/
structure Pdu where
  pduType : PduType
  requestID : ℤ
  errorStatus : ℤ := 0
  errorIndex : ℤ := 0
  varBinds : List VarBind
  deriving DecidableEq, Repr

/-- A transport endpoint: the domain and the address within it. -/
structure Peer where
  transportDomain : Oid
  transportAddress : Octets
  deriving DecidableEq, Repr

/-! ### Exceptions -/

/-- The details of a `StatusInformation` that travel between the modules; what a call site leaves
out is absent. -/
structure StatusDetails where
  errorIndication : Option ErrorIndication := none
  oid : Option Oid := none
  val : Option BindingValue := none
  sendPduHandle : Option ℕ := none
  idx : Option ℕ := none
  deriving DecidableEq, Repr

/-- The exceptions, by what the handlers tell apart. -/
inductive Raised
  | statusInformation (details : StatusDetails)
  | protocolError
  | pySnmpError
  | pyAsn1Error
  | keyError
  | typeError
  | attributeError
  | otherError
  deriving DecidableEq, Repr

namespace Raised

/-- An instance of `PySnmpError`, of which `ProtocolError` and `StatusInformation` are
subclasses. -/
def isPySnmpError : Raised → Bool
  | statusInformation _ | protocolError | pySnmpError => true
  | _ => false

/-- An instance of `PyAsn1Error`, which `ProtocolError` is as well. -/
def isPyAsn1Error : Raised → Bool
  | statusInformation _ | protocolError | pyAsn1Error => true
  | _ => false

/-- A `StatusInformation` with an error indication only. -/
def status (errorIndication : ErrorIndication) : Raised :=
  statusInformation { errorIndication := some errorIndication }

end Raised

end Pysnmp.Proto

import Mathlib.Data.List.Basic

/-! # Errors and alerts

The error values of the library, by type rather than by text, because the
alert sent for an error is chosen by its type. `localAlert` is an error that
carries its alert; `authenticatedRecord` reports a semantic error found only
after a record was authenticated. `external` is an error of a callback, with the
alert it carries, if any.
-/

namespace Dtls13

inductive Err where
  | protocolError (reason : String)
  | configError (reason : String)
  | localAlert (description : UInt8) (err : Err)
  | authenticatedRecord (description : UInt8) (err : Err)
  | aeadAuthenticationFailureLimit
  | plain (text : String)
  | peerAlert (description : UInt8)
  | endOfFile
  | datagramTooLarge
  | transport
  | external (alert : Option UInt8) (reason : String)
  deriving DecidableEq, Repr

def alertLevelWarning : UInt8 := 1
def alertLevelFatal : UInt8 := 2
def alertCloseNotify : UInt8 := 0
def alertUnexpectedMessage : UInt8 := 10
def alertRecordOverflow : UInt8 := 22
def alertIllegalParameter : UInt8 := 47
def alertDecodeError : UInt8 := 50
def alertDecryptError : UInt8 := 51
def alertUserCanceled : UInt8 := 90
def alertMissingExtension : UInt8 := 109
def alertGeneralError : UInt8 := 117

def alertError (description : UInt8) (err : Err) : Err := .localAlert description err

def authenticatedRecordAlert (description : UInt8) (err : Err) : Err :=
  .authenticatedRecord description err

/-- The error of an access out of bounds, which stops the program. -/
def indexOutOfRange : Err := .plain "runtime error: index out of range"

namespace Err

/-- The outermost `authenticatedRecord` in the chain of wrapped errors. -/
def asAuthenticatedRecord : Err → Option UInt8
  | authenticatedRecord description _ => some description
  | localAlert _ err => err.asAuthenticatedRecord
  | _ => none

/-- The alert of the outermost `localAlert` in the chain. -/
def asLocalAlert : Err → Option UInt8
  | localAlert description _ => some description
  | authenticatedRecord _ err => err.asLocalAlert
  | external alert _ => alert
  | _ => none

def isProtocolError : Err → Bool
  | protocolError _ => true
  | localAlert _ err => err.isProtocolError
  | authenticatedRecord _ err => err.isProtocolError
  | _ => false

/-- A peer's alert, a network error or the end of the input. -/
def isPeerOrNetwork : Err → Bool
  | peerAlert _ | transport | datagramTooLarge | endOfFile => true
  | localAlert _ err => err.isPeerOrNetwork
  | authenticatedRecord _ err => err.isPeerOrNetwork
  | _ => false

def isAuthenticationFailureLimit : Err → Bool
  | aeadAuthenticationFailureLimit => true
  | localAlert _ err => err.isAuthenticationFailureLimit
  | authenticatedRecord _ err => err.isAuthenticationFailureLimit
  | _ => false

end Err

/-- An error that carries no alert is an illegal parameter if it is an error of
the protocol. -/
def protocolAlert (err : Err) : Option UInt8 :=
  match err.asLocalAlert with
  | some description => some description
  | none => if err.isProtocolError then some alertIllegalParameter else none

/-- The alert sent when an error ends the connection. -/
def outboundAlert (err : Err) : Option UInt8 :=
  match protocolAlert err with
  | some description => some description
  | none => if err.isPeerOrNetwork then none else some alertGeneralError

/-- Errors of opening a protected record that end the connection. Everything
else is a silent discard. -/
def protectedRecordReceiveError (err : Err) : Option Err :=
  if err.isAuthenticationFailureLimit then some err
  else match err.asAuthenticatedRecord with
    | some description =>
      let description := if description == 0 then alertUnexpectedMessage else description
      some (alertError description err)
    | none => none

end Dtls13

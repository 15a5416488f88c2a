import Spmfilter.Internal

/-!
# Sessions and envelopes

The records of `smf_session.h` and `smf_envelope.h`, with the functions that
the SMTP engine calls on them.

A NULL pointer is `none`.  The message object of the envelope is not a field
here: it exists only while a message is processed, and `Modules.World` holds it
then.  The socket is the same for every session of a connection and is left
out.
-/

namespace Spmfilter

open CString

/-- `SMFUserData_T`: the record that a lookup has found for an address. -/
structure UserData where
  email : Bytes
  data : List (Bytes × Bytes) := []
  deriving DecidableEq

/-- `SMFEnvelope_T`. -/
structure Envelope where
  recipients : List Bytes := []
  sender : Option Bytes := none
  authUser : Option Bytes := none
  authPass : Option Bytes := none
  nexthop : Option Bytes := none
  deriving DecidableEq

/-- `SMFSession_T`. -/
structure Session where
  id : Bytes
  envelope : Envelope := {}
  messageSize : Nat := 0
  messageFile : Option Bytes := none
  helo : Option Bytes := none
  xforwardAddr : Option Bytes := none
  responseMsg : Option Bytes := none
  localUsers : List UserData := []
  deriving DecidableEq

/-- `smf_session_new`, with the session id that `smf_internal_generate_sid`
draws. -/
def smfSessionNew (sid : Bytes) : Session :=
  { id := sid }

/-- `smf_session_set_helo`. -/
def smfSessionSetHelo (session : Session) (helo : Bytes) : Session :=
  { session with helo := some helo }

/-- `smf_session_set_xforward_addr`.  The prefix is looked for anywhere in the
string, and five bytes are cut off its front when it is found. -/
def smfSessionSetXforwardAddr (session : Session) (xfwd : Bytes) : Session :=
  if (strcasestr xfwd (ascii "IPv6:")).isSome then
    { session with xforwardAddr := some (xfwd.drop 5) }
  else
    { session with xforwardAddr := some xfwd }

/-- `smf_envelope_set_sender`. -/
def smfEnvelopeSetSender (envelope : Envelope) (sender : Bytes) : Envelope :=
  { envelope with sender := some (smfInternalStripEmailAddr sender) }

/-- `smf_envelope_add_rcpt`. -/
def smfEnvelopeAddRcpt (envelope : Envelope) (rcpt : Bytes) : Envelope :=
  { envelope with recipients := envelope.recipients ++ [smfInternalStripEmailAddr rcpt] }

/-- `smf_envelope_set_nexthop`. -/
def smfEnvelopeSetNexthop (envelope : Envelope) (nexthop : Bytes) : Envelope :=
  { envelope with nexthop := some nexthop }

section Fields

variable (session : Session) (envelope : Envelope) (addr : Bytes)

@[simp] theorem smfSessionNew_envelope : (smfSessionNew addr).envelope = {} := rfl

@[simp] theorem smfSessionSetHelo_envelope :
    (smfSessionSetHelo session addr).envelope = session.envelope := rfl

@[simp] theorem smfSessionSetXforwardAddr_envelope :
    (smfSessionSetXforwardAddr session addr).envelope = session.envelope := by
  unfold smfSessionSetXforwardAddr
  split <;> rfl

@[simp] theorem smfEnvelopeSetSender_sender :
    (smfEnvelopeSetSender envelope addr).sender = some (smfInternalStripEmailAddr addr) := rfl

@[simp] theorem smfEnvelopeSetSender_recipients :
    (smfEnvelopeSetSender envelope addr).recipients = envelope.recipients := rfl

@[simp] theorem smfEnvelopeAddRcpt_sender :
    (smfEnvelopeAddRcpt envelope addr).sender = envelope.sender := rfl

@[simp] theorem smfEnvelopeAddRcpt_recipients :
    (smfEnvelopeAddRcpt envelope addr).recipients =
      envelope.recipients ++ [smfInternalStripEmailAddr addr] := rfl

end Fields

end Spmfilter

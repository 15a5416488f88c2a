import Spmfilter.Message
import Spmfilter.Settings

/-!
# The next hop

`smf_nexthop.c` and `smf_smtp_deliver` of `smf_smtp.c`.

`Esmtp` is libesmtp together with the server on the other side.  The code does
not set `smtp_option_require_all_recipients`, so the message is transferred as
soon as one recipient has been accepted, and `smtp_message_transfer_status` is
the status of that transfer.  Before any transfer the status is `0`.  The code
of each recipient is only logged.
-/

namespace Spmfilter

open CString

/-- libesmtp and the remote server, for one delivery. -/
structure Esmtp where
  /-- `smtp_set_reverse_path` succeeds. -/
  setReversePath : Bytes → Bool
  /-- `smtp_add_recipient` succeeds. -/
  addRecipient : Bytes → Bool
  /-- `smtp_start_session` succeeds. -/
  startSession : Bool
  /-- The status of each recipient, by its position in the envelope. -/
  rcptStatus : Nat → Int
  /-- The status of the DATA transfer. -/
  dataStatus : Int

/-- The server takes the recipient at position `i`. -/
def Esmtp.takes (esmtp : Esmtp) (i : Nat) (rcpt : Bytes) : Bool :=
  esmtp.addRecipient rcpt &&
    decide (200 ≤ esmtp.rcptStatus i ∧ esmtp.rcptStatus i < 300)

/-- Every recipient of the envelope, with the answer of the server. -/
def Esmtp.answers (esmtp : Esmtp) (rcpts : List Bytes) : List (Bytes × Bool) :=
  rcpts.mapIdx fun i rcpt => (rcpt, esmtp.takes i rcpt)

/-- `smtp_message_transfer_status`. -/
def Esmtp.transferStatus (esmtp : Esmtp) (rcpts : List Bytes) : Int :=
  if (esmtp.answers rcpts).any Prod.snd then esmtp.dataStatus else 0

/-- `smf_smtp_deliver`: the status code, and what the server said to each
recipient. -/
def smfSmtpDeliver (esmtp : Esmtp) (env : Envelope) (msgFile : Option Bytes)
    (spool : Option Spool) : Int × List (Bytes × Bool) :=
  let failed := (-1, env.recipients.map fun rcpt => (rcpt, false))
  if env.nexthop = none then failed
  else if esmtp.setReversePath (env.sender.getD (ascii "<>")) = false then failed
  else if msgFile ≠ none ∧ spool.isNone then failed
  else if env.recipients = [] then failed
  else if esmtp.startSession = false then failed
  else (esmtp.transferStatus env.recipients, esmtp.answers env.recipients)

section

variable {M : Type} (cmime : Cmime M)

/-- `copy_recipients`: the envelope gets the recipients of the message
headers. -/
def copyRecipients (msg : M) (envelope : Envelope) : Envelope :=
  (cmime.recipients msg).foldl smfEnvelopeAddRcpt envelope

/-- The sender that `smtp_delivery_nexthop` fills in. -/
def fillSender (env : Envelope) : Envelope :=
  if env.sender = none then smfEnvelopeSetSender env (ascii "<>") else env

/-- The recipients and the next hop that it fills in. -/
def fillRecipients (settings : Settings) (msg : M) (env : Envelope) : Envelope :=
  let env := if env.recipients = [] then copyRecipients cmime msg env else env
  if env.nexthop = none then smfEnvelopeSetNexthop env (settings.nexthop.getD []) else env

/-- The delivery itself. -/
def deliverEnvelope (esmtp : Esmtp) (env : Envelope) (w : World M) : Outcome M :=
  let status := smfSmtpDeliver esmtp env w.session.messageFile w.spool
  let retval := if status.1 ≠ 250 then -1 else 0
  ⟨retval, { w with session := { w.session with envelope := env } }, [.nexthop retval status.2]⟩

/-- `smtp_delivery_nexthop`. -/
def smtpDeliveryNexthop (settings : Settings) (esmtp : Esmtp) (w : World M) : Outcome M :=
  let env := fillSender w.session.envelope
  if env.recipients = [] ∧ cmime.recipients w.message.msg = [] then
    ⟨-1, { w with session := { w.session with envelope := env } }, [.nexthop (-1) []]⟩
  else deliverEnvelope esmtp (fillRecipients cmime settings w.message.msg env) w

end

/-- `file_delivery_nexthop`, with `copied` for the success of the copy. -/
def fileDeliveryNexthop {M : Type} (copied : Bool) (w : World M) : Outcome M :=
  let result :=
    if w.session.messageFile ≠ none ∧ w.spool.isNone then -1 else if copied then 0 else -1
  ⟨result, w, [.nexthop result []]⟩

/-- What `smf_nexthop_find` and the next hop functions meet outside. -/
structure NexthopEnv where
  /-- The configured next hop is an existing file that is no directory. -/
  isFile : Bool
  /-- The copy of the spool file to that file succeeds. -/
  copied : Bool
  esmtp : Esmtp

/-- `smf_nexthop_find`. -/
def smfNexthopFind {M : Type} (cmime : Cmime M) (settings : Settings) (env : NexthopEnv) :
    Option (World M → Outcome M) :=
  if settings.nexthop = none then none
  else if env.isFile then some (fileDeliveryNexthop env.copied)
  else some (smtpDeliveryNexthop cmime settings env.esmtp)

end Spmfilter

import Spmfilter.Modules

/-!
# Replies of the SMTP engine

The reply functions of `smf_smtpd.c`, the two callbacks that the engine hands
to the module queue, and `smf_smtpd_process_modules`.

`smf_smtpd_string_reply` takes a format.  Most callers pass a literal format
with its arguments, and their text is written here as it comes out.  Three
callers pass a text they have already printed; that text runs through the
format a second time, which is `Vasprintf.expand`.
-/

namespace Spmfilter

open CString

/-- What one SMTP process is set up with. -/
structure Daemon (M : Type) where
  hostname : Bytes
  settings : Settings
  cmime : Cmime M
  vasprintf : Vasprintf

/-- A line end. -/
def CRLF : Bytes := [CR, LF]

def CODE_221 : Bytes := ascii "221 Goodbye. Please recommend us to others!\r\n"
def CODE_250 : Bytes := ascii "250 OK\r\n"
def CODE_250_ACCEPTED : Bytes := ascii "250 OK message accepted\r\n"
def CODE_451 : Bytes := ascii "451 Requested action aborted: local error in processing\r\n"
def CODE_502 : Bytes := ascii "502 Command not implemented\r\n"
def CODE_552 : Bytes := ascii "552 Requested action aborted: local error in processing\r\n"

/-- The text of `smf_smtpd_code_reply`.  A configured text comes before the
texts above, and a code with neither gets the text of `451`. -/
def smfSmtpdCodeReply (codes : List (Bytes × Bytes)) (code : Int) : Bytes :=
  match codes.lookup (formatInt code) with
  | some msg => formatInt code ++ ascii " " ++ msg ++ CRLF
  | none =>
    if code = 221 then CODE_221
    else if code = 250 then CODE_250
    else if code = 451 then CODE_451
    else if code = 502 then CODE_502
    else if code = 552 then CODE_552
    else CODE_451

/-- `smf_smtpd_string_reply` with a format and no arguments.  Nothing is sent
when the print comes out empty. -/
def smfSmtpdStringReply (p : Vasprintf) (format : Bytes) : List Event :=
  if p.expand format = [] then [] else [.reply (p.expand format)]

section

variable {M : Type} (d : Daemon M)

/-- `smf_smtpd_handle_q_processing_error`. -/
def smfSmtpdHandleQProcessingError (settings : Settings) (session : Session) (retval : Int) :
    Int × List Event :=
  if retval = -1 then
    if settings.moduleFail = 1 then (1, [])
    else if settings.moduleFail = 2 then
      (0, [.reply (smfSmtpdCodeReply settings.smtpCodes 552)])
    else if settings.moduleFail = 3 then
      (0, [.reply (smfSmtpdCodeReply settings.smtpCodes 451)])
    else (0, [])
  else if retval = 1 then
    match session.responseMsg with
    | some msg => (1, smfSmtpdStringReply d.vasprintf (ascii "250 " ++ msg ++ CRLF))
    | none => (1, [.reply CODE_250_ACCEPTED])
  else if retval = 2 then (2, [])
  else
    match session.responseMsg with
    | some msg =>
      (1, smfSmtpdStringReply d.vasprintf (formatInt retval ++ ascii " " ++ msg ++ CRLF))
    | none => (1, [.reply (smfSmtpdCodeReply settings.smtpCodes retval)])

/-- `smf_smtpd_handle_nexthop_error`. -/
def smfSmtpdHandleNexthopError (settings : Settings) (_session : Session) : List Event :=
  smfSmtpdStringReply d.vasprintf
    (formatInt settings.nexthopFailCode ++ ascii " " ++ settings.nexthopFailMsg ++ CRLF)

/-- The queue that `load` sets up for the SMTP engine. -/
def smtpdQueue : ProcessQueue where
  processingError := smfSmtpdHandleQProcessingError d
  nexthopError := smfSmtpdHandleNexthopError d

/-- The text that `smf_smtpd_process_modules` prints at its end. -/
def processedText (session : Session) : Bytes :=
  match session.responseMsg with
  | some msg => ascii "250 " ++ msg ++ CRLF
  | none => ascii "250 Ok: processed as " ++ session.id ++ CRLF

/-- `smf_smtpd_process_modules`. -/
def smfSmtpdProcessModules (env : QueueEnv M) (w : World M) : Outcome M :=
  let out := smfModulesProcess d.cmime (smtpdQueue d) d.settings env w
  if out.ret = -1 then ⟨-1, out.world, out.events⟩
  else if out.ret = 1 then ⟨0, out.world, out.events⟩
  else
    ⟨0, out.world,
      out.events ++ smfSmtpdStringReply d.vasprintf (processedText out.world.session)⟩

end

/-! ## Replies that are always sent -/

/-- A print that starts with literal text is sent. -/
theorem smfSmtpdStringReply_literal (p : Vasprintf) {text : Bytes} (rest : Bytes)
    (hne : text ≠ []) (hlit : PERCENT ∉ text) :
    smfSmtpdStringReply p (text ++ rest) = [.reply (text ++ p.expand rest)] := by
  have hexp := p.literal text rest hlit
  rw [smfSmtpdStringReply, hexp, if_neg]
  intro h
  exact hne (List.append_eq_nil_iff.1 h).1

end Spmfilter

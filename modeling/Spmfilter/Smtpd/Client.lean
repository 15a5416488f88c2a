import Spmfilter.Smtpd.Data

/-!
# The command loop

`smf_smtpd_handle_client`.  One request line is handled by
`smfSmtpdHandleRequest`, which closes the connection, goes on, or calls for the
data of a message.  `clientLoop` reads the lines.

The loop is written over a `Feed`, because `smf_smtpd_process_data` reads the
same socket through a line reader of its own.  `socketFeed` is the feed of the
code: the nested reader starts with an empty buffer, and what it has read ahead
is gone when it is freed.
-/

namespace Spmfilter

open CString

/-- `ST_INIT` to `ST_QUIT`. -/
inductive SmtpState where
  | init
  | helo
  | xfwd
  | mail
  | rcpt
  | data
  | quit
  deriving DecidableEq

/-- The local variables `state` and `session` of `smf_smtpd_handle_client`. -/
structure Client where
  state : SmtpState
  session : Session
  deriving DecidableEq

/-- The variables at the start of a connection. -/
def Client.fresh (sid : Bytes) : Client :=
  { state := .init, session := smfSessionNew sid }

/-- What is left to do after a request line. -/
inductive Verdict where
  /-- Leave the loop. -/
  | close
  /-- Read the next request. -/
  | next (client : Client)
  /-- Call `smf_smtpd_process_data`, then read the next request. -/
  | data (client : Client)

section Request

variable {M : Type} (d : Daemon M) (sid : Bytes) (client : Client) (req : Bytes)

/-- The reply to `HELO`, or to `EHLO`. -/
def heloReply : Bytes :=
  if hasPrefixNoCase req (ascii "ehlo") then
    ascii "250-" ++ d.hostname ++ ascii "\r\n250-XFORWARD ADDR\r\n250 SIZE " ++
      formatInt (truncInt d.settings.maxSize) ++ CRLF
  else ascii "250 " ++ d.hostname ++ CRLF

/-- The `helo` and `ehlo` branch. -/
def handleHelo : Verdict × List Event :=
  let session := if client.state ≠ .init then smfSessionNew sid else client.session
  let value := smfSmtpdGetReqValue req 4
  let session := smfSessionSetHelo session value
  if value = [] then
    (.next { client with session }, [.reply (ascii "501 Syntax: HELO hostname\r\n")])
  else (.next { state := .helo, session }, [.reply (heloReply d req)])

/-- The `xforward` branch. -/
def handleXforward : Verdict × List Event :=
  match (strcasestr req (ascii "ADDR=")).bind fun t => strchr t 61 with
  | some t =>
    (.next { state := .xfwd
             session := smfSessionSetXforwardAddr client.session (smfCoreStrstrip t.tail) },
      [.reply (smfSmtpdCodeReply d.settings.smtpCodes 250)])
  | none =>
    (.next client, [.reply (ascii "501 Syntax: XFORWARD attribute=value...\r\n")])

/-- The `mail from:` branch. -/
def handleMail : Verdict × List Event :=
  if client.state = .mail then
    (.next client, [.reply (ascii "503 Error: nested MAIL command\r\n")])
  else
    let value := smfSmtpdGetReqValue req 10
    if value = [] then
      (.next client, [.reply (ascii "501 Syntax: MAIL FROM:<address>\r\n")])
    else
      let envelope := smfEnvelopeSetSender client.session.envelope value
      (.next { state := .mail, session := { client.session with envelope } },
        [.reply (smfSmtpdCodeReply d.settings.smtpCodes 250)])

/-- The `rcpt to:` branch. -/
def handleRcpt : Verdict × List Event :=
  if client.state ≠ .mail ∧ client.state ≠ .rcpt then
    (.next client, [.reply (ascii "503 Error: need MAIL command\r\n")])
  else
    let value := smfSmtpdGetReqValue req 8
    if value = [] then
      (.next client, [.reply (ascii "501 Syntax: RCPT TO:<address>\r\n")])
    else
      let envelope := smfEnvelopeAddRcpt client.session.envelope value
      (.next { state := .rcpt, session := { client.session with envelope } },
        [.reply (smfSmtpdCodeReply d.settings.smtpCodes 250)])

/-- The `data` branch. -/
def handleData : Verdict × List Event :=
  if client.state ≠ .rcpt ∧ client.state ≠ .mail then
    (.next client, [.reply (ascii "503 Error: need RCPT command\r\n")])
  else if client.state ≠ .rcpt ∧ client.state = .mail then
    (.next client, [.reply (ascii "554 Error: no valid recipients\r\n")])
  else (.data { client with state := .data }, [])

/-- One turn of the loop of `smf_smtpd_handle_client`, from the request line up
to the call of `smf_smtpd_process_data`.  `sid` is the id of a session that the
turn may create. -/
def smfSmtpdHandleRequest : Verdict × List Event :=
  if hasPrefixNoCase req (ascii "quit") then
    (.close, [.reply (smfSmtpdCodeReply d.settings.smtpCodes 221)])
  else if hasPrefixNoCase req (ascii "helo") || hasPrefixNoCase req (ascii "ehlo") then
    handleHelo d sid client req
  else if hasPrefixNoCase req (ascii "xforward") then handleXforward d client req
  else if hasPrefixNoCase req (ascii "mail from:") then handleMail d client req
  else if hasPrefixNoCase req (ascii "rcpt to:") then handleRcpt d client req
  else if hasPrefixNoCase req (ascii "data") then handleData client
  else if hasPrefixNoCase req (ascii "rset") then
    (.next (.fresh sid), [.reply (smfSmtpdCodeReply d.settings.smtpCodes 250)])
  else if hasPrefixNoCase req (ascii "noop") then
    (.next client, [.reply (smfSmtpdCodeReply d.settings.smtpCodes 250)])
  else (.next client, [.reply (ascii "502 Error: command not recognized\r\n")])

end Request

/-- What one turn of the command loop meets outside. -/
structure TurnEnv (M : Type) where
  /-- The id that a new session draws. -/
  sid : Bytes
  data : DataEnv M

section Loop

variable {M R : Type} (d : Daemon M) (feed : Feed UInt8 R) (env : Nat → TurnEnv M)

/-- The loop of `smf_smtpd_handle_client`.  Turn `k` meets `env k`. -/
def clientLoop (k : Nat) (client : Client) (r : R) : List Event :=
  let read := smfInternalReadline feed.toSource MAXLINE r
  if _h : 0 < read.1.ret then
    let req := cstr read.1.buf
    let turn := smfSmtpdHandleRequest d (env k).sid client req
    .command req :: turn.2 ++
      match turn.1 with
      | .close => []
      | .next client => clientLoop (k + 1) client read.2
      | .data client =>
        let result := smfSmtpdProcessData d feed (env k).data client.session read.2
        result.1.events ++
          if result.1.alive then
            clientLoop (k + 1) { client with session := result.1.session } result.2
          else []
  else []
termination_by feed.size r
decreasing_by
  all_goals
    have hread := smfInternalReadline_size_lt feed.toSource (by decide) _h
  · exact hread
  · exact Nat.lt_of_le_of_lt (smfSmtpdProcessData_size d feed _ _ _) hread

/-- `smf_smtpd_handle_client` on a connection whose first session has the id
`sid`. -/
def smfSmtpdHandleClient (sid : Bytes) (r : R) : List Event :=
  .reply (ascii "220 " ++ d.hostname ++ ascii " spmfilter\r\n") ::
    clientLoop d feed env 0 (.fresh sid) r

end Loop

/-- The socket as the code reads it: `smf_smtpd_process_data` starts with an
empty buffer of its own, and the buffer of the command loop stays as it was. -/
def socketFeed : Feed UInt8 (ReadlineT × Socket) where
  toSource := socketSource
  enter := fun r => ({}, r.2)
  leave := fun r r' => (r.1, r'.2)
  size_leave := by
    intro r r' h
    obtain ⟨rl, sock⟩ := r
    obtain ⟨rl', sock'⟩ := r'
    simp only [socketSource, List.length_nil] at h ⊢
    omega

end Spmfilter

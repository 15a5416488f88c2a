import Spmfilter.Lib.Machine
import Spmfilter.Smtpd.Client
import Spmfilter.Smtpd.DataLoop

/-!
# The session as a machine

A session over a byte stream is hard to reason about, because the stream
decides where the DATA loop ends and the command loop goes on.  `smtpdMachine`
takes one command at a time and is told what the DATA loop would read.

* `smfSmtpdHandleRequest_eq` names the branch that a line takes.
* `Turned` lists what a command that leaves the connection open can do.
* `smfSmtpdProcessData_map` replaces the reader of the DATA phase by the stream
  that it holds.
* `smfSmtpdHandleClient_run` shows that every session is a run of the machine.
-/

namespace Spmfilter

open CString

/-! ## The branches of the command loop -/

/-- The branch of `smf_smtpd_handle_client` that a request takes. -/
inductive Command where
  | quit
  | helo
  | xforward
  | mail
  | rcpt
  | data
  | rset
  | noop
  | unknown
  deriving DecidableEq

/-- The branch of a request line. -/
def commandOf (req : Bytes) : Command :=
  if hasPrefixNoCase req (ascii "quit") then .quit
  else if hasPrefixNoCase req (ascii "helo") || hasPrefixNoCase req (ascii "ehlo") then .helo
  else if hasPrefixNoCase req (ascii "xforward") then .xforward
  else if hasPrefixNoCase req (ascii "mail from:") then .mail
  else if hasPrefixNoCase req (ascii "rcpt to:") then .rcpt
  else if hasPrefixNoCase req (ascii "data") then .data
  else if hasPrefixNoCase req (ascii "rset") then .rset
  else if hasPrefixNoCase req (ascii "noop") then .noop
  else .unknown

section Request

variable {M : Type} (d : Daemon M) (sid : Bytes) (client : Client) (req : Bytes)

/-- The answer to a request line, branch by branch. -/
theorem smfSmtpdHandleRequest_eq :
    smfSmtpdHandleRequest d sid client req =
      match commandOf req with
      | .quit => (.close, [.reply (smfSmtpdCodeReply d.settings.smtpCodes 221)])
      | .helo => handleHelo d sid client req
      | .xforward => handleXforward d client req
      | .mail => handleMail d client req
      | .rcpt => handleRcpt d client req
      | .data => handleData client
      | .rset =>
        (.next (.fresh sid), [.reply (smfSmtpdCodeReply d.settings.smtpCodes 250)])
      | .noop => (.next client, [.reply (smfSmtpdCodeReply d.settings.smtpCodes 250)])
      | .unknown =>
        (.next client, [.reply (ascii "502 Error: command not recognized\r\n")]) := by
  unfold smfSmtpdHandleRequest commandOf
  by_cases hquit : hasPrefixNoCase req (ascii "quit") = true
  · rw [if_pos hquit, if_pos hquit]
  rw [if_neg hquit, if_neg hquit]
  by_cases hhelo : (hasPrefixNoCase req (ascii "helo") || hasPrefixNoCase req (ascii "ehlo")) = true
  · rw [if_pos hhelo, if_pos hhelo]
  rw [if_neg hhelo, if_neg hhelo]
  by_cases hxforward : hasPrefixNoCase req (ascii "xforward") = true
  · rw [if_pos hxforward, if_pos hxforward]
  rw [if_neg hxforward, if_neg hxforward]
  by_cases hmail : hasPrefixNoCase req (ascii "mail from:") = true
  · rw [if_pos hmail, if_pos hmail]
  rw [if_neg hmail, if_neg hmail]
  by_cases hrcpt : hasPrefixNoCase req (ascii "rcpt to:") = true
  · rw [if_pos hrcpt, if_pos hrcpt]
  rw [if_neg hrcpt, if_neg hrcpt]
  by_cases hdata : hasPrefixNoCase req (ascii "data") = true
  · rw [if_pos hdata, if_pos hdata]
  rw [if_neg hdata, if_neg hdata]
  by_cases hrset : hasPrefixNoCase req (ascii "rset") = true
  · rw [if_pos hrset, if_pos hrset]
  rw [if_neg hrset, if_neg hrset]
  by_cases hnoop : hasPrefixNoCase req (ascii "noop") = true
  · rw [if_pos hnoop, if_pos hnoop]
  rw [if_neg hnoop, if_neg hnoop]

/-- The session that `HELO` starts from. -/
def heloSession : Session :=
  if client.state ≠ .init then smfSessionNew sid else client.session

theorem heloSession_init {client : Client} (h : client.state = .init) :
    heloSession sid client = client.session := by
  rw [heloSession, if_neg (fun hne => hne h)]

theorem heloSession_of_ne {client : Client} (h : client.state ≠ .init) :
    heloSession sid client = smfSessionNew sid := by
  rw [heloSession, if_pos h]

/-- A `HELO` without an argument changes the session but not the state. -/
theorem handleHelo_cases :
    smfSmtpdGetReqValue req 4 = [] ∧
        handleHelo d sid client req =
          (.next { client with session := smfSessionSetHelo (heloSession sid client) [] },
            [.reply (ascii "501 Syntax: HELO hostname\r\n")]) ∨
      smfSmtpdGetReqValue req 4 ≠ [] ∧
        handleHelo d sid client req =
          (.next { state := .helo
                   session :=
                     smfSessionSetHelo (heloSession sid client) (smfSmtpdGetReqValue req 4) },
            [.reply (heloReply d req)]) := by
  unfold handleHelo heloSession
  by_cases hvalue : smfSmtpdGetReqValue req 4 = []
  · refine Or.inl ⟨hvalue, ?_⟩
    rw [hvalue, if_pos rfl]
  · refine Or.inr ⟨hvalue, ?_⟩
    rw [if_neg hvalue]

/-- `XFORWARD` leaves the session as it was, or sets one field of it. -/
theorem handleXforward_cases :
    (∃ addr, handleXforward d client req =
        (.next { state := .xfwd, session := smfSessionSetXforwardAddr client.session addr },
          [.reply (smfSmtpdCodeReply d.settings.smtpCodes 250)])) ∨
      handleXforward d client req =
        (.next client, [.reply (ascii "501 Syntax: XFORWARD attribute=value...\r\n")]) := by
  unfold handleXforward
  cases (strcasestr req (ascii "ADDR=")).bind fun t => strchr t 61 with
  | none => exact Or.inr rfl
  | some t => exact Or.inl ⟨_, rfl⟩

/-- `MAIL FROM` is accepted with an argument, in every state but `ST_MAIL`. -/
theorem handleMail_cases :
    client.state ≠ .mail ∧ smfSmtpdGetReqValue req 10 ≠ [] ∧
        handleMail d client req =
          (.next { state := .mail
                   session :=
                     { client.session with
                       envelope := smfEnvelopeSetSender client.session.envelope
                         (smfSmtpdGetReqValue req 10) } },
            [.reply (smfSmtpdCodeReply d.settings.smtpCodes 250)]) ∨
      ∃ text, hasPrefix text (ascii "250") = false ∧
        handleMail d client req = (.next client, [.reply text]) := by
  unfold handleMail
  by_cases hstate : client.state = .mail
  · refine Or.inr ⟨ascii "503 Error: nested MAIL command\r\n", by decide, ?_⟩
    rw [if_pos hstate]
  · by_cases hvalue : smfSmtpdGetReqValue req 10 = []
    · refine Or.inr ⟨ascii "501 Syntax: MAIL FROM:<address>\r\n", by decide, ?_⟩
      rw [if_neg hstate, if_pos hvalue]
    · refine Or.inl ⟨hstate, hvalue, ?_⟩
      rw [if_neg hstate, if_neg hvalue]

/-- `RCPT TO` is accepted with an argument, in `ST_MAIL` and `ST_RCPT`. -/
theorem handleRcpt_cases :
    (client.state = .mail ∨ client.state = .rcpt) ∧ smfSmtpdGetReqValue req 8 ≠ [] ∧
        handleRcpt d client req =
          (.next { state := .rcpt
                   session :=
                     { client.session with
                       envelope := smfEnvelopeAddRcpt client.session.envelope
                         (smfSmtpdGetReqValue req 8) } },
            [.reply (smfSmtpdCodeReply d.settings.smtpCodes 250)]) ∨
      ∃ text, hasPrefix text (ascii "250") = false ∧
        handleRcpt d client req = (.next client, [.reply text]) := by
  unfold handleRcpt
  by_cases hstate : client.state ≠ .mail ∧ client.state ≠ .rcpt
  · refine Or.inr ⟨ascii "503 Error: need MAIL command\r\n", by decide, ?_⟩
    rw [if_pos hstate]
  · by_cases hvalue : smfSmtpdGetReqValue req 8 = []
    · refine Or.inr ⟨ascii "501 Syntax: RCPT TO:<address>\r\n", by decide, ?_⟩
      rw [if_neg hstate, if_pos hvalue]
    · have hopen : client.state = .mail ∨ client.state = .rcpt := by
        by_contra hne
        exact hstate (not_or.1 hne)
      refine Or.inl ⟨hopen, hvalue, ?_⟩
      rw [if_neg hstate, if_neg hvalue]

/-- `DATA` is accepted in the state `ST_RCPT` alone. -/
theorem handleData_cases :
    client.state = .rcpt ∧ handleData client = (.data { client with state := .data }, []) ∨
      client.state ≠ .rcpt ∧ ∃ text, handleData client = (.next client, [.reply text]) := by
  unfold handleData
  by_cases hrcpt : client.state = .rcpt
  · refine Or.inl ⟨hrcpt, ?_⟩
    rw [if_neg (fun h => h.1 hrcpt), if_neg (fun h => h.1 hrcpt)]
  · refine Or.inr ⟨hrcpt, ?_⟩
    by_cases hmail : client.state = .mail
    · exact ⟨_, by rw [if_neg (fun h => h.2 hmail), if_pos ⟨hrcpt, hmail⟩]⟩
    · exact ⟨_, by rw [if_pos ⟨hrcpt, hmail⟩]⟩

/-- Only a `DATA` in the state `ST_RCPT` calls for data. -/
theorem verdict_data {next : Client}
    (h : (smfSmtpdHandleRequest d sid client req).1 = .data next) :
    commandOf req = .data ∧ client.state = .rcpt ∧ next = { client with state := .data } := by
  rw [smfSmtpdHandleRequest_eq] at h
  cases hreq : commandOf req <;> rw [hreq] at h <;> dsimp only at h
  case data =>
    rcases handleData_cases client with ⟨hstate, heq⟩ | ⟨_, text, heq⟩
    · rw [heq] at h
      exact ⟨rfl, hstate, (Verdict.data.inj h).symm⟩
    · rw [heq] at h
      cases h
  case helo =>
    rcases handleHelo_cases d sid client req with ⟨_, heq⟩ | ⟨_, heq⟩ <;> rw [heq] at h <;> cases h
  case xforward =>
    rcases handleXforward_cases d client req with ⟨_, heq⟩ | heq <;> rw [heq] at h <;> cases h
  case mail =>
    rcases handleMail_cases d client req with ⟨_, _, heq⟩ | ⟨_, _, heq⟩ <;>
      rw [heq] at h <;> cases h
  case rcpt =>
    rcases handleRcpt_cases d client req with ⟨_, _, heq⟩ | ⟨_, _, heq⟩ <;>
      rw [heq] at h <;> cases h
  all_goals cases h

end Request

/-! ## The machine -/

/-- One command of a session. -/
structure Request (M : Type) where
  /-- The request line. -/
  line : Bytes
  /-- The stream that the DATA loop finds, when the request is an accepted
  `DATA`. -/
  wire : Wire
  env : TurnEnv M

section Machine

variable {M : Type} (d : Daemon M)

/-- The DATA phase of a request. -/
def requestData (session : Session) (q : Request M) : DataResult :=
  (smfSmtpdProcessData d (Feed.tokens UInt8) q.env.data session q.wire).1

/-- One command. -/
def smtpdStep (client : Client) (q : Request M) : Option Client × List Event :=
  let turn := smfSmtpdHandleRequest d q.env.sid client q.line
  match turn.1 with
  | .close => (none, .command q.line :: turn.2)
  | .next client => (some client, .command q.line :: turn.2)
  | .data client =>
    let result := requestData d client.session q
    (if result.alive then some { client with session := result.session } else none,
      .command q.line :: turn.2 ++ result.events)

/-- The session, one command at a time. -/
def smtpdMachine : Machine Client (Request M) Event where
  step := smtpdStep d

variable {client next : Client} {q : Request M} {out : List Event}

theorem smtpdStep_close (h : smfSmtpdHandleRequest d q.env.sid client q.line = (.close, out)) :
    (smtpdMachine d).step client q = (none, .command q.line :: out) := by
  show smtpdStep d client q = _
  rw [smtpdStep, h]

theorem smtpdStep_next
    (h : smfSmtpdHandleRequest d q.env.sid client q.line = (.next next, out)) :
    (smtpdMachine d).step client q = (some next, .command q.line :: out) := by
  show smtpdStep d client q = _
  rw [smtpdStep, h]

theorem smtpdStep_data
    (h : smfSmtpdHandleRequest d q.env.sid client q.line = (.data next, out)) :
    (smtpdMachine d).step client q =
      (if (requestData d next.session q).alive then
          some { next with session := (requestData d next.session q).session } else none,
        .command q.line :: out ++ (requestData d next.session q).events) := by
  show smtpdStep d client q = _
  rw [smtpdStep, h]

/-- What one command does to the client.  `out` is what follows the command
itself. -/
inductive Turned (client : Client) (q : Request M) : Client → List Event → Prop where
  /-- Only a reply is sent.  A `MAIL FROM` or `RCPT TO` was refused. -/
  | same (text : Bytes) (hhelo : commandOf q.line ≠ .helo)
      (hrefused : commandOf q.line = .mail ∨ commandOf q.line = .rcpt →
        hasPrefix text (ascii "250") = false) :
      Turned client q client [.reply text]
  | bareHelo (hreq : commandOf q.line = .helo) (hvalue : smfSmtpdGetReqValue q.line 4 = []) :
      Turned client q
        { client with session := smfSessionSetHelo (heloSession q.env.sid client) [] }
        [.reply (ascii "501 Syntax: HELO hostname\r\n")]
  | helo (hreq : commandOf q.line = .helo) (hvalue : smfSmtpdGetReqValue q.line 4 ≠ []) :
      Turned client q
        { state := .helo
          session :=
            smfSessionSetHelo (heloSession q.env.sid client) (smfSmtpdGetReqValue q.line 4) }
        [.reply (heloReply d q.line)]
  | xforward (hreq : commandOf q.line = .xforward) (addr : Bytes) :
      Turned client q
        { state := .xfwd, session := smfSessionSetXforwardAddr client.session addr }
        [.reply (smfSmtpdCodeReply d.settings.smtpCodes 250)]
  | mail (hreq : commandOf q.line = .mail) (hstate : client.state ≠ .mail) :
      Turned client q
        { state := .mail
          session :=
            { client.session with
              envelope := smfEnvelopeSetSender client.session.envelope
                (smfSmtpdGetReqValue q.line 10) } }
        [.reply (smfSmtpdCodeReply d.settings.smtpCodes 250)]
  | rcpt (hreq : commandOf q.line = .rcpt)
      (hstate : client.state = .mail ∨ client.state = .rcpt) :
      Turned client q
        { state := .rcpt
          session :=
            { client.session with
              envelope := smfEnvelopeAddRcpt client.session.envelope
                (smfSmtpdGetReqValue q.line 8) } }
        [.reply (smfSmtpdCodeReply d.settings.smtpCodes 250)]
  | rset (hreq : commandOf q.line = .rset) :
      Turned client q (.fresh q.env.sid) [.reply (smfSmtpdCodeReply d.settings.smtpCodes 250)]
  | data (hreq : commandOf q.line = .data) (hstate : client.state = .rcpt) :
      Turned client q
        { state := .data, session := (requestData d client.session q).session }
        (requestData d client.session q).events

/-- Every command that leaves the connection open does one of these. -/
theorem smtpdStep_turned (h : ((smtpdMachine d).step client q).1 = some next) :
    ∃ out, (smtpdMachine d).step client q = (some next, .command q.line :: out) ∧
      Turned d client q next out := by
  rcases hturn : smfSmtpdHandleRequest d q.env.sid client q.line with ⟨_ | turn | turn, out⟩
  · rw [smtpdStep_close d hturn] at h
    cases h
  · rw [smtpdStep_next d hturn] at h ⊢
    obtain rfl : turn = next := Option.some.inj h
    refine ⟨out, rfl, ?_⟩
    rw [smfSmtpdHandleRequest_eq] at hturn
    cases hreq : commandOf q.line <;> rw [hreq] at hturn <;> dsimp only at hturn
    case quit => cases hturn
    case helo =>
      rcases handleHelo_cases d q.env.sid client q.line with ⟨hvalue, heq⟩ | ⟨hvalue, heq⟩ <;>
        rw [heq] at hturn <;> cases hturn
      · exact .bareHelo hreq hvalue
      · exact .helo hreq hvalue
    case xforward =>
      rcases handleXforward_cases d client q.line with ⟨addr, heq⟩ | heq <;>
        rw [heq] at hturn <;> cases hturn
      · exact .xforward hreq addr
      · exact .same _ (by simp [hreq]) (by simp [hreq])
    case mail =>
      rcases handleMail_cases d client q.line with ⟨hstate, _, heq⟩ | ⟨text, htext, heq⟩ <;>
        rw [heq] at hturn <;> cases hturn
      · exact .mail hreq hstate
      · exact .same _ (by simp [hreq]) (fun _ => htext)
    case rcpt =>
      rcases handleRcpt_cases d client q.line with ⟨hstate, _, heq⟩ | ⟨text, htext, heq⟩ <;>
        rw [heq] at hturn <;> cases hturn
      · exact .rcpt hreq hstate
      · exact .same _ (by simp [hreq]) (fun _ => htext)
    case data =>
      rcases handleData_cases client with ⟨_, heq⟩ | ⟨_, text, heq⟩ <;>
        rw [heq] at hturn <;> cases hturn
      exact .same _ (by simp [hreq]) (by simp [hreq])
    case rset => cases hturn; exact .rset hreq
    case noop => cases hturn; exact .same _ (by simp [hreq]) (by simp [hreq])
    case unknown => cases hturn; exact .same _ (by simp [hreq]) (by simp [hreq])
  · obtain ⟨hreq, hstate, rfl⟩ := verdict_data d q.env.sid client q.line (by rw [hturn])
    have hout : out = [] := by
      rw [smfSmtpdHandleRequest_eq, hreq] at hturn
      rcases handleData_cases client with ⟨_, heq⟩ | ⟨hne, _⟩
      · cases heq.symm.trans hturn
        rfl
      · exact absurd hstate hne
    rw [smtpdStep_data d hturn] at h ⊢
    split at h
    · rename_i halive
      obtain rfl := Option.some.inj h
      refine ⟨_, ?_, .data hreq hstate⟩
      rw [if_pos halive, hout]
      rfl
    · cases h

end Machine

/-! ## A plain daemon

A daemon without modules and next hop, on a system where every call succeeds.
Concrete runs start from it. -/

def Daemon.plain : Daemon Bytes where
  hostname := ascii "mx"
  settings := { modules := [] }
  cmime := plainCmime
  vasprintf := .verbatim

/-- A server that takes every recipient and the message. -/
def Esmtp.accepting : Esmtp where
  setReversePath := fun _ => true
  addRecipient := fun _ => true
  startSession := true
  rcptStatus := fun _ => 250
  dataStatus := 250

def DataEnv.plain : DataEnv Bytes where
  queueFile := .made (ascii "/q/1")
  openSpool := true
  appendIo := .done
  appendTmp := ascii "/q/2"
  messageId := ascii "<1@mx>"
  date := ascii "Thu, 01 Jan 1970 00:00:00 +0000 (UTC)"
  mtime := 0
  queue :=
    { queryUser := fun _ => none
      runs := fun _ => none
      flushIo := .done
      flushTmp := ascii "/q/3"
      nexthop := { isFile := false, copied := false, esmtp := .accepting } }

/-- A request on the plain daemon. -/
def Request.plain (line : String) : Request Bytes where
  line := ascii line
  wire := []
  env := { sid := ascii "s1", data := .plain }

/-- A plain daemon with a limit of four bytes. -/
def tightDaemon : Daemon Bytes :=
  { Daemon.plain with settings := { maxSize := 4 } }

/-- A daemon that hands messages on to a server. -/
def relayDaemon : Daemon Bytes :=
  { Daemon.plain with settings := { nexthop := some (ascii "mta:25") } }

/-- `DATA`, with the message that follows. -/
def dataRequest (message : String) : Request Bytes :=
  { Request.plain "DATA\r\n" with wire := bytesWire (ascii message ++ [DOT, CR, LF]) }

/-- A client that has sent one sender and one recipient. -/
def openClient : Client where
  state := .rcpt
  session :=
    { id := ascii "s0"
      envelope := { sender := some (ascii "a"), recipients := [ascii "b"] } }

/-- One chunk of bytes on a socket. -/
def chunkSocket (bytes : Bytes) (hne : bytes ≠ []) (hfits : bytes.length ≤ BUFSIZE) :
    ReadlineT × Socket :=
  ({}, [.data bytes hne hfits])

/-- The loop on a message of one line that comes with its dot line in one chunk. -/
theorem dataLoop_oneLine (line : Bytes) (hlf : LF ∉ line) (hlen : line.length < MAXLINE - 1)
    (hdot : isDotLine (line ++ [LF]) = false) (st : DataState)
    (hne : line ++ [LF] ++ [DOT, CR, LF] ≠ [])
    (hfits : (line ++ [LF] ++ [DOT, CR, LF]).length ≤ BUFSIZE) :
    (dataLoop socketSource st (chunkSocket (line ++ [LF] ++ [DOT, CR, LF]) hne hfits)).state =
        spoolPiece st (line ++ [LF]) ∧
      (dataLoop socketSource st (chunkSocket (line ++ [LF] ++ [DOT, CR, LF]) hne hfits)).br =
        3 := by
  have hpieces : ∀ p ∈ [line ++ [LF]] ++ [DOT, CR, LF] :: [], IsPiece p := by
    intro p hp
    rcases List.mem_cons.mp hp with rfl | hp
    · exact .line line hlf hlen
    · rw [List.mem_singleton.mp hp]
      exact .line [DOT, CR] (by decide) (by decide)
  have hfirst : ∀ p ∈ [line ++ [LF]], isDotLine p = false := by
    intro p hp
    rw [List.mem_singleton.mp hp]
    exact hdot
  have hloop := dataLoop_map socketSource_hom st
    (chunkSocket (line ++ [LF] ++ [DOT, CR, LF]) hne hfits)
  have hwire : wireOf (chunkSocket (line ++ [LF] ++ [DOT, CR, LF]) hne hfits) =
      bytesWire ([line ++ [LF]] ++ [DOT, CR, LF] :: []).flatten ++ [] := by
    simp [chunkSocket, wireOf, Socket.wire, bytesWire]
  rw [hwire, dataLoop_firstDot st [] hpieces hfirst (by decide)] at hloop
  exact ⟨(congrArg DataLoopResult.state hloop).symm, (congrArg DataLoopResult.br hloop).symm⟩

/-! ## Every session is a run -/

section Session

variable {M R : Type} (d : Daemon M) (feed : Feed UInt8 R) {f : R → Wire}

/-- `smf_smtpd_process_data` does the same over the stream that its reader
holds. -/
theorem smfSmtpdProcessData_map (h : Source.Hom feed.toSource (Source.tokens UInt8) f)
    (env : DataEnv M) (session : Session) (r : R) :
    (smfSmtpdProcessData d (Feed.tokens UInt8) env session (f (feed.enter r))).1 =
      (smfSmtpdProcessData d feed env session r).1 := by
  unfold smfSmtpdProcessData
  rcases processDataOpen d env session with ⟨_ | session', events⟩
  · rfl
  · have hloop := dataLoop_map h { messageSize := session'.messageSize } (feed.enter r)
    dsimp only [Feed.tokens, id]
    rw [hloop]

variable (env : Nat → TurnEnv M)

/-- The command loop ends with the stream. -/
theorem clientLoop_end (k : Nat) (client : Client) {r : R}
    (h : (smfInternalReadline feed.toSource MAXLINE r).1.ret ≤ 0) :
    clientLoop d feed env k client r = [] := by
  rw [clientLoop, dif_neg (by omega)]

section Turn

variable {env} {k : Nat} {client next : Client} {r : R} {out : List Event}

/-- A turn that closes the connection. -/
theorem clientLoop_close (hret : 0 < (smfInternalReadline feed.toSource MAXLINE r).1.ret)
    (hturn : smfSmtpdHandleRequest d (env k).sid client
      (cstr (smfInternalReadline feed.toSource MAXLINE r).1.buf) = (.close, out)) :
    clientLoop d feed env k client r =
      .command (cstr (smfInternalReadline feed.toSource MAXLINE r).1.buf) :: out := by
  rw [clientLoop, dif_pos hret]
  simp only [hturn, List.append_nil]

/-- A turn that goes on. -/
theorem clientLoop_next (hret : 0 < (smfInternalReadline feed.toSource MAXLINE r).1.ret)
    (hturn : smfSmtpdHandleRequest d (env k).sid client
      (cstr (smfInternalReadline feed.toSource MAXLINE r).1.buf) = (.next next, out)) :
    clientLoop d feed env k client r =
      .command (cstr (smfInternalReadline feed.toSource MAXLINE r).1.buf) :: out ++
        clientLoop d feed env (k + 1) next (smfInternalReadline feed.toSource MAXLINE r).2 := by
  rw [clientLoop, dif_pos hret]
  simp only [hturn]

/-- A turn that calls for data. -/
theorem clientLoop_data (hret : 0 < (smfInternalReadline feed.toSource MAXLINE r).1.ret)
    (hturn : smfSmtpdHandleRequest d (env k).sid client
      (cstr (smfInternalReadline feed.toSource MAXLINE r).1.buf) = (.data next, out))
    {result : DataResult × R}
    (hresult : smfSmtpdProcessData d feed (env k).data next.session
      (smfInternalReadline feed.toSource MAXLINE r).2 = result) :
    clientLoop d feed env k client r =
      .command (cstr (smfInternalReadline feed.toSource MAXLINE r).1.buf) :: out ++
        (result.1.events ++
          if result.1.alive then
            clientLoop d feed env (k + 1) { next with session := result.1.session } result.2
          else []) := by
  rw [clientLoop, dif_pos hret]
  simp only [hturn, hresult]

end Turn

/-- The command loop is a run of the machine. -/
theorem clientLoop_run (h : Source.Hom feed.toSource (Source.tokens UInt8) f) (k : Nat)
    (client : Client) (r : R) :
    ∃ requests : List (Request M),
      clientLoop d feed env k client r = ((smtpdMachine d).run client requests).2 ∧
        ∀ i q, requests[i]? = some q → q.env = env (k + i) := by
  -- induction on what the reader still holds
  obtain ⟨n, hn⟩ : ∃ n, feed.size r < n := ⟨_, Nat.lt_succ_self _⟩
  induction n generalizing k client r with
  | zero => omega
  | succ n ih =>
    by_cases hret : 0 < (smfInternalReadline feed.toSource MAXLINE r).1.ret
    · let r' := (smfInternalReadline feed.toSource MAXLINE r).2
      have hlt : feed.size r' < n :=
        Nat.lt_of_lt_of_le (smfInternalReadline_size_lt feed.toSource (by decide) hret)
          (Nat.le_of_lt_succ hn)
      let q : Request M :=
        ⟨cstr (smfInternalReadline feed.toSource MAXLINE r).1.buf, f (feed.enter r'), env k⟩
      have hcons : ∀ requests : List (Request M),
          (∀ i q, requests[i]? = some q → q.env = env (k + 1 + i)) →
            ∀ i q', (q :: requests)[i]? = some q' → q'.env = env (k + i) := by
        intro requests hrest i q' hq'
        cases i with
        | zero =>
          rw [List.getElem?_cons_zero, Option.some.injEq] at hq'
          rw [← hq']
          rfl
        | succ i =>
          rw [List.getElem?_cons_succ] at hq'
          rw [hrest i q' hq']
          congr 1
          omega
      rcases hturn : smfSmtpdHandleRequest d (env k).sid client q.line with
        ⟨_ | next | next, out⟩
      · refine ⟨[q], ?_, hcons [] (by simp)⟩
        rw [clientLoop_close d feed hret hturn,
          (smtpdMachine d).run_cons_none (smtpdStep_close d hturn)]
      · obtain ⟨requests, hrun, henv⟩ := ih (k + 1) next r' hlt
        refine ⟨q :: requests, ?_, hcons requests henv⟩
        rw [clientLoop_next d feed hret hturn,
          (smtpdMachine d).run_cons_some (smtpdStep_next d hturn), ← hrun]
      · have hdata : requestData d next.session q =
            (smfSmtpdProcessData d feed (env k).data next.session r').1 :=
          smfSmtpdProcessData_map d feed h (env k).data next.session r'
        have hsize := smfSmtpdProcessData_size d feed (env k).data next.session r'
        have hstep := smtpdStep_data d hturn
        rw [hdata] at hstep
        rw [clientLoop_data d feed hret hturn rfl]
        by_cases halive :
            (smfSmtpdProcessData d feed (env k).data next.session r').1.alive = true
        · obtain ⟨requests, hrun, henv⟩ := ih (k + 1)
            ⟨next.state, (smfSmtpdProcessData d feed (env k).data next.session r').1.session⟩
            (smfSmtpdProcessData d feed (env k).data next.session r').2
            (Nat.lt_of_le_of_lt hsize hlt)
          rw [if_pos halive] at hstep ⊢
          refine ⟨q :: requests, ?_, hcons requests henv⟩
          rw [(smtpdMachine d).run_cons_some hstep, ← hrun, List.append_assoc]
        · rw [if_neg halive] at hstep ⊢
          refine ⟨[q], ?_, hcons [] (by simp)⟩
          rw [(smtpdMachine d).run_cons_none hstep, List.append_nil]
    · refine ⟨[], ?_, by simp⟩
      rw [clientLoop_end d feed env k client (by omega)]
      rfl

/-- Every session is a run of the machine, behind the greeting. -/
theorem smfSmtpdHandleClient_run (h : Source.Hom feed.toSource (Source.tokens UInt8) f)
    (sid : Bytes) (r : R) :
    ∃ requests : List (Request M),
      smfSmtpdHandleClient d feed env sid r =
          .reply (ascii "220 " ++ d.hostname ++ ascii " spmfilter\r\n") ::
            ((smtpdMachine d).run (.fresh sid) requests).2 ∧
        ∀ i q, requests[i]? = some q → q.env = env i := by
  obtain ⟨requests, hrun, henv⟩ := clientLoop_run d feed env h 0 (.fresh sid) r
  refine ⟨requests, ?_, fun i q hq => ?_⟩
  · rw [smfSmtpdHandleClient, hrun]
  · have := henv i q hq
    rwa [Nat.zero_add] at this

end Session

end Spmfilter

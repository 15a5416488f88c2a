import Spmfilter.Core
import Spmfilter.Smtpd.Reply

/-!
# The DATA phase

`smf_smtpd_process_data` and the functions it calls.  It has three parts.

* `processDataOpen` makes the spool file and sends the `354` reply.
* `dataLoop` reads lines through a line reader of its own until a dot line, the
  end of the stream or a read error, and spools them.
* `processDataFinish` completes the headers, checks the size, parses the spool
  file and runs the module queue.  It does not learn how the loop has ended.

The loop is written over any source of bytes.
-/

namespace Spmfilter

open CString

/-- What `smf_core_gen_queue_file` gives.  Its return value is not looked at. -/
inductive QueueFile where
  | noPath
  | mkstempFailed (path : Bytes)
  | made (path : Bytes)

/-- How far `smf_smtpd_append_missing_headers` gets. -/
inductive AppendIo where
  | mkstemp
  | openNew
  | write
  | openOld
  | unlink
  | rename
  | done
  deriving DecidableEq

/-- What one call of `smf_smtpd_process_data` meets outside. -/
structure DataEnv (M : Type) where
  queueFile : QueueFile
  /-- `fopen` of the spool file succeeds. -/
  openSpool : Bool
  appendIo : AppendIo
  /-- The name of the temporary file of `smf_smtpd_append_missing_headers`. -/
  appendTmp : Bytes
  /-- The result of `smf_message_generate_message_id`. -/
  messageId : Bytes
  /-- The date that `strftime` prints. -/
  date : Bytes
  /-- The time of the last change of the spool file before the queue runs. -/
  mtime : Nat
  queue : QueueEnv M

/-- The local variables of `smf_smtpd_process_data` that its loop changes, with
the content of the spool file and `session->message_size`. -/
structure DataState where
  foundMid : Bool := false
  foundTo : Bool := false
  foundFrom : Bool := false
  foundDate : Bool := false
  foundHeader : Bool := false
  inHeader : Bool := true
  nl : Option Bytes := none
  spool : Bytes := []
  messageSize : Nat := 0
  deriving DecidableEq

/-- `smf_smtpd_stuffing`: the first dot of the string is taken out. -/
def smfSmtpdStuffing : Bytes → Bytes
  | [] => []
  | b :: chain => if b ≠ DOT then b :: smfSmtpdStuffing chain else chain

/-- `smf_smtpd_get_req_value`. -/
def smfSmtpdGetReqValue (req : Bytes) (jmp : Nat) : Bytes :=
  let p := req.drop jmp
  smfCoreStrstrip (if p.head? = some 32 then p.tail else p)

/-! ## The loop -/

/-- The test that leaves the loop. -/
def isDotLine (buf : Bytes) : Bool :=
  hasPrefixNoCase (cstr buf) [DOT, CR, LF] || hasPrefixNoCase (cstr buf) [DOT, LF]

/-- The text of a buffer that goes to the spool file. -/
def dataText (buf : Bytes) : Bytes :=
  if hasPrefixNoCase (cstr buf) [DOT] then smfSmtpdStuffing (cstr buf) else cstr buf

/-- One turn of the loop after the tests for a dot.  The pattern
`[A-Za-z0-9\\._-]*:.*` matches every text with a colon. -/
def dataLine (st : DataState) (br : Int) (buf : Bytes) : DataState :=
  let text := dataText buf
  { foundMid := st.foundMid || st.inHeader && hasPrefixNoCase text (ascii "Message-ID:")
    foundDate := st.foundDate || hasPrefixNoCase text (ascii "Date:") && st.inHeader
    foundTo := st.foundTo || hasPrefixNoCase text (ascii "To:") && st.inHeader
    foundFrom := st.foundFrom || hasPrefixNoCase text (ascii "From:") && st.inHeader
    nl := if st.nl = none then smfInternalDetermineLinebreak text else st.nl
    inHeader :=
      st.inHeader && !(hasPrefix text [LF] || hasPrefix text [CR, LF] || hasPrefix text [CR])
    foundHeader := st.foundHeader || (strchr text 58).isSome
    spool := st.spool ++ text
    messageSize := st.messageSize + br.toNat }

/-- How the loop was left: its variables, the last result of the reader, and
the reader.  `br` is positive exactly after a dot line. -/
structure DataLoopResult (R : Type) where
  state : DataState
  br : Int
  reader : R

/-- The loop of `smf_smtpd_process_data`. -/
def dataLoop {R : Type} (src : Source UInt8 R) (st : DataState) (r : R) : DataLoopResult R :=
  let read := smfInternalReadline src MAXLINE r
  if _h : 0 < read.1.ret then
    if isDotLine read.1.buf then ⟨st, read.1.ret, read.2⟩
    else dataLoop src (dataLine st read.1.ret read.1.buf) read.2
  else ⟨st, read.1.ret, read.2⟩
termination_by src.size r
decreasing_by exact smfInternalReadline_size_lt src (by decide) _h

section Loop

variable {R : Type} (src : Source UInt8 R) (st : DataState) {r : R}

/-- The loop is left at the end of the stream and after a read error. -/
theorem dataLoop_end (h : (smfInternalReadline src MAXLINE r).1.ret ≤ 0) :
    dataLoop src st r =
      ⟨st, (smfInternalReadline src MAXLINE r).1.ret, (smfInternalReadline src MAXLINE r).2⟩ := by
  rw [dataLoop, dif_neg (by omega)]

/-- The loop is left at a dot line. -/
theorem dataLoop_dot (hret : 0 < (smfInternalReadline src MAXLINE r).1.ret)
    (hdot : isDotLine (smfInternalReadline src MAXLINE r).1.buf = true) :
    dataLoop src st r =
      ⟨st, (smfInternalReadline src MAXLINE r).1.ret, (smfInternalReadline src MAXLINE r).2⟩ := by
  rw [dataLoop, dif_pos hret, if_pos hdot]

/-- Any other line is spooled. -/
theorem dataLoop_line (hret : 0 < (smfInternalReadline src MAXLINE r).1.ret)
    (hdot : isDotLine (smfInternalReadline src MAXLINE r).1.buf = false) :
    dataLoop src st r =
      dataLoop src
        (dataLine st (smfInternalReadline src MAXLINE r).1.ret
          (smfInternalReadline src MAXLINE r).1.buf)
        (smfInternalReadline src MAXLINE r).2 := by
  rw [dataLoop, dif_pos hret, if_neg (by simp [hdot])]

/-- The loop puts nothing back into the source. -/
theorem dataLoop_size (r : R) : src.size (dataLoop src st r).reader ≤ src.size r := by
  fun_induction dataLoop src st r with
  | case1 st r read hret hdot => exact smfInternalReadline_size_le src MAXLINE r
  | case2 st r read hret hdot ih =>
    exact Nat.le_trans ih (smfInternalReadline_size_le src MAXLINE r)
  | case3 st r read hret => exact smfInternalReadline_size_le src MAXLINE r

end Loop

/-! ## The missing headers -/

/-- The text that `smf_smtpd_append_missing_headers` puts in front.  A NULL
pointer is printed as `(null)`. -/
def missingHeaders {M : Type} (env : DataEnv M) (session : Session) (st : DataState) : Bytes :=
  let nl := st.nl.getD (ascii "(null)")
  (if st.foundMid then [] else ascii "Message-Id: " ++ env.messageId ++ nl) ++
  (if st.foundDate then [] else ascii "Date: " ++ env.date ++ nl) ++
  (if st.foundFrom then []
    else ascii "From: " ++ session.envelope.sender.getD (ascii "(null)") ++ nl) ++
  (if st.foundTo then [] else ascii "To: undisclosed-recipients:;" ++ nl) ++
  (if st.foundHeader then [] else nl)

/-- The result code, the spool file and the actions of
`smf_smtpd_append_missing_headers`. -/
structure AppendResult where
  ret : Int
  spool : Option Bytes
  events : List Event

/-- `smf_smtpd_append_missing_headers`. -/
def smfSmtpdAppendMissingHeaders {M : Type} (env : DataEnv M) (session : Session)
    (st : DataState) : AppendResult :=
  let path := session.messageFile.getD []
  let created := Event.file (.create env.appendTmp)
  match env.appendIo with
  | .mkstemp => ⟨-1, some st.spool, []⟩
  | .openNew | .write | .openOld | .unlink => ⟨-1, some st.spool, [created]⟩
  | .rename => ⟨-1, none, [created, .file (.unlink path)]⟩
  | .done =>
    ⟨0, some (missingHeaders env session st ++ st.spool),
      [created, .file (.unlink path), .file (.rename env.appendTmp path)]⟩

/-- The call of `smf_smtpd_append_missing_headers`, whose result code is not
looked at. -/
def completeHeaders {M : Type} (env : DataEnv M) (session : Session) (st : DataState) :
    AppendResult :=
  if st.foundMid && st.foundTo && st.foundFrom && st.foundDate then ⟨0, some st.spool, []⟩
  else smfSmtpdAppendMissingHeaders env session st

/-! ## The three parts together -/

/-- The outcome of `smf_smtpd_process_data`.  The process is not `alive` after
`strdup` of a NULL pointer. -/
structure DataResult where
  session : Session
  events : List Event
  alive : Bool

/-- The reply that asks for the data. -/
def REPLY_354 : Bytes := ascii "354 End data with <CR><LF>.<CR><LF>\r\n"

/-- The reply to a message over the size limit. -/
def REPLY_SIZE : Bytes := ascii "552 message size exceeds fixed maximium message size\r\n"

section

variable {M : Type} (d : Daemon M)

/-- The start of `smf_smtpd_process_data`: `none` when it returns without having
asked for data. -/
def processDataOpen (env : DataEnv M) (session : Session) : Option Session × List Event :=
  match env.queueFile with
  | .noPath => (none, [.reply (smfSmtpdCodeReply d.settings.smtpCodes 552)])
  | .mkstempFailed path =>
    if env.openSpool then
      (some { session with messageFile := some path }, [.file (.create path), .reply REPLY_354])
    else (none, [.reply (smfSmtpdCodeReply d.settings.smtpCodes 451)])
  | .made path =>
    if env.openSpool then
      (some { session with messageFile := some path }, [.file (.create path), .reply REPLY_354])
    else
      (none, [.file (.create path), .reply (smfSmtpdCodeReply d.settings.smtpCodes 451)])

/-- The session that is left when the start has failed. -/
def processDataRefused (env : DataEnv M) (session : Session) : Session :=
  match env.queueFile with
  | .noPath => { session with messageFile := none }
  | .mkstempFailed path | .made path => { session with messageFile := some path }

/-- The size test. -/
def sizeExceeded (settings : Settings) (messageSize : Nat) : Bool :=
  decide (settings.maxSize < messageSize) && settings.maxSize != 0

/-- Parse the spool file, run the queue and remove the file. -/
def processDataMessage (env : DataEnv M) (session : Session) (spool : Option Bytes) :
    DataResult :=
  match d.cmime.fromFile spool true with
  | .error _ => ⟨session, [.reply (smfSmtpdCodeReply d.settings.smtpCodes 451)], true⟩
  | .ok msg =>
    if d.cmime.messageId msg = none then ⟨session, [], false⟩
    else
      let world : World M :=
        { session
          message := { ref := 0, msg }
          spool := spool.map fun content => { content, mtime := env.mtime } }
      let out := smfSmtpdProcessModules d env.queue world
      ⟨out.world.session,
        .process session :: out.events ++
          [.file (.unlink (out.world.session.messageFile.getD []))], true⟩

/-- Everything after the loop. -/
def processDataFinish (env : DataEnv M) (session : Session) (st : DataState) : DataResult :=
  let session := { session with messageSize := st.messageSize }
  let complete := completeHeaders env session st
  let events := .spooled st.spool :: complete.events
  if sizeExceeded d.settings st.messageSize then
    ⟨session,
      events ++ [.reply REPLY_SIZE, .file (.unlink (session.messageFile.getD []))], true⟩
  else
    let result := processDataMessage d env session complete.spool
    { result with events := events ++ result.events }

/-- `smf_smtpd_process_data`.  Its line reader starts with an empty buffer and
is freed at the end. -/
def smfSmtpdProcessData {R : Type} (feed : Feed UInt8 R) (env : DataEnv M) (session : Session)
    (r : R) : DataResult × R :=
  match processDataOpen d env session with
  | (none, events) => (⟨processDataRefused env session, events, true⟩, r)
  | (some session, events) =>
    let loop := dataLoop feed.toSource { messageSize := session.messageSize } (feed.enter r)
    let result := processDataFinish d env session loop.state
    ({ result with events := events ++ result.events }, feed.leave r loop.reader)

/-- `smf_smtpd_process_data` puts nothing back into the feed. -/
theorem smfSmtpdProcessData_size {R : Type} (feed : Feed UInt8 R) (env : DataEnv M)
    (session : Session) (r : R) :
    feed.size (smfSmtpdProcessData d feed env session r).2 ≤ feed.size r := by
  unfold smfSmtpdProcessData
  split
  · exact Nat.le_refl _
  · exact feed.size_leave r _ (dataLoop_size feed.toSource _ _)

end

end Spmfilter

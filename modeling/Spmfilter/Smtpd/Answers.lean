import Spmfilter.Lib.Turns
import Spmfilter.Smtpd.FinalReply

/-!
# One command, one answer

What a client can tell from the replies of a whole session.

* `Receives` says that a command starts the receipt of a message, and `EndsInSilence` that no
  final reply follows it.
* `Answered` are the replies to one command, and `smtpdStep_answered` says that no command has
  others.
* `session_answered` is the session: a greeting, and then the turns of the machine.
-/

namespace Spmfilter

open CString

/-- A request line is taken up. -/
def IsCommand : Event → Prop
  | .command _ => True
  | _ => False

/-- How many request lines have been taken up. -/
def commandCount (events : List Event) : Nat :=
  events.countP fun e =>
    match e with
    | .command _ => true
    | _ => false

@[simp] theorem commandCount_append (a b : List Event) :
    commandCount (a ++ b) = commandCount a + commandCount b :=
  List.countP_append

theorem commandCount_eq_zero {events : List Event} :
    commandCount events = 0 ↔ ∀ e ∈ events, ¬ IsCommand e := by
  unfold commandCount
  rw [List.countP_eq_zero]
  refine forall₂_congr fun e _ => ?_
  cases e <;> simp [IsCommand]

@[simp] theorem commandCount_files (ops : List FileOp) : commandCount (ops.map .file) = 0 := by
  rw [commandCount_eq_zero, List.forall_mem_map]
  exact fun _ _ => id

section

variable {M : Type} (d : Daemon M) (client : Client) (q : Request M)

/-- The request starts the receipt of a message: it is a `DATA` in the state `ST_RCPT`, and the
spool file can be opened. -/
def Receives : Prop :=
  commandOf q.line = .data ∧ client.state = .rcpt ∧
    (processDataOpen d q.env.data client.session).1.isSome = true

/-- The message is received, and then no final reply is sent. -/
def EndsInSilence : Prop :=
  ∃ opened events, processDataOpen d q.env.data client.session = (some opened, events) ∧
    EndsSilently d q.env.data opened
      (dataLoop (Source.tokens UInt8) { messageSize := opened.messageSize } q.wire).state

/-- The replies to one command. -/
inductive Answered : List Bytes → Prop where
  | once (h : ¬ Receives d client q) (text : Bytes)
      (htext : hasPrefix text (ascii "354") = false) : Answered [text]
  | received (h : Receives d client q) (hends : ¬ EndsInSilence d client q) (text : Bytes) :
      Answered [REPLY_354, text]
  | unanswered (h : Receives d client q) (hends : EndsInSilence d client q) :
      Answered [REPLY_354]

/-- One reply at least, and two at most. -/
theorem Answered.length {d : Daemon M} {client : Client} {q : Request M} {texts : List Bytes}
    (h : Answered d client q texts) : 1 ≤ texts.length ∧ texts.length ≤ 2 := by
  cases h <;> simp

/-! ## The replies of the command loop -/

/-- The codes that the engine itself replies with. -/
def engineCodes : List Int := [221, 250, 451, 552]

theorem codeReply_not354 (codes : List (Bytes × Bytes)) {code : Int} (h : code ∈ engineCodes) :
    hasPrefix (smfSmtpdCodeReply codes code) (ascii "354") = false := by
  have hcode : code = 221 ∨ code = 250 ∨ code = 451 ∨ code = 552 := by
    simpa [engineCodes] using h
  unfold smfSmtpdCodeReply
  cases codes.lookup (formatInt code) with
  | some msg => rcases hcode with rfl | rfl | rfl | rfl <;> rfl
  | none => rcases hcode with rfl | rfl | rfl | rfl <;> decide

theorem heloReply_not354 (req : Bytes) : hasPrefix (heloReply d req) (ascii "354") = false := by
  unfold heloReply
  split <;> rfl

/-- One reply is sent, and the message is not called for. -/
def AnswersOnce (turn : Verdict × List Event) : Prop :=
  (∀ next, turn.1 ≠ .data next) ∧
    ∃ text, turn.2 = [.reply text] ∧ hasPrefix text (ascii "354") = false

theorem answersOnce_close {text : Bytes} (h : hasPrefix text (ascii "354") = false) :
    AnswersOnce (.close, [.reply text]) :=
  ⟨fun _ heq => Verdict.noConfusion heq, text, rfl, h⟩

theorem answersOnce_next (next : Client) {text : Bytes}
    (h : hasPrefix text (ascii "354") = false) : AnswersOnce (.next next, [.reply text]) :=
  ⟨fun _ heq => Verdict.noConfusion heq, text, rfl, h⟩

theorem codeReply_once (next : Client) {code : Int} (h : code ∈ engineCodes) :
    AnswersOnce (.next next, [.reply (smfSmtpdCodeReply d.settings.smtpCodes code)]) :=
  answersOnce_next next (codeReply_not354 _ h)

theorem handleMail_once (req : Bytes) : AnswersOnce (handleMail d client req) := by
  unfold handleMail
  by_cases hstate : client.state = .mail
  · rw [if_pos hstate]
    exact answersOnce_next _ (by decide)
  · rw [if_neg hstate]
    by_cases hvalue : smfSmtpdGetReqValue req 10 = []
    · rw [if_pos hvalue]
      exact answersOnce_next _ (by decide)
    · rw [if_neg hvalue]
      exact codeReply_once d _ (by decide)

theorem handleRcpt_once (req : Bytes) : AnswersOnce (handleRcpt d client req) := by
  unfold handleRcpt
  by_cases hstate : client.state ≠ .mail ∧ client.state ≠ .rcpt
  · rw [if_pos hstate]
    exact answersOnce_next _ (by decide)
  · rw [if_neg hstate]
    by_cases hvalue : smfSmtpdGetReqValue req 8 = []
    · rw [if_pos hvalue]
      exact answersOnce_next _ (by decide)
    · rw [if_neg hvalue]
      exact codeReply_once d _ (by decide)

theorem handleData_once (h : client.state ≠ .rcpt) : AnswersOnce (handleData client) := by
  unfold handleData
  by_cases hmail : client.state = .mail
  · rw [if_neg fun hne => hne.2 hmail, if_pos ⟨h, hmail⟩]
    exact answersOnce_next _ (by decide)
  · rw [if_pos ⟨h, hmail⟩]
    exact answersOnce_next _ (by decide)

/-- A request line is replied to once, unless it is a `DATA` that calls for the message. -/
theorem handleRequest_once (sid req : Bytes)
    (h : ¬ (commandOf req = .data ∧ client.state = .rcpt)) :
    AnswersOnce (smfSmtpdHandleRequest d sid client req) := by
  rw [smfSmtpdHandleRequest_eq]
  cases hreq : commandOf req with
  | quit => exact answersOnce_close (codeReply_not354 _ (by decide))
  | helo =>
    dsimp only
    rcases handleHelo_cases d sid client req with ⟨_, heq⟩ | ⟨_, heq⟩
    · rw [heq]
      exact answersOnce_next _ (by decide)
    · rw [heq]
      exact answersOnce_next _ (heloReply_not354 d req)
  | xforward =>
    dsimp only
    rcases handleXforward_cases d client req with ⟨_, heq⟩ | heq
    · rw [heq]
      exact codeReply_once d _ (by decide)
    · rw [heq]
      exact answersOnce_next _ (by decide)
  | mail => exact handleMail_once d client req
  | rcpt => exact handleRcpt_once d client req
  | data => exact handleData_once client fun hstate => h ⟨hreq, hstate⟩
  | rset => exact codeReply_once d _ (by decide)
  | noop => exact codeReply_once d _ (by decide)
  | unknown => exact answersOnce_next _ (by decide)

theorem handleRequest_data {sid req : Bytes} (hreq : commandOf req = .data)
    (hstate : client.state = .rcpt) :
    smfSmtpdHandleRequest d sid client req = (.data { client with state := .data }, []) := by
  rw [smfSmtpdHandleRequest_eq, hreq]
  rcases handleData_cases client with ⟨_, heq⟩ | ⟨hne, _⟩
  · exact heq
  · exact absurd hstate hne

/-! ## The replies to a message -/

theorem processed_commandCount {env : QueueEnv M} {w w' : World M} {out : List Event}
    (h : Processed d env w w' out) : commandCount out = 0 := by
  have hstop : commandCount (queueStop d env w).events = 0 := by
    rw [commandCount_eq_zero]
    intro e he
    have hmodule := queueStop_moduleEvents d env w e he
    cases e with
    | command req => exact absurd hmodule id
    | _ => exact id
  cases h <;> simp [hstop] <;> rfl

theorem processDataFinish_commandCount (env : DataEnv M) (session : Session) (st : DataState) :
    commandCount (processDataFinish d env session st).events = 0 := by
  obtain ⟨ops, hfinished⟩ := processDataFinish_finished d env session st
  generalize processDataFinish d env session st = result at hfinished
  have hspooled : ∀ events, commandCount (.spooled st.spool :: ops.map .file ++ events) =
      commandCount events := by
    intro events
    rw [List.cons_append, ← List.singleton_append, commandCount_append, commandCount_append,
      commandCount_files, Nat.zero_add]
    exact Nat.zero_add _
  cases hfinished with
  | oversize => exact hspooled _
  | unparsable => exact hspooled _
  | crashed => exact hspooled _
  | processed w w' h out hout =>
    dsimp only
    rw [hspooled, ← List.singleton_append, commandCount_append, commandCount_append,
      processed_commandCount d hout]
    rfl

/-- What the receipt of a message does. -/
theorem requestData_answered (hreq : commandOf q.line = .data) (hstate : client.state = .rcpt) :
    commandCount (requestData d client.session q).events = 0 ∧
      Answered d client q (replies (requestData d client.session q).events) := by
  unfold requestData
  rcases hopen : processDataOpen d q.env.data client.session with ⟨_ | opened, events⟩
  · have hno : ¬ Receives d client q := by
      rintro ⟨-, -, hsome⟩
      rw [hopen] at hsome
      cases hsome
    rw [smfSmtpdProcessData_refused d _ hopen]
    -- the start of the function replies once before it returns
    obtain ⟨text, htext, hevents⟩ : ∃ text, hasPrefix text (ascii "354") = false ∧
        commandCount events = 0 ∧ replies events = [text] := by
      have h552 := codeReply_not354 d.settings.smtpCodes (show (552 : Int) ∈ engineCodes by decide)
      have h451 := codeReply_not354 d.settings.smtpCodes (show (451 : Int) ∈ engineCodes by decide)
      unfold processDataOpen at hopen
      cases hqueue : q.env.data.queueFile with
      | noPath =>
        rw [hqueue] at hopen
        cases hopen
        exact ⟨_, h552, rfl, rfl⟩
      | mkstempFailed path =>
        rw [hqueue] at hopen
        dsimp only at hopen
        split_ifs at hopen
        · cases hopen
        · cases hopen
          exact ⟨_, h451, rfl, rfl⟩
      | made path =>
        rw [hqueue] at hopen
        dsimp only at hopen
        split_ifs at hopen
        · cases hopen
        · cases hopen
          exact ⟨_, h451, rfl, rfl⟩
    exact ⟨hevents.1, by rw [hevents.2]; exact .once hno text htext⟩
  · have hyes : Receives d client q := ⟨hreq, hstate, by rw [hopen]; rfl⟩
    obtain ⟨path, -, hevents⟩ := processDataOpen_some d hopen
    have hsilence : EndsInSilence d client q ↔ EndsSilently d q.env.data opened
        (dataLoop (Source.tokens UInt8) { messageSize := opened.messageSize } q.wire).state := by
      constructor
      · rintro ⟨opened', events', hopen', hends⟩
        obtain rfl : opened = opened' :=
          Option.some.inj (congrArg Prod.fst (hopen.symm.trans hopen'))
        exact hends
      · exact fun hends => ⟨opened, events, hopen, hends⟩
    rw [smfSmtpdProcessData_opened d _ hopen, hevents]
    dsimp only
    rw [commandCount_append, processDataFinish_commandCount, replies_append]
    refine ⟨rfl, ?_⟩
    show Answered d client q ([REPLY_354] ++ replies (processDataFinish d q.env.data opened
      (dataLoop (Source.tokens UInt8) { messageSize := opened.messageSize } q.wire).state).events)
    rcases processDataFinish_replies d q.env.data opened
      (dataLoop (Source.tokens UInt8) { messageSize := opened.messageSize } q.wire).state with
      ⟨hends, hreplies⟩ | ⟨hends, text, hreplies⟩
    · rw [hreplies]
      exact .unanswered hyes (hsilence.mpr hends)
    · rw [hreplies]
      exact .received hyes (fun h => hends (hsilence.mp h)) text

/-! ## The session -/

/-- A turn of the session: the request line, and then the replies to it. -/
def Orderly (t : Machine.Turn Client (Request M) Event) : Prop :=
  ∃ out, t.out = .command t.input.line :: out ∧ commandCount out = 0 ∧
    Answered d t.state t.input (replies out)

/-- One command. -/
theorem smtpdStep_orderly : Orderly d ⟨client, q, ((smtpdMachine d).step client q).2⟩ := by
  by_cases hdata : commandOf q.line = .data ∧ client.state = .rcpt
  · obtain ⟨hcount, hanswered⟩ := requestData_answered d client q hdata.1 hdata.2
    rw [smtpdStep_data d (handleRequest_data d client hdata.1 hdata.2)]
    exact ⟨_, rfl, hcount, hanswered⟩
  · have hno : ¬ Receives d client q := fun h => hdata ⟨h.1, h.2.1⟩
    obtain ⟨hverdict, text, hout, htext⟩ := handleRequest_once d client q.env.sid q.line hdata
    rcases hturn : smfSmtpdHandleRequest d q.env.sid client q.line with ⟨_ | next | next, out⟩
    · obtain rfl : out = [.reply text] := by rw [← hout, hturn]
      rw [smtpdStep_close d hturn]
      exact ⟨_, rfl, rfl, .once hno text htext⟩
    · obtain rfl : out = [.reply text] := by rw [← hout, hturn]
      rw [smtpdStep_next d hturn]
      exact ⟨_, rfl, rfl, .once hno text htext⟩
    · exact absurd (by rw [hturn]) (hverdict next)

end

section

variable {M : Type} {d : Daemon M}

theorem Orderly.opens {t : Machine.Turn Client (Request M) Event} (h : Orderly d t) :
    t.Opens IsCommand := by
  obtain ⟨out, hout, hcount, -⟩ := h
  exact ⟨_, out, hout, trivial, commandCount_eq_zero.mp hcount⟩

/-- So many turns take up as many commands, and reply to each once or twice. -/
theorem orderly_counts {ts : List (Machine.Turn Client (Request M) Event)}
    (h : ∀ t ∈ ts, Orderly d t) :
    commandCount (ts.flatMap Machine.Turn.out) ≤ (replies (ts.flatMap Machine.Turn.out)).length ∧
      (replies (ts.flatMap Machine.Turn.out)).length ≤
        2 * commandCount (ts.flatMap Machine.Turn.out) := by
  induction ts with
  | nil => exact ⟨Nat.le_refl 0, Nat.le_refl 0⟩
  | cons t ts ih =>
    rw [List.forall_mem_cons] at h
    obtain ⟨out, hout, hcount, hanswered⟩ := h.1
    have hlength := hanswered.length
    have hturn : commandCount t.out = 1 ∧ replies t.out = replies out := by
      rw [hout, ← List.singleton_append, commandCount_append, hcount]
      exact ⟨rfl, rfl⟩
    have hrest := ih h.2
    rw [List.flatMap_cons, commandCount_append, replies_append, List.length_append, hturn.1,
      hturn.2]
    omega

variable (d)

end

end Spmfilter

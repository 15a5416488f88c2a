import Spmfilter.Smtpd.DotStuffing
import Spmfilter.Smtpd.Outcome

/-!
# The size limit

`session->message_size` counts the results of the line reader, and the limit is
compared with it.

* `dataLoop_messageSize` gives the count for one message: its bytes up to the
  place where the loop stops, and one for every piece that the reader has cut
  off.  `sizeCount_of_fits` says that it is right for lines that fit.
* `SizeNote` is what earlier messages have left in the counter, because only a
  new session starts from zero.
* `sizeLimit_exact` says when the reply to the size is right.
-/

namespace Spmfilter

open CString Chunks

/-- A piece that the reader has cut off in front of its line feed. -/
def isCut (p : Bytes) : Bool :=
  p.getLast? != some LF

/-- The pieces in front of the first one that is a dot line. -/
def piecesTaken (ps : List Bytes) : List Bytes :=
  ps.takeWhile fun p => !isDotLine p

/-! ## The counter after the loop -/

theorem piecesRet_eq (ps : List Bytes) :
    piecesRet ps = ps.flatten.length + ps.countP isCut := by
  induction ps with
  | nil => rfl
  | cons p ps ih =>
    rw [piecesRet, ih, List.flatten_cons, List.length_append, List.countP_cons, pieceRet, isCut]
    by_cases hlast : p.getLast? = some LF
    · simp [hlast]
      omega
    · simp [hlast]
      omega

/-- The loop takes the pieces in front of the first dot line. -/
theorem dataLoop_taken (st : DataState) (ps : List Bytes) (rest : Wire)
    (hps : ∀ p ∈ ps, IsPiece p) (hdot : ∃ p ∈ ps, isDotLine p = true) :
    (dataLoop (Source.tokens UInt8) st (bytesWire ps.flatten ++ rest)).state =
      (piecesTaken ps).foldl spoolPiece st := by
  induction ps generalizing st with
  | nil =>
    obtain ⟨p, hp, _⟩ := hdot
    cases hp
  | cons p ps ih =>
    have hp := hps p (by simp)
    rw [bytesWire_flatten_cons, List.append_assoc]
    by_cases hpdot : isDotLine p = true
    · rw [dataLoop_dotPiece st _ hp hpdot, piecesTaken,
        List.takeWhile_cons_of_neg (by simp [hpdot])]
      rfl
    · have hfalse : isDotLine p = false := by simpa using hpdot
      have hstep := dataLoop_pieces st (bytesWire ps.flatten ++ rest) [p]
        (by simpa using hp) (by simpa using hfalse)
      rw [List.flatten_singleton] at hstep
      rw [hstep, ih _ (fun q hq => hps q (by simp [hq])), piecesTaken, piecesTaken,
        List.takeWhile_cons_of_pos (by simp [hfalse])]
      · rfl
      · obtain ⟨q, hq, hqdot⟩ := hdot
        rcases List.mem_cons.1 hq with rfl | hq
        · exact absurd hqdot hpdot
        · exact ⟨q, hq, hqdot⟩

/-- The counter after a message. -/
theorem dataLoop_messageSize (st : DataState) (lines : List Line) {dot : Line} (hdot : dot.isDot)
    (rest : Wire) :
    (dataLoop (Source.tokens UInt8) st
        (bytesWire (linesBytes lines ++ dot.bytes) ++ rest)).state.messageSize =
      st.messageSize + ((piecesTaken (pieces lines)).flatten.length +
        (piecesTaken (pieces lines)).countP isCut) := by
  have hend := Line.isDot_piece hdot
  have hbytes : linesBytes lines ++ dot.bytes = (pieces lines ++ [dot.bytes]).flatten := by
    rw [List.flatten_append, pieces_flatten, List.flatten_singleton]
  have htaken : piecesTaken (pieces lines ++ [dot.bytes]) = piecesTaken (pieces lines) := by
    rw [piecesTaken, piecesTaken, List.takeWhile_append]
    split
    · rename_i hall
      rw [List.takeWhile_cons_of_neg (by simp [hend.2]), List.append_nil]
      exact ((List.takeWhile_prefix _).eq_of_length hall).symm
    · rfl
  rw [hbytes, dataLoop_taken st _ rest (isPiece_of_mem_message lines hdot)
    ⟨dot.bytes, by simp, hend.2⟩, htaken, foldl_spoolPiece_messageSize, piecesRet_eq]

/-- The bytes of a message that the loop takes. -/
def bytesTaken (lines : List Line) : Nat :=
  (piecesTaken (pieces lines)).flatten.length

/-- The cuts among them. -/
def cutsTaken (lines : List Line) : Nat :=
  (piecesTaken (pieces lines)).countP isCut

/-- Lines that fit into the buffer are taken as they are. -/
theorem piecesTaken_of_fits {lines : List Line}
    (hfits : ∀ line ∈ lines, line.bytes.length ≤ MAXLINE - 1)
    (hdots : ∀ line ∈ lines, ¬ line.isDot) :
    piecesTaken (pieces lines) = lines.map Line.bytes := by
  have hpieces : pieces lines = lines.map Line.bytes := by
    rw [pieces, List.map_eq_flatMap]
    apply List.flatMap_congr
    intro line hline
    exact Line.pieces_of_fits (hfits line hline)
  rw [piecesTaken, hpieces, List.takeWhile_eq_self_iff]
  intro p hp
  obtain ⟨line, hline, rfl⟩ := List.mem_map.1 hp
  have hpiece : line.bytes ∈ line.pieces := by
    rw [Line.pieces_of_fits (hfits line hline)]
    exact List.mem_singleton.2 rfl
  have hno := Line.no_dotPiece (Line.cutsCleanly_of_fits (hfits line hline)) (hdots line hline)
    hpiece
  rw [hno]
  rfl

/-- The count of a message of lines that fit is the number of its bytes. -/
theorem sizeCount_of_fits {lines : List Line}
    (hfits : ∀ line ∈ lines, line.bytes.length ≤ MAXLINE - 1)
    (hdots : ∀ line ∈ lines, ¬ line.isDot) :
    bytesTaken lines + cutsTaken lines = (linesBytes lines).length := by
  have hcuts : cutsTaken lines = 0 := by
    rw [cutsTaken, piecesTaken_of_fits hfits hdots, List.countP_eq_zero]
    intro p hp
    obtain ⟨line, _, rfl⟩ := List.mem_map.1 hp
    simp [isCut, Line.bytes]
  rw [hcuts, Nat.add_zero, bytesTaken, piecesTaken_of_fits hfits hdots]
  rfl

/-! ## What is left in the counter -/

/-- The counter that the next message of the session starts with. -/
def sizeNote {M : Type} (left : Nat) (client : Client) (q : Request M)
    (out : Option Client × List Event) : Nat :=
  match commandOf q.line with
  | .rset => 0
  | .helo => if client.state = .init then left else 0
  | .data => (out.1.map fun next => next.session.messageSize).getD left
  | _ => left

section

variable {M : Type} (d : Daemon M) {client next : Client} {left : Nat} {q : Request M}

theorem sizeNote_step (h : client.session.messageSize = left)
    (hstep : ((smtpdMachine d).step client q).1 = some next) :
    next.session.messageSize = sizeNote left client q ((smtpdMachine d).step client q) := by
  obtain ⟨out, hout, hturned⟩ := smtpdStep_turned d hstep
  rw [hout, sizeNote]
  have hhelo : (heloSession q.env.sid client).messageSize =
      if client.state = .init then left else 0 := by
    split
    · rename_i hinit
      rw [heloSession_init q.env.sid hinit, h]
    · rename_i hne
      rw [heloSession_of_ne q.env.sid hne]
      rfl
  cases hturned with
  | same text hne hrefused =>
    cases hreq : commandOf q.line <;> dsimp only
    case helo => exact absurd hreq hne
    case rset =>
      have hturn : smfSmtpdHandleRequest d q.env.sid client q.line =
          (.next (.fresh q.env.sid), [.reply (smfSmtpdCodeReply d.settings.smtpCodes 250)]) := by
        rw [smfSmtpdHandleRequest_eq, hreq]
      rw [smtpdStep_next d hturn] at hstep
      rw [← Option.some.inj hstep]
      rfl
    case data => rfl
    all_goals exact h
  | bareHelo hreq | helo hreq =>
    rw [hreq]
    exact hhelo
  | xforward hreq addr =>
    rw [hreq]
    show (smfSessionSetXforwardAddr client.session addr).messageSize = left
    unfold smfSessionSetXforwardAddr
    split
    · exact h
    · exact h
  | mail hreq => rw [hreq]; exact h
  | rcpt hreq => rw [hreq]; exact h
  | rset hreq => rw [hreq]; rfl
  | data hreq => rw [hreq]; rfl

/-- In every reachable state the note is the counter. -/
theorem sizeNote_run {sid : Bytes} {before : List (Request M)}
    (h : (smtpdMachine d).audit sizeNote (.fresh sid) 0 before = some (client, left)) :
    client.session.messageSize = left :=
  (smtpdMachine d).audit_invariant (fun _ _ _ _ hinv hstep => sizeNote_step d hinv hstep) rfl h

/-! ## The reply to the size -/

/-- The message is refused for its size: the reply is sent, and nothing is
processed. -/
def SizeRefused (events : List Event) : Prop :=
  .reply REPLY_SIZE ∈ events ∧ ∀ s, .process s ∉ events

theorem codeReply_ne_size (codes : List (Bytes × Bytes)) :
    smfSmtpdCodeReply codes 451 ≠ REPLY_SIZE := by
  have hhead : (smfSmtpdCodeReply codes 451).head? = some 52 := by
    unfold smfSmtpdCodeReply
    cases codes.lookup (formatInt 451) with
    | some msg => rfl
    | none => decide
  intro h
  rw [h] at hhead
  exact absurd hhead (by decide)

/-- A call that has asked for the data refuses the message exactly when the
size test is positive. -/
theorem sizeRefused_iff {session opened : Session} {events : List Event}
    (hopen : processDataOpen d q.env.data session = (some opened, events)) :
    SizeRefused (requestData d session q).events ↔
      sizeExceeded d.settings (dataLoop (Source.tokens UInt8)
        { messageSize := session.messageSize } q.wire).state.messageSize = true := by
  obtain ⟨path, hopened, hevents⟩ := processDataOpen_some d hopen
  have hdata := smfSmtpdProcessData_opened d (Feed.tokens UInt8) hopen q.wire
  have hsize : opened.messageSize = session.messageSize := by rw [hopened]
  rw [hsize] at hdata
  rw [requestData, hdata]
  show SizeRefused (events ++ (processDataFinish d q.env.data opened
    (dataLoop (Source.tokens UInt8) { messageSize := session.messageSize } q.wire).state).events) ↔
    _
  set st := (dataLoop (Source.tokens UInt8) { messageSize := session.messageSize } q.wire).state
  obtain ⟨ops, hfinished⟩ := processDataFinish_finished d q.env.data opened st
  have hstart : Event.reply REPLY_SIZE ≠ .reply REPLY_354 := by decide
  rw [hevents, SizeRefused]
  generalize processDataFinish d q.env.data opened st = result at hfinished ⊢
  cases hfinished with
  | oversize h => simp [h]
  | unparsable hsize e he =>
    have hcode : REPLY_SIZE ≠ smfSmtpdCodeReply d.settings.smtpCodes 451 :=
      (codeReply_ne_size _).symm
    simp [hsize, hstart, hcode]
  | crashed hsize msg hmsg hid => simp [hsize, hstart]
  | processed w w' h out hout =>
    rw [h.size]
    refine iff_of_false (fun hrefused => ?_) (by simp)
    exact hrefused.2 w.session (by simp)

section Session

variable {sid : Bytes} {before : List (Request M)}
  (hrun : (smtpdMachine d).audit sizeNote (.fresh sid) 0 before = some (client, left))
  (q : Request M) (hdata : (smfSmtpdHandleRequest d q.env.sid client q.line).1 = .data next)
  {opened : Session} {events : List Event}
  (hopen : processDataOpen d q.env.data next.session = (some opened, events))
  {lines : List Line} {dot : Line} {rest : Wire} (hdot : dot.isDot)
  (hwire : q.wire = bytesWire (linesBytes lines ++ dot.bytes) ++ rest)
  (hmax : 0 < d.settings.maxSize)

include hrun hdata hopen hdot hwire hmax

/-- The sum that is compared with the limit. -/
theorem sizeRefused_step :
    SizeRefused ((smtpdMachine d).step client q).2 ↔
      d.settings.maxSize < left + (bytesTaken lines + cutsTaken lines) := by
  obtain ⟨hreq, hstate, rfl⟩ := verdict_data d q.env.sid client q.line hdata
  have hleft : client.session.messageSize = left := sizeNote_run d hrun
  have hturn : smfSmtpdHandleRequest d q.env.sid client q.line =
      (.data { client with state := .data }, []) := by
    rw [smfSmtpdHandleRequest_eq, hreq]
    rcases handleData_cases client with ⟨_, heq⟩ | ⟨hne, _⟩
    · exact heq
    · exact absurd hstate hne
  have hout : SizeRefused ((smtpdMachine d).step client q).2 ↔
      SizeRefused (requestData d client.session q).events := by
    rw [smtpdStep_data d hturn]
    simp [SizeRefused]
  have hsize := dataLoop_messageSize { messageSize := client.session.messageSize } lines hdot rest
  rw [hout, sizeRefused_iff d hopen, hwire, hsize, hleft, sizeExceeded, Bool.and_eq_true,
    decide_eq_true_eq, bne_iff_ne]
  exact and_iff_left (by omega)

/-- In every session, a message is refused for its size exactly when its bytes
exceed the limit, if and only if the three things that the sum gets wrong (what
is left in the counter, the cuts, and the bytes that are not taken) do not move
it across the limit. -/
theorem sizeLimit_exact :
    (SizeRefused ((smtpdMachine d).step client q).2 ↔
        d.settings.maxSize < (linesBytes lines).length) ↔
      if d.settings.maxSize < (linesBytes lines).length then
        d.settings.maxSize < left + (bytesTaken lines + cutsTaken lines)
      else left + (bytesTaken lines + cutsTaken lines) ≤ d.settings.maxSize := by
  rw [sizeRefused_step d hrun q hdata hopen hdot hwire hmax]
  split
  · omega
  · omega

end Session

end

/-! ## Two messages on one connection -/

/-- Seven bytes are refused. -/
theorem sizeLimit_first :
    SizeRefused ((smtpdMachine tightDaemon).step openClient (dataRequest "abcdef\n")).2 := by
  have haudit : (smtpdMachine tightDaemon).audit sizeNote (.fresh (ascii "s0")) 0
      [.plain "MAIL FROM:<a>\r\n", .plain "RCPT TO:<b>\r\n"] = some (openClient, 0) := rfl
  let line : Line := ⟨ascii "abcdef", by decide⟩
  have hcount : bytesTaken [line] + cutsTaken [line] = 7 :=
    sizeCount_of_fits (by decide) (by decide)
  have hexact := @sizeLimit_exact _ tightDaemon _ _ _ _ _ haudit (dataRequest "abcdef\n") rfl
    _ _ rfl [line] crlfDot [] (Or.inr rfl) rfl (by decide)
  rw [hcount] at hexact
  exact (hexact.2 (by decide)).2 (by decide)

/-- After that, three bytes are refused on the same connection. -/
theorem sizeLimit_second :
    ∃ client left,
      (smtpdMachine tightDaemon).audit sizeNote (.fresh (ascii "s0")) 0
          [.plain "MAIL FROM:<a>\r\n", .plain "RCPT TO:<b>\r\n", dataRequest "abcdef\n",
            .plain "MAIL FROM:<a>\r\n", .plain "RCPT TO:<b>\r\n"] = some (client, left) ∧
        SizeRefused ((smtpdMachine tightDaemon).step client (dataRequest "ab\n")).2 ∧
        (ascii "ab\n").length ≤ tightDaemon.settings.maxSize := by
  let client : Client :=
    { state := .rcpt
      session :=
        { id := ascii "s0"
          envelope := { sender := some (ascii "a"), recipients := [ascii "b", ascii "b"] }
          messageSize := 7
          messageFile := some (ascii "/q/1") } }
  have haudit : (smtpdMachine tightDaemon).audit sizeNote (.fresh (ascii "s0")) 0
      [.plain "MAIL FROM:<a>\r\n", .plain "RCPT TO:<b>\r\n", dataRequest "abcdef\n",
        .plain "MAIL FROM:<a>\r\n", .plain "RCPT TO:<b>\r\n"] = some (client, 7) := by
    decide +kernel
  let line : Line := ⟨ascii "ab", by decide⟩
  have hcount : bytesTaken [line] + cutsTaken [line] = 3 :=
    sizeCount_of_fits (by decide) (by decide)
  have hstep := @sizeRefused_step _ tightDaemon _ _ _ _ _ haudit (dataRequest "ab\n") rfl
    _ _ rfl [line] crlfDot [] (Or.inr rfl) rfl (by decide)
  rw [hcount] at hstep
  exact ⟨client, 7, haudit, hstep.2 (by decide), by decide⟩

end Spmfilter

import Spmfilter.Smtpd.Run

/-!
# What a reset forgets

Two sessions are compared: one that has run some commands and is then reset by
`RSET` or by an accepted `HELO`, and a new connection.

`RSET` builds the client of a new connection outright.  An accepted `HELO`
builds a new session in every state but `ST_INIT`; there it keeps the session,
and `InitFresh` says that this session is new up to its `helo` field, which the
command sets.
-/

namespace Spmfilter

open CString

/-- In `ST_INIT` nothing but the `helo` field of the session has been set. -/
def InitFresh (client : Client) : Prop :=
  client.state = .init →
    ∃ sid helo, client.session = { smfSessionNew sid with helo := helo }

theorem initFresh_fresh (sid : Bytes) : InitFresh (.fresh sid) := by
  intro _
  exact ⟨sid, none, rfl⟩

theorem initFresh_of_ne {client : Client} (h : client.state ≠ .init) : InitFresh client := by
  intro hinit
  exact absurd hinit h

section

variable {M : Type} (d : Daemon M) {client next : Client} {q : Request M}

/-- One command keeps it. -/
theorem initFresh_step (h : InitFresh client)
    (hstep : ((smtpdMachine d).step client q).1 = some next) : InitFresh next := by
  obtain ⟨out, _, hturned⟩ := smtpdStep_turned d hstep
  cases hturned with
  | same => exact h
  | bareHelo hreq hvalue =>
    intro hnext
    have hinit : client.state = .init := hnext
    obtain ⟨sid, helo, hsession⟩ := h hinit
    refine ⟨sid, some [], ?_⟩
    show smfSessionSetHelo (heloSession q.env.sid client) [] = _
    rw [heloSession_init q.env.sid hinit, hsession]
    rfl
  | rset => exact initFresh_fresh q.env.sid
  | helo | xforward | mail | rcpt | data => exact initFresh_of_ne (by simp)

/-- It holds in every reachable state. -/
theorem initFresh_run {sid : Bytes} {before : List (Request M)}
    (h : ((smtpdMachine d).run (.fresh sid) before).1 = some client) : InitFresh client :=
  (smtpdMachine d).run_invariant (fun _ _ _ hinv hstep => initFresh_step d hinv hstep)
    (initFresh_fresh sid) h

/-! ## The two resets -/

/-- `RSET` answers and leaves the client of a new connection. -/
theorem smtpdStep_rset (client : Client) (hreq : commandOf q.line = .rset) :
    (smtpdMachine d).step client q =
      (some (.fresh q.env.sid),
        [.command q.line, .reply (smfSmtpdCodeReply d.settings.smtpCodes 250)]) := by
  apply smtpdStep_next
  rw [smfSmtpdHandleRequest_eq, hreq]

/-- An accepted `HELO` does in a reachable state what it does on some new
connection. -/
theorem smtpdStep_helo (h : InitFresh client) (hreq : commandOf q.line = .helo)
    (hvalue : smfSmtpdGetReqValue q.line 4 ≠ []) :
    ∃ sid next out, (smtpdMachine d).step client q = (some next, out) ∧
      (smtpdMachine d).step (.fresh sid) q = (some next, out) := by
  have hstep : ∀ c : Client, (smtpdMachine d).step c q =
      (some { state := .helo
              session :=
                smfSessionSetHelo (heloSession q.env.sid c) (smfSmtpdGetReqValue q.line 4) },
        [.command q.line, .reply (heloReply d q.line)]) := by
    intro c
    apply smtpdStep_next
    rw [smfSmtpdHandleRequest_eq, hreq]
    rcases handleHelo_cases d q.env.sid c q.line with ⟨hempty, _⟩ | ⟨_, heq⟩
    · exact absurd hempty hvalue
    · exact heq
  by_cases hinit : client.state = .init
  · obtain ⟨sid, helo, hsession⟩ := h hinit
    refine ⟨sid, _, _, hstep client, ?_⟩
    rw [hstep, heloSession_init q.env.sid hinit, hsession, heloSession_init q.env.sid rfl]
    rfl
  · refine ⟨q.env.sid, _, _, hstep client, ?_⟩
    rw [hstep, heloSession_of_ne q.env.sid hinit, heloSession_init q.env.sid rfl]
    rfl

/-- After any commands that leave the connection open, a session that is reset
by `RSET` goes on like a new connection, and one that is reset by an accepted
`HELO` goes on like a new connection that starts with that `HELO`. -/
theorem reset_forgets {sid : Bytes} {before : List (Request M)}
    (h : ((smtpdMachine d).run (.fresh sid) before).1 = some client)
    (q : Request M) (after : List (Request M)) :
    (commandOf q.line = .rset →
      (smtpdMachine d).run (.fresh sid) (before ++ q :: after) =
        (((smtpdMachine d).run (.fresh q.env.sid) after).1,
          ((smtpdMachine d).run (.fresh sid) before).2 ++
            ([.command q.line, .reply (smfSmtpdCodeReply d.settings.smtpCodes 250)] ++
              ((smtpdMachine d).run (.fresh q.env.sid) after).2))) ∧
    (commandOf q.line = .helo → smfSmtpdGetReqValue q.line 4 ≠ [] →
      ∃ sid', (smtpdMachine d).run (.fresh sid) (before ++ q :: after) =
        (((smtpdMachine d).run (.fresh sid') (q :: after)).1,
          ((smtpdMachine d).run (.fresh sid) before).2 ++
            ((smtpdMachine d).run (.fresh sid') (q :: after)).2)) := by
  rw [(smtpdMachine d).run_append h]
  constructor
  · intro hreq
    rw [(smtpdMachine d).run_cons_some (smtpdStep_rset d client hreq)]
  · intro hreq hvalue
    obtain ⟨sid', next, out, hclient, hfresh⟩ := smtpdStep_helo d (initFresh_run d h) hreq hvalue
    refine ⟨sid', ?_⟩
    rw [(smtpdMachine d).run_cons_some hclient, (smtpdMachine d).run_cons_some hfresh]

/-- A transaction that `RSET` has broken off. -/
theorem reset_forgets_transaction :
    (smtpdMachine .plain).run (.fresh (ascii "s0"))
        ([.plain "MAIL FROM:<a>\r\n"] ++ .plain "RSET\r\n" :: [.plain "RCPT TO:<b>\r\n"]) =
      (some (.fresh (ascii "s1")),
        [.command (ascii "MAIL FROM:<a>\r\n"), .reply CODE_250,
          .command (ascii "RSET\r\n"), .reply CODE_250,
          .command (ascii "RCPT TO:<b>\r\n"),
          .reply (ascii "503 Error: need MAIL command\r\n")]) :=
  (reset_forgets Daemon.plain rfl (.plain "RSET\r\n") [.plain "RCPT TO:<b>\r\n"]).1 (by decide)

end

end Spmfilter

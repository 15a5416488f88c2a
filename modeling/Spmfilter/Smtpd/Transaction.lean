import Spmfilter.Smtpd.Run

/-!
# Mail transactions

What the envelope holds when `DATA` is accepted.  `History` notes the dialogue
of a session: the sender and the recipients that the client was told are
accepted, the recipients that were already in the envelope at that time, and
whether a `HELO` without an argument has come since.

`TransactionInv` ties the session object to the history through every command,
and `dataEntry_envelope` reads off when the envelope is the one the client has
asked for.  It fails in two ways.

* `MAIL FROM` sets the sender and keeps the recipients.  Only the state
  `ST_MAIL` forbids a second `MAIL FROM`, so the recipients of an abandoned or a
  finished transaction go along with the next one.
* `HELO` without an argument replaces the session, answers `501`, and leaves the
  state `ST_RCPT` as it was.
-/

namespace Spmfilter

open CString

/-! ## The dialogue -/

/-- One of the replies starts with 250. -/
def answered250 (out : List Event) : Bool :=
  (replies out).any fun text => hasPrefix text (ascii "250")

/-- The `250` of `smf_smtpd_code_reply` starts with 250, whatever text is
configured for it. -/
theorem answered250_codeReply (req : Bytes) (codes : List (Bytes × Bytes)) :
    answered250 [.command req, .reply (smfSmtpdCodeReply codes 250)] = true := by
  have hprefix : hasPrefix (smfSmtpdCodeReply codes 250) (ascii "250") = true := by
    unfold smfSmtpdCodeReply
    cases codes.lookup (formatInt 250) with
    | some msg => rfl
    | none => decide
  simp [answered250, replies, hprefix]

theorem answered250_reply {text : Bytes} (req : Bytes)
    (h : hasPrefix text (ascii "250") = false) :
    answered250 [.command req, .reply text] = false := by
  simp [answered250, replies, h]

/-- What the dialogue so far says about the open transaction. -/
structure History where
  /-- The address of the last accepted `MAIL FROM`. -/
  sender : Option Bytes := none
  /-- The addresses of the `RCPT TO` commands accepted since. -/
  recipients : List Bytes := []
  /-- The recipients in the envelope when that `MAIL FROM` came. -/
  carried : List Bytes := []
  /-- A `HELO` without an argument has come since. -/
  lost : Bool := false
  deriving DecidableEq

/-- The history after one more command. -/
def History.note {M : Type} (hist : History) (client : Client) (q : Request M)
    (out : Option Client × List Event) : History :=
  match commandOf q.line with
  | .mail =>
    if answered250 out.2 then
      { sender := some (smfInternalStripEmailAddr (smfSmtpdGetReqValue q.line 10))
        recipients := []
        carried := client.session.envelope.recipients
        lost := false }
    else hist
  | .rcpt =>
    if answered250 out.2 then
      { hist with
        recipients :=
          hist.recipients ++ [smfInternalStripEmailAddr (smfSmtpdGetReqValue q.line 8)] }
    else hist
  | .helo => if smfSmtpdGetReqValue q.line 4 = [] then { hist with lost := true } else hist
  | _ => hist

/-! ## The invariant -/

/-- A transaction is open. -/
def Client.inTransaction (client : Client) : Prop :=
  client.state = .mail ∨ client.state = .rcpt

/-- What the session object has to do with the history. -/
structure TransactionInv (client : Client) (hist : History) : Prop where
  sender : client.inTransaction → hist.sender ≠ none
  kept : client.inTransaction → hist.lost = false →
    client.session.envelope.sender = hist.sender ∧
      client.session.envelope.recipients = hist.carried ++ hist.recipients
  lost : client.inTransaction → hist.lost = true → client.session.envelope.sender = none
  rcpt : client.state = .rcpt → hist.recipients ≠ []

/-- Outside of a transaction nothing is to be shown. -/
theorem transactionInv_of_notIn {client : Client} (hist : History)
    (h : ¬ client.inTransaction) : TransactionInv client hist where
  sender := fun hin => absurd hin h
  kept := fun hin => absurd hin h
  lost := fun hin => absurd hin h
  rcpt := fun hrcpt => absurd (Or.inr hrcpt) h

theorem transactionInv_fresh (sid : Bytes) : TransactionInv (.fresh sid) {} := by
  apply transactionInv_of_notIn
  intro h
  rcases h with h | h <;> cases h

section Step

variable {M : Type} (d : Daemon M) {client next : Client} {hist : History} {q : Request M}

/-- One command keeps the invariant. -/
theorem transactionInv_step (h : TransactionInv client hist)
    (hstep : ((smtpdMachine d).step client q).1 = some next) :
    TransactionInv next (hist.note client q ((smtpdMachine d).step client q)) := by
  obtain ⟨out, hout, hturned⟩ := smtpdStep_turned d hstep
  rw [hout, History.note]
  cases hturned with
  | same text hhelo hrefused =>
    cases hreq : commandOf q.line <;> dsimp only
    case helo => exact absurd hreq hhelo
    case mail =>
      rw [if_neg (by rw [answered250_reply _ (hrefused (.inl hreq))]; simp)]
      exact h
    case rcpt =>
      rw [if_neg (by rw [answered250_reply _ (hrefused (.inr hreq))]; simp)]
      exact h
    all_goals exact h
  | bareHelo hreq hvalue =>
    rw [hreq]
    show TransactionInv _ (if smfSmtpdGetReqValue q.line 4 = [] then _ else _)
    rw [if_pos hvalue]
    refine ⟨h.sender, fun _ hlost => absurd hlost (by simp), fun hin _ => ?_, h.rcpt⟩
    have hstate : client.state ≠ .init := by
      intro hinit
      rcases hin with hin | hin
      · cases hinit.symm.trans hin
      · cases hinit.symm.trans hin
    show (heloSession q.env.sid client).envelope.sender = none
    rw [heloSession_of_ne q.env.sid hstate]
    rfl
  | helo | xforward | rset | data =>
    apply transactionInv_of_notIn
    intro hin
    rcases hin with hin | hin <;> cases hin
  | mail hreq hstate =>
    rw [hreq]
    show TransactionInv _ (if answered250 _ = true then _ else _)
    rw [if_pos (answered250_codeReply _ _)]
    refine ⟨fun _ => by simp, fun _ _ => ⟨rfl, ?_⟩, fun _ hlost => absurd hlost (by simp),
      fun hrcpt => by cases hrcpt⟩
    exact (List.append_nil _).symm
  | rcpt hreq hin =>
    rw [hreq]
    show TransactionInv _ (if answered250 _ = true then _ else _)
    rw [if_pos (answered250_codeReply _ _)]
    refine ⟨fun _ => h.sender hin, fun _ hlost => ?_, fun _ hlost => h.lost hin hlost,
      fun _ => by simp⟩
    have hkept := h.kept hin hlost
    refine ⟨hkept.1, ?_⟩
    rw [smfEnvelopeAddRcpt_recipients, hkept.2, List.append_assoc]

end Step

/-! ## Whole sessions -/

section Run

variable {M : Type} (d : Daemon M) {sid : Bytes} {before : List (Request M)} {client next : Client}
  {hist : History}

/-- The invariant holds in every reachable state. -/
theorem transactionInv_run
    (h : (smtpdMachine d).audit History.note (.fresh sid) {} before = some (client, hist)) :
    TransactionInv client hist :=
  (smtpdMachine d).audit_invariant (fun _ _ _ _ hinv hstep => transactionInv_step d hinv hstep)
    (transactionInv_fresh sid) h

/-- The envelope that `smf_smtpd_process_data` is called with is the one of the
dialogue exactly when no recipient was carried over and no `HELO` without an
argument came in between. -/
theorem dataEntry_envelope
    (h : (smtpdMachine d).audit History.note (.fresh sid) {} before = some (client, hist))
    (q : Request M)
    (hdata : (smfSmtpdHandleRequest d q.env.sid client q.line).1 = .data next) :
    (next.session.envelope.recipients = hist.recipients ∧
        next.session.envelope.sender = hist.sender) ↔
      hist.carried = [] ∧ hist.lost = false := by
  have hinv := transactionInv_run d h
  obtain ⟨_, hstate, rfl⟩ := verdict_data d q.env.sid client q.line hdata
  have hin : client.inTransaction := Or.inr hstate
  constructor
  · intro hexact
    obtain ⟨hrcpt, hsender⟩ := hexact
    have hlost : hist.lost = false := by
      by_contra hne
      have hnone := hinv.lost hin (by simpa using hne)
      exact hinv.sender hin (hsender.symm.trans hnone)
    refine ⟨?_, hlost⟩
    have hkept := (hinv.kept hin hlost).2
    rw [hrcpt] at hkept
    exact List.self_eq_append_left.1 hkept
  · intro hnote
    obtain ⟨hcarried, hlost⟩ := hnote
    have hkept := hinv.kept hin hlost
    rw [hcarried, List.nil_append] at hkept
    exact ⟨hkept.2, hkept.1⟩

/-- One transaction on a fresh session. -/
theorem dataEntry_envelope_single :
    ∃ client hist next,
      (smtpdMachine .plain).audit History.note (.fresh (ascii "s0")) {}
          [.plain "MAIL FROM:<a>\r\n", .plain "RCPT TO:<b>\r\n"] = some (client, hist) ∧
        (smfSmtpdHandleRequest .plain (ascii "s1") client (ascii "DATA\r\n")).1 = .data next ∧
        next.session.envelope.recipients = hist.recipients ∧
        next.session.envelope.sender = hist.sender := by
  have haudit : (smtpdMachine .plain).audit History.note (.fresh (ascii "s0")) {}
      [.plain "MAIL FROM:<a>\r\n", .plain "RCPT TO:<b>\r\n"] =
        some (openClient, { sender := some (ascii "a"), recipients := [ascii "b"] }) := rfl
  exact ⟨_, _, _, haudit, rfl,
    (dataEntry_envelope .plain haudit (.plain "DATA\r\n") rfl).2 ⟨rfl, rfl⟩⟩

/-- An abandoned transaction leaves its recipient to the next one. -/
theorem abandoned_recipient :
    ∃ client hist next,
      (smtpdMachine .plain).audit History.note (.fresh (ascii "s0")) {}
          [.plain "MAIL FROM:<a>\r\n", .plain "RCPT TO:<b>\r\n",
            .plain "MAIL FROM:<c>\r\n", .plain "RCPT TO:<d>\r\n"] = some (client, hist) ∧
        (smfSmtpdHandleRequest .plain (ascii "s1") client (ascii "DATA\r\n")).1 = .data next ∧
        hist.recipients = [ascii "d"] ∧
        next.session.envelope.recipients = [ascii "b", ascii "d"] :=
  ⟨_, { sender := some (ascii "c"), recipients := [ascii "d"], carried := [ascii "b"] }, _,
    rfl, rfl, rfl, rfl⟩

/-- `smf_smtpd_process_data` is called with a sender and a recipient exactly
when no `HELO` without an argument came since the last accepted `MAIL FROM`. -/
theorem dataEntry_filled
    (h : (smtpdMachine d).audit History.note (.fresh sid) {} before = some (client, hist))
    (q : Request M)
    (hdata : (smfSmtpdHandleRequest d q.env.sid client q.line).1 = .data next) :
    (next.session.envelope.sender ≠ none ∧ next.session.envelope.recipients ≠ []) ↔
      hist.lost = false := by
  have hinv := transactionInv_run d h
  obtain ⟨_, hstate, rfl⟩ := verdict_data d q.env.sid client q.line hdata
  have hin : client.inTransaction := Or.inr hstate
  constructor
  · intro hfilled
    by_contra hne
    exact hfilled.1 (hinv.lost hin (by simpa using hne))
  · intro hlost
    have hkept := hinv.kept hin hlost
    refine ⟨?_, ?_⟩
    · show client.session.envelope.sender ≠ none
      rw [hkept.1]
      exact hinv.sender hin
    · show client.session.envelope.recipients ≠ []
      rw [hkept.2]
      intro happend
      exact hinv.rcpt hstate (List.append_eq_nil_iff.1 happend).2

/-- One transaction on a fresh session. -/
theorem dataEntry_filled_single :
    ∃ client hist next,
      (smtpdMachine .plain).audit History.note (.fresh (ascii "s0")) {}
          [.plain "MAIL FROM:<a>\r\n", .plain "RCPT TO:<b>\r\n"] = some (client, hist) ∧
        (smfSmtpdHandleRequest .plain (ascii "s1") client (ascii "DATA\r\n")).1 = .data next ∧
        next.session.envelope.sender ≠ none ∧ next.session.envelope.recipients ≠ [] := by
  have haudit : (smtpdMachine .plain).audit History.note (.fresh (ascii "s0")) {}
      [.plain "MAIL FROM:<a>\r\n", .plain "RCPT TO:<b>\r\n"] =
        some (openClient, { sender := some (ascii "a"), recipients := [ascii "b"] }) := rfl
  exact ⟨_, _, _, haudit, rfl, (dataEntry_filled .plain haudit (.plain "DATA\r\n") rfl).2 rfl⟩

/-- `HELO` without an argument empties the envelope, and `DATA` is accepted. -/
theorem bareHelo_emptyEnvelope :
    ∃ client next,
      ((smtpdMachine .plain).run (.fresh (ascii "s0"))
          [.plain "MAIL FROM:<a>\r\n", .plain "RCPT TO:<b>\r\n",
            .plain "HELO\r\n"]).1 = some client ∧
        (smfSmtpdHandleRequest .plain (ascii "s1") client (ascii "DATA\r\n")).1 = .data next ∧
        next.session.envelope.sender = none ∧ next.session.envelope.recipients = [] :=
  ⟨_, _, rfl, rfl, rfl, rfl⟩

end Run

end Spmfilter

import Spmfilter.Smtpd.Outcome

/-!
# What a positive reply promises

A client that reads a reply starting with 250 deletes its copy of the message.
`Provided` is what makes that right: a module has returned `1`, or the next hop
has taken the message for every recipient of the envelope.

* `Transferred` says when the server gets the message, and
  `smtpDeliveryNexthop_iff` that the next hop function returns `0` then.
* `QueueHonest` is the condition on one run of the queue.  It excludes a parse
  error with the code `1`, which the queue takes for the result of a module; a
  code that is printed with 250 in front; and a server that takes the message
  for some of the recipients only.
* `processed_honest_iff` goes through the ways of the queue, and
  `acknowledged_provided_iff` says that the condition is exact.
-/

namespace Spmfilter

open CString

/-! ## Successful deliveries -/

section Esmtp

variable (esmtp : Esmtp)

theorem Esmtp.answers_fst (rcpts : List Bytes) : (esmtp.answers rcpts).map Prod.fst = rcpts := by
  apply List.ext_getElem
  · simp [Esmtp.answers]
  · intro i h1 h2
    simp [Esmtp.answers]

theorem Esmtp.answers_all (rcpts : List Bytes) :
    (∀ p ∈ esmtp.answers rcpts, p.2 = true) ↔
      ∀ i rcpt, rcpts[i]? = some rcpt → esmtp.takes i rcpt = true := by
  constructor
  · intro h i rcpt hget
    obtain ⟨hi, rfl⟩ := List.getElem?_eq_some_iff.1 hget
    exact h (rcpts[i], esmtp.takes i rcpts[i]) (List.mem_mapIdx.2 ⟨i, hi, rfl⟩)
  · intro h p hp
    obtain ⟨i, hi, rfl⟩ := List.mem_mapIdx.1 hp
    exact h i _ (List.getElem?_eq_getElem hi)

theorem smfSmtpDeliver_ok {env : Envelope} {msgFile : Option Bytes} {spool : Option Spool}
    (h : (smfSmtpDeliver esmtp env msgFile spool).1 = 250) :
    (smfSmtpDeliver esmtp env msgFile spool).2 = esmtp.answers env.recipients := by
  unfold smfSmtpDeliver at h ⊢
  dsimp only at h ⊢
  split_ifs at h ⊢ <;> first | rfl | cases h

section Transfer

variable {M : Type} (cmime : Cmime M) (settings : Settings) (w : World M)

/-- The envelope that is handed to `smf_smtp_deliver`. -/
def sentEnvelope : Envelope :=
  fillRecipients cmime settings w.message.msg (fillSender w.session.envelope)

/-- The server gets the message and says 250 to the data. -/
structure Transferred : Prop where
  path : esmtp.setReversePath ((sentEnvelope cmime settings w).sender.getD (ascii "<>")) = true
  file : w.session.messageFile ≠ none → w.spool.isNone = false
  started : esmtp.startSession = true
  taken : ∃ i rcpt, (sentEnvelope cmime settings w).recipients[i]? = some rcpt ∧
    esmtp.takes i rcpt = true
  status : esmtp.dataStatus = 250

variable {cmime settings w}

theorem Esmtp.answers_any (rcpts : List Bytes) :
    (esmtp.answers rcpts).any Prod.snd = true ↔
      ∃ i rcpt, rcpts[i]? = some rcpt ∧ esmtp.takes i rcpt = true := by
  rw [List.any_eq_true]
  constructor
  · intro h
    obtain ⟨p, hp, htaken⟩ := h
    obtain ⟨i, hi, rfl⟩ := List.mem_mapIdx.1 hp
    exact ⟨i, rcpts[i], List.getElem?_eq_getElem hi, htaken⟩
  · intro h
    obtain ⟨i, rcpt, hget, htaken⟩ := h
    obtain ⟨hi, rfl⟩ := List.getElem?_eq_some_iff.1 hget
    exact ⟨_, List.mem_mapIdx.2 ⟨i, hi, rfl⟩, htaken⟩

theorem Esmtp.transferStatus_eq (rcpts : List Bytes) :
    esmtp.transferStatus rcpts = 250 ↔
      (∃ i rcpt, rcpts[i]? = some rcpt ∧ esmtp.takes i rcpt = true) ∧ esmtp.dataStatus = 250 := by
  unfold Esmtp.transferStatus
  rw [← esmtp.answers_any rcpts]
  split
  · rename_i hany
    exact ⟨fun h => ⟨hany, h⟩, fun h => h.2⟩
  · rename_i hany
    exact iff_of_false (by decide) (fun h => hany h.1)

/-- The next hop of a filled envelope is set. -/
theorem fillRecipients_nexthop (msg : M) (env : Envelope) :
    (fillRecipients cmime settings msg env).nexthop ≠ none := by
  unfold fillRecipients
  dsimp only
  generalize (if env.recipients = [] then copyRecipients cmime msg env else env) = filled
  split_ifs with hnone
  · simp [smfEnvelopeSetNexthop]
  · exact hnone

/-- `smf_smtp_deliver` returns 250 when the server has got the message. -/
theorem smfSmtpDeliver_iff :
    (smfSmtpDeliver esmtp (sentEnvelope cmime settings w) w.session.messageFile w.spool).1 = 250 ↔
      Transferred esmtp cmime settings w := by
  have hnexthop : (sentEnvelope cmime settings w).nexthop ≠ none :=
    fillRecipients_nexthop _ _
  unfold smfSmtpDeliver
  dsimp only
  rw [if_neg hnexthop]
  split_ifs with hpath hfile hrcpts hstart
  · refine iff_of_false (by simp) (fun h => ?_)
    rw [h.path] at hpath
    cases hpath
  · refine iff_of_false (by simp) (fun h => ?_)
    have hsome := h.file hfile.1
    rw [hfile.2] at hsome
    cases hsome
  · refine iff_of_false (by simp) (fun h => ?_)
    obtain ⟨i, rcpt, hget, _⟩ := h.taken
    rw [hrcpts] at hget
    cases hget
  · refine iff_of_false (by simp) (fun h => ?_)
    rw [h.started] at hstart
    cases hstart
  · dsimp only
    rw [esmtp.transferStatus_eq]
    constructor
    · intro h
      refine ⟨by simpa using hpath, fun hset => ?_, by simpa using hstart, h.1, h.2⟩
      by_contra hnone
      exact hfile ⟨hset, by simpa using hnone⟩
    · intro h
      exact ⟨h.taken, h.status⟩

/-- The next hop function returns `0` when the server has got the message. -/
theorem smtpDeliveryNexthop_iff :
    (smtpDeliveryNexthop cmime settings esmtp w).ret = 0 ↔
      Transferred esmtp cmime settings w := by
  rw [← smfSmtpDeliver_iff]
  unfold smtpDeliveryNexthop
  dsimp only
  split_ifs with hrcpt
  · refine iff_of_false (by simp) (fun h => ?_)
    obtain ⟨i, rcpt, hget, _⟩ := ((smfSmtpDeliver_iff esmtp).1 h).taken
    unfold sentEnvelope fillRecipients copyRecipients at hget
    dsimp only at hget
    rw [if_pos hrcpt.1, hrcpt.2, List.foldl_nil] at hget
    split at hget <;> simp [smfEnvelopeSetNexthop, hrcpt.1] at hget
  · unfold deliverEnvelope
    dsimp only
    rw [← sentEnvelope]
    by_cases hstatus : (smfSmtpDeliver esmtp (sentEnvelope cmime settings w)
        w.session.messageFile w.spool).1 = 250
    · rw [if_neg (fun hne => hne hstatus)]
      exact iff_of_true rfl hstatus
    · rw [if_pos hstatus]
      exact iff_of_false (by decide) hstatus

/-- Then it leaves the filled envelope in the session, and lists what the server
has said to each recipient of it. -/
theorem smtpDeliveryNexthop_ok (h : Transferred esmtp cmime settings w) :
    (smtpDeliveryNexthop cmime settings esmtp w).world.session.envelope =
        sentEnvelope cmime settings w ∧
      (smtpDeliveryNexthop cmime settings esmtp w).events =
        [.nexthop 0 (esmtp.answers (sentEnvelope cmime settings w).recipients)] := by
  have hret := (smtpDeliveryNexthop_iff esmtp).2 h
  have hstatus := (smfSmtpDeliver_iff esmtp).2 h
  unfold smtpDeliveryNexthop at hret ⊢
  dsimp only at hret ⊢
  split_ifs at hret ⊢ with hrcpt
  · cases hret
  · unfold deliverEnvelope
    dsimp only
    rw [← sentEnvelope, if_neg (fun hne => hne hstatus), smfSmtpDeliver_ok esmtp hstatus]
    exact ⟨rfl, rfl⟩

end Transfer

end Esmtp

section

variable {M : Type} (d : Daemon M)

/-! ## Replies that start with 250 -/

/-- A reply that starts with 250 is sent. -/
def Acknowledged (events : List Event) : Prop :=
  ∃ text, .reply text ∈ events ∧ hasPrefix text (ascii "250") = true

/-- A module has taken the message, or the next hop has taken it for every
recipient. -/
def Provided (session : Session) (events : List Event) : Prop :=
  (∃ name, .invoke name 1 ∈ events) ∨
    ∃ rcpts, .nexthop 0 rcpts ∈ events ∧ rcpts.map Prod.fst = session.envelope.recipients ∧
      ∀ p ∈ rcpts, p.2 = true

theorem hasPrefix_append (text rest : Bytes) : hasPrefix (text ++ rest) text = true := by
  rw [hasPrefix, List.take_left, beq_self_eq_true]

theorem expand_250 (p : Vasprintf) (rest : Bytes) :
    hasPrefix (p.expand (ascii "250 " ++ rest)) (ascii "250") = true := by
  rw [p.literal _ _ (by decide), show ascii "250 " = ascii "250" ++ ascii " " from rfl,
    List.append_assoc]
  exact hasPrefix_append _ _

theorem acceptedReply_250 (session : Session) :
    hasPrefix (acceptedReply d session) (ascii "250") = true := by
  unfold acceptedReply
  cases session.responseMsg with
  | none =>
    show hasPrefix CODE_250_ACCEPTED (ascii "250") = true
    decide
  | some msg =>
    dsimp only
    rw [List.append_assoc]
    exact expand_250 d.vasprintf _

theorem doneReply_250 (session : Session) :
    hasPrefix (doneReply d session) (ascii "250") = true := by
  unfold doneReply processedText
  cases session.responseMsg with
  | none =>
    dsimp only
    rw [List.append_assoc, show ascii "250 Ok: processed as " =
      ascii "250 " ++ ascii "Ok: processed as " from rfl, List.append_assoc]
    exact expand_250 d.vasprintf _
  | some msg =>
    dsimp only
    rw [List.append_assoc]
    exact expand_250 d.vasprintf _

theorem codeReply_552 (codes : List (Bytes × Bytes)) :
    hasPrefix (smfSmtpdCodeReply codes 552) (ascii "250") = false := by
  unfold smfSmtpdCodeReply
  cases codes.lookup (formatInt 552) with
  | none =>
    show hasPrefix CODE_552 (ascii "250") = false
    decide
  | some msg => rfl

theorem codeReply_451 (codes : List (Bytes × Bytes)) :
    hasPrefix (smfSmtpdCodeReply codes 451) (ascii "250") = false := by
  unfold smfSmtpdCodeReply
  cases codes.lookup (formatInt 451) with
  | none =>
    show hasPrefix CODE_451 (ascii "250") = false
    decide
  | some msg => rfl

/-! ## Both along a list of actions -/

theorem acknowledged_append {a b : List Event} :
    Acknowledged (a ++ b) ↔ Acknowledged a ∨ Acknowledged b := by
  simp only [Acknowledged, List.mem_append, or_and_right, exists_or]

theorem acknowledged_reply {text : Bytes} :
    Acknowledged [.reply text] ↔ hasPrefix text (ascii "250") = true := by
  simp [Acknowledged]

theorem not_acknowledged_of {events : List Event}
    (h : ∀ text ∈ replies events, hasPrefix text (ascii "250") = false) :
    ¬ Acknowledged events := by
  intro hack
  obtain ⟨text, hmem, hprefix⟩ := hack
  cases (h text (mem_replies.2 hmem)).symm.trans hprefix

theorem not_acknowledged {events : List Event} (h : replies events = []) :
    ¬ Acknowledged events := by
  refine not_acknowledged_of (fun text hmem => ?_)
  rw [h] at hmem
  cases hmem

theorem provided_append {session : Session} {a b : List Event} :
    Provided session (a ++ b) ↔ Provided session a ∨ Provided session b := by
  simp only [Provided, List.mem_append, or_and_right, exists_or]
  exact or_or_or_comm

/-- Actions that call nothing provide nothing. -/
theorem not_provided {session : Session} {events : List Event} (h : NothingCalled events) :
    ¬ Provided session events := by
  intro hprovided
  rcases hprovided with ⟨name, hmem⟩ | ⟨rcpts, hmem, _⟩
  · exact h _ hmem trivial
  · exact h _ hmem trivial

/-- Actions in front and behind that neither acknowledge nor provide. -/
theorem acknowledged_provided_wrap {session : Session} {before out after : List Event}
    (hbefore : NothingCalled before ∧ ¬ Acknowledged before)
    (hafter : NothingCalled after ∧ ¬ Acknowledged after) :
    (Acknowledged (before ++ (out ++ after)) → Provided session (before ++ (out ++ after))) ↔
      (Acknowledged out → Provided session out) := by
  rw [provided_append, provided_append, acknowledged_append, acknowledged_append,
    or_iff_right (not_provided hbefore.1), or_iff_left (not_provided hafter.1),
    or_iff_right hbefore.2, or_iff_left hafter.2]

/-! ## One run of the queue -/

section Queue

variable (env : QueueEnv M) (w : World M)

/-- What must not happen in a run of the queue. -/
structure QueueHonest : Prop where
  /-- A result `1` is the result of a module, not of a new parse. -/
  parsed : (queueStop d env w).ret = 1 → .reload 1 ∉ (queueStop d env w).events
  /-- Another result is not printed with 250 in front. -/
  answered : (queueStop d env w).ret ≠ -1 ∧ (queueStop d env w).ret ≠ 0 ∧
      (queueStop d env w).ret ≠ 1 ∧ (queueStop d env w).ret ≠ 2 →
    hasPrefix (moduleReply d (queueStop d env w).world.session (queueStop d env w).ret)
      (ascii "250") = false
  /-- A server that gets the message has taken every recipient. -/
  taken : queueGoesOn d env w → ¬ FlushFails d env w →
    Transferred env.nexthop.esmtp d.cmime d.settings (queueFlush d env w).world →
      ∀ i rcpt,
        (sentEnvelope d.cmime d.settings (queueFlush d env w).world).recipients[i]? = some rcpt →
          env.nexthop.esmtp.takes i rcpt = true
  /-- A failed delivery is not printed with 250 in front. -/
  failed : queueGoesOn d env w → ¬ FlushFails d env w →
    ¬ Transferred env.nexthop.esmtp d.cmime d.settings (queueFlush d env w).world →
      hasPrefix (nexthopReply d) (ascii "250") = false

variable {d env w}

/-- Running the modules sends no reply. -/
theorem not_acknowledged_stop : ¬ Acknowledged (queueStop d env w).events :=
  not_acknowledged (queueStop_replies d env w)

/-- What a run of the modules provides has come from a module. -/
theorem provided_stop_iff {session : Session} :
    Provided session (queueStop d env w).events ↔
      ∃ name, .invoke name 1 ∈ (queueStop d env w).events := by
  constructor
  · intro h
    rcases h with hinvoked | ⟨rcpts, hmem, _⟩
    · exact hinvoked
    · exact absurd hmem (fun hmem => queueStop_moduleEvents d env w _ hmem)
  · intro hinvoked
    exact Or.inl hinvoked

/-- A run that has not stopped at `1` provides nothing. -/
theorem not_provided_stop {session : Session} (h : (queueStop d env w).ret ≠ 1) :
    ¬ Provided session (queueStop d env w).events := by
  rw [provided_stop_iff]
  intro hinvoked
  obtain ⟨name, hmem⟩ := hinvoked
  have htrace : StopTrace (queueStop d env w) :=
    untilStop_trace d.cmime d.settings env _ _ _ _
  cases htrace with
  | through hret hinvoke => cases hinvoke name 1 hmem
  | returned other hother hinvoke =>
    rcases hinvoke name 1 hmem with hone | hone
    · cases hone
    · exact h hone.symm
  | reloaded _ hinvoke => cases hinvoke name 1 hmem
  | missing _ hinvoke => cases hinvoke name 1 hmem

/-- A result `1` comes from a module or from a new parse, never from both. -/
theorem provided_stop_one {session : Session} (h : (queueStop d env w).ret = 1) :
    Provided session (queueStop d env w).events ↔ .reload 1 ∉ (queueStop d env w).events := by
  rw [provided_stop_iff]
  have htrace : StopTrace (queueStop d env w) :=
    untilStop_trace d.cmime d.settings env _ _ _ _
  cases htrace with
  | through hret => cases h.symm.trans hret
  | returned name hmem hinvoke hreload =>
    rw [h] at hmem
    refine iff_of_true ⟨name, hmem⟩ (fun hone => ?_)
    cases hreload 1 hone
  | reloaded hmem hinvoke hreload =>
    rw [h] at hmem
    refine iff_of_false (fun hone => ?_) (fun hnot => hnot hmem)
    obtain ⟨name, hone⟩ := hone
    cases hinvoke name 1 hone
  | missing hret => cases h.symm.trans hret

/-- A queue that does not go on only has to look at the result of the
modules. -/
theorem queueHonest_of_stop (hgoes : ¬ queueGoesOn d env w) :
    QueueHonest d env w ↔
      ((queueStop d env w).ret = 1 → .reload 1 ∉ (queueStop d env w).events) ∧
      ((queueStop d env w).ret ≠ -1 ∧ (queueStop d env w).ret ≠ 0 ∧
          (queueStop d env w).ret ≠ 1 ∧ (queueStop d env w).ret ≠ 2 →
        hasPrefix (moduleReply d (queueStop d env w).world.session (queueStop d env w).ret)
          (ascii "250") = false) :=
  ⟨fun h => ⟨h.parsed, h.answered⟩,
    fun h => ⟨h.1, h.2, fun hon => absurd hon hgoes, fun hon => absurd hon hgoes⟩⟩

theorem queueHonest_of_failed (hret : (queueStop d env w).ret = -1) : QueueHonest d env w := by
  have hgoes : ¬ queueGoesOn d env w := fun hon => (queueGoesOn_ne hon).1 hret
  refine (queueHonest_of_stop hgoes).2 ⟨fun hone => ?_, fun h => absurd hret h.1⟩
  cases hret.symm.trans hone

/-- A queue that goes on only has to look at the next hop. -/
theorem queueHonest_of_goesOn (hgoes : queueGoesOn d env w)
    (htaken : ¬ FlushFails d env w →
      Transferred env.nexthop.esmtp d.cmime d.settings (queueFlush d env w).world →
      ∀ i rcpt,
        (sentEnvelope d.cmime d.settings (queueFlush d env w).world).recipients[i]? = some rcpt →
          env.nexthop.esmtp.takes i rcpt = true)
    (hfailed : ¬ FlushFails d env w →
      ¬ Transferred env.nexthop.esmtp d.cmime d.settings (queueFlush d env w).world →
      hasPrefix (nexthopReply d) (ascii "250") = false) : QueueHonest d env w := by
  have hne := queueGoesOn_ne hgoes
  refine ⟨fun hone => absurd hone hne.2, fun hother => ?_, fun _ => htaken, fun _ => hfailed⟩
  rcases hgoes with hret | hret
  · exact absurd hret hother.2.1
  · exact absurd hret hother.2.2.2

/-! ## The ways through the queue -/

/-- A module result `1` is acknowledged. -/
theorem accepted_honest_iff (hret : (queueStop d env w).ret = 1) {session : Session} :
    (Acknowledged ((queueStop d env w).events ++
          [.reply (acceptedReply d (queueStop d env w).world.session)]) →
        Provided session ((queueStop d env w).events ++
          [.reply (acceptedReply d (queueStop d env w).world.session)])) ↔
      QueueHonest d env w := by
  have hgoes : ¬ queueGoesOn d env w := fun hon => (queueGoesOn_ne hon).2 hret
  have hreply : ¬ Provided session [.reply (acceptedReply d (queueStop d env w).world.session)] :=
    not_provided (by simp [nothingCalled_cons, isCall])
  rw [acknowledged_append, acknowledged_reply, provided_append, or_iff_left hreply,
    provided_stop_one hret, queueHonest_of_stop hgoes]
  constructor
  · intro h
    exact ⟨fun _ => h (Or.inr (acceptedReply_250 d _)),
      fun hother => absurd hret hother.2.2.1⟩
  · intro h _
    exact h.1 hret

/-- Another result is acknowledged when it is printed with 250 in front. -/
theorem answered_honest_iff
    (hret : (queueStop d env w).ret ≠ -1 ∧ (queueStop d env w).ret ≠ 0 ∧
      (queueStop d env w).ret ≠ 1 ∧ (queueStop d env w).ret ≠ 2) {session : Session} :
    (Acknowledged ((queueStop d env w).events ++
          [.reply (moduleReply d (queueStop d env w).world.session (queueStop d env w).ret)]) →
        Provided session ((queueStop d env w).events ++
          [.reply (moduleReply d (queueStop d env w).world.session (queueStop d env w).ret)])) ↔
      QueueHonest d env w := by
  have hgoes : ¬ queueGoesOn d env w := fun hon => hon.elim hret.2.1 hret.2.2.2
  have hreply : ¬ Provided session
      [.reply (moduleReply d (queueStop d env w).world.session (queueStop d env w).ret)] :=
    not_provided (by simp [nothingCalled_cons, isCall])
  rw [acknowledged_append, acknowledged_reply, or_iff_right not_acknowledged_stop,
    provided_append, or_iff_left hreply, queueHonest_of_stop hgoes]
  constructor
  · intro h
    refine ⟨fun hone => absurd hone hret.2.2.1, fun _ => ?_⟩
    rw [Bool.eq_false_iff]
    intro hprefix
    exact not_provided_stop hret.2.2.1 (h hprefix)
  · intro h hprefix
    cases (h.2 hret).symm.trans hprefix

section Smtp

variable (hgoes : queueGoesOn d env w) (hflush : ¬ FlushFails d env w) (ops : List FileOp)

include hgoes hflush

/-- A failed delivery is acknowledged when it is printed with 250 in front. -/
theorem undelivered_honest_iff
    (hnot : ¬ Transferred env.nexthop.esmtp d.cmime d.settings (queueFlush d env w).world)
    (rcpts : List (Bytes × Bool)) {session : Session} :
    (Acknowledged ((queueStop d env w).events ++ ops.map .file ++
          [.nexthop (-1) rcpts, .nexthopError, .reply (nexthopReply d)]) →
        Provided session ((queueStop d env w).events ++ ops.map .file ++
          [.nexthop (-1) rcpts, .nexthopError, .reply (nexthopReply d)])) ↔
      QueueHonest d env w := by
  have hlast : Acknowledged [.nexthop (-1) rcpts, .nexthopError, .reply (nexthopReply d)] ↔
      hasPrefix (nexthopReply d) (ascii "250") = true := by
    simp [Acknowledged]
  have hnone : ¬ Provided session
      [.nexthop (-1) rcpts, .nexthopError, .reply (nexthopReply d)] := by
    simp [Provided]
  rw [acknowledged_append, acknowledged_append, or_iff_right not_acknowledged_stop,
    or_iff_right (not_acknowledged (replies_files ops)), hlast, provided_append, provided_append,
    or_iff_left hnone, or_iff_left (not_provided (nothingCalled_files ops))]
  constructor
  · intro h
    refine queueHonest_of_goesOn hgoes (fun _ htransferred => absurd htransferred hnot)
      (fun _ _ => ?_)
    rw [Bool.eq_false_iff]
    intro hprefix
    exact not_provided_stop (queueGoesOn_ne hgoes).2 (h hprefix)
  · intro h hprefix
    cases (h.failed hgoes hflush hnot).symm.trans hprefix

/-- A delivery is acknowledged. -/
theorem delivered_honest_iff
    (htransferred :
      Transferred env.nexthop.esmtp d.cmime d.settings (queueFlush d env w).world)
    {session : Session}
    (hsession : session.envelope = sentEnvelope d.cmime d.settings (queueFlush d env w).world) :
    (Acknowledged ((queueStop d env w).events ++ ops.map .file ++
          [.nexthop 0 (env.nexthop.esmtp.answers session.envelope.recipients),
            .reply (doneReply d session)]) →
        Provided session ((queueStop d env w).events ++ ops.map .file ++
          [.nexthop 0 (env.nexthop.esmtp.answers session.envelope.recipients),
            .reply (doneReply d session)])) ↔
      QueueHonest d env w := by
  have hlast : Acknowledged
      [.nexthop 0 (env.nexthop.esmtp.answers session.envelope.recipients),
        .reply (doneReply d session)] :=
    ⟨doneReply d session, by simp, doneReply_250 d session⟩
  have htaken : Provided session
      [.nexthop 0 (env.nexthop.esmtp.answers session.envelope.recipients),
        .reply (doneReply d session)] ↔
      ∀ i rcpt, session.envelope.recipients[i]? = some rcpt →
        env.nexthop.esmtp.takes i rcpt = true := by
    rw [← env.nexthop.esmtp.answers_all]
    simp [Provided, env.nexthop.esmtp.answers_fst]
  rw [acknowledged_append, provided_append, provided_append, htaken, hsession,
    or_iff_left (not_provided (nothingCalled_files ops)),
    or_iff_right (not_provided_stop (queueGoesOn_ne hgoes).2)]
  constructor
  · intro h
    exact queueHonest_of_goesOn hgoes (fun _ _ => h (Or.inr (hsession ▸ hlast)))
      (fun _ hnot => absurd htransferred hnot)
  · intro h _
    exact h.taken hgoes hflush htransferred

end Smtp

variable {w' : World M} {out : List Event} (hnext : d.settings.nexthop ≠ none)
  (hsmtp : env.nexthop.isFile = false)

include hnext hsmtp

theorem smfNexthopFind_smtp :
    smfNexthopFind d.cmime d.settings env.nexthop =
      some (smtpDeliveryNexthop d.cmime d.settings env.nexthop.esmtp) := by
  rw [smfNexthopFind, if_neg hnext, if_neg (by simp [hsmtp])]

/-- The reply of the queue is right exactly when the run was honest. -/
theorem processed_honest_iff (h : Processed d env w w' out) :
    (Acknowledged out → Provided w'.session out) ↔ QueueHonest d env w := by
  have hfind := smfNexthopFind_smtp hnext hsmtp
  cases h with
  | ignored hret h =>
    exact iff_of_true (fun hack => absurd hack not_acknowledged_stop) (queueHonest_of_failed hret)
  | silent hret h =>
    exact iff_of_true (fun hack => absurd hack not_acknowledged_stop) (queueHonest_of_failed hret)
  | failed hret code h =>
    refine iff_of_true (fun hack => ?_) (queueHonest_of_failed hret)
    rw [acknowledged_append, or_iff_right not_acknowledged_stop, acknowledged_reply] at hack
    rcases h with ⟨_, rfl⟩ | ⟨_, rfl⟩
    · cases (codeReply_552 _).symm.trans hack
    · cases (codeReply_451 _).symm.trans hack
  | accepted hret => exact accepted_honest_iff hret
  | answered hret => exact answered_honest_iff hret
  | unflushed hret hflush ops =>
    refine iff_of_true (fun hack => ?_) (queueHonest_of_goesOn hret
      (fun hflushed => absurd hflush hflushed) (fun hflushed => absurd hflush hflushed))
    rw [acknowledged_append, or_iff_right not_acknowledged_stop] at hack
    exact absurd hack (not_acknowledged (replies_files ops))
  | noNexthop hret hflush hnone ops => cases hfind.symm.trans hnone
  | undelivered hret hflush next hsome ops rcpts hsent =>
    obtain rfl : smtpDeliveryNexthop d.cmime d.settings env.nexthop.esmtp = next :=
      Option.some.inj (hfind.symm.trans hsome)
    refine undelivered_honest_iff hret hflush ops (fun htransferred => ?_) rcpts
    have hevents := (smtpDeliveryNexthop_ok _ htransferred).2.symm.trans hsent
    simp at hevents
  | delivered hret hflush next hsome ops rcpts hsent =>
    obtain rfl : smtpDeliveryNexthop d.cmime d.settings env.nexthop.esmtp = next :=
      Option.some.inj (hfind.symm.trans hsome)
    have htransferred :
        Transferred env.nexthop.esmtp d.cmime d.settings (queueFlush d env w).world := by
      rw [← smtpDeliveryNexthop_iff]
      obtain ⟨_, rcpts', hevents⟩ :=
        smfNexthopFind_cases d.cmime d.settings env hfind (queueFlush d env w).world
      rw [hsent] at hevents
      simp at hevents
      exact hevents.1.symm
    obtain ⟨henvelope, hevents⟩ := smtpDeliveryNexthop_ok _ htransferred
    have hrcpts : rcpts = env.nexthop.esmtp.answers
        (sentEnvelope d.cmime d.settings (queueFlush d env w).world).recipients := by
      have heq := hsent.symm.trans hevents
      simp at heq
      exact heq
    rw [hrcpts, ← henvelope]
    exact delivered_honest_iff hret hflush ops htransferred henvelope

end Queue

/-! ## One call -/

section Call

variable {R : Type} (feed : Feed UInt8 R) {env : DataEnv M} {session opened : Session}
  {events : List Event} (hopen : processDataOpen d env session = (some opened, events))
  (hnext : d.settings.nexthop ≠ none) (hsmtp : env.queue.nexthop.isFile = false) (r : R)

include hopen hnext hsmtp

/-- A reply that starts with 250 means that the message has been taken exactly
when a queue that runs is honest. -/
theorem acknowledged_provided_iff :
    (Acknowledged (smfSmtpdProcessData d feed env session r).1.events →
        Provided (smfSmtpdProcessData d feed env session r).1.session
          (smfSmtpdProcessData d feed env session r).1.events) ↔
      ∀ w, ReachesQueue d env opened
          (dataLoop feed.toSource { messageSize := opened.messageSize } (feed.enter r)).state w →
        QueueHonest d env.queue w := by
  obtain ⟨path, _, hevents⟩ := processDataOpen_some d hopen
  rw [smfSmtpdProcessData_opened d feed hopen, hevents]
  dsimp only
  generalize (dataLoop feed.toSource { messageSize := opened.messageSize } (feed.enter r)).state
    = st
  have hstart : ¬ Acknowledged [.file (.create path), .reply REPLY_354] := by
    refine not_acknowledged_of (fun text htext => ?_)
    rw [List.mem_singleton.1 htext]
    decide
  rcases processDataFinish_cases d env opened st with
    ⟨hnot, _, hreplies⟩ | ⟨ops, w, w', out, hw, hout, hresult⟩
  · refine iff_of_true (fun hack => ?_) (fun w hw => absurd hw (hnot w))
    rcases acknowledged_append.1 hack with hack | hack
    · exact absurd hack hstart
    · refine absurd hack (not_acknowledged_of (fun text htext => ?_))
      rcases hreplies text htext with rfl | rfl
      · decide
      · exact codeReply_451 _
  · rw [hw.forall_iff, ← processed_honest_iff hnext hsmtp hout, hresult]
    have hbefore : NothingCalled ([.file (.create path), .reply REPLY_354] ++
          (.spooled st.spool :: ops.map .file ++ [.process w.session])) ∧
        ¬ Acknowledged ([.file (.create path), .reply REPLY_354] ++
          (.spooled st.spool :: ops.map .file ++ [.process w.session])) := by
      constructor
      · simp [nothingCalled_append, nothingCalled_cons, isCall]
      · intro hack
        rcases acknowledged_append.1 hack with hack | hack
        · exact hstart hack
        · exact not_acknowledged (by simp [replies]) hack
    have hafter : NothingCalled [.file (.unlink (w'.session.messageFile.getD []))] ∧
        ¬ Acknowledged [.file (.unlink (w'.session.messageFile.getD []))] :=
      ⟨by simp [nothingCalled_cons, isCall], not_acknowledged rfl⟩
    refine Iff.trans (Iff.of_eq ?_) (acknowledged_provided_wrap hbefore hafter)
    simp only [List.append_assoc, List.cons_append, List.nil_append]

end Call

end

/-- A client that has sent one sender and two recipients. -/
def pairClient : Client where
  state := .rcpt
  session :=
    { id := ascii "s0"
      envelope := { sender := some (ascii "a"), recipients := [ascii "b", ascii "c"] } }

/-- What a `DATA` step meets when the server gives these codes to the
recipients. -/
def rcptEnv (rcptStatus : Nat → Int) : DataEnv Bytes :=
  { DataEnv.plain with
    queue :=
      { DataEnv.plain.queue with
        nexthop :=
          { isFile := false, copied := false, esmtp := { Esmtp.accepting with rcptStatus } } } }

/-- A server that takes everything. -/
theorem acknowledged_provided_accepting :
    Provided
      (smfSmtpdProcessData relayDaemon socketFeed (rcptEnv fun _ => 250) pairClient.session
        (chunkSocket (ascii "a: b\r\n.\r\n") (by decide) (by decide))).1.session
      (smfSmtpdProcessData relayDaemon socketFeed (rcptEnv fun _ => 250) pairClient.session
        (chunkSocket (ascii "a: b\r\n.\r\n") (by decide) (by decide))).1.events := by
  refine (acknowledged_provided_iff relayDaemon socketFeed rfl (by simp [relayDaemon]) rfl _).2
    (fun w hw => ?_) ⟨ascii "250 Ok: processed as s0\r\n", ?_, by decide⟩
  · have hstop : (queueStop relayDaemon (rcptEnv fun _ => 250).queue w).ret = 0 := rfl
    refine queueHonest_of_goesOn (Or.inl hstop) (fun _ _ i rcpt _ => rfl) (fun _ _ => ?_)
    decide
  · have hevents := smfSmtpdProcessData_oneLine relayDaemon
      (@processDataOpen_opened _ relayDaemon (rcptEnv fun _ => 250) _ (Or.inl rfl) rfl
        pairClient.session)
      (ascii "a: b\r") (by decide) (by decide) (by decide) (by decide) (by decide)
    refine (congrArg (fun events => Event.reply (ascii "250 Ok: processed as s0\r\n") ∈ events)
      hevents).mpr ?_
    exact List.mem_of_getElem? (i := 8) rfl

/-- The server takes the first recipient alone, and the client is told that the
message has been processed. -/
theorem acknowledged_lost :
    0 < (dataLoop socketSource {}
        (chunkSocket (ascii "a: b\r\n.\r\n") (by decide) (by decide))).br ∧
      Acknowledged (smfSmtpdProcessData relayDaemon socketFeed
        (rcptEnv fun i => if i = 0 then 250 else 550) pairClient.session
        (chunkSocket (ascii "a: b\r\n.\r\n") (by decide) (by decide))).1.events ∧
      ¬ Provided
        (smfSmtpdProcessData relayDaemon socketFeed (rcptEnv fun i => if i = 0 then 250 else 550)
          pairClient.session
          (chunkSocket (ascii "a: b\r\n.\r\n") (by decide) (by decide))).1.session
        (smfSmtpdProcessData relayDaemon socketFeed (rcptEnv fun i => if i = 0 then 250 else 550)
          pairClient.session
          (chunkSocket (ascii "a: b\r\n.\r\n") (by decide) (by decide))).1.events := by
  have hevents : (smfSmtpdProcessData relayDaemon socketFeed
      (rcptEnv fun i => if i = 0 then 250 else 550) pairClient.session
      (chunkSocket (ascii "a: b\r\n.\r\n") (by decide) (by decide))).1.events =
        [.file (.create (ascii "/q/1")), .reply REPLY_354, .spooled (ascii "a: b\r\n"),
          .file (.create (ascii "/q/2")), .file (.unlink (ascii "/q/1")),
          .file (.rename (ascii "/q/2") (ascii "/q/1")),
          .process
            { pairClient.session with messageSize := 6, messageFile := some (ascii "/q/1") },
          .nexthop 0 [(ascii "b", true), (ascii "c", false)],
          .reply (ascii "250 Ok: processed as s0\r\n"), .file (.unlink (ascii "/q/1"))] := by
    refine (smfSmtpdProcessData_oneLine relayDaemon
      (@processDataOpen_opened _ relayDaemon (rcptEnv fun i => if i = 0 then 250 else 550) _
        (Or.inl rfl) rfl pairClient.session)
      (ascii "a: b\r") (by decide) (by decide) (by decide) (by decide) (by decide)).trans ?_
    rfl
  have hbr := (dataLoop_oneLine (ascii "a: b\r") (by decide) (by decide) (by decide) {}
    (by decide) (by decide)).2
  rw [hevents]
  refine ⟨hbr ▸ by decide, ?_, ?_⟩
  · exact ⟨ascii "250 Ok: processed as s0\r\n", by simp, by decide⟩
  · intro hprovided
    rcases hprovided with ⟨name, hmem⟩ | ⟨rcpts, hmem, _, hall⟩
    · simp at hmem
    · simp at hmem
      rw [hmem] at hall
      cases hall (ascii "c", false) (by simp)

end Spmfilter

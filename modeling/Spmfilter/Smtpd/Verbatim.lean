import Spmfilter.Smtpd.Process
import Spmfilter.Smtpd.Run

/-!
# Texts in replies

Four places put a text into a reply: the `response_msg` of a module, in
`smf_smtpd_process_modules` and twice in `smf_smtpd_handle_q_processing_error`, and
`nexthop_fail_msg`.  Each prints the line with `asprintf` and hands it to
`smf_smtpd_string_reply`, which prints it once more.

* `replyLine` is the line that the client is meant to get.
* `stringReply_verbatim_iff` is about one such call.
* `repliesVerbatim_iff` says which texts reach the client unchanged from all four places.
-/

namespace Spmfilter

open CString

/-- The code, a space, the text and CRLF. -/
def replyLine (code : Int) (text : Bytes) : Bytes := formatInt code ++ ascii " " ++ text ++ CRLF

theorem replyLine_250 (text : Bytes) : replyLine 250 text = ascii "250 " ++ text ++ CRLF := rfl

theorem percent_replyLine (code : Int) (text : Bytes) :
    PERCENT ∈ replyLine code text ↔ PERCENT ∈ text := by
  have hspace : PERCENT ∉ ascii " " := by decide
  have hcrlf : PERCENT ∉ CRLF := by decide
  rw [replyLine, List.mem_append, List.mem_append, List.mem_append]
  simp only [percent_notMem_formatInt, hspace, hcrlf, false_or, or_false]

/-- One reply, whatever its code: it comes out as it was printed when it holds no percent
sign. -/
theorem stringReply_verbatim_iff (code : Int) (text : Bytes) :
    (∀ p : Vasprintf, p.Interprets →
        smfSmtpdStringReply p (replyLine code text) = [.reply (replyLine code text)]) ↔
      PERCENT ∉ text := by
  rw [← percent_replyLine code text, ← Vasprintf.interprets_iff]
  have hsent : ∀ p : Vasprintf, smfSmtpdStringReply p (replyLine code text) =
      [.reply (p.expand (replyLine code text))] := fun p => smfSmtpdStringReply_code p code text CRLF
  constructor
  · intro h p hp
    have hline := (hsent p).symm.trans (h p hp)
    rw [Event.reply.inj (List.singleton_inj.mp hline)]
  · intro h p _
    rw [hsent p, p.expand_of_noPercent (Vasprintf.interprets_iff.mp h)]

/-- The four places write the line for `text`, with the print `p`. -/
structure RepliesVerbatim (p : Vasprintf) (text : Bytes) : Prop where
  accepted : ∀ (M : Type) (d : Daemon M) (settings : Settings) (session : Session),
    d.vasprintf = p → session.responseMsg = some text →
      (smfSmtpdHandleQProcessingError d settings session 1).2 = [.reply (replyLine 250 text)]
  answered : ∀ (M : Type) (d : Daemon M) (settings : Settings) (session : Session) (retval : Int),
    d.vasprintf = p → session.responseMsg = some text → retval ≠ -1 → retval ≠ 1 → retval ≠ 2 →
      (smfSmtpdHandleQProcessingError d settings session retval).2 =
        [.reply (replyLine retval text)]
  nexthop : ∀ (M : Type) (d : Daemon M) (settings : Settings) (session : Session),
    d.vasprintf = p → settings.nexthopFailMsg = text →
      smfSmtpdHandleNexthopError d settings session =
        [.reply (replyLine settings.nexthopFailCode text)]
  processed : ∀ (M : Type) (d : Daemon M) (env : QueueEnv M) (w : World M),
    let out := smfModulesProcess d.cmime (smtpdQueue d) d.settings env w
    d.vasprintf = p → out.ret ≠ -1 → out.ret ≠ 1 → out.world.session.responseMsg = some text →
      (smfSmtpdProcessModules d env w).events = out.events ++ [.reply (replyLine 250 text)]

/-- Each place hands its line to `smf_smtpd_string_reply`. -/
theorem repliesVerbatim_of_stringReply {p : Vasprintf} {text : Bytes}
    (h : ∀ code, smfSmtpdStringReply p (replyLine code text) = [.reply (replyLine code text)]) :
    RepliesVerbatim p text where
  accepted := by
    intro M d settings session hp hmsg
    rw [smfSmtpdHandleQProcessingError, if_neg (by decide), if_pos rfl, hmsg, ← h 250, ← hp]
    rfl
  answered := by
    intro M d settings session retval hp hmsg hfail hone htwo
    rw [smfSmtpdHandleQProcessingError, if_neg hfail, if_neg hone, if_neg htwo, hmsg, ← h retval,
      ← hp]
    rfl
  nexthop := by
    intro M d settings session hp hmsg
    rw [← h settings.nexthopFailCode, ← hp, ← hmsg]
    rfl
  processed := by
    intro M d env w out hp hfail hone hmsg
    rw [smfSmtpdProcessModules]
    show (if out.ret = -1 then _ else _ : Outcome M).events = _
    rw [if_neg hfail, if_neg hone, ← h 250, ← hp]
    show out.events ++ smfSmtpdStringReply d.vasprintf (processedText out.world.session) = _
    rw [processedText, hmsg, replyLine_250]

/-- **Which texts reach the client unchanged**: those without a percent sign. -/
theorem repliesVerbatim_iff (text : Bytes) :
    (∀ p : Vasprintf, p.Interprets → RepliesVerbatim p text) ↔ PERCENT ∉ text := by
  constructor
  · intro h
    rw [← stringReply_verbatim_iff 250 text]
    intro p hp
    exact (h p hp).accepted Bytes { Daemon.plain with vasprintf := p } {}
      { id := [], responseMsg := some text } rfl rfl
  · intro h p hp
    exact repliesVerbatim_of_stringReply fun code => (stringReply_verbatim_iff code text).mpr h p hp

/-- A percent sign in a text of one line. -/
theorem repliesVerbatim_percent :
    ¬ ∀ text : Bytes, (∀ c ∈ text, c ≠ 0 ∧ c ≠ CR ∧ c ≠ LF) →
      ∀ p : Vasprintf, p.Interprets → RepliesVerbatim p text := by
  intro hall
  have hquota := hall (ascii "quota 95%% used") (forall_mem_of_all (by decide))
  have hline := (stringReply_verbatim_iff 250 (ascii "quota 95%% used")).mp fun p hp =>
    (hquota p hp).accepted Bytes { Daemon.plain with vasprintf := p } {}
      { id := [], responseMsg := some (ascii "quota 95%% used") } rfl rfl
  exact hline (by decide)

end Spmfilter

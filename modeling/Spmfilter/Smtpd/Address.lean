import Spmfilter.EmailAddress
import Spmfilter.Smtpd.Run

/-!
# Addresses in angle brackets

`smf_internal_strip_email_addr`, and the way a path takes from a `MAIL` or `RCPT` request
into the envelope.

* `stripEmailAddr_brackets` takes an address apart; without a closing bracket behind an
  opening one nothing is cut off.
* `stripEmailAddr_idem` needs no more than that.
* `getReqValue_path` is what the trimming of a request leaves.
* `stripEmailAddr_records` puts the request and the envelope together.
-/

namespace Spmfilter

open CString

section
variable {d p x a : Bytes}

/-- The text between the first `<` and the first `>` behind it. -/
theorem stripEmailAddr_brackets (hd : LANGLE ∉ d) (hp : RANGLE ∉ p) :
    smfInternalStripEmailAddr (d ++ LANGLE :: (p ++ RANGLE :: x)) = p := by
  have hopen : strchr (d ++ LANGLE :: (p ++ RANGLE :: x)) 60 = some (LANGLE :: (p ++ RANGLE :: x)) :=
    strchr_append hd
  have hclose : strchr (p ++ RANGLE :: x) 62 = some (RANGLE :: x) := strchr_append hp
  have hlen : (p ++ RANGLE :: x).length - (RANGLE :: x).length = p.length := by
    rw [List.length_append, Nat.add_sub_cancel]
  simp only [smfInternalStripEmailAddr, hopen, List.tail_cons, hclose, hlen, List.take_left]

/-- Without a `<`, or without a `>` behind it, the address stays as it is. -/
theorem stripEmailAddr_self (h : ∀ d x, a = d ++ LANGLE :: x → LANGLE ∉ d → RANGLE ∉ x) :
    smfInternalStripEmailAddr a = a := by
  cases hopen : strchr a 60 with
  | none => simp only [smfInternalStripEmailAddr, hopen]
  | some t =>
    obtain ⟨d, x, rfl, rfl, hd⟩ := strchr_eq_some.mp hopen
    have hclose : strchr x 62 = none := strchr_eq_none.mpr (h d x rfl hd)
    simp only [smfInternalStripEmailAddr, hopen, List.tail_cons, hclose]

/-- One way or the other. -/
theorem stripEmailAddr_cases (a : Bytes) :
    smfInternalStripEmailAddr a = a ∨ RANGLE ∉ smfInternalStripEmailAddr a := by
  by_cases h : ∀ d x, a = d ++ LANGLE :: x → LANGLE ∉ d → RANGLE ∉ x
  · exact Or.inl (stripEmailAddr_self h)
  · push Not at h
    obtain ⟨d, x, rfl, hd, hx⟩ := h
    obtain ⟨p, rest, rfl, hp⟩ := List.eq_append_cons_of_mem hx
    right
    rw [stripEmailAddr_brackets hd hp]
    exact hp

/-- What has been stripped has no `>` left, or is what it was. -/
theorem stripEmailAddr_idem (a : Bytes) :
    smfInternalStripEmailAddr (smfInternalStripEmailAddr a) = smfInternalStripEmailAddr a := by
  rcases stripEmailAddr_cases a with hsame | hclosed
  · rw [hsame, hsame]
  · refine stripEmailAddr_self fun d x hx _ hmem => hclosed ?_
    rw [hx]
    exact List.mem_append_right d (List.mem_cons_of_mem _ hmem)

/-! ## From the request to the envelope -/

/-- Nothing of the path is white space that `smf_core_strstrip` would cut off. -/
theorem strstrip_path (p x : Bytes) :
    ∃ x', smfCoreStrstrip (LANGLE :: (p ++ RANGLE :: x)) = LANGLE :: (p ++ RANGLE :: x') := by
  have hfront : (LANGLE :: (p ++ RANGLE :: x)).dropWhile isspace = LANGLE :: (p ++ RANGLE :: x) :=
    List.dropWhile_cons_of_neg (by decide)
  have hback : (LANGLE :: (p ++ RANGLE :: x)).reverse =
      x.reverse ++ RANGLE :: (LANGLE :: p).reverse := by
    rw [← List.cons_append, List.reverse_append, List.reverse_cons, List.append_assoc,
      List.singleton_append]
  refine ⟨(x.reverse.dropWhile isspace).reverse, ?_⟩
  rw [smfCoreStrstrip, hfront, if_neg (List.cons_ne_nil _ _), hback, List.dropWhile_append]
  split
  · rename_i hempty
    rw [List.dropWhile_cons_of_neg (by decide), List.isEmpty_iff.mp hempty, List.reverse_cons,
      List.reverse_reverse]
    rfl
  · rw [List.reverse_append, List.reverse_cons, List.reverse_reverse, List.append_assoc]
    rfl

/-- The value of a request that goes on with a path. -/
theorem getReqValue_path {cmd white : Bytes} {jmp : Nat} (hcmd : cmd.length = jmp)
    (hwhite : ∀ c ∈ white, isspace c = true) (p x : Bytes) :
    ∃ x', smfSmtpdGetReqValue (cmd ++ (white ++ LANGLE :: (p ++ RANGLE :: x))) jmp =
      LANGLE :: (p ++ RANGLE :: x') := by
  obtain ⟨x', hpath⟩ := strstrip_path p x
  have hstrip : ∀ before : Bytes, (∀ c ∈ before, isspace c = true) →
      smfCoreStrstrip (before ++ LANGLE :: (p ++ RANGLE :: x)) = LANGLE :: (p ++ RANGLE :: x') := by
    intro before hbefore
    have hspace := smfCoreStrstrip_space (LANGLE :: (p ++ RANGLE :: x)) hbefore
      (List.forall_mem_nil _)
    rwa [List.append_nil, hpath] at hspace
  refine ⟨x', ?_⟩
  rw [smfSmtpdGetReqValue, List.drop_left' hcmd]
  cases white with
  | nil => exact hpath
  | cons c white =>
    split
    · exact hstrip white fun c hc => hwhite c (List.mem_cons_of_mem _ hc)
    · exact hstrip (c :: white) hwhite

end

section Request

variable {M : Type} {server : Daemon M} {sid : Bytes} {client : Client} {s cmd lit p x : Bytes}

theorem hasPrefixNoCase_append (h : cmd.map tolower = lit.map tolower) (rest : Bytes) :
    hasPrefixNoCase (cmd ++ rest) lit = true := by
  have hlen : cmd.length = lit.length := (length_of_map_tolower h).trans (List.length_map tolower)
  rw [hasPrefixNoCase, List.take_left' hlen, beq_iff_eq, h]

/-- Commands differ in the first four bytes. -/
theorem hasPrefixNoCase_four (h : (s.take 4).map tolower ≠ (lit.take 4).map tolower)
    (hlit : 4 ≤ lit.length) : hasPrefixNoCase s lit = false := by
  refine Bool.eq_false_iff.mpr fun heq => h ?_
  rw [hasPrefixNoCase, beq_iff_eq] at heq
  have hfour := congrArg (List.take 4) heq
  rwa [← List.map_take, ← List.map_take, List.take_take, Nat.min_eq_left hlit] at hfour

theorem take_four {w : Bytes} (h : cmd.map tolower = w) (hw : 4 ≤ w.length) (rest : Bytes) :
    ((cmd ++ rest).take 4).map tolower = w.take 4 := by
  have hlen : 4 ≤ cmd.length := by rwa [length_of_map_tolower h]
  rw [List.take_append_of_le_length hlen, List.map_take, h]

theorem commandOf_mail (h : cmd.map tolower = ascii "mail from:") (rest : Bytes) :
    commandOf (cmd ++ rest) = .mail := by
  have hfour := take_four h (by decide) rest
  rw [commandOf, hasPrefixNoCase_four (by rw [hfour]; decide) (by decide),
    hasPrefixNoCase_four (by rw [hfour]; decide) (by decide),
    hasPrefixNoCase_four (by rw [hfour]; decide) (by decide),
    hasPrefixNoCase_four (by rw [hfour]; decide) (by decide),
    hasPrefixNoCase_append (by rw [h]; decide)]
  rfl

theorem commandOf_rcpt (h : cmd.map tolower = ascii "rcpt to:") (rest : Bytes) :
    commandOf (cmd ++ rest) = .rcpt := by
  have hfour := take_four h (by decide) rest
  rw [commandOf, hasPrefixNoCase_four (by rw [hfour]; decide) (by decide),
    hasPrefixNoCase_four (by rw [hfour]; decide) (by decide),
    hasPrefixNoCase_four (by rw [hfour]; decide) (by decide),
    hasPrefixNoCase_four (by rw [hfour]; decide) (by decide),
    hasPrefixNoCase_four (by rw [hfour]; decide) (by decide),
    hasPrefixNoCase_append (by rw [h]; decide)]
  rfl

section Path

variable {white : Bytes} (hwhite : ∀ c ∈ white, isspace c = true) (hp : RANGLE ∉ p)
include hwhite hp

/-- The value of the request is not empty, and the path is what is left of it. -/
theorem getReqValue_strip {verb : Bytes} (hcmd : cmd.map tolower = verb) {jmp : Nat}
    (hjmp : verb.length = jmp) (x : Bytes) :
    smfSmtpdGetReqValue (cmd ++ (white ++ LANGLE :: (p ++ RANGLE :: x))) jmp ≠ [] ∧
      smfInternalStripEmailAddr
        (smfSmtpdGetReqValue (cmd ++ (white ++ LANGLE :: (p ++ RANGLE :: x))) jmp) = p := by
  obtain ⟨x', hvalue⟩ := getReqValue_path ((length_of_map_tolower hcmd).trans hjmp) hwhite p x
  rw [hvalue]
  exact ⟨List.cons_ne_nil _ _, @stripEmailAddr_brackets [] p x' List.not_mem_nil hp⟩

/-- `MAIL FROM:<p>`, unless `MAIL` has just been given. -/
theorem handleRequest_mail (hcmd : cmd.map tolower = ascii "mail from:")
    (hstate : client.state ≠ .mail) :
    smfSmtpdHandleRequest server sid client (cmd ++ (white ++ LANGLE :: (p ++ RANGLE :: x))) =
      (.next { state := .mail
               session := { client.session with
                 envelope := { client.session.envelope with sender := some p } } },
        [.reply (smfSmtpdCodeReply server.settings.smtpCodes 250)]) := by
  obtain ⟨hne, hstrip⟩ := getReqValue_strip hwhite hp hcmd (show _ = 10 from rfl) x
  rw [smfSmtpdHandleRequest_eq, commandOf_mail hcmd]
  show handleMail server client _ = _
  rw [handleMail, if_neg hstate, if_neg hne, smfEnvelopeSetSender, hstrip]

/-- `RCPT TO:<p>`, inside of a transaction. -/
theorem handleRequest_rcpt (hcmd : cmd.map tolower = ascii "rcpt to:")
    (hstate : client.state = .mail ∨ client.state = .rcpt) :
    smfSmtpdHandleRequest server sid client (cmd ++ (white ++ LANGLE :: (p ++ RANGLE :: x))) =
      (.next { state := .rcpt
               session := { client.session with
                 envelope := { client.session.envelope with
                   recipients := client.session.envelope.recipients ++ [p] } } },
        [.reply (smfSmtpdCodeReply server.settings.smtpCodes 250)]) := by
  obtain ⟨hne, hstrip⟩ := getReqValue_strip hwhite hp hcmd (show _ = 8 from rfl) x
  have hopen : ¬ (client.state ≠ .mail ∧ client.state ≠ .rcpt) := by
    rintro ⟨hmail, hrcpt⟩
    exact hstate.elim hmail hrcpt
  rw [smfSmtpdHandleRequest_eq, commandOf_rcpt hcmd]
  show handleRcpt server client _ = _
  rw [handleRcpt, if_neg hopen, if_neg hne, smfEnvelopeAddRcpt, hstrip]

end Path

/-- **The path of a request gets into the envelope as it is**, whatever stands behind it. -/
theorem stripEmailAddr_records {d p white : Bytes} (hd : LANGLE ∉ d) (hp : RANGLE ∉ p)
    (hwhite : ∀ c ∈ white, isspace c = true) (x : Bytes) :
    smfInternalStripEmailAddr (d ++ LANGLE :: (p ++ RANGLE :: x)) = p ∧
      (∀ a, smfInternalStripEmailAddr (smfInternalStripEmailAddr a) = smfInternalStripEmailAddr a) ∧
      (∀ {M : Type} (server : Daemon M) (sid : Bytes) (client : Client) (cmd : Bytes),
        cmd.map tolower = ascii "mail from:" → client.state ≠ .mail →
        smfSmtpdHandleRequest server sid client (cmd ++ (white ++ LANGLE :: (p ++ RANGLE :: x))) =
          (.next { state := .mail
                   session := { client.session with
                     envelope := { client.session.envelope with sender := some p } } },
            [.reply (smfSmtpdCodeReply server.settings.smtpCodes 250)])) ∧
      (∀ {M : Type} (server : Daemon M) (sid : Bytes) (client : Client) (cmd : Bytes),
        cmd.map tolower = ascii "rcpt to:" → (client.state = .mail ∨ client.state = .rcpt) →
        smfSmtpdHandleRequest server sid client (cmd ++ (white ++ LANGLE :: (p ++ RANGLE :: x))) =
          (.next { state := .rcpt
                   session := { client.session with
                     envelope := { client.session.envelope with
                       recipients := client.session.envelope.recipients ++ [p] } } },
            [.reply (smfSmtpdCodeReply server.settings.smtpCodes 250)])) :=
  ⟨stripEmailAddr_brackets hd hp, stripEmailAddr_idem,
    fun _ _ _ _ hcmd hstate => handleRequest_mail hwhite hp hcmd hstate,
    fun _ _ _ _ hcmd hstate => handleRequest_rcpt hwhite hp hcmd hstate⟩

/-- A `MAIL` and a `RCPT` with a parameter behind the path, and another name in front of it. -/
theorem stripEmailAddr_records_sample :
    smfInternalStripEmailAddr (ascii "Foo <foo@bar> SIZE=100") = ascii "foo@bar" ∧
      smfInternalStripEmailAddr (smfInternalStripEmailAddr (ascii "<a<b>c>")) =
        smfInternalStripEmailAddr (ascii "<a<b>c>") ∧
      smfSmtpdHandleRequest Daemon.plain (ascii "s1") openClient
          (ascii "MAIL FROM: <foo@bar> SIZE=100") =
        (.next { state := .mail
                 session := { openClient.session with
                   envelope := { openClient.session.envelope with
                     sender := some (ascii "foo@bar") } } },
          [.reply (smfSmtpdCodeReply Daemon.plain.settings.smtpCodes 250)]) ∧
      smfSmtpdHandleRequest Daemon.plain (ascii "s1") openClient
          (ascii "rcpt to: <foo@bar> SIZE=100") =
        (.next { state := .rcpt
                 session := { openClient.session with
                   envelope := { openClient.session.envelope with
                     recipients := [ascii "b", ascii "foo@bar"] } } },
          [.reply (smfSmtpdCodeReply Daemon.plain.settings.smtpCodes 250)]) := by
  obtain ⟨hstrip, hidem, hmail, hrcpt⟩ :=
    @stripEmailAddr_records (ascii "Foo ") (ascii "foo@bar") (ascii " ") (by decide) (by decide)
      (forall_mem_of_all (by decide)) (ascii " SIZE=100")
  exact ⟨hstrip, hidem _,
    hmail Daemon.plain (ascii "s1") openClient (ascii "MAIL FROM:") rfl (by decide),
    hrcpt Daemon.plain (ascii "s1") openClient (ascii "rcpt to:") rfl (by decide)⟩

end Request

end Spmfilter

import Spmfilter.Lib.Handles
import Spmfilter.Nexthop

/-!
# The handles of a delivery

`smf_smtp_deliver` with every call that gives, uses or takes back a handle: the session of
libesmtp, the authentication context, the spool file and the blocks of the heap.  libesmtp copies
the server, the reverse path and the recipients.  It keeps the authentication context, and the
stream or string that the message is read from, and works with them in `smtp_start_session`.

* `smfSmtpDeliverCalls` are the calls, and `deliver_status` connects them to `smfSmtpDeliver`.
* `Delivery.exit` says where a delivery ends, and `Delivery.left` what it leaves open there.
* `delivery_run` is about one delivery and `deliveries_handles` about any number of them.
-/

namespace Spmfilter

open CString Handles

/-! ## The calls -/

inductive DeliveryHandle
  | status | statusText
  /-- what `auth_client_init` sets up -/
  | client
  | session | host | did | ids | auth | reversePath | file | messageString
deriving DecidableEq

inductive DeliveryCall
  | statusNew
  | authClientInit
  | createSession
  | addMessage
  | newHost (host : Bytes)
  /-- The server is the string that was built for it. -/
  | setServer (host : Bytes) (built : Bool)
  | freeHost
  | destroySession
  | setText (text : Option Bytes)
  | generateSid
  | newIds
  | starttlsEnable
  | setEventcb
  | authCreateContext
  | authSetMechanismFlags
  | authSetInteractCb
  | authSetContext
  | newReversePath (path : Bytes)
  | setReversePath (path : Bytes)
  | freeReversePath
  | fopen (opened : Bool)
  | setMessageFp
  | messageToString (text : Bytes)
  | setMessageStr (text : Bytes)
  | addRecipient (rcpt : Bytes)
  /-- The message is read from `source`. -/
  | startSession (source : DeliveryHandle) (auth : Bool)
  | transferStatus
  | enumerateRecipients
  | fclose
  | freeString
  | freeDid
  | freeIds
  | authDestroyContext
  | authClientExit
  | statusFree (text : Bool)
deriving DecidableEq

def DeliveryCall.ops : DeliveryCall → List (Op DeliveryHandle)
  | statusNew => [.opens .status]
  | authClientInit => [.opens .client]
  | authClientExit => [.closes .client]
  | createSession => [.opens .session]
  | newHost _ => [.opens .host]
  | setServer _ built => .uses .session :: if built then [.uses .host] else []
  | freeHost => [.closes .host]
  | destroySession => [.closes .session]
  | setText text => .uses .status :: if text.isSome then [.opens .statusText] else []
  | generateSid => [.opens .did]
  | newIds => [.opens .ids]
  | addMessage | starttlsEnable | setEventcb | addRecipient _ | transferStatus => [.uses .session]
  | authCreateContext => [.opens .auth]
  | authSetMechanismFlags | authSetInteractCb => [.uses .auth]
  | authSetContext => [.uses .session, .uses .auth]
  | newReversePath _ => [.opens .reversePath]
  | setReversePath _ => [.uses .session, .uses .reversePath]
  | freeReversePath => [.closes .reversePath]
  | fopen opened => if opened then [.opens .file] else []
  | setMessageFp => [.uses .session, .uses .file]
  | messageToString _ => [.opens .messageString]
  | setMessageStr _ => [.uses .session, .uses .messageString]
  | startSession source auth =>
    [.uses .session, .uses source] ++ if auth then [.uses .auth] else []
  | enumerateRecipients => [.uses .session, .uses .ids, .uses .did]
  | fclose => [.closes .file]
  | freeString => [.closes .messageString]
  | freeDid => [.closes .did]
  | freeIds => [.closes .ids]
  | authDestroyContext => [.closes .auth]
  | statusFree text => (if text then [.closes .statusText] else []) ++ [.closes .status]

/-! ## The function -/

/-- The arguments of `smf_smtp_deliver`, and what it meets outside. -/
structure Delivery where
  env : Envelope
  /-- The text of `env->message`. -/
  message : Option Bytes
  msgFile : Option Bytes
  /-- `fopen` succeeds, or what `strerror` and `errno` say. -/
  fopenError : Option Bytes
  setMessageStr : Bytes → Bool
  esmtp : Esmtp
  /-- What `smtp_strerror` says. -/
  startError : Bytes
  /-- The text of `smtp_message_transfer_status`. -/
  transferText : Option Bytes

/-- `SMFSmtpStatus_T`. -/
structure SmtpStatus where
  code : Int
  text : Option Bytes

namespace Delivery

variable (d : Delivery)

def hasCredentials : Bool := d.env.authUser.isSome && d.env.authPass.isSome

def serverCalls (nexthop : Bytes) : List DeliveryCall :=
  if 58 ∈ nexthop then [.setServer nexthop false]
  else
    [.newHost (nexthop ++ ascii ":25"), .setServer (nexthop ++ ascii ":25") true, .freeHost]

def authCalls : List DeliveryCall :=
  if d.hasCredentials then
    [.authCreateContext, .authSetMechanismFlags, .authSetInteractCb, .authSetContext]
  else []

def reversePath : Bytes := d.env.sender.getD (ascii "<>")

/-- What comes in front of the message. -/
def openCalls (nexthop : Bytes) : List DeliveryCall :=
  [.statusNew, .authClientInit, .createSession, .addMessage] ++ serverCalls nexthop ++
    [.generateSid, .newIds, .starttlsEnable, .setEventcb] ++ d.authCalls ++
      [.newReversePath d.reversePath, .setReversePath d.reversePath]

/-- The end of a delivery that goes wrong before there is a message. -/
def giveUp (text : Bytes) : List DeliveryCall × SmtpStatus :=
  ([.setText (some text), .destroySession, .freeDid, .freeIds], ⟨-1, some text⟩)

/-- `if (fp != NULL) fclose(fp)`. -/
def closeFile (source : DeliveryHandle) : List DeliveryCall :=
  if source = .file then [.fclose] else []

/-- What comes behind the message, which is read from `source`. -/
def sendCalls (source : DeliveryHandle) : List DeliveryCall × SmtpStatus :=
  let failed (text : Bytes) :=
    [.setText (some text), .destroySession] ++ closeFile source ++ [.freeDid, .freeIds]
  if d.env.recipients = [] then
    let text := ascii "no recipients provided"
    (failed text, ⟨-1, some text⟩)
  else
    let sent := d.env.recipients.map .addRecipient ++ [.startSession source d.hasCredentials]
    if d.esmtp.startSession = false then
      let text := ascii "failed to initialize smtp session: " ++ d.startError
      (sent ++ failed text, ⟨-1, some text⟩)
    else
      (sent ++ [.transferStatus, .enumerateRecipients, .setText d.transferText, .destroySession] ++
        closeFile source ++ (if source = .messageString then [.freeString] else []) ++
        [.freeDid, .freeIds] ++
        (if d.hasCredentials then [.authDestroyContext, .authClientExit] else []),
        ⟨d.esmtp.transferStatus d.env.recipients, d.transferText⟩)

/-- Calls in front of others. -/
def after (calls : List DeliveryCall) (rest : List DeliveryCall × SmtpStatus) :
    List DeliveryCall × SmtpStatus :=
  (calls ++ rest.1, rest.2)

/-- The message, and what comes behind it. -/
def messageCalls : List DeliveryCall × SmtpStatus :=
  match d.msgFile with
  | some _ =>
    match d.fopenError with
    | some error => after [.fopen false] (giveUp (ascii "unable to open file: " ++ error))
    | none => after [.fopen true, .setMessageFp] (d.sendCalls .file)
  | none =>
    match d.message with
    | some text =>
      if d.setMessageStr text = false then
        let failed := ascii "failed to create message object"
        ([.messageToString text, .setMessageStr text, .setText (some failed), .freeDid, .freeIds],
          ⟨-1, some failed⟩)
      else after [.messageToString text, .setMessageStr text] (d.sendCalls .messageString)
    | none => giveUp (ascii "no message content provided")

end Delivery

/-- `smf_smtp_deliver`: its calls, and the status it returns. -/
def smfSmtpDeliverCalls (d : Delivery) : List DeliveryCall × SmtpStatus :=
  match d.env.nexthop with
  | none =>
    let text := ascii "invalid smtp host"
    ([.statusNew, .authClientInit, .createSession, .addMessage, .destroySession,
      .setText (some text)], ⟨-1, some text⟩)
  | some nexthop =>
    if d.esmtp.setReversePath d.reversePath = false then
      let text := ascii "failed to set reverse_path"
      (d.openCalls nexthop ++ [.setText (some text), .freeReversePath, .freeDid, .freeIds],
        ⟨-1, some text⟩)
    else Delivery.after (d.openCalls nexthop ++ [.freeReversePath]) d.messageCalls

/-- A delivery, and `smf_smtp_status_free` by its caller. -/
def Delivery.calls (d : Delivery) : List DeliveryCall :=
  (smfSmtpDeliverCalls d).1 ++ [.statusFree (smfSmtpDeliverCalls d).2.text.isSome]

def Delivery.ops (d : Delivery) : List (Op DeliveryHandle) := d.calls.flatMap DeliveryCall.ops

/-! ## Where a delivery ends -/

/-- What is left of a delivery that has not been sent. -/
def unsentHandles (string auth : Bool) : Finset DeliveryHandle :=
  {.client} ∪ (if string then {.messageString} else ∅) ∪ if auth then {.auth} else ∅

inductive DeliveryExit
  | noNexthop | reversePath | noFile | noMessage | noString | noRecipients | notStarted
  | transferred
deriving DecidableEq

namespace Delivery

variable (d : Delivery)

def sendExit : DeliveryExit :=
  if d.env.recipients = [] then .noRecipients
  else if d.esmtp.startSession = false then .notStarted
  else .transferred

def messageExit : DeliveryExit :=
  if d.msgFile ≠ none ∧ d.fopenError ≠ none then .noFile
  else if d.msgFile = none ∧ d.message = none then .noMessage
  else if d.msgFile = none ∧ d.message.any (!d.setMessageStr ·) then .noString
  else d.sendExit

def exit : DeliveryExit :=
  if d.env.nexthop = none then .noNexthop
  else if d.esmtp.setReversePath d.reversePath = false then .reversePath
  else d.messageExit

/-- What nobody gives back. -/
def left : Finset DeliveryHandle :=
  match d.exit with
  | .noNexthop => {.client}
  | .reversePath => insert .session (unsentHandles false d.hasCredentials)
  | .noFile | .noMessage => unsentHandles false d.hasCredentials
  | .noString => insert .session (unsentHandles true d.hasCredentials)
  | .noRecipients | .notStarted => unsentHandles d.msgFile.isNone d.hasCredentials
  | .transferred => if d.hasCredentials then ∅ else {.client}

end Delivery

/-! ## One delivery -/

/-- What is open while the calls go on. -/
def openHandles (auth : Bool) : Finset DeliveryHandle :=
  {.status, .client, .session, .did, .ids} ∪ if auth then {.auth} else ∅

/-- What the caller frees. -/
def statusHandles (text : Bool) : Finset DeliveryHandle :=
  {.status} ∪ if text then {.statusText} else ∅

section Runs

variable (d : Delivery)

theorem openCalls_run (nexthop : Bytes) :
    run ∅ ((d.openCalls nexthop).flatMap DeliveryCall.ops) =
      some (insert .reversePath (openHandles d.hasCredentials)) := by
  rw [Delivery.openCalls, Delivery.serverCalls, Delivery.authCalls]
  by_cases hcolon : 58 ∈ nexthop
  · rw [if_pos hcolon]
    cases d.hasCredentials <;> exact of_decide_eq_true rfl
  · rw [if_neg hcolon]
    cases d.hasCredentials <;> exact of_decide_eq_true rfl

/-- The recipients are added to the session. -/
theorem addRecipients_run {held : Finset DeliveryHandle} (hsession : .session ∈ held)
    (rcpts : List Bytes) :
    run held ((rcpts.map DeliveryCall.addRecipient).flatMap DeliveryCall.ops) = some held := by
  refine run_uses hsession _ fun op hop => ?_
  obtain ⟨call, hcall, hop⟩ := List.mem_flatMap.mp hop
  obtain ⟨rcpt, -, rfl⟩ := List.mem_map.mp hcall
  exact List.mem_singleton.mp hop

theorem sendCalls_run {source : DeliveryHandle}
    (hsource : source = .file ∨ source = .messageString) :
    run (insert source (openHandles d.hasCredentials))
        ((d.sendCalls source).1.flatMap DeliveryCall.ops) =
      some (statusHandles (d.sendCalls source).2.text.isSome ∪
        if d.env.recipients = [] ∨ d.esmtp.startSession = false then
          unsentHandles (source = .messageString) d.hasCredentials
        else if d.hasCredentials then ∅ else {.client}) := by
  have hsession : .session ∈ insert source (openHandles d.hasCredentials) := by
    simp [openHandles]
  have hadded := addRecipients_run hsession d.env.recipients
  rw [Delivery.sendCalls]
  by_cases hnone : d.env.recipients = []
  · rw [if_pos hnone, if_pos (.inl hnone)]
    rcases hsource with rfl | rfl <;> cases d.hasCredentials <;> exact of_decide_eq_true rfl
  rw [if_neg hnone]
  by_cases hstart : d.esmtp.startSession = false
  · rw [if_pos hstart, if_pos (.inr hstart)]
    dsimp only
    rw [List.append_assoc, List.flatMap_append]
    refine run_trans hadded ?_
    rcases hsource with rfl | rfl <;> cases d.hasCredentials <;> exact of_decide_eq_true rfl
  · rw [if_neg hstart, if_neg (not_or.mpr ⟨hnone, hstart⟩)]
    simp only [List.append_assoc, List.flatMap_append]
    refine run_trans hadded ?_
    rcases hsource with rfl | rfl <;> cases d.hasCredentials <;> cases d.transferText <;>
      exact of_decide_eq_true rfl

theorem openCalls_freed_run (nexthop : Bytes) :
    run ∅ ((d.openCalls nexthop ++ [DeliveryCall.freeReversePath]).flatMap DeliveryCall.ops) =
      some (openHandles d.hasCredentials) := by
  rw [List.flatMap_append]
  refine run_trans (openCalls_run d nexthop) ?_
  cases d.hasCredentials <;> exact of_decide_eq_true rfl

/-- Where the message has been set. -/
theorem left_of_sends (hexit : d.exit = d.sendExit) :
    d.left =
      if d.env.recipients = [] ∨ d.esmtp.startSession = false then
        unsentHandles d.msgFile.isNone d.hasCredentials
      else if d.hasCredentials then ∅ else {.client} := by
  rw [Delivery.left, hexit, Delivery.sendExit]
  by_cases hnone : d.env.recipients = []
  · rw [if_pos hnone]
    exact (if_pos (Or.inl hnone)).symm
  rw [if_neg hnone]
  by_cases hstart : d.esmtp.startSession = false
  · rw [if_pos hstart]
    exact (if_pos (Or.inr hstart)).symm
  · rw [if_neg hstart]
    exact (if_neg (not_or.mpr ⟨hnone, hstart⟩)).symm

/-- Behind the reverse path. -/
theorem messageCalls_run (hexit : d.exit = d.messageExit) :
    run (openHandles d.hasCredentials) (d.messageCalls.1.flatMap DeliveryCall.ops) =
      some (statusHandles d.messageCalls.2.text.isSome ∪ d.left) := by
  rw [Delivery.messageExit] at hexit
  rw [Delivery.messageCalls]
  cases hfile : d.msgFile with
  | some file =>
    cases herror : d.fopenError with
    | some error =>
      rw [hfile, herror] at hexit
      rw [Delivery.left, hexit]
      cases d.hasCredentials <;> exact of_decide_eq_true rfl
    | none =>
      rw [hfile, herror] at hexit
      rw [left_of_sends d hexit, hfile, Delivery.after, List.flatMap_append]
      refine run_trans ?_ (sendCalls_run d (.inl rfl))
      cases d.hasCredentials <;> exact of_decide_eq_true rfl
  | none =>
    cases hmessage : d.message with
    | none =>
      rw [hfile, hmessage] at hexit
      rw [Delivery.left, hexit]
      cases d.hasCredentials <;> exact of_decide_eq_true rfl
    | some text =>
      rw [hfile, hmessage, Option.any_some] at hexit
      dsimp only
      cases hset : d.setMessageStr text with
      | false =>
        rw [hset] at hexit
        rw [if_pos rfl, Delivery.left, hexit]
        cases d.hasCredentials <;> exact of_decide_eq_true rfl
      | true =>
        rw [hset] at hexit
        rw [if_neg Bool.false_ne_true.symm, left_of_sends d hexit, hfile, Delivery.after,
          List.flatMap_append]
        refine run_trans ?_ (sendCalls_run d (.inr rfl))
        cases d.hasCredentials <;> exact of_decide_eq_true rfl

theorem deliver_run :
    run ∅ ((smfSmtpDeliverCalls d).1.flatMap DeliveryCall.ops) =
      some (statusHandles (smfSmtpDeliverCalls d).2.text.isSome ∪ d.left) := by
  rw [smfSmtpDeliverCalls]
  cases hnexthop : d.env.nexthop with
  | none =>
    rw [Delivery.left, Delivery.exit, if_pos hnexthop]
    exact of_decide_eq_true rfl
  | some nexthop =>
    have hset : d.env.nexthop ≠ none := hnexthop ▸ Option.some_ne_none nexthop
    dsimp only
    by_cases hpath : d.esmtp.setReversePath d.reversePath = false
    · rw [Delivery.left, Delivery.exit, if_neg hset, if_pos hpath, if_pos hpath,
        List.flatMap_append]
      refine run_trans (openCalls_run d nexthop) ?_
      cases d.hasCredentials <;> exact of_decide_eq_true rfl
    · rw [if_neg hpath, Delivery.after, List.flatMap_append]
      refine run_trans (openCalls_freed_run d nexthop) (messageCalls_run d ?_)
      rw [Delivery.exit, if_neg hset, if_neg hpath]

/-- The status is the caller's. -/
theorem status_notMem_left : .status ∉ d.left ∧ .statusText ∉ d.left := by
  rw [Delivery.left]
  cases d.exit <;> cases d.hasCredentials <;> cases d.msgFile <;> exact of_decide_eq_true rfl

theorem delivery_run : run ∅ d.ops = some d.left := by
  obtain ⟨hstatus, htext⟩ := status_notMem_left d
  rw [Delivery.ops, Delivery.calls, List.flatMap_append]
  refine run_trans (deliver_run d) ?_
  rw [List.flatMap_singleton, DeliveryCall.ops, statusHandles]
  cases (smfSmtpDeliverCalls d).2.text.isSome with
  | false =>
    have hheld : ({.status} ∪ ∅ ∪ d.left : Finset DeliveryHandle) = insert .status d.left := by
      rw [Finset.union_empty, Finset.insert_eq]
    rw [if_neg Bool.false_ne_true, if_neg Bool.false_ne_true, List.nil_append, hheld,
      run_closes (Finset.mem_insert_self ..), Finset.erase_insert hstatus]
  | true =>
    have hheld : ({.status} ∪ {.statusText} ∪ d.left : Finset DeliveryHandle) =
        insert .statusText (insert .status d.left) := by
      ext h
      simp only [Finset.mem_union, Finset.mem_singleton, Finset.mem_insert]
      tauto
    have hother : .statusText ∉ insert .status d.left := by
      rw [Finset.mem_insert, not_or]
      exact ⟨by decide, htext⟩
    rw [if_pos rfl, if_pos rfl, hheld]
    refine run_trans (run_closes (Finset.mem_insert_self ..)) ?_
    rw [Finset.erase_insert hother, run_closes (Finset.mem_insert_self ..),
      Finset.erase_insert hstatus]

end Runs

/-! ## Any number of deliveries -/

/-- The operations of deliveries, numbered from `n` on. -/
def deliveriesOps (n : Nat) : List Delivery → List (Op (Nat × DeliveryHandle))
  | [] => []
  | d :: ds => d.ops.map (Op.map (n, ·)) ++ deliveriesOps (n + 1) ds

theorem deliveries_run (n : Nat) (ds : List Delivery) {held : Finset (Nat × DeliveryHandle)}
    (hheld : ∀ h ∈ held, h.1 < n) :
    ∃ held', run held (deliveriesOps n ds) = some held' ∧
      ∀ k h, (k, h) ∈ held' ↔
        (k, h) ∈ held ∨ ∃ i d, ds[i]? = some d ∧ k = n + i ∧ h ∈ d.left := by
  induction ds generalizing n held with
  | nil => exact ⟨held, rfl, fun k h => by simp⟩
  | cons d ds ih =>
    have hinj : Function.Injective fun h : DeliveryHandle => (n, h) := fun _ _ h =>
      (Prod.mk.inj h).2
    have hother : ∀ h : DeliveryHandle, (n, h) ∉ held := fun h hmem =>
      Nat.lt_irrefl n (hheld _ hmem)
    have hfirst := run_map hinj hother (delivery_run d)
    rw [Finset.image_empty, Finset.union_empty] at hfirst
    obtain ⟨held', hrun, hleft⟩ := @ih (n + 1) (held ∪ d.left.image (n, ·)) fun h hmem => by
      rcases Finset.mem_union.mp hmem with hmem | hmem
      · exact (hheld h hmem).trans (Nat.lt_succ_self n)
      · obtain ⟨k, -, rfl⟩ := Finset.mem_image.mp hmem
        exact Nat.lt_succ_self n
    refine ⟨held', run_trans hfirst hrun, fun k h => ?_⟩
    rw [hleft, Finset.mem_union, Finset.mem_image]
    constructor
    · rintro ((hmem | ⟨h', hh', heq⟩) | ⟨i, e, hget, rfl, he⟩)
      · exact .inl hmem
      · obtain ⟨rfl, rfl⟩ := Prod.mk.inj heq
        exact .inr ⟨0, d, rfl, rfl, hh'⟩
      · exact .inr ⟨i + 1, e, hget, by omega, he⟩
    · rintro (hmem | ⟨i, e, hget, rfl, he⟩)
      · exact .inl (.inl hmem)
      · cases i with
        | zero =>
          obtain rfl := Option.some.inj hget
          exact .inl (.inr ⟨h, he, rfl⟩)
        | succ i => exact .inr ⟨i, e, hget, by omega, he⟩

/-! ## What is sent -/

/-- The calls that address and send a message. -/
def DeliveryCall.sends : DeliveryCall → Bool
  | addRecipient _ | startSession _ _ => true
  | _ => false

namespace Delivery

variable (d : Delivery)

/-- What the message is read from. -/
def source : DeliveryHandle := if d.msgFile.isSome then .file else .messageString

def sentCalls : List DeliveryCall :=
  d.env.recipients.map .addRecipient ++ [.startSession d.source d.hasCredentials]

theorem openCalls_sends (nexthop : Bytes) : (d.openCalls nexthop).filter (·.sends) = [] := by
  rw [openCalls, serverCalls, authCalls]
  by_cases hcolon : 58 ∈ nexthop
  · rw [if_pos hcolon]
    cases d.hasCredentials <;> rfl
  · rw [if_neg hcolon]
    cases d.hasCredentials <;> rfl

theorem addRecipients_sends (rcpts : List Bytes) :
    (rcpts.map DeliveryCall.addRecipient).filter (·.sends) =
      rcpts.map DeliveryCall.addRecipient := by
  refine List.filter_eq_self.mpr fun call hcall => ?_
  obtain ⟨rcpt, -, rfl⟩ := List.mem_map.mp hcall
  rfl

theorem sendCalls_sends {source : DeliveryHandle} (hsource : d.source = source) :
    (d.sendCalls source).1.filter (·.sends) =
      if d.env.recipients = [] then [] else d.sentCalls := by
  have hclose : (closeFile source).filter (·.sends) = [] := by
    rw [closeFile]
    split_ifs <;> rfl
  rw [sendCalls, sentCalls, hsource]
  by_cases hnone : d.env.recipients = []
  · rw [if_pos hnone, if_pos hnone]
    dsimp only
    rw [List.filter_append, List.filter_append, hclose]
    rfl
  rw [if_neg hnone, if_neg hnone]
  by_cases hstart : d.esmtp.startSession = false
  · rw [if_pos hstart]
    simp only [List.filter_append, hclose, addRecipients_sends]
    exact List.append_nil _
  · have hfree : (if source = .messageString then [DeliveryCall.freeString] else []).filter
        (·.sends) = [] := by
      split_ifs <;> rfl
    have hauth : (if d.hasCredentials then
        [DeliveryCall.authDestroyContext, .authClientExit] else []).filter (·.sends) = [] := by
      split_ifs <;> rfl
    rw [if_neg hstart]
    simp only [List.filter_append, hclose, hfree, hauth, addRecipients_sends, List.append_nil]
    exact (List.append_nil _).trans (List.append_nil _)

theorem sendExit_started :
    (d.sendExit = .notStarted ∨ d.sendExit = .transferred) ↔ d.env.recipients ≠ [] := by
  rw [sendExit]
  by_cases hnone : d.env.recipients = []
  · rw [if_pos hnone]
    exact iff_of_false (by decide) (not_not.mpr hnone)
  rw [if_neg hnone]
  by_cases hstart : d.esmtp.startSession = false
  · rw [if_pos hstart]
    exact iff_of_true (.inl rfl) hnone
  · rw [if_neg hstart]
    exact iff_of_true (.inr rfl) hnone

/-- The calls of a delivery that have a message to send. -/
theorem sends_of_messageCalls {calls : List DeliveryCall} (hcalls : calls.filter (·.sends) = [])
    (hexit : d.messageExit = d.sendExit) {source : DeliveryHandle} (hsource : d.source = source) :
    (after calls (d.sendCalls source)).1.filter (·.sends) =
      if d.messageExit = .notStarted ∨ d.messageExit = .transferred then d.sentCalls else [] := by
  rw [after, List.filter_append, hcalls, List.nil_append, d.sendCalls_sends hsource, hexit]
  by_cases hnone : d.env.recipients = []
  · rw [if_pos hnone, if_neg (mt d.sendExit_started.mp (not_not.mpr hnone))]
  · rw [if_neg hnone, if_pos (d.sendExit_started.mpr hnone)]

theorem messageCalls_sends :
    d.messageCalls.1.filter (·.sends) =
      if d.messageExit = .notStarted ∨ d.messageExit = .transferred then d.sentCalls else [] := by
  have hexit : d.messageExit = d.messageExit := rfl
  conv at hexit =>
    rhs
    rw [messageExit]
  rw [messageCalls]
  cases hfile : d.msgFile with
  | some file =>
    have hsource : d.source = .file := by
      rw [source, hfile]
      rfl
    cases herror : d.fopenError with
    | some error =>
      rw [hfile, herror] at hexit
      rw [hexit]
      rfl
    | none =>
      rw [hfile, herror] at hexit
      exact d.sends_of_messageCalls rfl hexit hsource
  | none =>
    have hsource : d.source = .messageString := by
      rw [source, hfile]
      rfl
    cases hmessage : d.message with
    | none =>
      rw [hfile, hmessage] at hexit
      rw [hexit]
      rfl
    | some text =>
      rw [hfile, hmessage, Option.any_some] at hexit
      dsimp only
      cases hset : d.setMessageStr text with
      | false =>
        rw [hset] at hexit
        rw [hexit, if_pos rfl]
        rfl
      | true =>
        rw [hset] at hexit
        rw [if_neg Bool.false_ne_true.symm]
        exact d.sends_of_messageCalls rfl hexit hsource

theorem calls_sends :
    d.calls.filter (·.sends) =
      if d.exit = .notStarted ∨ d.exit = .transferred then d.sentCalls else [] := by
  have hfree : [DeliveryCall.statusFree (smfSmtpDeliverCalls d).2.text.isSome].filter (·.sends) =
      [] := rfl
  rw [calls, List.filter_append, hfree, List.append_nil, smfSmtpDeliverCalls, exit]
  cases hnexthop : d.env.nexthop with
  | none => rfl
  | some nexthop =>
    rw [if_neg (Option.some_ne_none nexthop)]
    dsimp only
    by_cases hpath : d.esmtp.setReversePath d.reversePath = false
    · rw [if_pos hpath, if_pos hpath, List.filter_append, openCalls_sends]
      rfl
    · rw [if_neg hpath, if_neg hpath, after, List.filter_append, List.filter_append,
        openCalls_sends, messageCalls_sends]
      rfl

/-- Every delivery that fails leaves something. -/
theorem left_eq_empty : d.left = ∅ ↔ d.exit = .transferred ∧ d.hasCredentials = true := by
  rw [left]
  cases d.exit <;> cases d.hasCredentials <;> cases d.msgFile <;> exact of_decide_eq_true rfl

/-- The status is that of `smfSmtpDeliver`, where the envelope has a message that is taken. -/
theorem deliver_status {spool : Option Spool} (hspool : spool.isNone = d.fopenError.isSome)
    (hmessage : d.msgFile = none → ∃ text, d.message = some text ∧ d.setMessageStr text = true) :
    (smfSmtpDeliverCalls d).2.code = (smfSmtpDeliver d.esmtp d.env d.msgFile spool).1 := by
  have hsend : ∀ source, (d.sendCalls source).2.code =
      if d.env.recipients = [] then -1
      else if d.esmtp.startSession = false then -1
      else d.esmtp.transferStatus d.env.recipients := by
    intro source
    rw [sendCalls]
    dsimp only
    split_ifs <;> rfl
  rw [smfSmtpDeliverCalls, smfSmtpDeliver]
  cases hnexthop : d.env.nexthop with
  | none => rfl
  | some nexthop =>
    rw [if_neg (Option.some_ne_none nexthop), show d.env.sender.getD _ = d.reversePath from rfl]
    dsimp only
    by_cases hpath : d.esmtp.setReversePath d.reversePath = false
    · rw [if_pos hpath, if_pos hpath]
    rw [if_neg hpath, if_neg hpath]
    by_cases hfile : d.msgFile ≠ none ∧ spool.isNone = true
    · -- the spool file cannot be opened
      rw [if_pos hfile]
      obtain ⟨file, hset⟩ := Option.ne_none_iff_exists'.mp hfile.1
      rw [hspool] at hfile
      obtain ⟨error, herror⟩ := Option.isSome_iff_exists.mp hfile.2
      rw [after, messageCalls, hset, herror]
      rfl
    · have hmessageCode : d.messageCalls.2.code = (d.sendCalls d.source).2.code := by
        rw [messageCalls]
        cases hset : d.msgFile with
        | some file =>
          have hopened : d.fopenError = none := by
            rw [hspool, hset] at hfile
            simpa using hfile
          rw [hopened, source, hset]
          rfl
        | none =>
          obtain ⟨text, htext, hstring⟩ := hmessage hset
          rw [htext, source, hset]
          dsimp only
          rw [if_neg (by rw [hstring]; exact Bool.false_ne_true.symm)]
          rfl
      rw [if_neg hfile]
      show d.messageCalls.2.code = _
      rw [hmessageCode, hsend]
      split_ifs <;> rfl

end Delivery

/-- **The handles of the deliveries.**  However many messages are delivered, and wherever each
delivery ends, no handle is used or given back that is not open.  What stays open is what each
delivery leaves, and that is nothing only where an authenticated one has come to its end.  A
delivery adds the recipients of its envelope in order and then starts its session once, or it does
neither. -/
theorem deliveries_handles (ds : List Delivery) :
    (∃ held, run ∅ (deliveriesOps 0 ds) = some held ∧
      ∀ k h, (k, h) ∈ held ↔ ∃ d, ds[k]? = some d ∧ h ∈ d.left) ∧
    ∀ d ∈ ds, (d.left = ∅ ↔ d.exit = .transferred ∧ d.hasCredentials = true) ∧
      d.calls.filter (·.sends) =
        if d.exit = .notStarted ∨ d.exit = .transferred then d.sentCalls else [] := by
  refine ⟨?_, fun d _ => ⟨d.left_eq_empty, d.calls_sends⟩⟩
  obtain ⟨held, hrun, hleft⟩ := deliveries_run 0 ds fun h hmem =>
    absurd hmem (Finset.notMem_empty h)
  refine ⟨held, hrun, fun k h => ?_⟩
  rw [hleft, or_iff_right (Finset.notMem_empty _)]
  constructor
  · rintro ⟨i, d, hget, rfl, hd⟩
    rw [Nat.zero_add]
    exact ⟨d, hget, hd⟩
  · rintro ⟨d, hget, hd⟩
    exact ⟨k, d, hget, (Nat.zero_add k).symm, hd⟩

end Spmfilter

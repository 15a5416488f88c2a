import Spmfilter.Nexthop

/-!
# The module queue

`smf_modules.c`.  A module is foreign code.  Its `load` function takes the
world to a result code and a new world, and `QueueEnv.runs` lists what each
module of the configured list does in one run of the queue.

The queue calls back into the engine when a module does not return `0` and when
the next hop fails.  `ProcessQueue` holds these two functions.
-/

namespace Spmfilter

open CString

/-- What the `load` function of a module does. -/
abbrev ModuleLoad (M : Type) := World M → Int × World M

/-- How far `smf_modules_flush_dirty` gets when it has to write a new spool
file. -/
inductive FlushIo where
  | mkstemp
  | toFd
  | openNew
  | openOld
  | skipHeader
  | unlink
  | rename
  | done
  deriving DecidableEq

/-- What one run of the queue meets outside. -/
structure QueueEnv (M : Type) where
  /-- `smf_internal_query_user`: the record that the lookup adds for an address,
  if there is one. -/
  queryUser : Bytes → Option UserData
  /-- The `load` function of the module at each position; `none` when `dlsym`
  does not find it. -/
  runs : Nat → Option (ModuleLoad M)
  flushIo : FlushIo
  /-- The name of the temporary file of the flush. -/
  flushTmp : Bytes
  nexthop : NexthopEnv

/-- `SMFProcessQueue_T`. -/
structure ProcessQueue where
  processingError : Settings → Session → Int → Int × List Event
  nexthopError : Settings → Session → List Event

/-- `smf_internal_fetch_user_data`: the records for the recipients, then for the
sender. -/
def smfInternalFetchUserData (settings : Settings) (queryUser : Bytes → Option UserData)
    (session : Session) : Session :=
  let fetched :=
    (session.envelope.recipients ++ session.envelope.sender.toList).filterMap queryUser
  if settings.backend = none then session
  else if settings.backend = some (ascii "ldap") ∧ settings.ldapUserQuery = none then session
  else if settings.backend = some (ascii "sql") ∧ settings.sqlUserQuery = none then session
  else { session with localUsers := session.localUsers ++ fetched }

/-- `message_file_mtime`.  A file that cannot be looked up counts as `0`. -/
def messageFileMtime {M : Type} (w : World M) : Nat :=
  match w.spool with
  | some spool => spool.mtime
  | none => 0

/-- `h` is not in `init` with the same values. -/
def headerChanged (init : List Header) (h : Header) : Bool :=
  match init.find? fun i => i.name == h.name with
  | none => true
  | some i =>
    h.values.length != i.values.length || (h.values.zip i.values).any fun v => v.1 != v.2

/-- The dirty test of `smf_modules_flush_dirty`. -/
def headersDirty (msg init : List Header) : Bool :=
  msg.length != init.length || msg.any (headerChanged init)

section

variable {M : Type} (cmime : Cmime M)

/-- `smf_module_invoke`.  The message is parsed again when the module has
returned `0` and the spool file is younger than before. -/
def smfModuleInvoke (name : Bytes) (run : Option (ModuleLoad M)) (w : World M) : Outcome M :=
  match run with
  | none => ⟨-1, w, []⟩
  | some runner =>
    let mtimeBefore := messageFileMtime w
    let result := (runner w).1
    let w' := (runner w).2
    if result = 0 ∧ w'.session.messageFile ≠ none ∧ mtimeBefore < messageFileMtime w' then
      match cmime.fromFile (w'.spool.map Spool.content) false with
      | .error e => ⟨e.code, w', [.invoke name result, .reload e.code]⟩
      | .ok msg =>
        ⟨0, { w' with message := { ref := w'.message.ref + 1, msg } },
          [.invoke name result, .reload 0]⟩
    else ⟨result, w', [.invoke name result]⟩

/-- `smf_modules_flush_dirty`. -/
def smfModulesFlushDirty (io : FlushIo) (tmp : Bytes) (init : List Header) (w : World M) :
    Outcome M :=
  if headersDirty (cmime.headers w.message.msg) init = false then ⟨0, w, []⟩
  else
    let path := w.session.messageFile.getD []
    let created := Event.file (.create tmp)
    let removed := Event.file (.unlink path)
    match io, w.spool with
    | .mkstemp, _ => ⟨-1, w, []⟩
    | .rename, some _ => ⟨-1, { w with spool := none }, [created, removed]⟩
    | .done, some old =>
      let content := cmime.toString w.message.msg ++ smfMessageWriteSkipHeader [] old.content
      ⟨0, { w with spool := some { old with content } },
        [created, removed, .file (.rename tmp path)]⟩
    -- every other failure leaves the new file behind and the old one in place
    | _, _ => ⟨-1, w, [created]⟩

/-- How the module loop of `smf_modules_process` is left: by a `return`, or at
its end with the last value of `ret` and the header text so far. -/
inductive LoopExit (M : Type) where
  | returned (ret : Int) (w : World M)
  | ended (ret : Int) (header : Bytes) (w : World M)

variable (q : ProcessQueue) (settings : Settings) (env : QueueEnv M)

/-- The header text after one more module.  The separator is left out after the
last module of the configured list. -/
def appendModuleName (header name : Bytes) (modCount : Nat) : Bytes :=
  if modCount = settings.modules.length then header ++ name else header ++ name ++ ascii ", "

/-- The module loop of `smf_modules_process`.  `modCount` is the number of
modules behind it. -/
def smfModulesLoop :
    (mods : List Bytes) → (modCount : Nat) → (ret : Int) → (header : Bytes) → World M →
      LoopExit M × List Event
  | [], _, ret, header, w => (.ended ret header w, [])
  | name :: mods, modCount, _, header, w =>
    let inv := smfModuleInvoke cmime name (env.runs modCount) w
    let header' := appendModuleName settings header name (modCount + 1)
    if inv.ret ≠ 0 then
      let err := q.processingError settings inv.world.session inv.ret
      if err.1 = 0 then (.returned (-1) inv.world, inv.events ++ err.2)
      else if err.1 = 1 then (.returned 1 inv.world, inv.events ++ err.2)
      else if err.1 = 2 then (.ended 2 header inv.world, inv.events ++ err.2)
      else
        let rest := smfModulesLoop mods (modCount + 1) err.1 header' inv.world
        (rest.1, inv.events ++ err.2 ++ rest.2)
    else
      let rest := smfModulesLoop mods (modCount + 1) 0 header' inv.world
      (rest.1, inv.events ++ rest.2)

/-- Set the `X-Spmfilter` header on the message object the queue has taken at
its start.  When a module has replaced that object, the header is lost with
it. -/
def setQueueHeader (ref : Nat) (header : Bytes) (w : World M) : World M :=
  if settings.addHeader = true ∧ w.message.ref = ref then
    { w with message := { w.message with msg := cmime.setHeader w.message.msg header } }
  else w

theorem setQueueHeader_spool (ref : Nat) (header : Bytes) (w : World M) :
    (setQueueHeader cmime settings ref header w).spool = w.spool := by
  unfold setQueueHeader
  split <;> rfl

/-- The header goes into the message object that the queue has started with. -/
theorem setQueueHeader_same {ref : Nat} {w : World M} (hadd : settings.addHeader = true)
    (href : w.message.ref = ref) (header : Bytes) :
    (setQueueHeader cmime settings ref header w).message.msg =
      cmime.setHeader w.message.msg header := by
  unfold setQueueHeader
  rw [if_pos ⟨hadd, href⟩]

/-- Another message object does not get it. -/
theorem setQueueHeader_other {ref : Nat} {w : World M} (href : w.message.ref ≠ ref)
    (header : Bytes) : setQueueHeader cmime settings ref header w = w := by
  unfold setQueueHeader
  rw [if_neg (fun h => href h.2)]

/-- The part of `smf_modules_process` after the loop: header, flush and next
hop. -/
def smfModulesFinish (ref : Nat) (init : List Header) (header : Bytes) (w : World M) :
    Outcome M :=
  let flush := smfModulesFlushDirty cmime env.flushIo env.flushTmp init
    (setQueueHeader cmime settings ref header w)
  if flush.ret ≠ 0 then flush
  else
    match smfNexthopFind cmime settings env.nexthop with
    | none => flush
    | some nexthop =>
      let sent := nexthop flush.world
      if sent.ret ≠ 0 then
        ⟨sent.ret, sent.world,
          flush.events ++ sent.events ++
            .nexthopError :: q.nexthopError settings sent.world.session⟩
      else ⟨0, sent.world, flush.events ++ sent.events⟩

/-- `smf_modules_process`. -/
def smfModulesProcess (w : World M) : Outcome M :=
  let init := cmime.headers w.message.msg
  let fetched := smfInternalFetchUserData settings env.queryUser w.session
  let loop := smfModulesLoop cmime q settings env settings.modules 0 0 (ascii "X-Spmfilter: ")
    { w with session := fetched }
  match loop.1 with
  | .returned ret w' => ⟨ret, w', loop.2⟩
  | .ended ret header w' =>
    if ret = 0 ∨ ret = 2 then
      let fin := smfModulesFinish cmime q settings env w.message.ref init header w'
      ⟨fin.ret, fin.world, loop.2 ++ fin.events⟩
    else ⟨ret, w', loop.2⟩

end

end Spmfilter

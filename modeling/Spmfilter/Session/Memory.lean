import Mathlib.Data.List.Nodup
import Mathlib.Data.Set.Insert
import Spmfilter.Lib.Heap
import Spmfilter.Session

/-!
# Sessions and envelopes on the heap

The functions of `smf_session.c` and `smf_envelope.c` with the blocks that they allocate and
free.  `Session` is what these records say; here a string is a pointer, and a setter frees the
old string before it reads the new one.

* `SessionMemory` are the pointers of the two records, and `SessionMemory.view` what they say.
* `SessionCall` are the calls that engines and modules make, with what they do on the heap on
  their own account; `Admits` says which of them are in order.
* `Sound` is the invariant of the pointers, and `Accounts` says who every block belongs to.
  `call_step` is one call and `calls_run` a run of them.
* `session_calls` puts together what holds of a session from its start to `smf_session_free`.
-/

namespace Spmfilter

open CString Heaps

/-- What a block holds that is not a string: a message object. -/
inductive SessionObject where
  | message
deriving DecidableEq

abbrev SessionBlock := Block Bytes SessionObject

/-- The strings of the two records that can be replaced. -/
inductive StringSlot where
  | helo | messageFile | xforwardAddr | responseMsg
  | sender | nexthop | authUser | authPass
deriving DecidableEq

/-- `SMFSession_T` and its `SMFEnvelope_T`, with the heap that they point to.  The records
themselves, the nodes of the lists and the local users are left out. -/
structure SessionMemory where
  heap : Heap SessionBlock
  slot : StringSlot → Option Nat
  recipients : List Nat
  message : Option Nat
  id : Nat

namespace SessionMemory

/-- `smf_session_new`, on the heap of the program. -/
def new (heap : Heap SessionBlock) (sid : Bytes) : SessionMemory where
  heap := heap.alloc (.string sid)
  slot := fun _ => none
  recipients := []
  message := none
  id := heap.next

def setSlot (m : SessionMemory) (slot : StringSlot) (p : Nat) (heap : Heap SessionBlock) :
    SessionMemory :=
  { m with heap := heap, slot := fun other => if other = slot then some p else m.slot other }

/-- A setter: the old string is freed, then the new one is copied. -/
def replace (m : SessionMemory) (slot : StringSlot) (arg : Nat) (f : Bytes → Bytes) :
    Option SessionMemory :=
  (m.heap.freeOpt (m.slot slot)).bind fun heap =>
    (strdupWith f heap arg).map fun (p, heap) => m.setSlot slot p heap

/-- `smf_session_set_helo`. -/
def setHelo (m : SessionMemory) (helo : Nat) : Option SessionMemory :=
  m.replace .helo helo fun s => s

/-- `smf_session_set_message_file`. -/
def setMessageFile (m : SessionMemory) (fp : Nat) : Option SessionMemory :=
  m.replace .messageFile fp fun s => s

/-- `strdup(xfwd + 5)` or `strdup(xfwd)`. -/
def forwardedAddr (xfwd : Bytes) : Bytes :=
  if (strcasestr xfwd (ascii "IPv6:")).isSome then xfwd.drop 5 else xfwd

/-- `smf_session_set_xforward_addr`. -/
def setXforwardAddr (m : SessionMemory) (xfwd : Nat) : Option SessionMemory :=
  m.replace .xforwardAddr xfwd forwardedAddr

/-- `smf_session_set_response_msg`. -/
def setResponseMsg (m : SessionMemory) (rmsg : Nat) : Option SessionMemory :=
  m.replace .responseMsg rmsg fun s => s

/-- `smf_envelope_set_nexthop`. -/
def setNexthop (m : SessionMemory) (nexthop : Nat) : Option SessionMemory :=
  m.replace .nexthop nexthop fun s => s

/-- `smf_envelope_set_auth_user`. -/
def setAuthUser (m : SessionMemory) (authUser : Nat) : Option SessionMemory :=
  m.replace .authUser authUser fun s => s

/-- `smf_envelope_set_auth_pass`. -/
def setAuthPass (m : SessionMemory) (authPass : Nat) : Option SessionMemory :=
  m.replace .authPass authPass fun s => s

/-- `smf_envelope_set_sender`: what `smf_internal_strip_email_addr` gives is a string of its
own, which is copied and freed. -/
def setSender (m : SessionMemory) (sender : Nat) : Option SessionMemory :=
  (m.heap.freeOpt (m.slot .sender)).bind fun heap =>
    (strdupWith smfInternalStripEmailAddr heap sender).bind fun (t, heap) =>
      (strdup heap t).bind fun (p, heap) =>
        (heap.free t).map fun heap => m.setSlot .sender p heap

/-- `smf_envelope_add_rcpt`. -/
def addRcpt (m : SessionMemory) (rcpt : Nat) : Option SessionMemory :=
  (strdupWith smfInternalStripEmailAddr m.heap rcpt).map fun (t, heap) =>
    { m with heap := heap, recipients := m.recipients ++ [t] }

/-- `smf_envelope_set_message`. -/
def setMessage (m : SessionMemory) (message : Nat) : SessionMemory :=
  { m with message := some message }

/-- The setter of a string. -/
def setString (m : SessionMemory) : StringSlot → Nat → Option SessionMemory
  | .helo => m.setHelo
  | .messageFile => m.setMessageFile
  | .xforwardAddr => m.setXforwardAddr
  | .responseMsg => m.setResponseMsg
  | .sender => m.setSender
  | .nexthop => m.setNexthop
  | .authUser => m.setAuthUser
  | .authPass => m.setAuthPass

/-- The blocks that `smf_session_free` and `smf_envelope_free` free, in their order. -/
def owned (m : SessionMemory) : List Nat :=
  [StringSlot.helo, .messageFile, .xforwardAddr, .responseMsg, .sender].filterMap m.slot ++
    (m.recipients ++ ([StringSlot.nexthop].filterMap m.slot ++ (m.message.toList ++
      ([StringSlot.authUser, .authPass].filterMap m.slot ++ [m.id]))))

/-- `smf_session_free`. -/
def free (m : SessionMemory) : Option (Heap SessionBlock) := m.heap.freeAll m.owned

/-- What the records say. -/
def view (m : SessionMemory) : Session :=
  let text := fun slot => (m.slot slot).bind (stringAt m.heap)
  { id := (stringAt m.heap m.id).getD []
    envelope :=
      { recipients := m.recipients.filterMap (stringAt m.heap)
        sender := text .sender
        authUser := text .authUser
        authPass := text .authPass
        nexthop := text .nexthop }
    messageFile := text .messageFile
    helo := text .helo
    xforwardAddr := text .xforwardAddr
    responseMsg := text .responseMsg }

end SessionMemory

/-- A call of the two interfaces, or what the caller does on the heap for itself. -/
inductive SessionCall where
  | setString (slot : StringSlot) (arg : Nat)
  | addRcpt (arg : Nat)
  | setMessage (arg : Nat)
  | newString (s : Bytes)
  | newMessage
  | drop (p : Nat)
deriving DecidableEq

namespace SessionMemory

/-- The call, `none` where it reads or frees a block that is not there. -/
def call (m : SessionMemory) : SessionCall → Option SessionMemory
  | .setString slot arg => m.setString slot arg
  | .addRcpt arg => m.addRcpt arg
  | .setMessage arg => some (m.setMessage arg)
  | .newString s => some { m with heap := m.heap.alloc (.string s) }
  | .newMessage => some { m with heap := m.heap.alloc (.object .message) }
  | .drop p => (m.heap.free p).map fun heap => { m with heap := heap }

end SessionMemory

/-! ## What the calls should do -/

/-- What a call changes in the records: a setter is given a string, or a recipient is added. -/
inductive SessionEffect where
  | string (slot : StringSlot) (s : Bytes)
  | rcpt (s : Bytes)

/-- The change, on the records as values. -/
def SessionEffect.apply (session : Session) : SessionEffect → Session
  | .string .helo s => smfSessionSetHelo session s
  | .string .messageFile s => { session with messageFile := some s }
  | .string .xforwardAddr s => smfSessionSetXforwardAddr session s
  | .string .responseMsg s => { session with responseMsg := some s }
  | .string .sender s => { session with envelope := smfEnvelopeSetSender session.envelope s }
  | .string .nexthop s => { session with envelope := smfEnvelopeSetNexthop session.envelope s }
  | .string .authUser s => { session with envelope := { session.envelope with authUser := some s } }
  | .string .authPass s => { session with envelope := { session.envelope with authPass := some s } }
  | .rcpt s => { session with envelope := smfEnvelopeAddRcpt session.envelope s }

namespace SessionMemory

/-- The change that a call should make. -/
def effect (m : SessionMemory) : SessionCall → Option SessionEffect
  | .setString slot arg => (stringAt m.heap arg).map (.string slot)
  | .addRcpt arg => (stringAt m.heap arg).map .rcpt
  | _ => none

/-- The blocks of the caller after a call: those it has allocated and not freed. -/
def callers (m : SessionMemory) (mine : Set Nat) : SessionCall → Set Nat
  | .newString _ | .newMessage => insert m.heap.next mine
  | .drop p => mine \ {p}
  | _ => mine

/-- The caller may make this call: a string or a message that it hands over is there, a setter
is not given the string that it is about to free, and the caller frees nothing that belongs to
the session. -/
def Admits (m : SessionMemory) : SessionCall → Prop
  | .setString slot arg => (stringAt m.heap arg).isSome = true ∧ m.slot slot ≠ some arg
  | .addRcpt arg => (stringAt m.heap arg).isSome = true
  | .setMessage arg => m.heap.block arg = some (.object .message)
  | .newString _ | .newMessage => True
  | .drop p => m.heap.Live p ∧ p ∉ m.owned

instance (m : SessionMemory) : (c : SessionCall) → Decidable (m.Admits c)
  | .setString slot arg =>
    inferInstanceAs (Decidable ((stringAt m.heap arg).isSome = true ∧ m.slot slot ≠ some arg))
  | .addRcpt arg => inferInstanceAs (Decidable ((stringAt m.heap arg).isSome = true))
  | .setMessage arg => inferInstanceAs (Decidable (m.heap.block arg = some (.object .message)))
  | .newString _ | .newMessage => inferInstanceAs (Decidable True)
  | .drop p => inferInstanceAs (Decidable ((m.heap.block p).isSome = true ∧ p ∉ m.owned))

def interface : Interface SessionMemory SessionCall SessionEffect :=
  ⟨call, effect, callers, Admits⟩

instance (m : SessionMemory) (c : SessionCall) : Decidable (interface.Admits m c) :=
  inferInstanceAs (Decidable (m.Admits c))

abbrev calls (m : SessionMemory) (cs : List SessionCall) : Option SessionMemory :=
  interface.calls m cs

abbrev effects (m : SessionMemory) (cs : List SessionCall) : List SessionEffect :=
  interface.effects m cs

abbrev callersAfter (m : SessionMemory) (mine : Set Nat) (cs : List SessionCall) : Set Nat :=
  interface.callersAfter m mine cs

abbrev AdmitsAll (m : SessionMemory) (cs : List SessionCall) : Prop := interface.AdmitsAll m cs

/-! ## The invariant -/

/-- A string that belongs to the session. -/
def OwnString (m : SessionMemory) (p : Nat) : Prop :=
  (∃ slot, m.slot slot = some p) ∨ p ∈ m.recipients ∨ p = m.id

/-- The strings of the session are there, and no two pointers to them are the same. -/
structure Sound (m : SessionMemory) : Prop where
  strings : ∀ p, m.OwnString p → (stringAt m.heap p).isSome = true
  message : ∀ p, m.message = some p → m.heap.block p = some (.object .message)
  slots : ∀ slot slot' p, m.slot slot = some p → m.slot slot' = some p → slot = slot'
  slotRcpt : ∀ slot p, m.slot slot = some p → p ∉ m.recipients
  slotId : ∀ slot, m.slot slot ≠ some m.id
  rcpts : m.recipients.Nodup
  rcptId : m.id ∉ m.recipients

/-- Every block belongs to the session or to the caller, and to one of them only. -/
structure Accounts (m : SessionMemory) (mine : Set Nat) : Prop where
  live : ∀ p, m.heap.Live p ↔ m.OwnString p ∨ p ∈ mine
  apart : ∀ p, m.OwnString p → p ∉ mine

theorem mem_owned {m : SessionMemory} {p : Nat} :
    p ∈ m.owned ↔ m.OwnString p ∨ m.message = some p := by
  unfold owned OwnString
  simp only [List.mem_append, List.mem_filterMap, List.mem_cons, List.not_mem_nil, or_false,
    Option.mem_toList]
  constructor
  · rintro (⟨slot, -, h⟩ | h | ⟨slot, -, h⟩ | h | ⟨slot, -, h⟩ | h)
    · exact .inl (.inl ⟨slot, h⟩)
    · exact .inl (.inr (.inl h))
    · exact .inl (.inl ⟨slot, h⟩)
    · exact .inr h
    · exact .inl (.inl ⟨slot, h⟩)
    · exact .inl (.inr (.inr h))
  · rintro ((⟨slot, h⟩ | h | h) | h)
    · cases slot
      · exact .inl ⟨_, by simp, h⟩
      · exact .inl ⟨_, by simp, h⟩
      · exact .inl ⟨_, by simp, h⟩
      · exact .inl ⟨_, by simp, h⟩
      · exact .inl ⟨_, by simp, h⟩
      · exact .inr (.inr (.inl ⟨_, rfl, h⟩))
      · exact .inr (.inr (.inr (.inr (.inl ⟨_, .inl rfl, h⟩))))
      · exact .inr (.inr (.inr (.inr (.inl ⟨_, .inr rfl, h⟩))))
    · exact .inr (.inl h)
    · exact .inr (.inr (.inr (.inr (.inr h))))
    · exact .inr (.inr (.inr (.inl h)))

variable {m m' : SessionMemory} {mine : Set Nat}

theorem Sound.own_lt (hm : m.Sound) {q : Nat} (hq : m.OwnString q) : q < m.heap.next :=
  (live_of_stringAt (hm.strings q hq)).lt

theorem Sound.message_ne (hm : m.Sound) {p : Nat} (hown : m.OwnString p) :
    m.message ≠ some p := by
  intro h
  obtain ⟨s, hs⟩ := Option.isSome_iff_exists.mp (hm.strings p hown)
  rw [stringAt_eq_some, hm.message p h] at hs
  cases hs

theorem mem_slots {l : List StringSlot} {p : Nat} :
    p ∈ l.filterMap m.slot ↔ ∃ slot ∈ l, m.slot slot = some p :=
  List.mem_filterMap

theorem Sound.nodup_slots (hm : m.Sound) {l : List StringSlot} (hl : l.Nodup) :
    (l.filterMap m.slot).Nodup :=
  hl.filterMap fun _ _ _ h h' => hm.slots _ _ _ h h'

theorem Sound.disjoint_slots (hm : m.Sound) {l l' : List StringSlot} (h : l.Disjoint l') :
    (l.filterMap m.slot).Disjoint (l'.filterMap m.slot) := by
  intro p hp hp'
  obtain ⟨slot, hmem, hslot⟩ := mem_slots.mp hp
  obtain ⟨slot', hmem', hslot'⟩ := mem_slots.mp hp'
  exact h hmem (hm.slots _ _ _ hslot hslot' ▸ hmem')

theorem Sound.disjoint_rcpts (hm : m.Sound) (l : List StringSlot) :
    (l.filterMap m.slot).Disjoint m.recipients := by
  intro p hp
  obtain ⟨slot, -, hslot⟩ := mem_slots.mp hp
  exact hm.slotRcpt slot p hslot

theorem Sound.disjoint_id (hm : m.Sound) (l : List StringSlot) :
    (l.filterMap m.slot).Disjoint [m.id] := by
  intro p hp hid
  obtain ⟨slot, -, hslot⟩ := mem_slots.mp hp
  exact hm.slotId slot (List.mem_singleton.mp hid ▸ hslot)

theorem Sound.disjoint_message (hm : m.Sound) {l : List Nat} (hl : ∀ p ∈ l, m.OwnString p) :
    l.Disjoint m.message.toList := by
  intro p hp hmsg
  exact hm.message_ne (hl p hp) (Option.mem_toList.mp hmsg)

theorem ownString_of_slot {l : List StringSlot} {p : Nat} (hp : p ∈ l.filterMap m.slot) :
    m.OwnString p := by
  obtain ⟨slot, -, hslot⟩ := mem_slots.mp hp
  exact .inl ⟨slot, hslot⟩

/-- No block is freed twice. -/
theorem Sound.nodup_owned (hm : m.Sound) : m.owned.Nodup := by
  have hmsgNodup : m.message.toList.Nodup := by
    cases m.message with
    | none => exact List.nodup_nil
    | some p => exact List.nodup_singleton p
  have hmsgSlots : ∀ l : List StringSlot, (l.filterMap m.slot).Disjoint m.message.toList :=
    fun l => hm.disjoint_message fun p hp => ownString_of_slot hp
  have hmsgRcpts := hm.disjoint_message (l := m.recipients) fun p hp => .inr (.inl hp)
  have hmsgId := hm.disjoint_message (l := [m.id]) fun p hp =>
    .inr (.inr (List.mem_singleton.mp hp))
  have hrcptId : m.recipients.Disjoint [m.id] := by
    intro p hp hid
    exact hm.rcptId (List.mem_singleton.mp hid ▸ hp)
  have hnexthop : [StringSlot.nexthop].Disjoint [.authUser, .authPass] := by simp
  have hfirst : [StringSlot.helo, .messageFile, .xforwardAddr, .responseMsg, .sender].Disjoint
      [.nexthop] := by simp
  have hlast : [StringSlot.helo, .messageFile, .xforwardAddr, .responseMsg, .sender].Disjoint
      [.authUser, .authPass] := by simp
  simp only [owned, List.nodup_append', List.disjoint_append_right]
  refine ⟨hm.nodup_slots (by decide), ⟨hm.rcpts, ⟨hm.nodup_slots (by decide), ⟨hmsgNodup,
    ⟨hm.nodup_slots (by decide), List.nodup_singleton _, hm.disjoint_id _⟩, ?_,
      List.disjoint_symm hmsgId⟩, ?_⟩, ?_⟩, ?_⟩
  · exact List.disjoint_symm (hmsgSlots _)
  · exact ⟨hmsgSlots _, hm.disjoint_slots hnexthop, hm.disjoint_id _⟩
  · exact ⟨List.disjoint_symm (hm.disjoint_rcpts _), hmsgRcpts,
      List.disjoint_symm (hm.disjoint_rcpts _), hrcptId⟩
  · exact ⟨hm.disjoint_rcpts _, hm.disjoint_slots hfirst, hmsgSlots _,
      hm.disjoint_slots hlast, hm.disjoint_id _⟩

/-! ## One call -/

/-- What a setter makes of its argument. -/
def stored : StringSlot → Bytes → Bytes
  | .xforwardAddr => forwardedAddr
  | .sender => smfInternalStripEmailAddr
  | _ => fun s => s

/-- The setter has put a new block in the place of the old one. -/
structure Sets (m : SessionMemory) (slot : StringSlot) (s : Bytes) (m' : SessionMemory) (p : Nat) :
    Prop where
  fields : m' = m.setSlot slot p m'.heap
  new : m.heap.next ≤ p
  block : ∀ q, m'.heap.block q = if q = p then some (.string s)
    else if m.slot slot = some q then none else m.heap.block q

theorem freeOpt_slot (hm : m.Sound) (slot : StringSlot) :
    ∃ heap, m.heap.freeOpt (m.slot slot) = some heap ∧ heap.next = m.heap.next ∧
      ∀ q, heap.block q = if m.slot slot = some q then none else m.heap.block q := by
  cases hslot : m.slot slot with
  | none => exact ⟨m.heap, rfl, rfl, fun q => (if_neg (by simp)).symm⟩
  | some p =>
    obtain ⟨heap, hfree, hnext, hblock⟩ :=
      Heap.free_of_live (live_of_stringAt (hm.strings p (.inl ⟨slot, hslot⟩)))
    refine ⟨heap, hfree, hnext, fun q => ?_⟩
    rw [hblock]
    simp only [Option.some.injEq, eq_comm]

/-- After the old string has been freed, the new one is there unless it is the old one. -/
theorem stringAt_freed {heap : Heap SessionBlock} {slot : StringSlot} {arg : Nat}
    (hblock : ∀ q, heap.block q = if m.slot slot = some q then none else m.heap.block q) :
    stringAt heap arg = if m.slot slot = some arg then none else stringAt m.heap arg := by
  unfold stringAt
  rw [hblock]
  split_ifs <;> rfl

/-- A setter that reads a string which is not there. -/
theorem setString_none (hm : m.Sound) {slot : StringSlot} {arg : Nat}
    (h : (if m.slot slot = some arg then none else stringAt m.heap arg) = none) :
    m.setString slot arg = none := by
  obtain ⟨heap, hfree, -, hblock⟩ := freeOpt_slot hm slot
  have hgone : stringAt heap arg = none := (stringAt_freed hblock).trans h
  have hreplace : ∀ f, m.replace slot arg f = none := by
    intro f
    rw [replace, hfree, Option.bind_some, strdupWith_none hgone]
    rfl
  cases slot with
  | sender =>
    show m.setSender arg = none
    rw [setSender, hfree, Option.bind_some, strdupWith_none hgone]
    rfl
  | _ => exact hreplace _

/-- A setter that is given another string. -/
theorem setString_some (hm : m.Sound) {slot : StringSlot} {arg : Nat} {s : Bytes}
    (hs : stringAt m.heap arg = some s) (hne : m.slot slot ≠ some arg) :
    ∃ m' p, m.setString slot arg = some m' ∧ m.Sets slot (stored slot s) m' p := by
  obtain ⟨heap, hfree, hnext, hblock⟩ := freeOpt_slot hm slot
  have hread : stringAt heap arg = some s := by
    rw [stringAt_freed hblock, if_neg hne, hs]
  have hreplace : ∀ f, m.replace slot arg f =
      some (m.setSlot slot heap.next (heap.alloc (.string (f s)))) := by
    intro f
    rw [replace, hfree, Option.bind_some, strdupWith_some hread]
    rfl
  have hsets : ∀ t,
      m.Sets slot t (m.setSlot slot heap.next (heap.alloc (.string t))) heap.next := by
    intro t
    refine ⟨rfl, Nat.le_of_eq hnext.symm, fun q => ?_⟩
    show (heap.alloc (.string t)).block q = _
    rw [Heap.alloc_block, hblock]
  cases slot with
  | sender =>
    -- the stripped address is a block of its own, which is gone again at the end
    generalize hstrip : smfInternalStripEmailAddr s = t
    have htmp : stringAt (heap.alloc (.string t)) heap.next = some t :=
      stringAt_eq_some.mpr (heap.alloc_block_new _)
    have hlive : ((heap.alloc (.string t)).alloc (.string t)).Live heap.next :=
      Heap.live_of_block ((Heap.alloc_block_old (Nat.lt_succ_self heap.next) _).trans
        (heap.alloc_block_new _))
    obtain ⟨heap', hfree', -, hblock'⟩ := Heap.free_of_live hlive
    refine ⟨m.setSlot .sender (heap.next + 1) heap', heap.next + 1, ?_, rfl, by omega, fun q => ?_⟩
    · show m.setSender arg = _
      rw [setSender, hfree, Option.bind_some, strdupWith_some hread, Option.bind_some, hstrip]
      dsimp only
      rw [strdup_some htmp, Option.bind_some]
      dsimp only
      rw [hfree']
      rfl
    · show heap'.block q = _
      rw [hblock', Heap.alloc_block, Heap.alloc_block, hblock, Heap.alloc_next,
        show stored .sender s = t from hstrip]
      by_cases hq : q = heap.next
      · rw [if_pos hq, if_neg (by omega), ← hblock q, hq, heap.fresh _ (Nat.le_refl _)]
      · rw [if_neg hq, if_neg hq]
  | _ => exact ⟨_, _, hreplace _, hsets _⟩

/-- **When a setter goes well.** -/
theorem setString_isSome_iff (hm : m.Sound) {slot : StringSlot} {arg : Nat} :
    (m.setString slot arg).isSome = true ↔ m.Admits (.setString slot arg) := by
  show _ ↔ (stringAt m.heap arg).isSome = true ∧ m.slot slot ≠ some arg
  by_cases hsame : m.slot slot = some arg
  · rw [setString_none hm (if_pos hsame)]
    exact iff_of_false (by decide) fun h => h.2 hsame
  · rw [and_iff_left hsame]
    cases hs : stringAt m.heap arg with
    | none =>
      rw [setString_none hm (by rw [if_neg hsame, hs])]
      exact Iff.rfl
    | some s =>
      obtain ⟨m', p, hset, -⟩ := setString_some hm hs hsame
      rw [hset]
      exact iff_of_true rfl rfl

namespace Sets

variable {slot : StringSlot} {s : Bytes} {p : Nat}

theorem slot_eq (h : m.Sets slot s m' p) (other : StringSlot) :
    m'.slot other = if other = slot then some p else m.slot other := by
  rw [h.fields]
  rfl

theorem recipients (h : m.Sets slot s m' p) : m'.recipients = m.recipients := by
  rw [h.fields]
  rfl

theorem message (h : m.Sets slot s m' p) : m'.message = m.message := by
  rw [h.fields]
  rfl

theorem id (h : m.Sets slot s m' p) : m'.id = m.id := by
  rw [h.fields]
  rfl

/-- A block that was there is another one than the new block. -/
theorem ne_of_live (h : m.Sets slot s m' p) {q : Nat} (hq : m.heap.Live q) : q ≠ p := by
  have := hq.lt
  have := h.new
  omega

/-- The other strings of the session stay as they are. -/
theorem block_kept (h : m.Sets slot s m' p) {q : Nat} (hq : m.heap.Live q)
    (hne : m.slot slot ≠ some q) : m'.heap.block q = m.heap.block q := by
  rw [h.block, if_neg (h.ne_of_live hq), if_neg hne]

theorem ownString_iff (h : m.Sets slot s m' p) (hm : m.Sound) (q : Nat) :
    m'.OwnString q ↔ q = p ∨ m.OwnString q ∧ m.slot slot ≠ some q := by
  unfold OwnString
  rw [h.recipients, h.id]
  constructor
  · rintro (⟨other, hother⟩ | hrcpt | hid)
    · rw [h.slot_eq] at hother
      split_ifs at hother with heq
      · exact .inl (Option.some.inj hother).symm
      · exact .inr ⟨.inl ⟨other, hother⟩, fun hold => heq (hm.slots _ _ _ hother hold)⟩
    · exact .inr ⟨.inr (.inl hrcpt), fun hold => hm.slotRcpt _ _ hold hrcpt⟩
    · exact .inr ⟨.inr (.inr hid), fun hold => hm.slotId slot (hid ▸ hold)⟩
  · rintro (heq | ⟨⟨other, hother⟩ | hrest, hne⟩)
    · exact .inl ⟨slot, by rw [h.slot_eq, if_pos rfl, heq]⟩
    · refine .inl ⟨other, ?_⟩
      rw [h.slot_eq, if_neg, hother]
      rintro rfl
      exact hne hother
    · exact .inr hrest

theorem sound (h : m.Sets slot s m' p) (hm : m.Sound) : m'.Sound := by
  have hlive : ∀ q, m.OwnString q → m.heap.Live q :=
    fun q hq => live_of_stringAt (hm.strings q hq)
  have hnew : ¬ m.OwnString p := fun hp => h.ne_of_live (hlive p hp) rfl
  refine ⟨?_, ?_, ?_, ?_, ?_, ?_, ?_⟩
  · intro q hq
    rcases (h.ownString_iff hm q).mp hq with rfl | ⟨hq, hne⟩
    · have hblock : m'.heap.block q = some (.string s) := (h.block q).trans (if_pos rfl)
      rw [stringAt_eq_some.mpr hblock]
      rfl
    · rw [stringAt_congr (h.block_kept (hlive q hq) hne)]
      exact hm.strings q hq
  · intro q hq
    rw [h.message] at hq
    have hblock := hm.message q hq
    rw [h.block_kept (Heap.live_of_block hblock), hblock]
    exact fun hold => hm.message_ne (.inl ⟨slot, hold⟩) hq
  · intro a b q ha hb
    rw [h.slot_eq] at ha hb
    split_ifs at ha hb with hax hbx hbx
    · rw [hax, hbx]
    · exact absurd (.inl ⟨b, hb⟩) (Option.some.inj ha ▸ hnew)
    · exact absurd (.inl ⟨a, ha⟩) (Option.some.inj hb ▸ hnew)
    · exact hm.slots a b q ha hb
  · intro a q ha
    rw [h.slot_eq] at ha
    rw [h.recipients]
    split_ifs at ha
    · exact fun hmem => hnew (.inr (.inl (Option.some.inj ha ▸ hmem)))
    · exact hm.slotRcpt a q ha
  · intro a ha
    rw [h.slot_eq, h.id] at ha
    split_ifs at ha
    · exact hnew (.inr (.inr (Option.some.inj ha)))
    · exact hm.slotId a ha
  · rw [h.recipients]
    exact hm.rcpts
  · rw [h.recipients, h.id]
    exact hm.rcptId

theorem accounts (h : m.Sets slot s m' p) (hm : m.Sound) (hacc : m.Accounts mine) :
    m'.Accounts mine := by
  have hfresh : p ∉ mine := fun hp => h.ne_of_live ((hacc.live p).mpr (.inr hp)) rfl
  constructor
  · intro q
    rw [h.ownString_iff hm, Heap.Live, h.block]
    split_ifs with hq hold
    · exact iff_of_true rfl (.inl (.inl hq))
    · refine iff_of_false (by decide) ?_
      rintro ((heq | ⟨-, hne⟩) | hmine)
      · exact hq heq
      · exact hne hold
      · exact hacc.apart q (.inl ⟨slot, hold⟩) hmine
    · rw [← Heap.Live, hacc.live]
      refine or_congr ⟨fun how => .inr ⟨how, hold⟩, ?_⟩ Iff.rfl
      exact fun how => how.elim (fun heq => absurd heq hq) And.left
  · intro q hq
    rcases (h.ownString_iff hm q).mp hq with rfl | ⟨hq, -⟩
    · exact hfresh
    · exact hacc.apart q hq

/-- What each string says afterwards. -/
theorem text (h : m.Sets slot s m' p) (hm : m.Sound) (other : StringSlot) :
    (m'.slot other).bind (stringAt m'.heap) =
      if other = slot then some s else (m.slot other).bind (stringAt m.heap) := by
  rw [h.slot_eq]
  split_ifs with heq
  · exact stringAt_eq_some.mpr ((h.block p).trans (if_pos rfl))
  · cases hother : m.slot other with
    | none => rfl
    | some q =>
      have hne : m.slot slot ≠ some q := fun hold => heq (hm.slots _ _ _ hother hold)
      have hlive := live_of_stringAt (hm.strings q (.inl ⟨other, hother⟩))
      exact stringAt_congr (h.block_kept hlive hne)

end Sets

/-! The records depend on the strings of the session alone. -/

/-- The pointers are the same, and so is what they point to. -/
structure SameStrings (m m' : SessionMemory) : Prop where
  fields : m'.slot = m.slot ∧ m'.recipients = m.recipients ∧ m'.id = m.id
  text : ∀ p, m.OwnString p → m'.heap.block p = m.heap.block p

theorem SameStrings.ownString (h : m.SameStrings m') (p : Nat) :
    m'.OwnString p ↔ m.OwnString p := by
  unfold OwnString
  rw [h.fields.1, h.fields.2.1, h.fields.2.2]

theorem filterMap_stringAt {heap heap' : Heap SessionBlock} {ps : List Nat}
    (h : ∀ p ∈ ps, heap'.block p = heap.block p) :
    ps.filterMap (stringAt heap') = ps.filterMap (stringAt heap) :=
  List.filterMap_congr fun p hp => stringAt_congr (h p hp)

theorem SameStrings.view (h : m.SameStrings m') : m'.view = m.view := by
  have htext : ∀ slot, (m'.slot slot).bind (stringAt m'.heap) =
      (m.slot slot).bind (stringAt m.heap) := by
    intro slot
    rw [h.fields.1]
    cases hslot : m.slot slot with
    | none => rfl
    | some p => exact stringAt_congr (h.text p (.inl ⟨slot, hslot⟩))
  have hrcpts := filterMap_stringAt fun p hp => h.text p (.inr (.inl hp))
  have hid := stringAt_congr (h.text m.id (.inr (.inr rfl)))
  simp only [SessionMemory.view, htext, h.fields.2.1, h.fields.2.2, hrcpts, hid]

theorem SameStrings.sound (h : m.SameStrings m') (hm : m.Sound)
    (hmessage : ∀ p, m'.message = some p → m'.heap.block p = some (.object .message)) :
    m'.Sound := by
  obtain ⟨hslot, hrcpts, hid⟩ := h.fields
  refine ⟨?_, hmessage, ?_, ?_, ?_, ?_, ?_⟩
  · intro p hp
    have hold := (h.ownString p).mp hp
    rw [stringAt_congr (h.text p hold)]
    exact hm.strings p hold
  · rw [hslot]
    exact hm.slots
  · rw [hslot, hrcpts]
    exact hm.slotRcpt
  · rw [hslot, hid]
    exact hm.slotId
  · rw [hrcpts]
    exact hm.rcpts
  · rw [hrcpts, hid]
    exact hm.rcptId

/-- The caller has allocated a block for itself. -/
theorem sameStrings_alloc (hm : m.Sound) (x : SessionBlock) :
    m.SameStrings { m with heap := m.heap.alloc x } :=
  ⟨⟨rfl, rfl, rfl⟩, fun _ hp => Heap.alloc_block_old (hm.own_lt hp) x⟩

theorem alloc_sound (hm : m.Sound) (x : SessionBlock) :
    ({ m with heap := m.heap.alloc x } : SessionMemory).Sound :=
  (sameStrings_alloc hm x).sound hm fun p hp => by
    have hblock := hm.message p hp
    exact (Heap.alloc_block_old (Heap.live_of_block hblock).lt x).trans hblock

theorem alloc_accounts (hm : m.Sound) (hacc : m.Accounts mine) (x : SessionBlock) :
    ({ m with heap := m.heap.alloc x } : SessionMemory).Accounts (insert m.heap.next mine) := by
  constructor
  · intro p
    rw [Heap.Live, Heap.alloc_block, (sameStrings_alloc hm x).ownString, Set.mem_insert_iff]
    split_ifs with hp
    · exact iff_of_true rfl (.inr (.inl hp))
    · rw [← Heap.Live, hacc.live, or_iff_right hp]
  · intro p hp
    rw [(sameStrings_alloc hm x).ownString] at hp
    have hlt := hm.own_lt hp
    rw [Set.mem_insert_iff, not_or]
    exact ⟨by omega, hacc.apart p hp⟩

/-- The caller has freed a block of its own. -/
theorem drop_step (hm : m.Sound) (hacc : m.Accounts mine) {p : Nat} (h : m.Admits (.drop p)) :
    ∃ m', m.call (.drop p) = some m' ∧ m'.Sound ∧ m'.Accounts (mine \ {p}) ∧ m'.view = m.view := by
  obtain ⟨hlive, hnot⟩ : m.heap.Live p ∧ p ∉ m.owned := h
  rw [mem_owned, not_or] at hnot
  obtain ⟨heap, hfree, -, hblock⟩ := Heap.free_of_live hlive
  have hsame : m.SameStrings { m with heap := heap } := by
    refine ⟨⟨rfl, rfl, rfl⟩, fun q hq => ?_⟩
    show heap.block q = _
    rw [hblock, if_neg]
    rintro rfl
    exact hnot.1 hq
  refine ⟨{ m with heap := heap }, ?_, hsame.sound hm ?_, ⟨?_, ?_⟩, hsame.view⟩
  · rw [call, hfree]
    rfl
  · intro q hq
    show heap.block q = _
    rw [hblock, if_neg, hm.message q hq]
    rintro rfl
    exact hnot.2 hq
  · intro q
    rw [hsame.ownString, Heap.Live]
    show (heap.block q).isSome = true ↔ _
    rw [hblock, Set.mem_sdiff, Set.mem_singleton_iff]
    split_ifs with hq
    · refine iff_of_false (by decide) ?_
      rintro (how | ⟨-, hne⟩)
      · exact hnot.1 (hq ▸ how)
      · exact hne hq
    · rw [← Heap.Live, hacc.live, and_iff_left hq]
  · intro q hq
    rw [hsame.ownString] at hq
    exact fun hmem => hacc.apart q hq hmem.1

/-- The session with one recipient more, in a new block. -/
def withRcpt (m : SessionMemory) (t : Bytes) : SessionMemory :=
  { m with
    heap := m.heap.alloc (.string t)
    recipients := m.recipients ++ [m.heap.next] }

section WithRcpt

variable {t : Bytes}

theorem withRcpt_block_new (m : SessionMemory) (t : Bytes) :
    (m.withRcpt t).heap.block m.heap.next = some (.string t) :=
  Heap.alloc_block_new _ _

theorem withRcpt_block_old {q : Nat} (hq : q < m.heap.next) :
    (m.withRcpt t).heap.block q = m.heap.block q :=
  Heap.alloc_block_old hq _

theorem withRcpt_ownString (m : SessionMemory) (t : Bytes) (q : Nat) :
    (m.withRcpt t).OwnString q ↔ q = m.heap.next ∨ m.OwnString q := by
  show (∃ slot, m.slot slot = some q) ∨ q ∈ m.recipients ++ [m.heap.next] ∨ q = m.id ↔ _
  rw [List.mem_append, List.mem_singleton, OwnString]
  tauto

theorem withRcpt_sound (hm : m.Sound) (t : Bytes) : (m.withRcpt t).Sound := by
  have hnew : ∀ q, m.OwnString q → q ∉ [m.heap.next] := by
    intro q hq hmem
    have := hm.own_lt hq
    have := List.mem_singleton.mp hmem
    omega
  refine ⟨?_, ?_, hm.slots, ?_, hm.slotId, ?_, ?_⟩
  · intro q hq
    rcases (withRcpt_ownString m t q).mp hq with rfl | hq
    · rw [stringAt_eq_some.mpr (withRcpt_block_new m t)]
      rfl
    · rw [stringAt_congr (withRcpt_block_old (hm.own_lt hq))]
      exact hm.strings q hq
  · intro q hq
    have hblock := hm.message q hq
    exact (withRcpt_block_old (Heap.live_of_block hblock).lt).trans hblock
  · intro slot q hslot hmem
    rcases List.mem_append.mp hmem with hmem | hmem
    · exact hm.slotRcpt slot q hslot hmem
    · exact hnew q (.inl ⟨slot, hslot⟩) hmem
  · exact List.nodup_append'.mpr ⟨hm.rcpts, List.nodup_singleton _,
      fun q hq hmem => hnew q (.inr (.inl hq)) hmem⟩
  · intro hmem
    rcases List.mem_append.mp hmem with hmem | hmem
    · exact hm.rcptId hmem
    · exact hnew m.id (.inr (.inr rfl)) hmem

theorem withRcpt_accounts (hacc : m.Accounts mine) (t : Bytes) :
    (m.withRcpt t).Accounts mine := by
  constructor
  · intro q
    rw [withRcpt_ownString, Heap.Live]
    by_cases hq : q = m.heap.next
    · rw [hq, withRcpt_block_new]
      exact iff_of_true rfl (.inl (.inl rfl))
    · rw [show (m.withRcpt t).heap.block q = m.heap.block q from if_neg hq, ← Heap.Live,
        hacc.live, or_iff_right hq]
  · intro q hq
    rcases (withRcpt_ownString m t q).mp hq with rfl | hq
    · exact fun hmine => absurd ((hacc.live _).mpr (.inr hmine)).lt (Nat.lt_irrefl _)
    · exact hacc.apart q hq

theorem withRcpt_view (hm : m.Sound) (t : Bytes) :
    (m.withRcpt t).view = { m.view with
      envelope := { m.view.envelope with recipients := m.view.envelope.recipients ++ [t] } } := by
  have htext : ∀ slot, ((m.withRcpt t).slot slot).bind (stringAt (m.withRcpt t).heap) =
      (m.slot slot).bind (stringAt m.heap) := by
    intro slot
    show (m.slot slot).bind _ = _
    cases hslot : m.slot slot with
    | none => rfl
    | some q => exact stringAt_congr (withRcpt_block_old (hm.own_lt (.inl ⟨slot, hslot⟩)))
  have hrcpts : (m.withRcpt t).recipients.filterMap (stringAt (m.withRcpt t).heap) =
      m.recipients.filterMap (stringAt m.heap) ++ [t] := by
    show (m.recipients ++ [m.heap.next]).filterMap _ = _
    rw [List.filterMap_append,
      filterMap_stringAt fun q hq => withRcpt_block_old (hm.own_lt (.inr (.inl hq))),
      List.filterMap_cons_some (stringAt_eq_some.mpr (withRcpt_block_new m t))]
    rfl
  have hid : stringAt (m.withRcpt t).heap (m.withRcpt t).id = stringAt m.heap m.id :=
    stringAt_congr (withRcpt_block_old (hm.own_lt (.inr (.inr rfl))))
  simp only [view, htext, hrcpts, hid]

end WithRcpt

/-- A recipient has been added. -/
theorem addRcpt_step (hm : m.Sound) (hacc : m.Accounts mine) {arg : Nat} {s : Bytes}
    (hs : stringAt m.heap arg = some s) :
    ∃ m', m.addRcpt arg = some m' ∧ m'.Sound ∧ m'.Accounts mine ∧
      m'.view = SessionEffect.apply m.view (.rcpt s) := by
  refine ⟨m.withRcpt (smfInternalStripEmailAddr s), ?_, withRcpt_sound hm _,
    withRcpt_accounts hacc _, withRcpt_view hm _⟩
  rw [addRcpt, strdupWith_some hs]
  rfl

/-- A setter has replaced a string. -/
theorem Sets.view {slot : StringSlot} {s : Bytes} {p : Nat} (h : m.Sets slot (stored slot s) m' p)
    (hm : m.Sound) : m'.view = SessionEffect.apply m.view (.string slot s) := by
  have hkept : ∀ q, m.OwnString q → (∀ other, m.slot other ≠ some q) →
      m'.heap.block q = m.heap.block q :=
    fun q hq hne => h.block_kept (live_of_stringAt (hm.strings q hq)) (hne slot)
  have hrcpts : m.recipients.filterMap (stringAt m'.heap) =
      m.recipients.filterMap (stringAt m.heap) :=
    filterMap_stringAt fun q hq =>
      hkept q (.inr (.inl hq)) fun other hother => hm.slotRcpt other q hother hq
  have hid : stringAt m'.heap m.id = stringAt m.heap m.id :=
    stringAt_congr (hkept m.id (.inr (.inr rfl)) hm.slotId)
  have hself : (m'.slot slot).bind (stringAt m'.heap) = some (stored slot s) := by
    rw [h.text hm, if_pos rfl]
  have hother : ∀ other, other ≠ slot →
      (m'.slot other).bind (stringAt m'.heap) = (m.slot other).bind (stringAt m.heap) := by
    intro other hne
    rw [h.text hm, if_neg hne]
  have hforward : SessionEffect.apply m.view (.string .xforwardAddr s) =
      { m.view with xforwardAddr := some (forwardedAddr s) } := by
    rw [SessionEffect.apply, smfSessionSetXforwardAddr, forwardedAddr]
    split_ifs <;> rfl
  cases slot with
  | xforwardAddr =>
    rw [hforward]
    simp (disch := decide) only [SessionMemory.view, hself, hother, h.recipients, h.id, hrcpts,
      hid, stored]
  | _ =>
    simp (disch := decide) only [SessionMemory.view, hself, hother, h.recipients, h.id, hrcpts,
      hid, SessionEffect.apply, smfSessionSetHelo, smfEnvelopeSetSender, smfEnvelopeSetNexthop,
      stored]

/-- One call that is in order. -/
theorem call_step (hm : m.Sound) (hacc : m.Accounts mine) {c : SessionCall} (h : m.Admits c) :
    ∃ m', m.call c = some m' ∧ m'.Sound ∧ m'.Accounts (m.callers mine c) ∧
      m'.view = (m.effect c).toList.foldl SessionEffect.apply m.view := by
  cases c with
  | setString slot arg =>
    obtain ⟨hstring, hne⟩ : (stringAt m.heap arg).isSome = true ∧ m.slot slot ≠ some arg := h
    obtain ⟨s, hs⟩ := Option.isSome_iff_exists.mp hstring
    obtain ⟨m', p, hset, hsets⟩ := setString_some hm hs hne
    refine ⟨m', hset, hsets.sound hm, hsets.accounts hm hacc, ?_⟩
    rw [effect, hs]
    exact hsets.view hm
  | addRcpt arg =>
    obtain ⟨s, hs⟩ := Option.isSome_iff_exists.mp (show (stringAt m.heap arg).isSome = true from h)
    obtain ⟨m', hcall, hsound, hacc', hview⟩ := addRcpt_step hm hacc hs
    refine ⟨m', hcall, hsound, hacc', ?_⟩
    rw [effect, hs]
    exact hview
  | setMessage arg =>
    refine ⟨m.setMessage arg, rfl, ⟨hm.strings, ?_, hm.slots, hm.slotRcpt, hm.slotId, hm.rcpts,
      hm.rcptId⟩, ⟨hacc.live, hacc.apart⟩, rfl⟩
    intro p hp
    obtain rfl : arg = p := Option.some.inj hp
    exact h
  | newString s =>
    exact ⟨_, rfl, alloc_sound hm _, alloc_accounts hm hacc _, (sameStrings_alloc hm _).view⟩
  | newMessage =>
    exact ⟨_, rfl, alloc_sound hm _, alloc_accounts hm hacc _, (sameStrings_alloc hm _).view⟩
  | drop p => exact drop_step hm hacc h

/-- A run of calls that are in order. -/
theorem calls_run {cs : List SessionCall} (hm : m.Sound) (hacc : m.Accounts mine)
    (h : m.AdmitsAll cs) :
    ∃ m', m.calls cs = some m' ∧ m'.Sound ∧ m'.Accounts (m.callersAfter mine cs) ∧
      m'.view = (m.effects cs).foldl SessionEffect.apply m.view := by
  let change := fun session e => some (SessionEffect.apply session e)
  have hstep : ∀ (k : Nat) (m : SessionMemory) (mine : Set Nat) (c : SessionCall),
      m.Sound ∧ m.Accounts mine → m.Admits c →
      ∃ m', m.call c = some m' ∧ (m'.Sound ∧ m'.Accounts (m.callers mine c)) ∧
        (m.effect c).toList.foldlM change m.view = some m'.view := by
    rintro k m mine c ⟨hm, hacc⟩ hc
    obtain ⟨m', hcall, hm', hacc', hview⟩ := call_step hm hacc hc
    refine ⟨m', hcall, ⟨hm', hacc'⟩, ?_⟩
    rw [hview]
    exact List.foldlM_pure
  obtain ⟨m', hcalls, ⟨hm', hacc'⟩, hview⟩ := interface.calls_run view change
    (fun _ m mine => m.Sound ∧ m.Accounts mine) hstep ⟨hm, hacc⟩ h
  exact ⟨m', hcalls, hm', hacc', (Option.some.inj (List.foldlM_pure.symm.trans hview)).symm⟩

/-! ## From the start to the end -/

theorem new_sound (heap : Heap SessionBlock) (sid : Bytes) : (new heap sid).Sound where
  strings := by
    rintro p (⟨slot, hslot⟩ | hrcpt | hid)
    · cases hslot
    · cases hrcpt
    · have hblock : (new heap sid).heap.block p = some (.string sid) :=
        hid ▸ heap.alloc_block_new _
      rw [stringAt_eq_some.mpr hblock]
      rfl
  message := nofun
  slots := nofun
  slotRcpt := nofun
  slotId := nofun
  rcpts := List.nodup_nil
  rcptId := List.not_mem_nil

theorem new_accounts (heap : Heap SessionBlock) (sid : Bytes) :
    (new heap sid).Accounts {p | heap.Live p} := by
  have hown : ∀ p, (new heap sid).OwnString p ↔ p = heap.next := by
    intro p
    constructor
    · rintro (⟨slot, hslot⟩ | hrcpt | hid)
      · cases hslot
      · cases hrcpt
      · exact hid
    · exact fun hid => .inr (.inr hid)
  constructor
  · intro p
    rw [hown, Heap.Live, show (new heap sid).heap = heap.alloc (.string sid) from rfl,
      Heap.alloc_block]
    split_ifs with hp
    · exact iff_of_true rfl (.inl hp)
    · exact (or_iff_right hp).symm
  · intro p hp hlive
    have := ((hown p).mp hp)
    have := Heap.Live.lt hlive
    omega

/-- What `smf_session_free` leaves. -/
theorem free_left (hm : m.Sound) (hacc : m.Accounts mine) :
    ∃ heap, m.free = some heap ∧ ∀ p, heap.Live p ↔ p ∈ mine ∧ m.message ≠ some p := by
  have hlive : ∀ p ∈ m.owned, m.heap.Live p := by
    intro p hp
    rcases mem_owned.mp hp with hown | hmsg
    · exact live_of_stringAt (hm.strings p hown)
    · exact Heap.live_of_block (hm.message p hmsg)
  obtain ⟨heap, hfree, -, hblock⟩ := Heap.freeAll_eq hlive hm.nodup_owned
  refine ⟨heap, hfree, fun p => ?_⟩
  rw [Heap.Live, hblock]
  split_ifs with hp
  · refine iff_of_false (by decide) ?_
    rintro ⟨hmine, hmsg⟩
    exact hacc.apart p ((mem_owned.mp hp).resolve_right hmsg) hmine
  · rw [mem_owned, not_or] at hp
    rw [← Heap.Live, hacc.live, or_iff_right hp.1, and_iff_left hp.2]

/-- **A session from its start to its end.**  As long as the calls are in order, none of them
touches a block that is gone, and the records say what the calls have put there.  From there a
setter goes well exactly when it is in order, and `smf_session_free` leaves the blocks of the
caller alone, all of them but the message that was handed over last. -/
theorem session_calls (heap : Heap SessionBlock) (sid : Bytes) {cs : List SessionCall}
    (h : (new heap sid).AdmitsAll cs) :
    ∃ m, (new heap sid).calls cs = some m ∧
      m.view = ((new heap sid).effects cs).foldl SessionEffect.apply (smfSessionNew sid) ∧
      (∀ slot arg, (m.setString slot arg).isSome = true ↔ m.Admits (.setString slot arg)) ∧
      ∃ heap', m.free = some heap' ∧ ∀ p, heap'.Live p ↔
        p ∈ (new heap sid).callersAfter {p | heap.Live p} cs ∧ m.message ≠ some p := by
  obtain ⟨m, hcalls, hm, hacc, hview⟩ := calls_run (new_sound heap sid) (new_accounts heap sid) h
  have hstart : (new heap sid).view = smfSessionNew sid := by
    have hid : stringAt (new heap sid).heap (new heap sid).id = some sid :=
      stringAt_eq_some.mpr (heap.alloc_block_new _)
    rw [view, hid]
    rfl
  rw [hstart] at hview
  exact ⟨m, hcalls, hview, fun slot arg => setString_isSome_iff hm, free_left hm hacc⟩

/-- A sender that is taken from a recipient, and a message object that is handed over twice. -/
theorem session_calls_test :
    ∃ m, (new .empty (ascii "SID")).calls
        [.newString (ascii "<a@b>"), .setString .sender 1, .addRcpt 1, .setString .sender 4,
          .drop 1, .newMessage, .setMessage 7, .setMessage 7] = some m ∧
      m.view = ([.string .sender (ascii "<a@b>"), .rcpt (ascii "<a@b>"),
        .string .sender (ascii "a@b")] : List SessionEffect).foldl SessionEffect.apply
          (smfSessionNew (ascii "SID")) ∧
      (m.free).isSome = true := by
  have hadmits : (new .empty (ascii "SID")).AdmitsAll
      [.newString (ascii "<a@b>"), .setString .sender 1, .addRcpt 1, .setString .sender 4,
        .drop 1, .newMessage, .setMessage 7, .setMessage 7] := by decide
  obtain ⟨m, hcalls, hview, -, heap, hfree, -⟩ := session_calls .empty (ascii "SID") hadmits
  exact ⟨m, hcalls, hview, by rw [hfree]; rfl⟩

end SessionMemory

end Spmfilter

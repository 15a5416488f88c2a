import Spmfilter.Internal.Stream
import Spmfilter.Smtpd.Outcome

/-!
# Incomplete messages

The DATA loop is left in the same way at the dot line, at the end of the
connection and after a read error, and the code after it does not look at the
result of the last read.

* `Incomplete` streams carry no dot line.
* `receivedState` is what the loop makes of a stream.
* `QueueIdle` is the condition under which a run of the queue calls neither a
  module nor the next hop.
* `incomplete_nothingCalled_iff` says that only this keeps an incomplete
  message from being processed.
-/

namespace Spmfilter

open CString Stdio

/-! ## Streams without a dot line -/

/-- The bytes that come before the connection ends or a read fails. -/
def received : Wire → Bytes
  | some b :: wire => b :: received wire
  | none :: _ => []
  | [] => []

/-- No dot line has come. -/
def Incomplete (wire : Wire) : Prop :=
  ∀ line ∈ lines (received wire), line ≠ [DOT, CR, LF] ∧ line ≠ [DOT, LF]

instance (wire : Wire) : Decidable (Incomplete wire) :=
  List.decidableBAll (fun line : Bytes => line ≠ [DOT, CR, LF] ∧ line ≠ [DOT, LF]) _

theorem two_le_maxline : 2 ≤ MAXLINE := by decide

/-- What the loop makes of a stream: the pieces in front of the first that the
loop takes for a dot line. -/
def receivedState (messageSize : Nat) (wire : Wire) : DataState :=
  ((readlines (Source.tokens UInt8) two_le_maxline wire).takeWhile fun read =>
    !isDotLine read.buf).foldl (fun st read => dataLine st read.ret read.buf) { messageSize }

theorem dataLoop_readlines {R : Type} (src : Source UInt8 R) (st : DataState) (r : R) :
    (dataLoop src st r).state =
      ((readlines src two_le_maxline r).takeWhile fun read => !isDotLine read.buf).foldl
        (fun st read => dataLine st read.ret read.buf) st := by
  fun_induction dataLoop src st r with
  | case1 st r read hret hdot =>
    have hnext : readlines src two_le_maxline r = read.1 :: readlines src _ read.2 :=
      readlines_next rfl hret
    rw [hnext, List.takeWhile_cons_of_neg (by simp [hdot])]
    rfl
  | case2 st r read hret hdot ih =>
    have hnext : readlines src two_le_maxline r = read.1 :: readlines src _ read.2 :=
      readlines_next rfl hret
    rw [hnext, List.takeWhile_cons_of_pos (by simpa using hdot)]
    exact ih
  | case3 st r read hret =>
    rw [readlines_stop rfl hret]
    rfl

/-- The slices of the socket do not matter. -/
theorem dataLoop_received (messageSize : Nat) (r : ReadlineT × Socket) :
    (dataLoop socketSource { messageSize } (socketFeed.enter r)).state =
      receivedState messageSize (Socket.wire r.2) := by
  rw [dataLoop_readlines, ← readlines_map socketSource_hom]
  rfl

section

variable {M : Type} (d : Daemon M)

/-! ## What the queue calls -/

section Queue

variable (env : QueueEnv M) (w : World M)

/-- The queue has nothing to call: the first module does not exist, or there
are no modules and the queue does not get to a next hop. -/
def QueueIdle : Prop :=
  d.settings.modules = [] ∧ (FlushFails d env w ∨ d.settings.nexthop = none) ∨
    d.settings.modules ≠ [] ∧ env.runs 0 = none

variable {d env w}

theorem queueStop_empty (h : d.settings.modules = []) :
    (queueStop d env w).ret = 0 ∧ (queueStop d env w).events = [] := by
  unfold queueStop modulesStop
  rw [h]
  exact ⟨rfl, rfl⟩

/-- A first module that does not exist stops the queue. -/
theorem queueStop_missing (h : d.settings.modules ≠ []) (hrun : env.runs 0 = none) :
    (queueStop d env w).ret = -1 ∧ (queueStop d env w).events = [] := by
  obtain ⟨name, mods, hmods⟩ := List.exists_cons_of_ne_nil h
  unfold queueStop modulesStop
  rw [hmods, untilStop, hrun]
  exact ⟨rfl, rfl⟩

/-- A first module that exists is called. -/
theorem queueStop_called (h : d.settings.modules ≠ []) {run : ModuleLoad M}
    (hrun : env.runs 0 = some run) : ¬ NothingCalled (queueStop d env w).events := by
  obtain ⟨name, mods, hmods⟩ := List.exists_cons_of_ne_nil h
  have hinvoke : ∀ w : World M,
      ∃ ret, .invoke name ret ∈ (smfModuleInvoke d.cmime name (some run) w).events := by
    intro w
    unfold smfModuleInvoke
    dsimp only
    split
    · split
      · exact ⟨_, List.mem_cons_self⟩
      · exact ⟨_, List.mem_cons_self⟩
    · exact ⟨_, List.mem_cons_self⟩
  unfold queueStop modulesStop
  rw [hmods, untilStop, hrun]
  dsimp only
  intro hnothing
  obtain ⟨ret, hmem⟩ := hinvoke
    { w with session := smfInternalFetchUserData d.settings env.queryUser w.session }
  split at hnothing
  · exact hnothing _ hmem trivial
  · exact hnothing _ (List.mem_append_left _ hmem) trivial

theorem queueStop_nothingCalled :
    NothingCalled (queueStop d env w).events ↔
      d.settings.modules = [] ∨ d.settings.modules ≠ [] ∧ env.runs 0 = none := by
  by_cases hmods : d.settings.modules = []
  · rw [(queueStop_empty hmods).2]
    exact iff_of_true nothingCalled_nil (Or.inl hmods)
  · cases hrun : env.runs 0 with
    | none =>
      rw [(queueStop_missing hmods hrun).2]
      exact iff_of_true nothingCalled_nil (Or.inr ⟨hmods, rfl⟩)
    | some run =>
      refine iff_of_false (queueStop_called hmods hrun) (fun h => ?_)
      rcases h with h | h
      · exact hmods h
      · cases h.2

/-- When the queue does not get to a next hop, only the modules count. -/
theorem queueIdle_of_stop
    (h : d.settings.modules = [] → FlushFails d env w ∨ d.settings.nexthop = none) :
    QueueIdle d env w ↔ NothingCalled (queueStop d env w).events := by
  rw [queueStop_nothingCalled, QueueIdle]
  constructor
  · intro hidle
    rcases hidle with hidle | hidle
    · exact Or.inl hidle.1
    · exact Or.inr hidle
  · intro hidle
    rcases hidle with hidle | hidle
    · exact Or.inl ⟨hidle, h hidle⟩
    · exact Or.inr hidle

theorem smfNexthopFind_none_iff :
    smfNexthopFind d.cmime d.settings env.nexthop = none ↔ d.settings.nexthop = none := by
  unfold smfNexthopFind
  split_ifs with hnone
  · exact iff_of_true rfl hnone
  · exact iff_of_false (by simp) hnone
  · exact iff_of_false (by simp) hnone

/-- A queue that gets to the next hop was not idle. -/
theorem not_queueIdle (hret : queueGoesOn d env w) (hflush : ¬ FlushFails d env w)
    {next : World M → Outcome M}
    (hnext : smfNexthopFind d.cmime d.settings env.nexthop = some next) :
    ¬ QueueIdle d env w := by
  intro hidle
  rcases hidle with ⟨_, hfails | hnone⟩ | ⟨hmods, hrun⟩
  · exact hflush hfails
  · rw [smfNexthopFind_none_iff.2 hnone] at hnext
    cases hnext
  · exact (queueGoesOn_ne hret).1 (queueStop_missing hmods hrun).1

/-- A run of the queue calls nothing exactly when it was idle. -/
theorem processed_nothingCalled_iff {w' : World M} {out : List Event}
    (h : Processed d env w w' out) : NothingCalled out ↔ QueueIdle d env w := by
  have hgoes : ¬ queueGoesOn d env w →
      (QueueIdle d env w ↔ NothingCalled (queueStop d env w).events) := by
    intro hstop
    refine queueIdle_of_stop (fun hmods => ?_)
    exact absurd (Or.inl (queueStop_empty hmods).1) hstop
  cases h with
  | ignored hret => exact (hgoes (fun hon => (queueGoesOn_ne hon).1 hret)).symm
  | silent hret => exact (hgoes (fun hon => (queueGoesOn_ne hon).1 hret)).symm
  | failed hret =>
    rw [hgoes (fun hon => (queueGoesOn_ne hon).1 hret)]
    simp [nothingCalled_append, nothingCalled_cons, isCall]
  | accepted hret =>
    rw [hgoes (fun hon => (queueGoesOn_ne hon).2 hret)]
    simp [nothingCalled_append, nothingCalled_cons, isCall]
  | answered hret =>
    rw [hgoes (fun hon => hon.elim hret.2.1 hret.2.2.2)]
    simp [nothingCalled_append, nothingCalled_cons, isCall]
  | unflushed hret hflush ops =>
    rw [queueIdle_of_stop (fun _ => Or.inl hflush)]
    simp [nothingCalled_append]
  | noNexthop hret hflush hnone ops =>
    rw [queueIdle_of_stop (fun _ => Or.inr (smfNexthopFind_none_iff.1 hnone))]
    simp [nothingCalled_append, nothingCalled_cons, isCall]
  | undelivered hret hflush next hsome ops rcpts hsent =>
    refine iff_of_false (fun hnothing => ?_) (not_queueIdle hret hflush hsome)
    exact hnothing (.nexthop (-1) rcpts) (by simp) trivial
  | delivered hret hflush next hsome ops rcpts hsent =>
    refine iff_of_false (fun hnothing => ?_) (not_queueIdle hret hflush hsome)
    exact hnothing (.nexthop 0 rcpts) (by simp) trivial

end Queue

/-! ## One call -/

section Call

variable {env : DataEnv M} {session opened : Session} {events : List Event}
  (hopen : processDataOpen d env session = (some opened, events)) (r : ReadlineT × Socket)

include hopen

/-- What is called does not depend on how the loop was left. -/
theorem processData_nothingCalled_iff :
    NothingCalled (smfSmtpdProcessData d socketFeed env session r).1.events ↔
      ∀ w, ReachesQueue d env opened (receivedState opened.messageSize (Socket.wire r.2)) w →
        QueueIdle d env.queue w := by
  obtain ⟨path, _, hevents⟩ := processDataOpen_some d hopen
  rw [smfSmtpdProcessData_opened d socketFeed hopen, hevents, ← dataLoop_received]
  show NothingCalled (_ ++ (processDataFinish d env opened
    (dataLoop socketSource _ (socketFeed.enter r)).state).events) ↔ _
  rw [nothingCalled_append, and_iff_right (by simp [nothingCalled_cons, isCall])]
  rcases processDataFinish_cases d env opened
    (dataLoop socketSource { messageSize := opened.messageSize } (socketFeed.enter r)).state with
    ⟨hnot, hnothing, _⟩ | ⟨ops, w, w', out, hw, hout, hresult⟩
  · exact iff_of_true hnothing (fun w hw => absurd hw (hnot w))
  · rw [hw.forall_iff, ← processed_nothingCalled_iff hout, hresult]
    simp [nothingCalled_append, nothingCalled_cons, isCall]

/-- An incomplete message is left alone only when it does not get to the queue
or the queue has nothing to call. -/
theorem incomplete_nothingCalled_iff :
    (Incomplete (Socket.wire r.2) →
        NothingCalled (smfSmtpdProcessData d socketFeed env session r).1.events) ↔
      (Incomplete (Socket.wire r.2) →
        ∀ w, ReachesQueue d env opened (receivedState opened.messageSize (Socket.wire r.2)) w →
          QueueIdle d env.queue w) := by
  rw [processData_nothingCalled_iff d hopen r]

end Call

end

/-- A daemon without modules and next hop has nothing to call. -/
theorem incomplete_nothingCalled_plain :
    NothingCalled (smfSmtpdProcessData Daemon.plain socketFeed .plain openClient.session
      (chunkSocket (ascii "a: b\r\n") (by decide) (by decide))).1.events := by
  have hopen := @processDataOpen_opened _ Daemon.plain .plain _ (Or.inl rfl) rfl openClient.session
  refine (incomplete_nothingCalled_iff Daemon.plain hopen _).2 (fun _ w hw => ?_) (by decide)
  exact Or.inl ⟨rfl, Or.inr rfl⟩

/-- The connection ends after one header line, and that line is delivered. -/
theorem incomplete_delivered :
    Incomplete (Socket.wire (chunkSocket (ascii "a: b\r\n") (by decide) (by decide)).2) ∧
      .nexthop 0 [(ascii "b", true)] ∈
        (smfSmtpdProcessData relayDaemon socketFeed .plain openClient.session
          (chunkSocket (ascii "a: b\r\n") (by decide) (by decide))).1.events :=
  ⟨by decide, by decide +kernel⟩

end Spmfilter

import Spmfilter.Modules.Stop
import Spmfilter.Smtpd.Reply

/-!
# The pipe engine

The two callbacks that `smf_pipe.c` hands to the module queue, and the choice
between the two engines.  The pipe engine prints to standard output, which is
its client.

Both engines make the same of a result of a module: `engineAnswer`.  They
differ in what they print.
-/

namespace Spmfilter

open CString

/-- `smf_pipe_handle_q_processing_error`. -/
def smfPipeHandleQProcessingError (settings : Settings) (session : Session) (retval : Int) :
    Int × List Event :=
  if retval = -1 then
    if settings.moduleFail = 1 then (1, []) else (0, [])
  else if retval = 1 then (1, [])
  else if retval = 2 then (2, [])
  else
    match session.responseMsg with
    | some msg => (1, [.reply (msg ++ [LF])])
    | none => (1, [])

/-- `smf_pipe_handle_nexthop_error`. -/
def smfPipeHandleNexthopError (_settings : Settings) (_session : Session) : List Event :=
  []

/-- The queue that `load` sets up for the pipe engine. -/
def pipeQueue : ProcessQueue where
  processingError := smfPipeHandleQProcessingError
  nexthopError := smfPipeHandleNexthopError

/-- The engine that runs the queue. -/
inductive Engine (M : Type) where
  | smtpd (d : Daemon M)
  | pipe

/-- The queue of an engine. -/
def Engine.queue {M : Type} : Engine M → ProcessQueue
  | .smtpd d => smtpdQueue d
  | .pipe => pipeQueue

/-- What both engines answer to a result of a module. -/
def engineAnswer (settings : Settings) (ret : Int) : Int :=
  if ret = -1 then
    if settings.moduleFail = 1 then 1 else 0
  else if ret = 2 then 2
  else 1

theorem engineAnswer_of_ne_two (settings : Settings) {ret : Int} (h : ret ≠ 2) :
    engineAnswer settings ret = 0 ∨ engineAnswer settings ret = 1 := by
  unfold engineAnswer
  rw [if_neg h]
  split_ifs <;> simp

section

variable {M : Type} (settings : Settings) (session : Session)

theorem smfSmtpdStringReply_onlyOutput (p : Vasprintf) (text : Bytes) :
    OnlyOutput (smfSmtpdStringReply p text) := by
  intro e he
  unfold smfSmtpdStringReply at he
  split at he
  · cases he
  · exact Or.inl ⟨_, List.mem_singleton.1 he⟩

theorem smfSmtpdHandleQProcessingError_code (d : Daemon M) (ret : Int) :
    (smfSmtpdHandleQProcessingError d settings session ret).1 = engineAnswer settings ret := by
  unfold smfSmtpdHandleQProcessingError engineAnswer
  cases session.responseMsg with
  | none => split_ifs <;> simp_all
  | some msg => split_ifs <;> simp_all

theorem smfSmtpdHandleQProcessingError_onlyOutput (d : Daemon M) (ret : Int) :
    OnlyOutput (smfSmtpdHandleQProcessingError d settings session ret).2 := by
  have hone : ∀ text, OnlyOutput [.reply text] := by
    intro text e he
    exact Or.inl ⟨text, List.mem_singleton.1 he⟩
  have hnil : OnlyOutput [] := by
    intro e he
    cases he
  unfold smfSmtpdHandleQProcessingError
  split_ifs
  · exact hnil
  · exact hone _
  · exact hone _
  · exact hnil
  · cases session.responseMsg with
    | none => exact hone _
    | some msg => exact smfSmtpdStringReply_onlyOutput _ _
  · exact hnil
  · cases session.responseMsg with
    | none => exact hone _
    | some msg => exact smfSmtpdStringReply_onlyOutput _ _

theorem smfPipeHandleQProcessingError_code (ret : Int) :
    (smfPipeHandleQProcessingError settings session ret).1 = engineAnswer settings ret := by
  unfold smfPipeHandleQProcessingError engineAnswer
  cases session.responseMsg with
  | none => split_ifs <;> simp_all
  | some msg => split_ifs <;> simp_all

theorem smfPipeHandleQProcessingError_onlyOutput (ret : Int) :
    OnlyOutput (smfPipeHandleQProcessingError settings session ret).2 := by
  intro e he
  unfold smfPipeHandleQProcessingError at he
  split_ifs at he
  · cases he
  · cases he
  · cases he
  · cases he
  · cases hmsg : session.responseMsg with
    | none =>
      rw [hmsg] at he
      cases he
    | some msg =>
      rw [hmsg] at he
      exact Or.inl ⟨_, List.mem_singleton.1 he⟩

variable (engine : Engine M)

theorem Engine.queue_answer (ret : Int) :
    (engine.queue.processingError settings session ret).1 = engineAnswer settings ret := by
  cases engine with
  | smtpd d => exact smfSmtpdHandleQProcessingError_code settings session d ret
  | pipe => exact smfPipeHandleQProcessingError_code settings session ret

theorem Engine.processingError_onlyOutput (ret : Int) :
    OnlyOutput (engine.queue.processingError settings session ret).2 := by
  cases engine with
  | smtpd d => exact smfSmtpdHandleQProcessingError_onlyOutput settings session d ret
  | pipe => exact smfPipeHandleQProcessingError_onlyOutput settings session ret

theorem Engine.nexthopError_onlyOutput :
    OnlyOutput (engine.queue.nexthopError settings session) := by
  cases engine with
  | smtpd d => exact smfSmtpdStringReply_onlyOutput _ _
  | pipe =>
    intro e he
    cases he

/-- Neither engine lets the queue go on after a module that has not returned
`0`. -/
theorem Engine.stops : engine.queue.Stops settings := by
  intro session ret hret
  rw [engine.queue_answer]
  unfold engineAnswer
  split_ifs <;> simp

end

end Spmfilter

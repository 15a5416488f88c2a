import Spmfilter.Session

/-!
# What a session does

The observable actions of one connection, in the order in which the code takes
them.  Log output is left out.
-/

namespace Spmfilter

open CString

/-- A change of the queue directory. -/
inductive FileOp where
  | create (path : Bytes)
  | unlink (path : Bytes)
  | rename (source dest : Bytes)
  deriving DecidableEq

/-- One action. -/
inductive Event where
  /-- The command loop takes up a request line. -/
  | command (req : Bytes)
  /-- A reply is written to the client. -/
  | reply (text : Bytes)
  | file (op : FileOp)
  /-- The DATA loop has closed the spool file with this content. -/
  | spooled (text : Bytes)
  /-- `smf_smtpd_process_modules` is called with this session. -/
  | process (session : Session)
  /-- A module has run and has returned `ret`. -/
  | invoke (name : Bytes) (ret : Int)
  /-- The message has been parsed again after a module, with this result. -/
  | reload (code : Int)
  /-- The next hop function has been called and has returned `ret`.  Each
  envelope recipient is listed with the answer whether the server took it. -/
  | nexthop (ret : Int) (rcpts : List (Bytes × Bool))
  /-- `nexthop_error` of the queue is called. -/
  | nexthopError
  deriving DecidableEq

/-- The replies among some actions. -/
def replies : List Event → List Bytes
  | [] => []
  | .reply text :: events => text :: replies events
  | _ :: events => replies events

@[simp] theorem replies_nil : replies [] = [] := rfl

@[simp] theorem replies_reply (text : Bytes) (events : List Event) :
    replies (.reply text :: events) = text :: replies events := rfl

@[simp] theorem replies_append (a b : List Event) :
    replies (a ++ b) = replies a ++ replies b := by
  induction a with
  | nil => rfl
  | cons e a ih => cases e <;> simp [replies, ih]

theorem mem_replies {text : Bytes} {events : List Event} :
    text ∈ replies events ↔ Event.reply text ∈ events := by
  induction events with
  | nil => simp
  | cons e events ih => cases e <;> simp [replies, ih]

@[simp] theorem replies_files (ops : List FileOp) : replies (ops.map .file) = [] := by
  induction ops with
  | nil => rfl
  | cons op ops ih => exact ih

/-- A module or a next hop function has been called. -/
def isCall : Event → Prop
  | .invoke _ _ => True
  | .nexthop _ _ => True
  | _ => False

/-- No module and no next hop function is called. -/
def NothingCalled (events : List Event) : Prop :=
  ∀ e ∈ events, ¬ isCall e

theorem nothingCalled_append {a b : List Event} :
    NothingCalled (a ++ b) ↔ NothingCalled a ∧ NothingCalled b := by
  simp only [NothingCalled, List.forall_mem_append]

theorem nothingCalled_cons {e : Event} {events : List Event} :
    NothingCalled (e :: events) ↔ ¬ isCall e ∧ NothingCalled events := by
  simp only [NothingCalled, List.forall_mem_cons]

@[simp] theorem nothingCalled_nil : NothingCalled [] := by
  intro e he
  cases he

@[simp] theorem nothingCalled_files (ops : List FileOp) : NothingCalled (ops.map .file) := by
  intro e he
  obtain ⟨op, _, rfl⟩ := List.mem_map.1 he
  exact id

/-! ## The calls of a run -/

/-- The names of the modules that have run. -/
def invokedNames (events : List Event) : List Bytes :=
  events.filterMap fun e =>
    match e with
    | .invoke name _ => some name
    | _ => none

/-- The calls of a next hop function, with the result of each. -/
def nexthopCalls (events : List Event) : List (Int × List (Bytes × Bool)) :=
  events.filterMap fun e =>
    match e with
    | .nexthop ret rcpts => some (ret, rcpts)
    | _ => none

@[simp] theorem invokedNames_append (a b : List Event) :
    invokedNames (a ++ b) = invokedNames a ++ invokedNames b :=
  List.filterMap_append

@[simp] theorem nexthopCalls_append (a b : List Event) :
    nexthopCalls (a ++ b) = nexthopCalls a ++ nexthopCalls b :=
  List.filterMap_append

/-- Actions among which neither a module nor the next hop comes up. -/
def OnlyOutput (events : List Event) : Prop :=
  ∀ e ∈ events, (∃ text, e = .reply text) ∨ ∃ op, e = .file op

theorem OnlyOutput.invokedNames {events : List Event} (h : OnlyOutput events) :
    invokedNames events = [] := by
  apply List.filterMap_eq_nil_iff.2
  intro e he
  rcases h e he with ⟨text, rfl⟩ | ⟨op, rfl⟩ <;> rfl

theorem OnlyOutput.nexthopCalls {events : List Event} (h : OnlyOutput events) :
    nexthopCalls events = [] := by
  apply List.filterMap_eq_nil_iff.2
  intro e he
  rcases h e he with ⟨text, rfl⟩ | ⟨op, rfl⟩ <;> rfl

theorem OnlyOutput.nexthopError {events : List Event} (h : OnlyOutput events) :
    Event.nexthopError ∉ events := by
  intro he
  rcases h _ he with ⟨text, heq⟩ | ⟨op, heq⟩ <;> cases heq

theorem onlyOutput_files (ops : List FileOp) : OnlyOutput (ops.map .file) := by
  intro e he
  obtain ⟨op, _, rfl⟩ := List.mem_map.1 he
  exact Or.inr ⟨op, rfl⟩

end Spmfilter

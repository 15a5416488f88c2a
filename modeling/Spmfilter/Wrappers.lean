import Spmfilter.Lib.Calls

/-!
# Wrappers around libcmime

Many functions of `smf_list.c` and `smf_message.c` only hand their arguments on to libcmime.
Two of them call themselves instead.

* `wrapperBody` has the two, and `smf_list_map` and `smf_message_append_part` beside them.
* `documented_mapNew` and `documented_returns` are about the functions that the header files
  describe.
* `wrappers_never_return` is about those in the code.
-/

namespace Spmfilter

open Calls

/-- The operations of libcmime, with elements `D`, arguments `A` of a mapping function, messages
`M` and parts `P`: what is returned, and the list or the message after it. -/
structure CmimeOps (D A M P : Type) where
  listMap : List D → (D → A → D) → A → List D
  listMapNew : List D → (D → A → D) → A → Int × List D
  messageAppendPart : M → P → Int × M
  messageAddChildPart : M → P → P → (subtype : Nat) → Int × M

inductive WrapperCall (D A M P : Type) where
  | smfListMap (list : List D) (func : D → A → D) (args : A)
  | smfListMapNew (list : List D) (func : D → A → D) (args : A)
  | smfMessageAppendPart (message : M) (part : P)
  | smfMessageAddChildPart (message : M) (part child : P) (subtype : Nat)
  | cmimeListMap (list : List D) (func : D → A → D) (args : A)
  | cmimeListMapNew (list : List D) (func : D → A → D) (args : A)
  | cmimeMessageAppendPart (message : M) (part : P)
  | cmimeMessageAddChildPart (message : M) (part child : P) (subtype : Nat)

/-- What a call comes to: the list that it leaves or makes, or the message. -/
inductive WrapperValue (D M : Type) where
  | list (ret : Int) (list : List D)
  | message (ret : Int) (message : M)

section
variable {D A M P : Type} (ops : CmimeOps D A M P)

/-- The bodies of the functions.  Those of libcmime just return. -/
def wrapperBody : WrapperCall D A M P → WrapperCall D A M P ⊕ WrapperValue D M
  | .smfListMap list func args => .inl (.cmimeListMap list func args)
  -- This one and `smf_message_add_child_part` have their own names behind `return`.
  | .smfListMapNew list func args => .inl (.smfListMapNew list func args)
  | .smfMessageAppendPart message part => .inl (.cmimeMessageAppendPart message part)
  | .smfMessageAddChildPart message part child subtype =>
    .inl (.smfMessageAddChildPart message part child subtype)
  | .cmimeListMap list func args => .inr (.list 0 (ops.listMap list func args))
  | .cmimeListMapNew list func args =>
    let (ret, list) := ops.listMapNew list func args
    .inr (.list ret list)
  | .cmimeMessageAppendPart message part =>
    let (ret, message) := ops.messageAppendPart message part
    .inr (.message ret message)
  | .cmimeMessageAddChildPart message part child subtype =>
    let (ret, message) := ops.messageAddChildPart message part child subtype
    .inr (.message ret message)

/-- The bodies that the header files describe. -/
def documentedBody : WrapperCall D A M P → WrapperCall D A M P ⊕ WrapperValue D M
  | .smfListMapNew list func args => .inl (.cmimeListMapNew list func args)
  | .smfMessageAddChildPart message part child subtype =>
    .inl (.cmimeMessageAddChildPart message part child subtype)
  | c => wrapperBody ops c

/-! ## As documented -/

/-- Wrappers come before the functions of libcmime. -/
def WrapperCall.rank : WrapperCall D A M P → Nat
  | .smfListMap .. | .smfListMapNew .. | .smfMessageAppendPart .. | .smfMessageAddChildPart .. => 1
  | .cmimeListMap .. | .cmimeListMapNew .. | .cmimeMessageAppendPart ..
  | .cmimeMessageAddChildPart .. => 0

theorem documented_returns (c : WrapperCall D A M P) : ∃ v, Returns (documentedBody ops) c v := by
  refine returns_of_measure WrapperCall.rank (fun c d hd => ?_) c
  cases c with
  | smfListMap | smfListMapNew | smfMessageAppendPart | smfMessageAddChildPart =>
    obtain rfl := Sum.inl.inj hd
    exact Nat.zero_lt_one
  | cmimeListMap | cmimeListMapNew | cmimeMessageAppendPart | cmimeMessageAddChildPart => cases hd

/-- The call comes to what libcmime makes of the list. -/
theorem documented_mapNew (list : List D) (func : D → A → D) (args : A) :
    Returns (documentedBody ops) (.smfListMapNew list func args)
      (.list (ops.listMapNew list func args).1 (ops.listMapNew list func args).2) :=
  .call rfl (.value rfl)

/-! ## As written -/

/-- The calls of the two functions. -/
def SelfCall (c : WrapperCall D A M P) : Prop := wrapperBody ops c = .inl c

/-- A function that calls itself with the arguments it was given does not return, and all
others do. -/
theorem wrapper_returns_iff (c : WrapperCall D A M P) :
    (∃ v, Returns (wrapperBody ops) c v) ↔ ¬ SelfCall ops c := by
  constructor
  · rintro ⟨v, hv⟩ hself
    exact not_returns (fun c hc => ⟨c, hc, hc⟩) hself hv
  · intro hother
    cases c with
    | smfListMap | smfMessageAppendPart => exact ⟨_, .call rfl (.value rfl)⟩
    | smfListMapNew | smfMessageAddChildPart => exact absurd rfl hother
    | cmimeListMap | cmimeListMapNew | cmimeMessageAppendPart | cmimeMessageAddChildPart =>
      exact ⟨_, .value rfl⟩

/-- **Neither of the two returns**, whatever it is called with. -/
theorem wrappers_never_return :
    (∀ (list : List D) (func : D → A → D) (args : A),
        ¬ ∃ v, Returns (wrapperBody (P := P) ops) (.smfListMapNew list func args) v) ∧
      ∀ (message : M) (part child : P) (subtype : Nat),
        ¬ ∃ v, Returns (wrapperBody (D := D) (A := A) ops)
          (.smfMessageAddChildPart message part child subtype) v :=
  ⟨fun _ _ _ h => (wrapper_returns_iff ops _).mp h rfl,
    fun _ _ _ _ h => (wrapper_returns_iff ops _).mp h rfl⟩

end

/-- Lists that are mapped in their order, and messages with a list of parts, where a child goes
behind its part. -/
def listOps : CmimeOps Nat Nat (List Nat) Nat where
  listMap := fun list func args => list.map fun d => func d args
  listMapNew := fun list func args => (0, list.map fun d => func d args)
  messageAppendPart := fun message part => (0, message ++ [part])
  messageAddChildPart := fun message _ child _ => (0, message ++ [child])

/-- Three numbers that were to be doubled, and a part that was to be added. -/
theorem wrappers_loop :
    (¬ Returns (wrapperBody listOps) (.smfListMapNew [1, 2, 3] (· * ·) 2) (.list 0 [2, 4, 6])) ∧
      ¬ ∃ v, Returns (wrapperBody (D := Nat) (A := Nat) listOps)
        (.smfMessageAddChildPart [7] 7 8 0) v := by
  constructor
  · intro h
    exact (wrapper_returns_iff listOps _).mp ⟨_, h⟩ rfl
  · intro h
    exact (wrapper_returns_iff listOps _).mp h rfl

end Spmfilter

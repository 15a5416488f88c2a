import Spmfilter.Core
import Spmfilter.Event

/-!
# Messages and the spool file

`smf_message.c` hands nearly everything on to libcmime, which is not part of
the repository.  `Cmime` collects the operations that are used, over a type `M`
of message objects that stays open.

A module may keep a pointer to a message object that has since been freed, so a
message carries the identity `ref` of its object.

`World` is what a module and the next hop can see and change: the session, its
message object, and the spool file.
-/

namespace Spmfilter

open CString

/-- The failures of `smf_message_from_file`, as `smf_message.h` lists them. -/
inductive ParseError where
  | stat
  | notRegular
  | reading
  | invalid
  | memory
  deriving DecidableEq

/-- The result code of each failure. -/
def ParseError.code : ParseError → Int
  | .stat => -1
  | .notRegular => -2
  | .reading => -3
  | .invalid => 1
  | .memory => 2

/-- `CMimeHeader_T`. -/
structure Header where
  name : Bytes
  values : List Bytes
  deriving DecidableEq

/-- The operations of libcmime on message objects of type `M`. -/
structure Cmime (M : Type) where
  /-- `smf_message_from_file` on a file with this content; `none` is a file
  that does not exist. -/
  fromFile : Option Bytes → (headerOnly : Bool) → Except ParseError M
  headers : M → List Header
  /-- `smf_message_set_header`. -/
  setHeader : M → Bytes → M
  /-- `smf_message_get_message_id`. -/
  messageId : M → Option Bytes
  /-- `smf_message_to_string`. -/
  toString : M → Bytes
  /-- `smf_message_get_recipients`, each through
  `smf_email_address_to_string`. -/
  recipients : M → List Bytes

/-- One unfolded header line. -/
def plainHeader (line : Bytes) : Option Header :=
  (strchr line 58).map fun value =>
    { name := line.take (line.length - value.length), values := [smfCoreStrstrip value.tail] }

/-- The header lines of a text: those before the first empty line. -/
def plainHeaders (text : Bytes) : List Header :=
  (((text.splitOn LF).map smfCoreStrstrip).takeWhile fun line => line ≠ []).filterMap plainHeader

/-- libcmime on messages that are plain text with unfolded headers and name no
recipient in them. -/
def plainCmime : Cmime Bytes where
  fromFile := fun content _ =>
    match content with
    | none => .error .stat
    | some text => .ok text
  headers := plainHeaders
  setHeader := fun text header => header ++ [CR, LF] ++ text
  messageId := fun text =>
    ((plainHeaders text).find? fun h => h.name.map tolower == ascii "message-id").bind
      fun h => h.values.head?
  toString := id
  recipients := fun _ => []

/-- A message object with its identity. -/
structure MessageRef (M : Type) where
  ref : Nat
  msg : M

/-- The spool file. -/
structure Spool where
  content : Bytes
  mtime : Nat

/-- What modules and the next hop work on. -/
structure World (M : Type) where
  session : Session
  /-- `session->envelope->message`. -/
  message : MessageRef M
  /-- The file at `session->message_file`, when it exists. -/
  spool : Option Spool

/-- What a step on the world returns, with the actions it has taken. -/
structure Outcome (M : Type) where
  ret : Int
  world : World M
  events : List Event

/-- `smf_message_write_skip_header` without I/O errors: the bytes after the
first line that is a line end alone.  `line` holds the current line so far. -/
def smfMessageWriteSkipHeader (line : Bytes) : Bytes → Bytes
  | [] => []
  | b :: rest =>
    if b = LF then
      if line = [] ∨ line = [CR] then rest else smfMessageWriteSkipHeader [] rest
    else smfMessageWriteSkipHeader (line ++ [b]) rest

end Spmfilter

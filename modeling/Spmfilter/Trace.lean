import Spmfilter.Lib.Buffer

/-!
# Log messages

`trace` formats a message, cuts it to its buffer `t` and copies it to the buffer `message`,
which has the same size.  The copy leaves line breaks out, and for syslog it doubles percent
signs.

* `formatString` is the format that a message gets, and `traceLoop` the copy.
* `traceLoop_eq`: the loop writes `escaped` of the text, byte by byte.
* `trace_safe_iff` says when it stays in `message`.
-/

namespace Spmfilter

open CString Buffers

/-! ## The functions of `smf_trace.c` -/

/-- `SMFTrace_T`. -/
inductive TraceLevel
  | emerg
  | alert
  | crit
  | err
  | warning
  | notice
  | info
  | debug
  | lookup
deriving DecidableEq

/-- `SMFTraceDest_T`. -/
inductive TraceDest
  | syslog
  | stderr
deriving DecidableEq

/-- `trace_to_text`. -/
def traceToText : TraceLevel → Bytes
  | .emerg => ascii "EMERGENCY"
  | .alert => ascii "Alert"
  | .crit => ascii "Critical"
  | .err => ascii "Error"
  | .warning => ascii "Warning"
  | .notice => ascii "Notice"
  | .info => ascii "Info"
  | .debug => ascii "Debug"
  | .lookup => ascii "Lookup"

/-- The string that `snprintf` leaves in a buffer of `size` bytes. -/
def cutTo (size : Nat) (text : Bytes) : Bytes := cstr (text.take (size - 1))

/-- Where a message comes from: the arguments that `TRACE` and `STRACE` add. -/
structure TraceSite where
  level : TraceLevel
  moduleName : Bytes
  function : Bytes
  line : Int
  sid : Option Bytes

/-- `format_string`. -/
def formatString (debugFlag : Bool) (site : TraceSite) (format : Bytes) (size : Nat) : Bytes :=
  let sidFormat :=
    match site.sid with
    | some sid => cutTo size (ascii "SID " ++ sid ++ ascii " ")
    | none => []
  if debugFlag then
    let debugFormat := cutTo size (ascii "(" ++ site.moduleName ++ ascii ":" ++ site.function ++
      ascii ":" ++ formatInt site.line ++ ascii ")")
    cutTo size (traceToText site.level ++ ascii ": " ++ debugFormat ++ ascii " " ++ sidFormat ++
      format ++ [LF])
  else
    cutTo size (traceToText site.level ++ ascii ": " ++ sidFormat ++ format ++ [LF])

/-- The copy from `t` to `message`. -/
def traceLoop (dest : TraceDest) : Bytes → Buffer → Nat → Option (Buffer × Nat)
  | [], message, pos => some (message, pos)
  | c :: t, message, pos =>
    if c = PERCENT ∧ dest = .syslog then do
      let message ← message.write pos [PERCENT]
      let message ← message.write (pos + 1 : Nat) [PERCENT]
      traceLoop dest t message (pos + 2)
    else if c ≠ LF ∧ c ≠ CR then do
      let message ← message.write pos [c]
      traceLoop dest t message (pos + 1)
    else traceLoop dest t message pos

def TRACE_MAXLEN : Nat := 1024

/-- What a process is set up with: `configure_debug` and `configure_trace_destination`.
`vsnprintf` is the print of a format with the arguments of one message, and `fresh` is what the
stack holds before. -/
structure TraceEnv where
  debugFlag : Bool
  dest : TraceDest
  vsnprintf : Bytes → Bytes
  fresh : Nat → UInt8

/-- The string in the buffer `t`. -/
def TraceEnv.text (env : TraceEnv) (site : TraceSite) (format : Bytes) : Bytes :=
  cutTo TRACE_MAXLEN
    (env.vsnprintf (formatString env.debugFlag site format TRACE_MAXLEN))

/-- `trace_syslog` and `trace_stderr` leave debugging messages out without the debug flag. -/
def TraceEnv.shows (env : TraceEnv) (site : TraceSite) : Bool :=
  env.debugFlag || (site.level ≠ .debug && site.level ≠ .lookup)

/-- `trace`: the message that is logged, if it is.  The loop copies the NUL of `t` as well. -/
def trace (env : TraceEnv) (site : TraceSite) (format : Bytes) : Option (Option Bytes) := do
  let (message, pos) ← traceLoop env.dest (env.text site format ++ [0])
    (.malloc env.fresh TRACE_MAXLEN) 0
  let message ← message.write pos [0]
  return if env.shows site then some (cstr message.cells) else none

/-! ## What the loop writes -/

/-- The text without line breaks, and with every percent sign doubled for syslog. -/
def escaped (dest : TraceDest) (t : Bytes) : Bytes :=
  t.flatMap fun c =>
    if c = PERCENT ∧ dest = .syslog then [PERCENT, PERCENT]
    else if c ≠ LF ∧ c ≠ CR then [c] else []

/-- What a text comes to: the bytes that are dropped and those that are added. -/
theorem length_escaped (dest : TraceDest) (t : Bytes) :
    (escaped dest t).length + t.count LF + t.count CR =
      t.length + if dest = .syslog then t.count PERCENT else 0 := by
  induction t with
  | nil => cases dest <;> rfl
  | cons c t ih =>
    rw [escaped, List.flatMap_cons, List.length_append, ← escaped, List.length_cons,
      List.count_cons, List.count_cons, List.count_cons]
    simp only [beq_iff_eq]
    by_cases hpercent : c = PERCENT
    · subst hpercent
      rw [if_neg (show PERCENT ≠ LF by decide), if_neg (show PERCENT ≠ CR by decide),
        if_pos (show PERCENT = PERCENT from rfl)]
      cases dest with
      | syslog =>
        rw [if_pos ⟨rfl, rfl⟩, if_pos rfl]
        rw [if_pos rfl] at ih
        simp only [List.length_cons, List.length_nil]
        omega
      | stderr =>
        rw [if_neg (by simp), if_pos (by decide), if_neg (by simp)]
        rw [if_neg (by simp)] at ih
        simp only [List.length_cons, List.length_nil]
        omega
    · rw [if_neg fun h => hpercent h.1, if_neg hpercent]
      by_cases hbreak : c ≠ LF ∧ c ≠ CR
      · rw [if_pos hbreak, if_neg hbreak.1, if_neg hbreak.2]
        simp only [List.length_cons, List.length_nil, Nat.add_zero]
        omega
      · rw [if_neg hbreak]
        have hcount : (if c = LF then 1 else 0) + (if c = CR then 1 else 0) = 1 := by
          rcases not_and_or.mp hbreak with h | h
          · rw [not_not.mp h]
            rfl
          · rw [not_not.mp h]
            rfl
        simp only [List.length_nil, Nat.add_zero]
        omega

/-- The loop is one write. -/
theorem traceLoop_eq (dest : TraceDest) (t : Bytes) {message : Buffer} {pos : Nat}
    (hpos : pos ≤ message.size) :
    traceLoop dest t message pos =
      (message.write pos (escaped dest t)).map fun message =>
        (message, pos + (escaped dest t).length) := by
  induction t generalizing message pos with
  | nil =>
    rw [show escaped dest [] = [] from rfl, Buffer.write_nil hpos]
    rfl
  | cons c t ih =>
    -- one turn writes `bytes`, and the others write behind them
    have hturn : ∀ bytes : Bytes,
        ((message.write pos bytes).bind fun message =>
          traceLoop dest t message (pos + bytes.length)) =
        (message.write pos (bytes ++ escaped dest t)).map fun message =>
          (message, pos + (bytes ++ escaped dest t).length) := by
      intro bytes
      rw [← Buffer.write_write, List.length_append]
      cases hwrite : message.write pos bytes with
      | none => rfl
      | some written =>
        have hfits := Buffer.write_isSome.mp (Option.isSome_iff_exists.mpr ⟨written, hwrite⟩)
        have hsize := Buffer.size_write hwrite
        rw [Option.bind_some, Option.bind_some, ih (by omega), Nat.add_assoc]
    rw [traceLoop, escaped, List.flatMap_cons, ← escaped]
    split
    · rw [← hturn [PERCENT, PERCENT]]
      have hpair := Buffer.write_write message pos [PERCENT] [PERCENT]
      rw [List.singleton_append] at hpair
      rw [← hpair, Option.bind_assoc]
      rfl
    · split
      · rw [← hturn [c]]
        rfl
      · exact ih hpos

theorem escaped_append (dest : TraceDest) (s t : Bytes) :
    escaped dest (s ++ t) = escaped dest s ++ escaped dest t :=
  List.flatMap_append

/-- The message and two NULs, the one of the text and the one behind the loop. -/
theorem trace_eq (env : TraceEnv) (site : TraceSite) (format : Bytes) :
    trace env site format =
      ((Buffer.malloc env.fresh TRACE_MAXLEN).write (0 : Nat)
        (escaped env.dest (env.text site format) ++ [0, 0])).map fun message =>
          if env.shows site then some (cstr message.cells) else none := by
  have hnul : escaped env.dest [0] = [0] := by
    cases env.dest <;> rfl
  have hzeros : escaped env.dest (env.text site format) ++ [0, 0] =
      escaped env.dest (env.text site format ++ [0]) ++ [0] := by
    rw [escaped_append, hnul, List.append_assoc]
    rfl
  have hwrites := Buffer.write_write (.malloc env.fresh TRACE_MAXLEN) 0
    (escaped env.dest (env.text site format ++ [0])) [0]
  rw [trace, traceLoop_eq _ _ (Nat.zero_le _), hzeros, ← hwrites]
  cases (Buffer.malloc env.fresh TRACE_MAXLEN).write (0 : Nat)
      (escaped env.dest (env.text site format ++ [0])) with
  | none => rfl
  | some message =>
    show (message.write _ [0]).bind _ = (message.write _ [0]).map _
    rw [Option.map_eq_bind]
    rfl

theorem trace_isSome (env : TraceEnv) (site : TraceSite) (format : Bytes) :
    (trace env site format).isSome = true ↔
      (escaped env.dest (env.text site format)).length ≤ 1022 := by
  have hmalloc : (Buffer.malloc env.fresh TRACE_MAXLEN).size = 1024 := by
    rw [Buffer.malloc, Buffer.size, List.length_map, List.length_range]
    rfl
  rw [trace_eq, Option.isSome_map, Buffer.write_isSome, hmalloc, List.length_append,
    Int.toNat_natCast]
  simp only [List.length_cons, List.length_nil]
  omega

/-- **When the copy stays in its buffer**: the text has at most 1022 bytes, where a line break
does not count and a percent sign counts twice for syslog. -/
theorem trace_safe_iff (env : TraceEnv) (site : TraceSite) (format : Bytes) :
    (trace env site format).isSome = true ↔
      (env.text site format).length +
          (if env.dest = .syslog then (env.text site format).count PERCENT else 0) ≤
        1022 + (env.text site format).count LF + (env.text site format).count CR := by
  have hlength := length_escaped env.dest (env.text site format)
  rw [trace_isSome]
  omega

/-- What `vsnprintf` makes of the message for a command line of `n` percent signs. -/
def dialogText (n : Nat) : Bytes :=
  ascii "Debug: SID 1 client smtp dialog: [" ++ List.replicate n PERCENT ++ ascii "]\n"

theorem length_dialogText (n : Nat) : (dialogText n).length = n + 36 := by
  rw [dialogText, List.length_append, List.length_append, List.length_replicate, Nat.add_comm n]
  exact Nat.add_right_comm 34 n 2

theorem count_dialogText (n : Nat) (c : UInt8) :
    (dialogText n).count c =
      (ascii "Debug: SID 1 client smtp dialog: [").count c +
        (if PERCENT = c then n else 0) + (ascii "]\n").count c := by
  rw [dialogText, List.count_append, List.count_append, List.count_replicate]
  simp only [beq_iff_eq]

/-- A command line of 600 percent signs, with the default destination. -/
theorem trace_overrun :
    ¬ ∀ (env : TraceEnv) (site : TraceSite) (format : Bytes),
      (trace env site format).isSome = true := by
  intro hall
  let env : TraceEnv :=
    { debugFlag := false, dest := .syslog, vsnprintf := fun _ => dialogText 600,
      fresh := fun _ => 0 }
  let site : TraceSite := ⟨.debug, ascii "smtpd", ascii "smf_smtpd_handle_client", 532,
    some (ascii "1")⟩
  have htext : env.text site (ascii "client smtp dialog: [%s]") = dialogText 600 := by
    show cstr ((dialogText 600).take 1023) = _
    rw [List.take_of_length_le (by rw [length_dialogText]; omega), cstr_of_noNul]
    rw [← List.count_eq_zero, count_dialogText]
    decide
  have hsafe := hall env site (ascii "client smtp dialog: [%s]")
  rw [trace_isSome, htext] at hsafe
  have hescaped := length_escaped .syslog (dialogText 600)
  have hLf : (dialogText 600).count LF = 1 := (count_dialogText 600 LF).trans (by decide)
  have hCr : (dialogText 600).count CR = 0 := (count_dialogText 600 CR).trans (by decide)
  have hPercent : (dialogText 600).count PERCENT = 600 :=
    (count_dialogText 600 PERCENT).trans (by decide)
  rw [length_dialogText, hLf, hCr, hPercent, if_pos rfl] at hescaped
  have hbound : (escaped .syslog (dialogText 600)).length ≤ 1022 := hsafe
  omega

end Spmfilter

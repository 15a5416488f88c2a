import Spmfilter.Modules.Reload

/-!
# The header of the queue

With `add_header` the queue sets an `X-Spmfilter` header with the names of the
modules that have returned `0`.  It writes a separator after every name but the
last of the configured list, and it sets the header on the message object that
it has taken at its start.

* `headerAt_eq` is the header text in closed form.
* `headerValues` are the values that a mail carries under a name.
* `queueHeader_iff` says when the mail that the next hop gets carries the names
  that it should.
-/

namespace Spmfilter

open CString Stdio

/-! ## The header text -/

/-- Names with a comma and a space between them. -/
def joinNames (names : List Bytes) : Bytes :=
  (ascii ", ").intercalate names

theorem joinNames_append (names : List Bytes) (name : Bytes) :
    joinNames (names ++ [name]) =
      if names = [] then name else joinNames names ++ ascii ", " ++ name := by
  unfold joinNames
  induction names with
  | nil =>
    rw [if_pos rfl]
    exact List.intercalate_singleton
  | cons first names ih =>
    rw [if_neg (by simp)]
    cases names with
    | nil =>
      rw [List.singleton_append, List.intercalate_cons_cons, List.intercalate_singleton,
        List.intercalate_singleton]
    | cons second names =>
      rw [List.cons_append, List.cons_append, List.intercalate_cons_cons,
        List.intercalate_cons_cons]
      rw [List.cons_append, if_neg (by simp)] at ih
      rw [ih]
      simp

/-- What the queue has written behind the names of the first `n` modules. -/
def trailingSeparator (n length : Nat) : Bytes :=
  if 0 < n ∧ n < length then ascii ", " else []

/-- The value of the header after `n` modules. -/
def queueValue (settings : Settings) (n : Nat) : Bytes :=
  joinNames (settings.modules.take n) ++ trailingSeparator n settings.modules.length

theorem headerAt_eq (settings : Settings) {n : Nat} (hn : n ≤ settings.modules.length) :
    headerAt settings n = ascii "X-Spmfilter: " ++ queueValue settings n := by
  unfold queueValue
  induction n with
  | zero => rfl
  | succ n ih =>
    have hlt : n < settings.modules.length := by omega
    have hname : settings.modules.getD n [] = settings.modules[n] := by
      simp [hlt]
    have htake : settings.modules.take (n + 1) =
        settings.modules.take n ++ [settings.modules[n]] := by
      rw [List.take_add_one]
      simp [hlt]
    -- the separator that the previous module has left behind its name
    have hjoin : joinNames (settings.modules.take n) ++
          trailingSeparator n settings.modules.length ++ settings.modules[n] =
        joinNames (settings.modules.take (n + 1)) := by
      rw [htake, joinNames_append, trailingSeparator]
      by_cases hzero : n = 0
      · subst hzero
        simp [joinNames]
      · have hne : settings.modules.take n ≠ [] := by
          intro h
          have hlen := congrArg List.length h
          rw [List.length_take, List.length_nil] at hlen
          omega
        rw [if_pos ⟨by omega, hlt⟩, if_neg hne]
    rw [headerAt, appendModuleName, ih (by omega), hname, List.append_assoc, List.append_assoc,
      ← List.append_assoc (joinNames _), hjoin]
    unfold trailingSeparator
    by_cases hlast : n + 1 = settings.modules.length
    · rw [if_pos hlast, if_neg (by omega), List.append_nil]
    · rw [if_neg hlast, if_pos (by omega), List.append_assoc]

/-- A separator at the end stays visible when the white space is stripped. -/
theorem strstrip_separator_ne (value : Bytes) :
    smfCoreStrstrip (value ++ ascii ", ") ≠ smfCoreStrstrip value := by
  have hcomma : smfCoreStrstrip (value ++ ascii ", ") =
      value.dropWhile isspace ++ [44] := by
    have htail : (value ++ ascii ", ").dropWhile isspace =
        value.dropWhile isspace ++ ascii ", " := by
      rw [List.dropWhile_append]
      split
      · rename_i h
        rw [List.isEmpty_iff.1 h]
        rfl
      · rfl
    unfold smfCoreStrstrip
    rw [htail]
    dsimp only
    rw [if_neg (by simp [ascii]), List.reverse_append]
    have hdrop : List.dropWhile isspace
        ((ascii ", ").reverse ++ (value.dropWhile isspace).reverse) =
          44 :: (value.dropWhile isspace).reverse := rfl
    rw [hdrop]
    simp
  have hshort : (smfCoreStrstrip value).length ≤ (value.dropWhile isspace).length := by
    unfold smfCoreStrstrip
    dsimp only
    split
    · exact Nat.zero_le _
    · rw [List.length_reverse]
      have h := List.length_dropWhile_le isspace (value.dropWhile isspace).reverse
      rw [List.length_reverse] at h
      exact h
  intro h
  rw [hcomma] at h
  have hlen := congrArg List.length h
  rw [List.length_append, List.length_singleton] at hlen
  omega

/-- The value is right when every module has returned `0`, or none has. -/
theorem queueValue_iff (settings : Settings) {n : Nat} (hn : n ≤ settings.modules.length) :
    smfCoreStrstrip (queueValue settings n) =
        smfCoreStrstrip (joinNames (settings.modules.take n)) ↔
      n = 0 ∨ n = settings.modules.length := by
  unfold queueValue trailingSeparator
  split
  · rename_i h
    refine iff_of_false (strstrip_separator_ne _) ?_
    omega
  · rw [List.append_nil]
    refine iff_of_true rfl ?_
    omega

/-! ## The header of a mail -/

/-- The values of the header fields with this name, without the white space
around them. -/
def headerValues (name text : Bytes) : List Bytes :=
  (headerLines text).filterMap fun line =>
    if hasPrefixNoCase line (name ++ ascii ":") then
      some (smfCoreStrstrip (line.drop (name.length + 1)))
    else none

/-- What comes behind the empty line does not count. -/
theorem headerLines_append (line text body : Bytes) (hline : LF ∉ line)
    (h : (skipTo line text).isSome) :
    headerLines (line ++ (text ++ body)) = headerLines (line ++ text) := by
  induction text generalizing line with
  | nil => cases h
  | cons b text ih =>
    rw [skipTo] at h
    by_cases hb : b = LF
    · rw [if_pos hb] at h
      rw [hb, List.cons_append, headerLines, headerLines, lines_closed _ _ hline,
        lines_closed _ _ hline, List.takeWhile_cons, List.takeWhile_cons, isEmptyLine_append]
      by_cases hempty : line = [] ∨ line = [CR]
      · rw [decide_eq_true hempty]
        rfl
      · rw [if_neg hempty] at h
        have hrest := ih [] (by simp) h
        rw [List.nil_append, List.nil_append, headerLines, headerLines] at hrest
        rw [decide_eq_false hempty, hrest]
    · rw [if_neg hb] at h
      have hline' : LF ∉ line ++ [b] := by
        intro hmem
        rcases List.mem_append.1 hmem with hmem | hmem
        · exact hline hmem
        · exact hb (List.mem_singleton.1 hmem).symm
      have hrest := ih _ hline' h
      rw [List.append_assoc, List.append_assoc] at hrest
      exact hrest

theorem headerValues_append (name text body : Bytes) (h : (afterEmptyLine text).isSome) :
    headerValues name (text ++ body) = headerValues name text := by
  have hskip : (skipTo [] text).isSome := by
    rw [skipTo_eq [] text (by simp)]
    exact h
  have hlines := headerLines_append [] text body (by simp) hskip
  rw [List.nil_append, List.nil_append] at hlines
  rw [headerValues, hlines, headerValues]

/-! ## The mail for the next hop -/

/-- libcmime prints a message on which the header of the queue has been set: the
header is there once, with this value, and an empty line closes the header
block. -/
structure PrintsHeader {M : Type} (cmime : Cmime M) (msg : M) (value : Bytes) : Prop where
  closed : (afterEmptyLine
    (cmime.toString (cmime.setHeader msg (ascii "X-Spmfilter: " ++ value)))).isSome
  values : headerValues (ascii "X-Spmfilter")
    (cmime.toString (cmime.setHeader msg (ascii "X-Spmfilter: " ++ value))) =
      [smfCoreStrstrip value]

/-- The mail carries an `X-Spmfilter` header with these names. -/
def CarriesNames (names : List Bytes) (text : Bytes) : Prop :=
  smfCoreStrstrip (joinNames names) ∈ headerValues (ascii "X-Spmfilter") text

instance (names : List Bytes) (text : Bytes) : Decidable (CarriesNames names text) :=
  inferInstanceAs (Decidable (_ ∈ _))

section

variable {M : Type} (cmime : Cmime M) (settings : Settings) (env : QueueEnv M) (w : World M)
variable (engine : Engine M)

/-- The mail that the next hop gets, when `add_header` is set.  Let `n` modules
have returned `0`.
When the flush writes a new file and the message is the object that the queue
has started with, the mail carries their names exactly when `n` is `0` or the
length of the list.  When the object is another one, the mail carries them
exactly when that message with the body of the file does so already.  When the
flush leaves the file alone, the mail is the file that the modules have left. -/
theorem queueHeader_iff (hadd : settings.addHeader = true)
    (hset : (modulesStop cmime settings env w).world.message.ref = w.message.ref →
      PrintsHeader cmime (modulesStop cmime settings env w).world.message.msg
        (queueValue settings (finishedCount cmime settings env w)))
    (hnexthop :
      nexthopCalls (smfModulesProcess cmime engine.queue settings env w).events ≠ []) :
    let finished := finishedCount cmime settings env w
    let names := settings.modules.take finished
    let stop := (modulesStop cmime settings env w).world
    let flushed := setQueueHeader cmime settings w.message.ref (headerAt settings finished) stop
    CarriesNames names
        (spoolText (smfModulesProcess cmime engine.queue settings env w).world) ↔
      if headersDirty (cmime.headers flushed.message.msg) (cmime.headers w.message.msg) = true then
        if stop.message.ref = w.message.ref then
          finished = 0 ∨ finished = settings.modules.length
        else CarriesNames names (cmime.toString stop.message.msg ++ mailBody (spoolText stop))
      else CarriesNames names (spoolText stop) := by
  intro finished names stop flushed
  obtain ⟨hret, hspool⟩ := smfModulesProcess_spool cmime settings env w engine hnexthop
  have hle : finished ≤ settings.modules.length := finishedCount_le cmime settings env w
  have hstop : worldBefore cmime settings env w (calledCount cmime settings env w) = stop := by
    show _ = (modulesStop cmime settings env w).world
    rw [modulesStop_eq]
  have hset' : stop.message.ref = w.message.ref →
      PrintsHeader cmime stop.message.msg (queueValue settings finished) := hset
  have hflushed : setQueueHeader cmime settings w.message.ref (headerAt settings finished)
      (worldBefore cmime settings env w (calledCount cmime settings env w)) = flushed := by
    rw [hstop]
  unfold runFlush at hret hspool
  rw [hflushed] at hret hspool
  have hkept : flushed.spool = stop.spool := setQueueHeader_spool cmime settings _ _ stop
  cases hdirty : headersDirty (cmime.headers flushed.message.msg)
    (cmime.headers w.message.msg) with
  | false =>
    rw [smfModulesFlushDirty_clean cmime env.flushIo env.flushTmp _ flushed hdirty, hkept]
      at hspool
    rw [if_neg (by decide), spoolText, hspool]
    exact Iff.rfl
  | true =>
    obtain ⟨old, hold, hnew⟩ := smfModulesFlushDirty_written cmime env.flushIo env.flushTmp _
      flushed hdirty hret
    rw [if_pos rfl, spoolText, hspool, hnew]
    show CarriesNames names (cmime.toString flushed.message.msg ++ mailBody old.content) ↔ _
    by_cases href : stop.message.ref = w.message.ref
    · have hprints := hset' href
      have hmsg : flushed.message.msg =
          cmime.setHeader stop.message.msg
            (ascii "X-Spmfilter: " ++ queueValue settings finished) := by
        rw [← headerAt_eq settings hle]
        exact setQueueHeader_same cmime settings hadd href _
      rw [if_pos href, hmsg, CarriesNames, headerValues_append _ _ _ hprints.closed,
        hprints.values, List.mem_singleton, ← queueValue_iff settings hle]
      exact eq_comm
    · have hmsg : flushed.message.msg = stop.message.msg := by
        show (setQueueHeader cmime settings w.message.ref
          (headerAt settings finished) stop).message.msg = _
        unfold setQueueHeader
        rw [if_neg (fun h => href h.2)]
      have hbody : mailBody old.content = mailBody (spoolText stop) := by
        rw [spoolText, ← hkept, hold]
        rfl
      rw [if_neg href, hmsg, hbody]

end

/-! ## Runs that lose the names -/

/-- Two modules, a next hop, and the header of the queue. -/
def headerSettings : Settings :=
  { modules := [ascii "a", ascii "b"], nexthop := some (ascii "/out"), addHeader := true }

/-- The first module returns `0`, the second one stops the run with `2`. -/
def stoppedEnv : QueueEnv Bytes :=
  { mailEnv (fun w => (0, w)) with runs := fun i => some fun w => (if i = 0 then 0 else 2, w) }

/-- A module that stops the run leaves a separator at the end, and a message
that is parsed again loses the header. -/
theorem queueHeader_lost :
    (nexthopCalls (smfModulesProcess plainCmime pipeQueue headerSettings stoppedEnv
          mailWorld).events = [(0, [])] ∧
        finishedCount plainCmime headerSettings stoppedEnv mailWorld = 1 ∧
        headerValues (ascii "X-Spmfilter") (spoolText (smfModulesProcess plainCmime pipeQueue
          headerSettings stoppedEnv mailWorld).world) = [ascii "a,"] ∧
        ¬ CarriesNames [ascii "a"] (spoolText (smfModulesProcess plainCmime pipeQueue
          headerSettings stoppedEnv mailWorld).world)) ∧
      nexthopCalls (smfModulesProcess plainCmime pipeQueue headerSettings reloadEnv
          mailWorld).events = [(0, [])] ∧
        finishedCount plainCmime headerSettings reloadEnv mailWorld = 2 ∧
        headerValues (ascii "X-Spmfilter") (spoolText (smfModulesProcess plainCmime pipeQueue
          headerSettings reloadEnv mailWorld).world) = [] ∧
        ¬ CarriesNames [ascii "a", ascii "b"] (spoolText (smfModulesProcess plainCmime pipeQueue
          headerSettings reloadEnv mailWorld).world) := by
  refine ⟨⟨?_, ?_, ?_, ?_⟩, ?_, ?_, ?_, ?_⟩ <;> decide

/-- The first of these runs under the condition: neither side holds. -/
theorem queueHeader_iff_stoppedEnv :
    CarriesNames
        (headerSettings.modules.take
          (finishedCount plainCmime headerSettings stoppedEnv mailWorld))
        (spoolText (smfModulesProcess plainCmime (Engine.queue (M := Bytes) .pipe) headerSettings
          stoppedEnv mailWorld).world) ↔
      if headersDirty
          (plainHeaders (setQueueHeader plainCmime headerSettings mailWorld.message.ref
            (headerAt headerSettings
              (finishedCount plainCmime headerSettings stoppedEnv mailWorld))
            (modulesStop plainCmime headerSettings stoppedEnv mailWorld).world).message.msg)
          (plainHeaders mailWorld.message.msg) = true then
        if (modulesStop plainCmime headerSettings stoppedEnv mailWorld).world.message.ref =
            mailWorld.message.ref then
          finishedCount plainCmime headerSettings stoppedEnv mailWorld = 0 ∨
            finishedCount plainCmime headerSettings stoppedEnv mailWorld =
              headerSettings.modules.length
        else
          CarriesNames
            (headerSettings.modules.take
              (finishedCount plainCmime headerSettings stoppedEnv mailWorld))
            ((modulesStop plainCmime headerSettings stoppedEnv mailWorld).world.message.msg ++
              mailBody (spoolText
                (modulesStop plainCmime headerSettings stoppedEnv mailWorld).world))
      else
        CarriesNames
          (headerSettings.modules.take
            (finishedCount plainCmime headerSettings stoppedEnv mailWorld))
          (spoolText (modulesStop plainCmime headerSettings stoppedEnv mailWorld).world) :=
  queueHeader_iff plainCmime headerSettings stoppedEnv mailWorld .pipe rfl
    (fun _ => ⟨by decide, by decide⟩) (by decide)

end Spmfilter

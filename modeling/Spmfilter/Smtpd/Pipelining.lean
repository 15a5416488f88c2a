import Spmfilter.Smtpd.Outcome

/-!
# Two readers on one socket

The command loop and the DATA loop read the same socket, each through a buffer
of its own.  What one of them has read ahead is not seen by the other.

The reference is the session over `Feed.tokens`, where both loops take from one
stream.  `clientSwitches` lists the places at which reading passes from one
loop to the other.

* `Boundary` says that a stream starts where a `read()` has started.  `Stands`
  is the invariant of a reader that makes this the same as an empty buffer.
* `Lossless` says that the reading loop finds the stream where the other has
  left it.
* `clientLoop_pipelined` follows both sessions turn by turn, and
  `pipelining_exact` is the result for a connection.
-/

namespace Spmfilter

open CString

/-! ## Where a reader stands -/

/-- The stream is what a whole number of `read()` results still holds. -/
def Boundary (sock : Socket) (w : Wire) : Prop :=
  ∃ post, post <:+ sock ∧ Socket.wire post = w

/-- The reader has an empty buffer, or a part of the last result in it. -/
def Stands (sock : Socket) (r : ReadlineT × Socket) : Prop :=
  (r.1.rest = [] ∧ r.2 <:+ sock) ∨
    ∃ (bytes : Bytes) (nonempty : bytes ≠ []) (fits : bytes.length ≤ BUFSIZE),
      .data bytes nonempty fits :: r.2 <:+ sock ∧ r.1.rest.length < bytes.length

theorem Socket.wire_append (a b : Socket) :
    Socket.wire (a ++ b) = Socket.wire a ++ Socket.wire b := by
  induction a with
  | nil => rfl
  | cons reply a ih =>
    cases reply with
    | data bytes nonempty fits =>
      rw [List.cons_append, Socket.wire, Socket.wire, ih, List.append_assoc]
    | eintr => rw [List.cons_append, Socket.wire, Socket.wire, ih]
    | error => rw [List.cons_append, Socket.wire, Socket.wire, ih, List.cons_append]

theorem Socket.wire_length_le {a b : Socket} (h : a <:+ b) :
    (Socket.wire a).length ≤ (Socket.wire b).length := by
  obtain ⟨pre, rfl⟩ := h
  rw [Socket.wire_append, List.length_append]
  omega

theorem wireOf_length (r : ReadlineT × Socket) :
    (wireOf r).length = r.1.rest.length + (Socket.wire r.2).length := by
  rw [wireOf, List.length_append, List.length_map]

/-- An empty buffer holds nothing back. -/
theorem wireOf_clean {r : ReadlineT × Socket} (h : r.1.rest = []) : wireOf r = Socket.wire r.2 := by
  rw [wireOf, h]
  rfl

section Stands

variable {sock : Socket}

theorem Stands.suffix {r : ReadlineT × Socket} (h : Stands sock r) : r.2 <:+ sock := by
  rcases h with ⟨_, h⟩ | ⟨bytes, nonempty, fits, h, _⟩
  · exact h
  · exact (List.suffix_cons _ _).trans h

theorem smfInternalFill_stands {rest : Socket} (h : rest <:+ sock) :
    Stands sock (smfInternalFill rest).2 := by
  induction rest with
  | nil => exact Or.inl ⟨rfl, h⟩
  | cons reply rest ih =>
    have hrest : rest <:+ sock := (List.suffix_cons _ _).trans h
    cases reply with
    | data bytes nonempty fits =>
      refine Or.inr ⟨bytes, nonempty, fits, h, ?_⟩
      have hpos : 0 < bytes.length := List.length_pos_of_ne_nil nonempty
      show bytes.tail.length < bytes.length
      rw [List.length_tail]
      omega
    | eintr => exact ih hrest
    | error => exact Or.inl ⟨rfl, hrest⟩

/-- A reader keeps standing in its socket. -/
theorem stands_preserves : Source.Preserves socketSource (Stands sock) := by
  intro r h
  obtain ⟨⟨rest⟩, left⟩ := r
  cases rest with
  | nil => exact smfInternalFill_stands h.suffix
  | cons b rest =>
    rcases h with ⟨hnil, _⟩ | ⟨bytes, nonempty, fits, hsuffix, hlen⟩
    · cases hnil
    · refine Or.inr ⟨bytes, nonempty, fits, hsuffix, ?_⟩
      show rest.length < bytes.length
      rw [List.length_cons] at hlen
      omega

/-- A reader whose buffer is not empty stands inside a `read()` result. -/
theorem boundary_iff {r : ReadlineT × Socket} (h : Stands sock r) :
    Boundary sock (wireOf r) ↔ r.1.rest = [] := by
  constructor
  · intro hboundary
    obtain ⟨post, hpost, hwire⟩ := hboundary
    have hlen := congrArg List.length hwire
    rw [wireOf_length] at hlen
    rcases h with ⟨hclean, _⟩ | ⟨bytes, nonempty, fits, hsuffix, hrest⟩
    · exact hclean
    · have hwhole : (Socket.wire (.data bytes nonempty fits :: r.2)).length =
          bytes.length + (Socket.wire r.2).length := by
        rw [Socket.wire, List.length_append, List.length_map]
      -- `post` reaches over the last result, or it does not contain it
      have hcases : .data bytes nonempty fits :: r.2 <:+ post ∨ post <:+ r.2 := by
        rcases List.suffix_or_suffix_of_suffix hsuffix hpost with hlong | hshort
        · exact Or.inl hlong
        · rcases List.suffix_cons_iff.1 hshort with heq | hshort
          · exact Or.inl (heq ▸ List.suffix_refl _)
          · exact Or.inr hshort
      rcases hcases with hlong | hshort
      · have hle := Socket.wire_length_le hlong
        omega
      · have hle := Socket.wire_length_le hshort
        exact List.length_eq_zero_iff.1 (by omega)
  · intro hclean
    exact ⟨r.2, h.suffix, (wireOf_clean hclean).symm⟩

end Stands

/-! ## The switches of a session -/

section Switches

variable {M R : Type} (d : Daemon M) (feed : Feed UInt8 R)

/-- The switches of one `smf_smtpd_process_data`: to its reader, and back when
the process is still alive.  Each is the reader that stops and the reader that
starts. -/
def dataSwitches (env : DataEnv M) (session : Session) (r : R) : List (R × R) :=
  match processDataOpen d env session with
  | (none, _) => []
  | (some session, _) =>
    let loop := dataLoop feed.toSource { messageSize := session.messageSize } (feed.enter r)
    (r, feed.enter r) ::
      if (processDataFinish d env session loop.state).alive then
        [(loop.reader, feed.leave r loop.reader)]
      else []

theorem dataSwitches_refused {env : DataEnv M} {session : Session} {events : List Event}
    (h : processDataOpen d env session = (none, events)) (r : R) :
    dataSwitches d feed env session r = [] := by
  rw [dataSwitches, h]

theorem dataSwitches_opened {env : DataEnv M} {session opened : Session} {events : List Event}
    (h : processDataOpen d env session = (some opened, events)) (r : R) :
    dataSwitches d feed env session r =
      let loop := dataLoop feed.toSource { messageSize := opened.messageSize } (feed.enter r)
      (r, feed.enter r) ::
        if (processDataFinish d env opened loop.state).alive then
          [(loop.reader, feed.leave r loop.reader)]
        else [] := by
  rw [dataSwitches, h]

variable (env : Nat → TurnEnv M)

/-- The switches of `smf_smtpd_handle_client`, turn by turn. -/
def clientSwitches (k : Nat) (client : Client) (r : R) : List (R × R) :=
  let read := smfInternalReadline feed.toSource MAXLINE r
  if _h : 0 < read.1.ret then
    match (smfSmtpdHandleRequest d (env k).sid client (cstr read.1.buf)).1 with
    | .close => []
    | .next client => clientSwitches (k + 1) client read.2
    | .data client =>
      let result := smfSmtpdProcessData d feed (env k).data client.session read.2
      dataSwitches d feed (env k).data client.session read.2 ++
        if result.1.alive then
          clientSwitches (k + 1) { client with session := result.1.session } result.2
        else []
  else []
termination_by feed.size r
decreasing_by
  all_goals
    have hread := smfInternalReadline_size_lt feed.toSource (by decide) _h
  · exact hread
  · exact Nat.lt_of_le_of_lt (smfSmtpdProcessData_size d feed _ _ _) hread

theorem clientSwitches_end (k : Nat) (client : Client) {r : R}
    (h : (smfInternalReadline feed.toSource MAXLINE r).1.ret ≤ 0) :
    clientSwitches d feed env k client r = [] := by
  rw [clientSwitches, dif_neg (by omega)]

section Turn

variable {env} {k : Nat} {client next : Client} {r : R} {out : List Event}

theorem clientSwitches_close (hret : 0 < (smfInternalReadline feed.toSource MAXLINE r).1.ret)
    (hturn : smfSmtpdHandleRequest d (env k).sid client
      (cstr (smfInternalReadline feed.toSource MAXLINE r).1.buf) = (.close, out)) :
    clientSwitches d feed env k client r = [] := by
  rw [clientSwitches, dif_pos hret]
  simp only [hturn]

theorem clientSwitches_next (hret : 0 < (smfInternalReadline feed.toSource MAXLINE r).1.ret)
    (hturn : smfSmtpdHandleRequest d (env k).sid client
      (cstr (smfInternalReadline feed.toSource MAXLINE r).1.buf) = (.next next, out)) :
    clientSwitches d feed env k client r =
      clientSwitches d feed env (k + 1) next (smfInternalReadline feed.toSource MAXLINE r).2 := by
  rw [clientSwitches, dif_pos hret]
  simp only [hturn]

theorem clientSwitches_data (hret : 0 < (smfInternalReadline feed.toSource MAXLINE r).1.ret)
    (hturn : smfSmtpdHandleRequest d (env k).sid client
      (cstr (smfInternalReadline feed.toSource MAXLINE r).1.buf) = (.data next, out))
    {result : DataResult × R}
    (hresult : smfSmtpdProcessData d feed (env k).data next.session
      (smfInternalReadline feed.toSource MAXLINE r).2 = result) :
    clientSwitches d feed env k client r =
      dataSwitches d feed (env k).data next.session
          (smfInternalReadline feed.toSource MAXLINE r).2 ++
        if result.1.alive then
          clientSwitches d feed env (k + 1) { next with session := result.1.session } result.2
        else [] := by
  rw [clientSwitches, dif_pos hret]
  simp only [hturn, hresult]

end Turn

end Switches

/-! ## The two sessions -/

/-- At every switch the reader that starts finds what the other has left. -/
def Lossless (switches : List ((ReadlineT × Socket) × (ReadlineT × Socket))) : Prop :=
  ∀ p ∈ switches, wireOf p.1 = wireOf p.2

/-- Every switch of the reference is at the end of a `read()` result. -/
def AtBoundaries (sock : Socket) (switches : List (Wire × Wire)) : Prop :=
  ∀ p ∈ switches, Boundary sock p.1

theorem lossless_append {a b : List ((ReadlineT × Socket) × (ReadlineT × Socket))} :
    Lossless (a ++ b) ↔ Lossless a ∧ Lossless b := by
  simp only [Lossless, List.forall_mem_append]

theorem atBoundaries_append {sock : Socket} {a b : List (Wire × Wire)} :
    AtBoundaries sock (a ++ b) ↔ AtBoundaries sock a ∧ AtBoundaries sock b := by
  simp only [AtBoundaries, List.forall_mem_append]

theorem lossless_cons {a b : ReadlineT × Socket}
    {switches : List ((ReadlineT × Socket) × (ReadlineT × Socket))} :
    Lossless ((a, b) :: switches) ↔ wireOf a = wireOf b ∧ Lossless switches := by
  simp only [Lossless, List.forall_mem_cons]

theorem atBoundaries_cons {sock : Socket} {v w : Wire} {switches : List (Wire × Wire)} :
    AtBoundaries sock ((v, w) :: switches) ↔ Boundary sock v ∧ AtBoundaries sock switches := by
  simp only [AtBoundaries, List.forall_mem_cons]

section Pipelined

variable {M : Type} (d : Daemon M) {sock : Socket}

/-- The reader of the DATA loop starts where the stream stands exactly when the
buffer of the command loop is empty. -/
theorem wireOf_enter_iff (r : ReadlineT × Socket) :
    wireOf r = wireOf (socketFeed.enter r) ↔ r.1.rest = [] := by
  constructor
  · intro h
    have hlen := congrArg List.length h
    rw [wireOf_length, wireOf_length] at hlen
    have hright : (socketFeed.enter r).1.rest.length = 0 := rfl
    have hsame : (socketFeed.enter r).2 = r.2 := rfl
    rw [hright, hsame] at hlen
    exact List.length_eq_zero_iff.1 (by omega)
  · intro h
    rw [wireOf_clean h, wireOf_clean rfl]
    rfl

/-- An empty buffer is as good as a new one. -/
theorem enter_of_clean {r : ReadlineT × Socket} (h : r.1.rest = []) : socketFeed.enter r = r := by
  obtain ⟨⟨rest⟩, left⟩ := r
  obtain rfl : rest = [] := h
  rfl

/-- The command loop, with an empty buffer, goes on where the stream stands
exactly when the buffer of the DATA loop is empty too. -/
theorem wireOf_leave_iff {r r' : ReadlineT × Socket} (h : r.1.rest = []) :
    wireOf r' = wireOf (socketFeed.leave r r') ↔ r'.1.rest = [] := by
  have hleave : socketFeed.leave r r' = socketFeed.enter r' := by
    obtain ⟨⟨rest⟩, left⟩ := r
    obtain rfl : rest = [] := h
    rfl
  rw [hleave, wireOf_enter_iff]

theorem leave_of_clean {r r' : ReadlineT × Socket} (h : r.1.rest = []) (h' : r'.1.rest = []) :
    socketFeed.leave r r' = r' := by
  obtain ⟨⟨rest⟩, left⟩ := r
  obtain ⟨⟨rest'⟩, left'⟩ := r'
  obtain rfl : rest = [] := h
  obtain rfl : rest' = [] := h'
  rfl

/-- One `smf_smtpd_process_data`: its switches, and what it does when nothing
is lost. -/
theorem smfSmtpdProcessData_pipelined (env : DataEnv M) (session : Session)
    {r : ReadlineT × Socket} (h : Stands sock r) :
    (Lossless (dataSwitches d socketFeed env session r) ↔
        AtBoundaries sock (dataSwitches d (Feed.tokens UInt8) env session (wireOf r))) ∧
      (Lossless (dataSwitches d socketFeed env session r) →
        ∃ result r', Stands sock r' ∧
          smfSmtpdProcessData d (Feed.tokens UInt8) env session (wireOf r) = (result, wireOf r') ∧
          (smfSmtpdProcessData d socketFeed env session r).1 = result ∧
          (result.alive = true → (smfSmtpdProcessData d socketFeed env session r).2 = r')) := by
  rcases hopen : processDataOpen d env session with ⟨_ | opened, events⟩
  · rw [dataSwitches_refused d _ hopen, dataSwitches_refused d _ hopen,
      smfSmtpdProcessData_refused d _ hopen, smfSmtpdProcessData_refused d _ hopen]
    exact ⟨by simp [Lossless, AtBoundaries], fun _ => ⟨_, r, h, rfl, rfl, fun _ => rfl⟩⟩
  have hdata := smfSmtpdProcessData_opened d socketFeed hopen r
  have htokens := smfSmtpdProcessData_opened d (Feed.tokens UInt8) hopen (wireOf r)
  rw [dataSwitches_opened d socketFeed hopen, dataSwitches_opened d (Feed.tokens UInt8) hopen]
  dsimp only at hdata htokens ⊢
  rw [lossless_cons, atBoundaries_cons, wireOf_enter_iff, boundary_iff h]
  by_cases hclean : r.1.rest = []
  case neg =>
    exact ⟨iff_of_false (fun hloss => hclean hloss.1) (fun hbound => hclean hbound.1),
      fun hloss => absurd hloss.1 hclean⟩
  -- both loops run over the same stream
  rw [enter_of_clean hclean] at hdata ⊢
  have hmap : dataLoop (Feed.tokens UInt8).toSource { messageSize := opened.messageSize }
      ((Feed.tokens UInt8).enter (wireOf r)) = _ :=
    dataLoop_map socketSource_hom { messageSize := opened.messageSize } r
  have hstands := dataLoop_preserves stands_preserves { messageSize := opened.messageSize } h
  rw [show socketFeed.toSource = socketSource from rfl] at hdata ⊢
  rw [hmap] at htokens ⊢
  generalize dataLoop socketSource { messageSize := opened.messageSize } r = loop
    at hdata htokens hstands ⊢
  dsimp only at htokens ⊢
  rw [and_iff_right hclean, and_iff_right hclean]
  by_cases halive : (processDataFinish d env opened loop.state).alive = true
  · rw [if_pos halive, if_pos halive]
    refine ⟨?_, fun hloss => ⟨_, loop.reader, hstands, htokens, by rw [hdata], fun _ => ?_⟩⟩
    · rw [lossless_cons, atBoundaries_cons, wireOf_leave_iff hclean, boundary_iff hstands]
      exact and_congr_right (fun _ => by simp [Lossless, AtBoundaries])
    · have hleft : loop.reader.1.rest = [] :=
        (wireOf_leave_iff hclean).1 (lossless_cons.1 hloss).1
      rw [hdata]
      exact leave_of_clean hclean hleft
  · rw [if_neg halive, if_neg halive]
    exact ⟨by simp [Lossless, AtBoundaries], fun _ =>
      ⟨_, loop.reader, hstands, htokens, by rw [hdata], fun hyes => absurd hyes halive⟩⟩

variable (env : Nat → TurnEnv M)

/-- From here on the two sessions are alike exactly when every switch is at a
boundary. -/
structure Alike (sock : Socket) (k : Nat) (client : Client) (r : ReadlineT × Socket) : Prop where
  lossless_iff :
    Lossless (clientSwitches d socketFeed env k client r) ↔
      AtBoundaries sock (clientSwitches d (Feed.tokens UInt8) env k client (wireOf r))
  same : Lossless (clientSwitches d socketFeed env k client r) →
    clientLoop d socketFeed env k client r =
      clientLoop d (Feed.tokens UInt8) env k client (wireOf r)

/-- Both command loops read the same line. -/
theorem readline_wireOf (r : ReadlineT × Socket) :
    smfInternalReadline (Feed.tokens UInt8).toSource MAXLINE (wireOf r) =
      ((smfInternalReadline socketFeed.toSource MAXLINE r).1,
        wireOf (smfInternalReadline socketFeed.toSource MAXLINE r).2) :=
  smfInternalReadline_map socketSource_hom MAXLINE r

section Turn

variable {env} {k : Nat} {client next : Client} {r : ReadlineT × Socket} {out : List Event}

theorem alike_end (h : (smfInternalReadline socketFeed.toSource MAXLINE r).1.ret ≤ 0) :
    Alike d env sock k client r := by
  have h' : (smfInternalReadline (Feed.tokens UInt8).toSource MAXLINE (wireOf r)).1.ret ≤ 0 := by
    rw [readline_wireOf]
    exact h
  constructor
  · rw [clientSwitches_end d socketFeed env k client h,
      clientSwitches_end d (Feed.tokens UInt8) env k client h']
    simp [Lossless, AtBoundaries]
  · intro _
    rw [clientLoop_end d socketFeed env k client h,
      clientLoop_end d (Feed.tokens UInt8) env k client h']

theorem request_wireOf {sid : Bytes} {turn : Verdict × List Event}
    (h : smfSmtpdHandleRequest d sid client
      (cstr (smfInternalReadline socketFeed.toSource MAXLINE r).1.buf) = turn) :
    smfSmtpdHandleRequest d sid client
      (cstr (smfInternalReadline (Feed.tokens UInt8).toSource MAXLINE (wireOf r)).1.buf) =
        turn := by
  rw [readline_wireOf]
  exact h

variable (hret : 0 < (smfInternalReadline socketFeed.toSource MAXLINE r).1.ret)

include hret

theorem readline_wireOf_pos :
    0 < (smfInternalReadline (Feed.tokens UInt8).toSource MAXLINE (wireOf r)).1.ret := by
  rw [readline_wireOf]
  exact hret

theorem alike_close
    (hturn : smfSmtpdHandleRequest d (env k).sid client
      (cstr (smfInternalReadline socketFeed.toSource MAXLINE r).1.buf) = (.close, out)) :
    Alike d env sock k client r := by
  have hturn' := request_wireOf d hturn
  have hret' := readline_wireOf_pos hret
  constructor
  · rw [clientSwitches_close d socketFeed hret hturn,
      clientSwitches_close d (Feed.tokens UInt8) hret' hturn']
    simp [Lossless, AtBoundaries]
  · intro _
    rw [clientLoop_close d socketFeed hret hturn,
      clientLoop_close d (Feed.tokens UInt8) hret' hturn', readline_wireOf]

theorem alike_next
    (hturn : smfSmtpdHandleRequest d (env k).sid client
      (cstr (smfInternalReadline socketFeed.toSource MAXLINE r).1.buf) = (.next next, out))
    (h : Alike d env sock (k + 1) next (smfInternalReadline socketFeed.toSource MAXLINE r).2) :
    Alike d env sock k client r := by
  have hturn' := request_wireOf d hturn
  have hret' := readline_wireOf_pos hret
  constructor
  · rw [clientSwitches_next d socketFeed hret hturn,
      clientSwitches_next d (Feed.tokens UInt8) hret' hturn', readline_wireOf]
    exact h.lossless_iff
  · intro hloss
    rw [clientSwitches_next d socketFeed hret hturn] at hloss
    rw [clientLoop_next d socketFeed hret hturn,
      clientLoop_next d (Feed.tokens UInt8) hret' hturn', readline_wireOf, h.same hloss]

/-- The turn that calls for data: its own switches, then the rest. -/
theorem alike_data
    (hturn : smfSmtpdHandleRequest d (env k).sid client
      (cstr (smfInternalReadline socketFeed.toSource MAXLINE r).1.buf) = (.data next, out))
    (hstands : Stands sock (smfInternalReadline socketFeed.toSource MAXLINE r).2)
    (h : ∀ session r', Stands sock r' → socketFeed.size r' < socketFeed.size r →
      Alike d env sock (k + 1) { next with session } r') :
    Alike d env sock k client r := by
  have hturn' := request_wireOf d hturn
  have hret' := readline_wireOf_pos hret
  have hlt := smfInternalReadline_size_lt socketFeed.toSource (by decide) hret
  have hsize := smfSmtpdProcessData_size d socketFeed (env k).data next.session
    (smfInternalReadline socketFeed.toSource MAXLINE r).2
  have hleft := congrArg Prod.snd (readline_wireOf r)
  dsimp only at hleft
  obtain ⟨hiff, hdata⟩ := smfSmtpdProcessData_pipelined d (env k).data next.session hstands
  have hswitches := clientSwitches_data d socketFeed hret hturn rfl
  have hswitches' := clientSwitches_data d (Feed.tokens UInt8) hret' hturn' rfl
  have hloop := clientLoop_data d socketFeed hret hturn rfl
  have hloop' := clientLoop_data d (Feed.tokens UInt8) hret' hturn' rfl
  rw [hleft] at hswitches' hloop'
  by_cases hloss : Lossless (dataSwitches d socketFeed (env k).data next.session
      (smfInternalReadline socketFeed.toSource MAXLINE r).2)
  case neg =>
    constructor
    · rw [hswitches, hswitches', lossless_append, atBoundaries_append, ← hiff]
      exact iff_of_false (fun h => hloss h.1) (fun h => hloss h.1)
    · intro hall
      rw [hswitches, lossless_append] at hall
      exact absurd hall.1 hloss
  obtain ⟨result, r', hstands', htokens, hresult, hafter⟩ := hdata hloss
  rw [htokens] at hswitches' hloop'
  rw [hresult] at hswitches hloop
  dsimp only at hswitches hswitches' hloop hloop'
  by_cases halive : result.alive = true
  · rw [hafter halive] at hsize hswitches hloop
    rw [if_pos halive] at hswitches hswitches' hloop hloop'
    have hrest := h result.session r' hstands' (Nat.lt_of_le_of_lt hsize hlt)
    constructor
    · rw [hswitches, hswitches', lossless_append, atBoundaries_append, ← hiff]
      exact and_congr_right (fun _ => hrest.lossless_iff)
    · intro hall
      rw [hswitches, lossless_append] at hall
      rw [hloop, hloop', readline_wireOf, hrest.same hall.2]
  · rw [if_neg halive] at hswitches hswitches' hloop hloop'
    constructor
    · rw [hswitches, hswitches', List.append_nil, List.append_nil]
      exact hiff
    · intro _
      rw [hloop, hloop', readline_wireOf]

end Turn

/-- The two command loops, from a place where they stand at the same byte. -/
theorem clientLoop_pipelined (k : Nat) (client : Client) {r : ReadlineT × Socket}
    (h : Stands sock r) : Alike d env sock k client r := by
  -- induction on what the reader still holds
  obtain ⟨n, hn⟩ : ∃ n, socketFeed.size r < n := ⟨_, Nat.lt_succ_self _⟩
  induction n generalizing k client r with
  | zero => omega
  | succ n ih =>
    by_cases hret : 0 < (smfInternalReadline socketFeed.toSource MAXLINE r).1.ret
    · have hstands : Stands sock (smfInternalReadline socketFeed.toSource MAXLINE r).2 :=
        smfInternalReadline_preserves stands_preserves MAXLINE h
      have hlt := smfInternalReadline_size_lt socketFeed.toSource (by decide) hret
      rcases hturn : smfSmtpdHandleRequest d (env k).sid client
        (cstr (smfInternalReadline socketFeed.toSource MAXLINE r).1.buf) with
        ⟨_ | next | next, out⟩
      · exact alike_close d hret hturn
      · exact alike_next d hret hturn (ih (k + 1) next hstands (by omega))
      · refine alike_data d hret hturn hstands (fun session r' hstands' hsize => ?_)
        exact ih (k + 1) { next with session } hstands' (by omega)
    · exact alike_end d (by omega)

/-- A session acts like the reference and loses no byte exactly when the
reference switches loops only at the end of a `read()` result. -/
theorem pipelining_exact (sid : Bytes) (sock : Socket) :
    (smfSmtpdHandleClient d socketFeed env sid ({}, sock) =
          smfSmtpdHandleClient d (Feed.tokens UInt8) env sid (Socket.wire sock) ∧
        Lossless (clientSwitches d socketFeed env 0 (.fresh sid) ({}, sock))) ↔
      AtBoundaries sock
        (clientSwitches d (Feed.tokens UInt8) env 0 (.fresh sid) (Socket.wire sock)) := by
  have hstands : Stands sock ({}, sock) := Or.inl ⟨rfl, List.suffix_refl sock⟩
  obtain ⟨hiff, hsame⟩ := clientLoop_pipelined d env 0 (.fresh sid) hstands
  rw [wireOf_clean rfl] at hiff hsame
  rw [← hiff]
  constructor
  · intro h
    exact h.2
  · intro hloss
    refine ⟨?_, hloss⟩
    rw [smfSmtpdHandleClient, smfSmtpdHandleClient, hsame hloss]

end Pipelined

/-- A client that sends everything at once, with a message of one line. -/
def burst : Socket :=
  [.data (ascii "MAIL FROM:a\r\nRCPT TO:b\r\nDATA\r\nRSET\r\n.\r\nQUIT\r\n") (by decide)
    (by decide)]

/-- The line of the message is run as a command. -/
theorem burst_messageRun :
    .command (ascii "RSET\r\n") ∈
        smfSmtpdHandleClient Daemon.plain socketFeed (fun _ => (Request.plain "").env) (ascii "s0")
          ({}, burst) ∧
      .command (ascii "RSET\r\n") ∉
        smfSmtpdHandleClient Daemon.plain (Feed.tokens UInt8) (fun _ => (Request.plain "").env)
          (ascii "s0") (Socket.wire burst) := by
  constructor
  · decide +kernel
  · decide +kernel

end Spmfilter

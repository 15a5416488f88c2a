import Spmfilter.Lib.CString

/-!
# Writing a whole buffer

`smf_internal_writen`: `write()` is called until the buffer has gone out.  The pointer
`p` and the count `n` of what is left move together over short counts and retries.

* `writenLoop_run` carries both over any calls after which the loop goes on, and
  `smfInternalWriten_eq` is what a whole call comes to.
* `writen_reports_iff` says when the count that is returned is true.
* `writen_whole_iff` is what the replies to the client rely on.
-/

namespace Spmfilter

open CString

/-- A result of `write()`: a count, or `-1` with `EINTR` or another error in `errno`. -/
inductive WriteResult where
  | took (count : Nat)
  | eintr
  | error
deriving DecidableEq

/-- What went to the descriptor, and the value returned.  There is none yet while the
last call of `write()` is under way. -/
structure Written where
  passed : Bytes
  ret : Option Int
deriving DecidableEq

/-- The loop of `smf_internal_writen`.  `write()` takes `n` bytes at most. -/
def writenLoop (nbyte : Nat) : (results : List WriteResult) → (n : Nat) → (p : Bytes) → Written
  | _, 0, _ => ⟨[], some nbyte⟩
  | [], _ + 1, _ => ⟨[], none⟩
  | .eintr :: results, n + 1, p => writenLoop nbyte results (n + 1) p
  | .error :: _, _ + 1, _ => ⟨[], some (-1)⟩
  | .took count :: results, n + 1, p =>
    let bw := min count (n + 1)
    -- `smf_internal_readn` has `nbyte - n` in this place.
    if bw = 0 then ⟨[], some (nbyte - 1 : Nat)⟩
    else
      let rest := writenLoop nbyte results (n + 1 - bw) (p.drop bw)
      ⟨p.take bw ++ rest.passed, rest.ret⟩

def smfInternalWriten (results : List WriteResult) (buf : Bytes) : Written :=
  writenLoop buf.length results buf.length buf

/-! ## A run of the loop -/

def WriteResult.count : WriteResult → Nat
  | .took count => count
  | .eintr => 0
  | .error => 0

/-- The loop goes on after this result, if anything is left. -/
def WriteResult.goesOn : WriteResult → Bool
  | .took count => 0 < count
  | .eintr => true
  | .error => false

/-- What some calls take together. -/
def taken : List WriteResult → Nat
  | [] => 0
  | r :: results => r.count + taken results

/-- The value returned where the loop stops at the first of these results. -/
def stopValue (nbyte : Nat) : List WriteResult → Option Int
  | [] => none
  | .took _ :: _ => some (nbyte - 1 : Nat)
  | .eintr :: _ => none
  | .error :: _ => some (-1)

section
variable {nbyte n left : Nat} {p buf : Bytes} {results pre post : List WriteResult}

theorem taken_cons (r : WriteResult) : taken (r :: results) = r.count + taken results := rfl

/-- A `write()` that takes something. -/
theorem writenLoop_took {count : Nat} (hpos : 0 < count) (hn : p.length = n) :
    writenLoop nbyte (.took count :: results) n p =
      ⟨p.take count ++ (writenLoop nbyte results (n - count) (p.drop count)).passed,
        (writenLoop nbyte results (n - count) (p.drop count)).ret⟩ := by
  cases n with
  | zero =>
    obtain rfl := List.eq_nil_of_length_eq_zero hn
    simp [writenLoop]
  | succ n =>
    have hne : min count (n + 1) ≠ 0 := by omega
    simp only [writenLoop, if_neg hne]
    rcases Nat.le_total count (n + 1) with hle | hge
    · rw [Nat.min_eq_left hle]
    · -- The call takes all that is left, and the count is not looked at again.
      rw [Nat.min_eq_right hge, ← hn, List.take_length, List.take_of_length_le (by omega),
        List.drop_length, List.drop_of_length_le (by omega), Nat.sub_self,
        Nat.sub_eq_zero_of_le (by omega)]

/-- The calls after which the loop goes on, all at once. -/
theorem writenLoop_run (hpre : ∀ r ∈ pre, r.goesOn = true) (hn : p.length = n) :
    writenLoop nbyte (pre ++ post) n p =
      ⟨p.take (taken pre) ++ (writenLoop nbyte post (n - taken pre) (p.drop (taken pre))).passed,
        (writenLoop nbyte post (n - taken pre) (p.drop (taken pre))).ret⟩ := by
  induction pre generalizing n p with
  | nil => simp [taken]
  | cons r pre ih =>
    obtain ⟨hr, hrest⟩ := List.forall_mem_cons.mp hpre
    rw [List.cons_append, taken_cons]
    cases r with
    | took count =>
      have hpos : 0 < count := of_decide_eq_true hr
      have hdrop : (p.drop count).length = n - count := by rw [List.length_drop, hn]
      rw [writenLoop_took hpos hn, ih hrest hdrop]
      simp only [WriteResult.count, List.take_add, List.append_assoc, List.drop_drop, Nat.sub_sub]
    | eintr =>
      have heq : writenLoop nbyte (.eintr :: (pre ++ post)) n p =
          writenLoop nbyte (pre ++ post) n p := by
        cases n <;> simp [writenLoop]
      rw [heq, ih hrest hn]
      simp only [WriteResult.count, Nat.zero_add]
    | error => cases hr

/-- Every schedule has a first result after which the loop does not go on, or none. -/
theorem exists_stop (results : List WriteResult) :
    ∃ pre post, results = pre ++ post ∧ (∀ r ∈ pre, r.goesOn = true) ∧
      ∀ r ∈ post.head?, r.goesOn = false := by
  refine ⟨results.takeWhile WriteResult.goesOn, results.dropWhile WriteResult.goesOn,
    List.takeWhile_append_dropWhile.symm, fun r hr => List.mem_takeWhile_imp hr, ?_⟩
  intro r hr
  have hhead := List.head?_dropWhile_not WriteResult.goesOn results
  rw [hr] at hhead
  exact hhead

/-- What a call of `smf_internal_writen` comes to: a prefix goes out, and the count of the
whole buffer or what the last result stands for is returned. -/
theorem smfInternalWriten_eq (hpre : ∀ r ∈ pre, r.goesOn = true)
    (hpost : ∀ r ∈ post.head?, r.goesOn = false) :
    smfInternalWriten (pre ++ post) buf =
      ⟨buf.take (taken pre),
        if buf.length ≤ taken pre then some (buf.length : Int) else stopValue buf.length post⟩ := by
  rw [smfInternalWriten, writenLoop_run hpre rfl]
  split
  · rename_i hle
    rw [Nat.sub_eq_zero_of_le hle]
    simp [writenLoop]
  · rename_i hlt
    obtain ⟨m, hm⟩ : ∃ m, buf.length - taken pre = m + 1 := ⟨buf.length - taken pre - 1, by omega⟩
    rw [hm]
    match post with
    | [] => simp [writenLoop, stopValue]
    | .took count :: post =>
      obtain rfl : count = 0 := Nat.eq_zero_of_not_pos (of_decide_eq_false (hpost _ rfl))
      simp [writenLoop, stopValue]
    | .eintr :: post => cases hpost _ rfl
    | .error :: post => simp [writenLoop, stopValue]

/-! ## The count that is returned -/

/-- The bytes passed on are a prefix of the buffer, and a count that is returned is their
number. -/
def ReportsCount (results : List WriteResult) (buf : Bytes) : Prop :=
  (smfInternalWriten results buf).passed <+: buf ∧
    ∀ r : Int, (smfInternalWriten results buf).ret = some r → 0 ≤ r →
      r = (smfInternalWriten results buf).passed.length

/-- `write()` takes nothing while `left` bytes or more of the `nbyte` are still to go. -/
def TakesNothing (results : List WriteResult) (nbyte left : Nat) : Prop :=
  ∃ pre post, results = pre ++ .took 0 :: post ∧ (∀ r ∈ pre, r.goesOn = true) ∧
    taken pre + left ≤ nbyte

/-- The count is true unless `write()` takes nothing with two bytes or more to go. -/
theorem writen_reports_iff :
    ReportsCount results buf ↔ ¬ TakesNothing results buf.length 2 := by
  constructor
  · rintro ⟨-, hret⟩ ⟨pre, post, rfl, hpre, hleft⟩
    have hpost : ∀ r ∈ (WriteResult.took 0 :: post).head?, r.goesOn = false := by
      rintro r ⟨⟩
      rfl
    rw [smfInternalWriten_eq hpre hpost, if_neg (by omega)] at hret
    have hcount := hret _ rfl (Int.natCast_nonneg _)
    rw [List.length_take] at hcount
    omega
  · intro hno
    obtain ⟨pre, post, rfl, hpre, hpost⟩ := exists_stop results
    rw [ReportsCount, smfInternalWriten_eq hpre hpost]
    refine ⟨List.take_prefix _ _, fun r hr hnonneg => ?_⟩
    rw [List.length_take]
    split at hr
    · obtain rfl := Option.some.inj hr
      omega
    · rename_i hshort
      match post with
      | [] => cases hr
      | .took count :: post =>
        obtain rfl : count = 0 := Nat.eq_zero_of_not_pos (of_decide_eq_false (hpost _ rfl))
        have hlast : ¬ taken pre + 2 ≤ buf.length := fun h => hno ⟨pre, post, rfl, hpre, h⟩
        obtain rfl := Option.some.inj hr
        omega
      | .eintr :: post => cases hr
      | .error :: post =>
        obtain rfl := Option.some.inj hr
        exact absurd hnonneg (by decide)

/-- A reply of which nothing goes out, counted as all of it but one byte. -/
theorem writen_overcounts :
    smfInternalWriten [.took 0] (ascii "250 OK\r\n") = ⟨[], some 7⟩ ∧
      ¬ ReportsCount [.took 0] (ascii "250 OK\r\n") := by
  have hrun : smfInternalWriten [.took 0] (ascii "250 OK\r\n") = ⟨[], some 7⟩ := by decide
  refine ⟨hrun, fun hreports => ?_⟩
  have hcount := hreports.2 7 (by rw [hrun]) (by decide)
  rw [hrun] at hcount
  exact absurd hcount (by decide)

/-- The check of `smf_smtpd_string_reply` finds every reply that did not go out whole. -/
theorem writen_whole_iff :
    (smfInternalWriten results buf).ret = some (buf.length : Int) ↔
      (smfInternalWriten results buf).passed = buf := by
  obtain ⟨pre, post, rfl, hpre, hpost⟩ := exists_stop results
  rw [smfInternalWriten_eq hpre hpost, List.take_eq_self_iff]
  split
  · rename_i hle
    exact iff_of_true rfl hle
  · rename_i hshort
    refine iff_of_false (fun hret => ?_) hshort
    match post with
    | [] => cases hret
    | .took count :: post =>
      have hlast := Option.some.inj hret
      omega
    | .eintr :: post => cases hret
    | .error :: post =>
      have hlast := Option.some.inj hret
      omega

end

end Spmfilter

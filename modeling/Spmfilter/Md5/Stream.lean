import Spmfilter.Lib.Blocks
import Spmfilter.Lib.Buffer
import Spmfilter.Md5

/-!
# MD5 of a stream

`md5_init`, `md5_append` and `md5_finish` on the state of the source, with the partial block in
a buffer of 64 bytes, and `smf_core_md5sum`.  A call that leaves one of the blocks of memory it
works on gives `none`.

* `md5Append` and `md5Finish` are the functions; `Md5Holds` is what a state says about the bytes
  appended so far.
* `md5Append_holds` is one call, and `md5Appends_holds` a run of them.
* `md5Digest` is the digest of a message in one piece: padded, cut into blocks, one after the
  other.
-/

namespace Spmfilter

open CString Buffers Chunks Blocks

structure Md5State where
  /-- `count[0]` and `count[1]`, the length in bits. -/
  count : UInt32 × UInt32
  abcd : Md5Words
  buf : Buffer

/-- The start values of the four registers. -/
def md5Start : Md5Words :=
  ⟨0x67452301, T_MASK ^^^ 0x10325476, T_MASK ^^^ 0x67452301, 0x10325476⟩

/-- The buffer stays as it is. -/
def md5Init (pms : Md5State) : Md5State :=
  { pms with count := (0, 0), abcd := md5Start }

/-- The loop over the full blocks of `data` from `p` on: the registers, `p` and `left` behind it. -/
def md5FullBlocks (order : ByteOrder) (data : Buffer) (abcd : Md5Words) (p left : Nat) :
    Option (Md5Words × Nat × Nat) :=
  if 64 ≤ left then
    (data.read p 64).bind fun block =>
      md5FullBlocks order data (md5Process order abcd block) (p + 64) (left - 64)
  else some (abcd, p, left)
termination_by left

/-- `md5_append` from its loop on: the full blocks, and what is left into the buffer. -/
def md5AppendRest (order : ByteOrder) (pms : Md5State) (data : Buffer) (p left : Nat) :
    Option Md5State :=
  (md5FullBlocks order data pms.abcd p left).bind fun (abcd, p, left) =>
    if left = 0 then some { pms with abcd := abcd }
    else (data.read p left).bind fun bytes => (pms.buf.write 0 bytes).map fun buf =>
      { pms with abcd := abcd, buf := buf }

/-- `md5_append` behind the update of the length, with `offset` bytes of a block in the buffer. -/
def md5AppendBytes (order : ByteOrder) (pms : Md5State) (data : Buffer) (offset nbytes : Nat) :
    Option Md5State :=
  if offset = 0 then md5AppendRest order pms data 0 nbytes
  else
    let copy := if 64 < offset + nbytes then 64 - offset else nbytes
    (data.read 0 copy).bind fun bytes => (pms.buf.write offset bytes).bind fun buf =>
      if offset + copy < 64 then some { pms with buf := buf }
      else
        let abcd := md5Process order pms.abcd buf.cells
        md5AppendRest order { pms with abcd := abcd, buf := buf } data copy (nbytes - copy)

/-- The call is not defined where `nbytes << 3` overflows an `int`. -/
def md5Append (order : ByteOrder) (pms : Md5State) (data : Buffer) (nbytes : Int) :
    Option Md5State :=
  let offset := ((pms.count.1 >>> 3) &&& 63).toNat
  let nbits := UInt32.ofInt (nbytes * 8)
  if nbytes * 8 < -2 ^ 31 ∨ 2 ^ 31 ≤ nbytes * 8 then none
  else if nbytes ≤ 0 then some pms
  else
    let high := pms.count.2 + UInt32.ofInt (nbytes >>> (29 : Nat))
    let low := pms.count.1 + nbits
    let high := if low < nbits then high + 1 else high
    md5AppendBytes order { pms with count := (low, high) } data offset nbytes.toNat

/-- `(md5_byte_t)(words[i >> 2] >> ((i & 3) << 3))` for `i` from `0` on. -/
def wordBytes (words : List UInt32) : Bytes :=
  words.flatMap fun w : UInt32 =>
    [w.toUInt8, (w >>> 8).toUInt8, (w >>> 16).toUInt8, (w >>> 24).toUInt8]

def md5Pad : Bytes := 0x80 :: List.replicate 63 0

def md5Finish (order : ByteOrder) (pms : Md5State) : Option (Md5State × Bytes) :=
  let data := wordBytes [pms.count.1, pms.count.2]
  let padding := (((55 : UInt32) - (pms.count.1 >>> 3)) &&& 63) + 1
  (md5Append order pms ⟨md5Pad⟩ padding.toNat).bind fun pms =>
    (md5Append order pms ⟨data⟩ 8).map fun pms =>
      (pms, wordBytes [pms.abcd.a, pms.abcd.b, pms.abcd.c, pms.abcd.d])

/-- What `"%02x"` prints. -/
def hexByte (b : UInt8) : Bytes :=
  let digit := fun d : UInt8 => if d < 10 then 48 + d else 87 + d
  [digit (b / 16), digit (b % 16)]

/-- The length of the string becomes an `int`.  `state` is what the stack held before. -/
def smfCoreMd5sum (order : ByteOrder) (state : Md5State) (data : CStr) : Option Bytes :=
  let nbytes := Int.bmod data.val.length (2 ^ 32)
  (md5Append order (md5Init state) (Buffer.ofStr data) nbytes).bind fun state =>
    (md5Finish order state).map fun (_, digest) => digest.flatMap hexByte

/-! ## The message in one piece -/

/-- The bits of a message of `n` bytes, as two words. -/
def bitCount (n : Nat) : UInt32 × UInt32 :=
  (UInt32.ofNat (8 * n), UInt32.ofNat (8 * n / 2 ^ 32))

/-- A one bit, zeros up to eight bytes in front of the end of a block, and the length. -/
def md5Padding (n : Nat) : Bytes :=
  0x80 :: List.replicate ((119 - n % 64) % 64) 0 ++ wordBytes [(bitCount n).1, (bitCount n).2]

/-- The digest of a message. -/
def md5Digest (msg : Bytes) : Bytes :=
  let r := (chunks 63 (msg ++ md5Padding msg.length)).foldl md5Block md5Start
  wordBytes [r.a, r.b, r.c, r.d]

/-! ## What a state holds -/

/-- The bytes `msg` have been appended. -/
structure Md5Holds (msg : Bytes) (pms : Md5State) : Prop where
  count : pms.count = bitCount msg.length
  size : pms.buf.size = 64
  absorbed : absorb 63 md5Block (md5Start, []) msg =
    (pms.abcd, pms.buf.cells.take (msg.length % 64))

theorem md5Init_holds {pms : Md5State} (h : pms.buf.size = 64) : Md5Holds [] (md5Init pms) :=
  ⟨rfl, h, rfl⟩

/-! ## The length -/

theorem toNat_bitCount (n : Nat) :
    (bitCount n).1.toNat = 8 * n % 2 ^ 32 ∧ (bitCount n).2.toNat = 8 * n / 2 ^ 32 % 2 ^ 32 :=
  ⟨UInt32.toNat_ofNat', UInt32.toNat_ofNat'⟩

/-- Where in the buffer the next byte goes. -/
theorem offset_bitCount (n : Nat) : (((bitCount n).1 >>> 3) &&& 63).toNat = n % 64 := by
  have hlow := (toNat_bitCount n).1
  rw [UInt32.toNat_and, UInt32.toNat_shiftRight, hlow]
  have hmask := Nat.and_two_pow_sub_one_eq_mod ((8 * n % 2 ^ 32) >>> 3) 6
  calc (8 * n % 2 ^ 32) >>> 3 &&& 63 = (8 * n % 2 ^ 32) >>> 3 % 2 ^ 6 := hmask
    _ = n % 64 := by rw [Nat.shiftRight_eq_div_pow]; omega

theorem ofInt_natCast (m : Nat) : UInt32.ofInt (m : Int) = UInt32.ofNat m := by
  apply UInt32.toNat_inj.mp
  rw [UInt32.ofInt, UInt32.toNat_ofNat', UInt32.toNat_ofNat']
  omega

/-- The update of the length, with its carry. -/
theorem bitCount_add {n m : Nat} (h : 8 * m < 2 ^ 32) :
    let low := (bitCount n).1 + UInt32.ofInt ((m : Int) * 8)
    let high := (bitCount n).2 + UInt32.ofInt ((m : Int) >>> (29 : Nat))
    bitCount (n + m) = (low, if low < UInt32.ofInt ((m : Int) * 8) then high + 1 else high) := by
  have hbits : UInt32.ofInt ((m : Int) * 8) = UInt32.ofNat (8 * m) := by
    rw [← ofInt_natCast]; congr 1; omega
  have hover : UInt32.ofInt ((m : Int) >>> (29 : Nat)) = 0 := by
    rw [Int.shiftRight_eq_div_pow, show (m : Int) / (2 ^ 29 : Nat) = (0 : Nat) by omega,
      ofInt_natCast]
    rfl
  have hn := toNat_bitCount n
  have hm : (UInt32.ofNat (8 * m)).toNat = 8 * m := by
    rw [UInt32.toNat_ofNat', Nat.mod_eq_of_lt h]
  simp only [hbits, hover]
  have hlow : ((bitCount n).1 + UInt32.ofNat (8 * m)).toNat = 8 * (n + m) % 2 ^ 32 := by
    rw [UInt32.toNat_add, hn.1, hm]; omega
  apply Prod.ext
  · apply UInt32.toNat_inj.mp
    rw [(toNat_bitCount (n + m)).1, hlow]
  · apply UInt32.toNat_inj.mp
    rw [(toNat_bitCount (n + m)).2]
    simp only [UInt32.lt_iff_toNat_lt, hlow, hm]
    split
    · rename_i hcarry
      rw [UInt32.toNat_add, UInt32.toNat_add, hn.2]
      have : (0 : UInt32).toNat = 0 ∧ (1 : UInt32).toNat = 1 := by decide
      omega
    · rename_i hcarry
      rw [UInt32.toNat_add, hn.2]
      have : (0 : UInt32).toNat = 0 := by decide
      omega

/-! ## The bytes -/

/-- The loop over the full blocks. -/
theorem md5FullBlocks_absorb (order : ByteOrder) {data : Buffer} {abcd : Md5Words} {p left : Nat}
    (h : p + left ≤ data.size) :
    ∃ abcd', md5FullBlocks order data abcd p left =
        some (abcd', p + (left - left % 64), left % 64) ∧
      absorb 63 md5Block (abcd, []) ((data.cells.drop p).take left) =
        (abcd', (data.cells.drop (p + (left - left % 64))).take (left % 64)) := by
  induction left using Nat.strongRecOn generalizing abcd p with
  | ind left ih =>
    rw [Buffer.size] at h
    rw [md5FullBlocks]
    by_cases hfull : 64 ≤ left
    · have hread : data.read p 64 = some ((data.cells.drop p).take 64) :=
        if_pos ⟨Int.natCast_nonneg p, by rw [Buffer.size, Int.toNat_natCast]; omega⟩
      obtain ⟨abcd', hrun, habsorb⟩ := @ih (left - 64) (by omega)
        (md5Process order abcd ((data.cells.drop p).take 64)) (p + 64) (by rw [Buffer.size]; omega)
      have hmod : (left - 64) % 64 = left % 64 := by omega
      have hpos : p + 64 + (left - 64 - (left - 64) % 64) = p + (left - left % 64) := by omega
      have hlen : ((data.cells.drop p).take 64).length = 63 + 1 := by
        rw [List.length_take, List.length_drop]; omega
      have hsplit : (data.cells.drop p).take left =
          (data.cells.drop p).take 64 ++ (data.cells.drop (p + 64)).take (left - 64) := by
        rw [← List.drop_drop, ← List.take_add, Nat.add_sub_cancel' hfull]
      refine ⟨abcd', ?_, ?_⟩
      · rw [if_pos hfull, hread, Option.bind_some, hrun, hpos, hmod]
      · rw [hsplit, absorb_block_append hlen, ← md5Process_eq order, habsorb, hpos, hmod]
    · have hmod : left % 64 = left := Nat.mod_eq_of_lt (by omega)
      refine ⟨abcd, ?_, ?_⟩
      · rw [if_neg hfull, hmod, Nat.sub_self, Nat.add_zero]
      · rw [hmod, Nat.sub_self, Nat.add_zero]
        exact absorb_short (by rw [List.length_nil, List.length_take]; omega)

theorem read_eq {b : Buffer} {p n : Nat} (h : p + n ≤ b.size) :
    b.read p n = some ((b.cells.drop p).take n) :=
  if_pos ⟨Int.natCast_nonneg p, h⟩

/-- A stretch is copied behind the first `p` bytes. -/
theorem write_eq {b : Buffer} {p : Nat} {bytes : Bytes} (h : p + bytes.length ≤ b.size) :
    ∃ b', b.write p bytes = some b' ∧ b'.size = b.size ∧
      b'.cells.take (p + bytes.length) = b.cells.take p ++ bytes := by
  have hwrite : b.write p bytes =
      some ⟨b.cells.take p ++ bytes ++ b.cells.drop (p + bytes.length)⟩ :=
    if_pos ⟨Int.natCast_nonneg p, h⟩
  have hfront : (b.cells.take p ++ bytes).length = p + bytes.length := by
    rw [Buffer.size] at h
    rw [List.length_append, List.length_take_of_le (by omega)]
  exact ⟨_, hwrite, Buffer.size_write hwrite, List.take_left' hfront⟩

theorem md5AppendRest_absorb (order : ByteOrder) {pms : Md5State} {data : Buffer} {p left : Nat}
    (hsize : pms.buf.size = 64) (hdata : p + left ≤ data.size) :
    ∃ abcd buf, md5AppendRest order pms data p left = some { pms with abcd := abcd, buf := buf } ∧
      buf.size = 64 ∧
      absorb 63 md5Block (pms.abcd, []) ((data.cells.drop p).take left) =
        (abcd, buf.cells.take (left % 64)) := by
  obtain ⟨abcd, hrun, habsorb⟩ := @md5FullBlocks_absorb order data pms.abcd p left hdata
  rw [md5AppendRest, hrun, Option.bind_some]
  by_cases hleft : left % 64 = 0
  · refine ⟨abcd, pms.buf, if_pos hleft, hsize, ?_⟩
    rw [habsorb, hleft, List.take_zero, List.take_zero]
  · have hmod : left % 64 < 64 := Nat.mod_lt _ (by omega)
    have hread := read_eq (b := data) (p := p + (left - left % 64)) (n := left % 64) (by omega)
    have hlen : ((data.cells.drop (p + (left - left % 64))).take (left % 64)).length =
        left % 64 := by
      rw [Buffer.size] at hdata
      rw [List.length_take, List.length_drop]; omega
    obtain ⟨buf, hwrite, hbuf, htake⟩ := @write_eq pms.buf 0
      ((data.cells.drop (p + (left - left % 64))).take (left % 64)) (by omega)
    rw [Nat.zero_add, hlen, List.take_zero, List.nil_append] at htake
    refine ⟨abcd, buf, ?_, hbuf.trans hsize, ?_⟩
    · dsimp only
      rw [if_neg hleft, hread, Option.bind_some]
      exact (congrArg (Option.map _) hwrite).trans rfl
    · rw [habsorb, htake]

/-- What an appended stretch does to the registers and the buffer. -/
theorem md5AppendBytes_absorb (order : ByteOrder) {pms : Md5State} {data : Buffer}
    {offset nbytes : Nat} (hsize : pms.buf.size = 64) (hoffset : offset < 64)
    (hdata : nbytes ≤ data.size) :
    ∃ abcd buf, md5AppendBytes order pms data offset nbytes =
        some { pms with abcd := abcd, buf := buf } ∧ buf.size = 64 ∧
      absorb 63 md5Block (pms.abcd, pms.buf.cells.take offset) (data.cells.take nbytes) =
        (abcd, buf.cells.take ((offset + nbytes) % 64)) := by
  rw [md5AppendBytes]
  by_cases hzero : offset = 0
  · subst hzero
    obtain ⟨abcd, buf, hrun, hbuf, habsorb⟩ :=
      @md5AppendRest_absorb order pms data 0 nbytes hsize (by omega)
    exact ⟨abcd, buf, by rw [if_pos rfl, hrun], hbuf, by
      rw [List.take_zero, Nat.zero_add]; exact habsorb⟩
  · rw [if_neg hzero]
    have hheld : (pms.buf.cells.take offset).length = offset := by
      rw [Buffer.size] at hsize
      rw [List.length_take_of_le (by omega)]
    generalize hcopy : (if 64 < offset + nbytes then 64 - offset else nbytes) = copy
    have hle : copy ≤ nbytes ∧ offset + copy ≤ 64 := by
      rw [← hcopy]; split <;> omega
    have hread : data.read 0 copy = some (data.cells.take copy) :=
      read_eq (p := 0) (by omega)
    have hlen : (data.cells.take copy).length = copy := by
      rw [Buffer.size] at hdata
      rw [List.length_take_of_le (by omega)]
    obtain ⟨buf, hwrite, hbuf, htake⟩ := @write_eq pms.buf offset (data.cells.take copy) (by omega)
    rw [hlen] at htake
    by_cases hfill : offset + copy < 64
    · -- the stretch ends in the partial block
      have hall : copy = nbytes := by
        rw [← hcopy] at hfill ⊢; split at hfill <;> split <;> omega
      subst hall
      refine ⟨pms.abcd, buf, ?_, hbuf.trans hsize, ?_⟩
      · simp only [hread, Option.bind_some, hwrite, if_pos hfill]
      · rw [absorb_short (by omega), Nat.mod_eq_of_lt hfill, htake]
    · -- the partial block is filled up and taken, then the rest
      have hwhole : buf.cells = pms.buf.cells.take offset ++ data.cells.take copy := by
        rw [← htake, List.take_of_length_le (by rw [← Buffer.size]; omega)]
      obtain ⟨abcd, buf', hrun, hbuf', habsorb⟩ :=
        @md5AppendRest_absorb order
          { pms with abcd := md5Process order pms.abcd buf.cells, buf := buf } data copy
          (nbytes - copy) (hbuf.trans hsize) (by omega)
      have hmod : (nbytes - copy) % 64 = (offset + nbytes) % 64 := by omega
      have hsplit : data.cells.take nbytes =
          data.cells.take copy ++ (data.cells.drop copy).take (nbytes - copy) := by
        rw [← List.take_add, Nat.add_sub_cancel' (by omega)]
      have hne : data.cells.take copy ≠ [] := by
        intro hnil
        rw [hnil, List.length_nil] at hlen
        omega
      refine ⟨abcd, buf', ?_, hbuf', ?_⟩
      · simp only [hread, Option.bind_some, hwrite, if_neg hfill, hrun]
      · rw [hsplit, absorb_append, absorb_full (by omega) hne, ← hwhole, ← md5Process_eq order,
          habsorb, hmod]

/-! ## Calls -/

/-- One call of `md5_append`. -/
theorem md5Append_holds (order : ByteOrder) {msg : Bytes} {pms : Md5State} {data : Buffer} {n : Nat}
    (h : Md5Holds msg pms) (hdata : n ≤ data.size) (hint : 8 * n < 2 ^ 31) :
    ∃ pms', md5Append order pms data n = some pms' ∧ Md5Holds (msg ++ data.cells.take n) pms' := by
  have hlen : (msg ++ data.cells.take n).length = msg.length + n := by
    rw [Buffer.size] at hdata
    rw [List.length_append, List.length_take_of_le hdata]
  rw [md5Append, if_neg (by omega)]
  by_cases hzero : n = 0
  · subst hzero
    exact ⟨pms, if_pos (Int.le_refl 0), by rwa [List.take_zero, List.append_nil]⟩
  · have hcount := @bitCount_add msg.length n (by omega)
    have hoffset := offset_bitCount msg.length
    obtain ⟨abcd, buf, hrun, hbuf, habsorb⟩ :=
      @md5AppendBytes_absorb order { pms with count := bitCount (msg.length + n) } data
        (msg.length % 64) n h.size (Nat.mod_lt _ (by omega)) hdata
    refine ⟨⟨bitCount (msg.length + n), abcd, buf⟩, ?_, ?_, hbuf, ?_⟩
    · rw [if_neg (by omega), h.count]
      simp only [← hcount, hoffset, Int.toNat_natCast]
      exact hrun
    · rw [hlen]
    · rw [absorb_append, h.absorbed, habsorb, hlen, Nat.mod_add_mod]

/-- The calls of `md5_append` for the pieces of a message. -/
def md5Appends (order : ByteOrder) (pms : Md5State) (pieces : List Bytes) : Option Md5State :=
  pieces.foldlM (fun pms piece => md5Append order pms ⟨piece⟩ piece.length) pms

theorem md5Appends_holds (order : ByteOrder) {msg : Bytes} {pms : Md5State} (pieces : List Bytes)
    (h : Md5Holds msg pms) (hint : ∀ piece ∈ pieces, 8 * piece.length < 2 ^ 31) :
    ∃ pms', md5Appends order pms pieces = some pms' ∧ Md5Holds (msg ++ pieces.flatten) pms' := by
  induction pieces generalizing msg pms with
  | nil => exact ⟨pms, rfl, by rwa [List.flatten_nil, List.append_nil]⟩
  | cons piece pieces ih =>
    have hpiece := hint piece List.mem_cons_self
    obtain ⟨pms₁, happend, h₁⟩ := @md5Append_holds order msg pms ⟨piece⟩ _ h (Nat.le_refl _) hpiece
    obtain ⟨pms', hrest, h'⟩ := ih h₁ fun p hp => hint p (List.mem_cons_of_mem _ hp)
    refine ⟨pms', ?_, ?_⟩
    · rw [md5Appends, List.foldlM_cons]
      have hbind : (md5Append order pms ⟨piece⟩ piece.length).bind
          (fun pms => md5Appends order pms pieces) = some pms' := by
        rw [show md5Append order pms ⟨piece⟩ piece.length = some pms₁ from happend,
          Option.bind_some, hrest]
      exact hbind
    · have hwhole : List.take piece.length piece = piece := List.take_length
      rwa [show (⟨piece⟩ : Buffer).cells = piece from rfl, Buffer.size, hwhole,
        List.append_assoc, ← List.flatten_cons] at h'

/-- How many bytes of `pad` are appended. -/
theorem toNat_padding (n : Nat) :
    ((((55 : UInt32) - ((bitCount n).1 >>> 3)) &&& 63) + 1).toNat = (119 - n % 64) % 64 + 1 := by
  have hlow : ((bitCount n).1 >>> 3).toNat = 8 * n % 2 ^ 32 / 8 := by
    rw [UInt32.toNat_shiftRight, (toNat_bitCount n).1]
    exact Nat.shiftRight_eq_div_pow _ 3
  have hmask : ∀ x : UInt32, (x &&& 63).toNat = x.toNat % 64 := by
    intro x
    rw [UInt32.toNat_and]
    exact Nat.and_two_pow_sub_one_eq_mod x.toNat 6
  rw [UInt32.toNat_add, hmask, UInt32.toNat_sub, hlow]
  have : (55 : UInt32).toNat = 55 ∧ (1 : UInt32).toNat = 1 := by decide
  omega

theorem take_md5Pad {n : Nat} (h : n < 64) :
    md5Pad.take (n + 1) = 0x80 :: List.replicate n 0 := by
  rw [md5Pad, List.take_succ_cons, List.take_replicate, Nat.min_eq_left (by omega)]

theorem length_wordBytes (words : List UInt32) : (wordBytes words).length = 4 * words.length := by
  induction words with
  | nil => rfl
  | cons w words ih =>
    rw [wordBytes, List.flatMap_cons, List.length_append, ← wordBytes, ih, List.length_cons]
    simp only [List.length_cons, List.length_nil]
    omega

theorem length_md5Padding (n : Nat) : (63 + 1) ∣ n + (md5Padding n).length := by
  rw [md5Padding, List.length_append, List.length_cons, List.length_replicate, length_wordBytes,
    List.length_cons, List.length_singleton]
  omega

/-- `md5_finish` gives the digest of the bytes that were appended. -/
theorem md5Finish_digest (order : ByteOrder) {msg : Bytes} {pms : Md5State}
    (h : Md5Holds msg pms) : ∃ pms', md5Finish order pms = some (pms', md5Digest msg) := by
  have hpadding := toNat_padding msg.length
  have hlt : (119 - msg.length % 64) % 64 < 64 := Nat.mod_lt _ (by omega)
  obtain ⟨pms₁, hpad, h₁⟩ := @md5Append_holds order msg pms ⟨md5Pad⟩
    ((119 - msg.length % 64) % 64 + 1) h
    (by rw [Buffer.size, md5Pad, List.length_cons, List.length_replicate]; omega) (by omega)
  rw [take_md5Pad hlt] at h₁
  have hbytes : (wordBytes [(bitCount msg.length).1, (bitCount msg.length).2]).length = 8 :=
    length_wordBytes _
  obtain ⟨pms₂, hlength, h₂⟩ := @md5Append_holds order _ pms₁
    ⟨wordBytes [(bitCount msg.length).1, (bitCount msg.length).2]⟩ 8 h₁
    (by rw [Buffer.size, hbytes]) (by omega)
  rw [List.take_of_length_le (Nat.le_of_eq hbytes), List.append_assoc, ← md5Padding] at h₂
  have hwhole := h₂.absorbed
  rw [absorb_blocks _ (by rw [List.length_append]; exact length_md5Padding _)] at hwhole
  have habcd : (chunks 63 (msg ++ md5Padding msg.length)).foldl md5Block md5Start = pms₂.abcd :=
    congrArg Prod.fst hwhole
  refine ⟨pms₂, ?_⟩
  rw [md5Finish, h.count]
  simp only [hpadding, hpad, Option.bind_some]
  rw [show md5Append order pms₁ ⟨wordBytes [(bitCount msg.length).1, (bitCount msg.length).2]⟩ 8 =
    some pms₂ from hlength, Option.map_some, md5Digest, habcd]

/-- The digest of a message is the same however it is cut into calls of `md5_append`, whatever
the buffer held before and whatever the byte order of the machine is. -/
theorem md5_pieces (order : ByteOrder) {pms : Md5State} (hsize : pms.buf.size = 64)
    {pieces : List Bytes} (hint : ∀ piece ∈ pieces, 8 * piece.length < 2 ^ 31) :
    ((md5Appends order (md5Init pms) pieces).bind fun pms => (md5Finish order pms).map Prod.snd) =
      some (md5Digest pieces.flatten) := by
  obtain ⟨pms₁, happend, h₁⟩ := md5Appends_holds order pieces (md5Init_holds hsize) hint
  obtain ⟨pms₂, hfinish⟩ := md5Finish_digest order h₁
  rw [happend, Option.bind_some, hfinish, Option.map_some, List.nil_append]

/-- The message in three calls, on a machine of the other byte order. -/
theorem md5_pieces_test :
    ((md5Appends .big (md5Init ⟨(7, 7), ⟨1, 2, 3, 4⟩, ⟨List.replicate 64 255⟩⟩)
        [ascii "Test", [], ascii " string"]).bind fun pms =>
      (md5Finish .big pms).map Prod.snd) = some (md5Digest (ascii "Test string")) :=
  md5_pieces .big (by decide) (by decide)

/-- A length that an `int` turns negative is one of no bytes. -/
theorem md5Append_of_nonpos (order : ByteOrder) (pms : Md5State) (data : Buffer) {n : Int}
    (hle : n ≤ 0) (hint : -2 ^ 31 ≤ n * 8) : md5Append order pms data n = some pms := by
  rw [md5Append, if_neg (by omega), if_pos hle]

theorem length_flatMap_hexByte (bytes : Bytes) :
    (bytes.flatMap hexByte).length = 2 * bytes.length := by
  induction bytes with
  | nil => rfl
  | cons b bytes ih =>
    rw [List.flatMap_cons, List.length_append, ih, List.length_cons, hexByte]
    simp only [List.length_cons, List.length_nil]
    omega

/-- The call that `smf_core_md5sum` makes. -/
theorem md5Append_str (order : ByteOrder) {pms : Md5State} (hsize : pms.buf.size = 64)
    (data : CStr) {n : Int} (hn : Int.bmod data.val.length (2 ^ 32) = n)
    (hint : -2 ^ 31 ≤ n * 8 ∧ n * 8 < 2 ^ 31) :
    ∃ pms', md5Append order (md5Init pms) (Buffer.ofStr data) n = some pms' ∧
      Md5Holds (data.val.take n.toNat) pms' := by
  have hstart := md5Init_holds hsize
  by_cases hpos : 0 ≤ n
  · obtain ⟨m, rfl⟩ := Int.eq_ofNat_of_zero_le hpos
    have hle : m ≤ data.val.length := by
      have hmod := Int.bmod_emod (x := data.val.length) (m := 2 ^ 32)
      rw [hn] at hmod
      omega
    obtain ⟨pms', happend, h'⟩ := @md5Append_holds order [] (md5Init pms) (Buffer.ofStr data) m
      hstart (by rw [Buffer.size_ofStr]; omega) (by omega)
    refine ⟨pms', happend, ?_⟩
    rwa [Buffer.ofStr, List.take_append_of_le_length hle, List.nil_append] at h'
  · refine ⟨md5Init pms, md5Append_of_nonpos order _ _ (by omega) hint.1, ?_⟩
    rwa [Int.toNat_of_nonpos (by omega), List.take_zero]

/-- `smf_core_md5sum` of every string.  Where its length, made an `int`, is one that `md5_append`
can turn into bits, 32 characters are printed: the digest of as much of the string as the `int`
says, and of no bytes where it is negative.  For every other length the call is not defined. -/
theorem smfCoreMd5sum_digest (order : ByteOrder) {state : Md5State} (hsize : state.buf.size = 64)
    (data : CStr) :
    let n := Int.bmod data.val.length (2 ^ 32)
    (smfCoreMd5sum order state data =
      if -2 ^ 28 ≤ n ∧ n < 2 ^ 28 then
        some ((md5Digest (data.val.take n.toNat)).flatMap hexByte)
      else none) ∧
    ((md5Digest (data.val.take n.toNat)).flatMap hexByte).length = 32 ∧
    (data.val.length < 2 ^ 28 →
      smfCoreMd5sum order state data = some ((md5Digest data.val).flatMap hexByte)) := by
  intro n
  have hprints : smfCoreMd5sum order state data =
      if -2 ^ 28 ≤ n ∧ n < 2 ^ 28 then
        some ((md5Digest (data.val.take n.toNat)).flatMap hexByte)
      else none := by
    rw [smfCoreMd5sum]
    split_ifs with hint
    · obtain ⟨state₁, happend, h₁⟩ := md5Append_str order hsize data (n := n) rfl (by omega)
      obtain ⟨state₂, hfinish⟩ := md5Finish_digest order h₁
      show (md5Append order (md5Init state) (Buffer.ofStr data) n).bind _ = _
      rw [happend, Option.bind_some, hfinish, Option.map_some]
    · show (md5Append order (md5Init state) (Buffer.ofStr data) n).bind _ = none
      rw [md5Append, if_pos (by omega), Option.bind_none]
  refine ⟨hprints, ?_, fun hshort => ?_⟩
  · rw [length_flatMap_hexByte, md5Digest, length_wordBytes]
    rfl
  · have hwhole : n = data.val.length :=
      Int.bmod_eq_of_le (by omega) (by omega)
    rw [hprints, hwhole, if_pos (by omega), Int.toNat_natCast, List.take_length]

theorem smfCoreMd5sum_digest_test :
    smfCoreMd5sum .little ⟨(7, 7), ⟨1, 2, 3, 4⟩, ⟨List.replicate 64 255⟩⟩
        ⟨ascii "Test string", by decide⟩ =
      some ((md5Digest (ascii "Test string")).flatMap hexByte) :=
  (smfCoreMd5sum_digest .little (by decide) ⟨ascii "Test string", by decide⟩).2.2 (by decide)

end Spmfilter

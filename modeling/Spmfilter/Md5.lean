import Mathlib.Algebra.Ring.Int.Defs
import Mathlib.Algebra.Ring.Nat
import Spmfilter.Lib.CString

/-!
# The block function of MD5

`md5_process` with its 64 steps written out.  The source reads the sixteen words of a block
straight out of memory on a little-endian machine and puts them together by hand on a
big-endian one.

* `md5Process` is the function, step by step as the macros give it.
* `md5Turn` is the loop form of one step, with a formula for the word and tables for the shift
  and the constant, and `md5Block` the 64 turns of it.
* `md5Word_big` says that both kinds of machine see the same words.
-/

namespace Spmfilter

open CString

/-! ## Words -/

inductive Md5Register where
  | a
  | b
  | c
  | d
deriving Repr, DecidableEq

namespace Md5Register

/-- The register behind this one, and behind `d` again the first. -/
def next : Md5Register → Md5Register
  | a => b
  | b => c
  | c => d
  | d => a

end Md5Register

/-- The four registers, `md5_word_t abcd[4]`. -/
structure Md5Words where
  a : UInt32
  b : UInt32
  c : UInt32
  d : UInt32
deriving Repr, DecidableEq

namespace Md5Words

def get (r : Md5Words) : Md5Register → UInt32
  | .a => r.a
  | .b => r.b
  | .c => r.c
  | .d => r.d

def put (r : Md5Words) (reg : Md5Register) (x : UInt32) : Md5Words :=
  match reg with
  | .a => { r with a := x }
  | .b => { r with b := x }
  | .c => { r with c := x }
  | .d => { r with d := x }

/-- The four additions at the end of a block. -/
def add (r s : Md5Words) : Md5Words :=
  ⟨r.a + s.a, r.b + s.b, r.c + s.c, r.d + s.d⟩

end Md5Words

inductive ByteOrder where
  | little
  | big
deriving Repr, DecidableEq

/-- Word `i` of a block.  A little-endian machine loads the four bytes at once, the first one as
the lowest; for a big-endian one the code adds them up. -/
def md5Word (order : ByteOrder) (data : Bytes) (i : Nat) : UInt32 :=
  let xp := fun j => data.getD (4 * i + j) 0
  match order with
  | .little => ⟨(xp 3).toBitVec ++ (xp 2).toBitVec ++ (xp 1).toBitVec ++ (xp 0).toBitVec⟩
  | .big => (xp 0).toUInt32 + ((xp 1).toUInt32 <<< 8) + ((xp 2).toUInt32 <<< 16) +
      ((xp 3).toUInt32 <<< 24)

def T_MASK : UInt32 := 0xffffffff

/-- The constants `T1` to `T64`. -/
def md5Table : List UInt32 :=
  [T_MASK ^^^ 0x28955b87, T_MASK ^^^ 0x173848a9, 0x242070db, T_MASK ^^^ 0x3e423111,
   T_MASK ^^^ 0x0a83f050, 0x4787c62a, T_MASK ^^^ 0x57cfb9ec, T_MASK ^^^ 0x02b96afe, 0x698098d8,
   T_MASK ^^^ 0x74bb0850, T_MASK ^^^ 0x0000a44e, T_MASK ^^^ 0x76a32841, 0x6b901122,
   T_MASK ^^^ 0x02678e6c, T_MASK ^^^ 0x5986bc71, 0x49b40821, T_MASK ^^^ 0x09e1da9d,
   T_MASK ^^^ 0x3fbf4cbf, 0x265e5a51, T_MASK ^^^ 0x16493855, T_MASK ^^^ 0x29d0efa2, 0x02441453,
   T_MASK ^^^ 0x275e197e, T_MASK ^^^ 0x182c0437, 0x21e1cde6, T_MASK ^^^ 0x3cc8f829,
   T_MASK ^^^ 0x0b2af278, 0x455a14ed, T_MASK ^^^ 0x561c16fa, T_MASK ^^^ 0x03105c07, 0x676f02d9,
   T_MASK ^^^ 0x72d5b375, T_MASK ^^^ 0x0005c6bd, T_MASK ^^^ 0x788e097e, 0x6d9d6122,
   T_MASK ^^^ 0x021ac7f3, T_MASK ^^^ 0x5b4115bb, 0x4bdecfa9, T_MASK ^^^ 0x0944b49f,
   T_MASK ^^^ 0x4140438f, 0x289b7ec6, T_MASK ^^^ 0x155ed805, T_MASK ^^^ 0x2b10cf7a, 0x04881d05,
   T_MASK ^^^ 0x262b2fc6, T_MASK ^^^ 0x1924661a, 0x1fa27cf8, T_MASK ^^^ 0x3b53a99a,
   T_MASK ^^^ 0x0bd6ddbb, 0x432aff97, T_MASK ^^^ 0x546bdc58, T_MASK ^^^ 0x036c5fc6, 0x655b59c3,
   T_MASK ^^^ 0x70f3336d, T_MASK ^^^ 0x00100b82, T_MASK ^^^ 0x7a7ba22e, 0x6fa87e4f,
   T_MASK ^^^ 0x01d3191f, T_MASK ^^^ 0x5cfebceb, 0x4e0811a1, T_MASK ^^^ 0x08ac817d,
   T_MASK ^^^ 0x42c50dca, 0x2ad7d2bb, T_MASK ^^^ 0x14792c6e]

/-- `Tn`. -/
def md5T (n : Nat) : UInt32 := md5Table.getD (n - 1) 0

def rotateLeft (x n : UInt32) : UInt32 := (x <<< n) ||| (x >>> (32 - n))

def md5F (x y z : UInt32) : UInt32 := (x &&& y) ||| (~~~x &&& z)

def md5G (x y z : UInt32) : UInt32 := (x &&& z) ||| (y &&& ~~~z)

def md5H (x y z : UInt32) : UInt32 := x ^^^ y ^^^ z

def md5I (x y z : UInt32) : UInt32 := y ^^^ (x ||| ~~~z)

/-- A line `SET(a, b, c, d, k, s, Ti)`. -/
structure SetLine where
  a : Md5Register
  b : Md5Register
  c : Md5Register
  d : Md5Register
  k : Nat
  s : UInt32
  t : Nat
deriving Repr, DecidableEq

/-- The macro `SET` of a round with the function `f`. -/
def md5Set (f : UInt32 → UInt32 → UInt32 → UInt32) (X : Nat → UInt32) (r : Md5Words)
    (line : SetLine) : Md5Words :=
  let t := r.get line.a + f (r.get line.b) (r.get line.c) (r.get line.d) + X line.k + md5T line.t
  r.put line.a (rotateLeft t line.s + r.get line.b)

/-! ## The four rounds -/

def md5Round1 : List SetLine :=
  [⟨.a, .b, .c, .d, 0, 7, 1⟩, ⟨.d, .a, .b, .c, 1, 12, 2⟩,
   ⟨.c, .d, .a, .b, 2, 17, 3⟩, ⟨.b, .c, .d, .a, 3, 22, 4⟩,
   ⟨.a, .b, .c, .d, 4, 7, 5⟩, ⟨.d, .a, .b, .c, 5, 12, 6⟩,
   ⟨.c, .d, .a, .b, 6, 17, 7⟩, ⟨.b, .c, .d, .a, 7, 22, 8⟩,
   ⟨.a, .b, .c, .d, 8, 7, 9⟩, ⟨.d, .a, .b, .c, 9, 12, 10⟩,
   ⟨.c, .d, .a, .b, 10, 17, 11⟩, ⟨.b, .c, .d, .a, 11, 22, 12⟩,
   ⟨.a, .b, .c, .d, 12, 7, 13⟩, ⟨.d, .a, .b, .c, 13, 12, 14⟩,
   ⟨.c, .d, .a, .b, 14, 17, 15⟩, ⟨.b, .c, .d, .a, 15, 22, 16⟩]

def md5Round2 : List SetLine :=
  [⟨.a, .b, .c, .d, 1, 5, 17⟩, ⟨.d, .a, .b, .c, 6, 9, 18⟩,
   ⟨.c, .d, .a, .b, 11, 14, 19⟩, ⟨.b, .c, .d, .a, 0, 20, 20⟩,
   ⟨.a, .b, .c, .d, 5, 5, 21⟩, ⟨.d, .a, .b, .c, 10, 9, 22⟩,
   ⟨.c, .d, .a, .b, 15, 14, 23⟩, ⟨.b, .c, .d, .a, 4, 20, 24⟩,
   ⟨.a, .b, .c, .d, 9, 5, 25⟩, ⟨.d, .a, .b, .c, 14, 9, 26⟩,
   ⟨.c, .d, .a, .b, 3, 14, 27⟩, ⟨.b, .c, .d, .a, 8, 20, 28⟩,
   ⟨.a, .b, .c, .d, 13, 5, 29⟩, ⟨.d, .a, .b, .c, 2, 9, 30⟩,
   ⟨.c, .d, .a, .b, 7, 14, 31⟩, ⟨.b, .c, .d, .a, 12, 20, 32⟩]

def md5Round3 : List SetLine :=
  [⟨.a, .b, .c, .d, 5, 4, 33⟩, ⟨.d, .a, .b, .c, 8, 11, 34⟩,
   ⟨.c, .d, .a, .b, 11, 16, 35⟩, ⟨.b, .c, .d, .a, 14, 23, 36⟩,
   ⟨.a, .b, .c, .d, 1, 4, 37⟩, ⟨.d, .a, .b, .c, 4, 11, 38⟩,
   ⟨.c, .d, .a, .b, 7, 16, 39⟩, ⟨.b, .c, .d, .a, 10, 23, 40⟩,
   ⟨.a, .b, .c, .d, 13, 4, 41⟩, ⟨.d, .a, .b, .c, 0, 11, 42⟩,
   ⟨.c, .d, .a, .b, 3, 16, 43⟩, ⟨.b, .c, .d, .a, 6, 23, 44⟩,
   ⟨.a, .b, .c, .d, 9, 4, 45⟩, ⟨.d, .a, .b, .c, 12, 11, 46⟩,
   ⟨.c, .d, .a, .b, 15, 16, 47⟩, ⟨.b, .c, .d, .a, 2, 23, 48⟩]

def md5Round4 : List SetLine :=
  [⟨.a, .b, .c, .d, 0, 6, 49⟩, ⟨.d, .a, .b, .c, 7, 10, 50⟩,
   ⟨.c, .d, .a, .b, 14, 15, 51⟩, ⟨.b, .c, .d, .a, 5, 21, 52⟩,
   ⟨.a, .b, .c, .d, 12, 6, 53⟩, ⟨.d, .a, .b, .c, 3, 10, 54⟩,
   ⟨.c, .d, .a, .b, 10, 15, 55⟩, ⟨.b, .c, .d, .a, 1, 21, 56⟩,
   ⟨.a, .b, .c, .d, 8, 6, 57⟩, ⟨.d, .a, .b, .c, 15, 10, 58⟩,
   ⟨.c, .d, .a, .b, 6, 15, 59⟩, ⟨.b, .c, .d, .a, 13, 21, 60⟩,
   ⟨.a, .b, .c, .d, 4, 6, 61⟩, ⟨.d, .a, .b, .c, 11, 10, 62⟩,
   ⟨.c, .d, .a, .b, 2, 15, 63⟩, ⟨.b, .c, .d, .a, 9, 21, 64⟩]

def md5Process (order : ByteOrder) (abcd : Md5Words) (data : Bytes) : Md5Words :=
  let X := md5Word order data
  let r := md5Round1.foldl (md5Set md5F X) abcd
  let r := md5Round2.foldl (md5Set md5G X) r
  let r := md5Round3.foldl (md5Set md5H X) r
  let r := md5Round4.foldl (md5Set md5I X) r
  abcd.add r

/-! ## The loop -/

/-- The function, the word and the shift of step `i`. -/
def md5Mix (i : Nat) : UInt32 → UInt32 → UInt32 → UInt32 :=
  if i < 16 then md5F else if i < 32 then md5G else if i < 48 then md5H else md5I

def md5Index (i : Nat) : Nat :=
  (if i < 16 then i else if i < 32 then 5 * i + 1 else if i < 48 then 3 * i + 5 else 7 * i) % 16

def md5Shift (i : Nat) : UInt32 :=
  ([7, 12, 17, 22, 5, 9, 14, 20, 4, 11, 16, 23, 6, 10, 15, 21].getD (4 * (i / 16) + i % 4) 0)

/-- The constants in plain, as the comments beside `T1` to `T64` give them. -/
def md5Sines : List UInt32 :=
  [0xd76aa478, 0xe8c7b756, 0x242070db, 0xc1bdceee, 0xf57c0faf, 0x4787c62a, 0xa8304613, 0xfd469501,
   0x698098d8, 0x8b44f7af, 0xffff5bb1, 0x895cd7be, 0x6b901122, 0xfd987193, 0xa679438e, 0x49b40821,
   0xf61e2562, 0xc040b340, 0x265e5a51, 0xe9b6c7aa, 0xd62f105d, 0x02441453, 0xd8a1e681, 0xe7d3fbc8,
   0x21e1cde6, 0xc33707d6, 0xf4d50d87, 0x455a14ed, 0xa9e3e905, 0xfcefa3f8, 0x676f02d9, 0x8d2a4c8a,
   0xfffa3942, 0x8771f681, 0x6d9d6122, 0xfde5380c, 0xa4beea44, 0x4bdecfa9, 0xf6bb4b60, 0xbebfbc70,
   0x289b7ec6, 0xeaa127fa, 0xd4ef3085, 0x04881d05, 0xd9d4d039, 0xe6db99e5, 0x1fa27cf8, 0xc4ac5665,
   0xf4292244, 0x432aff97, 0xab9423a7, 0xfc93a039, 0x655b59c3, 0x8f0ccc92, 0xffeff47d, 0x85845dd1,
   0x6fa87e4f, 0xfe2ce6e0, 0xa3014314, 0x4e0811a1, 0xf7537e82, 0xbd3af235, 0x2ad7d2bb, 0xeb86d391]

/-- One step.  The registers change places, so that the next step finds its own in front. -/
def md5Turn (X : Nat → UInt32) (r : Md5Words) (i : Nat) : Md5Words :=
  ⟨r.d, rotateLeft (r.a + md5Mix i r.b r.c r.d + X (md5Index i) + md5Sines.getD i 0) (md5Shift i) +
    r.b, r.b, r.c⟩

/-- A block, as a loop. -/
def md5Block (r : Md5Words) (data : Bytes) : Md5Words :=
  r.add ((List.range 64).foldl (md5Turn (md5Word .little data)) r)

theorem md5Table_eq : md5Table = md5Sines := by decide

/-! ## The lines against the turns -/

namespace Md5Words

/-- The registers in the order in which a line with `reg` in front takes them. -/
def seenFrom (r : Md5Words) (reg : Md5Register) : Md5Words :=
  ⟨r.get reg, r.get reg.next, r.get reg.next.next, r.get reg.next.next.next⟩

end Md5Words

/-- The register in front of line `i`. -/
def frontRegister (i : Nat) : Md5Register :=
  [Md5Register.a, .d, .c, .b].getD (i % 4) .a

/-- Line `i` by the formulas of the loop. -/
def lineAt (i : Nat) : SetLine :=
  let reg := frontRegister i
  ⟨reg, reg.next, reg.next.next, reg.next.next.next, md5Index i, md5Shift i, i + 1⟩

theorem next_frontRegister (i : Nat) : (frontRegister (i + 1)).next = frontRegister i := by
  have hcases : i % 4 = 0 ∨ i % 4 = 1 ∨ i % 4 = 2 ∨ i % 4 = 3 := by omega
  rw [frontRegister, frontRegister, Nat.add_mod]
  rcases hcases with h | h | h | h <;> rw [h] <;> rfl

/-- One line does what one turn does. -/
theorem md5Set_lineAt (X : Nat → UInt32) (r : Md5Words) (i : Nat) :
    (md5Set (md5Mix i) X r (lineAt i)).seenFrom (frontRegister (i + 1)) =
      md5Turn X (r.seenFrom (frontRegister i)) i := by
  have hconst : md5T (i + 1) = md5Sines.getD i 0 := by rw [md5T, md5Table_eq]; rfl
  have hnext := next_frontRegister i
  rw [md5Set, lineAt, md5Turn, ← hnext, hconst]
  cases frontRegister (i + 1) <;> rfl

/-- The lines of a stretch do what its turns do. -/
theorem md5Set_lines {f : UInt32 → UInt32 → UInt32 → UInt32} (X : Nat → UInt32) {i n : Nat}
    (hmix : ∀ j, i ≤ j → j < i + n → md5Mix j = f) (r : Md5Words) :
    (((List.range' i n).map lineAt).foldl (md5Set f X) r).seenFrom (frontRegister (i + n)) =
      (List.range' i n).foldl (md5Turn X) (r.seenFrom (frontRegister i)) := by
  induction n generalizing i r with
  | zero => rfl
  | succ n ih =>
    have hfirst : f = md5Mix i := (hmix i (by omega) (by omega)).symm
    have hrest : ∀ j, i + 1 ≤ j → j < i + 1 + n → md5Mix j = f :=
      fun j hle hlt => hmix j (by omega) (by omega)
    rw [List.range'_succ, List.map_cons, List.foldl_cons, List.foldl_cons, ← Nat.add_assoc,
      Nat.add_right_comm, ih hrest, hfirst, md5Set_lineAt]

theorem seenFrom_a (r : Md5Words) : r.seenFrom .a = r := rfl

/-- A round, whose lines are sixteen in a row. -/
theorem md5Round_turns {lines : List SetLine} {f : UInt32 → UInt32 → UInt32 → UInt32} {n : Nat}
    (hlines : lines = (List.range' (16 * n) 16).map lineAt)
    (hmix : ∀ j, 16 * n ≤ j → j < 16 * n + 16 → md5Mix j = f) (X : Nat → UInt32) (r : Md5Words) :
    lines.foldl (md5Set f X) r = (List.range' (16 * n) 16).foldl (md5Turn X) r := by
  have hfront : ∀ m, frontRegister (16 * m) = .a := by
    intro m
    rw [frontRegister, show 16 * m % 4 = 0 by omega]
    rfl
  have hend := hfront (n + 1)
  rw [Nat.mul_succ] at hend
  have hrun := md5Set_lines X hmix r
  rwa [hend, hfront, seenFrom_a, seenFrom_a, ← hlines] at hrun

theorem md5Mix_round {j : Nat} :
    (j < 16 → md5Mix j = md5F) ∧ (16 ≤ j → j < 32 → md5Mix j = md5G) ∧
      (32 ≤ j → j < 48 → md5Mix j = md5H) ∧ (48 ≤ j → md5Mix j = md5I) := by
  rw [md5Mix]
  refine ⟨fun h => if_pos h, fun h h' => ?_, fun h h' => ?_, fun h => ?_⟩
  · rw [if_neg (by omega), if_pos h']
  · rw [if_neg (by omega), if_neg (by omega), if_pos h']
  · rw [if_neg (by omega), if_neg (by omega), if_neg (by omega)]

/-! ## Byte order -/

theorem toNat_shiftLeft_byte (x : UInt8) {n : UInt32} {k : Nat} (hn : n.toNat = k)
    (hk : k ≤ 24) : (x.toUInt32 <<< n).toNat = x.toNat * 2 ^ k := by
  have hx := x.toNat_lt
  have hlt : x.toNat * 2 ^ k < 2 ^ 32 :=
    calc x.toNat * 2 ^ k ≤ x.toNat * 2 ^ 24 :=
          Nat.mul_le_mul_left _ (Nat.pow_le_pow_right (by omega) hk)
      _ < 2 ^ 32 := by omega
  rw [UInt32.toNat_shiftLeft, UInt8.toNat_toUInt32, hn, Nat.mod_eq_of_lt (by omega : k < 32),
    Nat.shiftLeft_eq, Nat.mod_eq_of_lt hlt]

theorem toNat_append_byte {w : Nat} (x : BitVec w) (y : UInt8) :
    (x ++ y.toBitVec).toNat = x.toNat * 2 ^ 8 + y.toNat := by
  rw [BitVec.toNat_append, ← Nat.shiftLeft_add_eq_or_of_lt y.toBitVec.isLt, Nat.shiftLeft_eq]
  rfl

/-- Four bytes side by side. -/
theorem toNat_little (x0 x1 x2 x3 : UInt8) :
    (UInt32.ofBitVec (x3.toBitVec ++ x2.toBitVec ++ x1.toBitVec ++ x0.toBitVec)).toNat =
      ((x3.toNat * 2 ^ 8 + x2.toNat) * 2 ^ 8 + x1.toNat) * 2 ^ 8 + x0.toNat := by
  rw [UInt32.toNat_ofBitVec, toNat_append_byte, toNat_append_byte, toNat_append_byte]
  rfl

/-- The same bytes added up. -/
theorem toNat_big (x0 x1 x2 x3 : UInt8) :
    (x0.toUInt32 + (x1.toUInt32 <<< 8) + (x2.toUInt32 <<< 16) + (x3.toUInt32 <<< 24)).toNat =
      ((x3.toNat * 2 ^ 8 + x2.toNat) * 2 ^ 8 + x1.toNat) * 2 ^ 8 + x0.toNat := by
  have h0 := x0.toNat_lt
  have h1 := x1.toNat_lt
  have h2 := x2.toNat_lt
  have h3 := x3.toNat_lt
  rw [UInt32.toNat_add, UInt32.toNat_add, UInt32.toNat_add, UInt8.toNat_toUInt32,
    toNat_shiftLeft_byte x1 (n := 8) (k := 8) rfl (by omega),
    toNat_shiftLeft_byte x2 (n := 16) (k := 16) rfl (by omega),
    toNat_shiftLeft_byte x3 (n := 24) (k := 24) rfl (by omega)]
  omega

theorem md5Word_big (data : Bytes) (i : Nat) : md5Word .big data i = md5Word .little data i := by
  apply UInt32.toNat_inj.mp
  rw [md5Word, md5Word]
  exact (toNat_big _ _ _ _).trans (toNat_little _ _ _ _).symm

/-- The unrolled block function is the loop, whatever the byte order of the machine is. -/
theorem md5Process_eq (order : ByteOrder) (abcd : Md5Words) (data : Bytes) :
    md5Process order abcd data = md5Block abcd data := by
  have hwords : md5Word order data = md5Word .little data := by
    cases order with
    | little => rfl
    | big => exact funext (md5Word_big data)
  have hrange : List.range 64 =
      List.range' (16 * 0) 16 ++ List.range' (16 * 1) 16 ++ List.range' (16 * 2) 16 ++
        List.range' (16 * 3) 16 := by decide
  have h1 := fun r => @md5Round_turns md5Round1 _ 0 (by decide)
    (fun j _ hlt => md5Mix_round.1 hlt) (md5Word .little data) r
  have h2 := fun r => @md5Round_turns md5Round2 _ 1 (by decide)
    (fun j hle hlt => md5Mix_round.2.1 hle hlt) (md5Word .little data) r
  have h3 := fun r => @md5Round_turns md5Round3 _ 2 (by decide)
    (fun j hle hlt => md5Mix_round.2.2.1 hle hlt) (md5Word .little data) r
  have h4 := fun r => @md5Round_turns md5Round4 _ 3 (by decide)
    (fun j hle _ => md5Mix_round.2.2.2 hle) (md5Word .little data) r
  rw [md5Process, hwords, md5Block, hrange, List.foldl_append, List.foldl_append,
    List.foldl_append]
  simp only [h1, h2, h3, h4]

end Spmfilter

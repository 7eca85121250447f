/-
MD5.

The message is padded to whole blocks of 64 bytes: a bit that is set, zeroes, and the number of its
bits in eight bytes.  Every block goes through 64 steps on four words of 32 bits, which are added to
the words before the block.  Words are numbers below 2^32, and bytes are in little-endian order.
-/
import Mathlib

namespace Md5

/-- The four words. -/
structure Words where
  a : Nat
  b : Nat
  c : Nat
  d : Nat

def init : Words := ⟨0x67452301, 0xefcdab89, 0x98badcfe, 0x10325476⟩

/-- How far a word is turned in a step. -/
def shifts : List Nat :=
  (List.replicate 4 [7, 12, 17, 22] ++ List.replicate 4 [5, 9, 14, 20] ++
    List.replicate 4 [4, 11, 16, 23] ++ List.replicate 4 [6, 10, 15, 21]).flatten

/-- The integer parts of 2^32 times the absolute sines of 1 to 64. -/
def table : List Nat :=
  [0xd76aa478, 0xe8c7b756, 0x242070db, 0xc1bdceee, 0xf57c0faf, 0x4787c62a, 0xa8304613, 0xfd469501,
   0x698098d8, 0x8b44f7af, 0xffff5bb1, 0x895cd7be, 0x6b901122, 0xfd987193, 0xa679438e, 0x49b40821,
   0xf61e2562, 0xc040b340, 0x265e5a51, 0xe9b6c7aa, 0xd62f105d, 0x02441453, 0xd8a1e681, 0xe7d3fbc8,
   0x21e1cde6, 0xc33707d6, 0xf4d50d87, 0x455a14ed, 0xa9e3e905, 0xfcefa3f8, 0x676f02d9, 0x8d2a4c8a,
   0xfffa3942, 0x8771f681, 0x6d9d6122, 0xfde5380c, 0xa4beea44, 0x4bdecfa9, 0xf6bb4b60, 0xbebfbc70,
   0x289b7ec6, 0xeaa127fa, 0xd4ef3085, 0x04881d05, 0xd9d4d039, 0xe6db99e5, 0x1fa27cf8, 0xc4ac5665,
   0xf4292244, 0x432aff97, 0xab9423a7, 0xfc93a039, 0x655b59c3, 0x8f0ccc92, 0xffeff47d, 0x85845dd1,
   0x6fa87e4f, 0xfe2ce6e0, 0xa3014314, 0x4e0811a1, 0xf7537e82, 0xbd3af235, 0x2ad7d2bb, 0xeb86d391]

def complement (x : Nat) : Nat := x ^^^ 0xffffffff

def turn (x n : Nat) : Nat := (x <<< n ||| x >>> (32 - n)) % 2 ^ 32

/-- The function of a step, and the word of the block it takes. -/
def mix (i : Nat) (w : Words) : Nat × Nat :=
  if i < 16 then ((w.b &&& w.c) ||| (complement w.b &&& w.d), i)
  else if i < 32 then ((w.d &&& w.b) ||| (complement w.d &&& w.c), (5 * i + 1) % 16)
  else if i < 48 then (w.b ^^^ w.c ^^^ w.d, (3 * i + 5) % 16)
  else (w.c ^^^ (w.b ||| complement w.d), 7 * i % 16)

def step (block : List Nat) (w : Words) (i : Nat) : Words :=
  let f := mix i w
  let x := (w.a + f.1 + table.getD i 0 + block.getD f.2 0) % 2 ^ 32
  ⟨w.d, (w.b + turn x (shifts.getD i 0)) % 2 ^ 32, w.b, w.c⟩

def word (bytes : List UInt8) : Nat := bytes.foldr (fun c n => c.toNat + 256 * n) 0

def addBlock (w : Words) (block : List UInt8) : Words :=
  let words := (List.range 16).map fun i => word ((block.drop (4 * i)).take 4)
  let v := (List.range 64).foldl (step words) w
  ⟨(w.a + v.a) % 2 ^ 32, (w.b + v.b) % 2 ^ 32, (w.c + v.c) % 2 ^ 32, (w.d + v.d) % 2 ^ 32⟩

def bytesOf (n count : Nat) : List UInt8 :=
  (List.range count).map fun i => UInt8.ofNat (n / 256 ^ i)

def pad (s : List UInt8) : List UInt8 :=
  s ++ 0x80 :: List.replicate ((119 - s.length % 64) % 64) 0 ++ bytesOf (8 * s.length) 8

def md5 (s : List UInt8) : List UInt8 :=
  let padded := pad s
  let w := (List.range (padded.length / 64)).foldl
    (fun w i => addBlock w ((padded.drop (64 * i)).take 64)) init
  bytesOf w.a 4 ++ bytesOf w.b 4 ++ bytesOf w.c 4 ++ bytesOf w.d 4

/-- The digest of "abc". -/
example : md5 [97, 98, 99] =
    [0x90, 0x01, 0x50, 0x98, 0x3c, 0xd2, 0x4f, 0xb0, 0xd6, 0x96, 0x3f, 0x7d, 0x28, 0xe1, 0x7f, 0x72] := by
  decide +kernel

end Md5

import DownloadTriage.Digest.Basic

/-!
# MD5
-/

namespace DownloadTriage.Md5

/-- The chaining value: four words. -/
structure State where
  a : UInt32
  b : UInt32
  c : UInt32
  d : UInt32

/-- The constants of the 64 rounds. -/
def roundConstants : List UInt32 :=
  [0xd76aa478, 0xe8c7b756, 0x242070db, 0xc1bdceee, 0xf57c0faf, 0x4787c62a,
    0xa8304613, 0xfd469501, 0x698098d8, 0x8b44f7af, 0xffff5bb1, 0x895cd7be,
    0x6b901122, 0xfd987193, 0xa679438e, 0x49b40821, 0xf61e2562, 0xc040b340,
    0x265e5a51, 0xe9b6c7aa, 0xd62f105d, 0x02441453, 0xd8a1e681, 0xe7d3fbc8,
    0x21e1cde6, 0xc33707d6, 0xf4d50d87, 0x455a14ed, 0xa9e3e905, 0xfcefa3f8,
    0x676f02d9, 0x8d2a4c8a, 0xfffa3942, 0x8771f681, 0x6d9d6122, 0xfde5380c,
    0xa4beea44, 0x4bdecfa9, 0xf6bb4b60, 0xbebfbc70, 0x289b7ec6, 0xeaa127fa,
    0xd4ef3085, 0x04881d05, 0xd9d4d039, 0xe6db99e5, 0x1fa27cf8, 0xc4ac5665,
    0xf4292244, 0x432aff97, 0xab9423a7, 0xfc93a039, 0x655b59c3, 0x8f0ccc92,
    0xffeff47d, 0x85845dd1, 0x6fa87e4f, 0xfe2ce6e0, 0xa3014314, 0x4e0811a1,
    0xf7537e82, 0xbd3af235, 0x2ad7d2bb, 0xeb86d391]

/-- The turns of the four rounds of each quarter. -/
def turns : List (List UInt32) :=
  [[7, 12, 17, 22], [5, 9, 14, 20], [4, 11, 16, 23], [6, 10, 15, 21]]

/-- The turn of a round. -/
def turn (i : Nat) : UInt32 := ((turns.getD (i / 16) []).getD (i % 4) 0)

/-- The word turned left by `n` bits. -/
def rotateLeft (x : UInt32) (n : UInt32) : UInt32 := (x <<< n) ||| (x >>> (32 - n))

/-- The little-endian word at byte `4 * i` of a block. -/
def word (block : Array UInt8) (i : Nat) : UInt32 :=
  let byte (j : Nat) : UInt32 := (block.getD (4 * i + j) 0).toUInt32
  byte 0 ||| (byte 1 <<< 8) ||| (byte 2 <<< 16) ||| (byte 3 <<< 24)

/-- The mixing function of a round and the index of its word. -/
def mix (s : State) (i : Nat) : UInt32 × Nat :=
  match i / 16 with
  | 0 => ((s.b &&& s.c) ||| (~~~s.b &&& s.d), i)
  | 1 => ((s.d &&& s.b) ||| (~~~s.d &&& s.c), (5 * i + 1) % 16)
  | 2 => (s.b ^^^ s.c ^^^ s.d, (3 * i + 5) % 16)
  | _ => (s.c ^^^ (s.b ||| ~~~s.d), 7 * i % 16)

/-- One round. -/
def round (words : Array UInt32) (s : State) (i : Nat) (k : UInt32) : State :=
  let (f, j) := mix s i
  ⟨s.d, s.b + rotateLeft (s.a + f + k + words.getD j 0) (turn i), s.b, s.c⟩

/-- The chaining value after a block. -/
def compress (s : State) (block : Array UInt8) : State :=
  let words := (Array.range 16).map (word block)
  let r := ((List.range 64).zip roundConstants).foldl (fun s (i, k) => round words s i k) s
  ⟨s.a + r.a, s.b + r.b, s.c + r.c, s.d + r.d⟩

/-- MD5. -/
def digest : Digest State where
  start := ⟨0x67452301, 0xefcdab89, 0x98badcfe, 0x10325476⟩
  compress := compress
  lengthField := Digest.littleEndian 8
  output s := [s.a, s.b, s.c, s.d].flatMap fun w => Digest.littleEndian 4 w.toNat

theorem length_output (s : State) : (digest.output s).length = 16 := by
  simp [digest, Digest.length_littleEndian]

theorem length_lengthField (n : Nat) : (digest.lengthField n).length = 8 :=
  Digest.length_littleEndian 8 n

end DownloadTriage.Md5

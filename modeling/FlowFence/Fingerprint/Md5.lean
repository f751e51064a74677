import FlowFence.Power

/-!
# The MD5 message digest

The digest of a byte sequence: the padded message is cut into blocks of sixteen little-endian words
and each block is mixed into a state of four words in sixty-four steps.
-/

namespace FlowFence

namespace Md5

/-- The bit counts by which the steps rotate; each row serves sixteen steps. -/
def rotations : List (List UInt32) :=
  [[7, 12, 17, 22], [5, 9, 14, 20], [4, 11, 16, 23], [6, 10, 15, 21]]

/-- The constant of each step: the integer part of `2 ^ 32` times the sine of its number. -/
def constants : List UInt32 := [
  0xd76aa478, 0xe8c7b756, 0x242070db, 0xc1bdceee, 0xf57c0faf, 0x4787c62a, 0xa8304613, 0xfd469501,
  0x698098d8, 0x8b44f7af, 0xffff5bb1, 0x895cd7be, 0x6b901122, 0xfd987193, 0xa679438e, 0x49b40821,
  0xf61e2562, 0xc040b340, 0x265e5a51, 0xe9b6c7aa, 0xd62f105d, 0x02441453, 0xd8a1e681, 0xe7d3fbc8,
  0x21e1cde6, 0xc33707d6, 0xf4d50d87, 0x455a14ed, 0xa9e3e905, 0xfcefa3f8, 0x676f02d9, 0x8d2a4c8a,
  0xfffa3942, 0x8771f681, 0x6d9d6122, 0xfde5380c, 0xa4beea44, 0x4bdecfa9, 0xf6bb4b60, 0xbebfbc70,
  0x289b7ec6, 0xeaa127fa, 0xd4ef3085, 0x04881d05, 0xd9d4d039, 0xe6db99e5, 0x1fa27cf8, 0xc4ac5665,
  0xf4292244, 0x432aff97, 0xab9423a7, 0xfc93a039, 0x655b59c3, 0x8f0ccc92, 0xffeff47d, 0x85845dd1,
  0x6fa87e4f, 0xfe2ce6e0, 0xa3014314, 0x4e0811a1, 0xf7537e82, 0xbd3af235, 0x2ad7d2bb, 0xeb86d391
]

structure State where
  a : UInt32
  b : UInt32
  c : UInt32
  d : UInt32

def State.initial : State :=
  ⟨0x67452301, 0xefcdab89, 0x98badcfe, 0x10325476⟩

def rotateLeft (word count : UInt32) : UInt32 :=
  (word <<< count) ||| (word >>> (32 - count))

/-- The round function of a step and the number of the message word it takes. -/
def select (s : State) (step : Nat) : UInt32 × Nat :=
  match step / 16 with
  | 0 => ((s.b &&& s.c) ||| (~~~s.b &&& s.d), step)
  | 1 => ((s.d &&& s.b) ||| (~~~s.d &&& s.c), (5 * step + 1) % 16)
  | 2 => (s.b ^^^ s.c ^^^ s.d, (3 * step + 5) % 16)
  | _ => (s.c ^^^ (s.b ||| ~~~s.d), 7 * step % 16)

def mixStep (block : Array UInt32) (s : State) (step : Nat) : State :=
  let (mixed, word) := select s step
  let sum := s.a + mixed + constants.getD step 0 + block.getD word 0
  let count := (rotations.getD (step / 16) []).getD (step % 4) 0
  ⟨s.d, s.b + rotateLeft sum count, s.b, s.c⟩

def mixBlock (s : State) (block : Array UInt32) : State :=
  let t := (List.range 64).foldl (mixStep block) s
  ⟨s.a + t.a, s.b + t.b, s.c + t.c, s.d + t.d⟩

/-- The little-endian words of bytes; a last incomplete word is left out. -/
def words : List UInt8 → List UInt32
  | a :: b :: c :: d :: rest =>
      (a.toUInt32 ||| (b.toUInt32 <<< 8) ||| (c.toUInt32 <<< 16) ||| (d.toUInt32 <<< 24)) ::
        words rest
  | _ => []

def littleEndian (count n : Nat) : List UInt8 :=
  (List.range count).map fun i => UInt8.ofNat (n / 256 ^ i % 256)

/-- A message with its padding: a one bit, zeros up to eight bytes short of a block, the length. -/
def padded (message : List UInt8) : List UInt8 :=
  let zeros := (64 - (message.length + 9) % 64) % 64
  message ++ 0x80 :: List.replicate zeros 0 ++ littleEndian 8 (8 * message.length)

def mixAll : Nat → State → List UInt32 → State
  | 0, s, _ => s
  | blocks + 1, s, rest => mixAll blocks (mixBlock s (rest.take 16).toArray) (rest.drop 16)

def digest (message : List UInt8) : List UInt8 :=
  let message := words (padded message)
  let s := mixAll (message.length / 16) .initial message
  [s.a, s.b, s.c, s.d].flatMap fun word => littleEndian 4 word.toNat

end Md5

end FlowFence

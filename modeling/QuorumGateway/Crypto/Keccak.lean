import QuorumGateway.Text.Ascii
/-!
The hash of account addresses and signed messages: a sponge over twenty-five words of 64 bits with 136 bytes taken in at
a time, the padding that starts with a one byte, and a digest of thirty-two bytes.
-/

namespace QuorumGateway.Crypto.Keccak

/-- the state: the word of column `x` and row `y` stands at `x + 5 * y` -/
abbrev State := Array UInt64

/-- the word at column `x` and row `y`, both taken round the square -/
def State.at (s : State) (x y : Nat) : UInt64 := s.getD (x % 5 + 5 * (y % 5)) 0

def State.ofWords (word : Nat → Nat → UInt64) : State := Array.ofFn fun i : Fin 25 => word (i.val % 5) (i.val / 5)

def rotate (w : UInt64) (n : Nat) : UInt64 :=
  if n = 0 then w else (w <<< UInt64.ofNat n) ||| (w >>> UInt64.ofNat (64 - n))

/-- how far each word is turned, in the order of the state -/
def offsets : Array Nat :=
  #[0, 1, 62, 28, 27, 36, 44, 6, 55, 20, 3, 10, 43, 25, 39, 41, 45, 15, 21, 8, 18, 2, 61, 56, 14]

def roundConstants : List UInt64 :=
  [0x0000000000000001, 0x0000000000008082, 0x800000000000808A, 0x8000000080008000, 0x000000000000808B,
   0x0000000080000001, 0x8000000080008081, 0x8000000000008009, 0x000000000000008A, 0x0000000000000088,
   0x0000000080008009, 0x000000008000000A, 0x000000008000808B, 0x800000000000008B, 0x8000000000008089,
   0x8000000000008003, 0x8000000000008002, 0x8000000000000080, 0x000000000000800A, 0x800000008000000A,
   0x8000000080008081, 0x8000000000008080, 0x0000000080000001, 0x8000000080008008]

def column (s : State) (x : Nat) : UInt64 := s.at x 0 ^^^ s.at x 1 ^^^ s.at x 2 ^^^ s.at x 3 ^^^ s.at x 4

/-- every word with the sums of the two neighbouring columns added to it -/
def diffuse (s : State) : State :=
  let sums : Array UInt64 := #[column s 0, column s 1, column s 2, column s 3, column s 4]
  .ofWords fun x y => s.at x y ^^^ sums.getD ((x + 4) % 5) 0 ^^^ rotate (sums.getD ((x + 1) % 5) 0) 1

/-- every word turned and moved: the word now at `x`, `y` was in column `x + 3 * y` and row `x` -/
def scatter (s : State) : State :=
  .ofWords fun x y => rotate (s.at (x + 3 * y) x) (offsets.getD ((x + 3 * y) % 5 + 5 * x) 0)

/-- every word with the combination of the next two of its row added to it -/
def combine (s : State) : State := .ofWords fun x y => s.at x y ^^^ (~~~(s.at (x + 1) y) &&& s.at (x + 2) y)

def round (s : State) (constant : UInt64) : State :=
  (combine (scatter (diffuse s))).modify 0 (· ^^^ constant)

def permute (s : State) : State := roundConstants.foldl round s

/-- the bytes taken in at a time -/
def rate : Nat := 136

/-- a message with its padding, which fills the last block -/
def pad (message : List UInt8) : List UInt8 :=
  let room := rate - message.length % rate
  if room = 1 then message ++ [0x81] else message ++ 0x01 :: List.replicate (room - 2) 0 ++ [0x80]

/-- eight bytes as a word, the first byte lowest -/
def word (bytes : List UInt8) : UInt64 := bytes.foldr (fun b w => (w <<< 8) ||| b.toUInt64) 0

def wordBytes (w : UInt64) : List UInt8 := (List.range 8).map fun i => (w >>> UInt64.ofNat (8 * i)).toUInt8

def words : Nat → List UInt8 → List UInt64
  | 0, _ => []
  | n + 1, bytes => word (bytes.take 8) :: words n (bytes.drop 8)

def absorb (s : State) (block : List UInt8) : State :=
  permute ((words 17 block).zipIdx.foldl (fun s (w, i) => s.modify i (· ^^^ w)) s)

def absorbAll : Nat → State → List UInt8 → State
  | 0, s, _ => s
  | blocks + 1, s, bytes => absorbAll blocks (absorb s (bytes.take rate)) (bytes.drop rate)

def hash (message : List UInt8) : List UInt8 :=
  let padded := pad message
  let s := absorbAll (padded.length / rate) (Array.replicate 25 0) padded
  wordBytes (s.at 0 0) ++ wordBytes (s.at 1 0) ++ wordBytes (s.at 2 0) ++ wordBytes (s.at 3 0)

theorem length_wordBytes (w : UInt64) : (wordBytes w).length = 8 := by simp [wordBytes]

theorem length_hash (message : List UInt8) : (hash message).length = 32 := by simp [hash, length_wordBytes]

end QuorumGateway.Crypto.Keccak

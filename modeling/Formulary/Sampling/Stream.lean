/-! A reproducible stream of 32-bit words: the ChaCha block function with eight rounds,
run over a block counter. A key of 256 bits is given, or spread from a seed of 64. -/
namespace Formulary.Sampling

/-- Four words side by side. -/
structure Lanes where
  a : UInt32
  b : UInt32
  c : UInt32
  d : UInt32
deriving DecidableEq

namespace Lanes

def zip (f : UInt32 → UInt32 → UInt32) (x y : Lanes) : Lanes :=
  ⟨f x.a y.a, f x.b y.b, f x.c y.c, f x.d y.d⟩

def map (f : UInt32 → UInt32) (x : Lanes) : Lanes := ⟨f x.a, f x.b, f x.c, f x.d⟩

/-- The words one place to the left, the first one last. -/
def turn (x : Lanes) : Lanes := ⟨x.b, x.c, x.d, x.a⟩

def toList (x : Lanes) : List UInt32 := [x.a, x.b, x.c, x.d]

end Lanes

/-- Turns a word to the left; amounts count modulo 32. -/
def turnBits (amount word : UInt32) : UInt32 :=
  (word <<< amount) ||| (word >>> (32 - amount))

/-- A block of sixteen words in four rows. -/
structure Block where
  first : Lanes
  second : Lanes
  third : Lanes
  fourth : Lanes
deriving DecidableEq

namespace Block

/-- Quarter rounds down all four columns at once. -/
def columns (x : Block) : Block :=
  let add := Lanes.zip (· + ·)
  let mix (amount : UInt32) (x y : Lanes) := (x.zip (· ^^^ ·) y).map (turnBits amount)
  let first := add x.first x.second
  let fourth := mix 16 x.fourth first
  let third := add x.third fourth
  let second := mix 12 x.second third
  let first := add first second
  let fourth := mix 8 fourth first
  let third := add third fourth
  ⟨first, mix 7 second third, third, fourth⟩

/-- Moves diagonals into columns; three more turns of a row undo one. -/
def slant (x : Block) : Block :=
  ⟨x.first, x.second.turn, x.third.turn.turn, x.fourth.turn.turn.turn⟩

def unslant (x : Block) : Block :=
  ⟨x.first, x.second.turn.turn.turn, x.third.turn.turn, x.fourth.turn⟩

/-- A round on the columns and one on the diagonals. -/
def doubleRound (x : Block) : Block := x.columns.slant.columns.unslant

def add (x y : Block) : Block :=
  ⟨x.first.zip (· + ·) y.first, x.second.zip (· + ·) y.second, x.third.zip (· + ·) y.third,
    x.fourth.zip (· + ·) y.fourth⟩

/-- Eight rounds, then the block itself is added. -/
def scramble (x : Block) : Block :=
  x.doubleRound.doubleRound.doubleRound.doubleRound.add x

def toList (x : Block) : List UInt32 :=
  x.first.toList ++ x.second.toList ++ x.third.toList ++ x.fourth.toList

end Block

/-- The eight words that key a stream. -/
structure Key where
  low : Lanes
  high : Lanes
deriving DecidableEq

namespace Key

def advance (state : UInt64) : UInt64 :=
  state * 6364136223846793005 + 11634580027462260723

/-- A key word from a generator state: the mixed high bits, turned right by the top five. -/
def output (state : UInt64) : UInt32 :=
  let amount : UInt32 := (state >>> 59).toUInt32
  turnBits (32 - amount) (((state >>> 18) ^^^ state) >>> 27).toUInt32

/-- Four words, and the generator state after them. -/
def lanes (state : UInt64) : Lanes × UInt64 :=
  let one := advance state
  let two := advance one
  let three := advance two
  let four := advance three
  (⟨output one, output two, output three, output four⟩, four)

/-- Spreads a seed over a key by a linear congruential generator. -/
def ofSeed (seed : UInt64) : Key :=
  let (low, state) := lanes seed
  ⟨low, (lanes state).1⟩

/-- The words of the block with a given number. -/
def block (key : Key) (counter : UInt64) : List UInt32 :=
  (Block.scramble ⟨⟨0x61707865, 0x3320646e, 0x79622d32, 0x6b206574⟩, key.low, key.high,
    ⟨counter.toUInt32, (counter >>> 32).toUInt32, 0, 0⟩⟩).toList

def word (key : Key) (position : Nat) : UInt32 :=
  (key.block (position / 16).toUInt64).getD (position % 16) 0

end Key

/-- A place in the stream of a key. -/
structure Stream where
  key : Key
  position : Nat

abbrev Draw := StateM Stream

/-- The next word. -/
def draw32 : Draw UInt32 := fun stream =>
  (stream.key.word stream.position, { stream with position := stream.position + 1 })

/-- The next two words, the first one less significant. -/
def draw64 : Draw UInt64 := do
  let low ← draw32
  let high ← draw32
  return low.toUInt64 ||| (high.toUInt64 <<< 32)

end Formulary.Sampling

/-!
# Hashers

A hasher takes in data chunk by chunk and answers with a word in the end. Nothing is said about how
it mixes what it takes in: what holds for every hasher holds because of the chunks alone.
-/

namespace ArtifactGC

/-- A chunk of data as a hasher takes it in. -/
inductive Chunk where
  /-- A position in an enumeration. -/
  | position (index : Nat)
  /-- A word of 64 bits. -/
  | word (bits : UInt64)
  /-- The bytes of a text. -/
  | text (bytes : ByteArray)
  /-- A byte. -/
  | byte (bits : UInt8)
deriving Hashable

/-- A hasher. -/
structure Hasher where
  /-- What it keeps of the chunks that it took in. -/
  State : Type
  /-- Before the first chunk. -/
  start : State
  /-- After one more chunk. -/
  write : State → Chunk → State
  /-- The answer. -/
  finish : State → UInt64

namespace Hasher

/-- The hash of some chunks. -/
def hash (hasher : Hasher) (chunks : List Chunk) : UInt64 :=
  hasher.finish (chunks.foldl hasher.write hasher.start)

/-- The hasher that mixes the hash of each chunk into a word. -/
def mixing : Hasher where
  State := UInt64
  start := 7
  write state chunk := mixHash state (Hashable.hash chunk)
  finish := id

end Hasher

end ArtifactGC

import DeviceUpdate.Text.Utf8

/-!
# Inflating

The deflate format of RFC 1951. Decoding ends with the last block, at a fault, or where the input
ends; in each case the output so far is known.
-/

namespace DeviceUpdate.Archive.Inflate

/-- Why decoding stops before the last block is complete. -/
inductive Fault where
  /-- the input breaks the format -/
  | corrupt
  /-- the input ends -/
  | ended
  deriving DecidableEq, Repr

structure Progress where
  input : Array UInt8
  /-- bits read so far -/
  position : Nat
  output : Array UInt8

/-- A decoding step. The progress made is kept at a fault. -/
abbrev Decoder := EStateM Fault Progress

def bit : Decoder Nat := fun s =>
  match s.input[s.position / 8]? with
  | none => .error .ended s
  | some b => .ok ((b.toNat >>> (s.position % 8)) % 2) { s with position := s.position + 1 }

/-- A number of `n` bits, least significant bit first. -/
def bits : (n : Nat) → Decoder Nat
  | 0 => return 0
  | n + 1 => do
    let low ← bit
    let high ← bits n
    return low + 2 * high

def emit (b : UInt8) : Decoder Unit := modify fun s => { s with output := s.output.push b }

/-- Repeats `length` bytes from `distance` bytes back. -/
def copyBack (distance : Nat) : (length : Nat) → Decoder Unit
  | 0 => return
  | length + 1 => do
    let s ← get
    emit (s.output[s.output.size - distance]?.getD 0)
    copyBack distance length

/-- A prefix code: how many symbols have each length, and the symbols in order of their codes. -/
structure Code where
  counts : Array Nat
  symbols : Array Nat

/-- The canonical code in which symbol `i` has the length `lengths[i]`; length 0 is no code. -/
def Code.ofLengths (lengths : List Nat) : Code where
  counts := Array.ofFn fun n : Fin 16 => if n.val = 0 then 0 else lengths.count n.val
  symbols := ((List.range 15).flatMap fun n =>
    (lengths.zipIdx.filter fun p => p.1 == n + 1).map (·.2)).toArray

/-- Codes of 15 bits that stay unused; negative if there are too many codes. -/
def Code.unused (c : Code) : Int :=
  (List.range 15).foldl (fun left n => 2 * left - (c.counts[n + 1]?.getD 0 : Nat)) 1

/-- Whether a code is complete, or has at most one symbol, which then has one bit. -/
def Code.usable (c : Code) : Bool :=
  c.unused == 0 || (0 < c.unused && (c.symbols.size == 0 || c.counts[1]? == some c.symbols.size))

def decodeFrom (c : Code) (code first index : Nat) : List Nat → Decoder Nat
  | [] => throw .corrupt
  | n :: longer => do
    let code := code + (← bit)
    let count := c.counts[n]?.getD 0
    if code < first + count then
      match c.symbols[index + (code - first)]? with
      | some symbol => return symbol
      | none => throw .corrupt
    else decodeFrom c (2 * code) (2 * (first + count)) (index + count) longer

/-- The next symbol. -/
def Code.decode (c : Code) : Decoder Nat :=
  decodeFrom c 0 0 0 [1, 2, 3, 4, 5, 6, 7, 8, 9, 10, 11, 12, 13, 14, 15]

def lengthBase : Array Nat :=
  #[3, 4, 5, 6, 7, 8, 9, 10, 11, 13, 15, 17, 19, 23, 27, 31, 35, 43, 51, 59, 67, 83, 99, 115, 131,
    163, 195, 227, 258]

def lengthExtra : Array Nat :=
  #[0, 0, 0, 0, 0, 0, 0, 0, 1, 1, 1, 1, 2, 2, 2, 2, 3, 3, 3, 3, 4, 4, 4, 4, 5, 5, 5, 5, 0]

def distanceBase : Array Nat :=
  #[1, 2, 3, 4, 5, 7, 9, 13, 17, 25, 33, 49, 65, 97, 129, 193, 257, 385, 513, 769, 1025, 1537, 2049,
    3073, 4097, 6145, 8193, 12289, 16385, 24577]

def distanceExtra : Array Nat :=
  #[0, 0, 0, 0, 1, 1, 2, 2, 3, 3, 4, 4, 5, 5, 6, 6, 7, 7, 8, 8, 9, 9, 10, 10, 11, 11, 12, 12, 13,
    13]

/-- A value that starts at `base[i]` and adds `extra[i]` bits. -/
def extended (base extra : Array Nat) (i : Nat) : Decoder Nat :=
  match base[i]?, extra[i]? with
  | some b, some e => return b + (← bits e)
  | _, _ => throw .corrupt

/-- The symbols of a block up to its end. Each reads at least one bit. -/
def symbols (literals distances : Code) : (fuel : Nat) → Decoder Unit
  | 0 => throw .ended
  | fuel + 1 => do
    let symbol ← literals.decode
    if symbol < 256 then
      emit symbol.toUInt8
      symbols literals distances fuel
    else if symbol = 256 then return
    else
      let length ← extended lengthBase lengthExtra (symbol - 257)
      let distance ← extended distanceBase distanceExtra (← distances.decode)
      if (← get).output.size < distance then throw .corrupt
      copyBack distance length
      symbols literals distances fuel

def fixedLiterals : Code :=
  Code.ofLengths (List.replicate 144 8 ++ List.replicate 112 9 ++ List.replicate 24 7 ++
    List.replicate 8 8)

def fixedDistances : Code := Code.ofLengths (List.replicate 32 5)

/-- The order in which the lengths of the length code come. -/
def lengthOrder : List Nat :=
  [16, 17, 18, 0, 8, 7, 9, 6, 10, 5, 11, 4, 12, 3, 13, 2, 14, 1, 15]

/-- Reads code lengths until there are `total`; `lengths` has those before, last first. -/
def codeLengths (code : Code) (total : Nat) (lengths : List Nat) :
    (fuel : Nat) → Decoder (List Nat)
  | 0 => throw .corrupt
  | fuel + 1 => do
    if lengths.length = total then return lengths.reverse
    if total < lengths.length then throw .corrupt
    let symbol ← code.decode
    if symbol < 16 then codeLengths code total (symbol :: lengths) fuel
    else if symbol = 16 then
      match lengths with
      | [] => throw .corrupt
      | last :: _ =>
        let n ← bits 2
        codeLengths code total (List.replicate (3 + n) last ++ lengths) fuel
    else if symbol = 17 then
      let n ← bits 3
      codeLengths code total (List.replicate (3 + n) 0 ++ lengths) fuel
    else
      let n ← bits 7
      codeLengths code total (List.replicate (11 + n) 0 ++ lengths) fuel

/-- Three bits for each of the first `n` entries of `order`. -/
def orderedLengths : (n : Nat) → (order : List Nat) → Decoder (List (Nat × Nat))
  | n + 1, i :: order => do
    let length ← bits 3
    let rest ← orderedLengths n order
    return (i, length) :: rest
  | _, _ => return []

/-- The two codes that a block brings along. -/
def dynamicCodes : Decoder (Code × Code) := do
  let literalCount := (← bits 5) + 257
  let distanceCount := (← bits 5) + 1
  let lengthCount := (← bits 4) + 4
  if 286 < literalCount || 30 < distanceCount then throw .corrupt
  let given ← orderedLengths lengthCount lengthOrder
  let code := Code.ofLengths ((List.range 19).map fun i => (given.lookup i).getD 0)
  if code.unused != 0 then throw .corrupt
  let total := literalCount + distanceCount
  let lengths ← codeLengths code total [] (total + 1)
  let literals := Code.ofLengths (lengths.take literalCount)
  let distances := Code.ofLengths (lengths.drop literalCount)
  if lengths[256]?.getD 0 = 0 || !literals.usable || !distances.usable then throw .corrupt
  return (literals, distances)

/-- Takes `n` whole bytes over. -/
def rawBytes : (n : Nat) → Decoder Unit
  | 0 => return
  | n + 1 => do
    emit (← bits 8).toUInt8
    rawBytes n

def storedBlock : Decoder Unit := do
  modify fun s => { s with position := (s.position + 7) / 8 * 8 }
  let length ← bits 16
  let complement ← bits 16
  if length + complement != 0xFFFF then throw .corrupt
  rawBytes length

/-- All blocks up to the last. Each reads at least three bits. -/
def blocks : (fuel : Nat) → Decoder Unit
  | 0 => throw .ended
  | fuel + 1 => do
    let last ← bit
    let kind ← bits 2
    let available := 8 * (← get).input.size + 1
    match kind with
    | 0 => storedBlock
    | 1 => symbols fixedLiterals fixedDistances available
    | 2 =>
      let (literals, distances) ← dynamicCodes
      symbols literals distances available
    | _ => throw .corrupt
    if last = 1 then return else blocks fuel

/-- Decodes a whole input: the output, and the fault that ended it, if any. -/
def run (input : Bytes) : Bytes × Option Fault :=
  let source := input.toArray
  match blocks (8 * source.size + 1) ⟨source, 0, #[]⟩ with
  | .ok _ s => (s.output.toList, none)
  | .error fault s => (s.output.toList, some fault)

end DeviceUpdate.Archive.Inflate

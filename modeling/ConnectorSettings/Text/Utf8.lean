/-
This file decodes bytes into text.

Files and environment variables hold bytes, and nothing forces them to be text. Decoding splits
the bytes into units: a character where a well-formed sequence stands, and a gap for each longest
stretch that begins like one and then breaks off. From the units both questions are answered:
bytes without a gap are text, and any bytes can be shown to a reader with the replacement
character in each gap.

Well-formed means shortest form, no surrogate and nothing above U+10FFFF, which is what the bounds
on the byte after the lead byte express.
-/

namespace ConnectorSettings

namespace Utf8

abbrev Bytes := List UInt8

/-- What a lead byte announces: the bits it contributes, and the bounds of each byte to follow.
`none` for a byte that leads nothing. -/
def announced (lead : Nat) : Option (Nat × List (Nat × Nat)) :=
  let tail := (0x80, 0xBF)
  if lead ≤ 0x7F then some (lead, [])
  else if 0xC2 ≤ lead ∧ lead ≤ 0xDF then some (lead - 0xC0, [tail])
  else if lead = 0xE0 then some (0, [(0xA0, 0xBF), tail])
  else if lead = 0xED then some (0xD, [(0x80, 0x9F), tail])
  else if 0xE1 ≤ lead ∧ lead ≤ 0xEF then some (lead - 0xE0, [tail, tail])
  else if lead = 0xF0 then some (0, [(0x90, 0xBF), tail, tail])
  else if 0xF1 ≤ lead ∧ lead ≤ 0xF3 then some (lead - 0xF0, [tail, tail, tail])
  else if lead = 0xF4 then some (4, [(0x80, 0x8F), tail, tail])
  else none

/-- Reads the bytes a lead byte announced, as far as they come. The first component is `none`
where the sequence breaks off; the second is what is left to read. -/
def follow : List (Nat × Nat) → Nat → Bytes → Option Nat × Bytes
  | [], bits, bytes => (some bits, bytes)
  | _ :: _, _, [] => (none, [])
  | (low, high) :: bounds, bits, byte :: bytes =>
    if low ≤ byte.toNat ∧ byte.toNat ≤ high then
      follow bounds (bits * 64 + byte.toNat % 64) bytes
    else (none, byte :: bytes)

theorem follow_length_le (bounds : List (Nat × Nat)) (bits : Nat) (bytes : Bytes) :
    (follow bounds bits bytes).2.length ≤ bytes.length := by
  induction bounds generalizing bits bytes with
  | nil => simp [follow]
  | cons bound bounds inductionHypothesis =>
    cases bytes with
    | nil => simp [follow]
    | cons byte bytes =>
      simp only [follow]
      split
      · exact Nat.le_succ_of_le (inductionHypothesis _ _)
      · exact Nat.le_refl _

/-- The units of a byte sequence: a character, or `none` for a stretch that is not text. -/
def units : Bytes → List (Option Char)
  | [] => []
  | lead :: bytes =>
    match announced lead.toNat with
    | none => none :: units bytes
    | some (bits, bounds) =>
      ((follow bounds bits bytes).1.map Char.ofNat) :: units (follow bounds bits bytes).2
termination_by bytes => bytes.length
decreasing_by
  · simp
  · exact Nat.lt_succ_of_le (follow_length_le bounds bits bytes)

/-- The text that the bytes spell, if they spell one. -/
def decode? (bytes : Bytes) : Option String :=
  ((units bytes).mapM id).map String.ofList

/-- The text of the bytes with U+FFFD in every gap. -/
def decodeLossy (bytes : Bytes) : String :=
  String.ofList ((units bytes).map fun unit => unit.getD '\uFFFD')

def isValid (bytes : Bytes) : Bool :=
  (decode? bytes).isSome

end Utf8

end ConnectorSettings

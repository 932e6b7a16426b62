/-!
Decoding bytes as UTF-8. Every longest run of bytes that begins a character but cannot go on to be
one is replaced by U+FFFD, so that any bytes have a text, in which an ASCII byte always stands for
itself.
-/
namespace WorkflowLint.Text.Utf8

/-- Where a decoder stands between two bytes. -/
inductive State
  | idle
  /-- Inside a character: its bits so far, the bytes owed, and the range of the next one. -/
  | within (bits owed low high : Nat)
  deriving DecidableEq, Repr

def replacement : Char := '\uFFFD'

/-- Reads a byte between characters: what it adds to the text, and where the decoder then stands. -/
def lead (b : Nat) : List Char × State :=
  if b < 0x80 then ([Char.ofNat b], .idle)
  else if b < 0xC2 then ([replacement], .idle)
  else if b < 0xE0 then ([], .within (b - 0xC0) 1 0x80 0xBF)
  else if b = 0xE0 then ([], .within 0 2 0xA0 0xBF)
  else if b = 0xED then ([], .within 0xD 2 0x80 0x9F)
  else if b < 0xF0 then ([], .within (b - 0xE0) 2 0x80 0xBF)
  else if b = 0xF0 then ([], .within 0 3 0x90 0xBF)
  else if b < 0xF4 then ([], .within (b - 0xF0) 3 0x80 0xBF)
  else if b = 0xF4 then ([], .within 4 3 0x80 0x8F)
  else ([replacement], .idle)

/-- Reads a byte: what it adds to the text, and where the decoder then stands. -/
def step : State → Nat → List Char × State
  | .idle, b => lead b
  | .within bits owed low high, b =>
    if low ≤ b ∧ b ≤ high then
      let bits := bits * 64 + (b - 0x80)
      if owed ≤ 1 then ([Char.ofNat bits], .idle) else ([], .within bits (owed - 1) 0x80 0xBF)
    else
      let (cs, s) := lead b
      (replacement :: cs, s)

/-- What the end of the bytes adds to the text. -/
def State.finish : State → List Char
  | .idle => []
  | .within .. => [replacement]

/-- One step of decoding, on the text so far, last character first. -/
def advance (r : List Char × State) (b : UInt8) : List Char × State :=
  let (cs, s) := step r.2 b.toNat
  (cs.reverse ++ r.1, s)

/-- The text of the bytes, with a replacement character for each part that is not UTF-8. -/
def decode (bytes : List UInt8) : List Char :=
  let (cs, s) := bytes.foldl advance ([], .idle)
  (s.finish ++ cs).reverse

def encode (cs : List Char) : List UInt8 :=
  cs.flatMap String.utf8EncodeChar

/-- The text of the bytes, where all of them are UTF-8. -/
def decode? (bytes : List UInt8) : Option (List Char) :=
  let cs := decode bytes
  if encode cs = bytes then some cs else none

theorem lead_of_lt {b : Nat} (h : b < 0x80) : lead b = ([Char.ofNat b], .idle) := by
  simp [lead, h]

example : decode [0xE2, 0x82, 0x0A, 0xC3, 0xA9, 0xFF] = ['\uFFFD', '\n', 'é', '\uFFFD'] := by
  decide

end WorkflowLint.Text.Utf8

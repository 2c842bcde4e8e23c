namespace Harvest.Text.Utf8

structure Pending where
  needed : Nat
  low : Nat
  high : Nat
  value : Nat

inductive Start where
  | whole (c : Char)
  | longer (p : Pending)
  | invalid

/-- The second byte's range keeps out overlong forms, surrogates and values above U+10FFFF. -/
def start (b : Nat) : Start :=
  if b < 0x80 then .whole (Char.ofNat b)
  else if b < 0xC2 then .invalid
  else if b < 0xE0 then .longer ⟨1, 0x80, 0xBF, b - 0xC0⟩
  else if b < 0xF0 then
    .longer ⟨2, if b = 0xE0 then 0xA0 else 0x80, if b = 0xED then 0x9F else 0xBF, b - 0xE0⟩
  else if b < 0xF5 then
    .longer ⟨3, if b = 0xF0 then 0x90 else 0x80, if b = 0xF4 then 0x8F else 0xBF, b - 0xF0⟩
  else .invalid

def replacement : Char := '\uFFFD'

def begin (b : Nat) : List Char × Option Pending :=
  match start b with
  | .whole c => ([c], none)
  | .longer p => ([], some p)
  | .invalid => ([replacement], none)

def step : Option Pending → Nat → List Char × Option Pending
  | none, b => begin b
  | some p, b =>
    if p.low ≤ b && b ≤ p.high then
      let value := p.value * 0x40 + (b - 0x80)
      if p.needed ≤ 1 then ([Char.ofNat value], none)
      else ([], some ⟨p.needed - 1, 0x80, 0xBF, value⟩)
    else (replacement :: (begin b).1, (begin b).2)

def decodeFrom : Option Pending → List Nat → List Char
  | none, [] => []
  | some _, [] => [replacement]
  | pending, b :: rest => (step pending b).1 ++ decodeFrom (step pending b).2 rest

/-- Each longest part that begins a character but does not end one, and each byte that begins none,
becomes U+FFFD. -/
def decode (bytes : List Nat) : List Char :=
  decodeFrom none bytes

end Harvest.Text.Utf8

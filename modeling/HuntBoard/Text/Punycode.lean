-- Punycode: a text of any characters in letters, digits and hyphens, as names
-- of hosts need it. The plain characters come first; the others follow, in
-- the order of their code points, as steps from one to the next.

namespace HuntBoard.Text.Punycode

/-- The digits of the base 36: letters, then decimal digits. -/
def digit (n : Nat) : Char :=
  if n < 26 then Char.ofNat ('a'.toNat + n) else Char.ofNat ('0'.toNat + (n - 26))

/-- Digits below the threshold of their place end a number. -/
def threshold (place bias : Nat) : Nat :=
  if place ≤ bias then 1 else if bias + 26 ≤ place then 26 else place - bias

theorem threshold_pos (place bias : Nat) : 1 ≤ threshold place bias := by
  unfold threshold
  split
  · omega
  · split <;> omega

theorem threshold_le (place bias : Nat) : threshold place bias ≤ 26 := by
  unfold threshold
  split
  · omega
  · split <;> omega

/-- A number in digits, the least significant first, from a place on. -/
def number (bias place n : Nat) : List Char :=
  let t := threshold place bias
  if n < t then [digit n]
  else digit (t + (n - t) % (36 - t)) :: number bias (place + 36) ((n - t) / (36 - t))
termination_by n
decreasing_by
  have h1 := threshold_pos place bias
  have h2 : (n - threshold place bias) / (36 - threshold place bias) ≤ n - threshold place bias :=
    Nat.div_le_self _ _
  omega

/-- Shrink a step until it is small, counting by the base. -/
def shrink (step places : Nat) : Nat × Nat :=
  if 455 < step then shrink (step / 35) (places + 36) else (step, places)
termination_by step
decreasing_by exact Nat.div_lt_self (by omega) (by omega)

/-- The bias after a step, for a text of so many characters up to there. -/
def adapt (step characters : Nat) (first : Bool) : Nat :=
  let step := if first then step / 700 else step / 2
  let (small, places) := shrink (step + step / characters) 0
  places + 36 * small / (small + 38)

structure Encoder where
  written : List Char := []
  step : Nat := 0
  bias : Nat := 72
  handled : Nat

/-- Pass a character of the text while characters with a code point are written. -/
def pass (plain point : Nat) (e : Encoder) (c : Char) : Encoder :=
  if c.toNat < point then { e with step := e.step + 1 }
  else if c.toNat = point then
    { written := e.written ++ number e.bias 36 e.step
      step := 0
      bias := adapt e.step (e.handled + 1) (e.handled == plain)
      handled := e.handled + 1 }
  else e

/-- Write the characters with each of the code points, in order. -/
def points (text : List Char) (plain : Nat) : List Nat → Nat → Encoder → Encoder
  | [], _, e => e
  | point :: rest, next, e =>
    let e := text.foldl (pass plain point) { e with step := e.step + (point - next) * (e.handled + 1) }
    points text plain rest (point + 1) { e with step := e.step + 1 }

def encode (text : List Char) : List Char :=
  let plain := text.filter fun c => c.toNat < 128
  let others := ((text.filter fun c => 128 ≤ c.toNat).map Char.toNat).eraseDups.mergeSort
  let e := points text plain.length others 128 { handled := plain.length }
  plain ++ (if plain.isEmpty then [] else ['-']) ++ e.written

end HuntBoard.Text.Punycode

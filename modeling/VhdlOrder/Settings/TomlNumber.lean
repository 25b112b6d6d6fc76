import VhdlOrder.Settings.TomlReader

/-! # Numbers in TOML

Integers of 64 bits with a sign, also written with the bases 16, 8 and 2, and numbers with a fraction or
an exponent. A single underscore may stand between two digits. A number that is too large is none, but
one below zero may be as large as it likes if it has a fraction or an exponent.
-/

namespace VhdlOrder.Toml

/-- Reads digits behind the first one, with single underscores between them. -/
def moreDigits (isDigit : Char → Bool) : Reader (List Char) := fix fun further => do
  if ← next isDigit then
    let c ← one isDigit
    return c :: (← further)
  else if ← accept ['_'] then
    let c ← one isDigit
    return c :: (← further)
  else return []

/-- Reads one or more digits. -/
def someDigits (isDigit : Char → Bool) : Reader (List Char) := do
  let first ← one isDigit
  return first :: (← moreDigits isDigit)

/-- Reads a plus or a minus if one is next; answers whether it is a minus. -/
def sign : Reader Bool := do
  if ← accept ['-'] then return true
  else
    let _ ← accept ['+']
    return false

/-- Reads a whole number with its sign. Only zero begins with a zero. -/
def whole : Reader (Bool × List Char) := do
  let negative ← sign
  if ← accept ['0'] then return (negative, ['0'])
  else return (negative, ← someDigits Char.isDigit)

/-- The value of digits. -/
def valueOf (base : Nat) (found : List Char) : Nat :=
  found.foldl (fun value c => base * value + (hexValue? c).getD 0) 0

/-- Reads an exponent. -/
def exponent : Reader Int := do
  let _ ← one fun c => c == 'e' || c == 'E'
  let negative ← sign
  let value := valueOf 10 (← someDigits Char.isDigit)
  return if negative then -(value : Int) else value

/-- Whether `value` times ten to the power `exponent` is nearer to two to the power 1024 than to any
number of 53 bits below it. -/
def isTooLarge (value : Nat) (exponent : Int) : Bool :=
  let size := ((toString value).length : Int) + exponent
  let limit := Nat.pow 2 1024 - Nat.pow 2 970
  if value = 0 || size ≤ 308 then false
  else if 310 ≤ size then true
  else if 0 ≤ exponent then limit ≤ value * Nat.pow 10 exponent.toNat
  else limit * Nat.pow 10 (-exponent).toNat ≤ value

/-- Reads a number with a fraction, an exponent or both. -/
def fractional : Reader Unit := do
  let (negative, before) ← whole
  let behind ← if ← accept ['.'] then someDigits Char.isDigit else pure []
  let power ← if behind.isEmpty then some <$> exponent else attempt exponent
  if negative || !isTooLarge (valueOf 10 (before ++ behind)) (power.getD 0 - behind.length) then return
  else failure

/-- Reads infinity or a value that is no number, with its sign. -/
def special : Reader Unit := do
  let _ ← sign
  if ← accept ['i', 'n', 'f'] then return
  else if ← accept ['n', 'a', 'n'] then return
  else failure

/-- Reads an integer. Only one that is written with the base 10 may have a sign. -/
def integer : Reader Unit := do
  let prefixed : List (Char × Nat × (Char → Bool)) :=
    [('x', 16, fun c => (hexValue? c).isSome), ('o', 8, fun c => '0' ≤ c && c ≤ '7'),
      ('b', 2, fun c => c == '0' || c == '1')]
  for (mark, base, isDigit) in prefixed do
    if ← accept ['0', mark] then
      if valueOf base (← someDigits isDigit) < Nat.pow 2 63 then return else failure
  let (negative, found) ← whole
  let limit := if negative then Nat.pow 2 63 + 1 else Nat.pow 2 63
  if valueOf 10 found < limit then return else failure

/-- Reads a number. -/
def number : Reader Unit := do
  match ← attempt fractional with
  | some _ => return
  | none =>
      match ← attempt special with
      | some _ => return
      | none => integer

end VhdlOrder.Toml

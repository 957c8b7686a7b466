import EventProcessing.Decimal.Shortest
import EventProcessing.Json.Value

namespace EventProcessing.Json

def hexDigit (n : Nat) : Char := if n < 10 then Char.ofNat (48 + n) else Char.ofNat (87 + n)

def escaped (c : Char) : List Char :=
  if c = '"' then ['\\', '"']
  else if c = '\\' then ['\\', '\\']
  else if 0x20 ≤ c.toNat then [c]
  else if c.toNat = 0x08 then ['\\', 'b']
  else if c.toNat = 0x0c then ['\\', 'f']
  else if c.toNat = 0x0a then ['\\', 'n']
  else if c.toNat = 0x0d then ['\\', 'r']
  else if c.toNat = 0x09 then ['\\', 't']
  else ['\\', 'u', '0', '0', hexDigit (c.toNat / 16), hexDigit (c.toNat % 16)]

def stringText (text : String) : List Char := '"' :: text.toList.flatMap escaped ++ ['"']

def intText : Int → List Char
  | .ofNat n => Nat.toDigits 10 n
  | .negSucc n => '-' :: Nat.toDigits 10 (n + 1)

def zeros (n : Nat) : List Char := List.replicate n '0'

def exponentText (exponent : Int) : List Char :=
  'e' :: (if 0 ≤ exponent then ['+'] else []) ++ intText exponent

/-- Positional from `10 ^ -5` up to below `10 ^ 16`, else one digit before the point and an
exponent. -/
def digitsText (d : Decimal.Digits) : List Char :=
  let digits := Nat.toDigits 10 d.digits
  let point : Int := digits.length + d.exponent
  if 0 ≤ d.exponent ∧ point ≤ 16 then digits ++ zeros d.exponent.toNat ++ ['.', '0']
  else if 0 < point ∧ point ≤ 16 then digits.take point.toNat ++ '.' :: digits.drop point.toNat
  else if -5 < point ∧ point ≤ 0 then '0' :: '.' :: zeros point.natAbs ++ digits
  else
    let fraction := if digits.length = 1 then [] else '.' :: digits.drop 1
    digits.take 1 ++ fraction ++ exponentText (point - 1)

def doubleText (bits : UInt64) : List Char :=
  let b := Decimal.Binary.ofBits bits
  (if b.negative then ['-'] else []) ++ digitsText (Decimal.shortest b)

def Number.text : Number → List Char
  | .integer n => intText n
  | .double bits => doubleText bits

mutual

def text : Json → List Char
  | .null => "null".toList
  | .bool true => "true".toList
  | .bool false => "false".toList
  | .number n => n.text
  | .string s => stringText s
  | .array elements => '[' :: elementsText elements ++ [']']
  | .object fields => '\x7b' :: fieldsText fields ++ ['\x7d']

def elementsText : List Json → List Char
  | [] => []
  | [x] => text x
  | x :: y :: rest => text x ++ ',' :: elementsText (y :: rest)

def fieldsText : List (String × Json) → List Char
  | [] => []
  | [(k, v)] => stringText k ++ ':' :: text v
  | (k, v) :: w :: rest => stringText k ++ ':' :: text v ++ ',' :: fieldsText (w :: rest)

end

def compact (value : Json) : String := String.ofList value.text

end EventProcessing.Json

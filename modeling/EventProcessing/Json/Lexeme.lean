import EventProcessing.Decimal.Scaled
import EventProcessing.Json.Fault

/-!
The lexemes of a JSON text, read from the front of a list of characters: blanks, words, strings and
numbers. A reader gives what it read and the rest of the text.
-/

namespace EventProcessing.Json

abbrev Front (α : Type) := α × List Char

abbrev Reader (α : Type) := List Char → Except Fault (Front α)

def isBlank (c : Char) : Bool := c = ' ' || c = '\n' || c = '\t' || c = '\r'

def skipBlanks (cs : List Char) : List Char := cs.dropWhile isBlank

def readWord : List Char → List Char → Except Fault (List Char)
  | [], rest => .ok rest
  | _ :: _, [] => .error .endInValue
  | e :: es, c :: cs => if c = e then readWord es cs else .error .expectedIdent

section Strings

/-- Where a reader stands inside a string. After an escaped leading surrogate, `high`, a trailing
one has to follow. -/
inductive Spot where
  | plain
  | escape
  | hex (left value : Nat) (high : Option Nat)
  | pairSlash (high : Nat)
  | pairLetter (high : Nat)

inductive StringStep where
  | close
  | next (spot : Spot) (read : List Char)

def hexValue? (c : Char) : Option Nat :=
  if '0' ≤ c ∧ c ≤ '9' then some (c.toNat - 48)
  else if 'a' ≤ c ∧ c ≤ 'f' then some (c.toNat - 87)
  else if 'A' ≤ c ∧ c ≤ 'F' then some (c.toNat - 55)
  else none

def simpleEscape? : Char → Option Char
  | '"' => some '"'
  | '\\' => some '\\'
  | '/' => some '/'
  | 'b' => some '\x08'
  | 'f' => some '\x0c'
  | 'n' => some '\n'
  | 'r' => some '\r'
  | 't' => some '\t'
  | _ => none

def byteCount (cs : List Char) : Nat := cs.foldl (fun n c => n + c.utf8Size) 0

/-- A hex escape of four digits is complete. A text that is skipped may hold any of them. -/
def hexDone (paired : Bool) (value : Nat) : Option Nat → Except Fault StringStep
  | none =>
    if !paired then .ok (.next .plain [])
    else if 0xdc00 ≤ value ∧ value ≤ 0xdfff then .error .loneSurrogate
    else if 0xd800 ≤ value ∧ value ≤ 0xdbff then .ok (.next (.pairSlash value) [])
    else .ok (.next .plain [Char.ofNat value])
  | some high =>
    if 0xdc00 ≤ value ∧ value ≤ 0xdfff then
      .ok (.next .plain [Char.ofNat ((high - 0xd800) * 0x400 + (value - 0xdc00) + 0x10000)])
    else .error .loneSurrogate

def stringStep (paired : Bool) : Spot → Char → List Char → Except Fault StringStep
  | .plain, c, _ =>
    if c = '"' then .ok .close
    else if c = '\\' then .ok (.next .escape [])
    else if c.toNat < 0x20 then .error .controlCharacter
    else .ok (.next .plain [c])
  | .escape, c, _ =>
    if c = 'u' then .ok (.next (.hex 4 0 none) [])
    else match simpleEscape? c with
      | some e => .ok (.next .plain [e])
      | none => .error .invalidEscape
  | .hex left value high, c, rest =>
    match hexValue? c with
    | some d =>
      if left ≤ 1 then hexDone paired (value * 16 + d) high
      else .ok (.next (.hex (left - 1) (value * 16 + d) high) [])
    | none =>
      if byteCount (c :: rest) < left then .error .endInString else .error .invalidEscape
  | .pairSlash high, c, _ =>
    if c = '\\' then .ok (.next (.pairLetter high) []) else .error .unfinishedHexEscape
  | .pairLetter high, c, _ =>
    if c = 'u' then .ok (.next (.hex 4 0 (some high)) []) else .error .unfinishedHexEscape

def stringBody (paired : Bool) : Spot → Reader (List Char)
  | _, [] => .error .endInString
  | spot, c :: rest =>
    match stringStep paired spot c rest with
    | .error fault => .error fault
    | .ok .close => .ok ([], rest)
    | .ok (.next spot read) => (stringBody paired spot rest).map fun r => (read ++ r.1, r.2)

def readString (cs : List Char) : Except Fault (Front String) :=
  (stringBody true .plain cs).map fun r => (String.ofList r.1, r.2)

def skipString (cs : List Char) : Except Fault (List Char) :=
  (stringBody false .plain cs).map Prod.snd

end Strings

section Numbers

def digitValue (c : Char) : Nat := c.toNat - 48

def digitsOf (cs : List Char) : List Char := cs.takeWhile Char.isDigit

def afterDigits (cs : List Char) : List Char := cs.dropWhile Char.isDigit

def absorb (significand : Nat) : List Char → Nat × Nat
  | [] => (significand, 0)
  | c :: cs =>
    if significand * 10 + digitValue c < UInt64.size then
      absorb (significand * 10 + digitValue c) cs
    else (significand, cs.length + 1)

def natOf (digits : List Char) : Nat := digits.foldl (fun n c => n * 10 + digitValue c) 0

def readScaled (negative : Bool) (significand : Nat) (exponent : Int) (rest : List Char) :
    Except Fault (Front Number) :=
  match Decimal.toDouble? negative significand exponent with
  | some bits => .ok (.double bits, rest)
  | none => .error .numberOutOfRange

def readExponent (negative : Bool) (significand : Nat) (exponent : Int) (cs : List Char) :
    Except Fault (Front Number) :=
  let (down, cs) : Bool × List Char := match cs with
    | '+' :: rest => (false, rest)
    | '-' :: rest => (true, rest)
    | _ => (false, cs)
  match cs with
  | [] => .error .endInValue
  | c :: _ =>
    if c.isDigit then
      let n : Int := natOf (digitsOf cs)
      readScaled negative significand (if down then exponent - n else exponent + n)
        (afterDigits cs)
    else .error .invalidNumber

def readFraction (negative : Bool) (significand : Nat) (exponent : Int) (cs : List Char) :
    Except Fault (Front Number) :=
  match cs with
  | [] => .error .endInValue
  | c :: _ =>
    if c.isDigit then
      let fraction := digitsOf cs
      let (significand, left) := absorb significand fraction
      let exponent := exponent - (fraction.length - left : Nat)
      match afterDigits cs with
      | 'e' :: rest | 'E' :: rest => readExponent negative significand exponent rest
      | rest => readScaled negative significand exponent rest
    else .error .invalidNumber

/-- An integer in range stays exact. Zero with a sign is a double. -/
def integerOf (negative : Bool) (n : Nat) (rest : List Char) : Except Fault (Front Number) :=
  if !negative then .ok (.integer n, rest)
  else if 0 < n ∧ n ≤ 1 <<< 63 then .ok (.integer (-n), rest)
  else readScaled true n 0 rest

def readNumber (negative : Bool) (cs : List Char) : Except Fault (Front Number) :=
  match cs with
  | [] => .error .endInValue
  | c :: tail =>
    if !c.isDigit then .error .invalidNumber
    else if c = '0' ∧ (tail.head?.any Char.isDigit) then .error .invalidNumber
    else
      let (significand, left) := absorb 0 (digitsOf cs)
      match afterDigits cs with
      | '.' :: rest => readFraction negative significand left rest
      | 'e' :: rest | 'E' :: rest => readExponent negative significand left rest
      | rest =>
        if left = 0 then integerOf negative significand rest
        else readScaled negative significand left rest

def skipExponent (cs : List Char) : Except Fault (List Char) :=
  let cs := match cs with
    | '+' :: rest | '-' :: rest => rest
    | _ => cs
  if cs.head?.any Char.isDigit then .ok (afterDigits cs) else .error .invalidNumber

def skipNumber (cs : List Char) : Except Fault (List Char) :=
  match cs with
  | [] => .error .invalidNumber
  | c :: tail =>
    if !c.isDigit then .error .invalidNumber
    else if c = '0' ∧ (tail.head?.any Char.isDigit) then .error .invalidNumber
    else match afterDigits cs with
      | '.' :: rest =>
        if rest.head?.any Char.isDigit then
          match afterDigits rest with
          | 'e' :: rest | 'E' :: rest => skipExponent rest
          | rest => .ok rest
        else .error .invalidNumber
      | 'e' :: rest | 'E' :: rest => skipExponent rest
      | rest => .ok rest

end Numbers

end EventProcessing.Json

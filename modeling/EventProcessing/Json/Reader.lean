import EventProcessing.Json.Lexeme

/-!
Reading JSON values. `read?` takes a whole text. An object keeps the last value of a repeated key,
and no more than `depthLimit` lists and objects stand inside one another.
-/

namespace EventProcessing.Json

def depthLimit : Nat := 127

def readColon (cs : List Char) : Except Fault (List Char) :=
  match skipBlanks cs with
  | [] => .error .endInObject
  | ':' :: rest => .ok rest
  | _ => .error .expectedColon

def nextElement (first : Bool) (cs : List Char) : Except Fault (Option (List Char)) :=
  match skipBlanks cs with
  | [] => .error .endInList
  | ']' :: _ => .ok none
  | c :: rest =>
    if first then .ok (some (c :: rest))
    else if c = ',' then
      match skipBlanks rest with
      | [] => .error .endInValue
      | ']' :: _ => .error .trailingComma
      | more => .ok (some more)
    else .error .expectedListEnd

def closeList (cs : List Char) : Except Fault (List Char) :=
  match skipBlanks cs with
  | [] => .error .endInList
  | ']' :: rest => .ok rest
  | ',' :: rest =>
    match skipBlanks rest with
    | ']' :: _ => .error .trailingComma
    | _ => .error .trailingCharacters
  | _ => .error .trailingCharacters

def nextKey (first : Bool) (cs : List Char) : Except Fault (Option String × List Char) :=
  match skipBlanks cs with
  | [] => .error .endInObject
  | '\x7d' :: rest => .ok (none, rest)
  | c :: rest =>
    if first then
      if c = '"' then (readString rest).map fun r => (some r.1, r.2) else .error .keyNotString
    else if c = ',' then
      match skipBlanks rest with
      | [] => .error .endInValue
      | '"' :: rest => (readString rest).map fun r => (some r.1, r.2)
      | '\x7d' :: _ => .error .trailingComma
      | _ => .error .keyNotString
    else .error .expectedObjectEnd

variable {α ς : Type}

/-- The elements up to the closing bracket, which is left in the text. Every element takes a
character, so fuel for each character is enough. -/
def readElements (element : Reader α) : Nat → Bool → Reader (List α)
  | 0, _, _ => .error .endInList
  | fuel + 1, first, cs => do
    match ← nextElement first cs with
    | none => return ([], cs)
    | some cs =>
      let (x, cs) ← element cs
      let (xs, cs) ← readElements element fuel false cs
      return (x :: xs, cs)

def readFields (field : ς → String → Except Fault (Reader ς)) :
    Nat → Bool → ς → Reader ς
  | 0, _, _, _ => .error .endInObject
  | fuel + 1, first, state, cs => do
    match ← nextKey first cs with
    | (none, cs) => return (state, cs)
    | (some key, cs) =>
      let value ← field state key
      let cs ← readColon cs
      let (state, cs) ← value cs
      readFields field fuel false state cs

def readList (element : Reader α) (cs : List Char) : Except Fault (Front (List α)) := do
  let (xs, cs) ← readElements element (cs.length + 1) true cs
  return (xs, ← closeList cs)

def readObject (field : ς → String → Except Fault (Reader ς)) (start : ς)
    (cs : List Char) : Except Fault (Front ς) :=
  readFields field (cs.length + 1) true start cs

def readWith (list object : Reader Json) (cs : List Char) : Except Fault (Front Json) :=
  match skipBlanks cs with
  | [] => .error .endInValue
  | 'n' :: rest => do return (.null, ← readWord "ull".toList rest)
  | 't' :: rest => do return (.bool true, ← readWord "rue".toList rest)
  | 'f' :: rest => do return (.bool false, ← readWord "alse".toList rest)
  | '"' :: rest => (readString rest).map fun r => (.string r.1, r.2)
  | '-' :: rest => (readNumber true rest).map fun r => (.number r.1, r.2)
  | '[' :: rest => list rest
  | '\x7b' :: rest => object rest
  | c :: rest =>
    if c.isDigit then (readNumber false (c :: rest)).map fun r => (.number r.1, r.2)
    else .error .expectedValue

def entry (value : Reader Json) (object : Object) (key : String) :
    Except Fault (Reader Object) :=
  .ok fun cs => (value cs).map fun r => (object.put key r.1, r.2)

def readValue : Nat → Reader Json
  | 0 => readWith (fun _ => .error .nestedTooDeep) (fun _ => .error .nestedTooDeep)
  | depth + 1 =>
    readWith
      (fun cs => (readList (readValue depth) cs).map fun r => (.array r.1, r.2))
      (fun cs => (readObject (entry (readValue depth)) .empty cs).map fun r =>
        (.object r.1.fields, r.2))

def readWhole (document : Reader α) (text : String) : Except Fault α := do
  let (value, rest) ← document text.toList
  match skipBlanks rest with
  | [] => return value
  | _ => .error .trailingCharacters

def read? (text : String) : Except Fault Json := readWhole (readValue depthLimit) text

end EventProcessing.Json
